import Harvest.Proofs.Session.Completeness
import Harvest.Proofs.World.Akin

/-! Two sessions for one job in worlds that they cannot tell apart. One of them is begun later and
can be stopped; the other one is left alone. As long as nobody stops the first, both make the same
moves, the first always by the same time later: they are twins, only that their sinks may have found
other events to be new. Once it is stopped it is doomed to say so in its report. -/

namespace Harvest

def Pacer.later (d : Nat) (p : Pacer) : Pacer := { p with last := p.last.map (· + d) }

theorem Pacer.due_later (d : Nat) (p : Pacer) (now : Nat) :
    (p.later d).due (now + d) = p.due now + d := by
  cases hl : p.last with
  | none => simp only [due, ready?, later, hl, Option.map_none, Option.getD_none, Nat.max_zero]
  | some last =>
    simp only [due, ready?, later, hl, Option.map_some, Option.getD_some]
    omega

/-- The stage, reached later by `d` under another wall clock. -/
def Stage.later (d : Nat) (wall : UInt64) : Stage → Stage
  | ready due => ready (due + d)
  | connecting w n due result => connecting w n (due + d) result
  | pacing w n due => pacing w n (due + d)
  | querying w n due result => querying w n (due + d) result
  | resting w n due => resting w n (due + d)
  | storing b n after due refusal =>
    storing { b with observedAt := wall } n after (due + d) refusal
  | storeResting b n after due => storeResting { b with observedAt := wall } n after (due + d)
  | salvaging b reason due heeds =>
    salvaging { b with observedAt := wall } reason (due + d) heeds
  | ended outcome at_ => ended outcome (at_ + d)
  | crashed at_ => crashed (at_ + d)

/-- What is to be handed over last is handed over before the session can be cancelled. -/
def Stage.InTime (c : Control) : Stage → Prop
  | salvaging _ _ due _ => ∀ t, c.cancelAt = some t → due < t
  | _ => True

namespace Session

/-- The same session begun later by `d` under another wall clock, where another number of its events
was new to the sink. -/
def twin (d : Nat) (wall : UInt64) (stored : Nat) (s : Session) : Session :=
  { s with
    started := s.started + d, wall, pacer := s.pacer.later d, stats := { s.stats with stored }
    stage := s.stage.later d wall }

/-- The second session does later by `d` what the first one does. -/
def Twins (c : Control) (d : Nat) (wall : UInt64) (x y : World × Session) : Prop :=
  ∃ stored, y.2 = x.2.twin d wall stored ∧ World.Akin x.2.relay x.1 y.1 ∧ y.2.stage.InTime c

/-- The session was stopped, and will say so. -/
def Doomed (s : Session) : Prop :=
  match s.stage with
  | .salvaging _ reason _ _ | .ended (.abandoned reason) _ =>
    reason = .shutdown ∨ reason = .cancelled
  | _ => False

/-- The sessions stay twins, unless the second one was stopped for a reason that there is. -/
def TwinsUnless (stopped : Prop) (c : Control) (d : Nat) (wall : UInt64) (x y : World × Session) :
    Prop :=
  Twins c d wall x y ∨ stopped ∧ y.2.Doomed

theorem Doomed.report {s : Session} (h : s.Doomed) {r : Report} (hr : s.report? = some r) :
    r.outcome = .abandoned .shutdown ∨ r.outcome = .abandoned .cancelled := by
  unfold report? at hr
  split at hr
  · rename_i outcome at_ hs
    obtain rfl := Option.some.inj hr
    simp only [Doomed, hs] at h
    cases outcome with
    | abandoned reason => exact h.imp (congrArg _) (congrArg _)
    | drained => exact h.elim
    | sinkFailed fault => exact h.elim
  · cases hr

/-! ## Stopped sessions -/

section Doomed

variable (s : Session) (now : Nat) (world : World) {reason : AbandonReason}

theorem doomed_close (h : reason = .shutdown ∨ reason = .cancelled) :
    (s.close (.abandoned reason) now world).2.Doomed := h

theorem doomed_abandon (h : reason = .shutdown ∨ reason = .cancelled) :
    (s.abandon reason now world).2.Doomed := by
  simp only [abandon]
  split
  · exact doomed_close _ now world h
  · exact h

theorem doomed_settleSalvage (h : reason = .shutdown ∨ reason = .cancelled) (b : Batch)
    (heeds : Bool) : (s.settleSalvage b reason heeds now world).2.Doomed := by
  unfold settleSalvage
  split
  · split
    · exact doomed_close _ now _ h
    · exact doomed_close _ now _ h
  · exact doomed_close _ now _ h

/-- A session at work has not been stopped yet. -/
theorem not_doomed_of_live {s : Session} (hl : s.isOver = false)
    (hn : ∀ b reason due heeds, s.stage ≠ .salvaging b reason due heeds) : ¬ s.Doomed := by
  intro h
  simp only [Doomed] at h
  cases hs : s.stage with
  | salvaging b reason due heeds => exact hn b reason due heeds hs
  | ended => rw [isOver, hs] at hl; cases hl
  | _ => rw [hs] at h; exact h

theorem Doomed.step {s : Session} (h : s.Doomed) (c : Control) (world : World) :
    (s.step c world).2.Doomed := by
  have hproceed (shutdown : Bool) : (s.proceed shutdown world).2.Doomed := by
    rw [proceed]
    simp only [Doomed] at h
    cases hs : s.stage with
    | salvaging b reason now heeds =>
      rw [hs] at h
      exact doomed_settleSalvage s now world h b heeds
    | ended outcome =>
      rw [hs] at h
      simp only [Doomed, hs]
      exact h
    | _ => rw [hs] at h; exact h.elim
  rcases s.step_cases c world with hs | ⟨reason, now, hs⟩ | ⟨shutdown, hs⟩
  · rw [hs]
    exact h
  · rw [hs]
    rcases s.interrupt_cases reason now world with
      ⟨-, hi⟩ | ⟨b, reason', due, heeds, hsalvage, hi⟩ | ⟨hl, hn, -⟩
    · rw [hi]
      exact h
    · rw [hi]
      simp only [Doomed, hsalvage] at h
      exact doomed_close s now world h
    · exact absurd h (not_doomed_of_live hl hn)
  · rw [hs]
    exact hproceed shutdown

end Doomed

/-! ## The parts of a move -/

variable {c : Control} {d : Nat} {wall : UInt64} {a b : World} {s : Session} (n : Nat)

theorem twins_close (h : World.Akin s.relay a b) (outcome : Outcome) (now : Nat) :
    Twins c d wall (s.close outcome now a) ((s.twin d wall n).close outcome (now + d) b) := by
  have hc : (s.twin d wall n).connected = s.connected := rfl
  simp only [close, disconnect, hc]
  split
  · exact ⟨n, rfl, h.closed, trivial⟩
  · exact ⟨n, rfl, h, trivial⟩

theorem twins_salvage (h : World.Akin s.relay a b) (reason : AbandonReason) {now : Nat}
    (ht : ∀ t, c.cancelAt = some t → now + d < t) :
    Twins c d wall (s.salvage reason now a) ((s.twin d wall n).salvage reason (now + d) b) := by
  obtain ⟨hakin, ha, hb⟩ := h.hand s.batch (s.twin d wall n).batch now (now + d)
  refine ⟨n, ?_, hakin, ?_⟩
  · simp only [salvage, ha, hb, Nat.zero_min]
    rfl
  · simp only [salvage, hb, Nat.zero_min]
    exact ht

theorem twins_abandon (h : World.Akin s.relay a b) (reason : AbandonReason) {now : Nat}
    (ht : ∀ t, c.cancelAt = some t → now + d < t) :
    Twins c d wall (s.abandon reason now a) ((s.twin d wall n).abandon reason (now + d) b) := by
  have hp : (s.twin d wall n).pending = s.pending := rfl
  simp only [abandon, hp]
  split
  · apply twins_close
    exact h
  · apply twins_salvage
    · exact h
    · exact ht

theorem twins_giveUp (h : World.Akin s.relay a b) (reason : AbandonReason) {now : Nat}
    (ht : ∀ t, c.cancelAt = some t → now + d < t) :
    Twins c d wall (s.giveUp reason now a) ((s.twin d wall n).giveUp reason (now + d) b) := by
  apply twins_abandon
  · exact h
  · exact ht

theorem pace_twin (s : Session) (w : Window) (retries now : Nat) :
    (s.twin d wall n).pace w retries (now + d) = (s.pace w retries now).twin d wall n := by
  have hd : (s.twin d wall n).pacer.due (now + d) = s.pacer.due now + d := s.pacer.due_later d now
  rw [pace, hd]
  rfl

theorem twins_attempt (h : World.Akin s.relay a b) (w : Window) (retries now : Nat) :
    Twins c d wall (s.attempt w retries now a)
      ((s.twin d wall n).attempt w retries (now + d) b) := by
  have hc : (s.twin d wall n).connected = s.connected := rfl
  rw [attempt, attempt, hc]
  split
  · exact ⟨n, pace_twin n s w retries now, h, trivial⟩
  · obtain ⟨hakin, hcall⟩ := h.connect
    refine ⟨n, ?_, hakin, trivial⟩
    have hr : (s.twin d wall n).relay = s.relay := rfl
    simp only [hr, hcall, Nat.add_right_comm now d]
    rfl

theorem twins_ask (h : World.Akin s.relay a b) (w : Window) (retries now : Nat) :
    Twins c d wall (s.ask w retries now a) ((s.twin d wall n).ask w retries (now + d) b) := by
  obtain ⟨hakin, hcall⟩ := h.query (s.queryFor w) s.settings.queryTimeout now (now + d)
  refine ⟨n, ?_, hakin, trivial⟩
  have hr : (s.twin d wall n).relay = s.relay := rfl
  have hq : (s.twin d wall n).queryFor w = s.queryFor w := rfl
  have hs : (s.twin d wall n).settings = s.settings := rfl
  simp only [ask, hr, hq, hs, hcall, Nat.add_right_comm now d]
  rfl

theorem twins_fail (h : World.Akin s.relay a b) (w : Window) (retries : Nat) (fault : LinkFault)
    {now : Nat} (ht : ∀ t, c.cancelAt = some t → now + d < t) :
    Twins c d wall (s.fail w retries fault now a)
      ((s.twin d wall n).fail w retries fault (now + d) b) := by
  have hd : (s.disconnect a).2.relay = s.relay ∧
      ((s.twin d wall n).disconnect b).2 = (s.disconnect a).2.twin d wall n ∧
      World.Akin s.relay (s.disconnect a).1 ((s.twin d wall n).disconnect b).1 := by
    have hc : (s.twin d wall n).connected = s.connected := rfl
    simp only [disconnect, hc]
    split
    · exact ⟨rfl, rfl, h.closed⟩
    · exact ⟨rfl, rfl, h⟩
  obtain ⟨hr, hs, hakin⟩ := hd
  rw [← hr] at hakin
  simp only [fail, hs]
  generalize (s.disconnect a).2 = s' at hakin
  have hq : (s'.twin d wall n).settings = s'.settings := rfl
  rw [hq]
  split
  · refine ⟨n, ?_, hakin, trivial⟩
    simp only [Nat.add_right_comm now d]
    rfl
  · apply twins_giveUp
    · exact hakin
    · exact ht

theorem twins_store (h : World.Akin s.relay a b) (batch : Batch) (retries : Nat) (after : After)
    (now : Nat) :
    Twins c d wall (s.store batch retries after now a)
      ((s.twin d wall n).store { batch with observedAt := wall } retries after (now + d) b) := by
  obtain ⟨hakin, ha, hb⟩ := h.hand batch { batch with observedAt := wall } now (now + d)
  refine ⟨n, ?_, hakin, trivial⟩
  simp only [store, ha, hb]
  rfl

theorem twins_flush (h : World.Akin s.relay a b) (after : After) (now : Nat) :
    Twins c d wall (s.flush after now a) ((s.twin d wall n).flush after (now + d) b) := by
  unfold flush
  apply twins_store
  exact h

/-- The second session may find a request to shut down where it takes a window. -/
theorem twins_advance (h : World.Akin s.relay a b) (shutdown : Bool) (now : Nat) :
    TwinsUnless (shutdown = true) c d wall (s.advance false now a)
      ((s.twin d wall n).advance shutdown (now + d) b) := by
  have hn : (s.twin d wall n).splitter.next = s.splitter.next := rfl
  have hp : (s.twin d wall n).pending = s.pending := rfl
  simp only [advance, hn, hp]
  split
  · cases shutdown with
    | true => exact .inr ⟨rfl, doomed_abandon _ _ _ (.inl rfl)⟩
    | false =>
      refine .inl ?_
      apply twins_attempt
      exact h
  · refine .inl ?_
    split
    · exact twins_close n h .drained now
    · exact twins_flush n h .finish now

theorem twins_absorb (h : World.Akin s.relay a b) (w : Window) (received : Nat)
    (oldest : Option Nat) (shutdown : Bool) (now : Nat) (items : List Json) :
    TwinsUnless (shutdown = true) c d wall (s.absorb w received oldest false now a items)
      ((s.twin d wall n).absorb w received oldest shutdown (now + d) b items) := by
  induction items generalizing s oldest with
  | nil =>
    apply twins_advance
    exact h
  | cons item rest ih =>
    unfold absorb
    cases Event.parse item with
    | error fault =>
      dsimp only
      apply ih
      exact h
    | ok e =>
      dsimp only
      -- both have as many events waiting, so both batches are full or neither
      split <;> split
      · refine .inl ?_
        apply twins_flush
        exact h
      · rename_i hfull hnot
        exact absurd hfull hnot
      · rename_i hnot hfull
        exact absurd hfull hnot
      · apply ih
        exact h

theorem twins_settle (h : World.Akin s.relay a b) (batch : Batch) (retries : Nat) (after : After)
    (refusal : Option SinkFault) (shutdown : Bool) (now : Nat) :
    TwinsUnless (shutdown = true) c d wall (s.settle batch retries after refusal false now a)
      ((s.twin d wall n).settle { batch with observedAt := wall } retries after refusal shutdown
        (now + d) b) := by
  have hakin := h.take batch { batch with observedAt := wall } refusal
  cases refusal with
  | none =>
    obtain ⟨x, hx⟩ := World.take_of_accepts h.left batch
    obtain ⟨y, hy⟩ := World.take_of_accepts h.right { batch with observedAt := wall }
    have ha : a.take batch none = ((a.take batch none).1, .ok x) := Prod.ext rfl hx
    have hb : b.take { batch with observedAt := wall } none =
        ((b.take { batch with observedAt := wall } none).1, .ok y) := Prod.ext rfl hy
    rw [settle, settle, ha, hb]
    cases after with
    | reply w received oldest rest =>
      exact twins_absorb (s := s.noteStored batch x) (n + y) hakin w received oldest shutdown now
        rest
    | finish => exact .inl (twins_close (s := s.noteStored batch x) (n + y) hakin .drained now)
  | some fault =>
    refine .inl ?_
    have ha : a.take batch (some fault) = ((a.take batch (some fault)).1, .error fault) := rfl
    have hb : b.take { batch with observedAt := wall } (some fault) =
        ((b.take { batch with observedAt := wall } (some fault)).1, .error fault) := rfl
    have hs : (s.twin d wall n).settings = s.settings := rfl
    rw [settle, settle, ha, hb]
    dsimp only
    rw [hs]
    split
    · refine ⟨n, ?_, hakin, trivial⟩
      simp only [Nat.add_right_comm now d]
      rfl
    · exact twins_close n hakin (.sinkFailed fault) now

theorem twins_settleSalvage (h : World.Akin s.relay a b) (batch : Batch) (reason : AbandonReason)
    (heeds : Bool) (now : Nat) :
    Twins c d wall (s.settleSalvage batch reason heeds now a)
      ((s.twin d wall n).settleSalvage { batch with observedAt := wall } reason heeds (now + d)
        b) := by
  cases heeds with
  | false => exact twins_close n h (.abandoned reason) now
  | true =>
    have hakin := h.take batch { batch with observedAt := wall } none
    obtain ⟨x, hx⟩ := World.take_of_accepts h.left batch
    obtain ⟨y, hy⟩ := World.take_of_accepts h.right { batch with observedAt := wall }
    have ha : a.take batch none = ((a.take batch none).1, .ok x) := Prod.ext rfl hx
    have hb : b.take { batch with observedAt := wall } none =
        ((b.take { batch with observedAt := wall } none).1, .ok y) := Prod.ext rfl hy
    rw [settleSalvage, settleSalvage, ha, hb]
    exact twins_close (s := s.noteStored batch x) (n + y) hakin (.abandoned reason) now

/-! ## Moves -/

theorem twins_proceed (h : World.Akin s.relay a b) (shutdown : Bool)
    (ht : ∀ due, s.stage.due? = some due → ∀ t, c.cancelAt = some t → due + d < t) :
    TwinsUnless (shutdown = true) c d wall (s.proceed false a)
      ((s.twin d wall n).proceed shutdown b) := by
  have hstage : (s.twin d wall n).stage = s.stage.later d wall := rfl
  rw [proceed, proceed, hstage]
  cases hs : s.stage with
  | ready now => exact twins_advance n h shutdown now
  | connecting w retries now result =>
    refine .inl ?_
    cases result with
    | opened =>
      refine ⟨n, ?_, h.opened, trivial⟩
      exact pace_twin n { s with connected := true } w retries now
    | failed fault => exact twins_fail n h w retries fault (ht now (by rw [hs]; rfl))
    | crashed => exact ⟨n, rfl, h, trivial⟩
  | pacing w retries now => exact .inl (twins_ask n h w retries now)
  | querying w retries now result =>
    cases result with
    | ok reply =>
      apply twins_absorb
      exact h
    | error fault => exact .inl (twins_fail n h w retries fault (ht now (by rw [hs]; rfl)))
  | resting w retries now => exact .inl (twins_attempt n h w retries now)
  | storing batch retries after now refusal =>
    exact twins_settle n h batch retries after refusal shutdown now
  | storeResting batch retries after now => exact .inl (twins_store n h batch retries after now)
  | salvaging batch reason now heeds => exact .inl (twins_settleSalvage n h batch reason heeds now)
  | ended outcome at_ =>
    have hin : (s.twin d wall n).stage.InTime c := by rw [hstage, hs]; trivial
    exact .inl ⟨n, rfl, h, hin⟩
  | crashed at_ =>
    have hin : (s.twin d wall n).stage.InTime c := by rw [hstage, hs]; trivial
    exact .inl ⟨n, rfl, h, hin⟩

theorem interrupt_eq_abandon {now : Nat} {world : World} {reason : AbandonReason}
    (hl : s.isOver = false) (hn : ∀ b reason due heeds, s.stage ≠ .salvaging b reason due heeds) :
    s.interrupt reason now world = s.abandon reason now world := by
  rcases s.interrupt_cases reason now world with ⟨ho, -⟩ | ⟨b, reason', due, heeds, hs, -⟩ |
    ⟨-, -, hi⟩
  · rw [hl] at ho
    cases ho
  · exact absurd hs (hn b reason' due heeds)
  · exact hi

/-- A session that is neither over nor abandoned is cut off at the end of its budget, or cancelled
before. -/
theorem cutOff?_of_live (hl : s.isOver = false)
    (hn : ∀ b reason due heeds, s.stage ≠ .salvaging b reason due heeds) (c : Control) :
    s.cutOff? c =
      match c.cancelAt with
      | some t =>
        if t ≤ s.budgetEnd then some (t, .cancelled) else some (s.budgetEnd, .budgetExceeded)
      | none => some (s.budgetEnd, .budgetExceeded) := by
  rw [cutOff?]
  cases hs : s.stage with
  | salvaging b reason due heeds => exact absurd hs (hn b reason due heeds)
  | ended => rw [isOver, hs] at hl; cases hl
  | crashed => rw [isOver, hs] at hl; cases hl
  | _ => rfl

theorem due?_later (stage : Stage) : (stage.later d wall).due? = stage.due?.map (· + d) := by
  cases stage <;> rfl

theorem ne_of_isShutDown {due : Nat} (h : c.isShutDown due = true) : c ≠ {} := by
  rintro rfl
  cases h

/-- What an abandoned session has left goes to the sink in both worlds. -/
theorem twins_step_salvaging (h : World.Akin s.relay a b) {batch : Batch} {reason : AbandonReason}
    {due : Nat} {heeds : Bool} (hs : s.stage = .salvaging batch reason due heeds)
    (ht : ∀ t, c.cancelAt = some t → due + d < t) :
    TwinsUnless (c ≠ {}) c d wall (s.step {} a) ((s.twin d wall n).step c b) := by
  have hstage : (s.twin d wall n).stage =
      .salvaging { batch with observedAt := wall } reason (due + d) heeds := by
    show s.stage.later d wall = _
    rw [hs]
    rfl
  have ha : s.step {} a = s.proceed false a := by
    rw [Session.step, cutOff?, hs]
    rfl
  have hb : (s.twin d wall n).step c b =
      (s.twin d wall n).proceed (c.isShutDown (due + d)) b := by
    rw [Session.step, cutOff?, hstage]
    cases hc : c.cancelAt with
    | none => rfl
    | some t => exact if_neg (Nat.not_le_of_lt (ht t hc))
  rw [ha, hb]
  refine (twins_proceed n h _ fun due' hd => ?_).imp_right fun hx => ⟨ne_of_isShutDown hx.1, hx.2⟩
  rw [hs] at hd
  obtain rfl := Option.some.inj hd
  exact ht

/-- A session that is at work is cut off at the end of its budget in both worlds, or in none. -/
theorem twins_step_live (h : World.Akin s.relay a b) {due : Nat} (hd : s.stage.due? = some due)
    (hn : ∀ b reason due heeds, s.stage ≠ .salvaging b reason due heeds) :
    TwinsUnless (c ≠ {}) c d wall (s.step {} a) ((s.twin d wall n).step c b) := by
  have hdue : (s.twin d wall n).stage.due? = some (due + d) := by
    show (s.stage.later d wall).due? = _
    rw [due?_later, hd]
    rfl
  have hl : s.isOver = false := by rw [isOver, hd]; rfl
  have hl' : (s.twin d wall n).isOver = false := by rw [isOver, hdue]; rfl
  have hn' : ∀ b reason due heeds, (s.twin d wall n).stage ≠ .salvaging b reason due heeds := by
    intro b reason due heeds he
    have he : s.stage.later d wall = .salvaging b reason due heeds := he
    cases hs : s.stage with
    | salvaging b' reason' due' heeds' => exact hn b' reason' due' heeds' hs
    | _ => rw [hs] at he; cases he
  have hend : (s.twin d wall n).budgetEnd = s.budgetEnd + d := Nat.add_right_comm ..
  have ha : s.step {} a =
      if s.budgetEnd ≤ due then s.abandon .budgetExceeded s.budgetEnd a else s.proceed false a := by
    rw [Session.step, hd, cutOff?_of_live hl hn, ← interrupt_eq_abandon hl hn]
    rfl
  have hb (t : Nat) (reason : AbandonReason)
      (hc : (s.twin d wall n).cutOff? c = some (t, reason)) :
      (s.twin d wall n).step c b =
        if t ≤ due + d then (s.twin d wall n).abandon reason t b
        else (s.twin d wall n).proceed (c.isShutDown (due + d)) b := by
    rw [Session.step, hdue, hc, ← interrupt_eq_abandon hl' hn']
  have hgoes (ht : ∀ t, c.cancelAt = some t → due + d < t) :
      TwinsUnless (c ≠ {}) c d wall (s.proceed false a)
        ((s.twin d wall n).proceed (c.isShutDown (due + d)) b) := by
    refine (twins_proceed n h _ fun due' hd' => ?_).imp_right fun hx =>
      ⟨ne_of_isShutDown hx.1, hx.2⟩
    rw [hd] at hd'
    obtain rfl := Option.some.inj hd'
    exact ht
  -- where the budget ends before a cancellation, both are cut off then
  have hbudget (ht : ∀ t, c.cancelAt = some t → s.budgetEnd + d < t)
      (hc : (s.twin d wall n).cutOff? c = some (s.budgetEnd + d, .budgetExceeded)) :
      TwinsUnless (c ≠ {}) c d wall (s.step {} a) ((s.twin d wall n).step c b) := by
    rw [ha, hb _ _ hc]
    simp only [Nat.add_le_add_iff_right]
    split
    · exact .inl (twins_abandon n h .budgetExceeded ht)
    · exact hgoes fun t hc => Nat.lt_trans (by omega) (ht t hc)
  have hcut := cutOff?_of_live hl' hn' c
  rw [hend] at hcut
  cases hc : c.cancelAt with
  | none =>
    rw [hc] at hcut
    exact hbudget (fun t ht => by rw [hc] at ht; cases ht) hcut
  | some t =>
    have hsame : ∀ t', c.cancelAt = some t' → t' = t := fun t' ht' =>
      Option.some.inj (ht'.symm.trans hc)
    rw [hc] at hcut
    dsimp only at hcut
    split at hcut
    · rw [ha, hb _ _ hcut]
      by_cases hlate : t ≤ due + d
      · have hcontrol : c ≠ {} := by
          rintro rfl
          cases hc
        rw [if_pos hlate]
        exact .inr ⟨hcontrol, doomed_abandon _ _ _ (.inr rfl)⟩
      · rw [if_neg hlate, if_neg (by omega)]
        exact hgoes fun t' ht' => hsame t' ht' ▸ Nat.lt_of_not_le hlate
    · rename_i hnot
      exact hbudget (fun t' ht' => hsame t' ht' ▸ Nat.lt_of_not_le hnot) hcut

/-- A session makes the move that its twin makes, unless it is stopped. -/
theorem Twins.step {x y : World × Session} (h : Twins c d wall x y) :
    TwinsUnless (c ≠ {}) c d wall (x.2.step {} x.1) (y.2.step c y.1) := by
  obtain ⟨a, s⟩ := x
  obtain ⟨b, s'⟩ := y
  obtain ⟨n, hs', h, hin⟩ := h
  obtain rfl : s' = s.twin d wall n := hs'
  cases hd : s.stage.due? with
  | none =>
    have hdue : (s.twin d wall n).stage.due? = none := by
      show (s.stage.later d wall).due? = _
      rw [due?_later, hd]
      rfl
    refine .inl ?_
    rw [Session.step, Session.step, hd, hdue]
    exact ⟨n, rfl, h, hin⟩
  | some due =>
    by_cases hs : ∃ b reason due heeds, s.stage = .salvaging b reason due heeds
    · obtain ⟨batch, reason, due', heeds, hs⟩ := hs
      refine twins_step_salvaging n h hs ?_
      have hin : (s.stage.later d wall).InTime c := hin
      rw [hs] at hin
      exact hin
    · refine twins_step_live n h hd fun b reason due heeds he => ?_
      exact hs ⟨b, reason, due, heeds, he⟩

/-! ## Runs and reports -/

theorem twins_start {job : Job} (h : World.Akin job.relay.id a b) (now : Nat)
    (wall wall' : UInt64) :
    Twins c now wall (a, start job wall' 0) (b, start job wall now) := by
  refine ⟨0, ?_, h, trivial⟩
  simp only [start, twin, Pacer.later, Stage.later, Nat.zero_add, Option.map_none]

theorem Twins.isOver {x y : World × Session} (h : Twins c d wall x y) :
    y.2.isOver = x.2.isOver := by
  obtain ⟨n, hs, -⟩ := h
  rw [hs]
  show (x.2.stage.later d wall).due?.isNone = _
  rw [due?_later, Option.isNone_map]
  rfl

/-- Left alone, sessions stay twins to their ends. -/
theorem Twins.run {x y : World × Session} (h : Twins {} d wall x y) :
    Twins {} d wall (x.2.run {} x.1) (y.2.run {} y.1) := by
  obtain ⟨a, s⟩ := x
  fun_induction Session.run {} a s generalizing y with
  | case1 a s hl ih =>
    have hl' : y.2.isOver = false := h.isOver.trans hl
    rw [← run_step {} y.1 y.2]
    exact ih (h.step.resolve_right fun hx => hx.1 rfl)
  | case2 a s hl =>
    have hl' : y.2.isOver = true := h.isOver.trans (Bool.not_eq_false _ ▸ hl)
    rw [Session.run, dif_neg (by rw [hl']; decide)]
    exact h

end Session

/-- The report without how many of the events were new to the sink. -/
def Report.unstored (r : Report) : Report := { r with stats := { r.stats with stored := 0 } }

/-- Twins report the same at their ends, but for what was new to their sinks. -/
theorem Session.Twins.report {c : Control} {d : Nat} {wall : UInt64} {x y : World × Session}
    (h : Twins c d wall x y) :
    y.2.report?.map Report.unstored = x.2.report?.map Report.unstored := by
  obtain ⟨a, s⟩ := x
  obtain ⟨n, hs, -⟩ := h
  have hlater : (s.twin d wall n).stage = s.stage.later d wall := rfl
  rw [hs, report?, report?, hlater]
  cases s.stage with
  | ended outcome at_ =>
    have helapsed : at_ + d - (s.twin d wall n).started = at_ - s.started :=
      Nat.add_sub_add_right ..
    simp only [Stage.later, Option.map_some, Report.unstored, helapsed]
    rfl
  | _ => rfl

end Harvest
