import Harvest.Proofs.Session.Turn

/-! All that a move of a session can come to. What a session has in hand, what it is owed and what
it has delivered after a move is told by its stage before; and no move leads back in time. -/

namespace Harvest.Session

/-- What a session carries on: the windows that it owes, the events that it has not handed over, and
how many the sink has taken. -/
structure Carries (s : Session) (splitter : Splitter) (pending : List Event) (delivered : Nat) :
    Prop where
  splitter : s.splitter = splitter
  pending : s.pending = pending
  delivered : s.stats.delivered = delivered

/-- It carries on what another one did. -/
abbrev Alike (s next : Session) : Prop :=
  next.Carries s.splitter s.pending s.stats.delivered

/-- It is about to take a window, and carries this with it. -/
inductive Frees (s : Session) : Splitter → List Event → Nat → Prop
  | ready {due : Nat} (hs : s.stage = .ready due) : Frees s s.splitter s.pending s.stats.delivered
  | resolved {w : Window} {received : Nat} {oldest : Option Nat} {items : List Json}
      {delivered : Nat} (h : s.Digests w received oldest items delivered) :
      Frees s (s.splitter.resolve w received (oldestAfter w oldest items)).2
        (s.pending ++ Event.among items) delivered

/-- It has given up at an instant: it is over, or hands over what is left unless it was
cancelled. -/
inductive Quits (now : Nat) (next : Session) (reason : AbandonReason) : Prop
  | ended {at_ : Nat} (hn : next.stage = .ended (.abandoned reason) at_)
  | salvaging {b : Batch} {due : Nat} {heeds : Bool}
      (hn : next.stage = .salvaging b reason due heeds) (hd : now ≤ due) (hr : reason ≠ .cancelled)

/-- What a move at an instant can come to. -/
inductive Comes (c : Control) (s : Session) (now : Nat) (next : Session) : Prop
  /-- It was cut off. -/
  | cut {reason : AbandonReason} (hc : s.cutOff? c = some (now, reason))
      (hs : ∀ b reason due heeds, s.stage ≠ .salvaging b reason due heeds)
      (hq : next.Quits now reason)
  /-- What was left of it is with the sink, or not. -/
  | left {b : Batch} {reason : AbandonReason} {due : Nat} {heeds : Bool} {at_ : Nat}
      (hs : s.stage = .salvaging b reason due heeds)
      (hn : next.stage = .ended (.abandoned reason) at_)
  | asks {w : Window} {retries due due' : Nat} {answer : Except LinkFault Reply}
      (hs : s.stage = .pacing w retries due) (hn : next.stage = .querying w retries due' answer)
      (hd : now ≤ due') (ha : s.Alike next)
  | opens {w : Window} {retries due due' : Nat} {result : Connected}
      (hs : s.stage = .connecting w retries due result)
      (hn : next.stage = .pacing w retries due') (hd : now ≤ due') (ha : s.Alike next)
  | crashes {w : Window} {retries due at_ : Nat} {result : Connected}
      (hs : s.stage = .connecting w retries due result) (hn : next.stage = .crashed at_)
  /-- An attempt has failed, and there will be another one. -/
  | rests {w : Window} {retries due : Nat}
      (hs : (∃ due result, s.stage = .connecting w retries due result) ∨
        ∃ due fault, s.stage = .querying w retries due (.error fault))
      (hn : next.stage = .resting w (retries + 1) due) (hd : now ≤ due)
      (hr : retries + 1 < max 1 s.settings.queryRetry.maxAttempts) (ha : s.Alike next)
  | retries {w : Window} {retries due : Nat} (hs : s.stage = .resting w retries due)
      (hn : s.Tries now next w retries) (ha : s.Alike next)
  /-- An attempt has failed, and it was the last one. -/
  | fails {w : Window} {retries : Nat} {fault : LinkFault}
      (hs : (∃ due result, s.stage = .connecting w retries due result) ∨
        ∃ due fault, s.stage = .querying w retries due (.error fault))
      (hq : next.Quits now (.transport fault))
  /-- It does not take a window because it is to stop. -/
  | heeds {splitter : Splitter} {pending : List Event} {delivered : Nat}
      (hf : s.Frees splitter pending delivered) (hn : splitter.next.isSome = true)
      (hc : c.isShutDown now = true) (hq : next.Quits now .shutdown)
  | takes {splitter rest : Splitter} {pending : List Event} {delivered : Nat} {w : Window}
      (hf : s.Frees splitter pending delivered) (hw : splitter.next = some (w, rest))
      (hc : c.isShutDown now = false) (hn : s.Tries now next w 0)
      (ha : next.Carries rest pending delivered)
  /-- A batch is full before the end of a reply. -/
  | fills {w : Window} {received : Nat} {oldest : Option Nat} {front rest : List Json}
      {delivered : Nat} (hf : s.Digests w received oldest (front ++ rest) delivered)
      (hn : next.Stores now (.reply w received (oldestAfter w oldest front) rest)
        (s.pending ++ Event.among front))
      (ha : next.Carries s.splitter [] delivered)
  /-- No window is owed, so the last batch is handed over. -/
  | flushes {splitter : Splitter} {pending : List Event} {delivered : Nat}
      (hf : s.Frees splitter pending delivered) (hw : splitter.next = none)
      (hn : next.Stores now .finish pending) (ha : next.Carries splitter [] delivered)
  /-- No window is owed, and there is nothing to hand over. -/
  | drains {splitter : Splitter} {delivered at_ : Nat} (hf : s.Frees splitter [] delivered)
      (hw : splitter.next = none) (hn : next.stage = .ended .drained at_)
      (ha : next.Carries splitter [] delivered)
  /-- The last batch was taken. -/
  | finishes {b : Batch} {retries due at_ : Nat} {refusal : Option SinkFault}
      (hs : s.stage = .storing b retries .finish due refusal)
      (hn : next.stage = .ended .drained at_)
      (ha : next.Carries s.splitter s.pending (s.stats.delivered + b.size))
  | waits {b : Batch} {retries retries' due due' : Nat} {after : After}
      {refusal : Option SinkFault} (hs : s.stage = .storing b retries after due refusal)
      (hn : next.stage = .storeResting b retries' after due') (hd : now ≤ due') (ha : s.Alike next)
  | hands {b : Batch} {retries due due' : Nat} {after : After} {refusal : Option SinkFault}
      (hs : s.stage = .storeResting b retries after due)
      (hn : next.stage = .storing b retries after due' refusal) (hd : now ≤ due')
      (ha : s.Alike next)
  | refused {b : Batch} {retries due at_ : Nat} {after : After} {refusal : Option SinkFault}
      {fault : SinkFault} (hs : s.stage = .storing b retries after due refusal)
      (hn : next.stage = .ended (.sinkFailed fault) at_)

variable {c : Control} {s : Session}

theorem Carries.of_standing {next : Session} {g : Standing} (h : next.standing = g) :
    next.Carries g.splitter g.pending g.delivered := by
  subst h
  exact ⟨rfl, rfl, rfl⟩

theorem Stops.quits {now : Nat} {reason : AbandonReason} {g : Standing} {next : Session}
    (h : s.Stops now reason g next) : next.Quits now reason := by
  cases h with
  | ended hn => exact .ended hn
  | salvaging hn hr _ hd => exact .salvaging hn hd hr

theorem abandon_quits (now : Nat) (world : World) (s : Session) (reason : AbandonReason) :
    (s.abandon reason now world).2.Quits now reason :=
  (abandon_stops now world (s := s) rfl reason).quits

theorem Resumes.frees {g : Standing} (h : s.Resumes g) :
    s.Frees g.splitter g.pending g.delivered := by
  cases h with
  | ready hs => exact .ready hs
  | @resolved w received oldest items delivered hd =>
    have hf := Frees.resolved hd
    cases hd with
    | reply hs | stored hs =>
      simp only [advised, hs]
      exact hf

theorem Digests.delivered {w : Window} {received : Nat} {oldest : Option Nat} {items : List Json}
    {delivered : Nat} (h : s.Digests w received oldest items delivered) :
    s.advised.splitter = s.splitter ∧ s.advised.delivered = delivered := by
  cases h with
  | reply hs | stored hs =>
    rw [advised, hs]
    exact ⟨rfl, rfl⟩

theorem Faults.stage {w : Window} {retries due : Nat} {fault : LinkFault}
    (h : s.Faults w retries due fault) :
    (∃ due result, s.stage = .connecting w retries due result) ∨
      ∃ due fault, s.stage = .querying w retries due (.error fault) :=
  h.imp (fun hs => ⟨_, _, hs⟩) fun hs => ⟨_, _, hs⟩

theorem Goes.comes {now : Nat} {next : Session} (h : s.Goes (c.isShutDown now) now next) :
    s.Comes c now next := by
  cases h with
  | asks hs hn hd hg => exact .asks hs hn hd (.of_standing hg)
  | opens hs hn hd hg => exact .opens hs hn hd (.of_standing hg)
  | crashes hs hn => exact .crashes hs hn
  | rests hf _ hr hn hd hg => exact .rests hf.stage hn hd hr (.of_standing hg)
  | retries hs hn hg => exact .retries hs hn (.of_standing hg)
  | fails hf hn => exact .fails hf.stage hn.quits
  | heeds hf hw hc hn => exact .heeds hf.frees (by rw [hw]; rfl) hc hn.quits
  | takes hf hw hc hn hg => exact .takes hf.frees hw hc hn (.of_standing hg)
  | fills hf hn hg =>
    obtain ⟨hsplitter, hdelivered⟩ := hf.delivered
    rw [← hdelivered] at hf
    refine .fills hf hn ?_
    rw [← hsplitter]
    exact .of_standing hg
  | flushes hf hw hn hg => exact .flushes hf.frees hw hn (.of_standing hg)
  | drains hf hw hp hn hg =>
    have hfrees := hf.frees
    have ha := Carries.of_standing hg
    rw [hp] at hfrees ha
    exact .drains hfrees hw hn ha
  | finishes hs hn hg =>
    have ha := Carries.of_standing hg
    rw [advised, hs] at ha
    exact .finishes hs hn ha
  | waits hs _ hn hd hg => exact .waits hs hn hd (.of_standing hg)
  | hands hs hn hd hg => exact .hands hs hn hd (.of_standing hg)
  | refused hs hn => exact .refused hs hn

theorem Turn.comes {now : Nat} {next : Session} (h : s.Turn c now next) : s.Comes c now next := by
  cases h with
  | cut hs hc hn => exact .cut hc hs.2 hn.quits
  | left hs _ hn => exact .left hs hn
  | goes _ _ h => exact h.comes

/-- **Every move of a session that is not over is one of these**, at the instant that it waits
for. -/
theorem comes_step (ho : s.isOver = false) (c : Control) (world : World) :
    ∃ now, s.due? c = some now ∧ s.Comes c now (s.step c world).2 :=
  (turn_step ho c world).imp fun _ h => ⟨h.1, h.2.comes⟩

/-! ## Time -/

/-- What a session waits for after a move is not over before the move. -/
theorem Comes.late {now : Nat} {next : Session} (h : s.Comes c now next) {due : Nat}
    (hd : next.stage.due? = some due) : now ≤ due := by
  have quits {reason : AbandonReason} (hq : next.Quits now reason) : now ≤ due := by
    cases hq <;> simp_all [Stage.due?]
  have tries {w : Window} {retries : Nat} (ht : s.Tries now next w retries) : now ≤ due := by
    cases ht <;> simp_all [Stage.due?]
  have stores {after : After} {events : List Event} (hs : next.Stores now after events) :
      now ≤ due := by
    obtain ⟨_, _, _, hn, -, hle⟩ := hs
    simp_all [Stage.due?]
  cases h with
  | cut _ _ hq => exact quits hq
  | fails _ hq => exact quits hq
  | heeds _ _ _ hq => exact quits hq
  | retries _ hn _ => exact tries hn
  | takes _ _ _ hn _ => exact tries hn
  | fills _ hn _ => exact stores hn
  | flushes _ _ hn _ => exact stores hn
  | _ => simp_all [Stage.due?]

theorem of_cutOff? {t : Nat} {reason : AbandonReason} (h : s.cutOff? c = some (t, reason)) :
    t = s.budgetEnd ∨ c.cancelAt = some t := by
  unfold cutOff? at h
  split at h
  · cases h
  · cases h
  · obtain ⟨_, hc, he⟩ := Option.map_eq_some_iff.mp h
    obtain ⟨rfl, -⟩ := Prod.mk.inj he
    exact .inr hc
  · split at h
    · rename_i hc
      split at h <;> cases h
      · exact .inr hc
      · exact .inl rfl
    · cases h
      exact .inl rfl

/-- A session at work is cut off when its time is over or when it is cancelled, whichever comes
first. -/
theorem cutOff?_of_working (ho : s.isOver = false)
    (hn : ∀ b reason due heeds, s.stage ≠ .salvaging b reason due heeds) :
    ∃ cut reason, s.cutOff? c = some (cut, reason) ∧ cut ≤ s.budgetEnd ∧
      ∀ t, c.cancelAt = some t → cut ≤ t := by
  unfold cutOff?
  rw [isOver] at ho
  cases hs : s.stage with
  | ended | crashed => simp [hs, Stage.due?] at ho
  | salvaging => exact absurd hs (hn _ _ _ _)
  | _ =>
    cases c.cancelAt with
    | none => exact ⟨_, _, rfl, Nat.le_refl _, fun t ht => by cases ht⟩
    | some t =>
      dsimp only
      split
      · rename_i hle
        exact ⟨_, _, rfl, hle, fun _ ht => Nat.le_of_eq (Option.some.inj ht)⟩
      · rename_i hle
        refine ⟨_, _, rfl, Nat.le_refl _, fun _ ht => ?_⟩
        obtain rfl := Option.some.inj ht
        omega

theorem reason_of_cutOff? (ha : s.AtWork) {now : Nat} {reason : AbandonReason}
    (hc : s.cutOff? c = some (now, reason)) : reason = .budgetExceeded ∨ reason = .cancelled := by
  obtain ⟨ho, hn⟩ := ha
  unfold cutOff? at hc
  rw [isOver] at ho
  cases hs : s.stage with
  | salvaging => exact absurd hs (hn _ _ _ _)
  | ended | crashed => simp [hs, Stage.due?] at ho
  | _ =>
    simp only [hs] at hc
    split at hc
    · split at hc
      · exact .inr (Prod.mk.inj (Option.some.inj hc)).2.symm
      · exact .inl (Prod.mk.inj (Option.some.inj hc)).2.symm
    · exact .inl (Prod.mk.inj (Option.some.inj hc)).2.symm

theorem le_cutOff? {now cut : Nat} {reason : AbandonReason} (hd : s.due? c = some now)
    (hc : s.cutOff? c = some (cut, reason)) : now ≤ cut := by
  unfold due? at hd
  rw [hc] at hd
  split at hd
  · rename_i he
    cases he
    obtain rfl := Option.some.inj hd
    exact Nat.min_le_right ..
  · rename_i he
    cases he
  · cases hd

/-- What was left of an abandoned session is the last thing it has to do. -/
theorem Comes.of_salvaging {now : Nat} {next : Session} (h : s.Comes c now next) {b : Batch}
    {reason : AbandonReason} {due : Nat} {heeds : Bool}
    (hs : s.stage = .salvaging b reason due heeds) :
    ∃ at_, next.stage = .ended (.abandoned reason) at_ := by
  have digests {w : Window} {received : Nat} {oldest : Option Nat} {items : List Json}
      {delivered : Nat} (hd : s.Digests w received oldest items delivered) :
      ∃ at_, next.stage = .ended (.abandoned reason) at_ := by
    cases hd <;> simp_all
  have frees {splitter : Splitter} {pending : List Event} {delivered : Nat}
      (hf : s.Frees splitter pending delivered) :
      ∃ at_, next.stage = .ended (.abandoned reason) at_ := by
    cases hf with
    | ready hs' => simp_all
    | resolved hd => exact digests hd
  cases h with
  | left hs' hn =>
    obtain ⟨-, rfl, -⟩ := Stage.salvaging.inj (hs.symm.trans hs')
    exact ⟨_, hn⟩
  | cut _ hs' => exact absurd hs (hs' _ _ _ _)
  | heeds hf | takes hf | flushes hf | drains hf => exact frees hf
  | fills hf => exact digests hf
  | rests hs' | fails hs' => rcases hs' with ⟨_, _, hs'⟩ | ⟨_, _, hs'⟩ <;> simp_all
  | _ => simp_all

theorem isOver_of_due? {now : Nat} (h : s.due? c = some now) : s.isOver = false := by
  rw [isOver]
  unfold due? at h
  split at h
  · rename_i hd _
    rw [hd]
    rfl
  · rename_i hd _
    rw [hd]
    rfl
  · cases h

/-- **The moves of a session go on in time.** -/
theorem due_le_due {now later : Nat} (hd : s.due? c = some now) (world : World)
    (hl : (s.step c world).2.due? c = some later) : now ≤ later := by
  have ho := isOver_of_due? hd
  obtain ⟨now', hd', hcomes⟩ := comes_step ho c world
  obtain rfl := Option.some.inj (hd.symm.trans hd')
  obtain ⟨-, hjob, hstarted, -⟩ := leads_step s world c
  have hend : (s.step c world).2.budgetEnd = s.budgetEnd := by
    rw [budgetEnd, settings, hstarted, hjob, budgetEnd, settings]
  have hcut {t : Nat} {reason : AbandonReason}
      (hc : (s.step c world).2.cutOff? c = some (t, reason)) : now ≤ t := by
    by_cases hs : ∃ b reason due heeds, s.stage = .salvaging b reason due heeds
    · obtain ⟨b, reason, due, heeds, hs⟩ := hs
      obtain ⟨at_, hn⟩ := hcomes.of_salvaging hs
      simp [cutOff?, hn] at hc
    · obtain ⟨cut, _, hcut, hbudget, hcancel⟩ :=
        cutOff?_of_working (c := c) ho fun b reason due heeds h => hs ⟨b, reason, due, heeds, h⟩
      have hle := le_cutOff? hd hcut
      rcases of_cutOff? hc with rfl | hc'
      · rw [hend]
        exact Nat.le_trans hle hbudget
      · exact Nat.le_trans hle (hcancel t hc')
  unfold due? at hl
  split at hl
  · rename_i hdue hc
    obtain rfl := Option.some.inj hl
    exact Nat.le_min.mpr ⟨hcomes.late hdue, hcut hc⟩
  · rename_i hdue _
    obtain rfl := Option.some.inj hl
    exact hcomes.late hdue
  · cases hl

end Harvest.Session
