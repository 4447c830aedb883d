import Harvest.Proofs.Session.Frame
import Harvest.Proofs.Session.Reading

/-! What has become of each event of a relay at every moment of a session. As long as the session
has not given up, the sink holds the event, or it waits to be handed over, or it lies in a second
that the splitter has not let go, or the stage of the session has it in hand. A drained session has
nothing in hand and nothing waiting, so its events are with the sink or in flagged windows. -/

namespace Harvest

/-- The event may be still to come with a reply to its window: it is among the items that were not
looked at, or the reply is full and brings nothing older. -/
def Unread (cap : Nat) (w : Window) (received : Nat) (oldest : Option Nat) (rest : List Json)
    (e : Event) : Prop :=
  e.stamp ∈ w ∧ (e.toJson ∈ rest ∨
    cap ≤ received ∧ ∀ stamp, Session.oldestAfter w oldest rest = some stamp → e.stamp ≤ stamp)

/-- The event may come with what is left of a reply. -/
def After.HoldsBack (cap : Nat) (e : Event) : After → Prop
  | reply w received oldest rest => Unread cap w received oldest rest e
  | finish => False

/-- The report of a drained session does not promise too much: each valid event of the target is
with the sink or under a flag. -/
def Report.Sound (held : List Event) (world : World) (r : Report) : Prop :=
  r.outcome = .drained → ∀ e ∈ held, e.validate = .ok () → e.stamp ∈ r.target →
    world.holds e.id = true ∨ ∃ w ∈ r.stats.flagged, e.stamp ∈ w

theorem Report.Sound.mono {held : List Event} {world world' : World} {r : Report}
    (h : r.Sound held world) (hw : ∀ id, world.holds id = true → world'.holds id = true) :
    r.Sound held world' := fun hd e he hv ht => (h hd e he hv ht).imp_left (hw e.id)

namespace Session

/-- No valid event of the target is lost, apart from those that are `inHand`. -/
def Accounts (held : List Event) (world : World) (s : Session) (inHand : Event → Prop) : Prop :=
  s.splitter.cap = s.settings.resultCap ∧
    ∀ e ∈ held, e.validate = .ok () → e.stamp ∈ s.job.target →
      world.holds e.id = true ∨ e ∈ s.pending ∨ s.splitter.Tracks e.stamp ∨ inHand e

/-- Nothing waits to be handed over, and no window is owed. -/
def IsEmpty (s : Session) : Prop := s.pending = [] ∧ s.splitter.stack.pending = []

/-- What a session knows of the events of its relay. One that has given up knows nothing. -/
def Complete (held : List Event) : World × Session → Prop
  | (world, s) =>
    match s.stage with
    | .ready _ => s.Accounts held world fun _ => False
    | .connecting w .. | .pacing w .. | .resting w .. => s.Accounts held world (·.stamp ∈ w)
    | .querying w _ _ result =>
      s.Accounts held world (·.stamp ∈ w) ∧
        ∀ reply, result = .ok reply → reply.Newest held (s.queryFor w)
    | .storing b _ after _ _ | .storeResting b _ after _ =>
      s.Accounts held world
          (fun e => e ∈ b.events ∨ after.HoldsBack s.settings.resultCap e) ∧
        (after = .finish → s.IsEmpty)
    | .ended .drained _ => s.Accounts held world (fun _ => False) ∧ s.IsEmpty
    | _ => True

variable {held : List Event} {world : World} {s : Session} {w : Window}

theorem Accounts.imp {inHand inHand' : Event → Prop} (h : s.Accounts held world inHand)
    (hi : ∀ e ∈ held, e.validate = .ok () → inHand e → inHand' e) :
    s.Accounts held world inHand' := by
  refine ⟨h.1, fun e he hv ht => ?_⟩
  rcases h.2 e he hv ht with hk | hp | hs | hx
  · exact .inl hk
  · exact .inr (.inl hp)
  · exact .inr (.inr (.inl hs))
  · exact .inr (.inr (.inr (hi e he hv hx)))

theorem Accounts.mono {inHand : Event → Prop} (h : s.Accounts held world inHand) {world' : World}
    (hw : ∀ id, world.holds id = true → world'.holds id = true) :
    s.Accounts held world' inHand :=
  ⟨h.1, fun e he hv ht => (h.2 e he hv ht).imp_left (hw e.id)⟩

/-- What other sessions do to the world does no harm. -/
theorem Complete.mono (h : Complete held (world, s)) {world' : World}
    (hw : ∀ id, world.holds id = true → world'.holds id = true) : Complete held (world', s) := by
  simp only [Complete] at h ⊢
  cases hs : s.stage with
  | ready => rw [hs] at h; exact h.mono hw
  | connecting => rw [hs] at h; exact h.mono hw
  | pacing => rw [hs] at h; exact h.mono hw
  | resting => rw [hs] at h; exact h.mono hw
  | querying => rw [hs] at h; exact ⟨h.1.mono hw, h.2⟩
  | storing => rw [hs] at h; exact ⟨h.1.mono hw, h.2⟩
  | storeResting => rw [hs] at h; exact ⟨h.1.mono hw, h.2⟩
  | salvaging => trivial
  | ended outcome =>
    rw [hs] at h
    cases outcome with
    | drained => exact ⟨h.1.mono hw, h.2⟩
    | abandoned => trivial
    | sinkFailed => trivial
  | crashed => trivial

/-- What the report of a session says. -/
theorem of_report? {r : Report} (h : s.report? = some r) :
    (∃ at_, s.stage = .ended r.outcome at_) ∧ r.relay = s.relay ∧ r.target = s.job.target ∧
      r.stats.flagged = s.splitter.flagged := by
  unfold report? at h
  split at h
  · rename_i outcome at_ hs
    obtain rfl := Option.some.inj h
    exact ⟨⟨at_, hs⟩, rfl, rfl, rfl⟩
  · cases h

theorem isOver_of_report? {r : Report} (h : s.report? = some r) : s.isOver = true := by
  obtain ⟨⟨at_, hs⟩, -⟩ := of_report? h
  rw [isOver, hs]
  rfl

/-- A session that reports to be drained has left no event of its target behind without a flag. -/
theorem Complete.report (h : Complete held (world, s)) {r : Report} (hr : s.report? = some r) :
    r.Sound held world := by
  obtain ⟨⟨at_, hs⟩, -, ht, hf⟩ := of_report? hr
  intro hd e he hv hw
  rw [hd] at hs
  rw [ht] at hw
  rw [hf]
  simp only [Complete, hs] at h
  obtain ⟨ha, hp, hn⟩ := h
  rcases ha.2 e he hv hw with hk | hwait | ⟨v, hm, hv⟩ | hfalse
  · exact .inl hk
  · rw [hp] at hwait
    exact absurd hwait List.not_mem_nil
  · rw [hn] at hm
    exact .inr ⟨v, hm, hv⟩
  · exact hfalse.elim

/-! ## The parts of a move -/

theorem accounts_start {job : Job} (hc : 1 ≤ job.settings.resultCap) (wall : UInt64) (now : Nat) :
    (start job wall now).Accounts held world fun _ => False :=
  ⟨Nat.max_eq_right hc, fun _ _ _ ht => .inr (.inr (.inl (Splitter.tracks_ofRange ht _ _)))⟩

theorem complete_close {outcome : Outcome} (now : Nat)
    (h : outcome = .drained → s.Accounts held world (fun _ => False) ∧ s.IsEmpty) :
    Complete held (s.close outcome now world) := by
  simp only [close, disconnect]
  cases outcome with
  | drained =>
    obtain ⟨ha, he⟩ := h rfl
    split <;> exact ⟨ha, he⟩
  | abandoned => split <;> trivial
  | sinkFailed => split <;> trivial

theorem complete_abandon (reason : AbandonReason) (now : Nat) :
    Complete held (s.abandon reason now world) := by
  simp only [abandon]
  split
  · exact complete_close now (by simp)
  · trivial

theorem complete_giveUp (reason : AbandonReason) (now : Nat) :
    Complete held (s.giveUp reason now world) := complete_abandon reason now

theorem complete_attempt (h : s.Accounts held world (·.stamp ∈ w)) (retries now : Nat) :
    Complete held (s.attempt w retries now world) := by
  rw [attempt]
  split <;> exact h

theorem complete_ask (h : s.Accounts held world (·.stamp ∈ w))
    (hh : world.Honest held s.settings.resultCap s.relay) (retries now : Nat) :
    Complete held (s.ask w retries now world) :=
  ⟨h, fun _ hr => hh _ _ _ _ (Nat.le_refl _) hr⟩

theorem complete_fail (h : s.Accounts held world (·.stamp ∈ w)) (retries : Nat)
    (fault : LinkFault) (now : Nat) : Complete held (s.fail w retries fault now world) := by
  have hd : (s.disconnect world).2.Accounts held (s.disconnect world).1 (·.stamp ∈ w) := by
    rw [disconnect]
    split <;> exact h
  simp only [fail]
  split
  · exact hd
  · exact complete_giveUp _ now

theorem complete_flush {inHand : Event → Prop} (after : After)
    (h : s.Accounts held world inHand)
    (hb : ∀ e ∈ held, e.validate = .ok () → inHand e → after.HoldsBack s.settings.resultCap e)
    (hf : after = .finish → s.splitter.stack.pending = []) (now : Nat) :
    Complete held (s.flush after now world) := by
  refine ⟨⟨h.1, fun e he hv ht => ?_⟩, fun ha => ⟨rfl, hf ha⟩⟩
  rcases h.2 e he hv ht with hk | hp | hs | hx
  · have hw : (world.hand s.batch now).1.holds e.id = true := by rw [World.holds_hand, hk]
    exact .inl hw
  · exact .inr (.inr (.inr (.inl hp)))
  · exact .inr (.inr (.inl hs))
  · exact .inr (.inr (.inr (.inr (hb e he hv hx))))

theorem complete_advance (h : s.Accounts held world fun _ => False) (shutdown : Bool)
    (now : Nat) : Complete held (s.advance shutdown now world) := by
  unfold advance
  split
  · rename_i w rest hn
    dsimp only
    split
    · exact complete_giveUp _ now
    · apply complete_attempt
      obtain ⟨-, hr⟩ := Splitter.next_eq_some hn
      refine ⟨by rw [hr]; exact h.1, fun e he hv ht => ?_⟩
      rcases h.2 e he hv ht with hk | hp | hs | hf
      · exact .inl hk
      · exact .inr (.inl hp)
      · exact .inr (.inr (hs.next hn).symm)
      · exact hf.elim
  · rename_i hn
    have hn := Splitter.next_eq_none_iff.mp hn
    split
    · exact complete_close now fun _ => ⟨h, by assumption, hn⟩
    · exact complete_flush .finish h (fun _ _ _ hf => hf) (fun _ => hn) now

/-- To look at the items of a reply takes the events among them in, and to tell the splitter keeps
track of those that a full reply has left out. -/
theorem complete_absorb {received : Nat} {oldest : Option Nat} {items : List Json}
    (h : s.Accounts held world (Unread s.settings.resultCap w received oldest items))
    (shutdown : Bool) (now : Nat) :
    Complete held (s.absorb w received oldest shutdown now world items) := by
  have hlook {front : List Json} {e : Event} (hv : e.validate = .ok ()) (he : e.toJson ∈ front) :
      e ∈ (s.look front).pending :=
    List.mem_append_right _ (Event.mem_among_of_toJson hv he)
  rcases absorb_cases w received shutdown now world s oldest items with ha | ⟨front, rest, rfl, ha⟩
  · rw [ha]
    apply complete_advance
    refine ⟨(Splitter.cap_resolve ..).trans h.1, fun e he hv ht => ?_⟩
    rcases h.2 e he hv ht with hk | hp | hs | ⟨hw, hi | ⟨hc, ho⟩⟩
    · exact .inl hk
    · exact .inr (.inl (List.mem_append_left _ hp))
    · exact .inr (.inr (.inl (hs.resolve ..)))
    · exact .inr (.inl (hlook hv hi))
    -- what the reply left out lies at or below its oldest stamp, and is owed from now on
    · refine .inr (.inr (.inl (Splitter.tracks_resolve_of_full ?_ hw ho)))
      exact Nat.le_trans (Nat.le_of_eq h.1) hc
  · rw [ha]
    have hfront : (s.look front).Accounts held world
        (Unread s.settings.resultCap w received (oldestAfter w oldest front) rest) := by
      refine ⟨h.1, fun e he hv ht => ?_⟩
      rcases h.2 e he hv ht with hk | hp | hs | ⟨hw, hi | ⟨hc, ho⟩⟩
      · exact .inl hk
      · exact .inr (.inl (List.mem_append_left _ hp))
      · exact .inr (.inr (.inl hs))
      · rcases List.mem_append.mp hi with hi | hi
        · exact .inr (.inl (hlook hv hi))
        · exact .inr (.inr (.inr ⟨hw, .inl hi⟩))
      · rw [oldestAfter_append] at ho
        exact .inr (.inr (.inr ⟨hw, .inr ⟨hc, ho⟩⟩))
    exact complete_flush (.reply w received (oldestAfter w oldest front) rest) hfront
      (fun _ _ _ hu => hu) (fun hf => by cases hf) now

/-- Where a reply brings the newest events, none of its window is lost to it. -/
theorem unread_of_newest {reply : Reply} {limit : Nat}
    (hr : reply.Newest held { window := w, limit }) {e : Event} (he : e ∈ held)
    (hv : e.validate = .ok ()) (hw : e.stamp ∈ w) :
    Unread limit w reply.received none reply.items e := by
  refine ⟨hw, ?_⟩
  by_cases hi : e.toJson ∈ reply.items
  · exact .inl hi
  · right
    constructor
    · refine Nat.le_of_not_lt fun hs => hi ?_
      exact hr.complete hs e he hv hw
    · intro stamp ho
      obtain ⟨item, hitem, f, hf, hfw, rfl⟩ := exists_of_oldestAfter ho
      refine Nat.le_of_not_lt fun hlt => hi ?_
      exact hr.above item hitem f hf hfw e he hv hw hlt

theorem complete_receive {reply : Reply} (h : s.Accounts held world (·.stamp ∈ w))
    (hr : reply.Newest held (s.queryFor w)) (retries : Nat) (shutdown : Bool) (now : Nat) :
    Complete held (s.receive w retries reply shutdown now world) := by
  rw [receive]
  refine complete_absorb ?_ shutdown now
  exact h.imp fun _ he hv hw => unread_of_newest hr he hv hw

theorem complete_settle {b : Batch} {after : After}
    (h : s.Accounts held world fun e => e ∈ b.events ∨ after.HoldsBack s.settings.resultCap e)
    (hf : after = .finish → s.IsEmpty) (retries : Nat) (refusal : Option SinkFault)
    (shutdown : Bool) (now : Nat) :
    Complete held (s.settle b retries after refusal shutdown now world) := by
  have hm : s.Accounts held (world.take b refusal).1 _ :=
    h.mono fun id hk => World.holds_take hk b refusal
  unfold settle
  split
  · rename_i taken count ht
    rw [ht] at hm
    -- what was in the batch is with the sink now
    have ha : s.Accounts held taken (after.HoldsBack s.settings.resultCap) := by
      refine ⟨hm.1, fun e he hv htarget => ?_⟩
      rcases hm.2 e he hv htarget with hk | hp | hs | hb | hx
      · exact .inl hk
      · exact .inr (.inl hp)
      · exact .inr (.inr (.inl hs))
      · have hk : (world.take b refusal).1.holds e.id = true :=
          World.holds_of_take (congrArg Prod.snd ht) hb
        rw [ht] at hk
        exact .inl hk
      · exact .inr (.inr (.inr hx))
    cases after with
    | reply v received oldest rest => exact complete_absorb (s := s.noteStored b count) ha shutdown now
    | finish => exact complete_close (s := s.noteStored b count) now fun _ => ⟨ha, hf rfl⟩
  · rename_i taken fault ht
    rw [ht] at hm
    split
    · exact ⟨hm, hf⟩
    · exact complete_close now (by simp)

theorem complete_store {b : Batch} {after : After}
    (h : s.Accounts held world fun e => e ∈ b.events ∨ after.HoldsBack s.settings.resultCap e)
    (hf : after = .finish → s.IsEmpty) (retries now : Nat) :
    Complete held (s.store b retries after now world) := by
  have hm : s.Accounts held (world.hand b now).1 _ :=
    h.mono fun id hk => by rw [World.holds_hand, hk]
  exact ⟨hm, hf⟩

theorem complete_settleSalvage (b : Batch) (reason : AbandonReason) (heeds : Bool) (now : Nat) :
    Complete held (s.settleSalvage b reason heeds now world) := by
  unfold settleSalvage
  split
  · split <;> exact complete_close now (by simp)
  · exact complete_close now (by simp)

/-! ## Moves and runs -/

theorem complete_proceed (h : Complete held (world, s))
    (hh : world.Honest held s.settings.resultCap s.relay) (shutdown : Bool) :
    Complete held (s.proceed shutdown world) := by
  simp only [Complete] at h
  rw [proceed]
  cases hs : s.stage with
  | ready now => rw [hs] at h; exact complete_advance h shutdown now
  | connecting w retries now result =>
    rw [hs] at h
    cases result with
    | opened => exact h
    | failed fault => exact complete_fail h retries fault now
    | crashed => trivial
  | pacing w retries now => rw [hs] at h; exact complete_ask h hh retries now
  | querying w retries now result =>
    rw [hs] at h
    cases result with
    | ok reply => exact complete_receive h.1 (h.2 reply rfl) retries shutdown now
    | error fault => exact complete_fail h.1 retries fault now
  | resting w retries now => rw [hs] at h; exact complete_attempt h retries now
  | storing b retries after now refusal =>
    rw [hs] at h
    exact complete_settle h.1 h.2 retries refusal shutdown now
  | storeResting b retries after now => rw [hs] at h; exact complete_store h.1 h.2 retries now
  | salvaging b reason now heeds => exact complete_settleSalvage b reason heeds now
  | ended => simpa only [Complete, hs] using h
  | crashed => simp only [Complete, hs]

theorem complete_interrupt (h : Complete held (world, s)) (reason : AbandonReason) (now : Nat) :
    Complete held (s.interrupt reason now world) := by
  unfold interrupt
  split
  · exact h
  · exact h
  · exact complete_close now (by simp)
  · exact complete_abandon reason now

/-- No move of a session loses an event. -/
theorem complete_step (h : Complete held (world, s))
    (hh : world.Honest held s.settings.resultCap s.relay) (c : Control) :
    Complete held (s.step c world) := by
  unfold step
  split
  · split
    · exact complete_interrupt h _ _
    · exact complete_proceed h hh _
  · exact complete_proceed h hh _
  · exact h

end Session

end Harvest
