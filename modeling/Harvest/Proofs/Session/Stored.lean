import Harvest.Proofs.Session.Frame
import Harvest.Proofs.Session.Reading

/-! What a session counts as stored. Only to hand a batch over changes the count, and then by as
many events as the sink has found to be new. -/

namespace Harvest.Session

variable (s : Session) (now : Nat) (world : World)

theorem stored_disconnect : (s.disconnect world).2.stats.stored = s.stats.stored := by
  unfold disconnect
  split <;> rfl

theorem stored_close (outcome : Outcome) :
    (s.close outcome now world).2.stats.stored = s.stats.stored := stored_disconnect s world

theorem stored_abandon (reason : AbandonReason) :
    (s.abandon reason now world).2.stats.stored = s.stats.stored := by
  simp only [abandon]
  split
  · exact stored_close _ now world _
  · rfl

theorem stored_giveUp (reason : AbandonReason) :
    (s.giveUp reason now world).2.stats.stored = s.stats.stored := stored_abandon _ now world reason

theorem stored_attempt (w : Window) (retries : Nat) :
    (s.attempt w retries now world).2.stats.stored = s.stats.stored := by
  unfold attempt
  split <;> rfl

theorem stored_fail (w : Window) (retries : Nat) (fault : LinkFault) :
    (s.fail w retries fault now world).2.stats.stored = s.stats.stored := by
  have hd := stored_disconnect s world
  simp only [fail]
  split
  · exact hd
  · exact (stored_giveUp _ now _ _).trans hd

theorem stored_advance (shutdown : Bool) :
    (s.advance shutdown now world).2.stats.stored = s.stats.stored := by
  unfold advance
  split
  · dsimp only
    split
    · exact stored_giveUp _ now world _
    · exact stored_attempt _ now world _ _
  · split
    · exact stored_close s now world _
    · rfl

theorem stored_absorb (w : Window) (received : Nat) (oldest : Option Nat) (shutdown : Bool)
    (items : List Json) :
    (s.absorb w received oldest shutdown now world items).2.stats.stored = s.stats.stored := by
  rcases absorb_cases w received shutdown now world s oldest items with ha | ⟨front, rest, -, ha⟩
  · rw [ha]
    exact stored_advance _ now world shutdown
  · rw [ha]
    rfl

/-- The batch is with the sink, which has not answered yet. -/
def Hands (s : Session) (b : Batch) : Prop :=
  match s.stage with
  | .storing b' .. | .salvaging b' .. => b' = b
  | _ => False

/-- What a move adds to the count: nothing, or what the sink has found to be new in the batch that
it had. -/
def Counts (world : World) (s next : Session) : Prop :=
  next.stats.stored = s.stats.stored ∨
    ∃ b refusal count, s.Hands b ∧ (world.take b refusal).2 = .ok count ∧
      next.stats.stored = s.stats.stored + count

variable {s}

theorem counts_settle {b : Batch} (h : s.Hands b) (retries : Nat) (after : After)
    (refusal : Option SinkFault) (shutdown : Bool) :
    Counts world s (s.settle b retries after refusal shutdown now world).2 := by
  unfold settle
  split
  · rename_i taken count ht
    refine .inr ⟨b, refusal, count, h, congrArg Prod.snd ht, ?_⟩
    cases after with
    | reply w received oldest rest => exact stored_absorb (s.noteStored b count) now ..
    | finish => exact stored_close (s.noteStored b count) now ..
  · split
    · exact .inl rfl
    · exact .inl (stored_close s now ..)

theorem counts_settleSalvage {b : Batch} (h : s.Hands b) (reason : AbandonReason)
    (heeds : Bool) : Counts world s (s.settleSalvage b reason heeds now world).2 := by
  unfold settleSalvage
  split
  · split
    · rename_i taken count ht
      refine .inr ⟨b, none, count, h, congrArg Prod.snd ht, ?_⟩
      exact stored_close (s.noteStored b count) now ..
    · exact .inl (stored_close s now ..)
  · exact .inl (stored_close s now ..)

theorem counts_proceed (shutdown : Bool) : Counts world s (s.proceed shutdown world).2 := by
  rw [proceed]
  cases hs : s.stage with
  | ready now => exact .inl (stored_advance s now world shutdown)
  | connecting w retries now result =>
    cases result with
    | opened => exact .inl rfl
    | failed fault => exact .inl (stored_fail s now world w retries fault)
    | crashed => exact .inl rfl
  | pacing w retries now => exact .inl rfl
  | querying w retries now result =>
    cases result with
    | ok reply => exact .inl (stored_absorb _ now world _ _ _ shutdown _)
    | error fault => exact .inl (stored_fail s now world w retries fault)
  | resting w retries now => exact .inl (stored_attempt s now world w retries)
  | storing b retries after now refusal =>
    have hb : s.Hands b := by rw [Hands, hs]
    exact counts_settle now world hb retries after refusal shutdown
  | storeResting b retries after now => exact .inl rfl
  | salvaging b reason now heeds =>
    have hb : s.Hands b := by rw [Hands, hs]
    exact counts_settleSalvage now world hb reason heeds
  | ended => exact .inl rfl
  | crashed => exact .inl rfl

theorem stored_interrupt (reason : AbandonReason) :
    (s.interrupt reason now world).2.stats.stored = s.stats.stored := by
  rcases s.interrupt_cases reason now world with ⟨-, hi⟩ | ⟨_, _, _, _, -, hi⟩ | ⟨-, -, hi⟩
  · rw [hi]
  · rw [hi]
    exact stored_close s now world _
  · rw [hi]
    exact stored_abandon s now world reason

/-- A move counts no event as stored that the sink has not found to be new. -/
theorem counts_step (c : Control) : Counts world s (s.step c world).2 := by
  rcases s.step_cases c world with hs | ⟨reason, now, hs⟩ | ⟨shutdown, hs⟩
  · rw [hs]
    exact .inl rfl
  · rw [hs]
    exact .inl (stored_interrupt now world reason)
  · rw [hs]
    exact counts_proceed world shutdown

end Harvest.Session
