import Harvest.Session

/-! A session by itself, from its start to its end. Every move of a session makes it lighter, so it
has only finitely many. The weight says what a session still has to do: first how much its windows
can still cause, then where it stands, then the items of the reply that it did not look at, then the
attempts that are left. Whatever the relay and the sink do, one of them falls and those before it
stay. -/

namespace Harvest

/-- What there is to do, the weightiest part first. -/
structure Weight where
  /-- Falls when a session begins, and when it is over. -/
  life : Nat
  owed : Nat
  phase : Nat
  /-- Items of a reply that were not looked at yet. -/
  items : Nat
  tries : Nat

namespace Weight

protected def Lt (a b : Weight) : Prop :=
  a.life < b.life ∨ a.life = b.life ∧ (a.owed < b.owed ∨ a.owed = b.owed ∧
    (a.phase < b.phase ∨ a.phase = b.phase ∧ (a.items < b.items ∨ a.items = b.items ∧
      a.tries < b.tries)))

instance : LT Weight := ⟨Weight.Lt⟩

theorem lt_def {a b : Weight} : a < b ↔
    a.life < b.life ∨ a.life = b.life ∧ (a.owed < b.owed ∨ a.owed = b.owed ∧
      (a.phase < b.phase ∨ a.phase = b.phase ∧ (a.items < b.items ∨ a.items = b.items ∧
        a.tries < b.tries))) := Iff.rfl

theorem lt_wf : WellFounded (fun a b : Weight => a < b) := by
  let lex := Prod.lex Nat.lt_wfRel (Prod.lex Nat.lt_wfRel (Prod.lex Nat.lt_wfRel
    (Prod.lex Nat.lt_wfRel Nat.lt_wfRel)))
  let key (w : Weight) := (w.life, w.owed, w.phase, w.items, w.tries)
  refine Subrelation.wf (r := InvImage lex.rel key) ?_ (InvImage.wf key lex.wf)
  rintro ⟨a1, a2, a3, a4, a5⟩ ⟨b1, b2, b3, b4, b5⟩ h
  simp only [lt_def] at h
  rcases h with h | ⟨rfl, h | ⟨rfl, h | ⟨rfl, h | ⟨rfl, h⟩⟩⟩⟩
  · exact .left _ _ h
  · exact .right _ (.left _ _ h)
  · exact .right _ (.right _ (.left _ _ h))
  · exact .right _ (.right _ (.right _ (.left _ _ h)))
  · exact .right _ (.right _ (.right _ (.right _ h)))

end Weight

def After.owed : After → Nat
  | reply w .. => w.potential
  | finish => 0

def After.items : After → Nat
  | reply _ _ _ rest => rest.length
  | finish => 0

/-- The attempts that a policy leaves after so many retries. -/
def RetryPolicy.left (p : RetryPolicy) (retries : Nat) : Nat := max 1 p.maxAttempts - retries

theorem RetryPolicy.left_of_next? {p : RetryPolicy} {retries n : Nat} {transient : Bool}
    (h : p.next? retries transient = some n) : p.left retries = p.left n + 1 := by
  have := lt_maxAttempts_of_next? h
  simp only [left]; omega

namespace Session

def weight (s : Session) : Weight :=
  let owed (w : Window) := w.potential + s.splitter.potential
  let queries := s.settings.queryRetry
  let stores := s.settings.sinkRetry
  match s.stage with
  | .ready _ => ⟨1, s.splitter.potential, 4, 0, 0⟩
  | .resting w n _ => ⟨1, owed w, 3, 0, 4 * queries.left n + 3⟩
  | .connecting w n _ _ => ⟨1, owed w, 3, 0, 4 * queries.left n + 2⟩
  | .pacing w n _ => ⟨1, owed w, 3, 0, 4 * queries.left n + 1⟩
  | .querying w n _ _ => ⟨1, owed w, 3, 0, 4 * queries.left n⟩
  | .storeResting _ n after _ =>
    ⟨1, after.owed + s.splitter.potential, 2, after.items, 2 * stores.left n + 1⟩
  | .storing _ n after _ _ =>
    ⟨1, after.owed + s.splitter.potential, 2, after.items, 2 * stores.left n⟩
  | .salvaging .. => ⟨1, 0, 1, 0, 0⟩
  | .ended .. | .crashed _ => ⟨0, 0, 0, 0, 0⟩

/-! ## What each move leaves -/

theorem weight_close (s : Session) (outcome : Outcome) (now : Nat) (world : World) :
    (s.close outcome now world).2.weight.life = 0 := by
  simp only [close, disconnect]
  split <;> rfl

/-- To stop leaves at most one batch to be salvaged. -/
theorem weight_abandon (s : Session) (reason : AbandonReason) (now : Nat) (world : World) :
    (s.abandon reason now world).2.weight.life = 0 ∨
      (s.abandon reason now world).2.weight = ⟨1, 0, 1, 0, 0⟩ := by
  simp only [abandon]
  split
  · exact .inl (weight_close ..)
  · exact .inr rfl

theorem abandon_lt {v : Weight} (hl : v.life = 1) (h : 1 ≤ v.owed ∨ 2 ≤ v.phase) (s : Session)
    (reason : AbandonReason) (now : Nat) (world : World) :
    (s.abandon reason now world).2.weight < v := by
  rw [Weight.lt_def]
  rcases weight_abandon s reason now world with h' | h'
  · omega
  · rw [h']; dsimp only; omega

theorem giveUp_lt {v : Weight} (hl : v.life = 1) (h : 1 ≤ v.owed ∨ 2 ≤ v.phase) (s : Session)
    (reason : AbandonReason) (now : Nat) (world : World) :
    (s.giveUp reason now world).2.weight < v := abandon_lt hl h ..

theorem close_lt {v : Weight} (hl : v.life = 1) (s : Session) (outcome : Outcome) (now : Nat)
    (world : World) : (s.close outcome now world).2.weight < v := by
  have := weight_close s outcome now world
  rw [Weight.lt_def]; omega

theorem attempt_lt {v : Weight} (hl : v.life = 1) (s : Session) (w : Window) (retries now : Nat)
    (world : World)
    (h : w.potential + s.splitter.potential < v.owed ∨
      w.potential + s.splitter.potential = v.owed ∧ (3 < v.phase ∨ 3 = v.phase ∧
        (0 < v.items ∨ 0 = v.items ∧ 4 * s.settings.queryRetry.left retries + 2 < v.tries))) :
    (s.attempt w retries now world).2.weight < v := by
  simp only [attempt, pace]
  split
  · simp only [Weight.lt_def, weight, settings] at *; omega
  · simp only [Weight.lt_def, weight, settings] at *; omega

theorem fail_lt {v : Weight} (hl : v.life = 1) (s : Session) (w : Window) (retries : Nat)
    (fault : LinkFault) (now : Nat) (world : World)
    (h : w.potential + s.splitter.potential = v.owed ∧ 3 = v.phase ∧ 0 = v.items ∧
      4 * s.settings.queryRetry.left retries ≤ v.tries) :
    (s.fail w retries fault now world).2.weight < v := by
  have hs : (s.disconnect world).2.splitter = s.splitter ∧
      (s.disconnect world).2.settings = s.settings := by
    simp only [disconnect]; split <;> exact ⟨rfl, rfl⟩
  simp only [fail]
  split
  · rename_i n hn
    have := RetryPolicy.left_of_next? hn
    rw [hs.2] at this
    simp only [Weight.lt_def, weight]
    simp only [settings] at *
    rw [hs.1, hs.2]
    omega
  · exact giveUp_lt hl (by omega) ..

theorem flush_lt {v : Weight} (hl : v.life = 1) (s : Session) (after : After) (now : Nat)
    (world : World)
    (h : after.owed + s.splitter.potential < v.owed ∨
      after.owed + s.splitter.potential = v.owed ∧ (2 < v.phase ∨ 2 = v.phase ∧
        after.items < v.items)) :
    (s.flush after now world).2.weight < v := by
  simp only [flush, store, Weight.lt_def, weight]
  omega

theorem advance_lt {v : Weight} (hl : v.life = 1) (s : Session) (shutdown : Bool) (now : Nat)
    (world : World)
    (h : s.splitter.potential < v.owed ∨ s.splitter.potential = v.owed ∧ 3 < v.phase) :
    (s.advance shutdown now world).2.weight < v := by
  simp only [advance]
  split
  · rename_i w rest hn
    have hp := Splitter.potential_next hn
    have hw : 1 ≤ w.potential := by simp only [Window.potential]; omega
    split
    · exact giveUp_lt hl (by omega) ..
    · exact attempt_lt hl _ _ _ _ _ (by dsimp only; omega)
  · split
    · exact close_lt hl ..
    · exact flush_lt hl _ _ _ _ (by simp only [After.owed]; omega)

theorem absorb_lt {v : Weight} (hl : v.life = 1) (w : Window) (received : Nat) (shutdown : Bool)
    (now : Nat) (world : World) (items : List Json) (s : Session) (oldest : Option Nat)
    (h : w.potential + s.splitter.potential < v.owed ∨
      w.potential + s.splitter.potential = v.owed ∧ (2 < v.phase ∨ 2 = v.phase ∧
        items.length ≤ v.items)) :
    (s.absorb w received oldest shutdown now world items).2.weight < v := by
  induction items generalizing s oldest with
  | nil =>
    have := Splitter.potential_resolve_lt s.splitter w received oldest
    exact advance_lt hl _ _ _ _ (by dsimp only; omega)
  | cons item rest ih =>
    simp only [List.length_cons] at h
    simp only [absorb]
    split
    · exact ih _ _ (by dsimp only; omega)
    · split
      · exact flush_lt hl _ _ _ _ (by simp only [After.owed, After.items]; omega)
      · exact ih _ _ (by dsimp only; omega)

theorem settle_lt {v : Weight} (hl : v.life = 1) (s : Session) (b : Batch) (retries : Nat)
    (after : After) (refusal : Option SinkFault) (shutdown : Bool) (now : Nat) (world : World)
    (h : after.owed + s.splitter.potential = v.owed ∧ 2 = v.phase ∧ after.items = v.items ∧
      2 * s.settings.sinkRetry.left retries ≤ v.tries) :
    (s.settle b retries after refusal shutdown now world).2.weight < v := by
  simp only [settle]
  split
  · split
    · exact absorb_lt hl _ _ _ _ _ _ _ _ (by
        simp only [After.owed, After.items, noteStored] at *; omega)
    · exact close_lt hl ..
  · split
    · rename_i n hn
      have := RetryPolicy.left_of_next? hn
      simp only [Weight.lt_def, weight]
      simp only [settings] at *
      omega
    · exact close_lt hl ..

theorem proceed_lt (s : Session) (shutdown : Bool) (world : World) (h : s.isOver = false) :
    (s.proceed shutdown world).2.weight < s.weight := by
  have hl : s.weight.life = 1 := by
    simp only [isOver] at h
    simp only [weight]
    cases hs : s.stage <;> simp_all [Stage.due?]
  simp only [proceed]
  cases hs : s.stage with
  | ready now => exact advance_lt hl _ _ _ _ (by simp [weight, hs])
  | connecting w n now result =>
    cases result with
    | opened => simp [pace, weight, hs, Weight.lt_def, settings]
    | failed fault => exact fail_lt hl _ _ _ _ _ _ (by simp [weight, hs])
    | crashed => simp [weight, hs, Weight.lt_def]
  | pacing w n now => simp [ask, weight, hs, Weight.lt_def, settings]
  | querying w n now result =>
    cases result with
    | ok reply => exact absorb_lt hl _ _ _ _ _ _ _ _ (by simp [weight, hs])
    | error fault => exact fail_lt hl _ _ _ _ _ _ (by simp [weight, hs])
  | resting w n now => exact attempt_lt hl _ _ _ _ _ (by simp [weight, hs])
  | storing b n after now refusal =>
    exact settle_lt hl _ _ _ _ _ _ _ _ (by simp [weight, hs])
  | storeResting b n after now =>
    simp [store, weight, hs, Weight.lt_def, settings]
  | salvaging b reason now heeds =>
    simp only [settleSalvage]
    split
    · split <;> exact close_lt hl ..
    · exact close_lt hl ..
  | ended outcome now => simp [isOver, hs, Stage.due?] at h
  | crashed now => simp [isOver, hs, Stage.due?] at h

theorem interrupt_lt (s : Session) (reason : AbandonReason) (now : Nat) (world : World)
    (h : s.isOver = false) : (s.interrupt reason now world).2.weight < s.weight := by
  have hl : s.weight.life = 1 := by
    simp only [isOver] at h
    simp only [weight]
    cases hs : s.stage <;> simp_all [Stage.due?]
  simp only [interrupt]
  cases hs : s.stage with
  | salvaging => exact close_lt hl ..
  | ended => simp [isOver, hs, Stage.due?] at h
  | crashed => simp [isOver, hs, Stage.due?] at h
  | _ => exact abandon_lt hl (by simp [weight, hs]) ..

/-- Every move makes a session lighter. -/
theorem step_lt (s : Session) (c : Control) (world : World) (h : s.isOver = false) :
    (s.step c world).2.weight < s.weight := by
  simp only [step]
  split
  · split
    · exact interrupt_lt _ _ _ _ h
    · exact proceed_lt _ _ _ h
  · exact proceed_lt _ _ _ h
  · rename_i hn
    simp [isOver, hn] at h

/-! ## The whole session -/

/-- Moves until the session is over. -/
def run (c : Control) (world : World) (s : Session) : World × Session :=
  if _h : s.isOver = false then run c (s.step c world).1 (s.step c world).2 else (world, s)
termination_by Weight.lt_wf.wrap s.weight
decreasing_by exact step_lt s c world ‹_›

theorem isOver_run (c : Control) (world : World) (s : Session) :
    (s.run c world).2.isOver = true := by
  fun_induction run with
  | case1 _ _ _ ih => exact ih
  | case2 _ s h => simpa using h

end Session

end Harvest
