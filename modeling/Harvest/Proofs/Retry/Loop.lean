import Harvest.Retry
import Mathlib.Algebra.BigOperators.Group.List.Basic
import Mathlib.Algebra.Ring.Nat
import Mathlib.Order.Bounds.Defs

/-! How often an operation is tried: until it succeeds, fails for good, or has been tried as often as
the policy allows, whichever comes first. Between two attempts there is one pause, and none after
the last. -/

namespace Harvest

namespace RetryPolicy

variable {σ ε α : Type} (p : RetryPolicy) (transient : ε → Bool)

/-- After the attempt of this number, which counts from zero, there is no other one. -/
def IsLast (outcomes : Nat → Except ε α) (k : Nat) : Prop :=
  (∃ a, outcomes k = .ok a) ∨ (∃ e, outcomes k = .error e ∧ transient e = false) ∨
    k + 1 = max 1 p.maxAttempts

/-- What the attempts leave of a state, one after the other. -/
def stateAfter (attempt : σ → Nat → σ × Except ε α) (s : σ) : Nat → σ
  | 0 => s
  | k + 1 => (attempt (stateAfter attempt s k) k).1

/-- What the attempts come to, one after the other. -/
def outcomeOf (attempt : σ → Nat → σ × Except ε α) (s : σ) (k : Nat) : Except ε α :=
  (attempt (stateAfter attempt s k) k).2

/-- Milliseconds from the first attempt to the attempt of this number. -/
def delayUntil (k : Nat) : Nat := ((List.range k).map fun i => p.delayFor (i + 1)).sum

/-- An operation was tried up to the attempt `k`, the first one that is the last. -/
structure Ran (outcomes : Nat → Except ε α) (k : Nat) (a : Attempted ε α) : Prop where
  least : IsLeast {i | p.IsLast transient outcomes i} k
  result : a.result = outcomes k
  retries : a.retries = k
  pauses : a.pauses = (List.range k).map fun i => p.delayFor (i + 1)
  /-- Each attempt follows the pause before it, and nothing follows the last one. -/
  instants : a.instants = (List.range (k + 1)).map p.delayUntil
  elapsed : a.elapsed = p.delayUntil k
  /-- A counter of 32 bits is wide enough, also where the next attempt is compared with the limit. -/
  counter : p.maxAttempts < 2 ^ 32 → k + 1 < 2 ^ 32

variable {p transient}

theorem next?_eq_none_iff {retries : Nat} {again : Bool} (hr : retries < max 1 p.maxAttempts) :
    p.next? retries again = none ↔ again = false ∨ retries + 1 = max 1 p.maxAttempts := by
  rw [next?]
  cases again <;> simp
  omega

variable (p transient) in
/-- The loop from some attempt on. -/
theorem runWithFrom_eq (attempt : σ → Nat → σ × Except ε α) (s t : σ) (retries : Nat)
    (ht : t = stateAfter attempt s retries) (hr : retries < max 1 p.maxAttempts) :
    ∃ k, retries ≤ k ∧ k < max 1 p.maxAttempts ∧ p.IsLast transient (outcomeOf attempt s) k ∧
      (∀ i, retries ≤ i → i < k → ¬p.IsLast transient (outcomeOf attempt s) i) ∧
      p.runWithFrom transient attempt t retries =
        (stateAfter attempt s (k + 1),
          { result := outcomeOf attempt s k
            retries := k
            pauses := (List.range' retries (k - retries)).map fun i => p.delayFor (i + 1) }) := by
  have here (i : Nat) (hle : retries ≤ i) (hlt : i < retries) :
      ¬p.IsLast transient (outcomeOf attempt s) i := by omega
  fun_induction runWithFrom p transient attempt t retries with
  | case1 t retries t' a ha =>
    subst ht
    have hstate : stateAfter attempt s (retries + 1) = t' := congrArg Prod.fst ha
    have houtcome : outcomeOf attempt s retries = .ok a := congrArg Prod.snd ha
    refine ⟨retries, Nat.le_refl _, hr, .inl ⟨a, houtcome⟩, here, ?_⟩
    rw [hstate, houtcome, Nat.sub_self]
    rfl
  | case2 t retries t' e ha hnone =>
    subst ht
    have hstate : stateAfter attempt s (retries + 1) = t' := congrArg Prod.fst ha
    have houtcome : outcomeOf attempt s retries = .error e := congrArg Prod.snd ha
    refine ⟨retries, Nat.le_refl _, hr, ?_, here, ?_⟩
    · exact .inr (((next?_eq_none_iff hr).mp hnone).imp_left fun he => ⟨e, houtcome, he⟩)
    · rw [hstate, houtcome, Nat.sub_self]
      rfl
  | case3 t retries t' e ha n hn t'' rest hrest ih =>
    subst ht
    have hstate : stateAfter attempt s (retries + 1) = t' := congrArg Prod.fst ha
    have houtcome : outcomeOf attempt s retries = .error e := congrArg Prod.snd ha
    obtain ⟨rfl, hlt⟩ := lt_maxAttempts_of_next? hn
    obtain ⟨k, hle, hk, hlast, hearlier, hloop⟩ :=
      ih hstate.symm hlt fun i hi hi' => by omega
    refine ⟨k, Nat.le_of_succ_le hle, hk, hlast, fun i hi hik => ?_, ?_⟩
    · rcases Nat.eq_or_lt_of_le hi with rfl | hi
      · -- an attempt that is followed by another one is not the last
        rintro (⟨a, hok⟩ | ⟨e', herror, hgood⟩ | hlimit)
        · rw [houtcome] at hok
          cases hok
        · rw [houtcome] at herror
          obtain rfl := Except.error.inj herror
          rw [hgood] at hn
          simp [next?] at hn
        · omega
      · exact hearlier i hi hik
    · rw [hrest] at hloop
      obtain ⟨rfl, rfl⟩ := Prod.mk.inj hloop
      have hpauses : k - retries = (k - (retries + 1)) + 1 := by omega
      rw [hpauses, List.range'_succ, List.map_cons]

theorem foldl_instants (delay : Nat → Nat) (k : Nat) :
    ((List.range k).map delay).foldl
        (fun (t : List Nat × Nat) pause => ((t.2 + pause) :: t.1, t.2 + pause)) ([0], 0) =
      (((List.range (k + 1)).map fun i => ((List.range i).map delay).sum).reverse,
        ((List.range k).map delay).sum) := by
  induction k with
  | zero => rfl
  | succ k ih =>
    rw [List.range_succ, List.map_append, List.foldl_append, ih]
    simp [List.range_succ]

/-- **A loop makes just the attempts that its policy grants.** -/
theorem ran_runWith (p : RetryPolicy) (transient : ε → Bool) (attempt : σ → Nat → σ × Except ε α)
    (s : σ) :
    ∃ k, p.Ran transient (outcomeOf attempt s) k (p.runWith transient attempt s).2 ∧
      (p.runWith transient attempt s).1 = stateAfter attempt s (k + 1) := by
  have hpos : 0 < max 1 p.maxAttempts := Nat.lt_of_lt_of_le Nat.one_pos (Nat.le_max_left ..)
  obtain ⟨k, -, hk, hlast, hearlier, hloop⟩ :=
    runWithFrom_eq p transient attempt s s 0 rfl hpos
  rw [Nat.sub_zero, ← List.range_eq_range'] at hloop
  rw [runWith, hloop]
  refine ⟨k, ⟨⟨hlast, fun i hi => ?_⟩, rfl, rfl, rfl, ?_, ?_, fun hm => by omega⟩, rfl⟩
  · exact Nat.le_of_not_lt fun hlt => hearlier i (Nat.zero_le i) hlt hi
  · exact (congrArg (List.reverse ∘ Prod.fst) (foldl_instants _ k)).trans (List.reverse_reverse _)
  · exact List.sum_eq_foldl.symm

/-- An attempt that notes its number. -/
def noting (outcomes : Nat → Except ε α) (calls : List Nat) (n : Nat) :
    List Nat × Except ε α := (calls ++ [n], outcomes n)

theorem stateAfter_noting (outcomes : Nat → Except ε α) (k : Nat) :
    stateAfter (noting outcomes) [] k = List.range k := by
  induction k with
  | zero => rfl
  | succ k ih => rw [List.range_succ, ← ih]; rfl

variable (p transient) in
/-- Both loops go the same way where what an attempt comes to does not depend on the state. -/
theorem runWithFrom_snd {attempt : σ → Nat → σ × Except ε α} {outcomes : Nat → Except ε α}
    (h : ∀ s n, (attempt s n).2 = outcomes n) (s : σ) (retries : Nat) :
    (p.runWithFrom transient attempt s retries).2 = p.runFrom transient outcomes retries := by
  have hattempt (s : σ) (n : Nat) : attempt s n = ((attempt s n).1, outcomes n) :=
    Prod.ext rfl (h s n)
  fun_induction runFrom p transient outcomes retries generalizing s with
  | case1 retries a ha =>
    rw [runWithFrom, hattempt, ha]
  | case2 retries e he hnone =>
    rw [runWithFrom, hattempt, he]
    dsimp only
    split
    · rfl
    · rename_i n hn
      rw [hnone] at hn
      cases hn
  | case3 retries e he n hn rest ih =>
    rw [runWithFrom, hattempt, he]
    dsimp only
    split
    · rename_i hnone
      rw [hnone] at hn
      cases hn
    · rename_i n' hn'
      obtain rfl := Option.some.inj (hn.symm.trans hn')
      have hrest : (p.runWithFrom transient attempt (attempt s retries).1 n).2 = rest := ih _
      rw [hrest]

/-- **So does a loop whose attempts share no state**, and it makes each of them once, in turn. -/
theorem ran_run (p : RetryPolicy) (transient : ε → Bool) (outcomes : Nat → Except ε α) :
    ∃ k, p.Ran transient outcomes k (p.run transient outcomes) ∧
      p.runWith transient (noting outcomes) [] = (List.range (k + 1), p.run transient outcomes) := by
  obtain ⟨k, hran, hcalls⟩ := ran_runWith p transient (noting outcomes) []
  have hnoting (calls : List Nat) (n : Nat) : (noting outcomes calls n).2 = outcomes n := rfl
  have hsame : (p.runWith transient (noting outcomes) []).2 = p.run transient outcomes :=
    runWithFrom_snd p transient hnoting [] 0
  rw [hsame] at hran
  exact ⟨k, hran, Prod.ext (hcalls.trans (stateAfter_noting ..)) hsame⟩

end RetryPolicy

end Harvest
