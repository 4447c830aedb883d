/-! A window is a span of seconds asked for in one query, both ends included. A window whose
first second lies after its last one is empty: it owes nothing and is never queried. -/

namespace Harvest

/-- The seconds from `since` to `upto`, both included. -/
structure Window where
  since : Nat
  upto : Nat
deriving DecidableEq, Repr, Inhabited

namespace Window

/-- Seconds between the two ends: zero for a window of one second, and for an empty one. -/
def width (w : Window) : Nat := w.upto - w.since

def isEmpty (w : Window) : Bool := w.upto < w.since

def contains (w : Window) (t : Nat) : Bool := w.since ≤ t && t ≤ w.upto

/-- The second of the window that is nearest to `t`. -/
def clamp (w : Window) (t : Nat) : Nat := max w.since (min t w.upto)

def text (w : Window) : String := s!"[{w.since}, {w.upto}]"

instance : Membership Nat Window where
  mem w t := w.since ≤ t ∧ t ≤ w.upto

instance (t : Nat) (w : Window) : Decidable (t ∈ w) :=
  inferInstanceAs (Decidable (w.since ≤ t ∧ t ≤ w.upto))

theorem mem_iff {w : Window} {t : Nat} : t ∈ w ↔ w.since ≤ t ∧ t ≤ w.upto := Iff.rfl

@[simp] theorem contains_iff {w : Window} {t : Nat} : w.contains t = true ↔ t ∈ w := by
  simp [contains, mem_iff]

theorem isEmpty_eq_false_iff {w : Window} : w.isEmpty = false ↔ w.since ≤ w.upto := by
  simp [isEmpty]

theorem clamp_mem {w : Window} (h : w.since ≤ w.upto) (t : Nat) : w.clamp t ∈ w := by
  simp only [clamp, mem_iff]; omega

theorem clamp_of_mem {w : Window} {t : Nat} (h : t ∈ w) : w.clamp t = t := by
  simp only [clamp, mem_iff] at *; omega

end Window

end Harvest
