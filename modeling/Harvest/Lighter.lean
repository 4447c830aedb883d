/-! A list gets lighter when one of its elements is replaced by a smaller one. If elements cannot
get smaller for ever, neither can a list get lighter for ever. -/

namespace Harvest

inductive Lighter (r : α → α → Prop) : List α → List α → Prop
  | head {a b : α} {rest : List α} : r a b → Lighter r (a :: rest) (b :: rest)
  | tail {a : α} {xs ys : List α} : Lighter r xs ys → Lighter r (a :: xs) (a :: ys)

namespace Lighter

variable {r : α → α → Prop}

theorem acc_cons {a : α} {xs : List α} (ha : Acc r a) (hx : Acc (Lighter r) xs) :
    Acc (Lighter r) (a :: xs) := by
  induction ha generalizing xs with
  | intro a _ iha =>
    induction hx with
    | intro xs hx ihx =>
      constructor
      intro ys h
      cases h with
      | head h => exact iha _ h ⟨xs, hx⟩
      | tail h => exact ihx _ h

theorem wf (h : WellFounded r) : WellFounded (Lighter r) := by
  constructor
  intro xs
  induction xs with
  | nil => exact ⟨_, fun ys hy => nomatch hy⟩
  | cons a rest ih => exact acc_cons (h.apply a) ih

theorem set {xs : List α} {i : Nat} {a b : α} (h : xs[i]? = some a) (hr : r b a) :
    Lighter r (xs.set i b) xs := by
  induction xs generalizing i with
  | nil => simp at h
  | cons x rest ih =>
    cases i with
    | zero =>
      simp only [List.getElem?_cons_zero, Option.some.injEq] at h
      subst h
      exact .head hr
    | succ i => exact .tail (ih (by simpa using h))

end Lighter

end Harvest
