import Harvest.Window

/-! Windows that are still owed for one relay, the next one on top. Empty windows are never kept,
so every window that is taken off the stack covers at least one second. -/

namespace Harvest

/-- Pending windows, the top one first. -/
structure WindowStack where
  pending : List Window
  nonempty : ∀ w ∈ pending, w.since ≤ w.upto := by simp
deriving DecidableEq

namespace WindowStack

def empty : WindowStack := { pending := [] }

/-- Puts a window on top; an empty window leaves the stack as it is. -/
def push (s : WindowStack) (w : Window) : WindowStack :=
  if h : w.since ≤ w.upto then
    { pending := w :: s.pending
      nonempty := by
        intro v hv
        rcases List.mem_cons.mp hv with rfl | hv
        · exact h
        · exact s.nonempty v hv }
  else s

def ofWindow (w : Window) : WindowStack := empty.push w

def pop (s : WindowStack) : Option (Window × WindowStack) :=
  match h : s.pending with
  | [] => none
  | w :: rest =>
    some (w, { pending := rest, nonempty := fun v hv => s.nonempty v (by simp [h, hv]) })

def size (s : WindowStack) : Nat := s.pending.length

def isEmpty (s : WindowStack) : Bool := s.pending.isEmpty

def abandon (s : WindowStack) : Nat × WindowStack := (s.size, empty)

@[simp] theorem pending_empty : empty.pending = [] := rfl

theorem pending_push {s : WindowStack} {w : Window} :
    (s.push w).pending = if w.since ≤ w.upto then w :: s.pending else s.pending := by
  by_cases h : w.since ≤ w.upto <;> simp [push, h]

theorem pop_eq_none_iff {s : WindowStack} : s.pop = none ↔ s.pending = [] := by
  unfold pop; split <;> simp_all

theorem pending_of_pop {s rest : WindowStack} {w : Window} (h : s.pop = some (w, rest)) :
    s.pending = w :: rest.pending := by
  unfold pop at h; split at h
  · simp at h
  · simp only [Option.some.injEq, Prod.mk.injEq] at h
    obtain ⟨rfl, rfl⟩ := h
    assumption

end WindowStack

end Harvest
