import Harvest.Window.Splitter

/-! Draining a range from a relay that answers newest first and cuts its replies. The loop takes
the next window, asks for it and hands the size of the reply and its oldest stamp back to the
splitter, until nothing is owed. -/

namespace Harvest

/-- What a query learns: how many items came, and the oldest stamp among them. -/
structure Tally where
  count : Nat
  oldest : Option Nat
deriving DecidableEq

/-- The stamps of the items that a relay holds, and the most items of one reply. -/
structure Holdings where
  stamps : List Nat
  cap : Nat

namespace Holdings

/-- The stamps of a reply: those in the window, the newest first, at most `cap` of them. -/
def reply (h : Holdings) (w : Window) : List Nat :=
  ((h.stamps.filter w.contains).mergeSort (· ≥ ·)).take h.cap

def tally (h : Holdings) (w : Window) : Tally :=
  let reply := h.reply w
  { count := reply.length, oldest := reply.getLast? }

end Holdings

structure Query where
  window : Window
  count : Nat
  resolution : Resolution
deriving DecidableEq

namespace Splitter

/-- Drains against the relay `answer` with at most `limit` queries. -/
def drain (answer : Window → Tally) : Nat → Splitter → List Query × Splitter
  | 0, s => ([], s)
  | limit + 1, s =>
    match s.next with
    | none => ([], s)
    | some (window, rest) =>
      let tally := answer window
      let (resolution, rest) := rest.resolve window tally.count tally.oldest
      let (queries, last) := drain answer limit rest
      ({ window, count := tally.count, resolution } :: queries, last)

/-- As many queries as the splitter's potential are enough to drain it, whatever the relay says. -/
theorem isDrained_drain (answer : Window → Tally) (limit : Nat) (s : Splitter)
    (h : s.potential ≤ limit) : (s.drain answer limit).2.isDrained = true := by
  induction limit generalizing s with
  | zero =>
    have : s.stack.pending = [] := by
      cases hp : s.stack.pending with
      | nil => rfl
      | cons w ws =>
        simp [potential, WindowStack.potential, hp, Window.potentials, Window.potential] at h
    simp [drain, isDrained, WindowStack.isEmpty, this]
  | succ limit ih =>
    simp only [drain]
    split
    · rename_i hn
      have hn : s.stack.pending = [] := by
        simpa [next, WindowStack.pop_eq_none_iff] using hn
      simp [isDrained, WindowStack.isEmpty, hn]
    · rename_i w rest hn
      have h1 := potential_next hn
      have h2 := potential_resolve_lt rest w (answer w).count (answer w).oldest
      exact ih _ (by omega)

end Splitter

end Harvest
