import Harvest.Window.Stack

/-! Which windows to ask for, and when a range is covered. A reply below the cap proves its
window complete. A full reply may have been cut, so its window gives way to narrower ones; only
a window that is narrower than the floor is accepted as it is, and then flagged.

Replies come newest first, so a full reply with an oldest stamp covers everything above that
stamp. The second of the stamp itself may have been cut in the middle and is asked for again. -/

namespace Harvest

inductive Resolution
  /-- The reply was below the cap. -/
  | covered
  /-- The reply was full: these windows are owed instead, the first one next. -/
  | narrowed (owed : List Window)
  /-- The reply was full and the window lies under the floor. -/
  | incomplete (window : Window)
deriving DecidableEq

/-- The windows that take the place of `w` after a full reply whose oldest stamp is `oldest`. The
stamp counts as if it lay in the window. Without a stamp the window is halved. A stamp less than
`floor` below the top is not a cut worth making: the seconds under the top are asked for alone. -/
def Window.narrow (floor : Nat) (w : Window) : Option Nat → List Window
  | none =>
    let mid := w.since + w.width / 2
    [⟨w.since, mid⟩, ⟨mid + 1, w.upto⟩]
  | some stamp =>
    let oldest := w.clamp stamp
    let ceiling := w.upto - floor
    if oldest ≤ ceiling then [⟨w.since, oldest⟩]
    else [⟨ceiling + 1, oldest⟩, ⟨w.since, ceiling⟩]

/-- The windows owed for one relay, with what was learnt so far. -/
structure Splitter where
  stack : WindowStack
  /-- A reply of this size or more is full. -/
  cap : Nat
  /-- A window narrower than this is never narrowed. -/
  floor : Nat
  /-- Windows accepted under the floor, in the order of their replies. -/
  flagged : List Window := []
  resolved : Nat := 0
  cap_pos : 1 ≤ cap
  floor_pos : 1 ≤ floor

namespace Splitter

/-- Owes one range. Cap and floor are at least one. -/
def ofRange (range : Window) (cap floor : Nat) : Splitter where
  stack := .ofWindow range
  cap := max 1 cap
  floor := max 1 floor
  cap_pos := by omega
  floor_pos := by omega

/-- The next window to ask for, and the splitter without it. -/
def next (s : Splitter) : Option (Window × Splitter) :=
  s.stack.pop.map fun (w, rest) => (w, { s with stack := rest })

/-- What a reply of `count` items means for the window `w`. -/
def judge (s : Splitter) (w : Window) (count : Nat) (oldest : Option Nat) : Resolution :=
  if count < s.cap then .covered
  else if w.width < s.floor then .incomplete w
  else .narrowed (w.narrow s.floor oldest)

/-- Puts windows on the stack so that the first of the list comes next. -/
def owe (s : Splitter) (owed : List Window) : Splitter :=
  { s with stack := owed.foldr (fun w stack => stack.push w) s.stack }

def resolve (s : Splitter) (w : Window) (count : Nat) (oldest : Option Nat) :
    Resolution × Splitter :=
  let seen := { s with resolved := s.resolved + 1 }
  match s.judge w count oldest with
  | .covered => (.covered, seen)
  | .narrowed owed => (.narrowed owed, seen.owe owed)
  | .incomplete v => (.incomplete v, { seen with flagged := s.flagged ++ [v] })

def isDrained (s : Splitter) : Bool := s.stack.isEmpty

def pending (s : Splitter) : Nat := s.stack.size

def abandon (s : Splitter) : Nat × Splitter :=
  let (count, stack) := s.stack.abandon
  (count, { s with stack })

end Splitter

/-! ## The work that is left

A window of width `w` can cause at most `2 * w + 1` queries, its own included, whatever the relay
answers. The sum over the stack falls with every reply, so no relay can keep a splitter busy
for ever. -/

/-- The most queries that a window can cause. -/
def Window.potential (w : Window) : Nat := 2 * w.width + 1

def Window.potentials : List Window → Nat
  | [] => 0
  | w :: rest => w.potential + potentials rest

def WindowStack.potential (s : WindowStack) : Nat := Window.potentials s.pending

def Splitter.potential (s : Splitter) : Nat := s.stack.potential

theorem WindowStack.potential_push_le (s : WindowStack) (w : Window) :
    (s.push w).potential ≤ w.potential + s.potential := by
  simp only [potential, pending_push]
  split <;> simp [Window.potentials]

theorem Splitter.potential_owe_le (s : Splitter) (owed : List Window) :
    (s.owe owed).potential ≤ Window.potentials owed + s.potential := by
  simp only [owe, potential]
  induction owed with
  | nil => simp [Window.potentials]
  | cons w rest ih =>
    simp only [List.foldr_cons, Window.potentials]
    have := WindowStack.potential_push_le
      (rest.foldr (fun w (stack : WindowStack) => stack.push w) s.stack) w
    omega

theorem Window.potential_narrow_lt {floor : Nat} {w : Window} (hf : 1 ≤ floor)
    (hw : floor ≤ w.width) (oldest : Option Nat) :
    potentials (w.narrow floor oldest) < w.potential := by
  cases oldest with
  | none =>
    simp only [narrow, potentials, potential, width]
    simp only [width] at hw
    omega
  | some stamp =>
    simp only [narrow]
    simp only [width] at hw
    split
    · simp only [potentials, potential, width]
      omega
    · simp only [potentials, potential, width, clamp] at *
      omega

theorem Splitter.potential_next {s rest : Splitter} {w : Window} (h : s.next = some (w, rest)) :
    s.potential = w.potential + rest.potential := by
  simp only [next, Option.map_eq_some_iff, Prod.exists, Prod.mk.injEq] at h
  obtain ⟨v, stack, hp, rfl, rfl⟩ := h
  simp [potential, WindowStack.potential, WindowStack.pending_of_pop hp, Window.potentials]

theorem Splitter.potential_resolve_lt (s : Splitter) (w : Window) (count : Nat)
    (oldest : Option Nat) :
    (s.resolve w count oldest).2.potential < w.potential + s.potential := by
  have hw : 1 ≤ w.potential := by simp only [Window.potential]; omega
  by_cases hc : count < s.cap
  · simp only [resolve, judge, if_pos hc, potential]; omega
  · by_cases hf : w.width < s.floor
    · simp only [resolve, judge, if_neg hc, if_pos hf, potential]; omega
    · simp only [resolve, judge, if_neg hc, if_neg hf]
      have hn := Window.potential_narrow_lt s.floor_pos (Nat.le_of_not_lt hf) oldest
      have ho := potential_owe_le { s with resolved := s.resolved + 1 } (w.narrow s.floor oldest)
      simp only [potential] at *
      omega

end Harvest
