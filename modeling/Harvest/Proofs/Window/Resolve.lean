import Harvest.Proofs.Window.Fresh

/-! What noting a reply does to a splitter, for any window at all: one that was never owed, one whose
ends are crossed, or one that spans all numbers of 64 bits. The steps of the arithmetic stay within
64 bits, for a window is narrowed only where it is as wide as the floor, and that bounds every one
of them from both sides. -/

namespace Harvest

/-! ## Arithmetic within 64 bits -/

namespace Word

/-- The sum, if it has no more than 64 bits. -/
def plus? (a b : Nat) : Option Nat := if a + b < UInt64.size then some (a + b) else none

/-- The difference, if it is not below zero. -/
def minus? (a b : Nat) : Option Nat := if b ≤ a then some (a - b) else none

/-- The number nearest to `t` from `least` to `most`, if these are not crossed. -/
def between? (least most t : Nat) : Option Nat :=
  if least ≤ most then some (max least (min t most)) else none

theorem plus?_eq {a b : Nat} (h : a + b < UInt64.size) : plus? a b = some (a + b) := if_pos h

theorem minus?_eq {a b : Nat} (h : b ≤ a) : minus? a b = some (a - b) := if_pos h

end Word

/-- The windows that take the place of `w`, if each step to them stays within 64 bits. -/
def Window.narrow? (floor : Nat) (w : Window) : Option Nat → Option (List Window)
  | none => do
    let mid ← Word.plus? w.since (w.width / 2)
    let next ← Word.plus? mid 1
    return [⟨w.since, mid⟩, ⟨next, w.upto⟩]
  | some stamp => do
    let oldest ← Word.between? w.since w.upto stamp
    let ceiling ← Word.minus? w.upto floor
    if oldest ≤ ceiling then
      return [⟨w.since, oldest⟩]
    else
      let next ← Word.plus? ceiling 1
      return [⟨next, oldest⟩, ⟨w.since, ceiling⟩]

/-- What a reply means for the window `w`, if each step to it stays within 64 bits. -/
def Splitter.judge? (s : Splitter) (w : Window) (count : Nat) (oldest : Option Nat) :
    Option Resolution :=
  if count < s.cap then some .covered
  else if w.width < s.floor then some (.incomplete w)
  else (w.narrow? s.floor oldest).map .narrowed

/-- A window that is as wide as the floor is narrowed within 64 bits. -/
theorem Window.narrow?_eq {floor : Nat} {w : Window} (hf : 1 ≤ floor) (hw : floor ≤ w.width)
    (hupto : w.upto < UInt64.size) (oldest : Option Nat) :
    w.narrow? floor oldest = some (w.narrow floor oldest) := by
  have hwide : w.since + w.width = w.upto := by
    simp only [width] at hw ⊢
    omega
  cases oldest with
  | none =>
    have hmid : w.since + w.width / 2 + 1 ≤ w.upto := by omega
    have hplus := Word.plus?_eq (a := w.since) (b := w.width / 2) (by omega)
    have hnext := Word.plus?_eq (a := w.since + w.width / 2) (b := 1) (by omega)
    simp [narrow?, narrow, hplus, hnext]
  | some stamp =>
    have hends : w.since ≤ w.upto := by omega
    have hminus := Word.minus?_eq (a := w.upto) (b := floor) (by omega)
    have hnext := Word.plus?_eq (a := w.upto - floor) (b := 1) (by omega)
    have hbetween : Word.between? w.since w.upto stamp = some (w.clamp stamp) := if_pos hends
    by_cases hc : w.clamp stamp ≤ w.upto - floor
    · simp [narrow?, narrow, hbetween, hminus, hc]
    · simp [narrow?, narrow, hbetween, hminus, hnext, hc]

theorem Splitter.judge?_eq (s : Splitter) {w : Window} (hupto : w.upto < UInt64.size) (count : Nat)
    (oldest : Option Nat) : s.judge? w count oldest = some (s.judge w count oldest) := by
  by_cases hc : count < s.cap
  · simp only [judge?, judge, if_pos hc]
  · by_cases hf : w.width < s.floor
    · simp only [judge?, judge, if_neg hc, if_pos hf]
    · have hn := Window.narrow?_eq s.floor_pos (Nat.le_of_not_lt hf) hupto oldest
      simp only [judge?, judge, if_neg hc, if_neg hf, hn, Option.map_some]

/-! ## What is owed instead of a window -/

/-- What takes the place of a window are parts of it that are narrower and not empty, apart from each
other. -/
theorem Splitter.parts_judge (s : Splitter) (w : Window) (count : Nat) (oldest : Option Nat) :
    (s.judge w count oldest).owed.Pairwise Window.Disjoint ∧
      ∀ u ∈ (s.judge w count oldest).owed,
        u.since ≤ u.upto ∧ (∀ t ∈ u, t ∈ w) ∧ u.width < w.width := by
  have hnonempty : ∀ v ∈ (s.judge w count oldest).owed, v.since ≤ v.upto :=
    Course.nonempty_of_judge
  by_cases hc : count < s.cap
  · simp [judge, hc, Resolution.owed]
  · by_cases hf : w.width < s.floor
    · simp [judge, hc, hf, Resolution.owed]
    · have hparts := Window.of_narrow s.floor_pos (Nat.le_of_not_lt hf) oldest
      rw [judge, if_neg hc, if_neg hf] at hnonempty ⊢
      exact ⟨hparts.1, fun u hu => ⟨hnonempty u hu, hparts.2 u hu⟩⟩

/-! ## Taking what was put on the stack -/

theorem WindowStack.eq_of_pending {s t : WindowStack} (h : s.pending = t.pending) : s = t := by
  cases s
  cases t
  simpa using h

theorem WindowStack.pop_of_pending {s rest : WindowStack} {w : Window}
    (h : s.pending = w :: rest.pending) : s.pop = some (w, rest) := by
  cases hp : s.pop with
  | none =>
    rw [pop_eq_none_iff.mp hp] at h
    cases h
  | some top =>
    obtain ⟨v, below⟩ := top
    rw [pending_of_pop hp] at h
    obtain ⟨rfl, hbelow⟩ := List.cons.inj h
    rw [eq_of_pending hbelow]

namespace Splitter

/-- Takes windows one after the other, and says what is left then. -/
def takeMany? : Nat → Splitter → Option (List Window × Splitter)
  | 0, s => some ([], s)
  | n + 1, s =>
    match s.next with
    | none => none
    | some (w, rest) => (takeMany? n rest).map fun (ws, last) => (w :: ws, last)

/-- What lies on top of a stack is taken first, and leaves that stack. -/
theorem takeMany?_of_pending {s : Splitter} {front : List Window} {stack : WindowStack}
    (h : s.stack.pending = front ++ stack.pending) :
    s.takeMany? front.length = some (front, { s with stack }) := by
  induction front generalizing s with
  | nil =>
    obtain rfl := WindowStack.eq_of_pending h
    rfl
  | cons w front ih =>
    have hne : ∀ v ∈ front ++ stack.pending, v.since ≤ v.upto := by
      intro v hv
      exact s.stack.nonempty v (h ▸ List.mem_cons_of_mem _ hv)
    have hpop : s.stack.pop = some (w, ⟨front ++ stack.pending, hne⟩) :=
      WindowStack.pop_of_pending h
    have hnext : s.next = some (w, { s with stack := ⟨front ++ stack.pending, hne⟩ }) := by
      rw [next, hpop]
      rfl
    rw [List.length_cons, takeMany?, hnext]
    dsimp only
    rw [ih rfl]
    rfl

/-- Apart from its stack a splitter takes up the flagged window, and counts the reply. -/
theorem resolve_with_stack (s : Splitter) (w : Window) (count : Nat) (oldest : Option Nat) :
    { (s.resolve w count oldest).2 with stack := s.stack } =
      { s with
        flagged := s.flagged ++ (s.judge w count oldest).flagged
        resolved := s.resolved + 1 } := by
  simp only [cap_resolve, floor_resolve, flagged_resolve, resolved_resolve]

/-- What becomes of a splitter and what is reported when a reply of `count` items is noted. -/
structure Notes (s : Splitter) (w : Window) (count : Nat) (oldest : Option Nat)
    (noted : Resolution × Splitter) : Prop where
  /-- Every step of the arithmetic has a value within 64 bits. -/
  exact : s.judge? w count oldest = some noted.1
  parts : ∀ u ∈ noted.1.owed, u.since ≤ u.upto ∧ (∀ t ∈ u, t ∈ w) ∧ u.width < w.width
  apart : noted.1.owed.Pairwise Window.Disjoint
  /-- The windows that are reported lie on top of those that were pending. -/
  pushed : noted.2.stack.pending = noted.1.owed ++ s.stack.pending
  /-- They are taken next, in their order, and what was pending is left. -/
  taken : noted.2.takeMany? noted.1.owed.length = some (noted.1.owed,
    { s with flagged := s.flagged ++ noted.1.flagged, resolved := s.resolved + 1 })
  cap : noted.2.cap = s.cap
  floor : noted.2.floor = s.floor

/-- **A reply to any window at all is noted safely**, whatever the splitter owes, how many items came
and what their oldest stamp is. -/
theorem resolve_safe (s : Splitter) (since upto : UInt64) (count : Nat) (oldest : Option UInt64) :
    let w : Window := ⟨since.toNat, upto.toNat⟩
    let stamp := oldest.map UInt64.toNat
    s.Notes w count stamp (s.resolve w count stamp) := by
  intro w stamp
  have hupto : w.upto < UInt64.size := upto.toNat_lt_size
  have hjudge := s.fst_resolve w count stamp
  obtain ⟨hapart, hparts⟩ := s.parts_judge w count stamp
  have hpushed : (s.resolve w count stamp).2.stack.pending =
      (s.judge w count stamp).owed ++ s.stack.pending := by
    rw [pending_resolve, List.filter_eq_self.mpr]
    intro u hu
    exact decide_eq_true (hparts u hu).1
  have htaken := takeMany?_of_pending hpushed
  rw [resolve_with_stack] at htaken
  rw [← hjudge] at hapart hparts hpushed htaken
  refine ⟨?_, hparts, hapart, hpushed, htaken, s.cap_resolve .., s.floor_resolve ..⟩
  rw [s.judge?_eq hupto, hjudge]

example : (ofRange ⟨0, 9⟩ 1 1).judge? ⟨0, 18446744073709551615⟩ 1 none =
    some (.narrowed [⟨0, 9223372036854775807⟩, ⟨9223372036854775808, 18446744073709551615⟩]) := by
  decide

end Splitter

end Harvest
