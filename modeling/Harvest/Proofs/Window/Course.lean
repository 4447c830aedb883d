import Harvest.Window.Splitter
import Mathlib.Algebra.Ring.Nat

/-! What can be done with a splitter: windows are taken off it and replies to them are noted, in
any order and whatever the replies say. At every point of such a course each second of the range
lies in exactly one place: in a window that is still pending, in one that was taken and has no
reply yet, or in a span that a reply has settled. So no second is dropped and none is owed twice. -/

namespace Harvest

namespace Window

/-- No second lies in both windows. -/
def Disjoint (v w : Window) : Prop := ∀ t, t ∈ v → t ∉ w

/-- Each second of the range lies in exactly one of the spans, and no other second in any. -/
structure Tiles (range : Window) (spans : List Window) : Prop where
  disjoint : spans.Pairwise Disjoint
  covers : ∀ t, t ∈ range ↔ ∃ w ∈ spans, t ∈ w

/-- How many of the spans hold the second `t`. -/
def cover (t : Nat) (spans : List Window) : Nat := spans.countP (·.contains t)

theorem cover_nil (t : Nat) : cover t [] = 0 := rfl

theorem cover_cons (t : Nat) (w : Window) (spans : List Window) :
    cover t (w :: spans) = cover t spans + if t ∈ w then 1 else 0 := by
  simp only [cover, List.countP_cons, contains_iff]

theorem cover_append (t : Nat) (v w : List Window) :
    cover t (v ++ w) = cover t v + cover t w := List.countP_append

theorem cover_erase {t : Nat} {w : Window} {spans : List Window} (h : w ∈ spans) :
    cover t spans = cover t (spans.erase w) + if t ∈ w then 1 else 0 := by
  rw [← cover_cons]
  exact (List.perm_cons_erase h).countP_eq _

theorem cover_pos_iff {t : Nat} {spans : List Window} :
    0 < cover t spans ↔ ∃ w ∈ spans, t ∈ w := by
  simp [cover, List.countP_pos_iff]

/-- Spans overlap nowhere if no second is covered twice. -/
theorem pairwise_disjoint_of_cover {spans : List Window} (h : ∀ t, cover t spans ≤ 1) :
    spans.Pairwise Disjoint := by
  induction spans with
  | nil => exact .nil
  | cons w rest ih =>
    refine List.pairwise_cons.mpr ⟨?_, ih ?_⟩
    · intro v hv t hw htv
      have hc := h t
      have hp : 0 < cover t rest := cover_pos_iff.mpr ⟨v, hv, htv⟩
      rw [cover_cons, if_pos hw] at hc
      omega
    · intro t
      have hc := h t
      rw [cover_cons] at hc
      omega

theorem tiles_of_cover {range : Window} {spans : List Window}
    (h : ∀ t, cover t spans = if t ∈ range then 1 else 0) : range.Tiles spans where
  disjoint := pairwise_disjoint_of_cover fun t => by rw [h t]; split <;> omega
  covers t := by
    rw [← cover_pos_iff, h t]
    split <;> simp_all

end Window

/-- A reply that was noted: to which window, how many items, its oldest stamp and what it meant. -/
structure Answered where
  window : Window
  count : Nat
  oldest : Option Nat
  resolution : Resolution
deriving DecidableEq

/-- The seconds above a stamp that counts as if it lay in the window. -/
def Window.above (w : Window) (stamp : Nat) : Window := ⟨w.clamp stamp + 1, w.upto⟩

/-- The windows that are owed after a reply instead of its own. -/
def Resolution.owed : Resolution → List Window
  | narrowed owed => owed
  | _ => []

/-- The window that was accepted under the floor, if one was. -/
def Resolution.flagged : Resolution → List Window
  | incomplete w => [w]
  | _ => []

/-- The span that a reply has settled: a window that is covered or accepted under the floor, and of
a window that is narrowed what lies above the oldest stamp. -/
def Answered.settled (a : Answered) : List Window :=
  match a.resolution with
  | .covered => [a.window]
  | .incomplete w => [w]
  | .narrowed _ => a.oldest.toList.map a.window.above

/-- A splitter on its way. -/
structure Course where
  splitter : Splitter
  /-- The windows that were taken and had no reply yet. -/
  hand : List Window := []
  /-- The replies so far, the latest first. -/
  answered : List Answered := []

namespace Course

/-- The spans in which the seconds of the range lie. -/
def spans (k : Course) : List Window :=
  k.splitter.stack.pending ++ k.hand ++ k.answered.flatMap Answered.settled

/-- The course after a reply to a window in hand. -/
def note (k : Course) (w : Window) (count : Nat) (oldest : Option Nat) : Course where
  splitter := (k.splitter.resolve w count oldest).2
  hand := k.hand.erase w
  answered := ⟨w, count, oldest, (k.splitter.resolve w count oldest).1⟩ :: k.answered

inductive Step : Course → Course → Prop
  /-- The next window is taken. -/
  | take {k : Course} {w : Window} {s : Splitter} :
      k.splitter.next = some (w, s) → Step k { k with splitter := s, hand := w :: k.hand }
  /-- Any reply to a window in hand is noted. -/
  | note {k : Course} {w : Window} (count : Nat) (oldest : Option Nat) :
      w ∈ k.hand → Step k (k.note w count oldest)

/-- The courses that a splitter for this range can take. -/
inductive Reached (range : Window) (cap floor : Nat) : Course → Prop
  | start : Reached range cap floor { splitter := .ofRange range cap floor }
  | step {k k' : Course} : Reached range cap floor k → Step k k' → Reached range cap floor k'

end Course

/-! ## What the operations do -/

namespace Splitter

theorem pending_ofRange (range : Window) (cap floor : Nat) :
    (ofRange range cap floor).stack.pending = if range.since ≤ range.upto then [range] else [] := by
  simp only [ofRange, WindowStack.ofWindow, WindowStack.pending_push, WindowStack.pending_empty]

theorem next_eq_none_iff {s : Splitter} : s.next = none ↔ s.stack.pending = [] := by
  rw [next, Option.map_eq_none_iff, WindowStack.pop_eq_none_iff]

/-- To take a window changes nothing but the stack, of which it was the top. -/
theorem next_eq_some {s rest : Splitter} {w : Window} (h : s.next = some (w, rest)) :
    s.stack.pending = w :: rest.stack.pending ∧ rest = { s with stack := rest.stack } := by
  simp only [next, Option.map_eq_some_iff, Prod.exists, Prod.mk.injEq] at h
  obtain ⟨v, stack, hp, rfl, rfl⟩ := h
  exact ⟨WindowStack.pending_of_pop hp, rfl⟩

theorem pending_owe (s : Splitter) (owed : List Window) :
    (s.owe owed).stack.pending =
      owed.filter (fun w => w.since ≤ w.upto) ++ s.stack.pending := by
  simp only [owe]
  induction owed with
  | nil => rfl
  | cons w rest ih =>
    rw [List.foldr_cons, WindowStack.pending_push, ih, List.filter_cons]
    by_cases h : w.since ≤ w.upto <;> simp [h]

theorem fst_resolve (s : Splitter) (w : Window) (count : Nat) (oldest : Option Nat) :
    (s.resolve w count oldest).1 = s.judge w count oldest := by
  simp only [resolve]; split <;> simp_all

theorem pending_resolve (s : Splitter) (w : Window) (count : Nat) (oldest : Option Nat) :
    (s.resolve w count oldest).2.stack.pending =
      (s.judge w count oldest).owed.filter (fun v => v.since ≤ v.upto) ++ s.stack.pending := by
  simp only [resolve]
  split <;> rename_i h <;> rw [h]
  · rfl
  · exact pending_owe _ _
  · rfl

theorem flagged_resolve (s : Splitter) (w : Window) (count : Nat) (oldest : Option Nat) :
    (s.resolve w count oldest).2.flagged =
      s.flagged ++ (s.judge w count oldest).flagged := by
  simp only [resolve]
  split <;> rename_i h <;> rw [h]
  · exact (List.append_nil _).symm
  · exact (List.append_nil _).symm
  · rfl

theorem resolved_resolve (s : Splitter) (w : Window) (count : Nat) (oldest : Option Nat) :
    (s.resolve w count oldest).2.resolved = s.resolved + 1 := by
  simp only [resolve]
  split <;> rfl

@[simp] theorem cap_resolve (s : Splitter) (w : Window) (count : Nat) (oldest : Option Nat) :
    (s.resolve w count oldest).2.cap = s.cap := by
  simp only [resolve]; split <;> rfl

@[simp] theorem floor_resolve (s : Splitter) (w : Window) (count : Nat) (oldest : Option Nat) :
    (s.resolve w count oldest).2.floor = s.floor := by
  simp only [resolve]; split <;> rfl

/-- What a reply means depends on cap and floor alone. -/
theorem judge_congr {s t : Splitter} (hc : s.cap = t.cap) (hf : s.floor = t.floor) :
    s.judge = t.judge := by
  funext w count oldest
  rw [judge, judge, hc, hf]

theorem lt_cap_of_judge {s : Splitter} {w : Window} {count : Nat} {oldest : Option Nat}
    (h : s.judge w count oldest = .covered) : count < s.cap := by
  unfold judge at h
  split at h
  · assumption
  · split at h <;> cases h

theorem full_of_judge {s : Splitter} {w v : Window} {count : Nat} {oldest : Option Nat}
    (h : s.judge w count oldest = .incomplete v) :
    v = w ∧ s.cap ≤ count ∧ w.width < s.floor := by
  unfold judge at h
  split at h
  · cases h
  · split at h
    · obtain rfl := Resolution.incomplete.inj h
      exact ⟨rfl, by omega, by assumption⟩
    · cases h

end Splitter

/-! ## Each second in exactly one place -/

/-- The windows that take the place of a window, together with what lies above the oldest stamp,
cover each of its seconds once. -/
theorem Window.cover_narrow {floor : Nat} {w : Window} (hf : 1 ≤ floor) (hw : floor ≤ w.width)
    (oldest : Option Nat) (t : Nat) :
    cover t (w.narrow floor oldest) + cover t (oldest.toList.map w.above) =
      if t ∈ w then 1 else 0 := by
  simp only [width] at hw
  cases oldest with
  | none =>
    simp only [narrow, Option.toList_none, List.map_nil, cover_cons, cover_nil, mem_iff, width]
    split <;> split <;> split <;> omega
  | some stamp =>
    have ho := clamp_mem (w := w) (by omega) stamp
    simp only [mem_iff] at ho
    simp only [narrow, above, Option.toList_some, List.map_cons, List.map_nil]
    generalize w.clamp stamp = oldest at ho ⊢
    split
    · simp only [cover_cons, cover_nil, mem_iff]
      split <;> split <;> split <;> omega
    · simp only [cover_cons, cover_nil, mem_iff]
      split <;> split <;> split <;> split <;> omega

/-- An empty window covers nothing. -/
theorem Window.cover_filter_nonempty (t : Nat) (spans : List Window) :
    cover t (spans.filter fun w => w.since ≤ w.upto) = cover t spans := by
  rw [cover, cover, List.countP_filter]
  apply List.countP_congr
  intro w _
  simp only [Bool.and_eq_true, contains_iff, mem_iff, decide_eq_true_eq]
  omega

/-- A reply moves the seconds of its window to the stack or settles them. -/
theorem Splitter.cover_resolve (s : Splitter) (w : Window) (count : Nat) (oldest : Option Nat)
    (t : Nat) :
    Window.cover t (s.resolve w count oldest).2.stack.pending +
        Window.cover t (Answered.mk w count oldest (s.resolve w count oldest).1).settled =
      Window.cover t s.stack.pending + if t ∈ w then 1 else 0 := by
  rw [pending_resolve, fst_resolve, Window.cover_append, Window.cover_filter_nonempty]
  by_cases hc : count < s.cap
  · simp only [judge, if_pos hc, Answered.settled, Resolution.owed, Window.cover_cons,
      Window.cover_nil, Nat.zero_add]
  · by_cases hf : w.width < s.floor
    · simp only [judge, if_neg hc, if_pos hf, Answered.settled, Resolution.owed,
        Window.cover_cons, Window.cover_nil, Nat.zero_add]
    · have hn := Window.cover_narrow s.floor_pos (Nat.le_of_not_lt hf) oldest t
      simp only [judge, if_neg hc, if_neg hf, Answered.settled, Resolution.owed]
      omega

/-! ## What a splitter has not let go

Without the replies that were noted, a second is either still owed or was accepted under the floor,
or else a reply has covered it. -/

namespace Splitter

/-- The second `t` is still owed, or lies in a flagged window. -/
def Tracks (s : Splitter) (t : Nat) : Prop := ∃ w ∈ s.stack.pending ++ s.flagged, t ∈ w

theorem tracks_ofRange {range : Window} {t : Nat} (h : t ∈ range) (cap floor : Nat) :
    (ofRange range cap floor).Tracks t := by
  rw [Window.mem_iff] at h
  refine ⟨range, List.mem_append_left _ ?_, Window.mem_iff.mpr h⟩
  rw [pending_ofRange, if_pos (by omega)]
  exact List.mem_singleton.mpr rfl

theorem Tracks.next {s rest : Splitter} {w : Window} (hn : s.next = some (w, rest)) {t : Nat}
    (h : s.Tracks t) : t ∈ w ∨ rest.Tracks t := by
  obtain ⟨hp, hr⟩ := next_eq_some hn
  obtain ⟨v, hv, ht⟩ := h
  rw [hp, List.cons_append] at hv
  rcases List.mem_cons.mp hv with rfl | hv
  · exact .inl ht
  · right
    rw [hr]
    exact ⟨v, hv, ht⟩

theorem Tracks.resolve {s : Splitter} {t : Nat} (h : s.Tracks t) (w : Window) (count : Nat)
    (oldest : Option Nat) : (s.resolve w count oldest).2.Tracks t := by
  obtain ⟨v, hv, ht⟩ := h
  refine ⟨v, ?_, ht⟩
  rw [pending_resolve, flagged_resolve]
  rcases List.mem_append.mp hv with hv | hv
  · exact List.mem_append_left _ (List.mem_append_right _ hv)
  · exact List.mem_append_right _ (List.mem_append_left _ hv)

/-- A full reply lets go of nothing but what lies above its oldest stamp. -/
theorem tracks_resolve_of_full {s : Splitter} {w : Window} {count : Nat} {oldest : Option Nat}
    {t : Nat} (hc : s.cap ≤ count) (ht : t ∈ w) (ho : ∀ stamp, oldest = some stamp → t ≤ stamp) :
    (s.resolve w count oldest).2.Tracks t := by
  by_cases hf : w.width < s.floor
  · refine ⟨w, List.mem_append_right _ ?_, ht⟩
    rw [flagged_resolve, judge, if_neg (by omega), if_pos hf]
    exact List.mem_append_right _ (List.mem_singleton.mpr rfl)
  · have hn := Window.cover_narrow s.floor_pos (Nat.le_of_not_lt hf) oldest t
    have ha : Window.cover t (oldest.toList.map w.above) = 0 := by
      cases oldest with
      | none => rfl
      | some stamp =>
        have := ho stamp rfl
        rw [Window.mem_iff] at ht
        rw [Option.toList_some, List.map_singleton, Window.cover_cons, Window.cover_nil, if_neg]
        simp only [Window.above, Window.clamp, Window.mem_iff]
        omega
    rw [if_pos ht, ha, ← Window.cover_filter_nonempty] at hn
    obtain ⟨v, hv, htv⟩ := Window.cover_pos_iff.mp (Nat.lt_of_lt_of_eq Nat.one_pos hn.symm)
    refine ⟨v, List.mem_append_left _ ?_, htv⟩
    rw [pending_resolve, judge, if_neg (by omega), if_neg hf]
    exact List.mem_append_left _ hv

end Splitter

namespace Course

/-- No call changes how many spans hold a second. -/
theorem cover_step {k k' : Course} (h : Step k k') (t : Nat) :
    Window.cover t k'.spans = Window.cover t k.spans := by
  cases h with
  | take hn =>
    have hp := (Splitter.next_eq_some hn).1
    simp only [spans, Window.cover_append, Window.cover_cons, hp]
    omega
  | @note w count oldest hw =>
    have hr := Splitter.cover_resolve k.splitter w count oldest t
    have he := Window.cover_erase (t := t) hw
    simp only [spans, Course.note, Window.cover_append, List.flatMap_cons]
    omega

theorem cover_spans {range : Window} {cap floor : Nat} {k : Course}
    (h : Reached range cap floor k) (t : Nat) :
    Window.cover t k.spans = if t ∈ range then 1 else 0 := by
  induction h with
  | start =>
    simp only [spans, Splitter.pending_ofRange, List.flatMap_nil, List.append_nil]
    split
    · rw [Window.cover_cons, Window.cover_nil, Nat.zero_add]
    · rw [Window.cover_nil, if_neg]
      simp only [Window.mem_iff]
      omega
  | step _ hs ih => rw [cover_step hs, ih]

/-- **At every point of every course the spans tile the range.** -/
theorem spans_tile {range : Window} {cap floor : Nat} {k : Course}
    (h : Reached range cap floor k) :
    range.Tiles
      (k.splitter.stack.pending ++ k.hand ++ k.answered.flatMap Answered.settled) :=
  Window.tiles_of_cover (cover_spans h)

/-- A full reply whose oldest stamp lies near the top of a wide window leaves two windows. -/
theorem spans_tile_gap : Window.Tiles ⟨0, 100⟩ [⟨71, 95⟩, ⟨0, 70⟩, ⟨96, 100⟩] := by
  have taken : Reached ⟨0, 100⟩ 10 30 _ := .step .start (.take rfl)
  exact spans_tile (.step taken (.note 10 (some 95) (List.mem_singleton.mpr rfl)))

/-! ## What the replies so far amount to -/

/-- How the splitter of a course and the replies that were noted hang together. -/
structure Consistent (cap floor : Nat) (k : Course) : Prop where
  cap : k.splitter.cap = max 1 cap
  floor : k.splitter.floor = max 1 floor
  judged : ∀ a ∈ k.answered, a.resolution = k.splitter.judge a.window a.count a.oldest
  flagged : ∀ w, w ∈ k.splitter.flagged ↔ ∃ a ∈ k.answered, a.resolution = .incomplete w
  /-- The flagged windows are settled spans, each counted once. -/
  cover : ∀ t, Window.cover t k.splitter.flagged ≤
    Window.cover t (k.answered.flatMap Answered.settled)

theorem consistent_note {cap floor : Nat} {k : Course} (h : Consistent cap floor k) (w : Window)
    (count : Nat) (oldest : Option Nat) : Consistent cap floor (k.note w count oldest) := by
  have hj : (k.note w count oldest).splitter.judge = k.splitter.judge :=
    Splitter.judge_congr (Splitter.cap_resolve ..) (Splitter.floor_resolve ..)
  refine ⟨?_, ?_, ?_, ?_, ?_⟩
  · rw [← h.cap]; exact Splitter.cap_resolve ..
  · rw [← h.floor]; exact Splitter.floor_resolve ..
  · intro a ha
    rw [hj]
    rcases List.mem_cons.mp ha with rfl | ha
    · exact Splitter.fst_resolve ..
    · exact h.judged a ha
  · intro v
    simp only [note, Splitter.flagged_resolve, Splitter.fst_resolve, List.mem_append,
      List.mem_cons, exists_eq_or_imp]
    rw [← h.flagged v]
    cases k.splitter.judge w count oldest <;> simp [Resolution.flagged, or_comm, eq_comm]
  · intro t
    have hc := h.cover t
    simp only [note, Splitter.flagged_resolve, Splitter.fst_resolve, List.flatMap_cons,
      Window.cover_append]
    -- what is flagged is settled as it is
    have hs : Window.cover t (k.splitter.judge w count oldest).flagged ≤
        Window.cover t (Answered.mk w count oldest (k.splitter.judge w count oldest)).settled := by
      cases k.splitter.judge w count oldest <;>
        simp [Resolution.flagged, Answered.settled, Window.cover_nil]
    omega

theorem consistent {range : Window} {cap floor : Nat} {k : Course}
    (h : Reached range cap floor k) : Consistent cap floor k := by
  induction h with
  | start => exact ⟨rfl, rfl, by simp, by simp [Splitter.ofRange], fun _ => Nat.le_refl _⟩
  | step _ hs ih =>
    cases hs with
    | take hn =>
      rw [(Splitter.next_eq_some hn).2]
      exact ⟨ih.cap, ih.floor, ih.judged, ih.flagged, ih.cover⟩
    | note count oldest _ => exact consistent_note ih _ count oldest

/-- No second is flagged twice. -/
theorem flagged_disjoint {range : Window} {cap floor : Nat} {k : Course}
    (h : Reached range cap floor k) : k.splitter.flagged.Pairwise Window.Disjoint := by
  apply Window.pairwise_disjoint_of_cover
  intro t
  have hf := (consistent h).cover t
  have hs := cover_spans h t
  simp only [spans, Window.cover_append] at hs
  split at hs <;> omega

theorem mem_range_of_flagged {range : Window} {cap floor : Nat} {k : Course}
    (h : Reached range cap floor k) {w : Window} (hw : w ∈ k.splitter.flagged) {t : Nat}
    (ht : t ∈ w) : t ∈ range := by
  have hf := (consistent h).cover t
  have hs := cover_spans h t
  have hp : 0 < Window.cover t k.splitter.flagged := Window.cover_pos_iff.mpr ⟨w, hw, ht⟩
  simp only [spans, Window.cover_append] at hs
  split at hs
  · assumption
  · omega

/-! ## How many windows are owed -/

/-- No window that takes the place of another one is empty. -/
theorem nonempty_of_judge {s : Splitter} {w : Window} {count : Nat} {oldest : Option Nat} :
    ∀ v ∈ (s.judge w count oldest).owed, v.since ≤ v.upto := by
  intro v hv
  unfold Splitter.judge at hv
  split at hv
  · cases hv
  · split at hv
    · cases hv
    · rename_i hw
      have hf := s.floor_pos
      simp only [Window.width] at hw
      cases oldest with
      | none =>
        simp only [Resolution.owed, Window.narrow, Window.width, List.mem_cons,
          List.not_mem_nil, or_false] at hv
        rcases hv with rfl | rfl <;> dsimp only <;> omega
      | some stamp =>
        have hclamp : w.since ≤ w.clamp stamp := Nat.le_max_left ..
        rw [Resolution.owed, Window.narrow] at hv
        by_cases hc : w.clamp stamp ≤ w.upto - s.floor
        · rw [if_pos hc] at hv
          obtain rfl := List.mem_singleton.mp hv
          exact hclamp
        · rw [if_neg hc] at hv
          simp only [List.mem_cons, List.not_mem_nil, or_false] at hv
          rcases hv with rfl | rfl <;> dsimp only <;> omega

/-- How many windows a range and the replies so far have made owed. -/
def owed (range : Window) (answered : List Answered) : Nat :=
  (if range.since ≤ range.upto then 1 else 0) +
    (answered.map fun a => a.resolution.owed.length).sum

/-- **Every window that was ever owed is pending, in hand or answered.** -/
theorem counted {range : Window} {cap floor : Nat} {k : Course} (h : Reached range cap floor k) :
    k.splitter.stack.pending.length + k.hand.length + k.answered.length =
      owed range k.answered ∧ k.splitter.resolved = k.answered.length := by
  induction h with
  | start =>
    rw [Splitter.pending_ofRange, owed]
    refine ⟨?_, rfl⟩
    split <;> rfl
  | step _ hs ih =>
    obtain ⟨hcount, hresolved⟩ := ih
    cases hs with
    | take hn =>
      obtain ⟨hpending, hrest⟩ := Splitter.next_eq_some hn
      rw [hpending] at hcount
      rw [hrest]
      simp only [List.length_cons] at hcount ⊢
      exact ⟨by omega, hresolved⟩
    | @note w count oldest hw =>
      have hhand := List.length_erase_of_mem hw
      have hpos := List.length_pos_of_mem hw
      rw [owed] at hcount
      simp only [note, owed, Splitter.pending_resolve, Splitter.resolved_resolve,
        Splitter.fst_resolve, List.filter_eq_self.mpr fun v hv =>
          decide_eq_true (nonempty_of_judge v hv),
        List.length_append, List.length_cons, List.map_cons, List.sum_cons]
      omega

end Course

end Harvest
