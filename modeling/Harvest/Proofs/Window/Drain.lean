import Harvest.Proofs.Window.Course
import Harvest.Window.Drain

/-! Draining a relay that answers newest first. A reply that was not cut holds all items of its
window, and a cut one all items above its oldest stamp, so whatever a reply settles was returned.
What is left when the loop ends are the flagged windows: each was asked for, lies under the floor
and is full. -/

namespace Harvest

/-! ## Newest first -/

namespace Holdings

/-- The stamps in a window, the newest first. -/
def matching (h : Holdings) (w : Window) : List Nat :=
  (h.stamps.filter w.contains).mergeSort (· ≥ ·)

theorem reply_eq (h : Holdings) (w : Window) : h.reply w = (h.matching w).take h.cap := rfl

theorem pairwise_matching (h : Holdings) (w : Window) : (h.matching w).Pairwise (· ≥ ·) := by
  have hs : (h.matching w).Pairwise fun a b => decide (a ≥ b) :=
    List.pairwise_mergeSort (by simp only [decide_eq_true_eq]; omega)
      (by simp only [Bool.or_eq_true, decide_eq_true_eq]; omega) _
  exact hs.imp fun hab => of_decide_eq_true hab

theorem length_matching (h : Holdings) (w : Window) :
    (h.matching w).length = (h.stamps.filter w.contains).length :=
  (List.mergeSort_perm _ _).length_eq

theorem mem_window_of_mem_matching {h : Holdings} {w : Window} {t : Nat}
    (ht : t ∈ h.matching w) : t ∈ w := by
  have hf := (List.mergeSort_perm _ _).mem_iff.mp ht
  exact Window.contains_iff.mp (List.mem_filter.mp hf).2

theorem count_matching {h : Holdings} {w : Window} {t : Nat} (ht : t ∈ w) :
    (h.matching w).count t = h.stamps.count t := by
  rw [matching, (List.mergeSort_perm _ _).count_eq]
  exact List.count_filter (Window.contains_iff.mpr ht)

/-- The reply to a window brings every item of the second `t`. -/
def Returns (h : Holdings) (w : Window) (t : Nat) : Prop := (h.reply w).count t = h.stamps.count t

/-- A reply that was not cut leaves nothing out. -/
theorem returns_of_short {h : Holdings} {w : Window} {t : Nat}
    (hs : (h.reply w).length < h.cap) (ht : t ∈ w) : h.Returns w t := by
  rw [reply_eq, List.length_take] at hs
  rw [Returns, reply_eq, List.take_of_length_le (by omega), count_matching ht]

/-- A cut reply leaves nothing out above its oldest stamp. -/
theorem returns_of_above {h : Holdings} {w : Window} {t oldest : Nat}
    (ho : (h.reply w).getLast? = some oldest) (ht : t ∈ w) (hot : oldest < t) :
    h.Returns w t := by
  have hm : oldest ∈ (h.matching w).take h.cap := List.mem_of_getLast? ho
  have hp := h.pairwise_matching w
  rw [← List.take_append_drop h.cap (h.matching w)] at hp
  -- what was cut off is not above the oldest stamp
  have hd : ((h.matching w).drop h.cap).count t = 0 := by
    rw [List.count_eq_zero]
    intro hmem
    have := (List.pairwise_append.mp hp).2.2 oldest hm t hmem
    omega
  have hsplit : ((h.matching w).take h.cap ++ (h.matching w).drop h.cap).count t =
      (h.reply w).count t + 0 := by rw [List.count_append, hd, reply_eq]
  rw [List.take_append_drop, count_matching ht] at hsplit
  exact hsplit.symm

theorem oldest_mem_window {h : Holdings} {w : Window} {oldest : Nat}
    (ho : (h.reply w).getLast? = some oldest) : oldest ∈ w :=
  mem_window_of_mem_matching (List.mem_of_mem_take (List.mem_of_getLast? ho))

/-- Whatever a reply of the relay settles it has returned, unless it is flagged. -/
theorem returns_of_settled {h : Holdings} {s : Splitter} (hr : s.cap ≤ h.cap) {a : Answered}
    (hj : a.resolution = s.judge a.window a.count a.oldest)
    (hc : a.count = (h.tally a.window).count) (ho : a.oldest = (h.tally a.window).oldest)
    {span : Window} (hs : span ∈ a.settled) {t : Nat} (ht : t ∈ span) :
    h.Returns a.window t ∨ a.resolution = .incomplete span := by
  obtain ⟨w, count, oldest, resolution⟩ := a
  dsimp only [tally] at hj hc ho ⊢
  cases resolution with
  | covered =>
    obtain rfl := List.mem_singleton.mp hs
    have hlt := Splitter.lt_cap_of_judge hj.symm
    exact .inl (returns_of_short (by omega) ht)
  | incomplete v =>
    obtain rfl := List.mem_singleton.mp hs
    exact .inr rfl
  | narrowed owed =>
    simp only [Answered.settled, List.mem_map, Option.mem_toList] at hs
    obtain ⟨stamp, hstamp, rfl⟩ := hs
    rw [ho] at hstamp
    have hw := oldest_mem_window hstamp
    simp only [Window.above, Window.clamp_of_mem hw, Window.mem_iff] at ht hw
    exact .inl (returns_of_above hstamp (Window.mem_iff.mpr (by omega)) (by omega))

end Holdings

/-- A window of one second that is not void of items holds those of this second. -/
theorem Holdings.length_filter_of_width_lt_one {h : Holdings} {w : Window} (hw : w.width < 1)
    (hp : 0 < (h.stamps.filter w.contains).length) :
    ∃ t ∈ w, (h.stamps.filter w.contains).length = h.stamps.count t := by
  obtain ⟨t, ht⟩ := List.exists_mem_of_length_pos hp
  have htw := Window.contains_iff.mp (List.mem_filter.mp ht).2
  refine ⟨t, htw, ?_⟩
  rw [← List.countP_eq_length_filter, List.count]
  apply List.countP_congr
  intro u _
  rw [Window.contains_iff, beq_iff_eq]
  simp only [Window.width, Window.mem_iff] at hw htw ⊢
  omega

/-! ## The loop is a course -/

/-- A loop that starts where nothing is in hand takes the course on, with the replies of `answer`
alone. -/
theorem Course.reached_drain {range : Window} {cap floor : Nat} (answer : Window → Tally)
    (limit : Nat) {k : Course} (h : Reached range cap floor k) (hh : k.hand = []) :
    ∃ k', Reached range cap floor k' ∧ k'.hand = [] ∧
      k'.splitter = (k.splitter.drain answer limit).2 ∧
      ∀ a ∈ k'.answered, a ∈ k.answered ∨
        a.count = (answer a.window).count ∧ a.oldest = (answer a.window).oldest ∧
          ∃ q ∈ (k.splitter.drain answer limit).1, q.window = a.window := by
  induction limit generalizing k with
  | zero => exact ⟨k, h, hh, rfl, fun a ha => .inl ha⟩
  | succ limit ih =>
    cases hn : k.splitter.next with
    | none =>
      simp only [Splitter.drain, hn]
      exact ⟨k, h, hh, rfl, fun a ha => .inl ha⟩
    | some found =>
      obtain ⟨w, rest⟩ := found
      have ht := h.step (.take hn)
      have hr := ht.step (.note (answer w).count (answer w).oldest (List.mem_cons_self ..))
      obtain ⟨k', hk', hh', hs', ha'⟩ := ih hr (by simp [note, hh])
      refine ⟨k', hk', hh', ?_, ?_⟩
      · rw [hs']
        simp only [Splitter.drain, hn, note]
      · intro a ha
        simp only [Splitter.drain, hn]
        rcases ha' a ha with ha | ⟨hc, ho, q, hq, hw⟩
        · rcases List.mem_cons.mp ha with rfl | ha
          · exact .inr ⟨rfl, rfl, _, List.mem_cons_self .., rfl⟩
          · exact .inl ha
        · exact .inr ⟨hc, ho, q, List.mem_cons_of_mem _ hq, hw⟩

theorem Splitter.potential_ofRange (range : Window) (cap floor : Nat) :
    (ofRange range cap floor).potential ≤ 2 * range.width + 1 := by
  rw [potential, WindowStack.potential, pending_ofRange]
  split <;> simp [Window.potentials, Window.potential]

namespace Holdings

/-- **Draining loses nothing without a flag, and flags nothing without a reason.** The loop ends
after at most `2 * range.width + 1` queries. -/
theorem drain_complete (h : Holdings) (range : Window) (cap floor limit : Nat) (hc : 1 ≤ cap)
    (hf : 1 ≤ floor) (hr : cap ≤ h.cap) (hl : 2 * range.width + 1 ≤ limit) :
    let (queries, last) := (Splitter.ofRange range cap floor).drain h.tally limit
    last.isDrained = true ∧
    (∀ w ∈ last.flagged, (∃ q ∈ queries, q.window = w) ∧ w.width < floor ∧
      cap ≤ (h.stamps.filter w.contains).length) ∧
    last.flagged.Pairwise Window.Disjoint ∧
    (∀ t ∈ range, (∃ q ∈ queries, h.Returns q.window t) ∨ ∃ w ∈ last.flagged, t ∈ w) ∧
    (floor = 1 → (∀ t ∈ range, h.stamps.count t < cap) →
      last.flagged = [] ∧ ∀ t ∈ range, ∃ q ∈ queries, h.Returns q.window t) := by
  have hstart : Course.Reached range cap floor _ := .start
  obtain ⟨k, hk, hh, hs, ha⟩ := Course.reached_drain h.tally limit hstart rfl
  have hcons := Course.consistent hk
  have hdrained := Splitter.isDrained_drain h.tally limit (.ofRange range cap floor)
    (Nat.le_trans (Splitter.potential_ofRange range cap floor) hl)
  dsimp only at hs ha
  generalize (Splitter.ofRange range cap floor).drain h.tally limit = ended at hs ha hdrained ⊢
  obtain ⟨queries, last⟩ := ended
  obtain rfl : k.splitter = last := hs
  -- a course that started with nothing in hand has only replies of the relay
  have hasked : ∀ a ∈ k.answered, a.count = (h.tally a.window).count ∧
      a.oldest = (h.tally a.window).oldest ∧ ∃ q ∈ queries, q.window = a.window :=
    fun a hm => (ha a hm).resolve_left (List.not_mem_nil)
  have hcap : k.splitter.cap = cap := by rw [hcons.cap]; omega
  have hfloor : k.splitter.floor = floor := by rw [hcons.floor]; omega
  have hflagged : ∀ w ∈ k.splitter.flagged, (∃ q ∈ queries, q.window = w) ∧ w.width < floor ∧
      cap ≤ (h.stamps.filter w.contains).length := by
    intro w hw
    obtain ⟨a, hm, hres⟩ := (hcons.flagged w).mp hw
    obtain ⟨hcount, -, hq⟩ := hasked a hm
    have hj := hcons.judged a hm
    rw [hres] at hj
    obtain ⟨rfl, hfull, hnarrow⟩ := Splitter.full_of_judge hj.symm
    refine ⟨hq, by omega, ?_⟩
    have hlen : (h.tally a.window).count = min h.cap (h.stamps.filter a.window.contains).length := by
      rw [tally, reply_eq, ← length_matching]
      exact List.length_take
    omega
  have hreturned : ∀ t ∈ range,
      (∃ q ∈ queries, h.Returns q.window t) ∨ ∃ w ∈ k.splitter.flagged, t ∈ w := by
    intro t ht
    -- nothing is owed or in hand, so it was a reply that settled the span of the second
    have hpending : k.splitter.stack.pending = [] := List.isEmpty_iff.mp hdrained
    obtain ⟨span, hspan, hts⟩ := Window.cover_pos_iff.mp
      (by rw [Course.cover_spans hk t, if_pos ht]; exact Nat.one_pos)
    rw [Course.spans, hpending, hh] at hspan
    obtain ⟨a, hm, hset⟩ := List.mem_flatMap.mp hspan
    obtain ⟨hcount, hold, q, hq, hw⟩ := hasked a hm
    rcases returns_of_settled (by omega) (hcons.judged a hm) hcount hold hset hts with hret | hinc
    · exact .inl ⟨q, hq, hw ▸ hret⟩
    · exact .inr ⟨span, (hcons.flagged span).mpr ⟨a, hm, hinc⟩, hts⟩
  refine ⟨hdrained, hflagged, Course.flagged_disjoint hk, hreturned, ?_⟩
  intro hone hsparse
  have hnone : k.splitter.flagged = [] := by
    rw [List.eq_nil_iff_forall_not_mem]
    intro w hw
    obtain ⟨-, hwidth, hfull⟩ := hflagged w hw
    obtain ⟨t, ht, hcount⟩ := length_filter_of_width_lt_one (h := h) (w := w) (by omega) (by omega)
    have := hsparse t (Course.mem_range_of_flagged hk hw ht)
    omega
  refine ⟨hnone, fun t ht => (hreturned t ht).resolve_right ?_⟩
  rw [hnone]
  rintro ⟨w, hw, -⟩
  exact List.not_mem_nil hw

/-- Where every item has a second of its own, nothing is flagged. -/
theorem drain_complete_distinct :
    let h : Holdings := { stamps := [3, 7, 8, 9, 4], cap := 2 }
    let (queries, last) := (Splitter.ofRange ⟨0, 10⟩ 2 1).drain h.tally 21
    last.isDrained = true ∧ last.flagged = [] ∧
      ∀ t ∈ (⟨0, 10⟩ : Window), ∃ q ∈ queries, h.Returns q.window t := by
  obtain ⟨hdrained, -, -, -, hunit⟩ := drain_complete { stamps := [3, 7, 8, 9, 4], cap := 2 }
    ⟨0, 10⟩ 2 1 21 (by decide) (by decide) (by decide) (by decide)
  have hsparse : ∀ t, [3, 7, 8, 9, 4].count t ≤ 1 := List.nodup_iff_count.mp (by decide)
  exact ⟨hdrained, hunit rfl fun t _ => Nat.lt_succ_of_le (hsparse t)⟩

end Holdings

end Harvest
