import Harvest.Proofs.Window.Course

/-! No window is taken off a splitter twice. What takes the place of a window are parts of it, each
narrower than the window, and they lie apart from all that is owed besides. -/

namespace Harvest

namespace Window

/-- Outside of a window, or a part of it that is narrower. -/
def Beyond (u v : Window) : Prop := u.Disjoint v ∨ (∀ t ∈ u, t ∈ v) ∧ u.width < v.width

theorem not_beyond_self {w : Window} (hw : w.since ≤ w.upto) : ¬ w.Beyond w := by
  rintro (h | ⟨-, h⟩)
  · exact h w.since ⟨Nat.le_refl _, hw⟩ ⟨Nat.le_refl _, hw⟩
  · exact Nat.lt_irrefl _ h

/-- The parts of a window are beyond all that it is beyond. -/
theorem Beyond.part {u v w : Window} (h : w.Beyond v) (hu : ∀ t ∈ u, t ∈ w)
    (hw : u.width < w.width) : u.Beyond v := by
  rcases h with h | ⟨hin, hlt⟩
  · exact .inl fun t ht => h t (hu t ht)
  · exact .inr ⟨fun t ht => hin t (hu t ht), Nat.lt_trans hw hlt⟩

/-- What takes the place of a window are narrower parts of it, apart from each other. -/
theorem of_narrow {floor : Nat} {w : Window} (hf : 1 ≤ floor) (hw : floor ≤ w.width)
    (oldest : Option Nat) :
    (w.narrow floor oldest).Pairwise Disjoint ∧
      ∀ u ∈ w.narrow floor oldest, (∀ t ∈ u, t ∈ w) ∧ u.width < w.width := by
  have hcover (t : Nat) := cover_narrow hf hw oldest t
  refine ⟨pairwise_disjoint_of_cover fun t => ?_, fun u hu => ⟨fun t ht => ?_, ?_⟩⟩
  · have := hcover t
    split at this <;> omega
  · have hpos := cover_pos_iff.mpr ⟨u, hu, ht⟩
    have := hcover t
    split at this
    · assumption
    · omega
  · -- a part is worth no more than all of them, which are worth less than the window
    have hpot : u.potential ≤ potentials (w.narrow floor oldest) := by
      generalize w.narrow floor oldest = owed at hu
      induction owed with
      | nil => cases hu
      | cons v rest ih =>
        rw [potentials]
        rcases List.mem_cons.mp hu with rfl | hu
        · omega
        · have := ih hu
          omega
    have hlt := potential_narrow_lt hf hw oldest
    simp only [potential] at hpot hlt
    omega

end Window

/-- Windows that are owed: they lie apart from each other and beyond all that were taken. -/
structure Fresh (owed : List Window) (taken : Window → Prop) : Prop where
  apart : owed.Pairwise Window.Disjoint
  nonempty : ∀ u ∈ owed, u.since ≤ u.upto
  beyond : ∀ u ∈ owed, ∀ v, taken v → u.Beyond v

namespace Fresh

variable {owed : List Window} {taken : Window → Prop}

theorem imp (h : Fresh owed taken) {taken' : Window → Prop} (ht : ∀ v, taken' v → taken v) :
    Fresh owed taken' := ⟨h.apart, h.nonempty, fun u hu v hv => h.beyond u hu v (ht v hv)⟩

/-- **What is owed was not taken before.** -/
theorem not_taken (h : Fresh owed taken) {w : Window} (hw : w ∈ owed) : ¬ taken w := fun ht =>
  Window.not_beyond_self (h.nonempty w hw) (h.beyond w hw w ht)

/-- After a reply to a window, what is owed is beyond that window too. -/
theorem resolve {s : Splitter} {w : Window} (h : Fresh (w :: s.stack.pending) taken) (count : Nat)
    (oldest : Option Nat) :
    Fresh (s.resolve w count oldest).2.stack.pending fun v => taken v ∨ v = w := by
  obtain ⟨happart, hrest⟩ := List.pairwise_cons.mp h.apart
  have hkept : Fresh s.stack.pending fun v => taken v ∨ v = w := by
    refine ⟨hrest, fun u hu => h.nonempty u (List.mem_cons_of_mem _ hu), ?_⟩
    rintro u hu v (hv | rfl)
    · exact h.beyond u (List.mem_cons_of_mem _ hu) v hv
    · exact .inl fun t ht htv => happart u hu t htv ht
  rw [Splitter.pending_resolve]
  unfold Splitter.judge
  split
  · exact hkept
  · split
    · exact hkept
    · rename_i hfloor
      obtain ⟨hparts, hpart⟩ := Window.of_narrow s.floor_pos (Nat.le_of_not_lt hfloor) oldest
      have hmem {u : Window} (hu : u ∈ (w.narrow s.floor oldest).filter fun v => v.since ≤ v.upto) :
          u.since ≤ u.upto ∧ (∀ t ∈ u, t ∈ w) ∧ u.width < w.width := by
        obtain ⟨hu, hn⟩ := List.mem_filter.mp hu
        exact ⟨of_decide_eq_true hn, hpart u hu⟩
      refine ⟨?_, ?_, ?_⟩
      · refine List.pairwise_append.mpr ⟨hparts.filter _, hrest, fun u hu v hv t ht => ?_⟩
        exact happart v hv t ((hmem hu).2.1 t ht)
      · intro u hu
        rcases List.mem_append.mp hu with hu | hu
        · exact (hmem hu).1
        · exact hkept.nonempty u hu
      · intro u hu v hv
        rcases List.mem_append.mp hu with hu | hu
        · obtain ⟨-, hin, hlt⟩ := hmem hu
          rcases hv with hv | rfl
          · exact (h.beyond w (List.mem_cons_self ..) v hv).part hin hlt
          · exact .inr ⟨hin, hlt⟩
        · exact hkept.beyond u hu v hv

end Fresh

end Harvest
