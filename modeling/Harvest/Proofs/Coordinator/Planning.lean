import Harvest.Cycle
import Harvest.Proofs.Store.Watermarks

/-! The range of a session joins what its relay has been covered up to: it begins no later than the
watermark, and it ends at the present second of its cycle. Watermarks that are written in the course
of the cycle do not change that. -/

namespace Harvest

/-- The window ends at `now` and leaves no gap to the watermark of the relay. -/
structure Window.Joins (marks : WatermarkStore) (relay : RelayId) (now : Nat) (w : Window) :
    Prop where
  since_le : w.since ≤ now
  upto_eq : w.upto = now
  no_gap : ∀ mark, marks.get? relay = some mark → w.since ≤ mark

theorem Window.Joins.set {marks : WatermarkStore} {relay : RelayId} {now : Nat} {w : Window}
    (h : w.Joins marks relay now) (r : RelayId) : w.Joins (marks.set r now) relay now where
  since_le := h.since_le
  upto_eq := h.upto_eq
  no_gap mark hm := by
    rw [WatermarkStore.get?_set] at hm
    split at hm
    · have := le_raised (marks.get? r) now
      have := Option.some.inj hm
      have := h.since_le
      omega
    · exact h.no_gap mark hm

theorem joins_target (lookback now : Nat) (marks : WatermarkStore) (relay : RelayId) :
    (target lookback now (marks.get? relay)).Joins marks relay now where
  since_le := Nat.min_le_right _ _
  upto_eq := rfl
  no_gap mark hm := by
    rw [hm]
    exact Nat.min_le_left _ _

theorem exists_of_mapM_ok {f : α → Except ε β} {items : List α} {results : List β}
    (h : items.mapM f = .ok results) {b : β} (hb : b ∈ results) : ∃ a ∈ items, f a = .ok b := by
  induction items generalizing results with
  | nil =>
    rw [List.mapM_nil] at h
    obtain rfl := Except.ok.inj h
    cases hb
  | cons a rest ih =>
    rw [List.mapM_cons] at h
    cases ha : f a with
    | error fault => rw [ha] at h; cases h
    | ok first =>
      cases hr : rest.mapM f with
      | error fault => rw [ha, hr] at h; cases h
      | ok others =>
        rw [ha, hr] at h
        obtain rfl := Except.ok.inj h
        rcases List.mem_cons.mp hb with rfl | hb
        · exact ⟨a, List.mem_cons_self .., ha⟩
        · obtain ⟨a', ha', hf⟩ := ih hr hb
          exact ⟨a', List.mem_cons_of_mem _ ha', hf⟩

/-- Each job is one of a listed relay, has its settings and joins what it was covered up to. -/
theorem of_mem_plan {config : Config} {directory : Directory} {watermarks : Watermarks}
    {wall : UInt64} {jobs : List Job} (h : plan config directory watermarks wall = .ok jobs)
    {job : Job} (hj : job ∈ jobs) :
    (∃ relays, directory.listEligible = .ok relays ∧ job.relay ∈ relays) ∧
      job.settings = config.settings job.relay ∧
      job.target.Joins watermarks.store job.relay.id wall.toNat := by
  unfold plan at h
  split at h
  · cases h
  · rename_i relays hlist
    split at h
    · cases h
    · obtain ⟨relay, hmem, hp⟩ := exists_of_mapM_ok h hj
      rw [planRelay, Watermarks.get] at hp
      split at hp
      · cases hp
      · rename_i watermark hw
        obtain rfl := Except.ok.inj hp
        split at hw
        · cases hw
        · obtain rfl := Except.ok.inj hw
          exact ⟨⟨relays, hlist, hmem⟩, rfl, joins_target ..⟩

end Harvest
