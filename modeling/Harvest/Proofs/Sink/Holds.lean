import Harvest.Proofs.Store.Table
import Harvest.Sink

/-! A depot that has taken a batch holds all its events, and it never forgets one. -/

namespace Harvest

/-- Where each step keeps what holds and brings in the part of its element, the fold brings in the
parts of all. -/
theorem foldl_iff {α σ : Type} {f : σ → α → σ} {P : σ → Prop} {Q : α → Prop}
    (hf : ∀ s a, P (f s a) ↔ P s ∨ Q a) (list : List α) (s : σ) :
    P (list.foldl f s) ↔ P s ∨ ∃ a ∈ list, Q a := by
  induction list generalizing s with
  | nil => simp
  | cons a rest ih =>
    rw [List.foldl_cons, ih, hf]
    simp only [List.mem_cons, exists_eq_or_imp, or_assoc]

theorem MemorySink.mem_addIds (id : String) (held : List String) (events : List Event) :
    id ∈ (addIds held events).1 ↔ id ∈ held ∨ ∃ e ∈ events, e.id = id := by
  refine foldl_iff (P := fun s => id ∈ s.1) (Q := fun e => e.id = id) ?_ events (held, 0)
  intro s e
  dsimp only
  split
  · rename_i hc
    have hm : e.id ∈ s.1 := List.contains_iff_mem.mp hc
    constructor
    · exact .inl
    · rintro (h | rfl)
      · exact h
      · exact hm
  · rw [List.mem_cons, or_comm, eq_comm]

/-- What is held already is not new. -/
theorem MemorySink.addIds_known {held : List String} {events : List Event}
    (h : ∀ e ∈ events, e.id ∈ held) : addIds held events = (held, 0) := by
  unfold addIds
  induction events with
  | nil => rfl
  | cons e rest ih =>
    have he : held.contains e.id = true := List.contains_iff_mem.mpr (h e (List.mem_cons_self ..))
    rw [List.foldl_cons]
    dsimp only
    rw [if_pos he]
    exact ih fun f hf => h f (List.mem_cons_of_mem _ hf)

namespace EventStore

theorem isSome_insertEvent (s : EventStore) (relay : RelayId) (observedAt : UInt64) (e : Event)
    (id : String) :
    ((s.insertEvent relay observedAt e).1.records.get? id).isSome =
      ((s.records.get? id).isSome || decide (e.id = id)) := by
  simp only [insertEvent]
  split
  · rw [Table.get?_set]
    by_cases h : id = e.id
    · simp [h]
    · simp [h, Ne.symm h]
  · rename_i h
    by_cases he : e.id = id
    · subst id
      simpa [Option.isSome_iff_ne_none] using h
    · simp [he]

theorem isSome_insert (s : EventStore) (b : Batch) (id : String) :
    ((s.insert b).1.records.get? id).isSome = true ↔
      (s.records.get? id).isSome = true ∨ ∃ e ∈ b.events, e.id = id := by
  refine foldl_iff (P := fun p => (p.1.records.get? id).isSome = true)
    (Q := fun e => e.id = id) ?_ b.events (s, 0)
  intro p e
  dsimp only
  rw [isSome_insertEvent, Bool.or_eq_true, decide_eq_true_eq]

theorem insertEvent_known {s : EventStore} {e : Event} (h : (s.records.get? e.id).isSome = true)
    (relay : RelayId) (observedAt : UInt64) :
    (s.insertEvent relay observedAt e).2 = false ∧
      (s.insertEvent relay observedAt e).1.records = s.records := by
  have hnew : (s.records.get? e.id).isNone = false := by
    rw [← Bool.not_eq_true, Option.isNone_iff_eq_none]
    exact Option.isSome_iff_ne_none.mp h
  simp only [insertEvent, hnew]
  exact ⟨trivial, rfl⟩

/-- What is held already is not new. -/
theorem insert_known {s : EventStore} {b : Batch}
    (h : ∀ e ∈ b.events, (s.records.get? e.id).isSome = true) : (s.insert b).2 = 0 := by
  unfold insert
  generalize b.events = events at h ⊢
  induction events generalizing s with
  | nil => rfl
  | cons e rest ih =>
    obtain ⟨hnew, hrecords⟩ := insertEvent_known (h e (List.mem_cons_self ..)) b.relay b.observedAt
    rw [List.foldl_cons]
    dsimp only
    rw [hnew]
    refine ih fun f hf => ?_
    rw [hrecords]
    exact h f (List.mem_cons_of_mem _ hf)

end EventStore

namespace Depot

theorem holds_insert_of_holds {d : Depot} {id : String} (h : d.holds id = true) (b : Batch) :
    (d.insert b).1.holds id = true := by
  cases d with
  | memory m =>
    simp only [holds, List.contains_iff_mem] at h
    simp only [insert, holds, List.contains_iff_mem, MemorySink.insert]
    split
    · exact h
    · split
      · exact h
      · exact (MemorySink.mem_addIds ..).mpr (.inl h)
  | store s => exact (EventStore.isSome_insert s b id).mpr (.inl h)

/-- What was taken is held. -/
theorem holds_insert_of_mem {d : Depot} {b : Batch} {count : Nat}
    (h : (d.insert b).2 = .ok count) {e : Event} (he : e ∈ b.events) :
    (d.insert b).1.holds e.id = true := by
  cases d with
  | memory m =>
    simp only [insert, MemorySink.insert] at h
    simp only [insert, holds, List.contains_iff_mem, MemorySink.insert]
    split at h
    · cases h
    · rw [if_neg (by assumption)]
      split at h
      · cases h
      · exact (MemorySink.mem_addIds ..).mpr (.inr ⟨e, he, rfl⟩)
  | store s => exact (EventStore.isSome_insert s b e.id).mpr (.inr ⟨e, he, rfl⟩)

/-- A batch that was taken brings in its events and nothing else. -/
theorem holds_insert_iff {d : Depot} {b : Batch} {count : Nat} (h : (d.insert b).2 = .ok count)
    (id : String) :
    (d.insert b).1.holds id = true ↔ d.holds id = true ∨ ∃ e ∈ b.events, e.id = id := by
  cases d with
  | memory m =>
    simp only [insert, MemorySink.insert] at h
    simp only [insert, holds, List.contains_iff_mem, MemorySink.insert]
    split at h
    · cases h
    · rw [if_neg (by assumption)]
      split at h
      · cases h
      · exact MemorySink.mem_addIds ..
  | store s => exact EventStore.isSome_insert s b id

/-- A batch that was refused brings in nothing. -/
theorem holds_insert_of_error {d : Depot} {b : Batch} {fault : SinkFault}
    (h : (d.insert b).2 = .error fault) : (d.insert b).1.holds = d.holds := by
  funext id
  cases d with
  | memory m =>
    simp only [insert, MemorySink.insert] at h
    simp only [insert, holds, MemorySink.insert]
    split at h
    · rw [if_pos (by assumption)]
    · rw [if_neg (by assumption)]
      split at h
      · rfl
      · cases h
  | store s => cases h

/-- A batch of events that are all held has nothing new. -/
theorem insert_known {d : Depot} {b : Batch} {count : Nat} (h : (d.insert b).2 = .ok count)
    (hk : ∀ e ∈ b.events, d.holds e.id = true) : count = 0 := by
  cases d with
  | memory m =>
    have hids := MemorySink.addIds_known fun e he => List.contains_iff_mem.mp (hk e he)
    simp only [insert, MemorySink.insert] at h
    split at h
    · cases h
    · split at h
      · cases h
      · rw [hids] at h
        exact (Except.ok.inj h).symm
  | store s => exact (Except.ok.inj h).symm.trans (EventStore.insert_known hk)

end Depot

end Harvest
