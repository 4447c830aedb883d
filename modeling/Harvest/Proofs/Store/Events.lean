import Harvest.Proofs.Record.Reading
import Harvest.Proofs.Sink.Holds
import Mathlib.Algebra.Ring.Nat
import Mathlib.Data.Finset.Card

/-! What the store of events holds after any batches. All that the batches tell, one after the
other, decides it: of each id the first copy is kept, and of each id the relays that it came
from. -/

namespace Harvest

/-- What a batch tells: each of its events, with its relay and its stamp. -/
def Batch.told (b : Batch) : List StoredEvent :=
  b.events.map fun e => { event := e, firstRelay := b.relay, observedAt := b.observedAt }

/-- The ids among what was told. -/
def distinctIds (told : List StoredEvent) : Finset String := (told.map fun e => e.event.id).toFinset

/-- A depot that is handed batches one after the other, and its answer to each. -/
def insertAll {σ α : Type} (insert : σ → Batch → σ × α) (s : σ) : List Batch → σ × List α
  | [] => (s, [])
  | b :: rest =>
    let (s, answer) := insert s b
    let (s, answers) := insertAll insert s rest
    (s, answer :: answers)

section Lists

variable {σ α : Type} {insert : σ → Batch → σ × α}

theorem insertAll_append (s : σ) (before after : List Batch) :
    insertAll insert s (before ++ after) =
      ((insertAll insert (insertAll insert s before).1 after).1,
        (insertAll insert s before).2 ++
          (insertAll insert (insertAll insert s before).1 after).2) := by
  induction before generalizing s with
  | nil => rfl
  | cons b rest ih => simp only [List.cons_append, insertAll, ih]

theorem length_insertAll (s : σ) (batches : List Batch) :
    (insertAll insert s batches).2.length = batches.length := by
  induction batches generalizing s with
  | nil => rfl
  | cons b rest ih => simp only [insertAll, List.length_cons, ih]

theorem mem_distinctIds {told : List StoredEvent} {id : String} :
    id ∈ distinctIds told ↔ ∃ e ∈ told, e.event.id = id := by
  simp [distinctIds]

theorem exists_told {batches : List Batch} {id : String} {relay : RelayId} :
    (∃ e ∈ batches.flatMap Batch.told, e.event.id = id ∧ e.firstRelay = relay) ↔
      ∃ b ∈ batches, b.relay = relay ∧ ∃ e ∈ b.events, e.id = id := by
  constructor
  · rintro ⟨e, he, hid, hrelay⟩
    obtain ⟨b, hb, he⟩ := List.mem_flatMap.mp he
    obtain ⟨event, hevent, rfl⟩ := List.mem_map.mp he
    exact ⟨b, hb, hrelay, event, hevent, hid⟩
  · rintro ⟨b, hb, hrelay, event, hevent, hid⟩
    exact ⟨_, List.mem_flatMap.mpr ⟨b, hb, List.mem_map_of_mem hevent⟩, hid, hrelay⟩

/-- Where a property, once it fails, fails for all that follows, what comes before is all of it. -/
theorem takeWhile_eq_filter {p : α → Bool} {list : List α}
    (h : list.Pairwise fun a b => p b = true → p a = true) : list.takeWhile p = list.filter p := by
  induction list with
  | nil => rfl
  | cons a rest ih =>
    obtain ⟨hhead, hrest⟩ := List.pairwise_cons.mp h
    by_cases ha : p a = true
    · rw [List.takeWhile_cons_of_pos ha, List.filter_cons_of_pos ha, ih hrest]
    · have hnone : rest.filter p = [] := by
        refine List.filter_eq_nil_iff.mpr fun b hb hp => ?_
        exact ha (hhead b hb hp)
      rw [List.takeWhile_cons_of_neg ha, List.filter_cons_of_neg ha, hnone]

end Lists

namespace EventStore

/-! ## The scan for the relays of an event -/

theorem compare_pair (id other : String) (relay second : RelayId) :
    compare (id, relay) (other, second) = (compare id other).then (compare relay second) := rfl

theorem compare_same (id : String) (relay second : RelayId) :
    compare (id, relay) (id, second) = compare relay second := by
  rw [compare_pair, Std.ReflOrd.compare_self, Ordering.eq_then]

/-- No text comes before the empty one, so all relays of an id are from it on. -/
theorem compare_empty_ne_lt (text : String) : compare text "" ≠ .lt := by
  intro h
  have hlt : text.toList < [] := Text.lt_of_compare h
  exact List.not_lt_nil _ hlt

/-- What stands between the first place of an id and an entry of the id is of the id. -/
theorem eq_of_between {key : String × RelayId} {id : String} {relay : RelayId}
    (hlow : compare key (id, "") ≠ .lt) (hlt : compare key (id, relay) = .lt) : key.1 = id := by
  obtain ⟨other, second⟩ := key
  rw [compare_pair] at hlow hlt
  cases h : compare other id with
  | lt => simp [h] at hlow
  | eq => exact Std.LawfulEqOrd.eq_of_compare h
  | gt => simp [h] at hlt

/-- The scan stops at the first other id, and no entry of the id comes after it. -/
theorem sources_eq {s : EventStore} (h : s.sightings.Sorted) (id : String) :
    s.sources id = (s.sightings.keys.filter fun key => key.1 = id).map Prod.snd := by
  have hfrom := h.entriesFrom (id, "")
  have hpast : (s.sightings.entriesFrom (id, "")).Pairwise fun a b =>
      decide (b.1.1 = id) = true → decide (a.1.1 = id) = true := by
    rw [hfrom]
    refine (h.filter _).imp_of_mem ?_
    intro a b ha hb hab hid
    have hlow : compare a.1 (id, "") ≠ .lt := by simpa using (List.mem_filter.mp ha).2
    obtain ⟨⟨other, relay⟩, observed⟩ := b
    obtain rfl : other = id := of_decide_eq_true hid
    exact decide_eq_true (eq_of_between hlow hab)
  have hall : ∀ entry : (String × RelayId) × UInt64,
      (decide (entry.1.1 = id) && compare entry.1 (id, "") != .lt) = decide (entry.1.1 = id) := by
    rintro ⟨⟨other, relay⟩, observed⟩
    by_cases hid : other = id
    · subst hid
      simp [compare_same, compare_empty_ne_lt]
    · simp [hid]
  have hscan : s.sources id =
      ((s.sightings.entriesFrom (id, "")).takeWhile fun entry => entry.1.1 = id).map
        fun entry => entry.1.2 := rfl
  rw [hscan, takeWhile_eq_filter hpast, hfrom, List.filter_filter, Table.keys, List.filter_map,
    List.map_map]
  simp only [hall]
  rfl

theorem mem_sources {s : EventStore} (h : s.sightings.Sorted) {id : String} {relay : RelayId} :
    relay ∈ s.sources id ↔ (s.sightings.get? (id, relay)).isSome = true := by
  rw [sources_eq h, ← Table.mem_keys]
  simp

theorem pairwise_sources {s : EventStore} (h : s.sightings.Sorted) (id : String) :
    (s.sources id).Pairwise fun a b => Text.bytes a < Text.bytes b := by
  rw [sources_eq h, List.pairwise_map]
  refine (h.keys.filter _).imp_of_mem ?_
  rintro ⟨a, relay⟩ ⟨b, second⟩ ha hb hab
  obtain rfl : a = id := by simpa using (List.mem_filter.mp ha).2
  obtain rfl : b = a := by simpa using (List.mem_filter.mp hb).2
  rw [compare_same] at hab
  exact Text.bytes_lt (Text.lt_of_compare hab)

/-! ## One event -/

section Insert

variable (s : EventStore) (e : StoredEvent)

theorem record_insertEvent (id : String) :
    (s.insertEvent e.firstRelay e.observedAt e.event).1.records.get? id =
      (s.records.get? id).or
        (if e.event.id = id then some (Record.putStoredEvent e) else none) := by
  simp only [insertEvent]
  split
  · rename_i h
    exact Table.get?_set_of_none (Option.isNone_iff_eq_none.mp h) ..
  · rename_i h
    exact Table.get?_of_isSome (by simpa [Option.isSome_iff_ne_none] using h) ..

theorem sighting_insertEvent (key : String × RelayId) :
    (s.insertEvent e.firstRelay e.observedAt e.event).1.sightings.get? key =
      (s.sightings.get? key).or
        (if (e.event.id, e.firstRelay) = key then some e.observedAt else none) := by
  simp only [insertEvent]
  split
  · rename_i h
    exact Table.get?_set_of_none h ..
  · rename_i h
    exact Table.get?_of_isSome (Option.isSome_iff_exists.mpr ⟨_, h⟩) ..

theorem count_insertEvent :
    (s.insertEvent e.firstRelay e.observedAt e.event).1.count =
      s.count + (s.insertEvent e.firstRelay e.observedAt e.event).2.toNat := by
  cases h : s.records.get? e.event.id with
  | none => simpa [insertEvent, count, h] using Table.size_set_of_none _ h
  | some bytes => simp [insertEvent, count, h]

end Insert

/-- A store as what was told decides it. -/
structure Keeps (s : EventStore) (told : List StoredEvent) : Prop where
  recordsSorted : s.records.Sorted
  sightingsSorted : s.sightings.Sorted
  record : ∀ id, s.records.get? id =
    (told.find? fun e => e.event.id = id).map Record.putStoredEvent
  sighting : ∀ id relay, (s.sightings.get? (id, relay)).isSome = true ↔
    ∃ e ∈ told, e.event.id = id ∧ e.firstRelay = relay

variable {s : EventStore} {told : List StoredEvent}

theorem keeps_nil : ({} : EventStore).Keeps [] where
  recordsSorted := Table.sorted_empty
  sightingsSorted := Table.sorted_empty
  record _ := rfl
  sighting _ _ := by simp [Table.get?, Table.getIn]

theorem Keeps.isSome_record (h : s.Keeps told) (id : String) :
    (s.records.get? id).isSome = true ↔ id ∈ distinctIds told := by
  rw [h.record, Option.isSome_map, List.find?_isSome, mem_distinctIds]
  simp

theorem Keeps.insertEvent (h : s.Keeps told) (e : StoredEvent) :
    (s.insertEvent e.firstRelay e.observedAt e.event).1.Keeps (told ++ [e]) where
  recordsSorted := by
    simp only [EventStore.insertEvent]
    split
    · exact h.recordsSorted.set ..
    · exact h.recordsSorted
  sightingsSorted := by
    simp only [EventStore.insertEvent]
    split
    · exact h.sightingsSorted.set ..
    · exact h.sightingsSorted
  record id := by
    rw [record_insertEvent, h.record, List.find?_append, Option.map_or, List.find?_singleton]
    by_cases hid : e.event.id = id
    · simp [hid]
    · simp [hid]
  sighting id relay := by
    rw [sighting_insertEvent, Option.isSome_or, Bool.or_eq_true, h.sighting]
    simp only [List.mem_append, List.mem_singleton, or_and_right, exists_or, exists_eq_left]
    by_cases hkey : e.event.id = id ∧ e.firstRelay = relay
    · simp [hkey]
    · simp [hkey]

/-- What was told before changes nothing. -/
theorem Keeps.insertEvent_known (h : s.Keeps told) {e : StoredEvent}
    (hknown : ∃ f ∈ told, f.event.id = e.event.id ∧ f.firstRelay = e.firstRelay) :
    s.insertEvent e.firstRelay e.observedAt e.event = (s, false) := by
  obtain ⟨value, hvalue⟩ := Option.isSome_iff_exists.mp ((h.sighting ..).mpr hknown)
  obtain ⟨f, hf, hid, -⟩ := hknown
  have hrecord := (h.isSome_record e.event.id).mpr (mem_distinctIds.mpr ⟨f, hf, hid⟩)
  have hnew : (s.records.get? e.event.id).isNone = false := by
    rw [← Option.not_isSome, hrecord, Bool.not_true]
  simp [EventStore.insertEvent, hnew, hvalue]

/-! ## One batch -/

section Batch

variable (relay : RelayId) (observedAt : UInt64)

theorem foldl_insertEvent (events : List Event) (s : EventStore) (n : Nat) :
    events.foldl (fun (s, count) e =>
        let (s, isNew) := s.insertEvent relay observedAt e
        (s, if isNew then count + 1 else count)) (s, n) =
      ((s.insert ⟨relay, observedAt, events⟩).1, n + (s.insert ⟨relay, observedAt, events⟩).2) := by
  induction events generalizing s n with
  | nil => rfl
  | cons e rest ih =>
    simp only [insert, List.foldl_cons]
    rw [ih, ih]
    cases (s.insertEvent relay observedAt e).2 with
    | false => simp [insert]
    | true => simp [insert, Nat.add_assoc]

/-- A batch is taken in event by event. -/
theorem insert_cons (s : EventStore) (e : Event) (rest : List Event) :
    s.insert ⟨relay, observedAt, e :: rest⟩ =
      let next := s.insertEvent relay observedAt e
      ((next.1.insert ⟨relay, observedAt, rest⟩).1,
        next.2.toNat + (next.1.insert ⟨relay, observedAt, rest⟩).2) := by
  rw [insert, List.foldl_cons]
  dsimp only
  rw [foldl_insertEvent]
  cases (s.insertEvent relay observedAt e).2 with
  | false => rfl
  | true => rfl

end Batch

theorem Keeps.insert (h : s.Keeps told) (b : Batch) : (s.insert b).1.Keeps (told ++ b.told) := by
  obtain ⟨relay, observedAt, events⟩ := b
  induction events generalizing s told with
  | nil => simpa [Batch.told] using! h
  | cons e rest ih =>
    have hnext := ih (h.insertEvent ⟨e, relay, observedAt⟩)
    rw [List.append_assoc] at hnext
    rw [insert_cons]
    exact hnext

/-- The answer is how many events there are now that were not there before. -/
theorem count_insert (s : EventStore) (b : Batch) :
    (s.insert b).1.count = s.count + (s.insert b).2 := by
  obtain ⟨relay, observedAt, events⟩ := b
  induction events generalizing s with
  | nil => rfl
  | cons e rest ih =>
    have he := s.count_insertEvent ⟨e, relay, observedAt⟩
    rw [insert_cons]
    dsimp only at he ⊢
    rw [ih, he, Nat.add_assoc]

theorem Keeps.insert_known (h : s.Keeps told) {b : Batch} (hb : ∀ e ∈ b.told, e ∈ told) :
    s.insert b = (s, 0) := by
  obtain ⟨relay, observedAt, events⟩ := b
  induction events with
  | nil => rfl
  | cons e rest ih =>
    obtain ⟨he, hrest⟩ := List.forall_mem_cons.mp hb
    have hknown := h.insertEvent_known ⟨_, he, rfl, rfl⟩
    rw [insert_cons]
    dsimp only at hknown ⊢
    rw [hknown, ih hrest]
    rfl

/-! ## All batches -/

theorem Keeps.insertAll (h : s.Keeps told) (batches : List Batch) :
    (Harvest.insertAll EventStore.insert s batches).1.Keeps
      (told ++ batches.flatMap Batch.told) := by
  induction batches generalizing s told with
  | nil => simpa [Harvest.insertAll] using h
  | cons b rest ih =>
    have hrest := ih (h.insert b)
    rw [List.append_assoc, ← List.flatMap_cons] at hrest
    exact hrest

theorem count_insertAll (s : EventStore) (batches : List Batch) :
    (insertAll insert s batches).1.count = s.count + (insertAll insert s batches).2.sum := by
  induction batches generalizing s with
  | nil => rfl
  | cons b rest ih =>
    simp only [insertAll, List.sum_cons]
    rw [ih, count_insert, Nat.add_assoc]

theorem Keeps.count_eq (h : s.Keeps told) : s.count = (distinctIds told).card := by
  have hids : s.records.keys.toFinset = distinctIds told := by
    ext id
    rw [List.mem_toFinset, Table.mem_keys, h.isSome_record]
  rw [← hids, List.toFinset_card_of_nodup h.recordsSorted.nodup, Table.keys, List.length_map]
  rfl

theorem Keeps.load (h : s.Keeps told)
    (hfits : ∀ e ∈ told, (Record.putStoredEvent e).length < UInt64.size) (id : String) :
    s.load id = .ok (told.find? fun e => e.event.id = id) := by
  rw [EventStore.load, h.record]
  cases hfind : told.find? fun e => e.event.id = id with
  | none => rfl
  | some e =>
    have hread := Record.read_putStoredEvent (hfits e (List.mem_of_find?_eq_some hfind))
    simp only [Option.map_some, hread]

theorem Keeps.mem_sources (h : s.Keeps told) {id : String} {relay : RelayId} :
    relay ∈ s.sources id ↔ ∃ e ∈ told, e.event.id = id ∧ e.firstRelay = relay := by
  rw [EventStore.mem_sources h.sightingsSorted, h.sighting]

/-- Two stores that were told the same, in whatever order, have the same keys. -/
theorem Keeps.keys_eq {t : EventStore} {other : List StoredEvent} (h : s.Keeps told)
    (ht : t.Keeps other) (hperm : other.Perm told) :
    t.records.keys = s.records.keys ∧ t.sightings.keys = s.sightings.keys := by
  constructor
  · refine ht.recordsSorted.keys_eq h.recordsSorted fun id => ?_
    rw [Table.mem_keys, Table.mem_keys, ht.isSome_record, h.isSome_record, mem_distinctIds,
      mem_distinctIds]
    simp only [hperm.mem_iff]
  · refine ht.sightingsSorted.keys_eq h.sightingsSorted fun key => ?_
    rw [Table.mem_keys, Table.mem_keys, ht.sighting, h.sighting]
    simp only [hperm.mem_iff]

/-! ## The sink in memory beside the store -/

/-- A sink that takes batches, and holds the ids that the store holds. -/
structure Agrees (s : EventStore) (m : MemorySink) : Prop where
  willing : m.failAlways = false
  failuresLeft : m.failuresLeft = 0
  nodup : m.ids.Nodup
  mem : ∀ id, id ∈ m.ids ↔ (s.records.get? id).isSome = true

theorem agrees_empty : ({} : EventStore).Agrees {} where
  willing := rfl
  failuresLeft := rfl
  nodup := List.Pairwise.nil
  mem id := by simp [Table.get?, Table.getIn]

theorem nodup_addIds {held : List String} (h : held.Nodup) (events : List Event) :
    (MemorySink.addIds held events).1.Nodup := by
  refine List.foldlRecOn (motive := fun p : List String × Nat => p.1.Nodup) events _ h ?_
  intro p hp e _
  dsimp only
  split
  · exact hp
  · rename_i hnew
    exact List.nodup_cons.mpr ⟨fun hmem => hnew (List.contains_iff_mem.mpr hmem), hp⟩

theorem length_addIds (held : List String) (events : List Event) :
    (MemorySink.addIds held events).1.length =
      held.length + (MemorySink.addIds held events).2 := by
  refine List.foldlRecOn
    (motive := fun p : List String × Nat => p.1.length = held.length + p.2) events _ rfl ?_
  intro p hp e _
  dsimp only
  split
  · exact hp
  · rw [List.length_cons, hp, Nat.add_assoc]

theorem Agrees.perm {m : MemorySink} (hm : s.Agrees m) (h : s.Keeps told) :
    m.ids.Perm s.records.keys := by
  refine (List.perm_ext_iff_of_nodup hm.nodup h.recordsSorted.nodup).mpr fun id => ?_
  rw [hm.mem, Table.mem_keys]

/-- Both hold the same before and after a batch, so they answer the same. -/
theorem Agrees.insert {m : MemorySink} (hm : s.Agrees m) (h : s.Keeps told) (b : Batch) :
    (m.insert b).2 = .ok (s.insert b).2 ∧ (s.insert b).1.Agrees (m.insert b).1 := by
  have hinsert : m.insert b =
      ({ m with calls := m.calls + 1, ids := (MemorySink.addIds m.ids b.events).1,
                delivered := m.delivered + b.size },
        .ok (MemorySink.addIds m.ids b.events).2) := by
    simp only [MemorySink.insert, hm.willing, Bool.false_eq_true, if_false]
    rw [hm.failuresLeft]
  have hnext : (s.insert b).1.Agrees (m.insert b).1 := by
    rw [hinsert]
    refine ⟨hm.willing, hm.failuresLeft, nodup_addIds hm.nodup _, fun id => ?_⟩
    rw [MemorySink.mem_addIds, isSome_insert, hm.mem]
  refine ⟨?_, hnext⟩
  have hbefore := (hm.perm h).length_eq
  have hafter := (hnext.perm (h.insert b)).length_eq
  have hids := length_addIds m.ids b.events
  have hcount := s.count_insert b
  have hsize (t : EventStore) : t.records.keys.length = t.count := List.length_map ..
  rw [hsize] at hbefore hafter
  rw [hinsert] at hafter ⊢
  dsimp only at hafter
  rw [show (MemorySink.addIds m.ids b.events).2 = (s.insert b).2 by omega]

theorem Agrees.insertAll {m : MemorySink} (hm : s.Agrees m) (h : s.Keeps told)
    (batches : List Batch) :
    (Harvest.insertAll MemorySink.insert m batches).2 =
        (Harvest.insertAll EventStore.insert s batches).2.map .ok ∧
      (Harvest.insertAll EventStore.insert s batches).1.Agrees
        (Harvest.insertAll MemorySink.insert m batches).1 := by
  induction batches generalizing s m told with
  | nil => exact ⟨rfl, hm⟩
  | cons b rest ih =>
    obtain ⟨hanswer, hnext⟩ := hm.insert h b
    obtain ⟨hanswers, hlast⟩ := ih hnext (h.insert b)
    simp only [Harvest.insertAll, List.map_cons, hanswer, hanswers]
    exact ⟨trivial, hlast⟩

/-! ## The store as a fold -/

/-- What a store and its answers have come to by batches. -/
structure Folds (batches : List Batch) (s : EventStore) (counts : List Nat) : Prop where
  /-- The relays of an id are those that some batch brought it from. -/
  sources : ∀ id relay, relay ∈ s.sources id ↔
    ∃ b ∈ batches, b.relay = relay ∧ ∃ e ∈ b.events, e.id = id
  /-- They are listed in the order of their bytes, none twice. -/
  ordered : ∀ id, (s.sources id).Pairwise fun a b => Text.bytes a < Text.bytes b
  /-- Every id counts once. -/
  count : s.count = (distinctIds (batches.flatMap Batch.told)).card
  /-- The answer to a batch is how many ids it added to those before it. -/
  answers : ∀ before b after, batches = before ++ b :: after → counts[before.length]? =
    some (distinctIds b.told \ distinctIds (before.flatMap Batch.told)).card
  length : counts.length = batches.length
  sum : counts.sum = s.count
  /-- To insert a batch again changes nothing. -/
  again : ∀ b ∈ batches, s.insert b = (s, 0)
  /-- The ids, and the ids with their relays, do not depend on the order of the batches. -/
  order : ∀ other : List Batch, other.Perm batches →
    (insertAll insert {} other).1.records.keys = s.records.keys ∧
      (insertAll insert {} other).1.sightings.keys = s.sightings.keys
  /-- A sink in memory answers the same and holds the same ids. -/
  memory : (insertAll MemorySink.insert {} batches).2 = counts.map .ok ∧
    (insertAll MemorySink.insert {} batches).1.ids.Perm s.records.keys

theorem answer_eq (before : List Batch) (b : Batch) (after : List Batch) :
    (insertAll insert {} (before ++ b :: after)).2[before.length]? =
      some (distinctIds b.told \ distinctIds (before.flatMap Batch.told)).card := by
  have hbefore := keeps_nil.insertAll before
  generalize hs : (insertAll insert {} before).1 = s at hbefore
  rw [List.nil_append] at hbefore
  have hcount := s.count_insert b
  have hunion : distinctIds (before.flatMap Batch.told ++ b.told) =
      distinctIds (before.flatMap Batch.told) ∪ distinctIds b.told := by simp [distinctIds]
  rw [hbefore.count_eq, (hbefore.insert b).count_eq, hunion] at hcount
  have hcard := Finset.card_sdiff_add_card (distinctIds b.told)
    (distinctIds (before.flatMap Batch.told))
  rw [Finset.union_comm] at hcard
  rw [insertAll_append, List.getElem?_append_right (by rw [length_insertAll]), length_insertAll,
    Nat.sub_self, hs]
  simp only [insertAll, List.getElem?_cons_zero]
  congr 1
  omega

/-- **The store is a fold over the batches.** Where the lengths of its records are numbers of 64
bits, it gives of each id the first copy. -/
theorem insertAll_folds (batches : List Batch) :
    Folds batches (insertAll insert {} batches).1 (insertAll insert {} batches).2 ∧
    ((∀ b ∈ batches, ∀ e ∈ b.told, (Record.putStoredEvent e).length < UInt64.size) →
      ∀ id, (insertAll insert {} batches).1.load id =
        .ok ((batches.flatMap Batch.told).find? fun e => e.event.id = id)) := by
  have h := keeps_nil.insertAll batches
  rw [List.nil_append] at h
  refine ⟨?_, fun hfits id => h.load (fun e he => ?_) id⟩
  · obtain ⟨hanswers, hm⟩ := agrees_empty.insertAll keeps_nil batches
    refine ⟨fun id relay => ?_, pairwise_sources h.sightingsSorted, h.count_eq, ?_,
      length_insertAll .., ?_, fun b hb => ?_, fun other hperm => ?_, hanswers, hm.perm h⟩
    · rw [h.mem_sources, exists_told]
    · rintro before b after rfl
      exact answer_eq before b after
    · have hcount := count_insertAll {} batches
      rw [hcount]
      exact (Nat.zero_add _).symm
    · exact h.insert_known fun e he => List.mem_flatMap.mpr ⟨b, hb, he⟩
    · have hother := keeps_nil.insertAll other
      rw [List.nil_append] at hother
      exact h.keys_eq hother (hperm.flatMap_right _)
  · obtain ⟨b, hb, he⟩ := List.mem_flatMap.mp he
    exact hfits b hb e he

/-- An event of which only the id and the content matter. -/
def note (id content : String) : Event :=
  { id, pubkey := "k", createdAt := 1, kind := 1, tags := [["t"]], content, sig := "" }

/-- Two relays, an id twice in one batch, and ids that begin with other ids. -/
theorem insertAll_folds_prefixes :
    let first : Batch := ⟨"r2", 5, [note "a" "x", note "ab" "y", note "a" "z"]⟩
    let second : Batch := ⟨"r1", 9, [note "ab" "y", note "a" "w", note "abc" "v"]⟩
    let store := (insertAll insert {} [first, second]).1
    store.load "a" = .ok (some ⟨note "a" "x", "r2", 5⟩) ∧ store.load "b" = .ok none ∧
      store.sources "a" = ["r1", "r2"] ∧ store.count = 3 ∧
      (insertAll insert {} [first, second]).2[1]? = some 1 ∧ store.insert first = (store, 0) := by
  intro first second store
  obtain ⟨hfolds, hload⟩ := insertAll_folds [first, second]
  have hfits : ∀ b ∈ [first, second], ∀ e ∈ b.told,
      (Record.putStoredEvent e).length < UInt64.size := by
    decide +kernel
  refine ⟨hload hfits "a", hload hfits "b", ?_, ?_, ?_, hfolds.again first (by simp)⟩
  · show store.sources "a" = ["r1", "r2"]
    decide +kernel
  · exact hfolds.count.trans (by decide +kernel)
  · exact (hfolds.answers [first] second [] rfl).trans (by decide +kernel)

end EventStore

end Harvest
