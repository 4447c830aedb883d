import Harvest.Proofs.Store.Table
import Harvest.Proofs.Text.Utf8
import Harvest.Watermarks

/-! Both watermark stores keep for each relay the highest value that was set for it, in whatever order
and however often the values came. So they answer alike, though one holds its entries in the order of
the relays and the other in none. -/

namespace Harvest

/-- A watermark after it was set to `stamp`. -/
def raised (held : Option Nat) (stamp : Nat) : Nat := (held.map (max · stamp)).getD stamp

theorem le_raised (held : Option Nat) (stamp : Nat) : stamp ≤ raised held stamp := by
  cases held with
  | none => exact Nat.le_refl _
  | some w => exact Nat.le_max_right _ _

theorem MemoryWatermarks.lookup_raise (relay r : RelayId) (stamp : Nat)
    (marks : List (RelayId × Nat)) :
    (raise r stamp marks).lookup relay =
      if relay = r then some (raised (marks.lookup r) stamp) else marks.lookup relay := by
  induction marks with
  | nil =>
    simp only [raise, List.lookup_cons, List.lookup_nil, raised, Option.map_none, Option.getD_none]
    split <;> simp_all
  | cons entry rest ih =>
    obtain ⟨k, held⟩ := entry
    simp only [raise]
    split
    · subst k
      simp only [List.lookup_cons, beq_self_eq_true]
      split <;> simp_all [raised]
    · rename_i hne
      have hb : (r == k) = false := by simpa using Ne.symm hne
      simp only [List.lookup_cons, ih, hb]
      split <;> simp_all

theorem WatermarkTable.get?_set (t : WatermarkTable) (relay r : RelayId) (stamp : Nat) :
    (t.set r stamp).get? relay =
      if relay = r then some (raised (t.get? r) stamp) else t.get? relay := by
  rw [set, get?, get?, get?]
  split
  · rename_i h
    rw [Table.get?_set, h]
    rfl
  · rename_i held h
    split
    · rw [Table.get?_set, h]
      congr 2
      simp only [raised, Option.map_some, Option.getD_some]
      omega
    · split
      · subst relay
        rw [h]
        simp only [raised, Option.map_some, Option.getD_some]
        congr 1
        omega
      · rfl

/-- To set a watermark raises that of one relay and changes no other. -/
theorem WatermarkStore.get?_set (s : WatermarkStore) (relay r : RelayId) (stamp : Nat) :
    (s.set r stamp).get? relay =
      if relay = r then some (raised (s.get? r) stamp) else s.get? relay := by
  cases s with
  | memory m => exact MemoryWatermarks.lookup_raise relay r stamp m.marks
  | table t => exact t.get?_set relay r stamp

/-! ## Lists of watermarks -/

/-- To raise a watermark adds a key at most. -/
theorem MemoryWatermarks.keys_raise (relay : RelayId) (stamp : Nat) (marks : List (RelayId × Nat)) :
    (raise relay stamp marks).map Prod.fst =
      if relay ∈ marks.map Prod.fst then marks.map Prod.fst else marks.map Prod.fst ++ [relay] := by
  induction marks with
  | nil => rfl
  | cons entry rest ih =>
    obtain ⟨r, held⟩ := entry
    rw [raise]
    by_cases h : r = relay
    · simp [h]
    · rw [if_neg h, List.map_cons, ih]
      by_cases hm : relay ∈ rest.map Prod.fst <;> simp [hm, Ne.symm h]

/-- Where no key comes twice, what stands in the list is what is found in it. -/
theorem MemoryWatermarks.lookup_of_mem {marks : List (RelayId × Nat)}
    (h : (marks.map Prod.fst).Nodup) {relay : RelayId} {stamp : Nat} (hm : (relay, stamp) ∈ marks) :
    marks.lookup relay = some stamp := by
  induction marks with
  | nil => cases hm
  | cons entry rest ih =>
    obtain ⟨hnew, hrest⟩ := List.nodup_cons.mp h
    rcases List.mem_cons.mp hm with rfl | hm
    · exact List.lookup_cons_self
    · have hne : relay ≠ entry.1 := by
        intro he
        exact hnew (List.mem_map.mpr ⟨_, hm, he⟩)
      rw [List.lookup_cons, beq_false_of_ne hne]
      exact ih hrest hm

namespace WatermarkStore

/-- No relay has two entries; a table holds its entries in order. -/
def Orderly : WatermarkStore → Prop
  | memory m => (m.marks.map Prod.fst).Nodup
  | table t => t.marks.Sorted

theorem Orderly.set {s : WatermarkStore} (h : s.Orderly) (relay : RelayId) (stamp : Nat) :
    (s.set relay stamp).Orderly := by
  cases s with
  | memory m =>
    show ((MemoryWatermarks.raise relay stamp m.marks).map Prod.fst).Nodup
    rw [MemoryWatermarks.keys_raise]
    split
    · exact h
    · rename_i hnew
      refine List.nodup_append.mpr ⟨h, List.pairwise_singleton .., ?_⟩
      rintro r hr _ hlast rfl
      exact hnew (List.mem_singleton.mp hlast ▸ hr)
  | table t =>
    have hsorted : t.marks.Sorted := h
    show (t.set relay stamp).marks.Sorted
    rw [WatermarkTable.set]
    split
    · exact hsorted.set relay stamp
    · split
      · exact hsorted.set relay stamp
      · exact hsorted

/-- The list goes by the order of the relays. -/
theorem Orderly.pairwise_list {s : WatermarkStore} (h : s.Orderly) :
    s.list.Pairwise fun a b => compare a.1 b.1 = .lt := by
  cases s with
  | memory m =>
    let le (a b : RelayId × Nat) : Bool := (compare a.1 b.1).isLE
    have htotal : ∀ a b, (le a b || le b a) = true := by
      intro a b
      cases hab : compare a.1 b.1 with
      | lt => simp [le, hab]
      | eq => simp [le, hab]
      | gt => simp [le, Std.OrientedCmp.lt_of_gt hab]
    have hle : (m.marks.mergeSort le).Pairwise fun a b => le a b = true :=
      List.pairwise_mergeSort (fun _ _ _ => Std.TransCmp.isLE_trans) htotal m.marks
    have hkeys : ((m.marks.mergeSort le).map Prod.fst).Nodup :=
      ((List.mergeSort_perm m.marks le).map Prod.fst).nodup_iff.mpr h
    refine hle.imp₂ ?_ (List.pairwise_map.mp hkeys)
    intro a b hab hne
    rcases Ordering.isLE_iff_eq_lt_or_eq_eq.mp hab with hlt | heq
    · exact hlt
    · exact absurd (Std.LawfulEqOrd.eq_of_compare heq) hne
  | table t => exact h

theorem Orderly.mem_list {s : WatermarkStore} (h : s.Orderly) (relay : RelayId) (stamp : Nat) :
    (relay, stamp) ∈ s.list ↔ s.get? relay = some stamp := by
  cases s with
  | memory m =>
    refine List.mem_mergeSort.trans ⟨MemoryWatermarks.lookup_of_mem h, fun hget => ?_⟩
    obtain ⟨front, back, hmarks, -⟩ := List.lookup_eq_some_iff.mp hget
    rw [hmarks]
    exact List.mem_append_right _ (List.mem_cons_self ..)
  | table t => exact Table.Sorted.mem_entries h

/-- Two stores that answer alike list the same. -/
theorem Orderly.list_eq {s t : WatermarkStore} (hs : s.Orderly) (ht : t.Orderly)
    (h : ∀ relay, s.get? relay = t.get? relay) : s.list = t.list := by
  have hnodup {u : WatermarkStore} (hu : u.Orderly) : u.list.Nodup := by
    refine hu.pairwise_list.imp ?_
    rintro a b hab rfl
    rw [Std.ReflOrd.compare_self] at hab
    cases hab
  have hperm : s.list.Perm t.list := by
    rw [List.perm_ext_iff_of_nodup (hnodup hs) (hnodup ht)]
    intro (relay, stamp)
    rw [hs.mem_list, ht.mem_list, h]
  refine hperm.eq_of_pairwise ?_ hs.pairwise_list ht.pairwise_list
  intro a b _ _ hab hba
  exact absurd hba (Std.OrientedCmp.not_lt_of_lt hab)

/-! ## After any sets -/

def setAll (s : WatermarkStore) (sets : List (RelayId × Nat)) : WatermarkStore :=
  sets.foldl (fun s (relay, stamp) => s.set relay stamp) s

/-- What a relay is set to, one set after the other. -/
def stamps (relay : RelayId) (sets : List (RelayId × Nat)) : List Nat :=
  sets.filterMap fun (r, stamp) => if r = relay then some stamp else none

theorem Orderly.setAll {s : WatermarkStore} (h : s.Orderly) (sets : List (RelayId × Nat)) :
    (s.setAll sets).Orderly := by
  induction sets generalizing s with
  | nil => exact h
  | cons entry rest ih => exact ih (h.set entry.1 entry.2)

theorem get?_setAll (s : WatermarkStore) (relay : RelayId) (sets : List (RelayId × Nat)) :
    (s.setAll sets).get? relay =
      (stamps relay sets).foldl (fun held stamp => some (raised held stamp)) (s.get? relay) := by
  induction sets generalizing s with
  | nil => rfl
  | cons entry rest ih =>
    obtain ⟨r, stamp⟩ := entry
    show ((s.set r stamp).setAll rest).get? relay = _
    rw [ih, get?_set]
    by_cases h : r = relay
    · subst h
      simp [stamps]
    · simp [stamps, h, Ne.symm h]

theorem foldl_raised (held : Nat) (stamps : List Nat) :
    stamps.foldl (fun held stamp => some (raised held stamp)) (some held) =
      some (stamps.foldl max held) := by
  induction stamps generalizing held with
  | nil => rfl
  | cons stamp rest ih => exact ih (max held stamp)

theorem max?_eq_foldl_raised (stamps : List Nat) :
    stamps.foldl (fun held stamp => some (raised held stamp)) none = stamps.max? := by
  cases stamps with
  | nil => rfl
  | cons stamp rest =>
    rw [List.max?_cons']
    exact foldl_raised stamp rest

/-- **The highest value that was set**, or none if there is none. -/
theorem get?_setAll_empty {s : WatermarkStore} (h : ∀ relay, s.get? relay = none) (relay : RelayId)
    (sets : List (RelayId × Nat)) : (s.setAll sets).get? relay = (stamps relay sets).max? := by
  rw [get?_setAll, h, max?_eq_foldl_raised]

theorem mem_stamps {relay : RelayId} {stamp : Nat} {sets : List (RelayId × Nat)} :
    stamp ∈ stamps relay sets ↔ (relay, stamp) ∈ sets := by
  simp [stamps, Option.ite_none_right_eq_some]

/-- Neither order nor repeats matter to the highest value. -/
theorem max?_stamps_congr {sets sets' : List (RelayId × Nat)}
    (h : ∀ entry, entry ∈ sets' ↔ entry ∈ sets) (relay : RelayId) :
    (stamps relay sets').max? = (stamps relay sets).max? := by
  ext stamp
  simp only [List.max?_eq_some_iff, mem_stamps, h]

/-! ## Calls and their answers -/

inductive Call
  | set (relay : RelayId) (stamp : Nat)
  | get (relay : RelayId)
  | list

inductive Answer
  | done
  | mark (stamp : Option Nat)
  | marks (entries : List (RelayId × Nat))

def call (s : WatermarkStore) : Call → WatermarkStore × Answer
  | .set relay stamp => (s.set relay stamp, .done)
  | .get relay => (s, .mark (s.get? relay))
  | .list => (s, .marks s.list)

/-- The answers to calls, one after the other. -/
def answers (s : WatermarkStore) : List Call → List Answer
  | [] => []
  | c :: rest => (s.call c).2 :: (s.call c).1.answers rest

/-- Two stores that find the same go on to answer alike. -/
theorem answers_eq {s t : WatermarkStore} (hs : s.Orderly) (ht : t.Orderly)
    (h : ∀ relay, s.get? relay = t.get? relay) (calls : List Call) :
    s.answers calls = t.answers calls := by
  induction calls generalizing s t with
  | nil => rfl
  | cons c rest ih =>
    cases c with
    | set relay stamp =>
      have hset : ∀ r, (s.set relay stamp).get? r = (t.set relay stamp).get? r := by
        intro r
        rw [get?_set, get?_set, h, h]
      exact congrArg _ (ih (hs.set relay stamp) (ht.set relay stamp) hset)
    | get relay =>
      show .mark (s.get? relay) :: s.answers rest = .mark (t.get? relay) :: t.answers rest
      rw [h, ih hs ht h]
    | list =>
      show .marks s.list :: s.answers rest = .marks t.list :: t.answers rest
      rw [hs.list_eq ht h, ih hs ht h]

/-- What a store comes to after some sets: each relay has the highest value that it was set to, and
the list has all of them, in the order of the bytes of the relays. Sets in another order, or some of
them repeated, come to the same. -/
structure KeepsMaxima (s : WatermarkStore) (sets : List (RelayId × Nat)) : Prop where
  highest : ∀ relay, (s.setAll sets).get? relay = (stamps relay sets).max?
  ordered : (s.setAll sets).list.Pairwise fun a b => Text.bytes a.1 < Text.bytes b.1
  listed : ∀ relay stamp,
    (relay, stamp) ∈ (s.setAll sets).list ↔ (stamps relay sets).max? = some stamp
  settled : ∀ sets', (∀ entry, entry ∈ sets' ↔ entry ∈ sets) →
    (∀ relay, (s.setAll sets').get? relay = (s.setAll sets).get? relay) ∧
      (s.setAll sets').list = (s.setAll sets).list

theorem Orderly.keepsMaxima {s : WatermarkStore} (h : s.Orderly)
    (hempty : ∀ relay, s.get? relay = none) (sets : List (RelayId × Nat)) :
    s.KeepsMaxima sets where
  highest relay := get?_setAll_empty hempty relay sets
  ordered := (h.setAll sets).pairwise_list.imp fun hlt => Text.bytes_lt (Text.lt_of_compare hlt)
  listed relay stamp := by rw [(h.setAll sets).mem_list, get?_setAll_empty hempty]
  settled sets' hsame := by
    have hget : ∀ relay, (s.setAll sets').get? relay = (s.setAll sets).get? relay := by
      intro relay
      rw [get?_setAll_empty hempty, get?_setAll_empty hempty, max?_stamps_congr hsame]
    exact ⟨hget, (h.setAll sets').list_eq (h.setAll sets) hget⟩

/-- **Both stores keep the maxima, and answer alike.** After any sets a relay has the highest value
that it was set to, however often and in whatever order the sets came; and whatever is set and asked
for, each store answers as the other does. -/
theorem stores_agree (sets : List (RelayId × Nat)) (calls : List Call) :
    (memory {}).KeepsMaxima sets ∧ (table {}).KeepsMaxima sets ∧
      (memory {}).answers calls = (table {}).answers calls := by
  have hmemory : (memory {}).Orderly := List.Pairwise.nil
  have htable : (table {}).Orderly := Table.sorted_empty
  exact ⟨hmemory.keepsMaxima (fun _ => rfl) sets, htable.keepsMaxima (fun _ => rfl) sets,
    answers_eq hmemory htable (fun _ => rfl) calls⟩

example : ((table {}).setAll [("b:1", 5), ("a:1", 3), ("b:1", 2)]).list =
    [("a:1", 3), ("b:1", 5)] := by decide

end WatermarkStore

end Harvest
