import Harvest.Store.Table

/-! A table is a function from keys to values: to set a key changes what is found under it and
nothing else. No order of the entries is needed for that. With their order, what stands in a table
is what is found in it, and two tables with the same keys list them alike. -/

namespace Harvest

/-- Where each item is read, all are. -/
theorem mapM_eq_ok {f : α → Except ε β} {g : α → β} {items : List α}
    (h : ∀ a ∈ items, f a = .ok (g a)) : items.mapM f = .ok (items.map g) := by
  induction items with
  | nil => rfl
  | cons a rest ih =>
    rw [List.mapM_cons, h a (List.mem_cons_self ..),
      ih fun a' ha' => h a' (List.mem_cons_of_mem _ ha')]
    rfl

namespace Table

variable {κ α : Type} [Ord κ]

def keys (t : Table κ α) : List κ := t.entries.map Prod.fst

/-- Where something is found under a key, nothing is to be added. -/
theorem get?_of_isSome [DecidableEq κ] {t : Table κ α} {k : κ} (h : (t.get? k).isSome = true)
    (value : α) (key : κ) :
    t.get? key = (t.get? key).or (if k = key then some value else none) := by
  by_cases hk : k = key
  · subst hk
    rw [Option.or_of_isSome h]
  · simp [hk]

section Lookup

variable [Std.LawfulEqOrd κ]

theorem getIn_cons_self (key : κ) (value : α) (rest : List (κ × α)) :
    getIn key ((key, value) :: rest) = some value := by
  rw [getIn, Std.ReflOrd.compare_self]

theorem getIn_cons_of_ne {key k : κ} (h : key ≠ k) (value : α) (rest : List (κ × α)) :
    getIn key ((k, value) :: rest) = getIn key rest := by
  rw [getIn]
  split
  · rename_i he
    exact absurd (Std.LawfulEqOrd.eq_of_compare he) h
  · rfl

theorem getIn_setIn_self (key : κ) (value : α) (entries : List (κ × α)) :
    getIn key (setIn key value entries) = some value := by
  induction entries with
  | nil => exact getIn_cons_self ..
  | cons entry rest ih =>
    obtain ⟨k, v⟩ := entry
    rw [setIn]
    split
    · exact getIn_cons_self ..
    · exact getIn_cons_self ..
    · rename_i hgt
      rw [getIn_cons_of_ne, ih]
      rintro rfl
      rw [Std.ReflOrd.compare_self] at hgt
      cases hgt

theorem getIn_setIn_of_ne {key k : κ} (h : key ≠ k) (value : α) (entries : List (κ × α)) :
    getIn key (setIn k value entries) = getIn key entries := by
  induction entries with
  | nil => exact getIn_cons_of_ne h ..
  | cons entry rest ih =>
    obtain ⟨l, v⟩ := entry
    rw [setIn]
    split
    · exact getIn_cons_of_ne h ..
    · rename_i he
      obtain rfl := Std.LawfulEqOrd.eq_of_compare he
      rw [getIn_cons_of_ne h, getIn_cons_of_ne h]
    · rw [getIn, getIn, ih]

theorem get?_set [DecidableEq κ] (t : Table κ α) (key k : κ) (value : α) :
    (t.set k value).get? key = if key = k then some value else t.get? key := by
  rw [get?, set]
  split
  · rename_i h
    rw [h, getIn_setIn_self]
  · rename_i h
    rw [getIn_setIn_of_ne h, get?]

/-- Where nothing is found under a key, to set it adds what is found under that key. -/
theorem get?_set_of_none [DecidableEq κ] {t : Table κ α} {k : κ} (h : t.get? k = none) (value : α)
    (key : κ) :
    (t.set k value).get? key = (t.get? key).or (if k = key then some value else none) := by
  rw [get?_set]
  by_cases hk : key = k
  · subst hk
    simp [h]
  · simp [hk, Ne.symm hk]

theorem length_setIn_of_none {key : κ} (value : α) {entries : List (κ × α)}
    (h : getIn key entries = none) : (setIn key value entries).length = entries.length + 1 := by
  induction entries with
  | nil => rfl
  | cons entry rest ih =>
    obtain ⟨k, v⟩ := entry
    rw [setIn]
    split
    · rfl
    · rename_i he
      obtain rfl := Std.LawfulEqOrd.eq_of_compare he
      rw [getIn_cons_self] at h
      cases h
    · rename_i hgt
      have hne : key ≠ k := by
        rintro rfl
        rw [Std.ReflOrd.compare_self] at hgt
        cases hgt
      rw [getIn_cons_of_ne hne] at h
      rw [List.length_cons, ih h, List.length_cons]

theorem size_set_of_none {t : Table κ α} {key : κ} (value : α) (h : t.get? key = none) :
    (t.set key value).size = t.size + 1 := length_setIn_of_none value h

theorem mem_keysIn (key : κ) (entries : List (κ × α)) :
    key ∈ entries.map Prod.fst ↔ (getIn key entries).isSome = true := by
  induction entries with
  | nil => simp [getIn]
  | cons entry rest ih =>
    obtain ⟨k, v⟩ := entry
    rw [List.map_cons, List.mem_cons, ih]
    by_cases h : key = k
    · subst h
      simp [getIn_cons_self]
    · simp [getIn_cons_of_ne h, h]

theorem mem_keys (t : Table κ α) (key : κ) : key ∈ t.keys ↔ (t.get? key).isSome = true :=
  mem_keysIn key t.entries

end Lookup

/-! ## Order -/

section Order

/-- The entries stand in the order of their keys, no key twice. -/
def Sorted (t : Table κ α) : Prop := t.entries.Pairwise fun a b => compare a.1 b.1 = .lt

theorem sorted_empty : ({} : Table κ α).Sorted := List.Pairwise.nil

theorem mem_setIn {key : κ} {value : α} {entry : κ × α} {entries : List (κ × α)}
    (h : entry ∈ setIn key value entries) : entry = (key, value) ∨ entry ∈ entries := by
  induction entries with
  | nil => exact .inl (List.mem_singleton.mp h)
  | cons head rest ih =>
    obtain ⟨k, v⟩ := head
    rw [setIn] at h
    split at h
    · exact List.mem_cons.mp h
    · exact (List.mem_cons.mp h).imp_right (List.mem_cons_of_mem _)
    · rcases List.mem_cons.mp h with h | h
      · exact .inr (h ▸ List.mem_cons_self ..)
      · exact (ih h).imp_right (List.mem_cons_of_mem _)

theorem Sorted.keys {t : Table κ α} (h : t.Sorted) :
    t.keys.Pairwise fun a b => compare a b = .lt := List.pairwise_map.mpr h

/-- What stands in a table is what is found in it. -/
theorem Sorted.get?_of_mem [Std.LawfulEqOrd κ] {t : Table κ α} (h : t.Sorted) {key : κ} {value : α}
    (hm : (key, value) ∈ t.entries) : t.get? key = some value := by
  obtain ⟨entries⟩ := t
  show getIn key entries = some value
  have hm : (key, value) ∈ entries := hm
  induction entries with
  | nil => cases hm
  | cons entry rest ih =>
    obtain ⟨hhead, hrest⟩ := List.pairwise_cons.mp h
    rcases List.mem_cons.mp hm with rfl | hlater
    · exact getIn_cons_self ..
    · obtain ⟨k, v⟩ := entry
      have hne : key ≠ k := by
        rintro rfl
        have hlt := hhead _ hlater
        rw [Std.ReflOrd.compare_self] at hlt
        cases hlt
      rw [getIn_cons_of_ne hne]
      exact ih hrest hlater hlater

theorem Sorted.mem_entries [Std.LawfulEqOrd κ] {t : Table κ α} (h : t.Sorted) {key : κ}
    {value : α} : (key, value) ∈ t.entries ↔ t.get? key = some value := by
  refine ⟨h.get?_of_mem, fun hget => ?_⟩
  have hkey : key ∈ t.keys := by
    rw [mem_keys, hget]
    rfl
  obtain ⟨⟨k, v⟩, hm, rfl⟩ := List.mem_map.mp hkey
  obtain rfl : v = value := Option.some.inj ((h.get?_of_mem hm).symm.trans hget)
  exact hm

variable [Std.TransOrd κ]

theorem Sorted.set {t : Table κ α} (h : t.Sorted) (key : κ) (value : α) :
    (t.set key value).Sorted := by
  obtain ⟨entries⟩ := t
  show (setIn key value entries).Pairwise _
  induction entries with
  | nil => exact List.pairwise_singleton ..
  | cons entry rest ih =>
    obtain ⟨k, v⟩ := entry
    obtain ⟨hhead, hrest⟩ := List.pairwise_cons.mp h
    rw [setIn]
    split
    · rename_i hlt
      refine List.pairwise_cons.mpr ⟨?_, h⟩
      intro later hlater
      rcases List.mem_cons.mp hlater with rfl | hlater
      · exact hlt
      · exact Std.TransCmp.lt_trans hlt (hhead later hlater)
    · rename_i he
      exact List.pairwise_cons.mpr
        ⟨fun later hlater => Std.TransCmp.lt_of_eq_of_lt he (hhead later hlater), hrest⟩
    · rename_i hgt
      refine List.pairwise_cons.mpr ⟨?_, ih hrest⟩
      intro later hlater
      rcases mem_setIn hlater with rfl | hlater
      · exact Std.OrientedCmp.lt_of_gt hgt
      · exact hhead later hlater

theorem Sorted.nodup {t : Table κ α} (h : t.Sorted) : t.keys.Nodup := by
  refine h.keys.imp ?_
  rintro a b hab rfl
  rw [Std.ReflOrd.compare_self] at hab
  cases hab

/-- Tables with the same keys list them in the same order. -/
theorem Sorted.keys_eq {β : Type} {t : Table κ α} {u : Table κ β} (ht : t.Sorted) (hu : u.Sorted)
    (h : ∀ key, key ∈ t.keys ↔ key ∈ u.keys) : t.keys = u.keys := by
  have hperm := (List.perm_ext_iff_of_nodup ht.nodup hu.nodup).mpr h
  refine hperm.eq_of_pairwise ?_ ht.keys hu.keys
  intro a b _ _ hab hba
  exact absurd hba (Std.OrientedCmp.not_lt_of_lt hab)

/-- A scan from a key passes over what comes before it, and over nothing else. -/
theorem Sorted.entriesFrom {t : Table κ α} (h : t.Sorted) (key : κ) :
    t.entriesFrom key = t.entries.filter fun entry => compare entry.1 key != .lt := by
  obtain ⟨entries⟩ := t
  show entries.dropWhile _ = entries.filter _
  induction entries with
  | nil => rfl
  | cons entry rest ih =>
    obtain ⟨hhead, hrest⟩ := List.pairwise_cons.mp h
    by_cases hlt : compare entry.1 key = .lt
    · rw [List.dropWhile_cons_of_pos (by simp [hlt]), List.filter_cons_of_neg (by simp [hlt]),
        ih hrest]
    · have hall : ∀ later ∈ entry :: rest, (compare later.1 key != .lt) = true := by
        intro later hlater
        rcases List.mem_cons.mp hlater with rfl | hlater
        · simp [hlt]
        · have hnot : compare later.1 key ≠ .lt :=
            fun hl => hlt (Std.TransCmp.lt_trans (hhead later hlater) hl)
          simp [hnot]
      rw [List.dropWhile_cons_of_neg (by simp [hlt]), List.filter_eq_self.mpr hall]

end Order

end Table

end Harvest
