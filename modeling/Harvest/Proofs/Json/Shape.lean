import Harvest.Json.Draft

/-! The shape of JSON values. A property of single values is asked of a value and of all that is in
it; arrays and objects are counted by how deep they are nested. A value that was read off a text
has its members in order, and is nested no deeper than the reader goes. -/

namespace Harvest.Json

/-! ## All that is in a value -/

mutual

/-- The property holds of the value and of every value in it. -/
def All (p : Json → Prop) : Json → Prop
  | .arr items => p (.arr items) ∧ AllItems p items
  | .obj members => p (.obj members) ∧ AllMembers p members
  | .null => p .null
  | .bool b => p (.bool b)
  | .num n => p (.num n)
  | .str s => p (.str s)

def AllItems (p : Json → Prop) : List Json → Prop
  | [] => True
  | v :: vs => v.All p ∧ AllItems p vs

def AllMembers (p : Json → Prop) : List (String × Json) → Prop
  | [] => True
  | (_, v) :: ms => v.All p ∧ AllMembers p ms

end

mutual

/-- How deep arrays and objects are nested in a value. -/
def depth : Json → Nat
  | .arr items => depthItems items + 1
  | .obj members => depthMembers members + 1
  | .null | .bool _ | .num _ | .str _ => 0

def depthItems : List Json → Nat
  | [] => 0
  | v :: vs => max v.depth (depthItems vs)

def depthMembers : List (String × Json) → Nat
  | [] => 0
  | (_, v) :: ms => max v.depth (depthMembers ms)

end

theorem allItems_iff {p : Json → Prop} {vs : List Json} :
    AllItems p vs ↔ ∀ v ∈ vs, v.All p := by
  induction vs with
  | nil => simp [AllItems]
  | cons v vs ih => simp [AllItems, ih]

theorem allMembers_iff {p : Json → Prop} {ms : List (String × Json)} :
    AllMembers p ms ↔ ∀ m ∈ ms, m.2.All p := by
  induction ms with
  | nil => simp [AllMembers]
  | cons m ms ih => simp [AllMembers, ih]

theorem depthItems_le_iff {vs : List Json} {room : Nat} :
    depthItems vs ≤ room ↔ ∀ v ∈ vs, v.depth ≤ room := by
  induction vs with
  | nil => simp [depthItems]
  | cons v vs ih => rw [depthItems, Nat.max_le, ih, List.forall_mem_cons]

theorem depthMembers_le_iff {ms : List (String × Json)} {room : Nat} :
    depthMembers ms ≤ room ↔ ∀ m ∈ ms, m.2.depth ≤ room := by
  induction ms with
  | nil => simp [depthMembers]
  | cons m ms ih => rw [depthMembers, Nat.max_le, ih, List.forall_mem_cons]

/-! ## Members in order -/

/-- Members in the order of their names, each name once. -/
def Sorted (members : List (String × Json)) : Prop := members.Pairwise (·.1 < ·.1)

theorem sorted_of_names {members : List (String × Json)} {names : List String}
    (h : members.map (·.1) = names) (hs : names.Pairwise (· < ·)) : Sorted members := by
  subst h
  exact List.pairwise_map.mp hs

/-- Every object in the value has its members in order, as objects have that were read. -/
def Ordered : Json → Prop := All fun v => ∀ members, v = .obj members → Sorted members

theorem ordered_obj {ms : List (String × Json)} (hs : Sorted ms) (h : ∀ m ∈ ms, m.2.Ordered) :
    (Json.obj ms).Ordered := by
  refine ⟨fun members he => ?_, allMembers_iff.mpr h⟩
  obtain rfl := obj.inj he
  exact hs

theorem ordered_arr {vs : List Json} (h : ∀ v ∈ vs, v.Ordered) : (Json.arr vs).Ordered :=
  ⟨fun _ he => Json.noConfusion he, allItems_iff.mpr h⟩

theorem mem_insert {name : String} {v : Json} {ms : List (String × Json)} {m : String × Json}
    (h : m ∈ insert name v ms) : m = (name, v) ∨ m ∈ ms := by
  fun_induction insert name v ms with
  | case1 => exact .inl (List.mem_singleton.mp h)
  | case2 n w rest hlt => exact (List.mem_cons.mp h)
  | case3 w rest hlt =>
    rcases List.mem_cons.mp h with rfl | h
    · exact .inl rfl
    · exact .inr (List.mem_cons_of_mem _ h)
  | case4 n w rest hlt hne ih =>
    rcases List.mem_cons.mp h with rfl | h
    · exact .inr (List.mem_cons_self ..)
    · exact (ih h).imp_right (List.mem_cons_of_mem _)

theorem Sorted.insert {ms : List (String × Json)} (h : Sorted ms) (name : String) (v : Json) :
    Sorted (Json.insert name v ms) := by
  fun_induction Json.insert name v ms with
  | case1 => exact List.pairwise_singleton ..
  | case2 n w rest hlt =>
    refine List.pairwise_cons.mpr ⟨fun m hm => ?_, h⟩
    rcases List.mem_cons.mp hm with rfl | hm
    · exact hlt
    · exact String.lt_trans hlt ((List.pairwise_cons.mp h).1 m hm)
  | case3 w rest hlt =>
    exact List.pairwise_cons.mpr (List.pairwise_cons.mp h)
  | case4 n w rest hlt hne ih =>
    obtain ⟨hhead, hrest⟩ := List.pairwise_cons.mp h
    refine List.pairwise_cons.mpr ⟨fun m hm => ?_, ih hrest⟩
    rcases mem_insert hm with rfl | hm
    · exact Std.lt_of_le_of_ne (String.not_lt.mp hlt) (Ne.symm hne)
    · exact hhead m hm

/-- A member with the greatest name goes to the end. -/
theorem insert_last {name : String} {v : Json} {ms : List (String × Json)}
    (h : ∀ m ∈ ms, m.1 < name) : insert name v ms = ms ++ [(name, v)] := by
  induction ms with
  | nil => rfl
  | cons m ms ih =>
    have hm := h m (List.mem_cons_self ..)
    rw [insert, if_neg (String.lt_asymm hm), if_neg, ih fun n hn => h n (List.mem_cons_of_mem _ hn)]
    · rfl
    · rintro rfl
      exact String.lt_irrefl _ hm

/-- The members of an object, put in order one after another. -/
def gather (done members : List (String × Json)) : List (String × Json) :=
  members.foldl (fun done (name, value) => insert name value done) done

theorem gather_sorted {done ms : List (String × Json)} (h : Sorted (done ++ ms)) :
    gather done ms = done ++ ms := by
  induction ms generalizing done with
  | nil => exact (List.append_nil done).symm
  | cons m ms ih =>
    have hlast : ∀ n ∈ done, n.1 < m.1 := fun n hn =>
      (List.pairwise_append.mp h).2.2 n hn m (List.mem_cons_self ..)
    rw [List.append_cons] at h ⊢
    rw [← ih h]
    exact congrArg (gather · ms) (insert_last hlast)

/-- Members in order make the object that they are. -/
theorem object_sorted {ms : List (String × Json)} (h : Sorted ms) : object ms = .obj ms :=
  congrArg obj (gather_sorted (show Sorted ([] ++ ms) from h))

theorem sorted_gather {done : List (String × Json)} (h : Sorted done)
    (ms : List (String × Json)) : Sorted (gather done ms) := by
  induction ms generalizing done with
  | nil => exact h
  | cons m ms ih => exact ih (h.insert m.1 m.2)

theorem mem_gather {done ms : List (String × Json)} {m : String × Json}
    (h : m ∈ gather done ms) : m ∈ done ∨ m ∈ ms := by
  induction ms generalizing done with
  | nil => exact .inl h
  | cons n ms ih =>
    rcases ih h with h | h
    · rcases mem_insert h with rfl | h
      · exact .inr (List.mem_cons_self ..)
      · exact .inl h
    · exact .inr (List.mem_cons_of_mem _ h)

/-! ## Values that were read -/

namespace Draft

mutual

/-- **A value that was read** has its members in order, and is nested no deeper than allowed. -/
theorem shape_json? : ∀ {d : Draft} {room : Nat} {v : Json}, d.json? room = some v →
    v.Ordered ∧ v.depth ≤ room
  | .null, room, v, h => by
    obtain rfl := Option.some.inj h
    exact ⟨fun _ he => Json.noConfusion he, Nat.zero_le _⟩
  | .bool b, room, v, h => by
    obtain rfl := Option.some.inj h
    exact ⟨fun _ he => Json.noConfusion he, Nat.zero_le _⟩
  | .num l, room, v, h => by
    obtain ⟨n, -, rfl⟩ := Option.map_eq_some_iff.mp h
    exact ⟨fun _ he => Json.noConfusion he, Nat.zero_le _⟩
  | .str s, room, v, h => by
    obtain ⟨t, -, rfl⟩ := Option.map_eq_some_iff.mp h
    exact ⟨fun _ he => Json.noConfusion he, Nat.zero_le _⟩
  | .arr ds, 0, v, h => by cases h
  | .arr ds, room + 1, v, h => by
    obtain ⟨vs, hvs, rfl⟩ := Option.map_eq_some_iff.mp h
    have hshape := shape_itemsJson? hvs
    exact ⟨ordered_arr fun w hw => (hshape w hw).1,
      Nat.succ_le_succ (depthItems_le_iff.mpr fun w hw => (hshape w hw).2)⟩
  | .obj ds, 0, v, h => by cases h
  | .obj ds, room + 1, v, h => by
    obtain ⟨ms, hms, rfl⟩ := Option.map_eq_some_iff.mp h
    have hshape : ∀ m ∈ gather [] ms, m.2.Ordered ∧ m.2.depth ≤ room := fun m hm =>
      shape_membersJson? hms m ((mem_gather hm).resolve_left List.not_mem_nil)
    exact ⟨ordered_obj (sorted_gather List.Pairwise.nil ms) fun m hm => (hshape m hm).1,
      Nat.succ_le_succ (depthMembers_le_iff.mpr fun m hm => (hshape m hm).2)⟩

theorem shape_itemsJson? : ∀ {ds : List Draft} {room : Nat} {vs : List Json},
    itemsJson? room ds = some vs → ∀ v ∈ vs, v.Ordered ∧ v.depth ≤ room
  | [], room, vs, h => by
    obtain rfl := Option.some.inj h
    exact fun v hv => absurd hv List.not_mem_nil
  | d :: ds, room, vs, h => by
    rw [itemsJson?] at h
    split at h
    case h_1 w ws hw hws =>
      obtain rfl := Option.some.inj h
      intro v hv
      rcases List.mem_cons.mp hv with rfl | hv
      · exact shape_json? hw
      · exact shape_itemsJson? hws v hv
    case h_2 => cases h

theorem shape_membersJson? : ∀ {ds : List (Option String × Draft)} {room : Nat}
    {ms : List (String × Json)}, membersJson? room ds = some ms →
      ∀ m ∈ ms, m.2.Ordered ∧ m.2.depth ≤ room
  | [], room, ms, h => by
    obtain rfl := Option.some.inj h
    exact fun m hm => absurd hm List.not_mem_nil
  | (n, d) :: ds, room, ms, h => by
    unfold membersJson? at h
    split at h
    case h_1 name w ws hn hw hws =>
      obtain rfl := Option.some.inj h
      intro m hm
      rcases List.mem_cons.mp hm with rfl | hm
      · exact shape_json? hw
      · exact shape_membersJson? hws m hm
    case h_2 => cases h

end

end Draft

theorem shape_ofChars? {cs : List Char} {v : Json} (h : ofChars? cs = some v) :
    v.Ordered ∧ v.depth ≤ Draft.deepest := by
  obtain ⟨d, -, hd⟩ := Option.bind_eq_some_iff.mp h
  exact Draft.shape_json? hd

end Harvest.Json
