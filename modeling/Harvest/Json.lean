/-! JSON values. An object that was read has its members in the order of their names, each name
once, so it is the same value however it was written. A number is an integer of at most 64 bits,
or else a double, given by its bits. -/

namespace Harvest

namespace Json

inductive Number
  | int (value : Int)
  /-- The double with these bits; never an infinity and never a value that is no number. -/
  | real (bits : UInt64)
deriving DecidableEq, Inhabited

end Json

inductive Json
  | null
  | bool (value : Bool)
  | num (value : Json.Number)
  | str (value : String)
  | arr (items : List Json)
  | obj (members : List (String × Json))
deriving Inhabited

namespace Json

/-- Puts a member in its place by name; an earlier member of that name gives way. -/
def insert (name : String) (value : Json) : List (String × Json) → List (String × Json)
  | [] => [(name, value)]
  | (n, v) :: rest =>
    if name < n then (name, value) :: (n, v) :: rest
    else if name = n then (name, value) :: rest
    else (n, v) :: insert name value rest

/-- The object with these members, a later one winning over an earlier one of the same name. -/
def object (members : List (String × Json)) : Json :=
  .obj (members.foldl (fun done (name, value) => insert name value done) [])

def get? (name : String) : Json → Option Json
  | .obj members => members.lookup name
  | _ => none

def nat (n : Nat) : Json := .num (.int n)

def real (x : Float) : Json := .num (.real x.toBits)

def text? : Json → Option String
  | .str s => some s
  | _ => none

def items? : Json → Option (List Json)
  | .arr items => some items
  | _ => none

def bool? : Json → Option Bool
  | .bool b => some b
  | _ => none

/-- A whole number below `limit`. A double is none, even if it has no fraction. -/
def natBelow? (limit : Nat) : Json → Option Nat
  | .num (.int i) => if 0 ≤ i ∧ i.toNat < limit then some i.toNat else none
  | _ => none

/-- The values of a record: of an object those with the given names, of an array all, of which
there must be as many. -/
def fields? (names : List String) : Json → Option (List Json)
  | .obj members => names.mapM fun name => members.lookup name
  | .arr items => if items.length = names.length then some items else none
  | _ => none

/-- Nothing is written as null. -/
def ofOption (f : α → Json) : Option α → Json
  | none => .null
  | some a => f a

def ofList (f : α → Json) (items : List α) : Json := .arr (items.map f)

/-- Structural equality, as a test. -/
def same : Json → Json → Bool
  | .null, .null => true
  | .bool a, .bool b => a == b
  | .num a, .num b => a == b
  | .str a, .str b => a == b
  | .arr a, .arr b => sameItems a b
  | .obj a, .obj b => sameMembers a b
  | _, _ => false
where
  sameItems : List Json → List Json → Bool
    | [], [] => true
    | a :: as, b :: bs => same a b && sameItems as bs
    | _, _ => false
  sameMembers : List (String × Json) → List (String × Json) → Bool
    | [], [] => true
    | (m, a) :: as, (n, b) :: bs => m == n && same a b && sameMembers as bs
    | _, _ => false

mutual

theorem eq_of_same : ∀ {a b : Json}, same a b = true → a = b
  | .null, b, h => by cases b <;> simp_all [same]
  | .bool _, b, h => by cases b <;> simp_all [same]
  | .num _, b, h => by cases b <;> simp_all [same]
  | .str _, b, h => by cases b <;> simp_all [same]
  | .arr as, b, h => by
    cases b <;> simp_all [same]
    exact eq_of_sameItems h
  | .obj as, b, h => by
    cases b <;> simp_all [same]
    exact eq_of_sameMembers h

theorem eq_of_sameItems : ∀ {as bs : List Json}, same.sameItems as bs = true → as = bs
  | [], bs, h => by cases bs <;> simp_all [same.sameItems]
  | a :: as, bs, h => by
    cases bs with
    | nil => simp [same.sameItems] at h
    | cons b bs =>
      simp only [same.sameItems, Bool.and_eq_true] at h
      rw [eq_of_same h.1, eq_of_sameItems h.2]

theorem eq_of_sameMembers :
    ∀ {as bs : List (String × Json)}, same.sameMembers as bs = true → as = bs
  | [], bs, h => by cases bs <;> simp_all [same.sameMembers]
  | (m, a) :: as, bs, h => by
    cases bs with
    | nil => simp [same.sameMembers] at h
    | cons b bs =>
      obtain ⟨n, b⟩ := b
      simp only [same.sameMembers, Bool.and_eq_true, beq_iff_eq] at h
      rw [h.1.1, eq_of_same h.1.2, eq_of_sameMembers h.2]

end

mutual

theorem same_refl : ∀ a : Json, same a a = true
  | .null => rfl
  | .bool _ => by simp [same]
  | .num _ => by simp [same]
  | .str _ => by simp [same]
  | .arr as => by simp [same, sameItems_refl as]
  | .obj as => by simp [same, sameMembers_refl as]

theorem sameItems_refl : ∀ as : List Json, same.sameItems as as = true
  | [] => rfl
  | a :: as => by simp [same.sameItems, same_refl a, sameItems_refl as]

theorem sameMembers_refl : ∀ as : List (String × Json), same.sameMembers as as = true
  | [] => rfl
  | (_, a) :: as => by simp [same.sameMembers, same_refl a, sameMembers_refl as]

end

theorem same_iff {a b : Json} : same a b = true ↔ a = b :=
  ⟨eq_of_same, fun h => h ▸ same_refl a⟩

instance : DecidableEq Json := fun _ _ => decidable_of_iff _ same_iff

end Json

end Harvest
