import Harvest.Json.Draft

/-! Reading records of fixed fields from a text. A record is written as an object of named members
or as an array of values in the order of its fields. In an object each field stands at most once,
and members of other names are passed over, whatever they hold. -/

namespace Harvest.Json

/-- A field of a record `ρ`: its name, and how a record takes up a value for it. -/
structure Slot (ρ : Type) where
  name : String
  set : Draft → ρ → Option ρ

namespace Slot

def of (name : String) (read : Draft → Option α) (put : α → ρ → ρ) : Slot ρ where
  name
  set d r := (read d).map fun a => put a r

end Slot

namespace Draft

/-- Takes up the members of an object; `seen` are the names of the fields that were set. -/
def setMembers (fields : List (Slot ρ)) (seen : List String) :
    List (Option String × Draft) → ρ → Option ρ
  | [], r => some r
  | (none, _) :: _, _ => none
  | (some name, d) :: rest, r =>
    match fields.find? (·.name == name) with
    | none => setMembers fields seen rest r
    | some field =>
      if seen.contains name then none
      else (field.set d r).bind (setMembers fields (name :: seen) rest)

def setItems : List (Slot ρ) → List Draft → ρ → Option ρ
  | _, [], r => some r
  | [], _ :: _, _ => none
  | field :: fields, d :: rest, r => (field.set d r).bind (setItems fields rest)

/-- Reads a record: a field that is not given keeps the value that it has in `base`. -/
def record? (fields : List (Slot ρ)) (base : ρ) : Draft → Option ρ
  | .obj members => setMembers fields [] members base
  | .arr items => setItems fields items base
  | _ => none

/-! ## Values of fields -/

/-- A whole number below `limit`, written without point and exponent. -/
def natBelow? (limit : Nat) : Draft → Option Nat
  | .num l => l.number?.bind fun n => (Json.num n).natBelow? limit
  | _ => none

def double? : Draft → Option Float
  | .num l =>
    l.number?.map fun n =>
      match n with
      | .int i =>
        if i < 0 then -(UInt64.ofNat i.natAbs).toFloat else (UInt64.ofNat i.toNat).toFloat
      | .real bits => Float.ofBits bits
  | _ => none

def text? : Draft → Option String
  | .str s => s
  | _ => none

/-- Null is nothing, anything else must be a value. -/
def optional? (read : Draft → Option α) : Draft → Option (Option α)
  | .null => some none
  | d => (read d).map some

end Draft

end Harvest.Json
