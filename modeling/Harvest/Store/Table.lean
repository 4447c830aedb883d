/-! Tables: values by key, listed in the order of their keys. -/

namespace Harvest

structure Table (κ α : Type) where
  entries : List (κ × α) := []

namespace Table

variable {κ α : Type} [Ord κ]

/-- Puts an entry in its place; an earlier value of the key gives way. -/
def setIn (key : κ) (value : α) : List (κ × α) → List (κ × α)
  | [] => [(key, value)]
  | (k, v) :: rest =>
    match compare key k with
    | .lt => (key, value) :: (k, v) :: rest
    | .eq => (key, value) :: rest
    | .gt => (k, v) :: setIn key value rest

def set (t : Table κ α) (key : κ) (value : α) : Table κ α :=
  { entries := setIn key value t.entries }

def getIn (key : κ) : List (κ × α) → Option α
  | [] => none
  | (k, v) :: rest =>
    match compare key k with
    | .eq => some v
    | _ => getIn key rest

def get? (t : Table κ α) (key : κ) : Option α := getIn key t.entries

/-- The entries whose keys do not come before a key. -/
def entriesFrom (t : Table κ α) (key : κ) : List (κ × α) :=
  t.entries.dropWhile fun (k, _) => compare k key == .lt

def size (t : Table κ α) : Nat := t.entries.length

def values (t : Table κ α) : List α := t.entries.map Prod.snd

end Table

end Harvest
