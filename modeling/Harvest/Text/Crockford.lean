/-! Base 32 in Crockford's alphabet, which leaves out the letters I, L, O and U. A number of 128
bits has 26 digits in it. Cycles are named by such a number. -/

namespace Harvest.Text.Crockford

def alphabet : List Char := "0123456789ABCDEFGHJKMNPQRSTVWXYZ".toList

def digit (n : Nat) : Char := alphabet.getD (n % 32) '0'

/-- The last `width` digits of `n`, the highest first. -/
def digits : Nat → Nat → List Char
  | 0, _ => []
  | width + 1, n => digits width (n / 32) ++ [digit n]

/-- The 26 digits of a number of 128 bits. -/
def ofNat128 (n : Nat) : String := String.ofList (digits 26 n)

/-- The name of a cycle: 48 bits for the milliseconds since the start of 1970, and the 80 bits below
them for what chance gives. -/
def cycleName (millis chance : Nat) : String :=
  "cycle_" ++ ofNat128 ((millis % 0x1000000000000) <<< 80 + chance)

end Harvest.Text.Crockford
