import Harvest.Json

/-! Numbers as they stand in a JSON text, and the value that such a number has. A whole number that
fits in 64 bits is kept as it is. Any other number is a double: of its digits those count that fit
in 64 bits, and the double nearest to them is multiplied or divided by a power of ten. -/

namespace Harvest.Json

/-- A number in a text: the digits of its three parts. -/
structure Literal where
  negative : Bool
  whole : List Char
  fraction : List Char
  /-- Whether the exponent is negative, and its digits. -/
  exponent : Option (Bool × List Char)
deriving DecidableEq

def digitValue (c : Char) : Nat := c.toNat - '0'.toNat

namespace Literal

/-- Reads digits onto a significand while it fits in 64 bits: the significand, how many digits
went into it and how many were left. -/
def take64 : Nat → Nat → List Char → Nat × Nat × Nat
  | significand, taken, [] => (significand, taken, 0)
  | significand, taken, c :: rest =>
    let next := significand * 10 + digitValue c
    if next < UInt64.size then take64 next (taken + 1) rest
    else (significand, taken, rest.length + 1)

def powerOfTen (n : Nat) : Float := Float.ofScientific 1 false n

/-- Divides by `10 ^ n`, in steps that a double can hold. -/
def scaleDown (n : Nat) (x : Float) : Float :=
  if n ≤ 308 then x / powerOfTen n
  else if x == 0 then x
  else scaleDown (n - 308) (x / powerOfTen 308)
termination_by n

/-- Times ten to a power; none when that is beyond the doubles. -/
def scale? (x : Float) (power : Int) : Option Float :=
  if power < 0 then some (scaleDown power.natAbs x)
  else if power ≤ 308 then
    let product := x * powerOfTen power.toNat
    if product.isInf then none else some product
  else if x == 0 then some x else none

def digitsValue (digits : List Char) : Nat :=
  digits.foldl (fun n c => n * 10 + digitValue c) 0

/-- The double that a literal with a fraction, an exponent or too many digits stands for. -/
def double? (l : Literal) : Option Float :=
  let (significand, _, extra) := take64 0 0 l.whole
  let (significand, places, _) := take64 significand 0 l.fraction
  let before : Int := extra - places
  let magnitude? :=
    match l.exponent with
    | none => scale? (UInt64.ofNat significand).toFloat before
    | some (down, digits) =>
      let size := digitsValue digits
      if size < 0x80000000 then
        scale? (UInt64.ofNat significand).toFloat (if down then before - size else before + size)
      else if significand ≠ 0 ∧ !down then none
      else some 0
  magnitude?.map fun x => if l.negative then -x else x

def number? (l : Literal) : Option Number :=
  let n := digitsValue l.whole
  if l.fraction = [] ∧ l.exponent = none then
    if l.negative then
      if 0 < n ∧ n ≤ 0x8000000000000000 then some (.int (-n))
      else l.double?.map fun x => .real x.toBits
    else if n < UInt64.size then some (.int n)
    else l.double?.map fun x => .real x.toBits
  else l.double?.map fun x => .real x.toBits

end Literal

end Harvest.Json
