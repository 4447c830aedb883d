/-! The fewest decimal digits that read back as a given double. A double is a whole number of units
of a power of two; the decimals that round to it lie between the midpoints to its neighbours. For
one digit, two digits and so on the two decimals around the double are tried, and the first grid
with a decimal between the midpoints gives the digits: of two the nearer one, of two equally near
the even one. -/

namespace Harvest.Decimal

/-- The number `significand * 10 ^ exponent`. -/
structure Scientific where
  significand : Nat
  exponent : Int
deriving DecidableEq, Repr

namespace Scientific

/-- The same number with no zero at the end of its significand. -/
def trim : Nat → Scientific → Scientific
  | 0, s => s
  | fuel + 1, s =>
    if s.significand ≠ 0 ∧ s.significand % 10 = 0 then
      trim fuel { significand := s.significand / 10, exponent := s.exponent + 1 }
    else s

end Scientific

/-- A positive double: `mantissa * 2 ^ exponent`. -/
structure Binary where
  mantissa : Nat
  exponent : Int
deriving DecidableEq, Repr

namespace Binary

/-- The bit ahead of the 52 bits of a mantissa that are written down. -/
def leading : Nat := 0x10000000000000

def ofBits (bits : UInt64) : Binary :=
  let n := bits.toNat
  let fraction : Nat := n % leading
  let biased : Nat := n / leading % 2048
  if biased = 0 then { mantissa := fraction, exponent := -1074 }
  else { mantissa := fraction + leading, exponent := (biased : Int) - 1075 }

/-- Four times the distance to the lower midpoint, in units of the last place: the neighbour below
a power of two is only half as far away, unless it is the smallest exponent. -/
def below (b : Binary) : Nat :=
  if b.mantissa = leading ∧ b.exponent ≠ -1074 then 1 else 2

/-- The fraction `num / den` as it is counted on the grid of `10 ^ power`. -/
def onGrid (num den : Nat) (power : Int) : Nat × Nat :=
  if 0 ≤ power then (num, den * Nat.pow 10 power.toNat)
  else (num * Nat.pow 10 (-power).toNat, den)

/-- The power of ten that lies at or just below `num / den`. -/
def magnitude (num den : Nat) : Int :=
  if den ≤ num then ((Nat.toDigits 10 (num / den)).length : Int) - 1
  else
    let length := (Nat.toDigits 10 (den / num)).length
    if den ≤ Nat.pow 10 (length - 1) * num then -((length : Int) - 1) else -(length : Int)

/-- The decimal on the grid of `10 ^ power` that reads back as the double, if there is one. -/
def nearest? (b : Binary) (power : Int) : Option Nat :=
  let up := b.exponent.toNat
  let den := 4 <<< (-b.exponent).toNat
  let (value, scale) := onGrid ((4 * b.mantissa) <<< up) den power
  let (low, _) := onGrid ((4 * b.mantissa - b.below) <<< up) den power
  let (high, _) := onGrid ((4 * b.mantissa + 2) <<< up) den power
  let inside (n : Nat) : Bool :=
    if b.mantissa % 2 = 0 then low ≤ n * scale && n * scale ≤ high
    else low < n * scale && n * scale < high
  let floor := value / scale
  let rest := value % scale
  match inside floor && floor != 0, inside (floor + 1) with
  | true, true =>
    if 2 * rest < scale then some floor
    else if scale < 2 * rest then some (floor + 1)
    else if floor % 2 = 0 then some floor else some (floor + 1)
  | true, false => some floor
  | false, true => some (floor + 1)
  | false, false => none

/-- Tries grids of growing fineness. -/
def search (b : Binary) (top : Int) : Nat → Nat → Scientific
  | 0, digits => ⟨(b.nearest? (top - digits + 1)).getD 0, top - digits + 1⟩
  | fuel + 1, digits =>
    match b.nearest? (top - digits + 1) with
    | some n => ⟨n, top - digits + 1⟩
    | none => search b top fuel (digits + 1)

/-- The fewest digits that read back. Seventeen are always enough. -/
def shortest (b : Binary) : Scientific :=
  let num := b.mantissa <<< b.exponent.toNat
  let den := 1 <<< (-b.exponent).toNat
  if b.mantissa = 0 then ⟨0, 0⟩ else (b.search (magnitude num den) 16 1).trim 400

end Binary

/-- How a decimal is laid out. -/
structure Layout where
  /-- The point is written in place while it falls after more than this many digits. -/
  least : Int
  /-- The point is written in place while it falls after at most this many digits. -/
  most : Int
  /-- What is added when there is no fraction. -/
  whole : List Char
  mark : Char
  plus : List Char

namespace Scientific

def layOut (s : Scientific) (layout : Layout) : List Char :=
  let digits := Nat.toDigits 10 s.significand
  let point : Int := digits.length + s.exponent
  if s.significand = 0 then '0' :: layout.whole
  else if 0 < point ∧ point ≤ layout.most then
    if 0 ≤ s.exponent then digits ++ List.replicate s.exponent.toNat '0' ++ layout.whole
    else digits.take point.toNat ++ '.' :: digits.drop point.toNat
  else if layout.least < point ∧ point ≤ 0 then
    '0' :: '.' :: (List.replicate (-point).toNat '0' ++ digits)
  else
    let power := point - 1
    let size := Nat.toDigits 10 power.natAbs
    let exponent := if power < 0 then '-' :: size else layout.plus ++ size
    match digits with
    | [d] => d :: layout.mark :: exponent
    | d :: rest => d :: '.' :: (rest ++ layout.mark :: exponent)
    | [] => []

end Scientific

/-- The text of a finite double: its sign, then its shortest digits. -/
def chars (layout : Layout) (bits : UInt64) : List Char :=
  let magnitude := (Binary.ofBits bits).shortest.layOut layout
  if bits >>> 63 = 1 then '-' :: magnitude else magnitude

end Harvest.Decimal
