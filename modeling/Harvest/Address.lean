import Harvest.Failure

/-! Addresses of the form `host:port`. The port stands after the last colon, and brackets around
the host are dropped. -/

namespace Harvest

/-! ## Whole numbers as they are typed

Decimal digits, perhaps after a plus sign. -/

namespace Text.Numeral

def value (digits : List Char) : Nat :=
  digits.foldl (fun n c => n * 10 + (c.toNat - '0'.toNat)) 0

/-- The number of a text, if it lies below `limit`. -/
def natBelow? (limit : Nat) (cs : List Char) : Option Nat :=
  let digits :=
    match cs with
    | '+' :: rest => rest
    | cs => cs
  if digits = [] ∨ !digits.all Char.isDigit then none
  else if value digits < limit then some (value digits) else none

end Text.Numeral

/-! ## Hosts and ports -/

structure Address where
  host : String
  port : UInt16
deriving DecidableEq, Repr

namespace Address

def port? (cs : List Char) : Option UInt16 :=
  (Text.Numeral.natBelow? UInt16.size cs).map UInt16.ofNat

def bare (host : List Char) : List Char :=
  ((host.dropWhile (· = '[')).reverse.dropWhile (· = ']')).reverse

def ofText? (text : String) : Option Address :=
  match text.toList.reverse.span (· ≠ ':') with
  | (_, []) => none
  | (port, _ :: host) =>
    match port? port.reverse with
    | none => none
    | some port =>
      match bare host.reverse with
      | [] => none
      | host => some { host := String.ofList host, port }

/-- The host and the port that a relay is dialled at through a proxy. -/
def ofRelay (addr : String) : Except LinkFault Address :=
  match ofText? addr with
  | some a => .ok a
  | none => .error (.connect addr "expected host:port")

/-- Why nothing answers where no relay is: an address that is none cannot be dialled at all. -/
def refusal (addr : String) : String :=
  match addr.toList.reverse.span (· ≠ ':') with
  | (_, []) => "invalid socket address"
  | (port, _ :: _) =>
    if (port? port.reverse).isNone then "invalid port value"
    else "Connection refused (os error 111)"

end Address

end Harvest
