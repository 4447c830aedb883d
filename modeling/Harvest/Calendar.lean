/-! Dates and times of day of the proleptic Gregorian calendar, in universal time. A moment is
written with its year in four digits; a year outside 0 to 9999 carries its sign. -/

namespace Harvest.Calendar

structure Date where
  year : Int
  month : Nat
  day : Nat
deriving DecidableEq, Repr

/-- The date that lies `days` after the first of January 1970. Years are counted from March on, so
that the leap day is the last day of its year, in eras of 400 years, which all have 146097 days. -/
def Date.ofDays (days : Int) : Date :=
  let shifted := days + 719468
  let era := shifted / 146097
  let dayOfEra := (shifted % 146097).toNat
  let yearOfEra := (dayOfEra - dayOfEra / 1460 + dayOfEra / 36524 - dayOfEra / 146096) / 365
  let dayOfYear := dayOfEra - (365 * yearOfEra + yearOfEra / 4 - yearOfEra / 100)
  let marchMonth := (5 * dayOfYear + 2) / 153
  let month := if marchMonth < 10 then marchMonth + 3 else marchMonth - 9
  { year := yearOfEra + era * 400 + (if month ≤ 2 then 1 else 0)
    month
    day := dayOfYear - (153 * marchMonth + 2) / 5 + 1 }

/-- The decimal digits of `n`, filled up with zeros on the left to `width` digits. -/
def padded (width n : Nat) : String :=
  let digits := toString n
  String.ofList (List.replicate (width - digits.length) '0') ++ digits

def yearText (year : Int) : String :=
  if 0 ≤ year ∧ year ≤ 9999 then padded 4 year.toNat
  else (if year < 0 then "-" else "+") ++ padded 4 year.natAbs

def Date.text (d : Date) : String :=
  yearText d.year ++ "-" ++ padded 2 d.month ++ "-" ++ padded 2 d.day

def timeText (second : Nat) : String :=
  padded 2 (second / 3600) ++ ":" ++ padded 2 (second / 60 % 60) ++ ":" ++ padded 2 (second % 60)

def inRange (year : Int) : Bool := -262143 ≤ year && year ≤ 262142

/-- The moment `seconds` after the start of 1970, or before it if negative. -/
def moment? (seconds : Int) : Option String :=
  let date := Date.ofDays (seconds / 86400)
  if inRange date.year then
    some (date.text ++ "T" ++ timeText (seconds % 86400).toNat ++ "Z")
  else none

/-- The moment `millis` after the start of 1970, with three places of the second. -/
def momentMillis (millis : Int) : String :=
  let seconds := millis / 1000
  (Date.ofDays (seconds / 86400)).text ++ "T" ++ timeText (seconds % 86400).toNat ++ "." ++
    padded 3 (millis % 1000).toNat ++ "Z"

end Harvest.Calendar
