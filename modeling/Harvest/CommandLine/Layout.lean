import Harvest.Coordinator
import Harvest.Decimal.Shortest
import Harvest.Stamp

/-! How the program shows what it has found. -/

namespace Harvest.CommandLine

def column (width : Nat) (text : String) : String :=
  text ++ String.ofList (List.replicate (width - text.length) ' ')

/-- Seconds with one place; the double that is nearest to the duration is rounded, and a tie goes to
the even tenth. -/
def seconds (millis : Nat) : String :=
  let b := Decimal.Binary.ofBits (Float.toBits (Float.ofNat millis / 1000))
  let num := (10 * b.mantissa) <<< b.exponent.toNat
  let den := 1 <<< (-b.exponent).toNat
  let floor := num / den
  let rest := 2 * (num % den)
  let tenths := if den < rest ∨ rest = den ∧ floor % 2 = 1 then floor + 1 else floor
  toString (tenths / 10) ++ "." ++ toString (tenths % 10) ++ "s"

def relayLine (r : Relay) : String :=
  let o := r.overrides
  let extra (name unit : String) (value : Option UInt64) : List String :=
    (value.map fun n => name ++ "=" ++ toString n.toNat ++ unit).toList
  let extras := extra "cap" "" o.resultCap ++ extra "budget" "ms" o.budget ++
    extra "interval" "ms" o.minInterval ++ extra "timeout" "ms" o.requestTimeout
  "  " ++ column 40 r.id ++ " " ++ r.route.text ++ " " ++
    column 8 (if r.isEnabled then "enabled" else "disabled") ++ " " ++
    String.intercalate " " extras

def relayLines : List Relay → List String
  | [] => ["No relays. Add one with: relaysync relays add <host:port>"]
  | relays => ("Relays (" ++ toString relays.length ++ "):") :: relays.map relayLine

def watermarkLines (now : Nat) : List (RelayId × Nat) → List String
  | [] => ["No watermarks yet."]
  | marks =>
    ("Watermarks (" ++ toString marks.length ++ "):") :: marks.map fun (relay, stamp) =>
      "  " ++ column 40 relay ++ " " ++ Stamp.text stamp ++ " (" ++ toString (now - stamp) ++
        "s behind)"

def sessionLines (r : Report) : List String :=
  let s := r.stats
  let line := "  " ++ column 40 r.relay ++ " " ++ column 10 r.outcome.label ++
    " queries=" ++ toString s.queries ++ " stored=" ++ toString s.stored ++
    " malformed=" ++ toString s.malformed ++ " retries=" ++ toString s.retries
  line :: (if r.outcome.isDrained then [] else ["    reason: " ++ r.outcome.text]) ++
    s.flagged.map fun w => "    possibly incomplete: " ++ w.text

def reportLines (id : String) (r : CycleReport) : List String :=
  ["Cycle " ++ id, "  State:   " ++ r.state.text, "  Range:   up to " ++ Stamp.text r.cycleEnd,
    "  Relays:  " ++ toString r.drained ++ " drained of " ++ toString r.sessions.length,
    "  Stored:  " ++ toString r.stored ++ " new events", "  Elapsed: " ++ seconds r.elapsed] ++
    (if r.sessions.isEmpty then [] else "" :: r.sessions.flatMap sessionLines)

end Harvest.CommandLine
