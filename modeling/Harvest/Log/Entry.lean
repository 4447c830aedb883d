import Harvest.Calendar
import Harvest.Json.Printer
import Harvest.Json.Record

/-! One entry of a log, written as one line of JSON. -/

namespace Harvest.Log

open Json (Slot Draft)

inductive Level
  | trace
  | debug
  | info
  | warn
  | error
deriving DecidableEq, Repr

def Level.text : Level → String
  | trace => "trace"
  | debug => "debug"
  | info => "info"
  | warn => "warn"
  | error => "error"

def Level.ofText? (s : String) : Option Level :=
  [trace, debug, info, warn, error].find? (·.text == s)

structure Entry where
  /-- The moment of the entry, with three places of the second. -/
  ts : String
  level : String
  source : String
  target : String
  msg : String
  /-- What is known of the event and of the spans around it. -/
  fields : Option Json := none
  /-- The names of the spans around the event, the outermost first. -/
  span : Option String := none
deriving DecidableEq

namespace Entry

/-- An entry of the moment `now`, in milliseconds since the start of 1970. -/
def at_ (now : Int) (level source target msg : String) : Entry :=
  { ts := Calendar.momentMillis now, level, source, target, msg }

def field? (e : Entry) (name : String) : Option Json := e.fields.bind (Json.get? name)

/-- Fields and span are left out where there are none. -/
def toJson (e : Entry) : Json :=
  .obj ([("ts", .str e.ts), ("level", .str e.level), ("instance", .str e.source),
    ("target", .str e.target), ("msg", .str e.msg)] ++
    (match e.fields with | some v => [("fields", v)] | none => []) ++
    (match e.span with | some s => [("span", .str s)] | none => []))

def line (e : Entry) : String := e.toJson.text

/-! ## Reading -/

structure Parts where
  ts : Option String := none
  level : Option String := none
  source : Option String := none
  target : Option String := none
  msg : Option String := none
  fields : Option Json := none
  span : Option String := none

/-- The fields of an entry. They may hold any value, nested as deep as is left within the entry. -/
def parts : List (Slot Parts) :=
  [.of "ts" Draft.text? fun s p => { p with ts := some s },
   .of "level" Draft.text? fun s p => { p with level := some s },
   .of "instance" Draft.text? fun s p => { p with source := some s },
   .of "target" Draft.text? fun s p => { p with target := some s },
   .of "msg" Draft.text? fun s p => { p with msg := some s },
   .of "fields" (Draft.optional? (Draft.json? (Draft.deepest - 1))) fun v p =>
      { p with fields := v },
   .of "span" (Draft.optional? Draft.text?) fun s p => { p with span := s }]

/-- An entry has all parts but the last two. -/
def ofParts? : Parts → Option Entry
  | ⟨some ts, some level, some source, some target, some msg, fields, span⟩ =>
    some { ts, level, source, target, msg, fields, span }
  | _ => none

/-- As an array, an entry has a place for each of its fields. -/
def ofDraft? (d : Draft) : Option Entry :=
  let complete :=
    match d with
    | .arr items => items.length == parts.length
    | _ => true
  if complete then (d.record? parts {}).bind ofParts? else none

def ofLine? (line : String) : Option Entry := (Draft.ofText? line).bind ofDraft?

end Entry

end Harvest.Log
