import Harvest.Failure
import Harvest.Log.Folder
import Harvest.Text.Literal

/-! The recorder of one engine. It keeps the spans that are open; each event becomes an entry that
carries the fields of all of them, so that a line from deep inside a session still names its cycle,
worker and relay. -/

namespace Harvest.Log

inductive Value
  | text (s : String)
  | int (n : Int)
  | bool (b : Bool)
  | real (bits : UInt64)
  /-- A text, or nothing, in a form that tells the two apart. -/
  | optional (s : Option String)

namespace Value

/-- The exponent of a double that is no number or not finite. -/
def isFinite (bits : UInt64) : Bool := bits >>> 52 &&& 0x7ff != 0x7ff

/-- A double that JSON does not have is left out. -/
def json? : Value → Option Json
  | text s => some (.str s)
  | int n => some (.num (.int n))
  | bool b => some (.bool b)
  | real bits => if isFinite bits then some (.num (.real bits)) else none
  | optional (some s) => some (.str ("Some(" ++ Text.Literal.quote s ++ ")"))
  | optional none => some (.str "None")

end Value

/-- Named values; a later one of the same name takes the place of an earlier one. -/
abbrev Values := List (String × Value)

/-- The values that JSON has, put into an object after what is there. -/
def extend (fields : List (String × Json)) (values : Values) : List (String × Json) :=
  values.foldl (fun fields (name, v) =>
    match v.json? with
    | some j => Json.insert name j fields
    | none => fields) fields

structure Span where
  name : String
  /-- The names that it may record values for. -/
  declared : List String
  fields : List (String × Json)

namespace Span

def begin_ (name : String) (declared : List String) (values : Values) : Span :=
  { name, declared, fields := extend [] values }

/-- Records a value; one that the span does not declare is passed over. -/
def record (s : Span) (name : String) (v : Value) : Span :=
  if s.declared.contains name then { s with fields := extend s.fields [(name, v)] } else s

def cycle (id : String) : Span := begin_ "cycle" ["cycle"] [("cycle", .text id)]

def worker (n : Nat) : Span := begin_ "worker" ["worker"] [("worker", .int n)]

def session (worker : Nat) (relay : String) : Span :=
  begin_ "relay_session" ["worker", "relay"] [("worker", .int worker), ("relay", .text relay)]

end Span

structure Event where
  level : Level := .info
  target : String := ""
  msg : String := ""
  values : Values := []

structure Recorder where
  source : String
  file : String
  /-- The open spans, the innermost first. -/
  spans : List Span := []

namespace Recorder

def open_ (source : String) (now : Int) : Recorder := { source, file := fileName now source }

def enter (r : Recorder) (s : Span) : Recorder := { r with spans := s :: r.spans }

def exit (r : Recorder) : Recorder := { r with spans := r.spans.tail }

def record (r : Recorder) (name : String) (v : Value) : Recorder :=
  match r.spans with
  | [] => r
  | s :: rest => { r with spans := s.record name v :: rest }

/-- The entry of an event: an inner span's field takes the place of an outer one's of that name, and
the event's own fields come last. -/
def entry (r : Recorder) (now : Int) (e : Event) : Entry :=
  let outer := r.spans.reverse
  let carried := outer.foldl (fun fields s =>
    s.fields.foldl (fun fields (name, v) => Json.insert name v fields) fields) []
  let fields := extend carried e.values
  { Entry.at_ now e.level.text r.source e.target e.msg with
    fields := if fields.isEmpty then none else some (.obj fields)
    span := if outer.isEmpty then none else some (String.intercalate " > " (outer.map (·.name))) }

end Recorder

end Harvest.Log
