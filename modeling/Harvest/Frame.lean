import Harvest.Failure
import Harvest.Json.Draft
import Harvest.Json.Printer

/-! Frames are what client and relay say to each other: JSON arrays that open with a label, one on
a line. A client asks for a range under a name of its own choosing, and the relay answers under
that name. -/

namespace Harvest

/-- The range of a request, both ends included, and the most items of its answer. -/
structure Filter where
  since : UInt64
  upto : UInt64
  limit : UInt64
deriving DecidableEq, Repr

inductive ClientFrame
  | req (sub : String) (filter : Filter)
  | close (sub : String)
deriving DecidableEq

inductive RelayFrame
  | event (sub : String) (payload : Json)
  /-- All that the relay holds for the request was sent. -/
  | eose (sub : String)
  | closed (sub reason : String)
  | notice (text : String)
deriving DecidableEq

inductive Side
  | client
  | relay
deriving DecidableEq, Repr

def Side.text : Side → String
  | .client => "client"
  | .relay => "relay"

inductive FrameFault
  | notJson
  | notArray
  | noLabel
  | badFilter
  | notText
  | unexpected (side : Side) (label : String) (parts : Nat)
deriving DecidableEq, Repr

def FrameFault.message : FrameFault → String
  | notJson => "not json"
  | notArray => "frame is not an array"
  | noLabel => "frame has no label"
  | badFilter => "bad filter"
  | notText => "expected string"
  | unexpected side label parts => s!"unexpected {side.text} frame {label} with {parts} parts"

def FrameFault.toLink (f : FrameFault) : LinkFault := .protocol f.message

namespace Filter

def toJson (f : Filter) : Json :=
  .obj [("limit", .nat f.limit.toNat), ("since", .nat f.since.toNat), ("until", .nat f.upto.toNat)]

def ofJson? (v : Json) : Option Filter :=
  match v.fields? ["since", "until", "limit"] with
  | some [since, upto, limit] => do
    return {
      since := UInt64.ofNat (← since.natBelow? UInt64.size)
      upto := UInt64.ofNat (← upto.natBelow? UInt64.size)
      limit := UInt64.ofNat (← limit.natBelow? UInt64.size) }
  | _ => none

end Filter

namespace Frame

/-- The label of a frame and the values after it. -/
def split (chars : List Char) : Except FrameFault (String × List Json) :=
  match Json.ofChars? chars with
  | none => .error .notJson
  | some (.arr (.str label :: rest)) => .ok (label, rest)
  | some (.arr _) => .error .noLabel
  | some _ => .error .notArray

def textOf : Json → Except FrameFault String
  | .str s => .ok s
  | _ => .error .notText

end Frame

namespace ClientFrame

def toJson : ClientFrame → Json
  | req sub filter => .arr [.str "REQ", .str sub, filter.toJson]
  | close sub => .arr [.str "CLOSE", .str sub]

def encode (f : ClientFrame) : String := f.toJson.text

def ofParts (label : String) (rest : List Json) : Except FrameFault ClientFrame :=
  match label, rest with
  | "REQ", [sub, filter] =>
    match Filter.ofJson? filter with
    | none => .error .badFilter
    | some filter => (Frame.textOf sub).map fun sub => req sub filter
  | "CLOSE", [sub] => (Frame.textOf sub).map close
  | label, rest => .error (.unexpected .client label (rest.length + 1))

def decodeChars (chars : List Char) : Except FrameFault ClientFrame :=
  match Frame.split chars with
  | .error fault => .error fault
  | .ok (label, rest) => ofParts label rest

def decode (text : String) : Except FrameFault ClientFrame := decodeChars text.toList

end ClientFrame

namespace RelayFrame

def toJson : RelayFrame → Json
  | event sub payload => .arr [.str "EVENT", .str sub, payload]
  | eose sub => .arr [.str "EOSE", .str sub]
  | closed sub reason => .arr [.str "CLOSED", .str sub, .str reason]
  | notice text => .arr [.str "NOTICE", .str text]

def encode (f : RelayFrame) : String := f.toJson.text

/-- The frame of a label and the values after it. A relay may close without giving a reason, and
may say more after it. -/
def ofParts (label : String) (rest : List Json) : Except FrameFault RelayFrame :=
  match label, rest with
  | "EVENT", [sub, payload] => (Frame.textOf sub).map fun sub => event sub payload
  | "EOSE", [sub] => (Frame.textOf sub).map eose
  | "CLOSED", sub :: more =>
    (Frame.textOf sub).map fun sub => closed sub ((more.head?.bind Json.text?).getD "")
  | "NOTICE", [text] => (Frame.textOf text).map notice
  | label, rest => .error (.unexpected .relay label (rest.length + 1))

def decodeChars (chars : List Char) : Except FrameFault RelayFrame :=
  match Frame.split chars with
  | .error fault => .error fault
  | .ok (label, rest) => ofParts label rest

def decode (text : String) : Except FrameFault RelayFrame := decodeChars text.toList

end RelayFrame

end Harvest
