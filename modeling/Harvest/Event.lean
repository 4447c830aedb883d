import Harvest.Json.Printer
import Harvest.Digest.Sha256
import Harvest.Text.Hex

/-! Events that relays hold. The id of an event is the hash of its canonical text, so an event
whose id does not fit its content is refused. -/

namespace Harvest

structure Event where
  id : String
  pubkey : String
  createdAt : UInt64
  kind : UInt32
  tags : List (List String)
  content : String
  sig : String
deriving DecidableEq, Inhabited

inductive HexField
  | id
  | pubkey
  | sig
deriving DecidableEq, Repr

namespace HexField

def name : HexField → String
  | id => "id"
  | pubkey => "pubkey"
  | sig => "sig"

def size : HexField → Nat
  | id => 64
  | pubkey => 64
  | sig => 128

end HexField

inductive ItemFault
  | shape
  | badHex (field : HexField)
  | idMismatch (claimed computed : String)
deriving DecidableEq, Repr

def ItemFault.kind : ItemFault → String
  | shape => "Shape"
  | badHex _ => "BadHex"
  | idMismatch .. => "IdMismatch"

def ItemFault.message : ItemFault → String
  | shape => "not an event object"
  | badHex field => s!"bad {field.name}: expected {field.size} hex chars"
  | idMismatch claimed computed => s!"id mismatch: claimed {claimed}, computed {computed}"

namespace Event

def stamp (e : Event) : Nat := e.createdAt.toNat

def tagsJson (tags : List (List String)) : Json := .ofList (.ofList .str) tags

/-- What the id is the hash of. -/
def canonical (e : Event) : Json :=
  .arr [.nat 0, .str e.pubkey, .nat e.createdAt.toNat, .nat e.kind.toNat, tagsJson e.tags,
    .str e.content]

def canonicalText (e : Event) : String := e.canonical.text

def computedId (e : Event) : String :=
  String.ofList (Text.Hex.encode (Digest.Sha256.digest e.canonicalText.toUTF8.toList))

/-- The event with these contents, its id computed and its signature all zeros. -/
def build (pubkey : String) (createdAt : UInt64) (kind : UInt32) (tags : List (List String))
    (content : String) : Event :=
  let unnamed : Event :=
    { id := "", pubkey, createdAt, kind, tags, content
      sig := String.ofList (List.replicate 128 '0') }
  { unnamed with id := unnamed.computedId }

def hexText (e : Event) : HexField → String
  | .id => e.id
  | .pubkey => e.pubkey
  | .sig => e.sig

/-- Whether a text has exactly the digits that its field asks for. -/
def hexOk (field : HexField) (text : String) : Bool :=
  text.utf8ByteSize == field.size && text.toList.all Text.Hex.isDigit

/-- Checks the digits of id, key and signature, then the id against the content. -/
def validate (e : Event) : Except ItemFault Unit :=
  match [HexField.id, .pubkey, .sig].find? fun field => !hexOk field (e.hexText field) with
  | some field => .error (.badHex field)
  | none =>
    let computed := e.computedId
    if computed = e.id then .ok () else .error (.idMismatch e.id computed)

def toJson (e : Event) : Json :=
  .obj [("content", .str e.content), ("created_at", .nat e.createdAt.toNat), ("id", .str e.id),
    ("kind", .nat e.kind.toNat), ("pubkey", .str e.pubkey), ("sig", .str e.sig),
    ("tags", tagsJson e.tags)]

/-! ## Reading -/

def tags? (v : Json) : Option (List (List String)) :=
  v.items?.bind fun items =>
    items.mapM fun tag => tag.items?.bind fun texts => texts.mapM Json.text?

def ofFields? : List Json → Option Event
  | [id, pubkey, createdAt, kind, tags, content, sig] => do
    return {
      id := ← id.text?
      pubkey := ← pubkey.text?
      createdAt := UInt64.ofNat (← createdAt.natBelow? UInt64.size)
      kind := UInt32.ofNat (← kind.natBelow? UInt32.size)
      tags := ← tags? tags
      content := ← content.text?
      sig := ← sig.text? }
  | _ => none

def fieldNames : List String := ["id", "pubkey", "created_at", "kind", "tags", "content", "sig"]

/-- Reads the fields of an event, by their names or in their order, without any check. -/
def ofJson? (v : Json) : Option Event := (v.fields? fieldNames).bind ofFields?

def parse (v : Json) : Except ItemFault Event :=
  match ofJson? v with
  | none => .error .shape
  | some e => e.validate.map fun _ => e

end Event

end Harvest
