import Harvest.Json.Draft
import Harvest.Site

/-! Reading the description of a site: the address of its proxy, if it has one, and its relays with
the events that they hold. -/

namespace Harvest

/-- The value of a member that may be left out; what stands there must be a value. -/
def memberOr (v : Json) (name : String) (default : α) (read : Json → Option α) : Option α :=
  match v.get? name with
  | none => some default
  | some w => read w

def Host.ofJson? (v : Json) : Option Host := do
  let addr ← (← v.get? "addr").text?
  let events ← memberOr v "events" [] fun w => w.items?.bind fun items => items.mapM Event.ofJson?
  let cap ← memberOr v "cap" none fun w => (w.natBelow? UInt64.size).map some
  let junk ← memberOr v "junk" 0 (Json.natBelow? UInt32.size)
  let refusal ← memberOr v "refusal" none fun w => w.text?.map some
  let listens ← memberOr v "listens" true Json.bool?
  return { addr, listens, relay := { events, cap, junk, refusal } }

def Site.ofJson? (v : Json) : Option Site := do
  let hosts ← memberOr v "relays" [] fun w => w.items?.bind fun items => items.mapM Host.ofJson?
  let proxy ← memberOr v "proxy" none fun w => w.text?.map some
  return { hosts, proxy }

def Site.ofText? (text : String) : Option Site := (Json.ofText? text).bind ofJson?

end Harvest
