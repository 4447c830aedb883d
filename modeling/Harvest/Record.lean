import Harvest.Event
import Harvest.Relay

/-! Stored records: values as bytes, one after the other, with nothing between them. A number is
written seven bits a byte, the lowest first, and every byte but the last has its high bit set. A
text or a list is preceded by its length, an optional value by zero or one. -/

namespace Harvest

inductive RecordFault
  | ended
  | badVarint
  | badBool
  | badOption
  | badText
  | unknownVariant
deriving DecidableEq, Repr

def RecordFault.message : RecordFault → String
  | ended => "Hit the end of buffer, expected more data"
  | badVarint => "Found a varint that didn't terminate. Is the usize too big for this platform?"
  | badBool => "Found a bool that wasn't 0 or 1"
  | badOption => "Found an Option discriminant that wasn't 0 or 1"
  | badText => "Tried to parse invalid utf-8"
  | unknownVariant => "Serde Deserialization Error"

namespace Record

/-! ## Writing -/

def putNat (n : Nat) : List UInt8 :=
  if n < 128 then [UInt8.ofNat n] else UInt8.ofNat (n % 128 + 128) :: putNat (n / 128)
termination_by n
decreasing_by omega

def putText (s : String) : List UInt8 :=
  let bytes := s.toUTF8.toList
  putNat bytes.length ++ bytes

def putBool (b : Bool) : List UInt8 := [if b then 1 else 0]

def putOption (put : α → List UInt8) : Option α → List UInt8
  | none => [0]
  | some a => 1 :: put a

def putList (put : α → List UInt8) (items : List α) : List UInt8 :=
  putNat items.length ++ items.flatMap put

/-! ## Reading -/

/-- Reads a value from the front of some bytes, and leaves the bytes after it. -/
abbrev Get (α : Type) := List UInt8 → Except RecordFault (α × List UInt8)

def Get.bind (get : Get α) (f : α → Get β) : Get β := fun bytes =>
  match get bytes with
  | .ok (a, rest) => f a rest
  | .error fault => .error fault

def Get.pure (a : α) : Get α := fun bytes => .ok (a, bytes)

instance : Monad Get where
  pure := Get.pure
  bind := Get.bind

def getByte : Get UInt8
  | [] => .error .ended
  | b :: rest => .ok (b, rest)

/-- Reads a number of at most `places` bytes, the last of which, if all are used, is at most
`top`. -/
def getNat (top : Nat) : Nat → Get Nat
  | 0, _ => .error .badVarint
  | _ + 1, [] => .error .ended
  | places + 1, b :: rest =>
    if b.toNat < 128 then
      if places = 0 ∧ top < b.toNat then .error .badVarint else .ok (b.toNat, rest)
    else
      match getNat top places rest with
      | .ok (n, rest) => .ok (b.toNat - 128 + 128 * n, rest)
      | .error fault => .error fault

/-- A number of 64 bits has at most ten bytes, with one bit in the last. -/
def getNat64 : Get Nat := getNat 1 10

/-- A number of 32 bits has at most five bytes, with four bits in the last. -/
def getNat32 : Get Nat := getNat 15 5

def getUInt64 : Get UInt64 := do return UInt64.ofNat (← getNat64)

def getUInt32 : Get UInt32 := do return UInt32.ofNat (← getNat32)

def getBytes (n : Nat) : Get (List UInt8) := fun bytes =>
  if n ≤ bytes.length then .ok (bytes.take n, bytes.drop n) else .error .ended

def getText : Get String := do
  let bytes ← getBytes (← getNat64)
  match String.fromUTF8? (ByteArray.mk bytes.toArray) with
  | some s => Get.pure s
  | none => fun _ => .error .badText

def getBool : Get Bool := do
  let b ← getByte
  if b = 0 then Get.pure false
  else if b = 1 then Get.pure true
  else fun _ => .error .badBool

def getOption (get : Get α) : Get (Option α) := do
  let b ← getByte
  if b = 0 then Get.pure none
  else if b = 1 then return some (← get)
  else fun _ => .error .badOption

def getItems (get : Get α) : Nat → Get (List α)
  | 0 => Get.pure []
  | n + 1 => do
    let a ← get
    let rest ← getItems get n
    return a :: rest

/-- Reads a list. A length that the bytes cannot hold is met by their end. -/
def getList (get : Get α) : Get (List α) := do
  let n ← getNat64
  getItems get n

/-- The value at the front of some bytes; what follows it does not matter. -/
def read (get : Get α) (bytes : List UInt8) : Except RecordFault α :=
  (get bytes).map Prod.fst

/-! ## Relays -/

def putRoute : Route → List UInt8
  | .direct => putNat 0
  | .proxied => putNat 1

def getRoute : Get Route := do
  let n ← getNat32
  if n = 0 then Get.pure .direct
  else if n = 1 then Get.pure .proxied
  else fun _ => .error .unknownVariant

def putUInt64 (n : UInt64) : List UInt8 := putNat n.toNat

def putRelay (r : Relay) : List UInt8 :=
  putText r.id ++ putRoute r.route ++ putOption putUInt64 r.overrides.requestTimeout ++
    putOption putUInt64 r.overrides.budget ++ putOption putUInt64 r.overrides.resultCap ++
    putOption putUInt64 r.overrides.minInterval ++ putBool r.overrides.enabled

def getRelay : Get Relay := do
  let id ← getText
  let route ← getRoute
  let requestTimeout ← getOption getUInt64
  let budget ← getOption getUInt64
  let resultCap ← getOption getUInt64
  let minInterval ← getOption getUInt64
  let enabled ← getBool
  return { id, route, overrides := { requestTimeout, budget, resultCap, minInterval, enabled } }

end Record

/-! ## Events -/

/-- An event as it is kept, with the relay that it was first seen on and the stamp of that. -/
structure StoredEvent where
  event : Event
  firstRelay : RelayId
  observedAt : UInt64
deriving DecidableEq

namespace Record

def putEvent (e : Event) : List UInt8 :=
  putText e.id ++ putText e.pubkey ++ putUInt64 e.createdAt ++ putNat e.kind.toNat ++
    putList (putList putText) e.tags ++ putText e.content ++ putText e.sig

def getEvent : Get Event := do
  let id ← getText
  let pubkey ← getText
  let createdAt ← getUInt64
  let kind ← getUInt32
  let tags ← getList (getList getText)
  let content ← getText
  let sig ← getText
  return { id, pubkey, createdAt, kind, tags, content, sig }

def putStoredEvent (e : StoredEvent) : List UInt8 :=
  putEvent e.event ++ putText e.firstRelay ++ putUInt64 e.observedAt

def getStoredEvent : Get StoredEvent := do
  let event ← getEvent
  let firstRelay ← getText
  let observedAt ← getUInt64
  return { event, firstRelay, observedAt }

end Record

end Harvest
