import Harvest.Address

/-! Asking a proxy for a tunnel: a greeting that offers no authentication, then a request with the
name of the host, then the answer with an address that is read and dropped. What follows the answer
belongs to the tunnel and is not touched. -/

namespace Harvest.Socks

/-- Bytes that have come in, in the pieces in which they came. -/
abbrev Chunks := List (List UInt8)

/-- Takes `n` bytes off the front; none if there are not that many. -/
def take : Nat → Chunks → Option (List UInt8 × Chunks)
  | 0, chunks => some ([], chunks)
  | _ + 1, [] => none
  | n + 1, chunk :: rest =>
    if chunk.length ≤ n then
      (take (n + 1 - chunk.length) rest).map fun (bytes, rest) => (chunk ++ bytes, rest)
    else some (chunk.take (n + 1), chunk.drop (n + 1) :: rest)
termination_by _ chunks => chunks.length

inductive Fault
  | hostTooLong
  /-- The proxy chose another method, or speaks another version. -/
  | methodRefused (version method : UInt8)
  | badVersion
  | connectFailed (code : UInt8)
  | badAddressType (type : UInt8)
deriving DecidableEq, Repr

def Fault.message : Fault → String
  | hostTooLong => "host name too long"
  | methodRefused version method =>
    "proxy refused no-auth method: [" ++ toString version ++ ", " ++ toString method ++ "]"
  | badVersion => "bad reply version"
  | connectFailed code => "connect failed, code " ++ toString code
  | badAddressType type => "bad address type " ++ toString type

/-- How far one side of the exchange came. -/
inductive Progress (α : Type)
  /-- More bytes are needed than have come in. -/
  | short
  | failed (fault : Fault) (unread : Chunks)
  | done (value : α) (unread : Chunks)

def hostBytes (a : Address) : List UInt8 := a.host.toUTF8.toList

/-- A host name has at most 255 bytes. -/
def hostFits (a : Address) : Bool := (hostBytes a).length ≤ 255

/-- Version five, one method offered: no authentication. -/
def greeting : List UInt8 := [5, 1, 0]

/-- Connect to a named host: its length, its name and the port, high byte first. -/
def request (a : Address) : List UInt8 :=
  [5, 1, 0, 3, UInt8.ofNat (hostBytes a).length] ++ hostBytes a ++
    [(a.port >>> 8).toUInt8, a.port.toUInt8]

def readChoice (chunks : Chunks) : Progress Unit :=
  match take 2 chunks with
  | some ([version, method], rest) =>
    if version = 5 ∧ method = 0 then .done () rest
    else .failed (.methodRefused version method) rest
  | _ => .short

/-- Reads and drops an address of `n` bytes and its port. -/
def readBound (n : Nat) (chunks : Chunks) : Progress Unit :=
  match take (n + 2) chunks with
  | some (_, rest) => .done () rest
  | none => .short

def readReply (chunks : Chunks) : Progress Unit :=
  match take 4 chunks with
  | some ([version, code, _, type], rest) =>
    if version ≠ 5 then .failed .badVersion rest
    else if code ≠ 0 then .failed (.connectFailed code) rest
    else if type = 1 then readBound 4 rest
    else if type = 4 then readBound 16 rest
    else if type = 3 then
      match take 1 rest with
      | some ([n], rest) => readBound n.toNat rest
      | _ => .short
    else .failed (.badAddressType type) rest
  | _ => .short

structure Exchange where
  result : Except LinkFault Unit
  sent : List UInt8
  unread : List UInt8
deriving Inhabited

/-- The exchange with a proxy that has sent `chunks` and then closes. -/
def connect (a : Address) (chunks : Chunks) : Exchange :=
  let early : LinkFault := .reset "early eof"
  if !hostFits a then
    { result := .error (.proxy Fault.hostTooLong.message), sent := [], unread := chunks.flatten }
  else
    match readChoice chunks with
    | .short => { result := .error early, sent := greeting, unread := [] }
    | .failed fault rest =>
      { result := .error (.proxy fault.message), sent := greeting, unread := rest.flatten }
    | .done _ rest =>
      let sent := greeting ++ request a
      match readReply rest with
      | .short => { result := .error early, sent, unread := [] }
      | .failed fault rest =>
        { result := .error (.proxy fault.message), sent, unread := rest.flatten }
      | .done _ rest => { result := .ok (), sent, unread := rest.flatten }

end Harvest.Socks
