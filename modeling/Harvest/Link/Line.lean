/-! Cutting a stream of bytes into lines. A line ends at a newline, and a carriage return before it
is dropped. A line that is too long is a fault as soon as it is too long, and the rest of it is
passed over; a line whose bytes are no text is a fault too. -/

namespace Harvest

inductive LineFault
  | tooLong
  | notText
deriving DecidableEq, Repr

def LineFault.message : LineFault → String
  | tooLong => "max line length exceeded"
  | notText => "Unable to decode input as UTF8"

inductive Line
  | text (content : String)
  | broken (fault : LineFault)
deriving DecidableEq, Repr

structure LineReader where
  /-- The newest byte first. -/
  partialBytes : List UInt8 := []
  size : Nat := 0
  /-- The line was too long, and its rest is passed over. -/
  discarding : Bool := false
deriving DecidableEq

namespace LineReader

def longest : Nat := 1048576

def newline : UInt8 := 10

def carriageReturn : UInt8 := 13

/-- The line of these bytes, given the newest first. -/
def finish (newestFirst : List UInt8) : Line :=
  let bytes :=
    match newestFirst with
    | b :: rest => if b = carriageReturn then rest else newestFirst
    | [] => []
  match String.fromUTF8? (ByteArray.mk bytes.reverse.toArray) with
  | some s => .text s
  | none => .broken .notText

/-- Takes in one byte; a line comes out when it ends or grows too long. -/
def step (r : LineReader) (b : UInt8) : LineReader × Option Line :=
  if r.discarding then (if b = newline then {} else r, none)
  else if b = newline then ({}, some (finish r.partialBytes))
  else if longest ≤ r.size then ({ discarding := true }, some (.broken .tooLong))
  else ({ r with partialBytes := b :: r.partialBytes, size := r.size + 1 }, none)

/-- Takes in bytes, newest lines first in `done`. -/
def feedOnto (r : LineReader) (done : List Line) : List UInt8 → LineReader × List Line
  | [] => (r, done.reverse)
  | b :: rest =>
    match r.step b with
    | (r, none) => feedOnto r done rest
    | (r, some line) => feedOnto r (line :: done) rest

def feed (r : LineReader) (bytes : List UInt8) : LineReader × List Line := r.feedOnto [] bytes

/-- The stream ends: what stands after the last newline is a line of its own, unless it is nothing
or a lone carriage return. -/
def flush (r : LineReader) : List Line :=
  if r.partialBytes = [] ∨ r.partialBytes = [carriageReturn] then []
  else [finish r.partialBytes]

end LineReader

end Harvest
