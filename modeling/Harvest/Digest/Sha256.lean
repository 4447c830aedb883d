/-! The 256-bit secure hash of a byte string. The message is closed by a one bit, filled up with
zeros and its length, and then compressed in blocks of sixteen words. -/

namespace Harvest.Digest.Sha256

structure Chain where
  a : UInt32
  b : UInt32
  c : UInt32
  d : UInt32
  e : UInt32
  f : UInt32
  g : UInt32
  h : UInt32
deriving DecidableEq

def start : Chain :=
  ⟨0x6a09e667, 0xbb67ae85, 0x3c6ef372, 0xa54ff53a, 0x510e527f, 0x9b05688c, 0x1f83d9ab, 0x5be0cd19⟩

def roundConstants : List UInt32 :=
  [0x428a2f98, 0x71374491, 0xb5c0fbcf, 0xe9b5dba5, 0x3956c25b, 0x59f111f1, 0x923f82a4, 0xab1c5ed5,
   0xd807aa98, 0x12835b01, 0x243185be, 0x550c7dc3, 0x72be5d74, 0x80deb1fe, 0x9bdc06a7, 0xc19bf174,
   0xe49b69c1, 0xefbe4786, 0x0fc19dc6, 0x240ca1cc, 0x2de92c6f, 0x4a7484aa, 0x5cb0a9dc, 0x76f988da,
   0x983e5152, 0xa831c66d, 0xb00327c8, 0xbf597fc7, 0xc6e00bf3, 0xd5a79147, 0x06ca6351, 0x14292967,
   0x27b70a85, 0x2e1b2138, 0x4d2c6dfc, 0x53380d13, 0x650a7354, 0x766a0abb, 0x81c2c92e, 0x92722c85,
   0xa2bfe8a1, 0xa81a664b, 0xc24b8b70, 0xc76c51a3, 0xd192e819, 0xd6990624, 0xf40e3585, 0x106aa070,
   0x19a4c116, 0x1e376c08, 0x2748774c, 0x34b0bcb5, 0x391c0cb3, 0x4ed8aa4a, 0x5b9cca4f, 0x682e6ff3,
   0x748f82ee, 0x78a5636f, 0x84c87814, 0x8cc70208, 0x90befffa, 0xa4506ceb, 0xbef9a3f7, 0xc67178f2]

def rotate (x : UInt32) (n : UInt32) : UInt32 := (x >>> n) ||| (x <<< (32 - n))

def extend (words : Array UInt32) : Array UInt32 :=
  let back (n : Nat) := words.getD (words.size - n) 0
  let x := back 15
  let y := back 2
  let s0 := rotate x 7 ^^^ rotate x 18 ^^^ (x >>> 3)
  let s1 := rotate y 17 ^^^ rotate y 19 ^^^ (y >>> 10)
  words.push (back 16 + s0 + back 7 + s1)

def round (s : Chain) (k w : UInt32) : Chain :=
  let s1 := rotate s.e 6 ^^^ rotate s.e 11 ^^^ rotate s.e 25
  let choice := (s.e &&& s.f) ^^^ ((s.e ^^^ 0xffffffff) &&& s.g)
  let t1 := s.h + s1 + choice + k + w
  let s0 := rotate s.a 2 ^^^ rotate s.a 13 ^^^ rotate s.a 22
  let majority := (s.a &&& s.b) ^^^ (s.a &&& s.c) ^^^ (s.b &&& s.c)
  ⟨t1 + (s0 + majority), s.a, s.b, s.c, s.d + t1, s.e, s.f, s.g⟩

def compress (s : Chain) (block : Array UInt32) : Chain :=
  let words := Nat.repeat extend 48 block
  let t := (roundConstants.zip words.toList).foldl (fun t (k, w) => round t k w) s
  ⟨s.a + t.a, s.b + t.b, s.c + t.c, s.d + t.d, s.e + t.e, s.f + t.f, s.g + t.g, s.h + t.h⟩

/-- The words of a byte string, the highest byte of each first. -/
def words (done : Array UInt32) : List UInt8 → Array UInt32
  | a :: b :: c :: d :: rest =>
    words (done.push ((a.toUInt32 <<< 24) ||| (b.toUInt32 <<< 16) ||| (c.toUInt32 <<< 8) |||
      d.toUInt32)) rest
  | _ => done

def bytesOfWord (w : UInt32) : List UInt8 :=
  [(w >>> 24).toUInt8, (w >>> 16).toUInt8, (w >>> 8).toUInt8, w.toUInt8]

/-- A message with its closing bit, zeros and length in bits: a whole number of blocks. -/
def pad (message : List UInt8) : List UInt8 :=
  let size := message.length
  let bits := UInt64.ofNat (8 * size)
  message ++ (0x80 : UInt8) :: (List.replicate ((119 - size % 64) % 64) (0 : UInt8) ++
    bytesOfWord (bits >>> 32).toUInt32 ++ bytesOfWord bits.toUInt32)

/-- Takes in the next word; a block is compressed when it is full. -/
def absorb (state : Chain × Array UInt32) (word : UInt32) : Chain × Array UInt32 :=
  let block := state.2.push word
  if block.size = 16 then (compress state.1 block, #[]) else (state.1, block)

def chain (message : List UInt8) : Chain :=
  ((words #[] (pad message)).foldl absorb (start, #[])).1

def digest (message : List UInt8) : List UInt8 :=
  let s := chain message
  [s.a, s.b, s.c, s.d, s.e, s.f, s.g, s.h].flatMap bytesOfWord

@[simp] theorem length_digest (message : List UInt8) : (digest message).length = 32 := rfl

end Harvest.Digest.Sha256
