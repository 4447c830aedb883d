import Harvest.Json.Literal
import Harvest.Text.Hex

/-! A JSON text as it was written: members in their order and as often as they came, numbers by
their digits. A text whose escapes name half of a surrogate pair has no content. Such parts do no
harm where nothing looks at them, so a draft holds them and only reading its value refuses them. -/

namespace Harvest.Json

inductive Draft
  | null
  | bool (value : Bool)
  | num (literal : Literal)
  | str (content : Option String)
  | arr (items : List Draft)
  | obj (members : List (Option String × Draft))
deriving Inhabited

namespace Draft

/-- Arrays and objects may be nested this deep. -/
def deepest : Nat := 127

mutual

/-- The value of a draft, if arrays and objects are nested at most `room` deep in it. Of several
members of one name the last one counts. -/
def json? (room : Nat) : Draft → Option Json
  | .null => some .null
  | .bool b => some (.bool b)
  | .num l => l.number?.map .num
  | .str s => s.map .str
  | .arr items =>
    match room with
    | 0 => none
    | room + 1 => (itemsJson? room items).map .arr
  | .obj members =>
    match room with
    | 0 => none
    | room + 1 => (membersJson? room members).map Json.object

def itemsJson? (room : Nat) : List Draft → Option (List Json)
  | [] => some []
  | d :: ds =>
    match d.json? room, itemsJson? room ds with
    | some v, some vs => some (v :: vs)
    | _, _ => none

def membersJson? (room : Nat) : List (Option String × Draft) → Option (List (String × Json))
  | [] => some []
  | (n, d) :: ms =>
    match n, d.json? room, membersJson? room ms with
    | some n, some v, some vs => some ((n, v) :: vs)
    | _, _, _ => none

end

/-! ## Reading the text -/

def isBlank (c : Char) : Bool := c = ' ' || c = '\n' || c = '\t' || c = '\r'

def skipBlanks (cs : List Char) : List Char := cs.dropWhile isBlank

/-- A piece of a quoted text: a character, or an escape that names a unit of sixteen bits. -/
inductive Piece
  | char (c : Char)
  | unit (n : Nat)

def hexUnit? (a b c d : Char) : Option Nat :=
  match Text.Hex.value? a, Text.Hex.value? b, Text.Hex.value? c, Text.Hex.value? d with
  | some a, some b, some c, some d => some (((a * 16 + b) * 16 + c) * 16 + d)
  | _, _, _, _ => none

/-- The character that a backslash and `c` stand for. -/
def escaped? (c : Char) : Option Char :=
  if c = '"' then some '"'
  else if c = '\\' then some '\\'
  else if c = '/' then some '/'
  else if c = 'b' then some '\x08'
  else if c = 'f' then some '\x0c'
  else if c = 'n' then some '\n'
  else if c = 'r' then some '\r'
  else if c = 't' then some '\t'
  else none

/-- Reads the pieces of a quoted text after its opening quote, newest first in `done`. -/
def pieces (done : List Piece) : List Char → Option (List Piece × List Char)
  | [] => none
  | '"' :: rest => some (done.reverse, rest)
  | '\\' :: 'u' :: a :: b :: c :: d :: rest =>
    match hexUnit? a b c d with
    | some n => pieces (.unit n :: done) rest
    | none => none
  | '\\' :: c :: rest =>
    match escaped? c with
    | some e => pieces (.char e :: done) rest
    | none => none
  | c :: rest => if c.toNat < 32 ∨ c = '\\' then none else pieces (.char c :: done) rest

def isHigh (n : Nat) : Bool := 0xD800 ≤ n && n < 0xDC00

def isLow (n : Nat) : Bool := 0xDC00 ≤ n && n < 0xE000

/-- The characters of a quoted text; none if half of a surrogate pair stands alone. -/
def join (done : List Char) : List Piece → Option (List Char)
  | [] => some done.reverse
  | .char c :: rest => join (c :: done) rest
  | [.unit n] => if isHigh n || isLow n then none else some (Char.ofNat n :: done).reverse
  | .unit n :: .unit m :: rest =>
    if isHigh n then
      if isLow m then
        join (Char.ofNat (0x10000 + (n - 0xD800) * 0x400 + (m - 0xDC00)) :: done) rest
      else none
    else if isLow n then none
    else join (Char.ofNat n :: done) (.unit m :: rest)
  | .unit n :: .char c :: rest =>
    if isHigh n || isLow n then none else join (c :: Char.ofNat n :: done) rest

def content (cs : List Char) : Option (Option String × List Char) :=
  (pieces [] cs).map fun (ps, rest) => ((join [] ps).map String.ofList, rest)

def digits (cs : List Char) : List Char × List Char := cs.span Char.isDigit

def fraction : List Char → Option (List Char × List Char)
  | '.' :: cs =>
    match digits cs with
    | ([], _) => none
    | found => some found
  | cs => some ([], cs)

def exponent : List Char → Option (Option (Bool × List Char) × List Char)
  | c :: cs =>
    if c = 'e' ∨ c = 'E' then
      let (down, cs) :=
        match cs with
        | '-' :: cs => (true, cs)
        | '+' :: cs => (false, cs)
        | cs => (false, cs)
      match digits cs with
      | ([], _) => none
      | (found, rest) => some (some (down, found), rest)
    else some (none, c :: cs)
  | [] => some (none, [])

/-- Reads a number. No digit may follow a zero at its start. -/
def literal (cs : List Char) : Option (Literal × List Char) :=
  let (negative, cs) :=
    match cs with
    | '-' :: cs => (true, cs)
    | cs => (false, cs)
  match digits cs with
  | ([], _) => none
  | ('0' :: _ :: _, _) => none
  | (whole, cs) =>
    match fraction cs with
    | none => none
    | some (places, cs) =>
      match exponent cs with
      | none => none
      | some (power, cs) =>
        some ({ negative, whole, fraction := places, exponent := power }, cs)

mutual

/-- Reads one value from the start of a text. The fuel bounds the nesting and the number of items;
the length of the text is always enough. -/
def value : Nat → List Char → Option (Draft × List Char)
  | 0, _ => none
  | fuel + 1, cs =>
    match skipBlanks cs with
    | 'n' :: 'u' :: 'l' :: 'l' :: rest => some (.null, rest)
    | 't' :: 'r' :: 'u' :: 'e' :: rest => some (.bool true, rest)
    | 'f' :: 'a' :: 'l' :: 's' :: 'e' :: rest => some (.bool false, rest)
    | '"' :: rest => (content rest).map fun (s, rest) => (.str s, rest)
    | '[' :: rest =>
      match skipBlanks rest with
      | ']' :: rest => some (.arr [], rest)
      | rest =>
        match value fuel rest with
        | none => none
        | some (v, rest) => (moreItems fuel rest).map fun (vs, rest) => (.arr (v :: vs), rest)
    | '{' :: rest =>
      match skipBlanks rest with
      | '}' :: rest => some (.obj [], rest)
      | rest =>
        match member fuel rest with
        | none => none
        | some (m, rest) => (moreMembers fuel rest).map fun (ms, rest) => (.obj (m :: ms), rest)
    | cs => (literal cs).map fun (l, rest) => (.num l, rest)

def moreItems : Nat → List Char → Option (List Draft × List Char)
  | 0, _ => none
  | fuel + 1, cs =>
    match skipBlanks cs with
    | ']' :: rest => some ([], rest)
    | ',' :: rest =>
      match value fuel rest with
      | none => none
      | some (v, rest) => (moreItems fuel rest).map fun (vs, rest) => (v :: vs, rest)
    | _ => none

def member : Nat → List Char → Option ((Option String × Draft) × List Char)
  | 0, _ => none
  | fuel + 1, cs =>
    match skipBlanks cs with
    | '"' :: rest =>
      match content rest with
      | none => none
      | some (name, rest) =>
        match skipBlanks rest with
        | ':' :: rest => (value fuel rest).map fun (v, rest) => ((name, v), rest)
        | _ => none
    | _ => none

def moreMembers : Nat → List Char → Option (List (Option String × Draft) × List Char)
  | 0, _ => none
  | fuel + 1, cs =>
    match skipBlanks cs with
    | '}' :: rest => some ([], rest)
    | ',' :: rest =>
      match member fuel rest with
      | none => none
      | some (m, rest) => (moreMembers fuel rest).map fun (ms, rest) => (m :: ms, rest)
    | _ => none

end

/-- The draft of a whole text: one value, with nothing but blanks around it. -/
def ofChars? (cs : List Char) : Option Draft :=
  match value (2 * cs.length + 2) cs with
  | some (v, rest) => if skipBlanks rest = [] then some v else none
  | none => none

def ofText? (s : String) : Option Draft := ofChars? s.toList

end Draft

def ofChars? (cs : List Char) : Option Json :=
  (Draft.ofChars? cs).bind (Draft.json? Draft.deepest)

def ofText? (s : String) : Option Json := ofChars? s.toList

end Harvest.Json
