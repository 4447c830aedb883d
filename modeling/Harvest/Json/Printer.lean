import Harvest.Json
import Harvest.Decimal.Shortest

/-! Writing JSON without blanks, and with one member a line. Only quotes, backslashes and control
characters are escaped, so a written text holds no line break. -/

namespace Harvest.Json

/-- Doubles are written with a point in place up to sixteen digits before it and five after it,
and with at least one place after the point. -/
def doubles : Decimal.Layout :=
  { least := -5, most := 16, whole := ['.', '0'], mark := 'e', plus := ['+'] }

def Number.chars : Number → List Char
  | .int i => if i < 0 then '-' :: Nat.toDigits 10 i.natAbs else Nat.toDigits 10 i.natAbs
  | .real bits => Decimal.chars doubles bits

def escape (c : Char) : List Char :=
  if c = '"' then ['\\', '"']
  else if c = '\\' then ['\\', '\\']
  else if c = '\n' then ['\\', 'n']
  else if c = '\r' then ['\\', 'r']
  else if c = '\t' then ['\\', 't']
  else if c = '\x08' then ['\\', 'b']
  else if c = '\x0c' then ['\\', 'f']
  else if c.toNat < 32 then
    ['\\', 'u', '0', '0', Nat.digitChar (c.toNat / 16), Nat.digitChar (c.toNat % 16)]
  else [c]

def quoted (text : List Char) : List Char := '"' :: (text.flatMap escape ++ ['"'])

mutual

def chars : Json → List Char
  | .null => ['n', 'u', 'l', 'l']
  | .bool true => ['t', 'r', 'u', 'e']
  | .bool false => ['f', 'a', 'l', 's', 'e']
  | .num n => n.chars
  | .str s => quoted s.toList
  | .arr [] => ['[', ']']
  | .arr (v :: vs) => '[' :: (v.chars ++ itemChars vs)
  | .obj [] => ['{', '}']
  | .obj ((n, v) :: ms) => '{' :: (quoted n.toList ++ ':' :: (v.chars ++ memberChars ms))

def itemChars : List Json → List Char
  | [] => [']']
  | v :: vs => ',' :: (v.chars ++ itemChars vs)

def memberChars : List (String × Json) → List Char
  | [] => ['}']
  | (n, v) :: ms => ',' :: (quoted n.toList ++ ':' :: (v.chars ++ memberChars ms))

end

def text (v : Json) : String := String.ofList v.chars

/-! ## One member a line -/

def newline (level : Nat) : List Char := '\n' :: List.replicate (2 * level) ' '

mutual

def prettyChars (level : Nat) : Json → List Char
  | .arr (v :: vs) =>
    '[' :: (newline (level + 1) ++ v.prettyChars (level + 1) ++ prettyItems level vs)
  | .obj ((n, v) :: ms) =>
    '{' :: (newline (level + 1) ++ quoted n.toList ++ ':' :: ' ' ::
      (v.prettyChars (level + 1) ++ prettyMembers level ms))
  | v => v.chars

def prettyItems (level : Nat) : List Json → List Char
  | [] => newline level ++ [']']
  | v :: vs => ',' :: (newline (level + 1) ++ v.prettyChars (level + 1) ++ prettyItems level vs)

def prettyMembers (level : Nat) : List (String × Json) → List Char
  | [] => newline level ++ ['}']
  | (n, v) :: ms =>
    ',' :: (newline (level + 1) ++ quoted n.toList ++ ':' :: ' ' ::
      (v.prettyChars (level + 1) ++ prettyMembers level ms))

end

def pretty (v : Json) : String := String.ofList (v.prettyChars 0)

end Harvest.Json
