/-! Blanks and lines. A blank is a character with the property White_Space of Unicode. -/

namespace Harvest.Text.Blank

/-- The blanks, as ranges of code points with both ends. -/
def blanks : List (Nat × Nat) :=
  [(0x9, 0xd), (0x20, 0x20), (0x85, 0x85), (0xa0, 0xa0), (0x1680, 0x1680), (0x2000, 0x200a),
    (0x2028, 0x2029), (0x202f, 0x202f), (0x205f, 0x205f), (0x3000, 0x3000)]

def isBlank (c : Char) : Bool := blanks.any fun (first, last) => first ≤ c.toNat && c.toNat ≤ last

def trim (cs : List Char) : List Char :=
  ((cs.dropWhile isBlank).reverse.dropWhile isBlank).reverse

/-- The lines of a text, each up to a line feed. What follows the last line feed is a line of its
own unless it is empty. -/
def lines : List Char → List (List Char)
  | [] => []
  | c :: rest =>
    if c = '\n' then [] :: lines rest
    else
      match lines rest with
      | [] => [[c]]
      | first :: others => (c :: first) :: others

end Harvest.Text.Blank
