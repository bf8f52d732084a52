set_option autoImplicit false

/-! # Blank characters

Two sets of characters are dropped at the ends of a text: white space, and the wider
set of blanks, which also has the four control characters that separate records.
-/

namespace BoolNat.Text

def isWhiteSpace (c : Char) : Bool :=
  let n := c.toNat
  (9 ≤ n && n ≤ 13) || n = 32 || n = 0x85 || n = 0xA0 || n = 0x1680 ||
    (0x2000 ≤ n && n ≤ 0x200A) || n = 0x2028 || n = 0x2029 || n = 0x202F || n = 0x205F ||
    n = 0x3000

/-- White space, or one of the four separators of records. -/
def isBlank (c : Char) : Bool := isWhiteSpace c || (0x1C ≤ c.toNat && c.toNat ≤ 0x1F)

/-- Drop the characters of a set at the end of a text. -/
def trimRight (drop : Char → Bool) (cs : List Char) : List Char :=
  (cs.reverse.dropWhile drop).reverse

/-- Drop the characters of a set at both ends of a text. -/
def trim (drop : Char → Bool) (cs : List Char) : List Char :=
  trimRight drop (cs.dropWhile drop)

def strip (cs : List Char) : List Char := trim isBlank cs

end BoolNat.Text
