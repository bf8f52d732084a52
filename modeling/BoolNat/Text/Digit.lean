set_option autoImplicit false

/-! # Decimal digits

The digits of all scripts.  Each script has its ten digits in a row, so it is enough
to know where the zeros stand.
-/

namespace BoolNat.Text

/-- The zeros of the scripts beyond ASCII, by their code points. -/
def zeros : List Nat :=
  [1632, 1776, 1984, 2406, 2534, 2662, 2790, 2918, 3046, 3174, 3302, 3430, 3558, 3664, 3792, 3872,
  4160, 4240, 6112, 6160, 6470, 6608, 6784, 6800, 6992, 7088, 7232, 7248, 42528, 43216, 43264,
  43472, 43504, 43600, 44016, 65296, 66720, 68912, 69734, 69872, 69942, 70096, 70384, 70736,
  70864, 71248, 71360, 71472, 71904, 72016, 72784, 73040, 73120, 92768, 92864, 93008, 120782,
  120792, 120802, 120812, 120822, 123200, 123632, 125264, 130032]

def asciiDigit? (c : Char) : Option Nat :=
  if '0' ≤ c ∧ c ≤ '9' then some (c.toNat - 48) else none

/-- The value of a digit of any script. -/
def digit? (c : Char) : Option Nat :=
  if c.toNat < 128 then asciiDigit? c
  else (zeros.find? fun z => z ≤ c.toNat ∧ c.toNat < z + 10).map (c.toNat - ·)

/-- A number whose digits so far stand for `n`: digits, and single underscores with a
digit on either side. -/
def numberAfter (digit : Char → Option Nat) (n : Nat) : List Char → Option Nat
  | [] => some n
  | '_' :: c :: rest =>
    match digit c with
    | some d => numberAfter digit (10 * n + d) rest
    | none => none
  | c :: rest =>
    match digit c with
    | some d => numberAfter digit (10 * n + d) rest
    | none => none

/-- The number that a row of digits stands for, in which single underscores may stand
between digits. -/
def number? (digit : Char → Option Nat) : List Char → Option Nat
  | [] => none
  | c :: rest =>
    match digit c with
    | some d => numberAfter digit d rest
    | none => none

/-- The integer that digits with an optional sign stand for. -/
def integer? (digit : Char → Option Nat) : List Char → Option Int
  | '-' :: rest => (number? digit rest).map fun n => -(n : Int)
  | '+' :: rest => (number? digit rest).map Int.ofNat
  | cs => (number? digit cs).map Int.ofNat

end BoolNat.Text
