import BoolNat.Text.Blank
import BoolNat.Text.Digit
set_option autoImplicit false

/-! # Raw values

What a source gives for a setting, before it is known whether it can be used.  The caller may give
anything, variables have texts.  Every setting is an integer, and a text or a number that is
written with a fraction can stand for one.

A text stands for an integer if it is one between white space, with an optional sign and a fraction
of zeros at most.  Zeros in front do not count, nor do underscores between digits, but between
leading zeros any number of underscores goes, and a minus sign may stand behind these.  What is left
must not be too long.
-/

namespace BoolNat

/-- What a source gives for a field. -/
inductive Raw where
  | missing
  | flag (b : Bool)
  | whole (n : Int)
  /-- a number that is written with a fraction, which may be zero -/
  | real (x : Rat)
  /-- infinite, or no number -/
  | infinite
  | text (s : String)
  /-- anything that cannot stand for a number -/
  | other
  deriving DecidableEq, Repr, Inhabited

/-- Why the value of a field cannot be used. -/
inductive Problem where
  | notAnInteger
  /-- a text that is too long, or a number with a fraction that is too large -/
  | tooLarge
  /-- something that is neither a number nor a text -/
  | notANumber
  | fractional
  | infinite
  /-- a number below the least value -/
  | below (least : Int)
  deriving DecidableEq, Repr, Inhabited

namespace Problem

def kind : Problem → String
  | .notAnInteger => "int_parsing"
  | .tooLarge => "int_parsing_size"
  | .notANumber => "int_type"
  | .fractional => "int_from_float"
  | .infinite => "finite_number"
  | .below _ => "greater_than_equal"

def message : Problem → String
  | .notAnInteger => "Input should be a valid integer, unable to parse string as an integer"
  | .tooLarge => "Unable to parse input string as an integer, exceeded maximum size"
  | .notANumber => "Input should be a valid integer"
  | .fractional => "Input should be a valid integer, got a number with a fractional part"
  | .infinite => "Input should be a finite number"
  | .below least => "Input should be greater than or equal to " ++ toString least

end Problem

namespace Raw

def dropPlus : List Char → List Char
  | '+' :: '-' :: _ => []
  | '+' :: cs => cs
  | cs => cs

/-- A text without a fraction of zeros at its end. -/
def dropZeroFraction (cs : List Char) : List Char :=
  let whole := cs.takeWhile (· ≠ '.')
  match cs.drop whole.length with
  | '.' :: '0' :: zeros => if zeros.all (· = '0') then whole else cs
  | _ => cs

/-- A text from its first digit that is not zero, or from a minus sign in front of it. -/
def dropZeros (cs : List Char) : Option (List Char) :=
  let digits := match cs with
    | '0' :: rest => rest.dropWhile fun c => c = '0' || c = '_'
    | _ => cs
  match digits with
  | [] => if cs.getLast? = some '0' then some ['0'] else none
  | c :: _ => if c.isDigit || c = '-' then some digits else none

/-- Underscores go if there is no doubled one, and none at the ends. -/
def dropUnderscores (cs : List Char) : List Char :=
  if cs.head? = some '_' || cs.getLast? = some '_' || (cs.zip cs.tail).contains ('_', '_') then cs
  else cs.filter (· ≠ '_')

/-- The greatest length of the digits of a text that is read. -/
def maxDigits : Nat := 4300

def integerOfText (s : String) : Except Problem Int :=
  match dropZeros (dropZeroFraction (dropPlus (Text.trim Text.isWhiteSpace s.toList))) with
  | none => .error .notAnInteger
  | some cs =>
    match Text.integer? Text.asciiDigit? (dropUnderscores cs) with
    | none => .error .notAnInteger
    | some n => if maxDigits < (dropUnderscores cs).length then .error .tooLarge else .ok n

/-- From here on no number that is written with a fraction is read, nor is its negation. -/
def tooLargeReal : Nat := 0x8000000000000000

def toInteger : Raw → Except Problem Int
  | .flag b => .ok (if b then 1 else 0)
  | .whole n => .ok n
  | .real x =>
    if x.den ≠ 1 then .error .fractional
    else if x.num.natAbs < tooLargeReal then .ok x.num
    else .error .tooLarge
  | .infinite => .error .infinite
  | .text s => integerOfText s
  | .missing | .other => .error .notANumber

/-- What a variable gives: its text, except that the text `null` stands for no value. -/
def ofVariable (value : String) : Raw := if value = "null" then .missing else .text value

end Raw

end BoolNat
