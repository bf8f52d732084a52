import BoolNat.Term.Text
set_option autoImplicit false

/-! # Reading the written form

A term is read off the front of a text, and what stands behind it is handed back.  Every term
begins with a word, which is read as far as it goes and tells the shape (`Keyword.read`).  Behind
the word stand the parts, each between parentheses if and only if it is to be
(`Term.readEnclosed`), with fixed words between the parts of a conditional.

The words of the calculus come first.  Which others stand for foreign leaves, and for which, is for
the caller to say, with a function `leaf?`.

`Term.readWithin` goes down a bounded number of levels, and `Term.ofText?` allows one more than the
text has letters, which is always enough.
-/

namespace BoolNat

/-- A character that a word may have. -/
def isWordChar (c : Char) : Bool := c ≠ ' ' && c ≠ '(' && c ≠ ')'

section
variable (leaf? : String → Option Foreign)

namespace Keyword

def ofText? (text : String) : Option Keyword :=
  (reserved.find? (·.text = text)).or (((leaf? text).filter (·.text = text)).map .foreign)

/-- The keyword in front of a text, and what stands behind it. -/
def read (text : List Char) : Option (Keyword × List Char) :=
  (ofText? leaf? (String.ofList (text.takeWhile isWordChar))).map (·, text.dropWhile isWordChar)

end Keyword

namespace Term

/-- Read a part that stands between parentheses if and only if `parens` says so of it. -/
def readEnclosed (parens : Term → Bool) (read : List Char → Option (Term × List Char)) :
    List Char → Option (Term × List Char)
  | '(' :: text =>
    match read text with
    | some (t, ')' :: rest) => if parens t then some (t, rest) else none
    | _ => none
  | text =>
    match read text with
    | some (t, rest) => if parens t then none else some (t, rest)
    | none => none

/-- Read the parts that stand behind a keyword, each with `read`. -/
def readParts (read : List Char → Option (Term × List Char)) (text : List Char) :
    Keyword → Option (Term × List Char)
  | .tru => some (.tru, text)
  | .fls => some (.fls, text)
  | .zero => some (.zero, text)
  | .foreign leaf => some (.foreign leaf, text)
  | .operator op => do
    let (t, text) ← readEnclosed (!·.isConstant) read (← [' '].isPrefixOf? text)
    return (op.apply t, text)
  | .conditional => do
    let (c, text) ← readEnclosed isConditional read (← [' '].isPrefixOf? text)
    let (t, text) ← readEnclosed isConditional read (← " then ".toList.isPrefixOf? text)
    let (e, text) ← readEnclosed isConditional read (← " else ".toList.isPrefixOf? text)
    return (.ite c t e, text)

/-- The term of at most so many levels in front of a text, and what stands behind it. -/
def readWithin : (levels : Nat) → List Char → Option (Term × List Char)
  | 0, _ => none
  | levels + 1, text => do
    let (keyword, text) ← Keyword.read leaf? text
    readParts (readWithin levels) text keyword

/-- The term a text is the written form of, if there is one. -/
def ofText? (text : String) : Option Term :=
  match readWithin leaf? (text.length + 1) text.toList with
  | some (t, []) => some t
  | _ => none

end Term

end

end BoolNat
