import BoolNat.Term
set_option autoImplicit false

/-! # The written form of a term

Words with a blank between them, and parentheses exactly where a reader needs them:
around the operand of an operator unless it is one of the three constants, and around
a part of a conditional only when it is a conditional itself.  A foreign leaf has its
own text, between parentheses as an operand and bare elsewhere.

`Term.write` puts the text of a term in front of the text that follows it, so
the cost is linear in the length of the text.  Every term begins with a word
that tells its shape, and behind the word stand the parts (`Term.write_eq`).
-/

namespace BoolNat

inductive Keyword where
  | tru
  | fls
  | zero
  | operator (op : Operator)
  | conditional
  /-- what is written for a foreign leaf -/
  | foreign (leaf : Foreign)
  deriving DecidableEq, Repr, Inhabited

namespace Keyword

/-- The keywords of the calculus. -/
def reserved : List Keyword :=
  [.tru, .fls, .zero, .operator .succ, .operator .pred, .operator .isZero, .conditional]

def text : Keyword → String
  | .tru => "true"
  | .fls => "false"
  | .zero => "0"
  | .operator .succ => "succ"
  | .operator .pred => "pred"
  | .operator .isZero => "iszero"
  | .conditional => "if"
  | .foreign leaf => leaf.text

end Keyword

namespace Term

def isConstant : Term → Bool
  | .tru | .fls | .zero => true
  | _ => false

def isConditional : Term → Bool
  | .ite .. => true
  | _ => false

/-- Put a text between parentheses if asked to, in front of what follows. -/
def enclose (parens : Bool) (write : List Char → List Char) (rest : List Char) : List Char :=
  if parens then '(' :: write (')' :: rest) else write rest

/-- The text of a term, followed by `rest`. -/
def write : Term → List Char → List Char
  | .tru, rest => 't' :: 'r' :: 'u' :: 'e' :: rest
  | .fls, rest => 'f' :: 'a' :: 'l' :: 's' :: 'e' :: rest
  | .zero, rest => '0' :: rest
  | .foreign leaf, rest => leaf.text.toList ++ rest
  | .succ t, rest =>
    "succ".toList ++ ' ' :: enclose (!t.isConstant) t.write rest
  | .pred t, rest =>
    "pred".toList ++ ' ' :: enclose (!t.isConstant) t.write rest
  | .isZero t, rest =>
    "iszero".toList ++ ' ' :: enclose (!t.isConstant) t.write rest
  | .ite c t e, rest =>
    "if".toList ++ ' ' :: enclose c.isConditional c.write
      (" then ".toList ++ enclose t.isConditional t.write
        (" else ".toList ++ enclose e.isConditional e.write rest))

/-- The written form of a term. -/
def text (t : Term) : String := String.ofList (t.write [])

instance : ToString Term := ⟨text⟩

/-- The keyword a term begins with. -/
def keyword : Term → Keyword
  | .tru => .tru
  | .fls => .fls
  | .zero => .zero
  | .foreign leaf => .foreign leaf
  | .succ _ => .operator .succ
  | .pred _ => .operator .pred
  | .isZero _ => .operator .isZero
  | .ite .. => .conditional

/-- The text of the parts of a term, followed by `rest`. -/
def writeParts : Term → List Char → List Char
  | .tru, rest | .fls, rest | .zero, rest | .foreign _, rest => rest
  | .succ t, rest | .pred t, rest | .isZero t, rest => ' ' :: enclose (!t.isConstant) t.write rest
  | .ite c t e, rest =>
    ' ' :: enclose c.isConditional c.write
      (" then ".toList ++ enclose t.isConditional t.write
        (" else ".toList ++ enclose e.isConditional e.write rest))

theorem write_eq (t : Term) (rest : List Char) :
    t.write rest = t.keyword.text.toList ++ t.writeParts rest := by
  cases t <;> rfl

theorem keyword_apply (op : Operator) (t : Term) : (op.apply t).keyword = .operator op := by
  cases op <;> rfl

theorem writeParts_apply (op : Operator) (t : Term) (rest : List Char) :
    (op.apply t).writeParts rest = ' ' :: enclose (!t.isConstant) t.write rest := by
  cases op <;> rfl

end Term

end BoolNat
