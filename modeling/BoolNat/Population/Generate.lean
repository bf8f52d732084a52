import BoolNat.Population.Gen
import BoolNat.Term.Value
import BoolNat.Typing.Ty
set_option autoImplicit false

/-! # Random terms

Two generators of terms of bounded height.  `Gen.term` chooses shapes without
regard to types, so most of its terms are ill typed; `Gen.typed` only makes terms
of the type it is asked for.

Both are told how many levels may follow below the root.  With none left they take
a leaf without asking whether to; otherwise they take one with the chance
`leafChance`.
-/

namespace BoolNat.Gen

def defaultLeafChance : Rat := 1 / 4

/-- The chance of a conditional among typed terms that are not leaves: three tenths,
to the nearest fraction whose denominator is 2 ^ 54. -/
def conditionalChance : Rat := 5404319552844595 / 18014398509481984

def constant : Gen Term := oneOf .tru [.fls, .zero]

/-- A term with at most `below` levels under its root. -/
def termWithin (leafChance : Rat) : Nat → Gen Term
  | 0 => constant
  | below + 1 => do
    if (← number) < leafChance then
      constant
    else
      match ← oneOf none [some Operator.succ, some .pred, some .isZero] with
      | none =>
        let c ← termWithin leafChance below
        let t ← termWithin leafChance below
        let e ← termWithin leafChance below
        return .ite c t e
      | some op => return op.apply (← termWithin leafChance below)

/-- A term of height at most `depth`, a depth below 1 counting as 1. -/
def term (leafChance : Rat) (depth : Int) : Gen Term :=
  termWithin leafChance (depth - 1).toNat

/-- A constant of a type; for numbers there is nothing to choose. -/
def typedConstant : Ty → Gen Term
  | .bool => oneOf .tru [.fls]
  | .nat => return .zero

/-- A term of a type with at most `below` levels under its root. -/
def typedWithin (leafChance : Rat) : Nat → Ty → Gen Term
  | 0, ty => typedConstant ty
  | below + 1, ty => do
    if (← number) < leafChance then
      typedConstant ty
    else if (← number) < conditionalChance then
      let c ← typedWithin leafChance below .bool
      let t ← typedWithin leafChance below ty
      let e ← typedWithin leafChance below ty
      return .ite c t e
    else
      match ty with
      | .bool => return .isZero (← typedWithin leafChance below .nat)
      | .nat =>
        let op ← oneOf Operator.succ [.pred]
        return op.apply (← typedWithin leafChance below .nat)

/-- A term of a type and of height at most `depth`, a depth below 1 counting as 1. -/
def typed (leafChance : Rat) (ty : Ty) (depth : Int) : Gen Term :=
  typedWithin leafChance (depth - 1).toNat ty

end BoolNat.Gen

namespace BoolNat

/-- A term was asked for of something that is no type. -/
structure UnknownType where
  given : Option TypeName
  deriving DecidableEq, Repr, Inhabited

def UnknownType.message (e : UnknownType) : String :=
  "Unknown type: " ++ TypeName.textOrNone e.given

/-- A generator of terms of a type given by name. -/
def Gen.typedByName (leafChance : Rat) (ty : Option TypeName) (depth : Int) :
    Except UnknownType (Gen Term) :=
  match ty with
  | some (.known ty) => .ok (.typed leafChance ty depth)
  | _ => .error ⟨ty⟩

end BoolNat
