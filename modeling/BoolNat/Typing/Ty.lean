set_option autoImplicit false

/-! # Types

The calculus has two types.  A type may also be given from outside by name, and
a name need not be one of the two: `TypeName` keeps such a name as it was given,
equal to itself and to neither type.
-/

namespace BoolNat

inductive Ty where
  | bool
  | nat
  deriving DecidableEq, Repr, Inhabited

def Ty.name : Ty → String
  | .bool => "Bool"
  | .nat => "Nat"

/-- A type given by name: one of the two, or a name that belongs to neither. -/
inductive TypeName where
  | known (ty : Ty)
  | unknown (name : String)
  deriving DecidableEq, Repr, Inhabited

namespace TypeName

def ofString (name : String) : TypeName :=
  if name = Ty.bool.name then .known .bool
  else if name = Ty.nat.name then .known .nat
  else .unknown name

def text : TypeName → String
  | .known ty => ty.name
  | .unknown name => name

@[simp] theorem text_ofString (name : String) : (ofString name).text = name := by
  unfold ofString
  split
  · next h => exact h.symm
  · split
    · next h => exact h.symm
    · rfl

/-- The text of a type that may not have been given at all. -/
def textOrNone : Option TypeName → String
  | some ty => ty.text
  | none => "None"

end TypeName

end BoolNat
