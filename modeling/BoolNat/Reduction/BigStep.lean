import BoolNat.Term.Value
set_option autoImplicit false

/-! # Evaluation in one go

`Term.bigStep` evaluates the parts a term needs and combines their values.  It
looks at one branch of a conditional only, and it answers with nothing as soon as
a part it needs has no value, or a value of the wrong kind.
-/

namespace BoolNat.Term

/-- The value of a term, if its evaluation does not get stuck. -/
def bigStep : Term → Option Term
  | .tru => some .tru
  | .fls => some .fls
  | .zero => some .zero
  | .foreign _ => none
  | .ite c t e =>
    match c.bigStep with
    | some .tru => t.bigStep
    | some .fls => e.bigStep
    | _ => none
  | .succ t =>
    if t.isNumeric then some (.succ t)
    else match t.bigStep with
      | some v => if v.isNumeric then some (.succ v) else none
      | none => none
  | .pred t =>
    match t.bigStep with
    | some .zero => some .zero
    | some (.succ v) => some v
    | _ => none
  | .isZero t =>
    match t.bigStep with
    | some .zero => some .tru
    | some (.succ _) => some .fls
    | _ => none

end BoolNat.Term
