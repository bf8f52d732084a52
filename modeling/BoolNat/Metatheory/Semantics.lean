import BoolNat.Reduction.BigStep
import BoolNat.Reduction.Rule
import BoolNat.Reduction.Step
import BoolNat.Typing.Infer
set_option autoImplicit false

/-! # What the properties are about

The properties of the calculus speak of four functions: the step, the evaluation
in one go, the checker and the relation of the rules.  `Semantics` collects the
four, so that a property can be asked of any such quadruple; one of them put in
place of the right one shows which properties notice.
-/

namespace BoolNat

/-- The functions the properties of the calculus relate to each other. -/
structure Semantics where
  step : Term → Option Term
  bigStep : Term → Option Term
  /-- the type of a term, if it has one -/
  typecheck : Term → Except ForeignLeaf (Option TypeName)
  successors : Term → List Term

def Semantics.standard : Semantics where
  step := Term.step
  bigStep := Term.bigStep
  typecheck t := t.typecheck.map (·.map TypeName.known)
  successors := Term.successors

namespace Semantics

/-- Find a term that is not well typed but steps to one that is; the first one in
the list, with what it steps to. -/
def subjectExpansion (s : Semantics) : List Term → Except ForeignLeaf (Option (Term × Term))
  | [] => .ok none
  | t :: rest =>
    match s.step t with
    | none => s.subjectExpansion rest
    | some t' =>
      match s.typecheck t' with
      | .error e => .error e
      | .ok none => s.subjectExpansion rest
      | .ok (some _) =>
        match s.typecheck t with
        | .error e => .error e
        | .ok none => .ok (some (t, t'))
        | .ok (some _) => s.subjectExpansion rest

end Semantics

end BoolNat
