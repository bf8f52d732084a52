import BoolNat.Metatheory.Semantics
import BoolNat.Reduction.Trace
import BoolNat.Term.Measure
set_option autoImplicit false

/-! # The laws of the calculus, as checks

Each law is a check on one term, to be run on many.  A law whose premise does not
apply to a term holds there vacuously; `Law.premise` says where it applies, so that
a tally can tell the two apart.

The checks are asked of a `Semantics`.  Two of them also normalize the term, under
a bound on steps, and that is always done by the step of the calculus itself.
-/

namespace BoolNat

inductive Law where
  /-- the step is the relation of the rules, and that relates a term to at most one -/
  | determinism
  | valueNormal
  | progress
  | preservation
  /-- a well-typed term normalizes to a value of its type -/
  | soundness
  /-- a value of type Bool is a truth value, one of type Nat a numeral -/
  | canonicalForms
  | sizeDecreases
  /-- no more constants occur than nodes -/
  | constsBound
  /-- evaluation in one go finds the values that stepping reaches, and no others -/
  | bigStep
  deriving DecidableEq, Repr, Inhabited

namespace Law

/-- The laws in the order in which they are checked and reported. -/
def all : List Law :=
  [.determinism, .valueNormal, .progress, .preservation, .soundness, .canonicalForms,
    .sizeDecreases, .constsBound, .bigStep]

def name : Law → String
  | .determinism => "determinism"
  | .valueNormal => "value-normal"
  | .progress => "progress"
  | .preservation => "preservation"
  | .soundness => "soundness"
  | .canonicalForms => "canonical-forms"
  | .sizeDecreases => "size-decreases"
  | .constsBound => "consts-bound"
  | .bigStep => "big-step"

def ofName? (name : String) : Option Law := all.find? (·.name = name)

end Law

namespace Semantics

/-- The rules derive at most one successor, and the step agrees with them. -/
def checkDeterminism (s : Semantics) (t : Term) : Bool :=
  match s.successors t with
  | [] => s.step t = none
  | [t'] => s.step t = some t'
  | _ => false

/-- A value does not step. -/
def checkValueNormal (s : Semantics) (t : Term) : Bool :=
  !t.isValue || (s.step t).isNone

/-- A well-typed term is a value or steps. -/
def checkProgress (s : Semantics) (t : Term) : Except ForeignLeaf Bool :=
  match s.typecheck t with
  | .error e => .error e
  | .ok none => .ok true
  | .ok (some _) => .ok (t.isValue || (s.step t).isSome)

/-- A step from a well-typed term keeps its type. -/
def checkPreservation (s : Semantics) (t : Term) : Except ForeignLeaf Bool :=
  match s.typecheck t with
  | .error e => .error e
  | .ok none => .ok true
  | .ok (some ty) =>
    match s.step t with
    | none => .ok true
    | some t' => (s.typecheck t').map (decide <| · = some ty)

/-- A well-typed term normalizes within the bound, to a value of its type. -/
def checkSoundness (s : Semantics) (maxSteps : Int) (t : Term) : Except ForeignLeaf Bool :=
  match s.typecheck t with
  | .error e => .error e
  | .ok none => .ok true
  | .ok (some ty) =>
    match t.normalize maxSteps with
    | .error _ => .ok false
    | .ok v =>
      if v.isValue then (s.typecheck v).map (decide <| · = some ty) else .ok false

/-- A value of type Bool is a truth value and one of type Nat a numeral; a value
of no type breaks the law. -/
def checkCanonicalForms (s : Semantics) (t : Term) : Except ForeignLeaf Bool :=
  if t.isValue then
    match s.typecheck t with
    | .error e => .error e
    | .ok (some (.known .bool)) => .ok t.isBoolean
    | .ok (some (.known .nat)) => .ok t.isNumeric
    | .ok _ => .ok false
  else .ok true

/-- A step makes the term smaller. -/
def checkSizeDecreases (s : Semantics) (t : Term) : Bool :=
  match s.step t with
  | none => true
  | some t' => t'.size < t.size

/-- No more constants occur than nodes. -/
def checkConstsBound (t : Term) : Bool := t.constants.length ≤ t.size

/-- Evaluation in one go finds the value the term normalizes to within the bound,
and finds nothing if it gets stuck. -/
def checkBigStep (s : Semantics) (maxSteps : Int) (t : Term) : Bool :=
  match t.normalize maxSteps with
  | .error _ => false
  | .ok v => if v.isValue then s.bigStep t = some v else s.bigStep t = none

end Semantics

namespace Law

/-- The law holds for a term, of the given functions and under the bound on steps. -/
def check (s : Semantics) (maxSteps : Int) : Law → Term → Except ForeignLeaf Bool
  | .determinism, t => .ok (s.checkDeterminism t)
  | .valueNormal, t => .ok (s.checkValueNormal t)
  | .progress, t => s.checkProgress t
  | .preservation, t => s.checkPreservation t
  | .soundness, t => s.checkSoundness maxSteps t
  | .canonicalForms, t => s.checkCanonicalForms t
  | .sizeDecreases, t => .ok (s.checkSizeDecreases t)
  | .constsBound, t => .ok (Semantics.checkConstsBound t)
  | .bigStep, t => .ok (s.checkBigStep maxSteps t)

/-- The law says something about a term. -/
def premise : Law → Term → Except ForeignLeaf Bool
  | .determinism, _ | .valueNormal, _ | .constsBound, _ | .bigStep, _ => .ok true
  | .progress, t | .soundness, t | .canonicalForms, t => t.isWellTyped
  | .preservation, t => t.isWellTyped.map (· && t.step.isSome)
  | .sizeDecreases, t => .ok t.step.isSome

end Law

end BoolNat
