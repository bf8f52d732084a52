import BoolNat.Reduction.Step
import BoolNat.Term.Text
set_option autoImplicit false

/-! # Bounded reduction

A term is driven towards its normal form, but for no more steps than a bound
allows.  The bound is given as an integer: below zero it allows no step, and it
is reported as it was given.

`Term.multistep` keeps every term on the way, and `Term.stepLimit?` is the error it
ends in; `Term.normalize` keeps only the current term.  Both find the bound exceeded
exactly when a further step is possible after as many as the bound allows.
-/

namespace BoolNat

def defaultMaxSteps : Int := 10000

/-- No normal form was reached within the bound. -/
structure StepLimit where
  term : Term
  /-- the term reached when the bound was used up -/
  last : Term
  maxSteps : Int
  deriving DecidableEq, Repr, Inhabited

def StepLimit.message (e : StepLimit) : String :=
  e.term.text ++ " did not reach a normal form within " ++ toString e.maxSteps ++
    " steps (last: " ++ e.last.text ++ ")"

/-- A bounded reduction: the terms it went through and how it ended. -/
structure Reduction where
  /-- the terms before the last one, latest first -/
  passed : List Term
  /-- the term it ended with -/
  last : Term
  /-- whether a further step was possible at the end -/
  exceeded : Bool
  deriving DecidableEq, Repr, Inhabited

namespace Reduction

/-- Every term of the reduction in order, the first one included. -/
def trace (r : Reduction) : List Term := (r.last :: r.passed).reverse

def steps (r : Reduction) : Nat := r.passed.length

/-- The term at the end: the normal form, or where the bound was used up. -/
def outcome (r : Reduction) : Except Term Term :=
  if r.exceeded then .error r.last else .ok r.last

end Reduction

namespace Term

/-- Reduce for at most `bound` steps, after the terms already passed. -/
def reduceFrom (passed : List Term) : Nat → Term → Reduction
  | 0, t => ⟨passed, t, t.step.isSome⟩
  | bound + 1, t =>
    match t.step with
    | none => ⟨passed, t, false⟩
    | some t' => reduceFrom (t :: passed) bound t'

/-- Reduce a term for at most as many steps as the bound allows. -/
def multistep (t : Term) (maxSteps : Int) : Reduction :=
  reduceFrom [] maxSteps.toNat t

/-- The error in which the reduction of a term under a bound ends, if the bound is exceeded. -/
def stepLimit? (t : Term) (maxSteps : Int) : Option StepLimit :=
  let r := t.multistep maxSteps
  if r.exceeded then some ⟨t, r.last, maxSteps⟩ else none

/-- Step for at most `bound` times and keep only the current term; on failure,
the term at which the bound was used up. -/
def normalizeWithin : Nat → Term → Except Term Term
  | 0, t => if t.step.isSome then .error t else .ok t
  | bound + 1, t =>
    match t.step with
    | none => .ok t
    | some t' => normalizeWithin bound t'

/-- The normal form of a term, if the bound allows enough steps to reach it. -/
def normalize (t : Term) (maxSteps : Int) : Except StepLimit Term :=
  match normalizeWithin maxSteps.toNat t with
  | .ok normal => .ok normal
  | .error last => .error ⟨t, last, maxSteps⟩

/-- A normal form is where normalizing it ends, under every bound. -/
theorem normalizeWithin_of_normal {t : Term} (bound : Nat) (h : t.step = none) :
    normalizeWithin bound t = .ok t := by
  cases bound <;> simp [normalizeWithin, h]

theorem normalizeWithin_zero {t t' : Term} (h : t.step = some t') :
    normalizeWithin 0 t = .error t := by
  simp [normalizeWithin, h]

theorem normalizeWithin_succ {t t' : Term} (bound : Nat) (h : t.step = some t') :
    normalizeWithin (bound + 1) t = normalizeWithin bound t' := by
  simp [normalizeWithin, h]

/-- A normal form is where its reduction ends, under every bound. -/
theorem reduceFrom_of_normal {t : Term} (passed : List Term) (bound : Nat) (h : t.step = none) :
    reduceFrom passed bound t = ⟨passed, t, false⟩ := by
  cases bound <;> simp [reduceFrom, h]

theorem reduceFrom_zero {t t' : Term} (passed : List Term) (h : t.step = some t') :
    reduceFrom passed 0 t = ⟨passed, t, true⟩ := by
  simp [reduceFrom, h]

theorem reduceFrom_succ {t t' : Term} (passed : List Term) (bound : Nat)
    (h : t.step = some t') :
    reduceFrom passed (bound + 1) t = reduceFrom (t :: passed) bound t' := by
  simp [reduceFrom, h]

/-- Normalizing ends where the reduction ends, and fails when it is cut short. -/
theorem normalizeWithin_eq_outcome (passed : List Term) (bound : Nat) (t : Term) :
    normalizeWithin bound t = (reduceFrom passed bound t).outcome := by
  induction bound generalizing passed t with
  | zero =>
    cases h : t.step with
    | none => rw [normalizeWithin_of_normal 0 h, reduceFrom_of_normal passed 0 h]; rfl
    | some t' => rw [normalizeWithin_zero h, reduceFrom_zero passed h]; rfl
  | succ bound ih =>
    cases h : t.step with
    | none => rw [normalizeWithin_of_normal _ h, reduceFrom_of_normal passed _ h]; rfl
    | some t' => rw [normalizeWithin_succ bound h, reduceFrom_succ passed bound h, ih]

/-- Normalizing fails as the reduction does, or keeps its last term. -/
theorem normalize_eq (t : Term) (maxSteps : Int) :
    t.normalize maxSteps =
      (t.stepLimit? maxSteps).elim (.ok (t.multistep maxSteps).last) .error := by
  rw [normalize, normalizeWithin_eq_outcome [], ← multistep, Reduction.outcome, stepLimit?]
  cases (t.multistep maxSteps).exceeded <;> rfl

end Term

end BoolNat
