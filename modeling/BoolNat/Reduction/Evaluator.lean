import BoolNat.Log.Event
import BoolNat.Reduction.Trace
set_option autoImplicit false

/-! # The evaluator

An evaluator holds a bound on steps, reduces terms under it and keeps the whole
trace.  It tells its steps: one record for every term it reaches, numbered from
zero, and a last one if the normal form turns out to be stuck.  A reduction that
uses up the bound has told its steps by then, and tells no more.
-/

namespace BoolNat

/-- An evaluator was asked for with a bound below zero. -/
inductive NegativeBound where
  | given
  deriving DecidableEq, Repr, Inhabited

def NegativeBound.message (_ : NegativeBound) : String := "max_steps must be non-negative"

/-- A finished evaluation: a term and its reduction to a normal form. -/
structure Evaluation where
  term : Term
  reduction : Reduction
  deriving DecidableEq, Repr, Inhabited

namespace Evaluation

def result (e : Evaluation) : Term := e.reduction.last

def steps (e : Evaluation) : Nat := e.reduction.steps

def trace (e : Evaluation) : List Term := e.reduction.trace

def isValue (e : Evaluation) : Bool := e.result.isValue

def isStuck (e : Evaluation) : Bool := !e.result.isValue

def text (e : Evaluation) : String :=
  e.term.text ++ " ->* " ++ e.result.text ++ " (" ++ (if e.isValue then "value" else "stuck") ++
    ", " ++ toString e.steps ++ " steps)"

end Evaluation

/-- An evaluator with its bound on steps. -/
structure Evaluator where
  maxSteps : Nat
  deriving DecidableEq, Repr, Inhabited

namespace Evaluator

/-- An evaluator with a bound, which may not be negative. -/
def ofInt (maxSteps : Int) : Except NegativeBound Evaluator :=
  if maxSteps < 0 then .error .given else .ok ⟨maxSteps.toNat⟩

/-- Evaluate a term, and tell the steps. -/
def run (e : Evaluator) (t : Term) : Except StepLimit Evaluation × List Event :=
  let r := t.multistep e.maxSteps
  let told := r.trace.mapIdx Event.step
  if r.exceeded then (.error ⟨t, r.last, e.maxSteps⟩, told)
  else if r.last.isValue then (.ok ⟨t, r⟩, told)
  else (.ok ⟨t, r⟩, told ++ [.stuck r.last r.steps])

def normalize (e : Evaluator) (t : Term) : Except StepLimit Term := t.normalize e.maxSteps

end Evaluator

end BoolNat
