import BoolNat.Log.Level
import BoolNat.Term.Text
set_option autoImplicit false

/-! # Log records

Whatever the library has to tell while it works is an `Event`: data first, text
only when a sink writes it.  An event has the module it comes from, which filters
look at, a level, and a message.
-/

namespace BoolNat

/-- Something to tell about the work in progress. -/
inductive Event where
  /-- a reduction has reached its term number `n` -/
  | step (n : Nat) (term : Term)
  | stuck (term : Term) (steps : Nat)
  | violation (property : String) (term : Term)
  /-- the properties have been checked for a whole population -/
  | done (terms violations : Nat)
  | population (maxSize maxDepth randomSamples : Int) (seed : Option Int)
  | checkStart (maxSize samples : Int)
  /-- the census met a term that does not get to a normal form within the bound -/
  | unfinished (term last : Term)
  | note (source : String) (severity : Level) (text : String)
  deriving DecidableEq, Repr, Inhabited

namespace Event

def numberOrNone : Option Int → String
  | some n => toString n
  | none => "None"

/-- The module an event comes from. -/
def source : Event → String
  | .step .. | .stuck .. => "arith.eval.machine"
  | .violation .. | .done .. | .population .. => "arith.soundness.harness"
  | .checkStart .. | .unfinished .. => "arith.cli.app"
  | .note source _ _ => source

def level : Event → Level
  | .step .. | .stuck .. | .unfinished .. => .debug
  | .violation .. => .warning
  | .done .. | .population .. | .checkStart .. => .info
  | .note _ severity _ => severity

def message : Event → String
  | .step n term => "eval.step n=" ++ toString n ++ " term=" ++ term.text
  | .stuck term steps => "eval.stuck term=" ++ term.text ++ " steps=" ++ toString steps
  | .violation property term =>
    "harness.violation property=" ++ property ++ " term=" ++ term.text
  | .done terms violations =>
    "harness.done terms=" ++ toString terms ++ " violations=" ++ toString violations
  | .population maxSize maxDepth randomSamples seed =>
    "harness.population max_size=" ++ toString maxSize ++ " max_depth=" ++ toString maxDepth ++
      " random_samples=" ++ toString randomSamples ++ " seed=" ++ numberOrNone seed
  | .checkStart maxSize samples =>
    "check.start max_size=" ++ toString maxSize ++ " samples=" ++ toString samples
  | .unfinished term last =>
    "census.unfinished term=" ++ term.text ++ " last=" ++ last.text
  | .note _ _ text => text

end Event

end BoolNat
