set_option autoImplicit false

/-! # Settings

The bounds on evaluation and the sizes of populations.  `Field` names the seven of
them, in the order in which they are read and reported, with the default and the
least value of each.  A seed may be any number or none at all.
-/

namespace BoolNat

structure Settings where
  maxSteps : Int
  /-- list every term up to this size -/
  maxSize : Int
  /-- list every term up to this height, if it is not zero -/
  maxDepth : Int
  /-- how many random terms of each kind to add -/
  randomSamples : Int
  randomDepth : Int
  seed : Option Int
  maxCounterexamples : Int
  deriving DecidableEq, Repr, Inhabited

/-- The settings by name. -/
inductive Field where
  | maxSteps
  | maxSize
  | maxDepth
  | randomSamples
  | randomDepth
  | seed
  | maxCounterexamples
  deriving DecidableEq, Repr, Inhabited

namespace Field

/-- The fields in the order in which they are read and reported. -/
def all : List Field :=
  [.maxSteps, .maxSize, .maxDepth, .randomSamples, .randomDepth, .seed, .maxCounterexamples]

def name : Field → String
  | .maxSteps => "max_steps"
  | .maxSize => "max_size"
  | .maxDepth => "max_depth"
  | .randomSamples => "random_samples"
  | .randomDepth => "random_depth"
  | .seed => "seed"
  | .maxCounterexamples => "max_counterexamples"

/-- The value of a field for which none is given. -/
def fallback : Field → Option Int
  | .maxSteps => some 10000
  | .maxSize => some 6
  | .maxDepth => some 0
  | .randomSamples => some 500
  | .randomDepth => some 8
  | .seed => none
  | .maxCounterexamples => some 20

/-- The least value of a field, if it has one. -/
def least : Field → Option Int
  | .maxSteps | .maxSize | .maxDepth | .randomSamples => some 0
  | .randomDepth | .maxCounterexamples => some 1
  | .seed => none

def isOptional : Field → Bool
  | .seed => true
  | _ => false

end Field

namespace Settings

def get (s : Settings) : Field → Option Int
  | .maxSteps => some s.maxSteps
  | .maxSize => some s.maxSize
  | .maxDepth => some s.maxDepth
  | .randomSamples => some s.randomSamples
  | .randomDepth => some s.randomDepth
  | .seed => s.seed
  | .maxCounterexamples => some s.maxCounterexamples

/-- Every field is at least its least value. -/
def InBounds (s : Settings) : Prop :=
  ∀ field : Field, ∀ least ∈ field.least, ∀ n ∈ s.get field, least ≤ n

end Settings

end BoolNat
