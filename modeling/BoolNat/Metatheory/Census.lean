import BoolNat.Log.Event
import BoolNat.Population.Enumerate
import BoolNat.Reduction.Trace
import BoolNat.Typing.Infer
set_option autoImplicit false

/-! # The census

Every term of one size, classified: what it is, whether it has a type, and where it
gets within a bound on steps.
-/

namespace BoolNat.Census

/-- A term with what the census asks about it. -/
structure Entry where
  term : Term
  isTyped : Bool
  normal : Except StepLimit Term

namespace Entry

def ofTerm (maxSteps : Int) (t : Term) : Entry where
  term := t
  isTyped := t.typeOf.toOption.isSome
  normal := t.normalize maxSteps

/-- The term reaches a value. -/
def reachesValue (e : Entry) : Bool :=
  match e.normal with
  | .ok v => v.isValue
  | .error _ => false

/-- The term reaches a normal form that is no value. -/
def getsStuck (e : Entry) : Bool :=
  match e.normal with
  | .ok v => !v.isValue
  | .error _ => false

/-- The bound is used up before the term reaches a normal form. -/
def isUnfinished (e : Entry) : Bool :=
  match e.normal with
  | .ok _ => false
  | .error _ => true

/-- What is told about a term that reaches no normal form. -/
def event? (e : Entry) : Option Event :=
  match e.normal with
  | .ok _ => none
  | .error limit => some (.unfinished limit.term limit.last)

end Entry

structure Row where
  size : Nat
  terms : Nat
  values : Nat
  /-- those that have a type -/
  wellTyped : Nat
  /-- those that are stuck as they stand -/
  stuck : Nat
  /-- those that reach a stuck term -/
  getsStuck : Nat
  /-- those that reach a value without having a type -/
  untypedValue : Nat
  /-- those that reach no normal form within the bound -/
  unfinished : Nat
  deriving DecidableEq, Repr, Inhabited

def countRow (size : Nat) (entries : List Entry) : Row where
  size := size
  terms := entries.length
  values := entries.countP (·.term.isValue)
  wellTyped := entries.countP (·.isTyped)
  stuck := entries.countP (·.term.isStuck)
  getsStuck := entries.countP Entry.getsStuck
  untypedValue := entries.countP fun e => e.reachesValue && !e.isTyped
  unfinished := entries.countP Entry.isUnfinished

/-- The row of one size, and what is told while it is counted. -/
def rowOf (maxSteps : Int) (size : Nat) (terms : List Term) : Row × List Event :=
  let entries := terms.map (Entry.ofTerm maxSteps)
  (countRow size entries, entries.filterMap Entry.event?)

def row (maxSteps : Int) (size : Nat) : Row :=
  (rowOf maxSteps size (Population.ofSize size)).1

/-- The rows of the sizes from 1 to `maxSize`, each with what is told. -/
def rows (maxSteps maxSize : Int) : List (Row × List Event) :=
  let table := Population.sizeTable maxSize.toNat
  (List.range' 1 maxSize.toNat).map fun n => rowOf maxSteps n (Population.layerIn table n)

end BoolNat.Census
