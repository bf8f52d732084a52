import BoolNat.Metatheory.Report
import BoolNat.Log.Event
set_option autoImplicit false

/-! # The harness

Checks a list of properties against every term of a population: term by term, and
for each term property by property.  Every violation is counted and told; the first
ones are also kept as counterexamples.

A property may meet a foreign leaf.  The run then ends there: its report is lost,
and what had been told by then remains told.
-/

namespace BoolNat

/-- The properties to check and how many counterexamples to keep. -/
structure Harness where
  properties : List Property
  maxCounterexamples : Int

structure Progress where
  report : Report
  events : Array Event
  deriving DecidableEq, Repr, Inhabited

/-- A run cut short by a foreign leaf, with what it had told. -/
structure Interrupted where
  leaf : ForeignLeaf
  events : Array Event
  deriving DecidableEq, Repr, Inhabited

namespace Progress

def tell (s : Progress) (event : Event) : Progress :=
  { s with events := s.events.push event }

def keep (s : Progress) (c : Counterexample) : Progress :=
  { s with report := { s.report with counterexamples := s.report.counterexamples.push c } }

end Progress

namespace Harness

/-- Record that a property fails for a term: tell it, and keep it as a
counterexample while there is room. -/
def recordViolation (h : Harness) (name : String) (t : Term) (s : Progress) :
    Except Interrupted Progress :=
  let s := s.tell (.violation name t)
  if s.report.counterexamples.size < h.maxCounterexamples then
    match t.describe with
    | .error e => .error ⟨e, s.events⟩
    | .ok detail => .ok (s.keep ⟨name, t, detail⟩)
  else .ok s

/-- Judge a term by one property, and record the verdict. -/
def checkProperty (h : Harness) (t : Term) (s : Progress) (p : Property) :
    Except Interrupted Progress :=
  match p.judge t with
  | .error e => .error ⟨e, s.events⟩
  | .ok verdict =>
    let s := { s with report := s.report.count p.name verdict }
    match verdict with
    | .violated => h.recordViolation p.name t s
    | .vacuous | .upheld => .ok s

/-- Judge a term by every property, and record the verdicts. -/
def checkTerm (h : Harness) (s : Progress) (t : Term) : Except Interrupted Progress :=
  h.properties.foldlM (h.checkProperty t)
    { s with report := { s.report with terms := s.report.terms + 1 } }

def start (h : Harness) : Progress :=
  ⟨{ Report.empty with tallies := Tallies.ofNames (h.properties.map (·.name)) }, #[]⟩

/-- Check every term of a population, and tell the totals at the end. -/
def run (h : Harness) (terms : List Term) : Except Interrupted Progress :=
  (terms.foldlM h.checkTerm h.start).map fun s =>
    s.tell (.done s.report.terms s.report.violations)

end Harness

end BoolNat
