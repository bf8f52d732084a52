import BoolNat.Metatheory.Law
set_option autoImplicit false

/-! # Tallies and counterexamples

A report counts, for every property by name, on how many terms it was checked, for
how many it was vacuous, and how often it failed.  The entries stand in the order in
which their names were first met; properties of one name share an entry.
-/

namespace BoolNat

/-- A named check together with the premise under which it says something. -/
structure Property where
  name : String
  check : Term → Except ForeignLeaf Bool
  premise : Term → Except ForeignLeaf Bool := fun _ => .ok true

/-- What a property says about one term. -/
inductive Verdict where
  /-- the premise fails -/
  | vacuous
  | upheld
  | violated
  deriving DecidableEq, Repr, Inhabited

/-- Judge a term: the premise first, then the check. -/
def Property.judge (p : Property) (t : Term) : Except ForeignLeaf Verdict :=
  match p.premise t with
  | .error e => .error e
  | .ok false => .ok .vacuous
  | .ok true => (p.check t).map fun holds => if holds then .upheld else .violated

/-- A law of the calculus as a property, under a bound on steps. -/
def Law.property (maxSteps : Int) (law : Law) : Property where
  name := law.name
  check := law.check .standard maxSteps
  premise := law.premise

/-- The laws of the calculus as properties. -/
def standardProperties (maxSteps : Int) : List Property :=
  Law.all.map (Law.property maxSteps)

/-- How often a property was checked, vacuous and violated. -/
structure Tally where
  checked : Nat
  vacuous : Nat
  violations : Nat
  deriving DecidableEq, Repr, Inhabited

namespace Tally

def zero : Tally := ⟨0, 0, 0⟩

def add (tally : Tally) : Verdict → Tally
  | .vacuous => { tally with vacuous := tally.vacuous + 1 }
  | .upheld => { tally with checked := tally.checked + 1 }
  | .violated =>
    { tally with checked := tally.checked + 1, violations := tally.violations + 1 }

end Tally

/-- A term for which a property fails. -/
structure Counterexample where
  property : String
  term : Term
  detail : String
  deriving DecidableEq, Repr, Inhabited

def Counterexample.text (c : Counterexample) : String :=
  c.property ++ ": " ++ c.term.text ++ " (" ++ c.detail ++ ")"

/-- Type and step of a term in one line. -/
def Term.describe (t : Term) : Except ForeignLeaf String :=
  t.typecheck.map fun ty =>
    "type=" ++ (match ty with | some ty => ty.name | none => "ill-typed") ++
      ", step=" ++ (match t.step with | some t' => t'.text | none => "normal form")

/-- The tallies of all properties, in the order in which they were first met. -/
abbrev Tallies := List (String × Tally)

namespace Tallies

/-- Change the entry of a name, which starts at zero if there is none yet. -/
def update (change : Tally → Tally) (name : String) : Tallies → Tallies
  | [] => [(name, change .zero)]
  | (key, tally) :: rest =>
    if key = name then (key, change tally) :: rest
    else (key, tally) :: update change name rest

/-- An entry at zero for every name. -/
def ofNames (names : List String) : Tallies :=
  names.foldl (fun tallies name => update id name tallies) []

end Tallies

/-- What is known after some terms have been checked. -/
structure Report where
  terms : Nat
  tallies : Tallies
  /-- the first counterexamples, in the order in which they were found -/
  counterexamples : Array Counterexample
  deriving DecidableEq, Repr, Inhabited

namespace Report

def empty : Report := ⟨0, [], #[]⟩

def violations (r : Report) : Nat :=
  r.tallies.foldr (fun entry n => entry.2.violations + n) 0

def isOk (r : Report) : Bool := r.violations = 0

theorem isOk_iff {r : Report} : r.isOk = true ↔ r.violations = 0 := by
  simp [isOk]

def count (r : Report) (name : String) (verdict : Verdict) : Report :=
  { r with tallies := Tallies.update (·.add verdict) name r.tallies }

end Report

end BoolNat
