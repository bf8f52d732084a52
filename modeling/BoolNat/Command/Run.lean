import BoolNat.Command.Arguments
import BoolNat.Command.Table
import BoolNat.Log.Output
import BoolNat.Metatheory.Census
import BoolNat.Metatheory.Standard
import BoolNat.Population.Sample
set_option autoImplicit false

/-! # The commands

`check` checks the laws of the calculus over a population and reports the tallies;
`census` classifies the terms of every size.  Both log for the command line, so that
records and results appear in one stream in the order in which they come up.  Long lines of words
are broken at the width of the terminal; it is taken to have room for records and tables.

A command fails with exit code 1 if a law is violated, and also if the log filter or
the settings cannot be used; a command line that cannot be understood has exit code 2.
-/

namespace BoolNat

inductive Failure where
  | logging (e : LogError)
  | settings (errors : List FieldError)
  | foreignLeaf (e : ForeignLeaf)
  deriving DecidableEq, Repr, Inhabited

/-- The text of a failure, one line for each thing that is wrong. -/
def Failure.lines : Failure → List String
  | .logging e => [e.message]
  | .settings errors => errors.map fun e => e.field.name ++ ": " ++ e.problem.message
  | .foreignLeaf e => [e.message]

/-- What a command leaves behind. -/
structure Outcome where
  exitCode : Nat
  lines : List String
  /-- why it could not do its work, if it could not -/
  failure : Option Failure
  deriving DecidableEq, Repr, Inhabited

structure Surroundings where
  environment : List (String × String)
  /-- the text of the file of variables, if there is one -/
  file : Option String
  width : Nat
  /-- where the random stream starts if no seed is set -/
  chance : Int
  deriving DecidableEq, Repr, Inhabited

namespace Command

def filterVariable : String := "ARITH_LOG_FILTER"

/-- Put words into lines of the width, after the lines `above`, latest first, and the
line begun. -/
def breakWords (width : Nat) (above : List String) (begun : String) : List String → List String
  | [] => (begun :: above).reverse
  | word :: rest =>
    if begun.length + 1 + word.length ≤ width then
      breakWords width above (begun ++ " " ++ word) rest
    else breakWords width (begun :: above) word rest

/-- A text as lines that are not wider than the width, as far as its words allow. -/
def wrapped (width : Nat) (text : String) : List String :=
  if text.length ≤ width then [text]
  else
    match text.splitOn " " with
    | [] => []
    | word :: rest => breakWords width [] word rest

def reportTable (report : Report) : Table where
  title := "Checked " ++ toString report.terms ++ " terms"
  columns :=
    [⟨"property", true⟩, ⟨"checked", false⟩, ⟨"vacuous", false⟩, ⟨"violations", false⟩]
  rows := report.tallies.map fun entry =>
    [entry.1, toString entry.2.checked, toString entry.2.vacuous, toString entry.2.violations]

/-- What is written about a report: the table, and the counterexamples if there are any. -/
def reportLines (width : Nat) (report : Report) : List String :=
  (reportTable report).lines ++
    (report.counterexamples.toList.flatMap fun c => wrapped width ("counterexample " ++ c.text)) ++
    (if report.isOk then ["All properties hold."] else [])

/-- Check the laws, as some settings have them, over a population. -/
def checkOver (logging : Logging) (width : Nat) (settings : Settings) (terms : List Term) :
    Outcome :=
  let opening := [Event.checkStart settings.maxSize settings.randomSamples,
    Population.event settings]
  match (Harness.ofSettings settings).run terms with
  | .error cut =>
    ⟨1, logging.linesFor (opening ++ cut.events.toList), some (.foreignLeaf cut.leaf)⟩
  | .ok progress =>
    ⟨if progress.report.isOk then 0 else 1,
      logging.linesFor (opening ++ progress.events.toList) ++ reportLines width progress.report,
      none⟩

def runCheck (logging : Logging) (world : Surroundings) (settings : Settings) : Outcome :=
  checkOver logging world.width settings (Population.ofSettings settings world.chance)

def censusTable (maxSize : Int) (rows : List Census.Row) : Table where
  title := "Terms up to size " ++ toString maxSize
  columns :=
    ["size", "terms", "values", "well-typed", "stuck", "gets stuck", "ill-typed, reaches value",
      "no normal form"].map (⟨·, false⟩)
  rows := rows.map fun r =>
    [r.size, r.terms, r.values, r.wellTyped, r.stuck, r.getsStuck, r.untypedValue,
      r.unfinished].map toString

def runCensus (logging : Logging) (settings : Settings) : Outcome :=
  let rows := Census.rows settings.maxSteps settings.maxSize
  ⟨0, logging.linesFor (rows.flatMap (·.2)) ++
    (censusTable settings.maxSize (rows.map (·.1))).lines, none⟩

def valueOf? (name : String) (environment : List (String × String)) : Option String :=
  environment.lookup name

/-- Run a command with the settings given to it: logging is configured first, then the
settings are read. -/
def run (command : Command) (given : List (Field × Int)) (world : Surroundings) : Outcome :=
  let logging := { Logging.start with
    filterText := valueOf? filterVariable world.environment }
  match logging.configure .cli with
  | (.error e, _) => ⟨1, [], some (.logging e)⟩
  | (.ok _, logging) =>
    let overrides := given.map fun entry => (entry.1.name, Raw.whole entry.2)
    match Settings.load ⟨overrides, world.environment, world.file⟩ with
    | .error errors => ⟨1, [], some (.settings errors)⟩
    | .ok settings =>
      match command with
      | .check => runCheck logging world settings
      | .census => runCensus logging settings

end Command

/-- Do what a command line asks for; one that cannot be understood has exit code 2. -/
def Arguments.run (args : List String) (world : Surroundings) : Outcome :=
  match read args with
  | .error _ => ⟨2, [], none⟩
  | .ok .help => ⟨0, [], none⟩
  | .ok (.run command given) => command.run given world

end BoolNat
