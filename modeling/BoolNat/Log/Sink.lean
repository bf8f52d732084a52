import BoolNat.Log.Event
import BoolNat.Log.Filter
set_option autoImplicit false

/-! # Sinks

A sink writes the events that pass its threshold and its gates.  A gate stands at a
module: the nearest gate above the module of an event decides, looking at the module
itself first, then at the packages around it, then at the empty name.  Where no gate
stands, events pass.

There are two profiles.  The default one writes level, module and message to the
error stream; the one for the command line writes level and message to the output.
-/

namespace BoolNat

/-- Where and how a sink writes. -/
inductive Profile where
  | default
  | cli
  deriving DecidableEq, Repr, Inhabited

def Profile.name : Profile → String
  | .default => "default"
  | .cli => "cli"

inductive Gate where
  | closed
  /-- events of at least this level pass -/
  | atLeast (level : Level)
  deriving DecidableEq, Repr, Inhabited

structure Sink where
  profile : Profile
  threshold : Level
  gates : List (String × Gate)
  deriving DecidableEq, Repr, Inhabited

inductive LogError where
  /-- as the level of a module -/
  | unknownModuleLevel (source level : String)
  /-- as the level of a sink or of a record -/
  | unknownLevel (level : String)
  deriving DecidableEq, Repr, Inhabited

def LogError.message : LogError → String
  | .unknownModuleLevel source level =>
    "The filter dict contains a module '" ++ source ++
      "' associated to a level name which does not exist: '" ++ level ++ "'"
  | .unknownLevel level => "Level '" ++ level ++ "' does not exist"

def Level.ofName (name : String) : Except LogError Level :=
  match ofName? name with
  | some level => .ok level
  | none => .error (.unknownLevel name)

namespace Sink

/-- The gate for what a filter says about a module. -/
def gateOf : String × Setting → Except LogError (String × Gate)
  | (source, .silent) => .ok (source, .closed)
  | (source, .atLeast name) =>
    match Level.ofName? name with
    | some level => .ok (source, .atLeast level)
    | none => .error (.unknownModuleLevel source name)

/-- The sink of a filter.  The levels of modules are looked at first, in their order,
then the global level. -/
def ofFilter (profile : Profile) (filter : LogFilter) : Except LogError Sink :=
  match filter.mergedModules.mapM gateOf with
  | .error e => .error e
  | .ok gates =>
    match Level.ofName (String.ofList (Text.upper filter.level.toList)) with
    | .error e => .error e
    | .ok threshold => .ok ⟨profile, threshold, gates⟩

/-- The packages around a module whose name is given backwards, nearest first, and the
empty name behind them. -/
def outerScopes : List Char → List String
  | [] => [""]
  | '.' :: rest => String.ofList rest.reverse :: outerScopes rest
  | _ :: rest => outerScopes rest

/-- The names at which a gate for a module may stand, nearest first. -/
def scopes (source : String) : List String := source :: outerScopes source.toList.reverse

/-- The gate that decides about a module. -/
def gate? (s : Sink) (source : String) : Option Gate :=
  (scopes source).findSome? fun scope => s.gates.lookup scope

/-- A record of a module at a level is written. -/
def passes (s : Sink) (source : String) (level : Level) : Bool :=
  s.threshold.severity ≤ level.severity &&
    match s.gate? source with
    | some .closed => false
    | some (.atLeast least) => least.severity ≤ level.severity
    | none => true

end Sink

end BoolNat
