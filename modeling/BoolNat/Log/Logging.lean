import BoolNat.Log.Sink
set_option autoImplicit false

/-! # The state of logging

What lasts between log records: the text of the filter in force, the sink if there is
one, and the profile that was configured last.  A process in which nothing has been
configured has no sink of these, but there may be one that came with the logging
library, which writes everything from some level on.

Configuring the profile that is already recorded does nothing.  Otherwise every sink is
taken away first, and a new one is made from the filter in force; if that fails, no
sink is left, and the recorded profile stays what it was.
-/

namespace BoolNat

structure Logging where
  /-- the text of the filter in force, if one is set -/
  filterText : Option String
  /-- the lowest level of the sink that came with the library, while it is there -/
  preset : Option Level
  sink : Option Sink
  profile : Option Profile
  deriving DecidableEq, Repr, Inhabited

namespace Logging

/-- A new process: nothing is set and nothing is configured. -/
def start : Logging := ⟨none, some .debug, none, none⟩

def filter (s : Logging) : LogFilter := .parse (s.filterText.getD LogFilter.defaultText)

def configure (s : Logging) (profile : Profile) : Except LogError Unit × Logging :=
  if s.profile = some profile then (.ok (), s)
  else
    match Sink.ofFilter profile s.filter with
    | .error e => (.error e, { s with preset := none, sink := none })
    | .ok sink => (.ok (), { s with preset := none, sink := some sink, profile := some profile })

def presetWrites (s : Logging) (event : Event) : Bool :=
  s.preset.any (·.severity ≤ event.level.severity)

def sinkWrites (s : Logging) (event : Event) : Bool :=
  s.sink.any (·.passes event.source event.level)

/-- Some sink writes an event. -/
def writes (s : Logging) (event : Event) : Bool := s.presetWrites event || s.sinkWrites event

/-- A record of some module as an event; its level is given by name, which has to
exist if there is a sink to write to. -/
def note? (s : Logging) (source level message : String) : Except LogError (Option Event) :=
  if s.preset.isNone && s.sink.isNone then .ok none
  else (Level.ofName level).map fun level => some (.note source level message)

inductive Action where
  | setFilter (text : Option String)
  | configure (profile : Profile)
  | tell (event : Event)
  deriving DecidableEq, Repr, Inhabited

/-- What logging remembers after an action. -/
def act (s : Logging) : Action → Logging
  | .setFilter text => { s with filterText := text }
  | .configure profile => (s.configure profile).2
  | .tell _ => s

def run (s : Logging) (actions : List Action) : Logging := actions.foldl act s

/-- The events that some actions lead to be written. -/
def written (s : Logging) : List Action → List Event
  | [] => []
  | action :: rest =>
    match action with
    | .tell event =>
      if s.writes event then event :: written s rest else written s rest
    | .setFilter _ | .configure _ => written (s.act action) rest

end Logging

end BoolNat
