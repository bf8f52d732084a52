import BoolNat.Log.Logging
import BoolNat.Text.Blank
set_option autoImplicit false

/-! # Written records

The lines that a sink writes for an event.  The default profile puts level, module
and message side by side; the profile for the command line has a column of nine
characters for the level, and further lines of a message stand beside an empty one.
Blanks at the end of a line are dropped.
-/

namespace BoolNat.Log

inductive Stream where
  | output
  | error
  deriving DecidableEq, Repr, Inhabited

/-- Blanks put behind a text until it is `width` characters long. -/
def padRight (width : Nat) (s : String) : String :=
  s ++ String.ofList (List.replicate (width - s.length) ' ')

def trimLine (s : String) : String := String.ofList (Text.trimRight Text.isBlank s.toList)

def linesOf (s : String) : List String := s.splitOn "\n"

/-- The lines written for an event. -/
def lines (profile : Profile) (event : Event) : List String :=
  match profile with
  | .default =>
    (linesOf (padRight 7 event.level.name ++ " | " ++ event.source ++ " | " ++
      event.message)).map trimLine
  | .cli =>
    match linesOf event.message with
    | [] => []
    | first :: more =>
      (trimLine (padRight 9 event.level.name ++ first)) ::
        more.map fun line => trimLine (padRight 9 "" ++ line)

def streamOf : Profile → Stream
  | .default => .error
  | .cli => .output

end BoolNat.Log

namespace BoolNat.Logging

/-- The lines that the configured sink writes for some events. -/
def linesFor (s : Logging) (events : List Event) : List String :=
  match s.sink with
  | none => []
  | some sink => (events.filter s.sinkWrites).flatMap (Log.lines sink.profile)

/-- The stream that these lines go to; without a sink there are none. -/
def stream (s : Logging) : Log.Stream :=
  match s.sink with
  | some sink => Log.streamOf sink.profile
  | none => .output

end BoolNat.Logging
