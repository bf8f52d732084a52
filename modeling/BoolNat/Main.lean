import BoolNat.Command.Run
set_option autoImplicit false

/-! # The program

Gives the arguments and the surroundings of the process to `Arguments.run` and writes
what comes back.
-/

namespace BoolNat

/-- The variables that are looked up in the environment: the log filter, every field in capital and
in small letters, and what the file refers to. -/
def variableNames (file : Option String) : List String :=
  Command.filterVariable ::
    (Field.all.map fun f => f.variableName.map Char.toUpper) ++ Field.all.map Field.variableName ++
    (Dotenv.bindings file).flatMap fun binding =>
      (binding.2.map Dotenv.references).getD []

def readEnvironment (file : Option String) : IO (List (String × String)) := do
  let values ← (variableNames file).mapM fun name => do
    return (← IO.getEnv name).map (name, ·)
  return values.filterMap id

/-- The width of the terminal, as far as it is known. -/
def readWidth : IO Nat := do
  return ((← IO.getEnv "COLUMNS").bind String.toNat?).getD 80

/-- The text of the file of variables, if there is one. -/
def readVariables : IO (Option String) :=
  try
    return some (← IO.FS.readFile ".env")
  catch _ =>
    return none

end BoolNat

open BoolNat in
def main (args : List String) : IO UInt32 := do
  let file ← readVariables
  let world : Surroundings :=
    ⟨← readEnvironment file, file, ← readWidth, Int.ofNat (← IO.rand 0 0xffffffff)⟩
  match Arguments.read args with
  | .error e => IO.eprintln e.message
  | .ok _ => pure ()
  let outcome := Arguments.run args world
  outcome.lines.forM fun line => IO.println line
  match outcome.failure with
  | some failure => failure.lines.forM fun line => IO.eprintln line
  | none => pure ()
  return outcome.exitCode.toUInt32
