import BoolNat.Settings.Load
import BoolNat.Text.Digit
set_option autoImplicit false

/-! # Arguments

The command line names a command and gives options to it, each as `--name value` or
`--name=value`.  Whatever follows `--name` is its value, even if it looks like an
option.  Of an option given twice only the last value counts, and only that one has to
be a number.  A request for help goes before numbers and stray words, but not before
options that are unknown or lack their value.
-/

namespace BoolNat

inductive Command where
  | check
  | census
  deriving DecidableEq, Repr, Inhabited

namespace Command

def ofName? : String → Option Command
  | "check" => some .check
  | "census" => some .census
  | _ => none

/-- The options of a command, with the settings they give. -/
def options : Command → List (String × Field)
  | .check =>
    [("--max-size", .maxSize), ("--max-depth", .maxDepth), ("--samples", .randomSamples),
      ("--random-depth", .randomDepth), ("--seed", .seed), ("--max-steps", .maxSteps)]
  | .census => [("--max-size", .maxSize), ("--max-steps", .maxSteps)]

end Command

inductive UsageError where
  | missingCommand
  | unknownCommand (name : String)
  | unknownOption (name : String)
  | missingValue (option : String)
  | unexpectedValue (option : String)
  | notAnInteger (option value : String)
  | extraArgument (text : String)
  deriving DecidableEq, Repr, Inhabited

def UsageError.message : UsageError → String
  | .missingCommand => "a command is missing"
  | .unknownCommand name => "there is no command " ++ name
  | .unknownOption name => "there is no option " ++ name
  | .missingValue option => "option " ++ option ++ " needs a value"
  | .unexpectedValue option => "option " ++ option ++ " takes no value"
  | .notAnInteger option value => "option " ++ option ++ " needs an integer, not " ++ value
  | .extraArgument text => "unexpected argument " ++ text

/-- What the command line asks for. -/
inductive Request where
  | help
  | run (command : Command) (given : List (Field × Int))
  deriving DecidableEq, Repr, Inhabited

namespace Arguments

structure Found where
  help : Bool
  /-- the options in the order in which they were given -/
  options : List (String × Field × String)
  /-- the words that are not options -/
  words : List String
  deriving DecidableEq, Repr, Inhabited

/-- The name of an option and the value that is joined to it, if there is one. -/
def splitOption (text : String) : String × Option String :=
  let cs := text.toList
  let name := cs.takeWhile (· ≠ '=')
  match cs.drop name.length with
  | [] => (text, none)
  | _ :: value => (String.ofList name, some (String.ofList value))

/-- The text is meant as an option: it begins with a dash and is not only that. -/
def isOption (text : String) : Bool :=
  match text.toList with
  | '-' :: _ :: _ => true
  | _ => false

def Found.give (found : Found) (name : String) (field : Field) (value : String) : Found :=
  { found with options := found.options ++ [(name, field, value)] }

/-- Sort the arguments of a command, where an option may be waiting for its value. -/
def sort (command : Command) (found : Found) :
    Option (String × Field) → List String → Except UsageError Found
  | none, [] => .ok found
  | some (name, _), [] => .error (.missingValue name)
  | some (name, field), value :: rest => sort command (found.give name field value) none rest
  | none, text :: rest =>
    if text = "--" then .ok { found with words := found.words ++ rest }
    else if isOption text then
      match splitOption text with
      | ("--help", none) => sort command { found with help := true } none rest
      | ("--help", some _) => .error (.unexpectedValue "--help")
      | (name, joined) =>
        match command.options.lookup name, joined with
        | none, _ => .error (.unknownOption name)
        | some field, some value => sort command (found.give name field value) none rest
        | some field, none => sort command found (some (name, field)) rest
    else sort command { found with words := found.words ++ [text] } none rest

/-- The number a value stands for: digits of any script with single underscores between
them, a sign before them, and white space around. -/
def integer? (text : String) : Option Int :=
  Text.integer? Text.digit? (Text.trim Text.isWhiteSpace text.toList)

/-- The last value of every option, which has to be a number. -/
def numbers (found : Found) : List (String × Field) → Except UsageError (List (Field × Int))
  | [] => .ok []
  | (name, field) :: rest =>
    match found.options.reverse.lookup name with
    | none => numbers found rest
    | some (_, value) =>
      match integer? value with
      | none => .error (.notAnInteger name value)
      | some n => (numbers found rest).map ((field, n) :: ·)

def readCommand (command : Command) (args : List String) : Except UsageError Request :=
  match sort command ⟨false, [], []⟩ none args with
  | .error e => .error e
  | .ok found =>
    if found.help then .ok .help
    else
      match numbers found command.options, found.words with
      | .error e, _ => .error e
      | .ok _, word :: _ => .error (.extraArgument word)
      | .ok given, [] => .ok (.run command given)

def readName : List String → Except UsageError Request
  | [] => .error .missingCommand
  | name :: args =>
    match Command.ofName? name with
    | some command => readCommand command args
    | none => .error (.unknownCommand name)

def read : List String → Except UsageError Request
  | "--" :: args => readName args
  | "--help" :: _ => .ok .help
  | name :: args =>
    if isOption name then .error (.unknownOption name) else readName (name :: args)
  | [] => .error .missingCommand

end Arguments

end BoolNat
