import BoolNat.Log.Level
import BoolNat.Text.Blank
import BoolNat.Text.Case
set_option autoImplicit false

/-! # Log filters

A filter is written as parts between commas.  A part `module=level` sets the least
level of a module, or silences it with `module=false`; any other part that is not
blank sets the global level, and the last such part counts.  Letter case and blanks
around names do not matter.

A module that is set twice keeps its first place in the list and has the last value.
Level names are not checked here: a filter is text about levels, and whether these
levels exist is asked when a sink is made from it.
-/

namespace BoolNat

/-- What a filter says about a module. -/
inductive Setting where
  | silent
  /-- the module needs at least the level of this name -/
  | atLeast (level : String)
  deriving DecidableEq, Repr, Inhabited

/-- Modules with what is said about them, in the order in which they were first met. -/
abbrev ModuleLevels := List (String × Setting)

namespace ModuleLevels

def set (name : String) (setting : Setting) : ModuleLevels → ModuleLevels
  | [] => [(name, setting)]
  | (key, old) :: rest =>
    if key = name then (key, setting) :: rest else (key, old) :: set name setting rest

def update (levels changes : ModuleLevels) : ModuleLevels :=
  changes.foldl (fun levels entry => levels.set entry.1 entry.2) levels

end ModuleLevels

/-- A filter: the global level by name, and what is said about modules. -/
structure LogFilter where
  level : String
  modules : ModuleLevels
  deriving DecidableEq, Repr, Inhabited

namespace LogFilter

def empty : LogFilter := ⟨"info", []⟩

/-- The text that stands for the filter where none is given. -/
def defaultText : String := "info"

def parts : List Char → List (List Char)
  | [] => [[]]
  | ',' :: rest => [] :: parts rest
  | c :: rest =>
    match parts rest with
    | [] => [[c]]
    | part :: more => (c :: part) :: more

/-- What a level by name says about a module. -/
def settingOf (level : List Char) : Setting :=
  if level = "false".toList then .silent else .atLeast (String.ofList (Text.upper level))

/-- Take up one part of a filter, with its blanks trimmed. -/
def addPart (filter : LogFilter) (part : List Char) : LogFilter :=
  if part.isEmpty then filter
  else
    let name := part.takeWhile (· ≠ '=')
    match part.drop name.length with
    | [] => { filter with level := String.ofList part }
    | _ :: level =>
      { filter with
        modules := filter.modules.set (String.ofList (Text.strip name))
          (settingOf (Text.strip level)) }

def parse (text : String) : LogFilter :=
  ((parts (Text.lower text.toList)).map Text.strip).foldl addPart empty

/-- What is said about modules where a filter does not say otherwise: the steps of
evaluations are held back. -/
def defaultModules : ModuleLevels := [("arith.eval", .atLeast Level.info.name)]

/-- What a filter says about modules, over the defaults. -/
def mergedModules (filter : LogFilter) : ModuleLevels :=
  ModuleLevels.update defaultModules filter.modules

end LogFilter

end BoolNat
