import BoolNat.Settings.Basic
import BoolNat.Settings.Raw
import BoolNat.Settings.Reference
set_option autoImplicit false

/-! # Reading settings from their sources

A field may be given in three places: by the caller, in the environment, and in a
file of variables.  The first of these that gives it decides, whatever the others
say; a field given nowhere has its default.

Names of variables are matched without regard to letter case.  The last of several
matching variables of the environment counts, and in a file that one of them whose name
was met first after the names of the others, with its latest value.

The seven fields are read one by one, so either all of them can be read, or every
field that cannot is reported, in the order of the fields.
-/

namespace BoolNat

structure FieldError where
  field : Field
  problem : Problem
  deriving DecidableEq, Repr, Inhabited

structure Sources where
  overrides : List (String × Raw)
  environment : List (String × String)
  /-- the text of the file of variables, if there is one -/
  file : Option String
  deriving DecidableEq, Repr, Inhabited

def Sources.none : Sources := ⟨[], [], .none⟩

/-- What is left to the library that reads settings. -/
structure Conventions where
  /-- the caller's names are matched without regard to letter case, as those of variables are -/
  foldsCase : Bool
  /-- the integer that a value stands for -/
  toInteger : Raw → Except Problem Int

def Conventions.standard : Conventions := ⟨false, Raw.toInteger⟩

/-- Letters of ASCII in lower case; no other letters matter to the names of fields. -/
def lowered (name : String) : String := name.map Char.toLower

/-- What the entries that match a name have. -/
def under {α : Type} (fits : String → Bool) (entries : List (String × α)) : List α :=
  (entries.filter fun entry => fits entry.1).map (·.2)

/-- The value of the matching name that was met first after all others that match. -/
def Dotenv.find (fits : String → Bool) (bindings : List Binding) : Option String :=
  match ((bindings.map (·.1)).filter fits).eraseDups.getLast? with
  | some name => (bindings.reverse.lookup name).join
  | none => none

namespace Field

/-- The name of the variable that gives a field, in lower case. -/
def variableName (f : Field) : String := "arith_" ++ f.name

def isVariable (f : Field) (name : String) : Bool := lowered name = f.variableName

section
variable (conventions : Conventions) (sources : Sources) (f : Field)

/-- The name is the one by which the caller gives a field. -/
def isKeyword (name : String) : Bool :=
  (if conventions.foldsCase then lowered name else name) = f.name

/-- What the caller gives for a field.  A missing value gives nothing. -/
def given : List Raw :=
  under (f.isKeyword conventions) (sources.overrides.filter (·.2 ≠ .missing))

def inEnvironment : List String := under f.isVariable sources.environment

def inFile : Option String :=
  Dotenv.find f.isVariable (Dotenv.read sources.environment sources.file)

def raw? : Option Raw :=
  match (f.given conventions sources).getLast? with
  | some raw => some raw
  | none =>
    match (f.inEnvironment sources).getLast? with
    | some value => some (.ofVariable value)
    | none => (f.inFile sources).map .ofVariable

/-- Read the value of a field: an integer that is not below its least value, or no
value if the field may be without one. -/
def read : Raw → Except Problem (Option Int)
  | .missing => if f.isOptional then .ok none else .error .notANumber
  | raw =>
    match conventions.toInteger raw with
    | .error p => .error p
    | .ok n =>
      match f.least with
      | some least => if n < least then .error (.below least) else .ok (some n)
      | none => .ok (some n)

/-- The value of a field: what the sources give, or its default. -/
def resolve : Except Problem (Option Int) :=
  match f.raw? conventions sources with
  | some raw => f.read conventions raw
  | none => .ok f.fallback

def error? : Option FieldError :=
  match f.resolve conventions sources with
  | .ok _ => none
  | .error p => some ⟨f, p⟩

def value : Option Int :=
  match f.resolve conventions sources with
  | .ok value => value
  | .error _ => f.fallback

end

end Field

namespace Settings

def ofFields (value : Field → Option Int) : Settings where
  maxSteps := (value .maxSteps).getD 0
  maxSize := (value .maxSize).getD 0
  maxDepth := (value .maxDepth).getD 0
  randomSamples := (value .randomSamples).getD 0
  randomDepth := (value .randomDepth).getD 1
  seed := value .seed
  maxCounterexamples := (value .maxCounterexamples).getD 1

/-- Read the settings, or report every field that cannot be read. -/
def loadWith (conventions : Conventions) (sources : Sources) :
    Except (List FieldError) Settings :=
  match Field.all.filterMap (Field.error? conventions sources) with
  | [] => .ok (.ofFields (Field.value conventions sources))
  | errors => .error errors

def load (sources : Sources) : Except (List FieldError) Settings := loadWith .standard sources

end Settings

end BoolNat
