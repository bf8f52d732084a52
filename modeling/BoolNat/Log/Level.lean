set_option autoImplicit false

/-! # Severity levels

Log records have one of seven levels.  Levels are compared by their severity and
known by their names, which are exact: a name in other letters names no level.
-/

namespace BoolNat

inductive Level where
  | trace
  | debug
  | info
  | success
  | warning
  | error
  | critical
  deriving DecidableEq, Repr, Inhabited

namespace Level

/-- The levels from the least severe to the most severe. -/
def all : List Level := [.trace, .debug, .info, .success, .warning, .error, .critical]

/-- The number by which levels are compared. -/
def severity : Level → Nat
  | .trace => 5
  | .debug => 10
  | .info => 20
  | .success => 25
  | .warning => 30
  | .error => 40
  | .critical => 50

def name : Level → String
  | .trace => "TRACE"
  | .debug => "DEBUG"
  | .info => "INFO"
  | .success => "SUCCESS"
  | .warning => "WARNING"
  | .error => "ERROR"
  | .critical => "CRITICAL"

def ofName? (name : String) : Option Level := all.find? (·.name = name)

theorem mem_all (l : Level) : l ∈ all := by cases l <;> simp [all]

end Level

end BoolNat
