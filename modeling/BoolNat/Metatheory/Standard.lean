import BoolNat.Metatheory.Harness
import BoolNat.Settings.Basic
set_option autoImplicit false

/-! # The standard harness

The harness of the laws of the calculus, under a bound on steps or as some settings
have it.
-/

namespace BoolNat.Harness

/-- How many counterexamples are kept where nothing else is said. -/
def defaultMaxCounterexamples : Int := 20

def standard (maxSteps maxCounterexamples : Int) : Harness :=
  ⟨standardProperties maxSteps, maxCounterexamples⟩

/-- The harness of the laws as some settings have it. -/
def ofSettings (settings : Settings) : Harness :=
  standard settings.maxSteps settings.maxCounterexamples

end BoolNat.Harness
