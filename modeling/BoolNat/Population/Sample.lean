import BoolNat.Log.Event
import BoolNat.Population.Enumerate
import BoolNat.Population.Generate
import BoolNat.Population.Twister
import BoolNat.Settings.Basic
set_option autoImplicit false

/-! # The population of some settings

First every term up to a size, then every term up to a height if one is set, and then
random terms in pairs: one without regard to types, and one of type Nat and Bool by
turns.  All random terms come from one stream, one after the other, so fewer samples
under the same seed are the beginning of more.
-/

namespace BoolNat.Population

/-- The type of the typed term in the pair number `i`. -/
def typeAt (i : Nat) : Ty := if i % 2 = 0 then .nat else .bool

/-- The pairs of random terms from number `i` on, after the terms found so far, which
stand latest first. -/
def samplePairs (depth : Int) : (pairs i : Nat) → Twister → List Term → List Term
  | 0, _, _, found => found.reverse
  | pairs + 1, i, s, found =>
    let (untyped, s) := (Gen.term Gen.defaultLeafChance depth).sample s
    let (typed, s) := (Gen.typed Gen.defaultLeafChance (typeAt i) depth).sample s
    samplePairs depth pairs (i + 1) s (typed :: untyped :: found)

def samples (seed : Int) (pairs : Nat) (depth : Int) : List Term :=
  samplePairs depth pairs 0 (.ofSeed seed) []

/-- The terms up to the height of the settings, if one is set. -/
def byHeight (settings : Settings) : List Term :=
  if settings.maxDepth = 0 then [] else upToDepth settings.maxDepth

/-- The population of some settings.  Without a seed among them, the random stream
starts from `chance`. -/
def ofSettings (settings : Settings) (chance : Int) : List Term :=
  upToSize settings.maxSize ++
    (byHeight settings ++
      samples (settings.seed.getD chance) settings.randomSamples.toNat settings.randomDepth)

def event (settings : Settings) : Event :=
  .population settings.maxSize settings.maxDepth settings.randomSamples settings.seed

/-- Terms in a row from one stream, after the terms found so far, which stand latest
first. -/
def sampleRow (g : Gen Term) : Nat → Twister → List Term → List Term
  | 0, _, found => found.reverse
  | count + 1, s, found =>
    let (t, s) := g.sample s
    sampleRow g count s (t :: found)

end BoolNat.Population
