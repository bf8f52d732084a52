import BoolNat.Proofs.Population.Height
import BoolNat.Proofs.Population.Sample
import BoolNat.Proofs.Settings.Load
set_option autoImplicit false

/-! # The order of a population

A population of some settings is three lists one after the other: the terms up to a size, the terms
up to a height if one is set, and random terms in pairs (`Population.Layout`).  That is so whatever
is drawn (`Population.Allowed.layout`), since the places of the random part tell which generator
made a term (`Gen.returns_of_getElem?_pairs`).

Under a seed, what is drawn for some pairs does not depend on how many follow
(`Gen.sample_pairs_prefix`), nor on anything else in the settings than the height of random terms.
So the random part of fewer samples is the beginning of that of more
(`population_laid_out_and_extended`).
-/

namespace BoolNat

namespace Gen

variable {depth : Int} {count i : Nat} {terms : List Term}

theorem length_of_returns_pairs (h : Returns (pairs depth count i) terms) :
    terms.length = 2 * count := by
  induction count generalizing i terms with
  | zero => cases h; rfl
  | succ count ih =>
    obtain ⟨untyped, typed, rest, rfl, _, _, hrest⟩ := returns_pairs_succ.mp h
    rw [List.length_cons, List.length_cons, ih hrest]
    omega

/-- Fewer pairs from the same place of a stream are the beginning of more. -/
theorem sample_pairs_prefix (depth : Int) {count more : Nat} (h : count ≤ more) (i : Nat)
    (s : Twister) :
    ((pairs depth count i).sample s).1 <+: ((pairs depth more i).sample s).1 := by
  induction count generalizing more i s with
  | zero => exact List.nil_prefix
  | succ count ih =>
    cases more with
    | zero => exact absurd h (Nat.not_succ_le_zero count)
    | succ more =>
      -- Both draw the first pair alike and leave the stream at the same place.
      rw [sample_pairs_succ, sample_pairs_succ]
      refine (List.prefix_cons_inj _).mpr ((List.prefix_cons_inj _).mpr ?_)
      exact ih (Nat.le_of_succ_le_succ h) _ _

end Gen

namespace Population

/-- What stands behind the exhaustive part of a population of some settings. -/
def randomPart (settings : Settings) (terms : List Term) : List Term :=
  terms.drop (exhaustive settings).length

theorem randomPart_append (settings : Settings) (random : List Term) :
    randomPart settings (exhaustive settings ++ random) = random :=
  List.drop_left

theorem randomPart_ofSettings (settings : Settings) (chance : Int) :
    randomPart settings (ofSettings settings chance) =
      ((Gen.pairs settings.randomDepth settings.randomSamples.toNat 0).sample
        (.ofSeed (settings.seed.getD chance))).1 := by
  rw [ofSettings_eq, randomPart_append]

/-- All terms up to the size, each once, then all terms up to the height if one is set, each once,
and then pairs of random terms within their height, as many as asked for: one of any shape, and one
whose type is Nat and Bool by turns. -/
structure Layout (settings : Settings) (terms : List Term) : Prop where
  parts : terms = upToSize settings.maxSize ++ (byHeight settings ++ randomPart settings terms)
  enumerates_upToSize :
    Enumerates (upToSize settings.maxSize) fun t => (t.size : Int) ≤ settings.maxSize
  enumerates_byHeight : 0 < settings.maxDepth →
    Enumerates (byHeight settings) fun t => (t.depth : Int) ≤ settings.maxDepth
  byHeight_eq_nil : settings.maxDepth = 0 → byHeight settings = []
  length_random : ((randomPart settings terms).length : Int) = 2 * settings.randomSamples
  untyped : ∀ (i : Nat) (t : Term), (randomPart settings terms)[2 * i]? = some t →
    t.isProper = true ∧ (t.depth : Int) ≤ settings.randomDepth
  typed : ∀ (i : Nat) (t : Term), (randomPart settings terms)[2 * i + 1]? = some t →
    t.typecheck = .ok (some (if i % 2 = 0 then .nat else .bool)) ∧
      (t.depth : Int) ≤ settings.randomDepth

/-- Whatever is drawn, a population is laid out in this way. -/
theorem Allowed.layout {settings : Settings} {terms : List Term} (h : Allowed settings terms)
    (hb : settings.InBounds) : Layout settings terms := by
  obtain ⟨random, hrandom, rfl⟩ := h
  have hsamples : 0 ≤ settings.randomSamples := hb .randomSamples 0 rfl _ rfl
  have hheight : max settings.randomDepth 1 = settings.randomDepth :=
    max_eq_left (hb .randomDepth 1 rfl _ rfl)
  have hplace := Gen.returns_of_getElem?_pairs hrandom
  constructor
  case parts => rw [randomPart_append, ← List.append_assoc]; rfl
  case enumerates_upToSize => exact enumerates_upToSize settings.maxSize
  case enumerates_byHeight =>
    intro hpos
    rw [byHeight, if_neg (by omega)]
    exact enumerates_upToDepth settings.maxDepth
  case byHeight_eq_nil => exact fun hzero => if_pos hzero
  case length_random =>
    rw [randomPart_append, Gen.length_of_returns_pairs hrandom]
    omega
  case untyped =>
    intro i t ht
    rw [randomPart_append] at ht
    rw [← hheight]
    exact Gen.isProper_of_returns_term ((hplace i t).1 ht)
  case typed =>
    intro i t ht
    rw [randomPart_append] at ht
    obtain ⟨htyped, hdepth⟩ := Gen.hasType_of_returns_typed ((hplace i t).2 ht)
    rw [Nat.zero_add] at htyped
    rw [hheight] at hdepth
    exact ⟨Term.typecheck_eq_some_iff.mpr htyped, hdepth⟩

/-- The population of settings within their bounds is laid out as it should be, whatever is drawn.
Under a seed, its random part is the beginning of that of any settings with the same seed, the same
height of random terms and at least as many samples, whatever else differs. -/
theorem population_laid_out_and_extended :
    (∀ settings : Settings, settings.InBounds →
      (∀ chance, Layout settings (ofSettings settings chance)) ∧
        ∀ terms, Allowed settings terms → Layout settings terms) ∧
      ∀ (settings more : Settings) (seed chance chance' : Int), settings.seed = some seed →
        more.seed = some seed → settings.randomDepth = more.randomDepth →
        settings.randomSamples ≤ more.randomSamples →
        randomPart settings (ofSettings settings chance) <+:
          randomPart more (ofSettings more chance') := by
  constructor
  · intro settings hb
    refine ⟨fun chance => ?_, fun terms hterms => hterms.layout hb⟩
    exact (allowed_ofSettings settings chance).layout hb
  · intro settings more seed chance chance' hseed hseed' hheight hsamples
    rw [randomPart_ofSettings, randomPart_ofSettings, hseed, hseed', hheight]
    exact Gen.sample_pairs_prefix more.randomDepth (Int.toNat_le_toNat hsamples) 0 _

/-- Two pairs of the usual height under seed 7 are the beginning of three, though nothing else is
left of the settings. -/
theorem population_laid_out_and_extended_three_samples :
    { Settings.fallback with randomSamples := 2, seed := some 7 }.InBounds ∧
      Layout { Settings.fallback with randomSamples := 2, seed := some 7 }
        (ofSettings { Settings.fallback with randomSamples := 2, seed := some 7 } 0) ∧
      randomPart { Settings.fallback with randomSamples := 2, seed := some 7 }
          (ofSettings { Settings.fallback with randomSamples := 2, seed := some 7 } 0) <+:
        randomPart
          { Settings.fallback with maxSize := 0, maxDepth := 2, randomSamples := 3, seed := some 7 }
          (ofSettings { Settings.fallback with
            maxSize := 0, maxDepth := 2, randomSamples := 3, seed := some 7 } 1) := by
  have hb : { Settings.fallback with randomSamples := 2, seed := some 7 }.InBounds := by
    intro field least hleast n hn
    cases field <;> cases hleast <;> cases hn <;> decide
  obtain ⟨hlayout, hprefix⟩ := population_laid_out_and_extended
  exact ⟨hb, (hlayout _ hb).1 0, hprefix _ _ 7 0 1 rfl rfl rfl (by decide)⟩

end Population

end BoolNat
