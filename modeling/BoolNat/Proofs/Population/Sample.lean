import BoolNat.Population.Sample
import BoolNat.Proofs.Population.Random
import BoolNat.Proofs.Population.Size
import Mathlib.Algebra.Order.Field.Basic
import Mathlib.Algebra.Ring.Parity
set_option autoImplicit false

/-! # Populations with random terms

The random part of a population is what one generator gives, which makes the terms of all pairs
one after the other (`Gen.pairs`).  A random stream is one way to answer its requests
(`Gen.returns_sample`), so the population of some settings is among those that any answers at all
lead to (`Population.allowed_ofSettings`).

Whatever the answers are, every term of such a population belongs to the calculus, and it is within
the size or the height of the exhaustive parts or within the height of random terms
(`Population.Allowed.bounded`).
-/

namespace BoolNat

namespace Twister

/-- A number is made of 27 bits of one word and 26 bits of another. -/
theorem bits_lt (a b : UInt32) :
    (a >>> 5).toNat * 67108864 + (b >>> 6).toNat < 9007199254740992 := by
  have ha : (a >>> 5).toNat = a.toNat / 32 := by
    rw [UInt32.toNat_shiftRight, Nat.shiftRight_eq_div_pow]; rfl
  have hb : (b >>> 6).toNat = b.toNat / 64 := by
    rw [UInt32.toNat_shiftRight, Nat.shiftRight_eq_div_pow]; rfl
  have hfirst := a.toNat_lt
  have hsecond := b.toNat_lt
  omega

theorem unit_mem (s : Twister) : 0 ≤ s.unit.1 ∧ s.unit.1 < 1 := by
  have hbits : (((s.next.1 >>> 5).toNat * 67108864 + (s.next.2.next.1 >>> 6).toNat : Nat) : Rat) <
      9007199254740992 := by
    exact_mod_cast bits_lt s.next.1 s.next.2.next.1
  constructor
  · exact div_nonneg (Nat.cast_nonneg _) (by decide)
  · exact (div_lt_one (by decide)).mpr hbits

end Twister

namespace Gen

/-- What a random stream makes of a generator is something that some answers lead to. -/
theorem returns_sample {α : Type} (g : Gen α) (s : Twister) : Returns g (g.sample s).1 := by
  induction g generalizing s with
  | pure a => exact .pure a
  | unit next ih =>
    obtain ⟨nonneg, lt_one⟩ := s.unit_mem
    exact .unit _ nonneg lt_one (ih _ _)
  | index bound next ih => exact .index _ (ih _ _)

/-- The terms of some pairs from number `i` on. -/
def pairs (depth : Int) : (count i : Nat) → Gen (List Term)
  | 0, _ => return []
  | count + 1, i => do
    let untyped ← term defaultLeafChance depth
    let typed ← typed defaultLeafChance (Population.typeAt i) depth
    return untyped :: typed :: (← pairs depth count (i + 1))

theorem sample_pairs_succ (depth : Int) (count i : Nat) (s : Twister) :
    ((pairs depth (count + 1) i).sample s).1 =
      let untyped := (term defaultLeafChance depth).sample s
      let typed := (typed defaultLeafChance (Population.typeAt i) depth).sample untyped.2
      untyped.1 :: typed.1 :: ((pairs depth count (i + 1)).sample typed.2).1 := by
  simp only [pairs, Bind.bind, sample_bind]
  rfl

theorem returns_pairs_succ {depth : Int} {count i : Nat} {terms : List Term} :
    Returns (pairs depth (count + 1) i) terms ↔
      ∃ untyped typed rest, terms = untyped :: typed :: rest ∧
        Returns (term defaultLeafChance depth) untyped ∧
        Returns (Gen.typed defaultLeafChance (Population.typeAt i) depth) typed ∧
        Returns (pairs depth count (i + 1)) rest := by
  simp only [pairs, Bind.bind, Pure.pure, returns_bind, returns_pure]
  constructor
  · rintro ⟨untyped, huntyped, typed, htyped, rest, hrest, rfl⟩
    exact ⟨untyped, typed, rest, rfl, huntyped, htyped, hrest⟩
  · rintro ⟨untyped, typed, rest, rfl, huntyped, htyped, hrest⟩
    exact ⟨untyped, huntyped, typed, htyped, rest, hrest, rfl⟩

/-- At the even places are terms of any shape and at the odd ones terms of a type, which changes
from pair to pair. -/
theorem returns_of_getElem?_pairs {depth : Int} {count i : Nat} {terms : List Term}
    (h : Returns (pairs depth count i) terms) (k : Nat) (t : Term) :
    (terms[2 * k]? = some t → Returns (term defaultLeafChance depth) t) ∧
      (terms[2 * k + 1]? = some t →
        Returns (typed defaultLeafChance (Population.typeAt (i + k)) depth) t) := by
  induction count generalizing i terms k with
  | zero => cases h; simp
  | succ count ih =>
    obtain ⟨untyped, typed, rest, rfl, huntyped, htyped, hrest⟩ := returns_pairs_succ.mp h
    cases k with
    | zero =>
      constructor
      · rintro ⟨⟩
        exact huntyped
      · rintro ⟨⟩
        exact htyped
    | succ k =>
      have hplace : i + (k + 1) = i + 1 + k := by omega
      rw [hplace, Nat.mul_succ]
      exact ih hrest k

/-- Every term of the pairs belongs to the calculus and is within the height. -/
theorem bounded_of_returns_pairs {depth : Int} {count i : Nat} {terms : List Term}
    (h : Returns (pairs depth count i) terms) :
    ∀ t ∈ terms, t.isProper = true ∧ (t.depth : Int) ≤ max depth 1 := by
  intro t ht
  obtain ⟨place, hplace⟩ := List.mem_iff_getElem?.mp ht
  obtain ⟨k, rfl | rfl⟩ := Nat.even_or_odd' place
  · exact isProper_of_returns_term ((returns_of_getElem?_pairs h k t).1 hplace)
  · have htyped := (returns_of_getElem?_pairs h k t).2 hplace
    obtain ⟨hasType, hdepth⟩ := hasType_of_returns_typed htyped
    exact ⟨hasType.isProper, hdepth⟩

end Gen

namespace Population

/-- The pairs are found as their generator gives them when the stream answers it. -/
theorem samplePairs_eq (depth : Int) (count i : Nat) (s : Twister) (found : List Term) :
    samplePairs depth count i s found =
      found.reverse ++ ((Gen.pairs depth count i).sample s).1 := by
  induction count generalizing i s found with
  | zero => exact (List.append_nil _).symm
  | succ count ih =>
    rw [Gen.sample_pairs_succ]
    refine (ih ..).trans ?_
    simp

/-- The part of a population that does not depend on chance. -/
def exhaustive (settings : Settings) : List Term :=
  upToSize settings.maxSize ++ byHeight settings

/-- A population of some settings as any answers to the requests for draws may make it. -/
def Allowed (settings : Settings) (terms : List Term) : Prop :=
  ∃ random, Gen.Returns (Gen.pairs settings.randomDepth settings.randomSamples.toNat 0) random ∧
    terms = exhaustive settings ++ random

/-- Under a seed, the exhaustive part comes first and then what the stream of the seed makes of the
pairs. -/
theorem ofSettings_eq (settings : Settings) (chance : Int) :
    ofSettings settings chance = exhaustive settings ++
      ((Gen.pairs settings.randomDepth settings.randomSamples.toNat 0).sample
        (.ofSeed (settings.seed.getD chance))).1 := by
  rw [ofSettings, samples, samplePairs_eq, ← List.append_assoc]
  rfl

/-- The population under a seed is one that some answers make. -/
theorem allowed_ofSettings (settings : Settings) (chance : Int) :
    Allowed settings (ofSettings settings chance) :=
  ⟨_, Gen.returns_sample _ _, ofSettings_eq settings chance⟩

theorem bounded_of_mem_exhaustive {settings : Settings} {t : Term}
    (ht : t ∈ exhaustive settings) :
    t.isProper = true ∧
      ((t.size : Int) ≤ settings.maxSize ∨ (t.depth : Int) ≤ settings.maxDepth) := by
  rcases List.mem_append.mp ht with hsize | hdepth
  · obtain ⟨hproper, hsize⟩ := ((enumerates_upToSize settings.maxSize).mem_iff t).mp hsize
    exact ⟨hproper, .inl hsize⟩
  · unfold byHeight at hdepth
    split at hdepth
    · exact absurd hdepth List.not_mem_nil
    · obtain ⟨hproper, hdepth⟩ := ((enumerates_upToDepth settings.maxDepth).mem_iff t).mp hdepth
      exact ⟨hproper, .inr hdepth⟩

/-- Every term belongs to the calculus and is within one of the three bounds on populations. -/
theorem Allowed.bounded {settings : Settings} {terms : List Term} (h : Allowed settings terms) :
    ∀ t ∈ terms, t.isProper = true ∧ ((t.size : Int) ≤ settings.maxSize ∨
      (t.depth : Int) ≤ settings.maxDepth ∨ (t.depth : Int) ≤ max settings.randomDepth 1) := by
  obtain ⟨random, hrandom, rfl⟩ := h
  intro t ht
  rcases List.mem_append.mp ht with ht | ht
  · obtain ⟨hproper, hsize | hdepth⟩ := bounded_of_mem_exhaustive ht
    · exact ⟨hproper, .inl hsize⟩
    · exact ⟨hproper, .inr (.inl hdepth)⟩
  · obtain ⟨hproper, hdepth⟩ := Gen.bounded_of_returns_pairs hrandom t ht
    exact ⟨hproper, .inr (.inr hdepth)⟩

end Population

end BoolNat
