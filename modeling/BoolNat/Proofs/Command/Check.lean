import BoolNat.Command.Run
import BoolNat.Proofs.Metatheory.Standard
import BoolNat.Proofs.Population.Sample
import BoolNat.Proofs.Reduction.Height
import BoolNat.Proofs.Settings.Load
set_option autoImplicit false

/-! # When a check fails

Checking the laws over a population comes to an end, and since the laws hold, it fails exactly if
the bound on steps cuts an evaluation short (`Command.exitCode_checkOver`).

Whatever is drawn at random, the terms of a population are within a size or a height, and either
bounds the steps that a term takes.  So a bound on steps that covers both is enough
(`Settings.AllowsSteps.overruns_eq_false`).
-/

namespace BoolNat

/-- The term takes more steps to its normal form than the bound. -/
def Term.TakesMoreThan (t : Term) (maxSteps : Int) : Prop :=
  ∃ (n : Nat) (u : Term), Run n t u ∧ u.step = none ∧ maxSteps < n

theorem Term.overruns_eq_true_iff {t : Term} {maxSteps : Int} (h : 0 ≤ maxSteps) :
    t.overruns maxSteps = true ↔ t.TakesMoreThan maxSteps := by
  rw [overruns, decide_eq_true_iff, max_eq_left h]
  constructor
  · intro hlt
    obtain ⟨u, hr, hu⟩ := t.exists_run_stepCount
    exact ⟨t.stepCount, u, hr, hu, hlt⟩
  · intro hmore
    obtain ⟨n, u, hr, hu, hlt⟩ := hmore
    rw [hr.stepCount_eq hu]
    exact hlt

namespace Settings

/-- The bound on steps is enough for the sizes and for the heights of the population. -/
structure AllowsSteps (s : Settings) : Prop where
  size : s.maxSize - 1 ≤ s.maxSteps
  height : 2 ^ (max s.maxDepth s.randomDepth - 1).toNat - 1 ≤ s.maxSteps

/-- Then no term of a population needs more steps. -/
theorem AllowsSteps.overruns_eq_false {settings : Settings} (h : settings.AllowsSteps)
    (hb : settings.InBounds) {terms : List Term} (hterms : Population.Allowed settings terms) :
    ∀ t ∈ terms, t.overruns settings.maxSteps = false := by
  intro t ht
  have hrandom : 1 ≤ settings.randomDepth := hb .randomDepth 1 rfl _ rfl
  suffices hcount : (t.stepCount : Int) ≤ settings.maxSteps from
    Term.overruns_of_stepCount_le hcount
  obtain ⟨_, hsize | hdepth⟩ := hterms.bounded t ht
  · have hlt := t.stepCount_lt_size
    have henough := h.size
    omega
  · let below := (max settings.maxDepth settings.randomDepth - 1).toNat
    have hlevels : t.depth ≤ below + 1 := by omega
    have hlt : (t.stepCount : Int) < 2 ^ below := by
      exact_mod_cast Term.stepCount_lt_two_pow hlevels
    have henough : 2 ^ below - 1 ≤ settings.maxSteps := h.height
    omega

/-- The default bound is enough for the default population. -/
theorem allowsSteps_fallback (seed : Option Int) :
    AllowsSteps { fallback with seed := seed } := by
  have hfallback : fallback.AllowsSteps := ⟨by decide, by decide⟩
  exact ⟨hfallback.size, hfallback.height⟩

end Settings

namespace Command

/-- The check of a population finds all to be well and keeps no counterexamples, and the command
succeeds. -/
structure Passes (settings : Settings) (terms : List Term) : Prop where
  report : ∃ s, (Harness.ofSettings settings).run terms = .ok s ∧ s.report.isOk = true ∧
    s.report.counterexamples = #[]
  exitCode : ∀ logging width, (checkOver logging width settings terms).exitCode = 0

/-- The exit code of a check over terms that belong to the calculus. -/
theorem exitCode_checkOver (logging : Logging) (width : Nat) {settings : Settings}
    {terms : List Term} (h : ∀ t ∈ terms, t.isProper = true) :
    (checkOver logging width settings terms).exitCode =
      if ∀ t ∈ terms, t.overruns settings.maxSteps = false then 0 else 1 := by
  obtain ⟨s, hrun, hok, _⟩ :=
    Harness.exists_run_standard settings.maxSteps settings.maxCounterexamples h
  have hsettings : (Harness.ofSettings settings).run terms = .ok s := hrun
  simp only [checkOver, hsettings, hok]

theorem passes_of_allowsSteps {settings : Settings} (hb : settings.InBounds)
    (h : settings.AllowsSteps) {terms : List Term} (hterms : Population.Allowed settings terms) :
    Passes settings terms := by
  have hproper : ∀ t ∈ terms, t.isProper = true := fun t ht => (hterms.bounded t ht).1
  have hshort := h.overruns_eq_false hb hterms
  obtain ⟨s, hrun, hok, hnone⟩ :=
    Harness.exists_run_standard settings.maxSteps settings.maxCounterexamples hproper
  have hall := hok.mpr hshort
  refine ⟨⟨s, hrun, hall, hnone hall⟩, fun logging width => ?_⟩
  rw [exitCode_checkOver logging width hproper, if_pos hshort]

theorem exitCode_checkOver_eq_one_iff (logging : Logging) (width : Nat) {settings : Settings}
    (hb : settings.InBounds) {terms : List Term} (hterms : Population.Allowed settings terms) :
    (checkOver logging width settings terms).exitCode = 1 ↔
      ∃ t ∈ terms, t.TakesMoreThan settings.maxSteps := by
  have hproper : ∀ t ∈ terms, t.isProper = true := fun t ht => (hterms.bounded t ht).1
  have hsteps : 0 ≤ settings.maxSteps := hb .maxSteps 0 rfl _ rfl
  rw [exitCode_checkOver logging width hproper]
  simp only [← Term.overruns_eq_true_iff hsteps]
  split
  · next hall =>
    simpa using hall
  · next hsome =>
    simpa using hsome

/-! ## The command -/

/-- Logging can be configured, and the settings are what is given and what the world has. -/
structure Starts (given : List (Field × Int)) (world : Surroundings) (settings : Settings) :
    Prop where
  logging : ({ Logging.start with
    filterText := valueOf? filterVariable world.environment }.configure .cli).1 = .ok ()
  settings : Settings.load ⟨given.map fun entry => (entry.1.name, .whole entry.2),
    world.environment, world.file⟩ = .ok settings

/-- The command then checks the population of the settings. -/
theorem Starts.run_check {given : List (Field × Int)} {world : Surroundings} {settings : Settings}
    (h : Starts given world settings) :
    ∃ logging, run .check given world =
      checkOver logging world.width settings (Population.ofSettings settings world.chance) := by
  obtain ⟨logging, hlogging⟩ : ∃ logging, { Logging.start with
      filterText := valueOf? filterVariable world.environment }.configure .cli =
        (.ok (), logging) :=
    ⟨_, Prod.ext h.logging rfl⟩
  refine ⟨logging, ?_⟩
  simp only [run, hlogging, h.settings]
  rfl

/-- Without a filter logging can be configured. -/
theorem logging_configure_start :
    ({ Logging.start with filterText := none }.configure .cli).1 = .ok () := by
  have hconfigured : ({ Logging.start with filterText := none }.configure .cli).1.isOk = true := by
    decide +kernel
  cases h : ({ Logging.start with filterText := none }.configure .cli).1 with
  | ok _ => rfl
  | error e =>
    rw [h] at hconfigured
    cases hconfigured

/-- Where the environment says nothing, the command starts with what is given. -/
theorem starts_given {given : List (Field × Int)} {settings : Settings}
    (h : Settings.load (Settings.given given) = .ok settings) (width : Nat) (chance : Int) :
    Starts given ⟨[], none, width, chance⟩ settings where
  logging := logging_configure_start
  settings := h

/-- A check over settings within their bounds fails exactly if some term of the population takes
more steps than they allow, whatever is drawn at random.  A bound on steps that is no less than
the greatest size less one, and than two to the power of the greatest height less one, less one,
is enough for every term, and then the harness finds all to be well.  This is so for the default
settings with any seed. -/
theorem check_fails_iff_takesMoreThan {settings : Settings} (hb : settings.InBounds) :
    (∀ terms, Population.Allowed settings terms →
      (settings.AllowsSteps → Passes settings terms) ∧
      ∀ logging width, (checkOver logging width settings terms).exitCode = 1 ↔
        ∃ t ∈ terms, t.TakesMoreThan settings.maxSteps) ∧
    (∀ given world, Starts given world settings →
      Population.Allowed settings (Population.ofSettings settings world.chance) ∧
      (settings.AllowsSteps → (run .check given world).exitCode = 0) ∧
      ((run .check given world).exitCode = 1 ↔
        ∃ t ∈ Population.ofSettings settings world.chance, t.TakesMoreThan settings.maxSteps)) ∧
    ∀ seed : Option Int,
      (∀ terms, Population.Allowed { Settings.fallback with seed := seed } terms →
        Passes { Settings.fallback with seed := seed } terms) ∧
      ∀ width chance,
        (run .check (seed.toList.map (Field.seed, ·)) ⟨[], none, width, chance⟩).exitCode = 0 := by
  refine ⟨?_, ?_, ?_⟩
  · intro terms hterms
    exact ⟨fun h => passes_of_allowsSteps hb h hterms,
      fun logging width => exitCode_checkOver_eq_one_iff logging width hb hterms⟩
  · intro given world hstarts
    have hallowed := Population.allowed_ofSettings settings world.chance
    obtain ⟨logging, hrun⟩ := hstarts.run_check
    rw [hrun]
    exact ⟨hallowed, fun h => (passes_of_allowsSteps hb h hallowed).exitCode logging _,
      exitCode_checkOver_eq_one_iff logging _ hb hallowed⟩
  · intro seed
    have hload := Settings.load_seed seed
    have hpasses : ∀ terms, Population.Allowed { Settings.fallback with seed := seed } terms →
        Passes { Settings.fallback with seed := seed } terms := fun terms hterms =>
      passes_of_allowsSteps (Settings.inBounds_of_loadWith hload) (Settings.allowsSteps_fallback seed)
        hterms
    refine ⟨hpasses, fun width chance => ?_⟩
    obtain ⟨logging, hrun⟩ := (starts_given hload width chance).run_check
    rw [hrun]
    exact (hpasses _ (Population.allowed_ofSettings _ chance)).exitCode logging width

/-- The default population takes steps, and 127 are enough for it. -/
theorem check_fails_without_steps :
    ({ Settings.fallback with maxSteps := 0 }.InBounds ∧
      (run .check [(.maxSteps, 0)] ⟨[], none, 80, 0⟩).exitCode = 1) ∧
    { Settings.fallback with maxSteps := 127 }.InBounds ∧
      (run .check [(.maxSteps, 127)] ⟨[], none, 80, 0⟩).exitCode = 0 := by
  have hnone : Settings.load (Settings.given [(.maxSteps, 0)]) =
      .ok { Settings.fallback with maxSteps := 0 } :=
    Settings.load_given_iff.mpr fun f => by cases f <;> rfl
  have henough : Settings.load (Settings.given [(.maxSteps, 127)]) =
      .ok { Settings.fallback with maxSteps := 127 } :=
    Settings.load_given_iff.mpr fun f => by cases f <;> rfl
  have hboundsNone := Settings.inBounds_of_loadWith hnone
  have hboundsEnough := Settings.inBounds_of_loadWith henough
  refine ⟨⟨hboundsNone, ?_⟩, hboundsEnough, ?_⟩
  · obtain ⟨_, _, hiff⟩ :=
      (check_fails_iff_takesMoreThan hboundsNone).2.1 _ _ (starts_given hnone 80 0)
    have hsize : (Term.pred .zero).size = 2 := (Term.size_eq_nodes _).trans rfl
    have hlisted : Term.pred .zero ∈ Population.upToSize 6 :=
      ((Population.enumerates_upToSize 6).mem_iff _).mpr ⟨rfl, by omega⟩
    exact hiff.mpr ⟨_, List.mem_append_left _ hlisted, 1, .zero, .cons rfl (.nil _), rfl, by decide⟩
  · obtain ⟨_, hpasses, _⟩ :=
      (check_fails_iff_takesMoreThan hboundsEnough).2.1 _ _ (starts_given henough 80 0)
    exact hpasses ⟨by decide, by decide⟩

end Command

end BoolNat
