import BoolNat.Proofs.Settings.Dotenv
import BoolNat.Proofs.Settings.Load
import BoolNat.Proofs.Settings.Reference
set_option autoImplicit false

/-! # The source that decides a field

A field is decided by the first place that gives it: by the caller, who may also give a missing
value and thereby nothing, then by the environment, then by the file of variables, and else by the
default (`Field.DecidedBy`).  What the field is, or why it cannot be read, is a matter of that one
value (`Field.resolve_eq_ok_iff`).  So a field is read alike from all sources that agree on what
decides it (`Field.SameSource`).

They do so if what changes between them has another name, is a missing value, or stands in a later
place (`Field.Undisturbed`).  There is one way in which another name matters to a field: a value in
a file may refer to it.  Then the field draws on this name too (`Field.DrawsOn`).
-/

namespace BoolNat

variable {conventions : Conventions}

namespace Field

/-- A field is decided by a raw value, or by nothing if it is given nowhere. -/
inductive DecidedBy (conventions : Conventions) (sources : Sources) (f : Field) :
    Option Raw → Prop
  | caller {raw : Raw} (h : (f.given conventions sources).getLast? = some raw) :
    DecidedBy conventions sources f (some raw)
  | environment {value : String} (hcaller : f.given conventions sources = [])
    (h : (f.inEnvironment sources).getLast? = some value) :
    DecidedBy conventions sources f (some (.ofVariable value))
  | file {value : String} (hcaller : f.given conventions sources = [])
    (henvironment : f.inEnvironment sources = []) (h : f.inFile sources = some value) :
    DecidedBy conventions sources f (some (.ofVariable value))
  | nothing (hcaller : f.given conventions sources = [])
    (henvironment : f.inEnvironment sources = []) (h : f.inFile sources = none) :
    DecidedBy conventions sources f none

/-- A field takes a value from what decides it: its default, or what is meant if the field may be
that. -/
def Takes (conventions : Conventions) (f : Field) : Option Raw → Option Int → Prop
  | none, value => value = f.fallback
  | some raw, value => raw.Means conventions value ∧ f.Accepts value

/-- What decides a field is what is read of it. -/
theorem decidedBy_iff {sources : Sources} {f : Field} {top : Option Raw} :
    f.DecidedBy conventions sources top ↔ f.raw? conventions sources = top := by
  rw [raw?]
  constructor
  · intro h
    cases h with
    | caller h => rw [h]
    | environment hcaller h => rw [hcaller, h]; rfl
    | file hcaller henvironment h => rw [hcaller, henvironment, h]; rfl
    | nothing hcaller henvironment h => rw [hcaller, henvironment, h]; rfl
  · rintro rfl
    cases hcaller : (f.given conventions sources).getLast? with
    | some raw => exact .caller hcaller
    | none =>
      have hcaller := List.getLast?_eq_none_iff.mp hcaller
      cases henvironment : (f.inEnvironment sources).getLast? with
      | some value => exact .environment hcaller henvironment
      | none =>
        have henvironment := List.getLast?_eq_none_iff.mp henvironment
        cases hfile : f.inFile sources with
        | some value => exact .file hcaller henvironment hfile
        | none => exact .nothing hcaller henvironment hfile

/-! ## What a field takes -/

/-- What a field is, or that it cannot be read, is a matter of what decides it. -/
theorem resolve_eq_ok_iff {sources : Sources} {f : Field} {top : Option Raw}
    (h : f.DecidedBy conventions sources top) {value : Option Int} :
    f.resolve conventions sources = .ok value ↔ f.Takes conventions top value := by
  rw [resolve, decidedBy_iff.mp h]
  cases top with
  | none => exact ⟨fun hvalue => (Except.ok.inj hvalue).symm, congrArg Except.ok ∘ Eq.symm⟩
  | some raw => exact read_eq_ok_iff

/-- A field that takes no value from what decides it cannot be read. -/
theorem exists_resolve_eq_error_iff {sources : Sources} {f : Field} :
    (∃ problem, f.resolve conventions sources = .error problem) ↔
      ∃ top, f.DecidedBy conventions sources top ∧ ∀ value, ¬ f.Takes conventions top value := by
  constructor
  · rintro ⟨problem, hproblem⟩
    refine ⟨f.raw? conventions sources, decidedBy_iff.mpr rfl, fun value htakes => ?_⟩
    rw [← resolve_eq_ok_iff (decidedBy_iff.mpr rfl), hproblem] at htakes
    cases htakes
  · rintro ⟨top, htop, hnone⟩
    cases hresolve : f.resolve conventions sources with
    | error problem => exact ⟨problem, rfl⟩
    | ok value => exact absurd ((resolve_eq_ok_iff htop).mp hresolve) (hnone value)

/-! ## Sources that agree on a field -/

/-- Two sources give the same for a field in the first place that gives it. -/
structure SameSource (conventions : Conventions) (f : Field) (sources other : Sources) : Prop where
  caller : f.given conventions sources = f.given conventions other
  environment : f.given conventions sources = [] → f.inEnvironment sources = f.inEnvironment other
  file : f.given conventions sources = [] → f.inEnvironment sources = [] →
    f.inFile sources = f.inFile other

namespace SameSource

variable {f : Field} {sources other third : Sources}

theorem symm (h : f.SameSource conventions sources other) :
    f.SameSource conventions other sources where
  caller := h.caller.symm
  environment := fun hcaller => (h.environment (h.caller ▸ hcaller)).symm
  file := fun hcaller henvironment =>
    (h.file (h.caller ▸ hcaller) (h.environment (h.caller ▸ hcaller) ▸ henvironment)).symm

theorem trans (h : f.SameSource conventions sources other)
    (h' : f.SameSource conventions other third) : f.SameSource conventions sources third where
  caller := h.caller.trans h'.caller
  environment := fun hcaller =>
    (h.environment hcaller).trans (h'.environment (h.caller ▸ hcaller))
  file := fun hcaller henvironment =>
    (h.file hcaller henvironment).trans
      (h'.file (h.caller ▸ hcaller) (h.environment hcaller ▸ henvironment))

theorem decidedBy (h : f.SameSource conventions sources other) {top : Option Raw}
    (hdecided : f.DecidedBy conventions sources top) : f.DecidedBy conventions other top := by
  cases hdecided with
  | caller hraw =>
    rw [h.caller] at hraw
    exact .caller hraw
  | environment hcaller hvalue =>
    rw [h.environment hcaller] at hvalue
    exact .environment (h.caller ▸ hcaller) hvalue
  | file hcaller henvironment hvalue =>
    rw [h.file hcaller henvironment] at hvalue
    exact .file (h.caller ▸ hcaller) (h.environment hcaller ▸ henvironment) hvalue
  | nothing hcaller henvironment hfile =>
    rw [h.file hcaller henvironment] at hfile
    exact .nothing (h.caller ▸ hcaller) (h.environment hcaller ▸ henvironment) hfile

/-- A field is read alike from sources that agree on it. -/
theorem resolve_eq (h : f.SameSource conventions sources other) :
    f.resolve conventions other = f.resolve conventions sources := by
  have hraw : f.raw? conventions other = f.raw? conventions sources :=
    decidedBy_iff.mp (h.decidedBy (decidedBy_iff.mpr rfl))
  rw [resolve, resolve, hraw]

end SameSource

/-! ## Changes elsewhere -/

/-- A field draws on no other names in a file: they are its own and all that the values under them
refer to. -/
structure DrawsOn (f : Field) (names : String → Bool) (file : Option String) : Prop where
  own : ∀ name, f.isVariable name = true → names name = true
  closed : Dotenv.IsClosed names (Dotenv.bindings file)

/-- Values without references draw on nothing but the names of the field. -/
theorem drawsOn_isVariable {f : Field} {file : Option String}
    (h : ∀ binding ∈ Dotenv.bindings file, f.isVariable binding.1 = true →
      ∀ value ∈ binding.2, Dotenv.references value = []) : f.DrawsOn f.isVariable file where
  own := fun _ => id
  closed := fun binding hmem hname value hvalue name href => by
    rw [h binding hmem hname value hvalue] at href
    cases href

/-- The second sources differ from the first ones in what is no concern of a field: in what the
caller gives under another name or as a missing value, in what the environment or the file has under
names that the field does not draw on, or in places after the one that gives the field. -/
inductive Undisturbed (conventions : Conventions) (f : Field) : Sources → Sources → Prop
  | override {name : String} {raw : Raw} (h : f.isKeyword conventions name = false ∨ raw = .missing)
    (before after : List (String × Raw)) (environment : List (String × String))
    (file : Option String) :
    Undisturbed conventions f ⟨before ++ after, environment, file⟩
      ⟨before ++ (name, raw) :: after, environment, file⟩
  | environment {names : String → Bool} {file : Option String} (hnames : f.DrawsOn names file)
    {environment environment' : List (String × String)}
    (h : restrict names environment = restrict names environment')
    (overrides : List (String × Raw)) :
    Undisturbed conventions f ⟨overrides, environment, file⟩ ⟨overrides, environment', file⟩
  | file {names : String → Bool} {file file' : Option String} (hnames : f.DrawsOn names file)
    (h : restrict names (Dotenv.bindings file) = restrict names (Dotenv.bindings file'))
    (overrides : List (String × Raw)) (environment : List (String × String)) :
    Undisturbed conventions f ⟨overrides, environment, file⟩ ⟨overrides, environment, file'⟩
  | passage {names : String → Bool} {before passage after : String}
    (hnames : f.DrawsOn names (some (before ++ after))) (hbefore : Dotenv.Whole before.toList)
    (hpassage : Dotenv.Whole passage.toList)
    (h : restrict names (Dotenv.bindings (some passage)) = [])
    (overrides : List (String × Raw)) (environment : List (String × String)) :
    Undisturbed conventions f ⟨overrides, environment, some (before ++ after)⟩
      ⟨overrides, environment, some (before ++ passage ++ after)⟩
  | belowCaller {overrides : List (String × Raw)} {environment : List (String × String)}
    {file : Option String} (h : f.given conventions ⟨overrides, environment, file⟩ ≠ [])
    (environment' : List (String × String)) (file' : Option String) :
    Undisturbed conventions f ⟨overrides, environment, file⟩ ⟨overrides, environment', file'⟩
  | belowEnvironment {overrides : List (String × Raw)} {environment : List (String × String)}
    {file : Option String} (h : f.inEnvironment ⟨overrides, environment, file⟩ ≠ [])
    (file' : Option String) :
    Undisturbed conventions f ⟨overrides, environment, file⟩ ⟨overrides, environment, file'⟩
  | symm {sources other : Sources} (h : Undisturbed conventions f sources other) :
    Undisturbed conventions f other sources
  | trans {sources other third : Sources} (h : Undisturbed conventions f sources other)
    (h' : Undisturbed conventions f other third) : Undisturbed conventions f sources third

section
variable {f : Field} {names : String → Bool} {environment environment' : List (String × String)}
  {file file' : Option String} (overrides : List (String × Raw))

theorem inEnvironment_congr (hown : ∀ name, f.isVariable name = true → names name = true)
    (h : restrict names environment = restrict names environment') :
    f.inEnvironment ⟨overrides, environment, file⟩ =
      f.inEnvironment ⟨overrides, environment', file'⟩ := by
  have hrestrict : ∀ entries : List (String × String),
      (restrict names entries).filter (fun entry => f.isVariable entry.1) =
        entries.filter fun entry => f.isVariable entry.1 := by
    intro entries
    rw [restrict, List.filter_filter]
    refine List.filter_congr fun entry _ => ?_
    cases hentry : f.isVariable entry.1 with
    | true => rw [hown _ hentry]; rfl
    | false => rfl
  simp only [inEnvironment, under]
  rw [← hrestrict environment, h, hrestrict]

theorem sameSource_of_drawsOn (hnames : f.DrawsOn names file)
    (henvironment : restrict names environment = restrict names environment')
    (hfile : restrict names (Dotenv.bindings file) = restrict names (Dotenv.bindings file')) :
    f.SameSource conventions ⟨overrides, environment, file⟩ ⟨overrides, environment', file'⟩ where
  caller := rfl
  environment := fun _ => inEnvironment_congr overrides hnames.own henvironment
  file := fun _ _ => Dotenv.find_read_congr hnames.own hnames.closed henvironment hfile

/-- A whole passage adds what it binds, in its place. -/
theorem restrict_bindings_passage {before passage : String} (hbefore : Dotenv.Whole before.toList)
    (hpassage : Dotenv.Whole passage.toList)
    (h : restrict names (Dotenv.bindings (some passage)) = []) (after : String) :
    restrict names (Dotenv.bindings (some (before ++ after))) =
      restrict names (Dotenv.bindings (some (before ++ passage ++ after))) := by
  simp only [Dotenv.bindings] at h ⊢
  rw [String.toList_append, String.toList_append, String.toList_append, hbefore, List.append_assoc,
    hbefore, hpassage, restrict_append, restrict_append, restrict_append, h, List.nil_append]

/-- What is no concern of a field does not change what decides it. -/
theorem Undisturbed.sameSource {sources other : Sources}
    (h : f.Undisturbed conventions sources other) : f.SameSource conventions sources other := by
  induction h with
  | @override name raw h before after environment file =>
    refine ⟨?_, fun _ => rfl, fun _ _ => rfl⟩
    rcases h with hname | rfl
    · by_cases hraw : raw = .missing <;> simp [given, under, hname, hraw]
    · simp [given, under]
  | environment hnames h overrides => exact sameSource_of_drawsOn overrides hnames h rfl
  | file hnames h overrides environment => exact sameSource_of_drawsOn overrides hnames rfl h
  | passage hnames hbefore hpassage h overrides environment =>
    exact sameSource_of_drawsOn overrides hnames rfl
      (restrict_bindings_passage hbefore hpassage h _)
  | belowCaller h => exact ⟨rfl, fun hnil => absurd hnil h, fun hnil => absurd hnil h⟩
  | belowEnvironment h => exact ⟨rfl, fun _ => rfl, fun _ hnil => absurd hnil h⟩
  | symm _ ih => exact ih.symm
  | trans _ _ ih ih' => exact ih.trans ih'

end

end Field

end BoolNat
