import BoolNat.Settings.Load
set_option autoImplicit false

/-! # What loaded settings satisfy

The fields are read one by one.  A raw value is read as what it stands for, if the field may have
that (`Field.read_eq_ok_iff`), so a value that a field resolves to suits the field, no matter
whether it was read from a source or is the default (`Field.accepts_of_resolve`).  The settings
that are loaded have just these values (`Settings.loadWith_eq_ok_iff`), so they are within their
bounds (`Settings.inBounds_of_loadWith`).
-/

namespace BoolNat

/-- What a raw value stands for: no value, or an integer. -/
inductive Raw.Means (conventions : Conventions) : Raw → Option Int → Prop
  | nothing : Means conventions .missing none
  | integer {raw : Raw} {n : Int} (hraw : raw ≠ .missing) (h : conventions.toInteger raw = .ok n) :
    Means conventions raw (some n)

variable {conventions : Conventions}

namespace Field

/-- A field may have the value: there is one unless the field may be without, and it is no less
than the least value. -/
structure Accepts (f : Field) (value : Option Int) : Prop where
  isSome : f.isOptional = false → value.isSome = true
  least_le : ∀ least ∈ f.least, ∀ n ∈ value, least ≤ n

/-- Every default passes its own check. -/
theorem accepts_fallback (f : Field) : f.Accepts f.fallback := by
  cases f <;> exact ⟨by decide, by decide⟩

theorem accepts_none_iff {f : Field} : f.Accepts none ↔ f.isOptional = true := by
  constructor
  · intro h
    cases hoptional : f.isOptional with
    | true => rfl
    | false => cases h.isSome hoptional
  · intro h
    refine ⟨fun hrequired => ?_, fun _ _ n hn => absurd hn (Option.not_mem_none n)⟩
    rw [h] at hrequired
    cases hrequired

theorem accepts_some_iff {f : Field} {n : Int} :
    f.Accepts (some n) ↔ ∀ least ∈ f.least, least ≤ n := by
  constructor
  · exact fun h least hleast => h.least_le least hleast n rfl
  · intro h
    refine ⟨fun _ => rfl, fun least hleast m hm => ?_⟩
    cases hm
    exact h least hleast

theorem means_missing_iff {value : Option Int} :
    Raw.Means conventions .missing value ↔ value = none := by
  constructor
  · intro h
    cases h with
    | nothing => rfl
    | integer hraw h => exact absurd rfl hraw
  · rintro rfl
    exact .nothing

theorem means_iff {raw : Raw} (h : raw ≠ .missing) {value : Option Int} :
    raw.Means conventions value ↔ ∃ n, conventions.toInteger raw = .ok n ∧ value = some n := by
  constructor
  · intro hmeans
    cases hmeans with
    | nothing => exact absurd rfl h
    | integer _ hn => exact ⟨_, hn, rfl⟩
  · rintro ⟨n, hn, rfl⟩
    exact .integer h hn

/-- An integer that is held against the least value of a field. -/
def hold (f : Field) (n : Int) : Except Problem (Option Int) :=
  match f.least with
  | some least => if n < least then .error (.below least) else .ok (some n)
  | none => .ok (some n)

theorem hold_eq_ok_iff {f : Field} {n : Int} {value : Option Int} :
    f.hold n = .ok value ↔ value = some n ∧ f.Accepts (some n) := by
  rw [accepts_some_iff, hold]
  cases f.least with
  | none => simp [eq_comm]
  | some least =>
    by_cases h : n < least
    · simp [h]
    · simp [h, Int.not_lt.mp h, eq_comm]

theorem read_of_ne_missing (f : Field) {raw : Raw} (h : raw ≠ .missing) :
    f.read conventions raw = (conventions.toInteger raw).bind f.hold := by
  rw [read]
  · cases conventions.toInteger raw <;> rfl
  · exact h

/-- A raw value is read as what it means, if the field may be that. -/
theorem read_eq_ok_iff {f : Field} {raw : Raw} {value : Option Int} :
    f.read conventions raw = .ok value ↔ raw.Means conventions value ∧ f.Accepts value := by
  by_cases hmissing : raw = .missing
  · subst hmissing
    rw [means_missing_iff, read]
    cases hoptional : f.isOptional with
    | true =>
      constructor
      · rintro ⟨⟩
        exact ⟨rfl, accepts_none_iff.mpr hoptional⟩
      · rintro ⟨rfl, _⟩
        rfl
    | false =>
      constructor
      · rintro ⟨⟩
      · rintro ⟨rfl, haccepts⟩
        cases hoptional.symm.trans (accepts_none_iff.mp haccepts)
  · rw [means_iff hmissing, read_of_ne_missing f hmissing]
    cases hn : conventions.toInteger raw with
    | error problem => simp [Except.bind]
    | ok n =>
      rw [show (Except.ok n).bind f.hold = f.hold n from rfl, hold_eq_ok_iff]
      constructor
      · rintro ⟨rfl, haccepts⟩
        exact ⟨⟨n, rfl, rfl⟩, haccepts⟩
      · rintro ⟨⟨m, hm, rfl⟩, haccepts⟩
        cases hm
        exact ⟨rfl, haccepts⟩

/-- What a field resolves to is a value that it may have. -/
theorem accepts_of_resolve {sources : Sources} {f : Field} {value : Option Int}
    (h : f.resolve conventions sources = .ok value) : f.Accepts value := by
  unfold resolve at h
  split at h
  · exact (read_eq_ok_iff.mp h).2
  · cases h
    exact f.accepts_fallback

theorem error?_eq_none_iff {sources : Sources} {f : Field} :
    f.error? conventions sources = none ↔
      f.resolve conventions sources = .ok (f.value conventions sources) := by
  unfold error? value
  cases f.resolve conventions sources <;> simp

theorem mem_all (f : Field) : f ∈ all := by
  cases f <;> decide

theorem name_inj {f g : Field} : f.name = g.name ↔ f = g := by
  cases f <;> cases g <;> decide

end Field

namespace Settings

/-- Fields with values that they may have make settings with these values. -/
theorem get_ofFields {value : Field → Option Int} (h : ∀ f : Field, f.Accepts (value f))
    (f : Field) : (ofFields value).get f = value f := by
  have hsome := (h f).isSome
  cases f with
  | seed => rfl
  | _ =>
    obtain ⟨n, hn⟩ := Option.isSome_iff_exists.mp (hsome rfl)
    simp [ofFields, get, hn]

theorem ofFields_get (s : Settings) : ofFields s.get = s := rfl

/-- Loading leads to the settings in which every field has the value that it resolves to. -/
theorem loadWith_eq_ok_iff {sources : Sources} {s : Settings} :
    loadWith conventions sources = .ok s ↔
      ∀ f : Field, f.resolve conventions sources = .ok (s.get f) := by
  have hnone : Field.all.filterMap (Field.error? conventions sources) = [] ↔
      ∀ f : Field, f.resolve conventions sources = .ok (f.value conventions sources) := by
    simp [List.filterMap_eq_nil_iff, Field.mem_all, Field.error?_eq_none_iff]
  unfold loadWith
  constructor
  · intro h
    split at h
    · next hall =>
      cases h
      intro f
      have hvalues := hnone.mp hall
      rw [get_ofFields fun g => Field.accepts_of_resolve (hvalues g)]
      exact hvalues f
    · cases h
  · intro h
    have hvalue : ∀ f : Field, f.value conventions sources = s.get f := by
      intro f
      rw [Field.value, h f]
    rw [hnone.mpr fun f => hvalue f ▸ h f, funext hvalue]
    exact congrArg Except.ok s.ofFields_get

/-- Settings that are loaded are within their bounds. -/
theorem inBounds_of_loadWith {sources : Sources} {s : Settings}
    (h : loadWith conventions sources = .ok s) : s.InBounds :=
  fun f => (Field.accepts_of_resolve (loadWith_eq_ok_iff.mp h f)).least_le

/-- The settings where nothing is given. -/
def fallback : Settings := ofFields Field.fallback

/-- The caller alone gives some fields. -/
def given (entries : List (Field × Int)) : Sources :=
  ⟨entries.map fun entry => (entry.1.name, .whole entry.2), [], none⟩

/-- The last number that the caller gives for a field counts, if there is nothing else. -/
theorem raw?_given (entries : List (Field × Int)) (f : Field) :
    f.raw? .standard (given entries) =
      (entries.reverse.find? (·.1 = f)).map fun entry => .whole entry.2 := by
  have hgiven : f.given .standard (given entries) =
      (entries.filter (·.1 = f)).map fun entry => .whole entry.2 := by
    have hname : ∀ entry : Field × Int,
        f.isKeyword .standard entry.1.name = decide (entry.1 = f) := by
      intro entry
      simp [Field.isKeyword, Conventions.standard, Field.name_inj]
    simp [Field.given, under, given, List.filter_map, Function.comp_def, hname]
  rw [Field.raw?, hgiven, List.getLast?_map, ← List.head?_reverse, ← List.filter_reverse,
    List.head?_filter]
  cases entries.reverse.find? (·.1 = f) <;> rfl

/-- What is given is read, and all else has its default. -/
theorem load_given_iff {entries : List (Field × Int)} {s : Settings} :
    load (given entries) = .ok s ↔
      ∀ f : Field, (match entries.reverse.find? (·.1 = f) with
        | some entry => f.read .standard (.whole entry.2)
        | none => .ok f.fallback) = .ok (s.get f) := by
  rw [load, loadWith_eq_ok_iff]
  refine forall_congr' fun f => ?_
  rw [Field.resolve, raw?_given]
  cases entries.reverse.find? (·.1 = f) <;> rfl

/-- A seed, if there is one, may be any number. -/
theorem load_seed (seed : Option Int) :
    load (given (seed.toList.map (Field.seed, ·))) = .ok { fallback with seed := seed } := by
  refine load_given_iff.mpr fun f => ?_
  cases seed <;> cases f <;> rfl

end Settings

end BoolNat
