import BoolNat.Proofs.Settings.Layers
import Mathlib.Logic.ExistsUnique
set_option autoImplicit false

/-! # Loading field by field

Loading reports just the fields that cannot be read (`Settings.reports_loadWith_iff`), in their
order.  So it is settled for every field by itself whether there is an error and which, and what its
value is (`Settings.load_field_by_field`).

A name that is no field's can matter all the same, if a value in the file refers to it
(`Settings.maxSize_of_reference`).
-/

namespace BoolNat

variable {conventions : Conventions}

namespace Settings

/-- Loading has failed, and the error is among those that are reported. -/
def Reports (loaded : Except (List FieldError) Settings) (e : FieldError) : Prop :=
  ∃ errors, loaded = .error errors ∧ e ∈ errors

theorem mem_errors_iff {sources : Sources} {e : FieldError} :
    e ∈ Field.all.filterMap (Field.error? conventions sources) ↔
      e.field.resolve conventions sources = .error e.problem := by
  rw [List.mem_filterMap]
  constructor
  · rintro ⟨f, _, h⟩
    rw [Field.error?] at h
    split at h
    · cases h
    · next problem hproblem =>
      cases h
      exact hproblem
  · intro h
    exact ⟨e.field, e.field.mem_all, by rw [Field.error?, h]⟩

theorem mem_fields_errors_iff {sources : Sources} {f : Field} :
    f ∈ (Field.all.filterMap (Field.error? conventions sources)).map (·.field) ↔
      ∃ problem, f.resolve conventions sources = .error problem := by
  rw [List.mem_map]
  constructor
  · rintro ⟨e, he, rfl⟩
    exact ⟨e.problem, mem_errors_iff.mp he⟩
  · rintro ⟨problem, h⟩
    exact ⟨⟨f, problem⟩, mem_errors_iff.mpr h, rfl⟩

theorem loadWith_eq_error_iff {sources : Sources} {errors : List FieldError} :
    loadWith conventions sources = .error errors ↔
      errors = Field.all.filterMap (Field.error? conventions sources) ∧ errors ≠ [] := by
  rw [loadWith]
  split
  · next hnone =>
    rw [hnone]
    constructor
    · rintro ⟨⟩
    · rintro ⟨rfl, hne⟩
      exact absurd rfl hne
  · next found hsome =>
    rw [Except.error.injEq, eq_comm]
    exact ⟨fun heq => ⟨heq, fun hnil => hsome (heq ▸ hnil)⟩, And.left⟩

/-- An error is reported of just the fields that cannot be read. -/
theorem reports_loadWith_iff {sources : Sources} {e : FieldError} :
    Reports (loadWith conventions sources) e ↔
      e.field.resolve conventions sources = .error e.problem := by
  rw [← mem_errors_iff]
  constructor
  · rintro ⟨errors, hload, he⟩
    rw [loadWith_eq_error_iff] at hload
    exact hload.1 ▸ he
  · intro he
    exact ⟨_, loadWith_eq_error_iff.mpr ⟨rfl, List.ne_nil_of_mem he⟩, he⟩

/-- Errors are reported in the order of the fields, and one for a field. -/
theorem sublist_fields_errors (conventions : Conventions) (sources : Sources) :
    ((Field.all.filterMap (Field.error? conventions sources)).map (·.field)).Sublist Field.all := by
  have hfields : (Field.all.filterMap (Field.error? conventions sources)).map (·.field) =
      Field.all.filter fun f => (f.error? conventions sources).isSome := by
    rw [List.map_filterMap, ← List.filterMap_eq_filter]
    congr 1
    funext f
    cases h : f.resolve conventions sources <;> simp [Field.error?, Option.guard, h]
  rw [hfields]
  exact List.filter_sublist

theorem nodup_fields : Field.all.Nodup := by decide

/-- A field that is given by a reference has the value of a name that no field has. -/
theorem maxSize_of_reference :
    (∀ f : Field, f.isVariable "FOO" = false) ∧
      load ⟨[], [], some "ARITH_MAX_SIZE=$\x7bFOO\x7d\n"⟩ =
        .error [⟨.maxSize, .notAnInteger⟩] ∧
      load ⟨[], [], some "FOO=7\nARITH_MAX_SIZE=$\x7bFOO\x7d\n"⟩ =
        .ok { fallback with maxSize := 7 } ∧
      ¬ ∀ (f : Field) (name : String), f.isVariable name = false →
        ∀ value text problem, Reports (load ⟨[], [], some text⟩) ⟨f, problem⟩ →
          Reports (load ⟨[], [], some (name ++ "=" ++ value ++ "\n" ++ text)⟩) ⟨f, problem⟩ := by
  have hother : ∀ f : Field, f.isVariable "FOO" = false := by
    intro f
    cases f <;> decide +kernel
  have hwithout : load ⟨[], [], some "ARITH_MAX_SIZE=$\x7bFOO\x7d\n"⟩ =
      .error [⟨.maxSize, .notAnInteger⟩] := by decide +kernel
  have hwith : load ⟨[], [], some "FOO=7\nARITH_MAX_SIZE=$\x7bFOO\x7d\n"⟩ =
      .ok { fallback with maxSize := 7 } := by decide +kernel
  refine ⟨hother, hwithout, hwith, fun hall => ?_⟩
  obtain ⟨errors, herrors, _⟩ := hall .maxSize "FOO" (hother _) "7" _ .notAnInteger
    ⟨_, hwithout, List.mem_singleton.mpr rfl⟩
  cases hwith.symm.trans herrors

/-- Loading leads to settings within their bounds, in which every field has a value that it takes
from what decides it, or it fails, and reports just the fields that take no value from that, each
once and in their order.  Where nothing changes that is a concern of a field, no different errors
are reported of it, and no different values are loaded. -/
theorem load_field_by_field (conventions : Conventions) (sources : Sources) :
    (∀ f : Field, ∃! top, f.DecidedBy conventions sources top) ∧
      ((∃ s, loadWith conventions sources = .ok s ∧ s.InBounds ∧
          ∀ (f : Field) (top : Option Raw), f.DecidedBy conventions sources top →
            f.Takes conventions top (s.get f)) ∨
        ∃ errors, loadWith conventions sources = .error errors ∧ errors ≠ [] ∧
          (errors.map (·.field)).Sublist Field.all ∧ (errors.map (·.field)).Nodup ∧
          ∀ f : Field, f ∈ errors.map (·.field) ↔
            ∃ top, f.DecidedBy conventions sources top ∧
              ∀ value, ¬ f.Takes conventions top value) ∧
      ∀ (f : Field) (other : Sources), f.Undisturbed conventions sources other →
        (∀ problem : Problem, Reports (loadWith conventions sources) ⟨f, problem⟩ ↔
          Reports (loadWith conventions other) ⟨f, problem⟩) ∧
        ∀ s s' : Settings, loadWith conventions sources = .ok s →
          loadWith conventions other = .ok s' → s.get f = s'.get f := by
  refine ⟨fun f => ?_, ?_, fun f other h => ⟨fun problem => ?_, fun s s' hs hs' => ?_⟩⟩
  · refine ⟨f.raw? conventions sources, Field.decidedBy_iff.mpr rfl, fun top h => ?_⟩
    exact (Field.decidedBy_iff.mp h).symm
  · cases hload : loadWith conventions sources with
    | ok s =>
      refine .inl ⟨s, rfl, inBounds_of_loadWith hload, fun f top h => ?_⟩
      exact (Field.resolve_eq_ok_iff h).mp (loadWith_eq_ok_iff.mp hload f)
    | error errors =>
      obtain ⟨rfl, hne⟩ := loadWith_eq_error_iff.mp hload
      have hsublist := sublist_fields_errors conventions sources
      refine .inr ⟨_, rfl, hne, hsublist, hsublist.nodup nodup_fields, fun f => ?_⟩
      rw [mem_fields_errors_iff, Field.exists_resolve_eq_error_iff]
  · rw [reports_loadWith_iff, reports_loadWith_iff, h.sameSource.resolve_eq]
  · have hvalue := loadWith_eq_ok_iff.mp hs f
    rw [← h.sameSource.resolve_eq, loadWith_eq_ok_iff.mp hs' f] at hvalue
    exact (Except.ok.inj hvalue).symm

/-- The caller gives one field, the environment another, and the file a third. -/
def sparse : Sources :=
  ⟨[("max_size", .whole 3)], [("ARITH_SEED", "7")],
    some ("FOO=1\n" ++ "ARITH_MAX_DEPTH=$\x7bFOO\x7d\n")⟩

/-- The same three fields are given, among values that do not count for them.  What looks like an
entry for the third is inside a quoted value. -/
def crowded : Sources :=
  ⟨[("max_size", .whole 3), ("seed", .missing), ("random_depth", .whole 0)],
    [("ARITH_SEED", "7"), ("arith_max_size", "many")],
    some ("FOO=1\n" ++ "ARITH_SEED=\"\nARITH_MAX_DEPTH=9\n\"\nArith_Max_Steps=-1\n" ++
      "ARITH_MAX_DEPTH=$\x7bFOO\x7d\n")⟩

/-- Three fields with sources of their own are none of those that an error is reported of, although
there are values for them elsewhere that cannot be read. -/
theorem load_field_by_field_crowded :
    load crowded = .error [⟨.maxSteps, .below 0⟩, ⟨.randomDepth, .below 1⟩] ∧
      ∀ f : Field, f = .seed ∨ f = .maxSize ∨ f = .maxDepth →
        f.Undisturbed .standard sparse crowded ∧
          ∀ problem, ¬ Reports (load sparse) ⟨f, problem⟩ := by
  have hload : load crowded = .error [⟨.maxSteps, .below 0⟩, ⟨.randomDepth, .below 1⟩] := by
    decide +kernel
  have hcaller : ∀ f : Field, f = .seed ∨ f = .maxSize ∨ f = .maxDepth →
      f.Undisturbed .standard sparse ⟨crowded.overrides, sparse.environment, sparse.file⟩ := by
    intro f hf
    have hdepth : f.isKeyword .standard "random_depth" = false := by
      obtain rfl | rfl | rfl := hf <;> decide +kernel
    exact (Field.Undisturbed.override (.inr rfl) [("max_size", .whole 3)] [] _ _).trans
      (.override (.inl hdepth) [("max_size", .whole 3), ("seed", .missing)] [] _ _)
  have hsame : ∀ f : Field, f = .seed ∨ f = .maxSize ∨ f = .maxDepth →
      f.Undisturbed .standard sparse crowded := by
    intro f hf
    refine (hcaller f hf).trans ?_
    obtain rfl | rfl | rfl := hf
    · have hnames : Field.seed.DrawsOn Field.seed.isVariable sparse.file :=
        Field.drawsOn_isVariable (by decide +kernel)
      exact (Field.Undisturbed.environment hnames (by decide +kernel) _).trans
        (.belowEnvironment (by decide +kernel) _)
    · exact .belowCaller (by decide +kernel) _ _
    · -- The value in the file refers to another entry of the file, which stays where it is.
      have hnames : Field.maxDepth.DrawsOn
          (fun name => Field.maxDepth.isVariable name || name = "FOO") sparse.file :=
        ⟨fun name hname => by rw [hname]; rfl, by decide +kernel⟩
      have hbefore : Dotenv.Whole "FOO=1\n".toList :=
        Dotenv.whole_lines ["FOO=1".toList] (by decide)
      have hquoted : Dotenv.Whole ("ARITH_SEED".toList ++ '=' :: '"' ::
          ("\nARITH_MAX_DEPTH=9\n".toList ++ ['"', '\n'])) :=
        Dotenv.whole_quoted (by decide) (List.all_eq_true.mp (by decide)) (by decide) (.inr rfl)
          (by decide) (by decide)
      have hpassage : Dotenv.Whole
          "ARITH_SEED=\"\nARITH_MAX_DEPTH=9\n\"\nArith_Max_Steps=-1\n".toList :=
        hquoted.append (Dotenv.whole_lines ["Arith_Max_Steps=-1".toList] (by decide))
      exact (Field.Undisturbed.environment hnames (by decide +kernel) _).trans
        (.passage hnames hbefore hpassage (by decide +kernel) _ _)
  refine ⟨hload, fun f hf => ⟨hsame f hf, fun problem hreports => ?_⟩⟩
  obtain ⟨_, _, hfields⟩ := load_field_by_field .standard sparse
  obtain ⟨errors, herrors, hmem⟩ := ((hfields f crowded (hsame f hf)).1 problem).mp hreports
  cases hload.symm.trans herrors
  obtain rfl | rfl | rfl := hf <;> simp at hmem

end Settings

end BoolNat
