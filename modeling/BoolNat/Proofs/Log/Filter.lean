import BoolNat.Log.Sink
import Mathlib.Data.List.DropRight
set_option autoImplicit false

/-! # What a filter says about a module

A filter names the modules that stand before a sign of equality in one of its parts, trimmed
(`LogFilter.Names`).  Those are the modules that the filter keeps when it is read
(`LogFilter.mem_modules_parse_iff`), and of all others a sink knows what the defaults say and
nothing more (`Sink.lookup_gates_of_not_names`).
-/

namespace BoolNat

/-! ## Trimmed texts -/

namespace Text

theorem dropWhile_append_cons {drop : Char → Bool} {c : Char} (h : drop c = false)
    (before after : List Char) :
    (before ++ c :: after).dropWhile drop = before.dropWhile drop ++ c :: after := by
  induction before with
  | nil => exact List.dropWhile_cons_of_neg (by simp [h])
  | cons d rest ih =>
    cases hd : drop d with
    | true => simpa [hd] using ih
    | false => simp [hd]

theorem trimRight_append_cons {drop : Char → Bool} {c : Char} (h : drop c = false)
    (before after : List Char) :
    trimRight drop (before ++ c :: after) = before ++ c :: trimRight drop after := by
  have hreverse : (before ++ c :: after).reverse = after.reverse ++ c :: before.reverse := by simp
  rw [trimRight, hreverse, dropWhile_append_cons h]
  simp [trimRight]

theorem trimRight_eq_rdropWhile (drop : Char → Bool) (cs : List Char) :
    trimRight drop cs = cs.rdropWhile drop := rfl

/-- The two ends of a text are trimmed in either order. -/
theorem dropWhile_trimRight (drop : Char → Bool) (cs : List Char) :
    (trimRight drop cs).dropWhile drop = trimRight drop (cs.dropWhile drop) := by
  cases hrest : cs.dropWhile drop with
  | nil =>
    have hall : ∀ c ∈ cs, drop c = true := List.dropWhile_eq_nil_iff.mp hrest
    have hnil : trimRight drop cs = [] := List.rdropWhile_eq_nil_iff.mpr hall
    rw [hnil]
    rfl
  | cons c after =>
    have hkept : drop c = false := by
      have hhead := List.head?_dropWhile_not drop cs
      rw [hrest] at hhead
      exact hhead
    have hsplit : cs = cs.takeWhile drop ++ c :: after := by
      rw [← hrest, List.takeWhile_append_dropWhile]
    have hdropped : (cs.takeWhile drop).dropWhile drop = [] :=
      List.dropWhile_eq_nil_iff.mpr fun _ => List.mem_takeWhile_imp
    have hend : trimRight drop (c :: after) = c :: trimRight drop after :=
      trimRight_append_cons hkept [] after
    rw [hsplit, trimRight_append_cons hkept, dropWhile_append_cons hkept, hdropped, hend]
    rfl

/-- Around a character that is not blank, what stands on either side is trimmed at its end. -/
theorem strip_append_cons {c : Char} (h : isBlank c = false) (before after : List Char) :
    strip (before ++ c :: after) =
      before.dropWhile isBlank ++ c :: trimRight isBlank after := by
  rw [strip, trim, dropWhile_append_cons h, trimRight_append_cons h]

theorem strip_dropWhile (cs : List Char) : strip (cs.dropWhile isBlank) = strip cs := by
  rw [strip, trim, List.dropWhile_idempotent]
  rfl

theorem strip_trimRight (cs : List Char) : strip (trimRight isBlank cs) = strip cs := by
  rw [strip, trim, dropWhile_trimRight, trimRight_eq_rdropWhile, trimRight_eq_rdropWhile,
    List.rdropWhile_idempotent]
  rfl

theorem strip_strip (cs : List Char) : strip (strip cs) = strip cs :=
  (strip_trimRight _).trans (strip_dropWhile cs)

theorem strip_eq_nil_iff {cs : List Char} : strip cs = [] ↔ cs.all isBlank = true := by
  rw [strip, trim, trimRight_eq_rdropWhile, List.rdropWhile_eq_nil_iff, List.all_eq_true]
  constructor
  · intro hrest c hc
    rw [← List.takeWhile_append_dropWhile (p := isBlank) (l := cs)] at hc
    rcases List.mem_append.mp hc with hfront | hback
    · exact List.mem_takeWhile_imp hfront
    · exact hrest c hback
  · intro hall c hc
    exact hall c ((List.dropWhile_sublist isBlank).subset hc)

theorem mem_of_mem_strip {c : Char} {cs : List Char} (h : c ∈ strip cs) : c ∈ cs :=
  (List.dropWhile_sublist isBlank).subset ((List.rdropWhile_prefix isBlank _).subset h)

end Text

/-! ## The modules of a filter -/

namespace ModuleLevels

theorem mem_set_iff {levels : ModuleLevels} {name module : String} {setting : Setting} :
    module ∈ (levels.set name setting).map (·.1) ↔
      module = name ∨ module ∈ levels.map (·.1) := by
  induction levels with
  | nil => simp [set]
  | cons entry rest ih =>
    rw [set]
    split
    · next h => simp [h]
    · simp only [List.map_cons, List.mem_cons, ih]
      exact or_left_comm

theorem lookup_set (levels : ModuleLevels) (name module : String) (setting : Setting) :
    (levels.set name setting).lookup module =
      if module = name then some setting else levels.lookup module := by
  induction levels with
  | nil => grind [set]
  | cons entry rest ih =>
    rw [set]
    split
    · next hkey => grind
    · next hkey => grind

/-- Of a module that the changes do not name, the same is said as before. -/
theorem lookup_update_of_not_mem {changes : ModuleLevels} {module : String}
    (h : module ∉ changes.map (·.1)) (levels : ModuleLevels) :
    (levels.update changes).lookup module = levels.lookup module := by
  induction changes generalizing levels with
  | nil => rfl
  | cons entry rest ih =>
    rw [List.map_cons, List.mem_cons, not_or] at h
    refine (ih h.2 (levels.set entry.1 entry.2)).trans ?_
    rw [lookup_set, if_neg h.1]

end ModuleLevels

namespace LogFilter

/-- A part names the module that stands before its first sign of equality, trimmed. -/
def PartNames (part : List Char) (module : String) : Prop :=
  '=' ∈ part ∧ String.ofList (Text.strip (part.takeWhile (· ≠ '='))) = module

/-- The text of a filter has an entry for the module, without regard to letter case. -/
def Names (text module : String) : Prop :=
  ∃ part ∈ parts (Text.lower text.toList), PartNames part module

instance (part : List Char) (module : String) : Decidable (PartNames part module) :=
  inferInstanceAs (Decidable (_ ∧ _))

instance (text module : String) : Decidable (Names text module) :=
  inferInstanceAs (Decidable (∃ part ∈ parts (Text.lower text.toList), PartNames part module))

theorem takeWhile_of_equals {name : List Char} (h : '=' ∉ name) (level : List Char) :
    (name ++ '=' :: level).takeWhile (· ≠ '=') = name := by
  have hname : ∀ c ∈ name, decide (c ≠ '=') = true :=
    fun c hc => decide_eq_true fun heq => h (heq ▸ hc)
  rw [List.takeWhile_append_of_pos hname]
  simp

/-- A part with a sign of equality is about what stands before it. -/
theorem addPart_strip_of_equals {name : List Char} (h : '=' ∉ name) (level : List Char)
    (filter : LogFilter) :
    filter.addPart (Text.strip (name ++ '=' :: level)) =
      { filter with
        modules := filter.modules.set (String.ofList (Text.strip name))
          (settingOf (Text.strip level)) } := by
  have hname : '=' ∉ name.dropWhile Text.isBlank :=
    fun hmem => h ((List.dropWhile_sublist _).subset hmem)
  have htake := takeWhile_of_equals hname (Text.trimRight Text.isBlank level)
  have hnonempty : (name.dropWhile Text.isBlank ++
      '=' :: Text.trimRight Text.isBlank level).isEmpty = false := by simp
  rw [Text.strip_append_cons (by decide), addPart, hnonempty]
  simp only [htake, List.drop_left, Text.strip_dropWhile, Text.strip_trimRight]
  rfl

/-- A part without one is the global level, unless it is blank. -/
theorem addPart_strip_of_plain {part : List Char} (h : '=' ∉ part) (filter : LogFilter) :
    filter.addPart (Text.strip part) =
      if (Text.strip part).isEmpty then filter
      else { filter with level := String.ofList (Text.strip part) } := by
  have htake : (Text.strip part).takeWhile (· ≠ '=') = Text.strip part := by
    refine List.takeWhile_eq_self_iff.mpr fun c hc => ?_
    exact decide_eq_true fun heq => h (heq ▸ Text.mem_of_mem_strip hc)
  simp only [addPart, htake, List.drop_length]

theorem mem_modules_addPart_iff {filter : LogFilter} {part : List Char} {module : String} :
    module ∈ (filter.addPart (Text.strip part)).modules.map (·.1) ↔
      PartNames part module ∨ module ∈ filter.modules.map (·.1) := by
  unfold PartNames
  by_cases h : '=' ∈ part
  · obtain ⟨name, level, rfl, hname⟩ := List.eq_append_cons_of_mem h
    rw [addPart_strip_of_equals hname, ModuleLevels.mem_set_iff, takeWhile_of_equals hname]
    simp [eq_comm]
  · rw [addPart_strip_of_plain h]
    split <;> simp [h]

/-- The modules of a filter are those that its text names. -/
theorem mem_modules_parse_iff {text module : String} :
    module ∈ (parse text).modules.map (·.1) ↔ Names text module := by
  have hfold : ∀ (ps : List (List Char)) (filter : LogFilter),
      module ∈ ((ps.map Text.strip).foldl addPart filter).modules.map (·.1) ↔
        (∃ part ∈ ps, PartNames part module) ∨ module ∈ filter.modules.map (·.1) := by
    intro ps
    induction ps with
    | nil => simp
    | cons part rest ih =>
      intro filter
      rw [List.map_cons, List.foldl_cons, ih, mem_modules_addPart_iff, ← or_assoc]
      simp [or_comm]
  refine (hfold _ empty).trans ?_
  simp [empty, Names]

end LogFilter

/-! ## The gates of a sink -/

/-- The gate for what is said about a module, if there is a level of the name. -/
def Setting.gate? : Setting → Option Gate
  | .silent => some .closed
  | .atLeast name => (Level.ofName? name).map .atLeast

namespace Sink

theorem gate?_of_gateOf {module : String} {setting : Setting} {entry : String × Gate}
    (h : gateOf (module, setting) = .ok entry) :
    entry.1 = module ∧ setting.gate? = some entry.2 := by
  cases setting with
  | silent =>
    cases h
    exact ⟨rfl, rfl⟩
  | atLeast name =>
    simp only [gateOf] at h
    split at h
    · next level hlevel =>
      cases h
      exact ⟨rfl, congrArg (Option.map Gate.atLeast) hlevel⟩
    · cases h

/-- The gates stand at the modules of which something is said. -/
theorem lookup_gates {levels : ModuleLevels} {gates : List (String × Gate)}
    (h : levels.mapM gateOf = .ok gates) (module : String) :
    gates.lookup module = (levels.lookup module).bind Setting.gate? := by
  induction levels generalizing gates with
  | nil =>
    cases h
    rfl
  | cons first rest ih =>
    rw [List.mapM_cons] at h
    cases hfirst : gateOf first with
    | error e =>
      rw [hfirst] at h
      cases h
    | ok entry =>
      cases hrest : rest.mapM gateOf with
      | error e =>
        rw [hfirst, hrest] at h
        cases h
      | ok entries =>
        rw [hfirst, hrest] at h
        cases h
        obtain ⟨hname, hgate⟩ := gate?_of_gateOf hfirst
        rw [List.lookup_cons, List.lookup_cons, hname, ih hrest]
        cases module == first.1
        · rfl
        · exact hgate.symm

theorem gates_of_ofFilter {profile : Profile} {filter : LogFilter} {sink : Sink}
    (h : ofFilter profile filter = .ok sink) :
    filter.mergedModules.mapM gateOf = .ok sink.gates := by
  unfold ofFilter at h
  split at h
  · cases h
  · next gates hgates =>
    split at h
    · cases h
    · cases h
      exact hgates

/-- At a module that the filter does not name, there is the gate of the defaults, if any. -/
theorem lookup_gates_of_not_names {profile : Profile} {text module : String} {sink : Sink}
    (h : ofFilter profile (.parse text) = .ok sink) (hnames : ¬ LogFilter.Names text module) :
    sink.gates.lookup module = (LogFilter.defaultModules.lookup module).bind Setting.gate? := by
  have hmodules : module ∉ (LogFilter.parse text).modules.map (·.1) :=
    fun hmem => hnames (LogFilter.mem_modules_parse_iff.mp hmem)
  rw [lookup_gates (gates_of_ofFilter h), LogFilter.mergedModules,
    ModuleLevels.lookup_update_of_not_mem hmodules]

end Sink

end BoolNat
