import BoolNat.Proofs.Log.Filter
import BoolNat.Proofs.Log.Separator
import Mathlib.Data.List.Nodup
set_option autoImplicit false

/-! # Filters joined by a comma

Reading a filter takes up its parts one by one, and each of them sets a module, or sets the global
level, or is blank and changes nothing (`LogFilter.takePart_cases`).  What parts change does not
depend on what was there before, so taking them up after others is reading them alone and putting
the result over what the others say (`LogFilter.foldl_takePart`).  A comma only separates parts:
the filter of two texts around one is made of their filters in the same way
(`LogFilter.parse_joined`).
-/

namespace BoolNat

/-! ## Putting levels over levels -/

namespace ModuleLevels

theorem names_set (levels : ModuleLevels) (name : String) (setting : Setting) :
    (levels.set name setting).map (·.1) =
      if name ∈ levels.map (·.1) then levels.map (·.1) else levels.map (·.1) ++ [name] := by
  induction levels with
  | nil => rfl
  | cons entry rest ih => grind [set]

theorem nodup_set {levels : ModuleLevels} (h : (levels.map (·.1)).Nodup) (name : String)
    (setting : Setting) : ((levels.set name setting).map (·.1)).Nodup := by
  rw [names_set]
  split
  · exact h
  · next hnew =>
    rw [← List.concat_eq_append]
    exact h.concat hnew

theorem mem_of_mem_set {levels : ModuleLevels} {name : String} {setting : Setting}
    {entry : String × Setting} (h : entry ∈ levels.set name setting) :
    entry = (name, setting) ∨ entry ∈ levels := by
  induction levels with
  | nil => exact .inl (List.mem_singleton.mp h)
  | cons first rest ih => grind [set]

theorem lookup_of_not_mem {levels : ModuleLevels} {name : String}
    (h : name ∉ levels.map (·.1)) : levels.lookup name = none := by
  rw [List.lookup_eq_none_iff]
  intro entry hentry
  rw [bne_iff_ne]
  rintro rfl
  exact h (List.mem_map_of_mem hentry)

/-- A list of levels is known by its names and by what it says about each. -/
theorem eq_of_names_of_lookup {levels other : ModuleLevels} (hnodup : (levels.map (·.1)).Nodup)
    (hnames : levels.map (·.1) = other.map (·.1))
    (hlookup : ∀ name, levels.lookup name = other.lookup name) : levels = other := by
  induction levels generalizing other with
  | nil => exact (List.map_eq_nil_iff.mp hnames.symm).symm
  | cons entry rest ih =>
    obtain ⟨hfirst, hrest⟩ := List.nodup_cons.mp hnodup
    obtain ⟨key, setting⟩ := entry
    obtain ⟨⟨key', setting'⟩, rest', rfl, hkey, hnames'⟩ := List.map_eq_cons_iff.mp hnames.symm
    cases hkey
    have hsetting := hlookup key
    rw [List.lookup_cons_self, List.lookup_cons_self, Option.some.injEq] at hsetting
    have htail : rest = rest' := by
      refine ih hrest hnames'.symm fun name => ?_
      by_cases hname : name = key
      · subst hname
        rw [lookup_of_not_mem hfirst, lookup_of_not_mem (hnames' ▸ hfirst)]
      · have hname' := hlookup name
        rwa [List.lookup_cons, List.lookup_cons, beq_false_of_ne hname] at hname'
    rw [hsetting, htail]

variable {changes : ModuleLevels}

/-- The names of levels stay in their places, and those of the changes that are new come after
them. -/
theorem names_update (h : (changes.map (·.1)).Nodup) (levels : ModuleLevels) :
    (levels.update changes).map (·.1) =
      levels.map (·.1) ++ (changes.map (·.1)).filter (· ∉ levels.map (·.1)) := by
  induction changes generalizing levels with
  | nil => simp [update]
  | cons entry rest ih =>
    obtain ⟨hfirst, hrest⟩ := List.nodup_cons.mp h
    refine (ih hrest (levels.set entry.1 entry.2)).trans ?_
    rw [names_set, List.map_cons]
    split
    · next hold => rw [List.filter_cons_of_neg (by simpa using hold)]
    · next hnew =>
      have hlater : (rest.map (·.1)).filter (· ∉ levels.map (·.1) ++ [entry.1]) =
          (rest.map (·.1)).filter (· ∉ levels.map (·.1)) := by
        refine List.filter_congr fun name hname => ?_
        have hother : name ≠ entry.1 := by
          rintro rfl
          exact hfirst hname
        simp [hother]
      rw [hlater, List.filter_cons_of_pos (by simpa using hnew), List.append_assoc]
      rfl

/-- What the changes say about a module counts, and else what was said before. -/
theorem lookup_update (h : (changes.map (·.1)).Nodup) (levels : ModuleLevels) (name : String) :
    (levels.update changes).lookup name = (changes.lookup name).or (levels.lookup name) := by
  induction changes generalizing levels with
  | nil => rfl
  | cons entry rest ih =>
    obtain ⟨hfirst, hrest⟩ := List.nodup_cons.mp h
    refine (ih hrest (levels.set entry.1 entry.2)).trans ?_
    rw [lookup_set, List.lookup_cons]
    split
    · next heq =>
      subst heq
      rw [lookup_of_not_mem hfirst, beq_self_eq_true]
      rfl
    · next hne => rw [beq_false_of_ne hne]

theorem nodup_update {levels : ModuleLevels} (h : (levels.map (·.1)).Nodup)
    (changes : ModuleLevels) : ((levels.update changes).map (·.1)).Nodup := by
  induction changes generalizing levels with
  | nil => exact h
  | cons entry rest ih => exact ih (nodup_set h entry.1 entry.2)

/-- A module that is set after some changes might be set among them. -/
theorem set_update {levels : ModuleLevels} (hlevels : (levels.map (·.1)).Nodup)
    (h : (changes.map (·.1)).Nodup) (name : String) (setting : Setting) :
    (levels.update changes).set name setting = levels.update (changes.set name setting) := by
  have hset := nodup_set h name setting
  refine eq_of_names_of_lookup (nodup_set (nodup_update hlevels changes) name setting) ?_ ?_
  · rw [names_set, names_update h, names_update hset, names_set]
    generalize levels.map (·.1) = old, changes.map (·.1) = more
    by_cases hold : name ∈ old <;> by_cases hmore : name ∈ more <;> simp [hold, hmore]
  · intro module
    rw [lookup_set, lookup_update h, lookup_update hset, lookup_set]
    split <;> simp

end ModuleLevels

namespace LogFilter

/-! ## Parts one by one -/

/-- Take up one part of a text, with blanks around it and in whatever letters. -/
def takePart (filter : LogFilter) (part : List Char) : LogFilter :=
  filter.addPart (Text.strip (Text.lower part))

theorem parse_eq_foldl (text : String) :
    parse text = (parts text.toList).foldl takePart empty := by
  rw [parse, parts_lower, List.map_map, List.foldl_map]
  rfl

/-- A part sets the global level if it is not blank and has no sign of equality. -/
def SetsLevel (part : List Char) : Prop := '=' ∉ part ∧ part.all Text.isBlank = false

instance (part : List Char) : Decidable (SetsLevel part) := inferInstanceAs (Decidable (_ ∧ _))

theorem takePart_of_blank {part : List Char} (h : part.all Text.isBlank = true)
    (filter : LogFilter) : filter.takePart part = filter := by
  have hnil : Text.strip (Text.lower part) = [] := by
    rw [Text.strip_eq_nil_iff, Text.all_isBlank_lower, h]
  rw [takePart, hnil]
  rfl

theorem exists_takePart_of_equals {part : List Char} (h : '=' ∈ part) :
    ∃ name setting, ∀ filter : LogFilter, filter.takePart part =
      { filter with modules := filter.modules.set name setting } := by
  have hlower : '=' ∈ Text.lower part := (Text.mem_lower_iff (by decide)).mpr h
  obtain ⟨name, level, hpart, hname⟩ := List.eq_append_cons_of_mem hlower
  refine ⟨.ofList (Text.strip name), settingOf (Text.strip level), fun filter => ?_⟩
  rw [takePart, hpart]
  exact addPart_strip_of_equals hname level filter

theorem exists_takePart_of_setsLevel {part : List Char} (h : SetsLevel part) :
    ∃ level, ∀ filter : LogFilter, filter.takePart part = { filter with level := level } := by
  obtain ⟨hequals, hblank⟩ := h
  have hlower : '=' ∉ Text.lower part :=
    fun hmem => hequals ((Text.mem_lower_iff (by decide)).mp hmem)
  have hnonempty : (Text.strip (Text.lower part)).isEmpty = false := by
    rw [List.isEmpty_eq_false_iff, ne_eq, Text.strip_eq_nil_iff, Text.all_isBlank_lower, hblank]
    exact Bool.false_ne_true
  refine ⟨.ofList (Text.strip (Text.lower part)), fun filter => ?_⟩
  rw [takePart, addPart_strip_of_plain hlower, hnonempty]
  rfl

/-- A part sets a module, or it sets the global level, or it changes nothing. -/
theorem takePart_cases (part : List Char) :
    (¬ SetsLevel part ∧ ∃ name setting, ∀ filter : LogFilter,
        filter.takePart part = { filter with modules := filter.modules.set name setting }) ∨
      (SetsLevel part ∧ ∃ level, ∀ filter : LogFilter,
        filter.takePart part = { filter with level := level }) ∨
      (¬ SetsLevel part ∧ ∀ filter : LogFilter, filter.takePart part = filter) := by
  by_cases hequals : '=' ∈ part
  · exact .inl ⟨fun h => h.1 hequals, exists_takePart_of_equals hequals⟩
  · by_cases hlevel : SetsLevel part
    · exact .inr (.inl ⟨hlevel, exists_takePart_of_setsLevel hlevel⟩)
    · have hblank : part.all Text.isBlank = true :=
        Bool.of_not_eq_false fun hblank => hlevel ⟨hequals, hblank⟩
      exact .inr (.inr ⟨hlevel, takePart_of_blank hblank⟩)

/-! ## Parts after others -/

theorem foldl_takePart_of_blank {ps : List (List Char)}
    (h : ∀ part ∈ ps, part.all Text.isBlank = true) (filter : LogFilter) :
    ps.foldl takePart filter = filter := by
  induction ps with
  | nil => rfl
  | cons part rest ih =>
    obtain ⟨hpart, hrest⟩ := List.forall_mem_cons.mp h
    rw [List.foldl_cons, takePart_of_blank hpart, ih hrest]

theorem nodup_empty : (empty.modules.map (·.1)).Nodup := List.nodup_nil

theorem nodup_foldl_takePart {filter : LogFilter} (h : (filter.modules.map (·.1)).Nodup)
    (ps : List (List Char)) : ((ps.foldl takePart filter).modules.map (·.1)).Nodup := by
  induction ps generalizing filter with
  | nil => exact h
  | cons part rest ih =>
    refine ih ?_
    obtain ⟨_, name, setting, htake⟩ | ⟨_, level, htake⟩ | ⟨_, htake⟩ := takePart_cases part
    · rw [htake]
      exact ModuleLevels.nodup_set h name setting
    · rw [htake]
      exact h
    · rw [htake]
      exact h

/-- Parts that are taken up after others do to them what they do alone. -/
theorem foldl_takePart {filter : LogFilter} (h : (filter.modules.map (·.1)).Nodup)
    (ps : List (List Char)) :
    ps.foldl takePart filter =
      { level := if ∃ part ∈ ps, SetsLevel part then (ps.foldl takePart empty).level
          else filter.level
        modules := filter.modules.update (ps.foldl takePart empty).modules } := by
  -- From the end, so that the last part is put over the same parts on both sides.
  induction ps using List.reverseRecOn with
  | nil => simp [empty, ModuleLevels.update]
  | append_singleton ps part ih =>
    have hnodup := nodup_foldl_takePart nodup_empty ps
    rw [List.foldl_concat, List.foldl_concat, ih]
    obtain ⟨hlevel, name, setting, htake⟩ | ⟨hlevel, level, htake⟩ | ⟨hlevel, htake⟩ :=
      takePart_cases part
    · simp [htake, hlevel, or_and_right, exists_or, ModuleLevels.set_update h hnodup]
    · simp [htake, hlevel, or_and_right, exists_or]
    · simp [htake, hlevel, or_and_right, exists_or]

theorem nodup_modules_parse (text : String) : ((parse text).modules.map (·.1)).Nodup := by
  rw [parse_eq_foldl]
  exact nodup_foldl_takePart nodup_empty _

/-! ## Texts around a comma -/

/-- Some part of the text of a filter sets the global level. -/
def GivesLevel (text : String) : Prop := ∃ part ∈ parts text.toList, SetsLevel part

instance (text : String) : Decidable (GivesLevel text) :=
  inferInstanceAs (Decidable (∃ part ∈ parts text.toList, SetsLevel part))

theorem parts_joined (a b : String) :
    parts (a ++ "," ++ b).toList = parts a.toList ++ parts b.toList := by
  rw [← parts_append_comma]
  simp

/-- The filter of two texts around a comma names the modules of the first in their places and after
them those of the second that are new.  It says of a module what the second says, and else what the
first says.  Its global level is the one that the second gives, and else the one of the first.  What
is nothing but blanks and commas says nothing. -/
theorem parse_joined (a b : String) :
    (parse (a ++ "," ++ b)).modules = (parse a).modules.update (parse b).modules ∧
      (parse (a ++ "," ++ b)).modules.map (·.1) =
        (parse a).modules.map (·.1) ++
          ((parse b).modules.map (·.1)).filter (· ∉ (parse a).modules.map (·.1)) ∧
      (∀ module, (parse (a ++ "," ++ b)).modules.lookup module =
        ((parse b).modules.lookup module).or ((parse a).modules.lookup module)) ∧
      (parse (a ++ "," ++ b)).level =
        (if GivesLevel b then (parse b).level else (parse a).level) ∧
      ∀ text : String, (∀ part ∈ parts text.toList, part.all Text.isBlank = true) →
        parse text = ⟨"info", []⟩ := by
  have hjoined : parse (a ++ "," ++ b) =
      { level := if GivesLevel b then (parse b).level else (parse a).level
        modules := (parse a).modules.update (parse b).modules } := by
    have ha := nodup_modules_parse a
    rw [parse_eq_foldl a] at ha ⊢
    rw [parse_eq_foldl, parse_eq_foldl, parts_joined, List.foldl_append, foldl_takePart ha]
    rfl
  have hb := nodup_modules_parse b
  rw [hjoined]
  refine ⟨rfl, ModuleLevels.names_update hb _, ModuleLevels.lookup_update hb _, rfl, ?_⟩
  intro text hblank
  rw [parse_eq_foldl, foldl_takePart_of_blank hblank]
  rfl

/-- A module that is set again keeps its place, also under a name in other letters, and blank parts
at the end leave the level as it is. -/
theorem parse_joined_set_again :
    (parse ("Debug, Net =info,k=" ++ "," ++ "NET=False,=x=,nEt\t= Info , ")).modules =
        [("net", .atLeast "INFO"), ("k", .atLeast ""), ("", .atLeast "X=")] ∧
      (parse ("Debug, Net =info,k=" ++ "," ++ "NET=False,=x=,nEt\t= Info , ")).level = "debug" ∧
      parse " ,\t,, " = ⟨"info", []⟩ := by
  have hfirst : parse "Debug, Net =info,k=" =
      ⟨"debug", [("net", .atLeast "INFO"), ("k", .atLeast "")]⟩ := by
    decide +kernel
  have hsecond : parse "NET=False,=x=,nEt\t= Info , " =
      ⟨"info", [("net", .atLeast "INFO"), ("", .atLeast "X=")]⟩ := by
    decide +kernel
  obtain ⟨hmodules, _, _, hlevel, hblank⟩ :=
    parse_joined "Debug, Net =info,k=" "NET=False,=x=,nEt\t= Info , "
  rw [hfirst, hsecond] at hmodules hlevel
  rw [if_neg (by decide +kernel)] at hlevel
  exact ⟨hmodules, hlevel, hblank " ,\t,, " (by decide +kernel)⟩

end LogFilter

end BoolNat
