import BoolNat.Proofs.Log.Join
set_option autoImplicit false

/-! # Filters written back

A filter is written as its global level with an entry for each of its modules behind it
(`LogFilter.write`).  What has been read from a text in ASCII is made of tokens, which are trimmed,
in small letters and without commas, and no module stands in it twice
(`LogFilter.canonical_parse`).  Such a filter is read back from what is written of it
(`LogFilter.Canonical.parse_write`): what is written is cut again at the commas between its tokens
and at the first sign of equality of every entry, and letter case and trimming leave tokens as they
are.
-/

namespace BoolNat

namespace Text

/-! ## Small letters of ASCII -/

/-- The text is in ASCII, with no capital letter. -/
def IsSmall (cs : List Char) : Prop := ∀ c ∈ cs, c.toNat < 128 ∧ c.toLower = c

-- Without its name, an instance that goes through all characters would be found first.
instance (cs : List Char) : Decidable (IsSmall cs) := List.decidableBAll _ cs

theorem toNat_letterCase_lt {c : Char} (h : c.toNat < 128) :
    c.toLower.toNat < 128 ∧ c.toUpper.toNat < 128 := by
  have hall : ∀ n < 128,
      (Char.ofNat n).toLower.toNat < 128 ∧ (Char.ofNat n).toUpper.toNat < 128 := by
    decide
  have hc := hall c.toNat h
  rwa [Char.ofNat_toNat] at hc

theorem toLower_letterCase {c : Char} (h : c.toNat < 128) :
    c.toLower.toLower = c.toLower ∧ c.toUpper.toLower = c.toLower := by
  have hall : ∀ n < 128, (Char.ofNat n).toLower.toLower = (Char.ofNat n).toLower ∧
      (Char.ofNat n).toUpper.toLower = (Char.ofNat n).toLower := by
    decide
  have hc := hall c.toNat h
  rwa [Char.ofNat_toNat] at hc

theorem lowerFrom_of_ascii {cs : List Char} (h : ∀ c ∈ cs, c.toNat < 128) (afterCased : Bool) :
    lowerFrom afterCased cs = cs.map Char.toLower := by
  induction cs generalizing afterCased with
  | nil => rfl
  | cons c rest ih =>
    obtain ⟨hc, hrest⟩ := List.forall_mem_cons.mp h
    have hsigma : c ≠ 'Σ' := by
      rintro rfl
      exact absurd hc (by decide)
    have hlower : lowerChar c = [c.toLower] := if_pos hc
    simp only [lowerFrom, if_neg hsigma, hlower, ih hrest]
    rfl

theorem isSmall_lower {cs : List Char} (h : ∀ c ∈ cs, c.toNat < 128) : IsSmall (lower cs) := by
  rw [lower, lowerFrom_of_ascii h]
  intro c hc
  obtain ⟨d, hd, rfl⟩ := List.mem_map.mp hc
  exact ⟨(toNat_letterCase_lt (h d hd)).1, (toLower_letterCase (h d hd)).1⟩

theorem lower_of_isSmall {cs : List Char} (h : IsSmall cs) : lower cs = cs := by
  rw [lower, lowerFrom_of_ascii fun c hc => (h c hc).1]
  exact (List.map_congr_left fun c hc => (h c hc).2).trans (List.map_id cs)

/-- Small letters come back from capital ones. -/
theorem lower_upper {cs : List Char} (h : IsSmall cs) : lower (upper cs) = cs := by
  have hupper : upper cs = cs.map Char.toUpper := by
    rw [upper, List.map_eq_flatMap]
    exact List.flatMap_congr fun c hc => if_pos (h c hc).1
  have hascii : ∀ c ∈ cs.map Char.toUpper, c.toNat < 128 := by
    intro c hc
    obtain ⟨d, hd, rfl⟩ := List.mem_map.mp hc
    exact (toNat_letterCase_lt (h d hd).1).2
  rw [hupper, lower, lowerFrom_of_ascii hascii, List.map_map]
  refine (List.map_congr_left fun c hc => ?_).trans (List.map_id cs)
  exact (toLower_letterCase (h c hc).1).2.trans (h c hc).2

end Text

namespace ModuleLevels

/-- Levels that are put over none stay as they are. -/
theorem update_nil {entries : ModuleLevels} (h : (entries.map (·.1)).Nodup) :
    update [] entries = entries := by
  refine (eq_of_names_of_lookup h ?_ fun name => ?_).symm
  · rw [names_update h]
    simp
  · rw [lookup_update h]
    simp

end ModuleLevels

namespace LogFilter

/-! ## Writing -/

/-- How a setting is written. -/
def settingText : Setting → List Char
  | .silent => "false".toList
  | .atLeast level => Text.lower level.toList

/-- How a module and its setting are written. -/
def entryText (entry : String × Setting) : List Char :=
  entry.1.toList ++ '=' :: settingText entry.2

/-- The text of a filter: its global level, and an entry for each of its modules in their order. -/
def write (filter : LogFilter) : String :=
  .ofList (filter.level.toList ++ filter.modules.flatMap fun entry => ',' :: entryText entry)

/-! ## Tokens -/

/-- A text that stays as it is when it is read in a filter. -/
structure IsToken (cs : List Char) : Prop where
  small : Text.IsSmall cs
  noComma : ',' ∉ cs
  trimmed : Text.strip cs = cs

/-- A module under a token, with what a token says about it. -/
structure IsEntry (entry : String × Setting) : Prop where
  name : IsToken entry.1.toList
  plain : '=' ∉ entry.1.toList
  setting : ∃ level, IsToken level ∧ entry.2 = settingOf level

/-- A filter that stays as it is when it is written and read: a token for the level, and entries
for distinct modules. -/
structure Canonical (filter : LogFilter) : Prop where
  level : IsToken filter.level.toList
  plain : '=' ∉ filter.level.toList
  nonempty : filter.level.toList ≠ []
  entry : ∀ entry ∈ filter.modules, IsEntry entry
  nodup : (filter.modules.map (·.1)).Nodup

theorem IsToken.strip {cs : List Char} (hsmall : Text.IsSmall cs) (hcomma : ',' ∉ cs) :
    IsToken (Text.strip cs) where
  small := fun c hc => hsmall c (Text.mem_of_mem_strip hc)
  noComma := fun hmem => hcomma (Text.mem_of_mem_strip hmem)
  trimmed := Text.strip_strip cs

/-- A token that is read as a setting is what is written of the setting. -/
theorem settingText_settingOf {level : List Char} (h : Text.IsSmall level) :
    settingText (settingOf level) = level := by
  unfold settingOf
  split
  · next hfalse => exact hfalse.symm
  · rw [settingText, String.toList_ofList, Text.lower_upper h]

/-! ## What is read is canonical -/

/-- A part has no comma, and no character that the text has not. -/
theorem forall_mem_parts (cs : List Char) : ∀ part ∈ parts cs, ',' ∉ part ∧ part ⊆ cs := by
  induction cs with
  | nil => simp [parts]
  | cons c rest ih =>
    have hrest : ∀ part ∈ parts rest, ',' ∉ part ∧ part ⊆ c :: rest :=
      fun part hpart => ⟨(ih part hpart).1, List.subset_cons_of_subset c (ih part hpart).2⟩
    by_cases hc : c = ','
    · subst hc
      exact List.forall_mem_cons.mpr ⟨⟨List.not_mem_nil, List.nil_subset _⟩, hrest⟩
    · obtain ⟨part, more, hparts⟩ := List.exists_cons_of_ne_nil (parts_ne_nil rest)
      rw [hparts] at hrest
      obtain ⟨⟨hcomma, hsubset⟩, hmore⟩ := List.forall_mem_cons.mp hrest
      rw [parts_cons_of_ne hc hparts]
      refine List.forall_mem_cons.mpr ⟨⟨?_, ?_⟩, hmore⟩
      · exact List.not_mem_cons_of_ne_of_not_mem (Ne.symm hc) hcomma
      · exact List.cons_subset.mpr ⟨List.mem_cons_self, hsubset⟩

theorem canonical_empty : Canonical empty where
  level := ⟨by decide, by decide, by decide +kernel⟩
  plain := by decide
  nonempty := by decide
  entry := fun _ h => absurd h List.not_mem_nil
  nodup := List.nodup_nil

variable {filter : LogFilter}

/-- A part of a text in ASCII keeps a filter canonical. -/
theorem Canonical.takePart (h : Canonical filter) {part : List Char}
    (hascii : ∀ c ∈ part, c.toNat < 128) (hcomma : ',' ∉ part) :
    Canonical (filter.takePart part) := by
  have hsmall := Text.isSmall_lower hascii
  have hcomma : ',' ∉ Text.lower part := fun hmem => hcomma ((Text.mem_lower_iff rfl).mp hmem)
  by_cases hequals : '=' ∈ Text.lower part
  · -- What stands on either side of the first sign of equality becomes a token.
    obtain ⟨name, level, hpart, hname⟩ := List.eq_append_cons_of_mem hequals
    rw [hpart] at hsmall hcomma
    have hentry : IsEntry (.ofList (Text.strip name), settingOf (Text.strip level)) := by
      refine ⟨?_, ?_, Text.strip level, ?_, rfl⟩
      · rw [String.toList_ofList]
        exact .strip (fun c hc => hsmall c (List.mem_append_left _ hc))
          fun hmem => hcomma (List.mem_append_left _ hmem)
      · rw [String.toList_ofList]
        exact fun hmem => hname (Text.mem_of_mem_strip hmem)
      · exact .strip (fun c hc => hsmall c (List.mem_append_right _ (List.mem_cons_of_mem _ hc)))
          fun hmem => hcomma (List.mem_append_right _ (List.mem_cons_of_mem _ hmem))
    rw [LogFilter.takePart, hpart, addPart_strip_of_equals hname]
    refine ⟨h.level, h.plain, h.nonempty, fun entry hmem => ?_, ModuleLevels.nodup_set h.nodup _ _⟩
    obtain rfl | hold := ModuleLevels.mem_of_mem_set hmem
    · exact hentry
    · exact h.entry entry hold
  · rw [LogFilter.takePart, addPart_strip_of_plain hequals]
    split
    · exact h
    · next hnonempty =>
      rw [Bool.not_eq_true, List.isEmpty_eq_false_iff] at hnonempty
      refine ⟨?_, ?_, ?_, h.entry, h.nodup⟩ <;> rw [String.toList_ofList]
      · exact .strip hsmall hcomma
      · exact fun hmem => hequals (Text.mem_of_mem_strip hmem)
      · exact hnonempty

theorem Canonical.foldl_takePart (h : Canonical filter) {ps : List (List Char)}
    (hps : ∀ part ∈ ps, (∀ c ∈ part, c.toNat < 128) ∧ ',' ∉ part) :
    Canonical (ps.foldl LogFilter.takePart filter) := by
  induction ps generalizing filter with
  | nil => exact h
  | cons part rest ih =>
    obtain ⟨⟨hascii, hcomma⟩, hrest⟩ := List.forall_mem_cons.mp hps
    exact ih (h.takePart hascii hcomma) hrest

/-- What is read from a text in ASCII is canonical. -/
theorem canonical_parse {text : String} (h : ∀ c ∈ text.toList, c.toNat < 128) :
    Canonical (parse text) := by
  rw [parse_eq_foldl]
  refine canonical_empty.foldl_takePart fun part hpart => ?_
  obtain ⟨hcomma, hsubset⟩ := forall_mem_parts text.toList part hpart
  exact ⟨fun c hc => h c (hsubset hc), hcomma⟩

/-! ## Reading back -/

/-- Texts behind commas are the parts of what they make up. -/
theorem parts_append_flatMap {first : List Char} (hfirst : ',' ∉ first) {rest : List (List Char)}
    (hrest : ∀ part ∈ rest, ',' ∉ part) :
    parts (first ++ rest.flatMap (',' :: ·)) = first :: rest := by
  induction rest generalizing first with
  | nil => rw [List.flatMap_nil, List.append_nil, parts_of_not_mem hfirst]
  | cons next rest ih =>
    obtain ⟨hnext, hrest⟩ := List.forall_mem_cons.mp hrest
    rw [List.flatMap_cons, List.cons_append, parts_append_comma, parts_of_not_mem hfirst,
      ih hnext hrest]
    rfl

namespace IsEntry

variable {entry : String × Setting}

theorem isToken_settingText (h : IsEntry entry) : IsToken (settingText entry.2) := by
  obtain ⟨level, hlevel, hsetting⟩ := h.setting
  rwa [hsetting, settingText_settingOf hlevel.small]

theorem settingOf_settingText (h : IsEntry entry) :
    settingOf (settingText entry.2) = entry.2 := by
  obtain ⟨level, hlevel, hsetting⟩ := h.setting
  rw [hsetting, settingText_settingOf hlevel.small]

theorem isSmall_entryText (h : IsEntry entry) : Text.IsSmall (entryText entry) := by
  intro c hc
  rcases List.mem_append.mp hc with hname | hrest
  · exact h.name.small c hname
  · obtain rfl | hsetting := List.mem_cons.mp hrest
    · decide
    · exact h.isToken_settingText.small c hsetting

theorem comma_notMem_entryText (h : IsEntry entry) : ',' ∉ entryText entry := by
  intro hmem
  rcases List.mem_append.mp hmem with hname | hrest
  · exact h.name.noComma hname
  · exact h.isToken_settingText.noComma (List.mem_of_ne_of_mem (by decide) hrest)

/-- An entry that is taken up sets its module. -/
theorem takePart_entryText (h : IsEntry entry) (filter : LogFilter) :
    filter.takePart (entryText entry) =
      { filter with modules := filter.modules.set entry.1 entry.2 } := by
  rw [takePart, Text.lower_of_isSmall h.isSmall_entryText, entryText,
    addPart_strip_of_equals h.plain, h.name.trimmed, h.isToken_settingText.trimmed,
    h.settingOf_settingText, String.ofList_toList]

end IsEntry

theorem foldl_entryText {entries : ModuleLevels} (h : ∀ entry ∈ entries, IsEntry entry)
    (filter : LogFilter) :
    (entries.map entryText).foldl takePart filter =
      { filter with modules := filter.modules.update entries } := by
  induction entries generalizing filter with
  | nil => rfl
  | cons entry rest ih =>
    obtain ⟨hentry, hrest⟩ := List.forall_mem_cons.mp h
    rw [List.map_cons, List.foldl_cons, hentry.takePart_entryText, ih hrest]
    rfl

theorem toList_write (filter : LogFilter) :
    filter.write.toList =
      filter.level.toList ++ (filter.modules.map entryText).flatMap (',' :: ·) := by
  rw [write, String.toList_ofList, List.flatMap_map]

theorem Canonical.parts_write (h : Canonical filter) :
    parts filter.write.toList = filter.level.toList :: filter.modules.map entryText := by
  rw [toList_write]
  refine parts_append_flatMap h.level.noComma fun text htext => ?_
  obtain ⟨entry, hentry, rfl⟩ := List.mem_map.mp htext
  exact (h.entry entry hentry).comma_notMem_entryText

/-- A canonical filter is read back from what is written of it. -/
theorem Canonical.parse_write (h : Canonical filter) : parse filter.write = filter := by
  have hlevel : empty.takePart filter.level.toList = ⟨filter.level, []⟩ := by
    rw [LogFilter.takePart, Text.lower_of_isSmall h.level.small, addPart_strip_of_plain h.plain,
      h.level.trimmed, List.isEmpty_eq_false_iff.mpr h.nonempty, String.ofList_toList]
    rfl
  rw [parse_eq_foldl, h.parts_write, List.foldl_cons, hlevel, foldl_entryText h.entry,
    ModuleLevels.update_nil h.nodup]

/-- What is written of a filter read from a text in ASCII is read as the same filter again, with
the same level and the same modules in the same order. -/
theorem parse_write_parse (text : String) (h : ∀ c ∈ text.toList, c.toNat < 128) :
    parse (write (parse text)) = parse text :=
  (canonical_parse h).parse_write

/-- The text of a filter with an empty name, an empty level, and levels with signs of equality. -/
def signs : String := " Info,, =x , A\t=FALSE, b = = Debug,a=,DEBUG "

theorem parse_write_parse_signs :
    (∀ c ∈ signs.toList, c.toNat < 128) ∧ write (parse signs) = "debug,=x,a=,b== debug" ∧
      parse "debug,=x,a=,b== debug" = parse signs := by
  have hascii : ∀ c ∈ signs.toList, c.toNat < 128 := by
    have hall : signs.toList.all (·.toNat < 128) = true := by decide
    exact fun c hc => of_decide_eq_true (List.all_eq_true.mp hall c hc)
  have hwrite : write (parse signs) = "debug,=x,a=,b== debug" := by decide +kernel
  have hread := parse_write_parse signs hascii
  rw [hwrite] at hread
  exact ⟨hascii, hwrite, hread⟩

/-- Outside ASCII this fails: the capital of the long s is that of s, so a level that is not `false`
is written as if it were. -/
example : parse "m=falſe" = ⟨"info", [("m", .atLeast "FALSE")]⟩ ∧
    parse (write (parse "m=falſe")) = ⟨"info", [("m", .silent)]⟩ := by
  decide +kernel

end LogFilter

end BoolNat
