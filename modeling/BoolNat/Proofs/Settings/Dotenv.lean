import BoolNat.Settings.Dotenv
import Mathlib.Data.List.Basic
import Mathlib.Data.List.TakeWhile
set_option autoImplicit false

/-! # Files of variables are read piece by piece

Every entry takes a character at least (`Dotenv.length_readEntry_le`), so the bound on their number
is never reached and a file is read entry by entry to its end (`Dotenv.scan_of_entry`).

A passage is whole if it is read alike whatever follows it (`Dotenv.Whole`).  Whole passages can be
put behind one another, and what they bind is what each of them binds.  A line without quotes is
whole (`Dotenv.whole_line`), since nothing but a quoted name or value goes on beyond the end of its
line; and so is a quoted value that is closed where it seems to be (`Dotenv.whole_quoted`).
-/

namespace BoolNat.Dotenv

/-! ## Reading to the end -/

theorem length_skipLine_le (cs : List Char) : (skipLine cs).length ≤ cs.length - 1 := by
  have hdrop := List.length_dropWhile_le (!isLineEnd ·) cs
  rw [skipLine, List.length_drop]
  omega

theorem length_endEntry_le {cs rest : List Char} (h : endEntry cs = some rest) :
    rest.length ≤ cs.length - 1 := by
  have hblanks := List.length_dropWhile_le isInlineBlank cs
  simp only [endEntry] at h
  split at h
  · cases h
    exact Nat.zero_le _
  · next c end_ hend =>
    obtain ⟨-, hrest⟩ := Option.ite_none_right_eq_some.mp h
    cases hrest
    suffices hline : (c :: rest).length ≤ cs.length by
      rw [List.length_cons] at hline
      omega
    rw [← hend]
    split
    · next comment hcomment =>
      have hdrop := List.length_dropWhile_le (!isLineEnd ·) comment
      rw [hcomment, List.length_cons] at hblanks
      omega
    · exact hblanks

theorem length_finish_le (read : Option Binding) (cs : List Char) :
    (finish read cs).2.length ≤ cs.length - 1 := by
  unfold finish
  cases h : endEntry cs with
  | some rest => exact length_endEntry_le h
  | none => exact length_skipLine_le cs

theorem dropExport_suffix (cs : List Char) : dropExport cs <:+ cs := by
  unfold dropExport
  split
  · next c rest h =>
    obtain rfl := List.isPrefixOf?_eq_some_iff_append_eq.mp h
    split
    · exact (List.dropWhile_suffix _).trans
        ((List.suffix_cons c rest).trans (List.suffix_append _ _))
    · exact List.suffix_rfl
  · exact List.suffix_rfl

theorem length_readName_lt {cs name after : List Char} (h : readName cs = some (name, after)) :
    after.length < cs.length := by
  unfold readName at h
  split at h
  · next rest =>
    dsimp only at h
    split at h
    · next c behind hbehind =>
      obtain ⟨-, heq⟩ := Option.ite_none_left_eq_some.mp h
      cases heq
      have hlength := congrArg List.length hbehind
      rw [List.length_drop, List.length_cons] at hlength
      rw [List.length_cons]
      omega
    · cases h
  · obtain ⟨hname, heq⟩ := Option.ite_none_left_eq_some.mp h
    cases heq
    have hne := List.isEmpty_eq_false_iff.mp (Bool.eq_false_iff.mpr hname)
    have hpos := List.length_pos_iff.mpr hne
    have htake := (List.takeWhile_prefix (l := cs) isNameChar).length_le
    rw [List.length_drop]
    omega

theorem length_readQuoted_le {quote : Char} {hidden : Bool} {cs text rest : List Char}
    (h : readQuoted quote hidden cs = some (text, rest)) : rest.length ≤ cs.length := by
  induction cs generalizing hidden text with
  | nil => cases h
  | cons c cs ih =>
    rw [List.length_cons]
    have hfurther : ∀ hidden', (readQuoted quote hidden' cs).map (fun r => (c :: r.1, r.2)) =
        some (text, rest) → rest.length ≤ cs.length + 1 := by
      intro hidden' hmap
      obtain ⟨⟨further, behind⟩, hread, heq⟩ := Option.map_eq_some_iff.mp hmap
      cases heq
      exact Nat.le_succ_of_le (ih hread)
    rw [readQuoted] at h
    split at h
    · split at h
      · rcases Option.or_eq_some_iff.mp h with hlater | ⟨-, hhere⟩
        · exact hfurther _ hlater
        · cases hhere
          exact Nat.le_succ _
      · cases h
        exact Nat.le_succ _
    · exact hfurther _ h

theorem length_readValue_le {cs value after : List Char} (h : readValue cs = some (value, after)) :
    after.length ≤ cs.length := by
  unfold readValue at h
  split at h
  · obtain ⟨r, hread, heq⟩ := Option.map_eq_some_iff.mp h
    cases heq
    exact Nat.le_succ_of_le (length_readQuoted_le hread)
  · obtain ⟨r, hread, heq⟩ := Option.map_eq_some_iff.mp h
    cases heq
    exact Nat.le_succ_of_le (length_readQuoted_le hread)
  · cases h
    rw [List.length_drop]
    exact Nat.sub_le _ _

theorem length_readBinding_le (name cs : List Char) :
    (readBinding name cs).2.length ≤ cs.length := by
  have hblanks := List.length_dropWhile_le isInlineBlank cs
  unfold readBinding
  split
  · next after hafter =>
    have hvalue := List.length_dropWhile_le isInlineBlank after
    rw [hafter, List.length_cons] at hblanks
    split
    · have hskip := length_skipLine_le (after.dropWhile isInlineBlank)
      dsimp only
      omega
    · next value behind hread =>
      have hbehind := length_readValue_le hread
      have hfinish := length_finish_le
        (some (String.ofList name, some (String.ofList value))) behind
      omega
  · have hfinish := length_finish_le (some (String.ofList name, none)) (cs.dropWhile isInlineBlank)
    omega

/-- An entry takes at least one character. -/
theorem length_readEntry_le (cs : List Char) : (readEntry cs).2.length ≤ cs.length - 1 := by
  have hexport := (dropExport_suffix cs).length_le
  unfold readEntry
  generalize dropExport cs = line at hexport
  dsimp only
  split
  · have hfinish := length_finish_le none line
    omega
  · cases hname : readName line with
    | none =>
      have hskip := length_skipLine_le line
      dsimp only
      omega
    | some r =>
      obtain ⟨name, after⟩ := r
      have hafter := length_readName_lt hname
      have hbinding := length_readBinding_le name after
      dsimp only
      omega

/-- A bound that is greater than the length of a text is as good as any other. -/
theorem readEntries_eq {cs : List Char} {n m : Nat} (hn : cs.length < n) (hm : cs.length < m) :
    readEntries n cs = readEntries m cs := by
  induction n generalizing m cs with
  | zero => exact absurd hn (Nat.not_lt_zero _)
  | succ n ih =>
    cases m with
    | zero => exact absurd hm (Nat.not_lt_zero _)
    | succ m =>
      have hblanks := List.length_dropWhile_le Text.isBlank cs
      rw [readEntries, readEntries]
      cases hcs : cs.dropWhile Text.isBlank with
      | nil => rfl
      | cons c rest =>
        have hentry := length_readEntry_le (c :: rest)
        rw [hcs, List.length_cons] at hblanks
        rw [List.length_cons] at hentry
        have hrest : (readEntry (c :: rest)).2.length < n ∧
            (readEntry (c :: rest)).2.length < m := by
          omega
        dsimp only
        rw [ih hrest.1 hrest.2]

theorem scan_of_blank {cs : List Char} (h : cs.dropWhile Text.isBlank = []) : scan cs = [] := by
  rw [scan, readEntries, h]

/-- A text is read entry by entry. -/
theorem scan_of_entry {cs entry : List Char} (h : cs.dropWhile Text.isBlank = entry)
    (hne : entry ≠ []) :
    scan cs = (readEntry entry).1.toList ++ scan (readEntry entry).2 := by
  obtain ⟨c, rest, rfl⟩ := List.exists_cons_of_ne_nil hne
  have hblanks := List.length_dropWhile_le Text.isBlank cs
  have hentry := length_readEntry_le (c :: rest)
  rw [h] at hblanks
  rw [List.length_cons] at hblanks hentry
  rw [scan, readEntries, h, scan]
  dsimp only
  rw [readEntries_eq (by omega) (Nat.lt_succ_self _)]

/-! ## Whole passages -/

/-- The passage is read alike whatever follows it, and what follows it as if it stood alone. -/
def Whole (passage : List Char) : Prop :=
  ∀ rest, scan (passage ++ rest) = scan passage ++ scan rest

theorem whole_nil : Whole [] := fun _ => rfl

theorem Whole.append {passage more : List Char} (h : Whole passage) (hmore : Whole more) :
    Whole (passage ++ more) := by
  intro rest
  rw [List.append_assoc, h, hmore, h, List.append_assoc]

theorem whole_of_blank {passage : List Char} (h : ∀ c ∈ passage, Text.isBlank c = true) :
    Whole passage := by
  intro rest
  have hpassage : passage.dropWhile Text.isBlank = [] := List.dropWhile_eq_nil_iff.mpr h
  have hdrop : (passage ++ rest).dropWhile Text.isBlank = rest.dropWhile Text.isBlank :=
    List.dropWhile_append_of_pos h
  rw [scan_of_blank hpassage, List.nil_append]
  cases hrest : rest.dropWhile Text.isBlank with
  | nil => rw [scan_of_blank (hdrop.trans hrest), scan_of_blank hrest]
  | cons c cs =>
    rw [scan_of_entry (hdrop.trans hrest) (List.cons_ne_nil _ _),
      scan_of_entry hrest (List.cons_ne_nil _ _)]

/-- An entry that is read alike whatever follows it is a whole passage. -/
theorem whole_of_entry {passage entry : List Char} {read : Option Binding}
    (hentry : passage.dropWhile Text.isBlank = entry) (hne : entry ≠ [])
    (h : ∀ rest, readEntry (entry ++ rest) = (read, rest)) : Whole passage := by
  have hscan : ∀ rest, scan (passage ++ rest) = read.toList ++ scan rest := by
    intro rest
    have hdrop : (passage ++ rest).dropWhile Text.isBlank = entry ++ rest := by
      rw [List.dropWhile_append, hentry, if_neg (by simpa using hne)]
    rw [scan_of_entry hdrop (by simp [hne]), h rest]
  have hpassage := hscan []
  rw [List.append_nil] at hpassage
  have hnil : scan [] = [] := scan_of_blank rfl
  intro rest
  rw [hscan, hpassage, hnil, List.append_nil]

/-! ## Lines without quotes -/

/-- No character ends the line or is a quote. -/
def IsPlain (line : List Char) : Prop :=
  ∀ c ∈ line, isLineEnd c = false ∧ c ≠ '\'' ∧ c ≠ '"'

-- Without its name, an instance that goes through all characters would be found first.
instance (line : List Char) : Decidable (IsPlain line) := List.decidableBAll _ line

theorem IsPlain.of_suffix {line part : List Char} (h : IsPlain line) (hpart : part <:+ line) :
    IsPlain part := fun c hc => h c (hpart.subset hc)

section
variable {line : List Char} (rest : List Char)

theorem takeWhile_line {p : Char → Bool} (h : p '\n' = false) (line : List Char) :
    (line ++ '\n' :: rest).takeWhile p = line.takeWhile p := by
  induction line with
  | nil => exact List.takeWhile_cons_of_neg (Bool.eq_false_iff.mp h)
  | cons c line ih => rw [List.cons_append, List.takeWhile_cons, List.takeWhile_cons, ih]

theorem dropWhile_line {p : Char → Bool} (h : p '\n' = false) (line : List Char) :
    (line ++ '\n' :: rest).dropWhile p = line.dropWhile p ++ '\n' :: rest := by
  induction line with
  | nil => exact List.dropWhile_cons_of_neg (Bool.eq_false_iff.mp h)
  | cons c line ih =>
    rw [List.cons_append, List.dropWhile_cons, List.dropWhile_cons, ih]
    split <;> rfl

theorem drop_takeWhile_line {p : Char → Bool} (h : p '\n' = false) (line : List Char) :
    (line ++ '\n' :: rest).drop ((line ++ '\n' :: rest).takeWhile p).length =
      line.drop (line.takeWhile p).length ++ '\n' :: rest := by
  rw [takeWhile_line rest h, List.drop_append_of_le_length (List.takeWhile_prefix p).length_le]

theorem isPrefixOf?_line {word : List Char} (h : '\n' ∉ word) (line : List Char) :
    word.isPrefixOf? (line ++ '\n' :: rest) =
      (word.isPrefixOf? line).map (· ++ '\n' :: rest) := by
  induction word generalizing line with
  | nil => rfl
  | cons c word ih =>
    obtain ⟨hc, hword⟩ := not_or.mp (List.mem_cons.not.mp h)
    cases line with
    | nil => simp [List.isPrefixOf?, Ne.symm hc]
    | cons d line =>
      simp only [List.cons_append, List.isPrefixOf?]
      split
      · exact ih hword line
      · rfl

theorem dropExport_line (line : List Char) :
    dropExport (line ++ '\n' :: rest) = dropExport line ++ '\n' :: rest := by
  unfold dropExport
  rw [isPrefixOf?_line rest (by decide)]
  cases "export".toList.isPrefixOf? line with
  | none => rfl
  | some after =>
    cases after with
    | nil => rfl
    | cons c after =>
      simp only [Option.map_some, List.cons_append]
      split
      · exact dropWhile_line rest (by decide) after
      · rfl

theorem skipLine_line (hline : IsPlain line) : skipLine (line ++ '\n' :: rest) = rest := by
  have hend : line.dropWhile (!isLineEnd ·) = [] :=
    List.dropWhile_eq_nil_iff.mpr fun c hc => by rw [(hline c hc).1]; rfl
  rw [skipLine, dropWhile_line rest (by decide), hend]
  rfl

theorem endEntry_line (hline : IsPlain line) :
    endEntry (line ++ '\n' :: rest) = (endEntry line).map fun _ => rest := by
  have hend : ∀ {part : List Char}, part <:+ line → part.dropWhile (!isLineEnd ·) = [] := by
    intro part hpart
    exact List.dropWhile_eq_nil_iff.mpr fun c hc => by rw [(hline c (hpart.subset hc)).1]; rfl
  have hsuffix := List.dropWhile_suffix (l := line) isInlineBlank
  simp only [endEntry, dropWhile_line rest (show isInlineBlank '\n' = false by decide)]
  generalize line.dropWhile isInlineBlank = behind at hsuffix
  cases behind with
  | nil => rfl
  | cons c behind =>
    by_cases hc : c = '#'
    · subst hc
      have hcomment := hend ((List.suffix_cons _ _).trans hsuffix)
      have hmore := dropWhile_line rest (p := (!isLineEnd ·)) (by decide) behind
      rw [hcomment, List.nil_append] at hmore
      simp only [List.cons_append, hcomment, hmore]
      rfl
    · have hplain := (hline c (hsuffix.subset List.mem_cons_self)).1
      simp [hc, hplain]

theorem finish_line (hline : IsPlain line) (read : Option Binding) :
    finish read (line ++ '\n' :: rest) = ((finish read line).1, rest) := by
  unfold finish
  rw [endEntry_line rest hline]
  cases endEntry line with
  | some after => rfl
  | none => rw [Option.map_none, skipLine_line rest hline]

theorem readName_of_ne {cs : List Char} (h : cs.head? ≠ some '\'') :
    readName cs =
      if (cs.takeWhile isNameChar).isEmpty then none
      else some (cs.takeWhile isNameChar, cs.drop (cs.takeWhile isNameChar).length) := by
  unfold readName
  split
  · exact absurd rfl h
  · rfl

theorem head?_line {c : Char} (h : c ≠ '\n') (line : List Char) :
    (line ++ '\n' :: rest).head? = some c ↔ line.head? = some c := by
  cases line with
  | nil => simp [Ne.symm h]
  | cons d line => rfl

theorem IsPlain.head?_ne (hline : IsPlain line) :
    line.head? ≠ some '\'' ∧ line.head? ≠ some '"' := by
  cases line with
  | nil => exact ⟨nofun, nofun⟩
  | cons c line =>
    have hc := (hline c List.mem_cons_self).2
    simpa using hc

theorem readName_line (hline : IsPlain line) :
    readName (line ++ '\n' :: rest) =
      (readName line).map fun r => (r.1, r.2 ++ '\n' :: rest) := by
  have hhead := hline.head?_ne.1
  rw [readName_of_ne hhead, readName_of_ne ((head?_line rest (by decide) line).not.mpr hhead),
    drop_takeWhile_line rest (by decide), takeWhile_line rest (by decide)]
  split <;> rfl

theorem readName_suffix (hline : IsPlain line) {name after : List Char}
    (h : readName line = some (name, after)) : after <:+ line := by
  rw [readName_of_ne hline.head?_ne.1] at h
  obtain ⟨-, heq⟩ := Option.ite_none_left_eq_some.mp h
  cases heq
  exact List.drop_suffix _ _

theorem readValue_of_ne {cs : List Char} (h : cs.head? ≠ some '\'' ∧ cs.head? ≠ some '"') :
    readValue cs =
      some (Text.trimRight Text.isBlank (cutComment (cs.takeWhile (!isLineEnd ·))),
        cs.drop (cs.takeWhile (!isLineEnd ·)).length) := by
  unfold readValue
  split
  · exact absurd rfl h.1
  · exact absurd rfl h.2
  · rfl

theorem readValue_line (hline : IsPlain line) :
    readValue (line ++ '\n' :: rest) =
      (readValue line).map fun r => (r.1, r.2 ++ '\n' :: rest) := by
  have hhead := hline.head?_ne
  have hheadMore : (line ++ '\n' :: rest).head? ≠ some '\'' ∧
      (line ++ '\n' :: rest).head? ≠ some '"' :=
    ⟨(head?_line rest (by decide) line).not.mpr hhead.1,
      (head?_line rest (by decide) line).not.mpr hhead.2⟩
  rw [readValue_of_ne hhead, readValue_of_ne hheadMore,
    drop_takeWhile_line rest (by decide), takeWhile_line rest (by decide)]
  rfl

theorem readValue_suffix (hline : IsPlain line) {value after : List Char}
    (h : readValue line = some (value, after)) : after <:+ line := by
  rw [readValue_of_ne hline.head?_ne] at h
  cases h
  exact List.drop_suffix _ _

theorem readBinding_line (hline : IsPlain line) (name : List Char) :
    readBinding name (line ++ '\n' :: rest) = ((readBinding name line).1, rest) := by
  have hblanks := hline.of_suffix (List.dropWhile_suffix isInlineBlank)
  unfold readBinding
  rw [dropWhile_line rest (by decide)]
  generalize line.dropWhile isInlineBlank = behind at hblanks
  cases behind with
  | nil => exact finish_line rest hblanks _
  | cons c behind =>
    by_cases hc : c = '='
    · subst hc
      have hafter := (hblanks.of_suffix (List.suffix_cons _ _)).of_suffix
        (List.dropWhile_suffix isInlineBlank)
      simp only [List.cons_append, dropWhile_line rest (show isInlineBlank '\n' = false by decide)]
      generalize behind.dropWhile isInlineBlank = text at hafter
      rw [readValue_line rest hafter]
      cases hread : readValue text with
      | none => rw [Option.map_none, skipLine_line rest hafter]
      | some r =>
        exact finish_line rest (hafter.of_suffix (readValue_suffix hafter hread)) _
    · have hfinish := finish_line rest hblanks (some (String.ofList name, none))
      simpa [hc] using hfinish

/-- An entry ends with the line it stands on. -/
theorem readEntry_line (hline : IsPlain line) :
    readEntry (line ++ '\n' :: rest) = ((readEntry line).1, rest) := by
  have hexport := hline.of_suffix (dropExport_suffix line)
  unfold readEntry
  rw [dropExport_line]
  generalize dropExport line = line at hexport
  simp only [head?_line rest (show '#' ≠ '\n' by decide), readName_line rest hexport]
  split
  · exact finish_line rest hexport none
  · cases hname : readName line with
    | none => rw [Option.map_none, skipLine_line rest hexport]
    | some r =>
      exact readBinding_line rest (hexport.of_suffix (readName_suffix hexport hname)) r.1

end

theorem whole_line {line : List Char} (h : IsPlain line) : Whole (line ++ ['\n']) := by
  cases hentry : line.dropWhile Text.isBlank with
  | nil =>
    have hblank := List.dropWhile_eq_nil_iff.mp hentry
    refine whole_of_blank fun c hc => ?_
    rcases List.mem_append.mp hc with hline | hend
    · exact hblank c hline
    · rw [List.mem_singleton.mp hend]
      decide
  | cons c entry =>
    have hplain : IsPlain (c :: entry) := hentry ▸ h.of_suffix (List.dropWhile_suffix _)
    have hdrop : (line ++ ['\n']).dropWhile Text.isBlank = (c :: entry) ++ ['\n'] := by
      rw [List.dropWhile_append, hentry]
      rfl
    have hread : ∀ rest, readEntry ((c :: entry) ++ ['\n'] ++ rest) =
        ((readEntry (c :: entry)).1, rest) := by
      intro rest
      rw [List.append_assoc]
      exact readEntry_line rest hplain
    exact whole_of_entry hdrop (by simp) hread

theorem whole_lines (lines : List (List Char)) (h : ∀ line ∈ lines, IsPlain line) :
    Whole (lines.flatMap (· ++ ['\n'])) := by
  induction lines with
  | nil => exact whole_nil
  | cons line rest ih =>
    obtain ⟨hline, hrest⟩ := List.forall_mem_cons.mp h
    rw [List.flatMap_cons]
    exact (whole_line hline).append (ih hrest)

/-! ## Quoted values -/

theorem readQuoted_closed {quote : Char} {text : List Char} (hclosed : quote ∉ text)
    (hescape : '\\' ∉ text) (rest : List Char) :
    readQuoted quote false (text ++ quote :: rest) = some (text, rest) := by
  induction text with
  | nil => simp [readQuoted]
  | cons c text ih =>
    obtain ⟨hquote, hclosed⟩ := not_or.mp (List.mem_cons.not.mp hclosed)
    obtain ⟨hbackslash, hescape⟩ := not_or.mp (List.mem_cons.not.mp hescape)
    rw [List.cons_append, readQuoted, if_neg (Ne.symm hquote),
      decide_eq_false (Ne.symm hbackslash), ih hclosed hescape]
    rfl

theorem unescape_of_not_mem {escape? : Char → Option Char} {text : List Char}
    (h : '\\' ∉ text) : unescape escape? text = text := by
  induction text with
  | nil => rw [unescape]
  | cons c text ih =>
    obtain ⟨hc, htext⟩ := not_or.mp (List.mem_cons.not.mp h)
    rw [unescape, ih htext]
    exact fun d rest hd => absurd hd (Ne.symm hc)

theorem isBlank_of_isNameChar {c : Char} (h : isNameChar c = true) : Text.isBlank c = false := by
  simp only [isNameChar, Bool.not_eq_true', Bool.or_eq_false_iff] at h
  exact h.2

theorem dropExport_of_name {name : List Char} (h : ∀ c ∈ name, isNameChar c = true)
    (rest : List Char) : dropExport (name ++ '=' :: rest) = name ++ '=' :: rest := by
  have hblank : ∀ c ∈ name, isInlineBlank c = false := by
    intro c hc
    rw [isInlineBlank, isBlank_of_isNameChar (h c hc), Bool.false_and]
  unfold dropExport
  split
  · next c after hword =>
    refine if_neg (Bool.eq_false_iff.mp ?_)
    -- The character behind the word is in the name, or it is the equality sign.
    rcases List.append_eq_append_iff.mp (List.isPrefixOf?_eq_some_iff_append_eq.mp hword) with
      ⟨more, hname, hbehind⟩ | ⟨more, hexport, hbehind⟩
    · cases more with
      | nil => cases hbehind; decide
      | cons d more => cases hbehind; exact hblank _ (by simp [hname])
    · cases more with
      | nil => cases hbehind; decide
      | cons d more =>
        cases hbehind
        exact absurd (hexport ▸ by simp : '=' ∈ "export".toList) (by decide)
  · rfl

theorem readName_of_name {name : List Char} (hne : name ≠ [])
    (h : ∀ c ∈ name, isNameChar c = true) (hhead : name.head? ≠ some '\'') (rest : List Char) :
    readName (name ++ '=' :: rest) = some (name, '=' :: rest) := by
  have htake : (name ++ '=' :: rest).takeWhile isNameChar = name := by
    rw [List.takeWhile_append_of_pos h]
    exact List.append_nil name
  have hhead : (name ++ '=' :: rest).head? ≠ some '\'' := by
    obtain ⟨c, more, rfl⟩ := List.exists_cons_of_ne_nil hne
    exact hhead
  rw [readName_of_ne hhead, htake, if_neg (by simpa using hne), List.drop_left]

section
variable {name text : List Char} {quote : Char} (hne : name ≠ [])
  (hname : ∀ c ∈ name, isNameChar c = true) (hhead : name.head? ≠ some '\'')
  (hquote : quote = '\'' ∨ quote = '"') (hclosed : quote ∉ text) (hescape : '\\' ∉ text)

include hne hname hhead hquote hclosed hescape

/-- A name and a quoted text without escapes bind the name to the text. -/
theorem readEntry_quoted (rest : List Char) :
    readEntry (name ++ '=' :: quote :: (text ++ quote :: '\n' :: rest)) =
      (some (String.ofList name, some (String.ofList text)), rest) := by
  have hcomment : (name ++ '=' :: quote :: (text ++ quote :: '\n' :: rest)).head? ≠ some '#' := by
    obtain ⟨c, more, rfl⟩ := List.exists_cons_of_ne_nil hne
    have hc := hname c List.mem_cons_self
    rintro heq
    cases heq
    cases hc
  have hvalue : readValue (quote :: (text ++ quote :: '\n' :: rest)) =
      some (text, '\n' :: rest) := by
    rcases hquote with rfl | rfl <;>
      simp [readValue, readQuoted_closed hclosed hescape, unescape_of_not_mem hescape]
  have hblank : isInlineBlank quote = false := by
    rcases hquote with rfl | rfl <;> decide
  have hbinding : readBinding name ('=' :: quote :: (text ++ quote :: '\n' :: rest)) =
      (some (String.ofList name, some (String.ofList text)), rest) := by
    have hequals : isInlineBlank '=' = false := by decide
    simp only [readBinding, List.dropWhile_cons, hequals, hblank, Bool.false_eq_true, if_false,
      hvalue]
    rfl
  simp only [readEntry, dropExport_of_name hname, if_neg hcomment,
    readName_of_name hne hname hhead, hbinding]

theorem whole_quoted : Whole (name ++ '=' :: quote :: (text ++ [quote, '\n'])) := by
  have hread : ∀ rest, readEntry (name ++ '=' :: quote :: (text ++ [quote, '\n']) ++ rest) =
      (some (String.ofList name, some (String.ofList text)), rest) := by
    intro rest
    have hentry := readEntry_quoted hne hname hhead hquote hclosed hescape rest
    simpa using hentry
  obtain ⟨c, more, rfl⟩ := List.exists_cons_of_ne_nil hne
  have hc := isBlank_of_isNameChar (hname c List.mem_cons_self)
  exact whole_of_entry (List.dropWhile_cons_of_neg (Bool.eq_false_iff.mp hc)) (by simp) hread

end

end BoolNat.Dotenv
