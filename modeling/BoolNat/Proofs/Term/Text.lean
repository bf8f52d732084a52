import BoolNat.Term.Measure
import BoolNat.Term.Reader
import Mathlib.Data.List.Basic
import Mathlib.Data.List.TakeWhile
set_option autoImplicit false

/-! # The written form is unambiguous

Whatever is written behind a term begins with a blank or a closing parenthesis, if there is anything
(`EndsWord`), so the first word of a term can be read as far as it goes, and it tells the shape
(`Keyword.read_eq`, `Keyword.of_read`).  This is so for the words of the calculus, and for a foreign
leaf if its text is one word, and a word of its own (`Foreign.IsLegible`).

A reader is exact if it reads precisely the terms with some property, each off the texts that begin
with its written form (`Term.Reads`).  No term begins with a parenthesis (`Term.write_ne_open`), so
a reader that is exact for the parts of a term makes one that is exact for parts between parentheses
where they are due (`Term.Reads.enclosed`), and hence one for the terms with such parts
(`Term.Reads.of_readParts`, `Term.Reads.readParts_eq`).

By induction on the levels, reading is exact for the legible terms of at most so many levels
(`Term.reads_within`).  A term is hardly higher than its written form is long, so reading gives back
every legible term and nothing else (`Term.ofText?_eq_some_iff`), and different ones have different
texts (`text_unambiguous`).  A leaf that is written like a term can be taken for that term
(`text_not_injective`).
-/

namespace BoolNat

/-- A text behind a word: nothing, or a blank or a closing parenthesis comes first. -/
def EndsWord (rest : List Char) : Prop := ∀ c ∈ rest.head?, c = ' ' ∨ c = ')'

theorem endsWord_nil : EndsWord [] := nofun

theorem endsWord_cons {c : Char} (h : c = ' ' ∨ c = ')') (rest : List Char) :
    EndsWord (c :: rest) := by
  intro d hd
  cases hd
  exact h

theorem EndsWord.not_isWordChar {rest : List Char} (h : EndsWord rest) :
    ∀ c ∈ rest.head?, ¬ isWordChar c = true := by
  intro c hc
  obtain rfl | rfl := h c hc <;> decide

variable {leaf? : String → Option Foreign}

/-- The leaf is written as a single word, which is none of the calculus, and the word stands for
it. -/
structure Foreign.IsLegible (leaf? : String → Option Foreign) (leaf : Foreign) : Prop where
  isWordChar : ∀ c ∈ leaf.text.toList, isWordChar c = true
  unreserved : ∀ keyword ∈ Keyword.reserved, keyword.text ≠ leaf.text
  named : leaf? leaf.text = some leaf

namespace Keyword

/-- A keyword of the calculus, or one for a legible leaf. -/
def IsLegible (leaf? : String → Option Foreign) : Keyword → Prop
  | .foreign leaf => leaf.IsLegible leaf?
  | _ => True

theorem isLegible_of_mem_reserved {keyword : Keyword} (h : keyword ∈ reserved) :
    keyword.IsLegible leaf? := by
  cases keyword with
  | foreign leaf => simp [reserved] at h
  | _ => exact trivial

theorem isWordChar_of_mem {keyword : Keyword} (h : keyword.IsLegible leaf?) :
    ∀ c ∈ keyword.text.toList, isWordChar c = true := by
  have hreserved : ∀ keyword ∈ reserved, keyword.text.toList.all isWordChar = true := by decide
  cases keyword with
  | foreign leaf => exact h.isWordChar
  | operator op => exact List.all_eq_true.mp (hreserved _ (by cases op <;> decide))
  | _ => exact List.all_eq_true.mp (hreserved _ (by decide))

theorem ofText?_text {keyword : Keyword} (h : keyword.IsLegible leaf?) :
    ofText? leaf? keyword.text = some keyword := by
  cases keyword with
  | foreign leaf =>
    have hnone : reserved.find? (·.text = leaf.text) = none := by
      simpa [List.find?_eq_none] using h.unreserved
    rw [ofText?, show (foreign leaf).text = leaf.text from rfl, hnone, h.named]
    simp
  | operator op => cases op <;> rfl
  | _ => rfl

/-- What a word is read as is written so, and it is legible if the word is a word. -/
theorem of_ofText? {word : String} {keyword : Keyword} (h : ofText? leaf? word = some keyword)
    (hword : ∀ c ∈ word.toList, isWordChar c = true) :
    keyword.text = word ∧ keyword.IsLegible leaf? := by
  rw [ofText?, Option.or_eq_some_iff] at h
  rcases h with hfound | ⟨hnone, hleaf⟩
  · refine ⟨by simpa using List.find?_some hfound, ?_⟩
    exact isLegible_of_mem_reserved (List.mem_of_find?_eq_some hfound)
  · obtain ⟨leaf, hfilter, rfl⟩ := Option.map_eq_some_iff.mp hleaf
    obtain ⟨hnamed, htext⟩ := Option.filter_eq_some_iff.mp hfilter
    obtain rfl : leaf.text = word := by simpa using htext
    exact ⟨rfl, hword, by simpa [List.find?_eq_none] using hnone, hnamed⟩

/-- The word in front of a text is read as far as it goes. -/
theorem read_eq {keyword : Keyword} (h : keyword.IsLegible leaf?) {rest : List Char}
    (hrest : EndsWord rest) : read leaf? (keyword.text.toList ++ rest) = some (keyword, rest) := by
  have hword := isWordChar_of_mem h
  have htake : rest.takeWhile isWordChar = [] :=
    List.takeWhile_eq_nil_iff.mpr fun hpos =>
      hrest.not_isWordChar _ (by rw [List.head?_eq_getElem?]; exact List.getElem?_eq_getElem hpos)
  have hdrop : rest.dropWhile isWordChar = rest :=
    List.dropWhile_eq_self_iff.mpr fun hpos =>
      hrest.not_isWordChar _ (by rw [List.head?_eq_getElem?]; exact List.getElem?_eq_getElem hpos)
  rw [read, List.takeWhile_append_of_pos hword, List.dropWhile_append_of_pos hword, htake, hdrop,
    List.append_nil, String.ofList_toList, ofText?_text h]
  rfl

theorem of_read {text rest : List Char} {keyword : Keyword}
    (h : read leaf? text = some (keyword, rest)) :
    keyword.IsLegible leaf? ∧ keyword.text.toList ++ rest = text := by
  obtain ⟨found, hfound, heq⟩ := Option.map_eq_some_iff.mp h
  cases heq
  have hword : ∀ c ∈ (String.ofList (text.takeWhile isWordChar)).toList, isWordChar c = true := by
    rw [String.toList_ofList]
    exact fun c => List.mem_takeWhile_imp
  obtain ⟨htext, hlegible⟩ := of_ofText? hfound hword
  rw [htext, String.toList_ofList]
  exact ⟨hlegible, List.takeWhile_append_dropWhile⟩

end Keyword

namespace Term

/-- The foreign leaves of a term, if there are any, are legible. -/
def IsLegible (leaf? : String → Option Foreign) (t : Term) : Prop :=
  ∀ leaf : Foreign, .foreign leaf ∈ t.subterms → leaf.IsLegible leaf?

theorem isLegible_iff {t : Term} :
    t.IsLegible leaf? ↔ t.keyword.IsLegible leaf? ∧ ∀ u ∈ t.children, u.IsLegible leaf? := by
  constructor
  · intro h
    refine ⟨?_, fun u hu leaf hleaf => h leaf (mem_subterms_of_child hu hleaf)⟩
    cases t with
    | foreign leaf => exact h leaf (self_mem_subterms _)
    | _ => exact trivial
  · rintro ⟨hkeyword, hparts⟩ leaf hleaf
    rw [subterms_eq, List.mem_cons, List.mem_flatMap] at hleaf
    obtain rfl | ⟨u, hu, hleaf⟩ := hleaf
    · exact hkeyword
    · exact hparts u hu leaf hleaf

theorem isLegible_of_isProper {t : Term} (h : t.isProper = true) : t.IsLegible leaf? := by
  induction t using operatorInduction with
  | tru | fls | zero => exact isLegible_iff.mpr ⟨trivial, nofun⟩
  | foreign => cases h
  | apply op t ih =>
    rw [isLegible_iff, keyword_apply, Operator.children_apply, List.forall_mem_singleton]
    exact ⟨trivial, ih (isProper_apply op t ▸ h)⟩
  | ite c t e ihc iht ihe =>
    obtain ⟨hc, ht, he⟩ := isProper_ite.mp h
    rw [isLegible_iff, children, List.forall_mem_cons, List.forall_mem_cons,
      List.forall_mem_singleton]
    exact ⟨trivial, ihc hc, iht ht, ihe he⟩

/-- A term begins with a word, or with what stands behind it. -/
theorem write_ne_open {t : Term} (h : t.IsLegible leaf?) {rest : List Char} (hrest : EndsWord rest)
    (inner : List Char) : t.write rest ≠ '(' :: inner := by
  intro hopen
  rw [write_eq] at hopen
  cases htext : t.keyword.text.toList with
  | nil =>
    -- Only a foreign leaf can be without a text of its own.
    cases t with
    | foreign leaf =>
      rw [htext, List.nil_append, writeParts] at hopen
      subst hopen
      rcases hrest '(' rfl with hblank | hclose
      · cases hblank
      · cases hclose
    | _ => simp [keyword, Keyword.text] at htext
  | cons first letters =>
    rw [htext, List.cons_append] at hopen
    cases hopen
    have hword := Keyword.isWordChar_of_mem (isLegible_iff.mp h).1 '(' (by simp [htext])
    cases hword

/-- What is written in front of a text adds at least as many letters. -/
theorem add_length_le_enclose {write : List Char → List Char} {n : Nat}
    (h : ∀ rest : List Char, n + rest.length ≤ (write rest).length + 1) (parens : Bool)
    (rest : List Char) : n + rest.length ≤ (enclose parens write rest).length + 1 := by
  cases parens with
  | false => exact h rest
  | true =>
    have hclosed := h (')' :: rest)
    rw [List.length_cons] at hclosed
    rw [enclose, if_pos rfl, List.length_cons]
    omega

/-- A term is higher by one at most than its written form is long. -/
theorem depth_add_length_le (t : Term) (rest : List Char) :
    t.depth + rest.length ≤ (t.write rest).length + 1 := by
  induction t using operatorInduction generalizing rest with
  | tru | fls | zero | foreign =>
    rw [depth_of_leaf rfl, write_eq, List.length_append, writeParts]
    omega
  | apply op t ih =>
    have hpart := add_length_le_enclose ih (!t.isConstant) rest
    rw [depth_apply, write_eq, writeParts_apply, List.length_append, List.length_cons]
    omega
  | ite c t e ihc iht ihe =>
    -- The parts from last to first, since each stands in front of the text of those behind it.
    have helse := add_length_le_enclose ihe e.isConditional rest
    have hthen := add_length_le_enclose iht t.isConditional
      (" else ".toList ++ enclose e.isConditional e.write rest)
    have hcondition := add_length_le_enclose ihc c.isConditional
      (" then ".toList ++ enclose t.isConditional t.write
        (" else ".toList ++ enclose e.isConditional e.write rest))
    have hwords : " then ".toList.length = 6 ∧ " else ".toList.length = 6 := ⟨rfl, rfl⟩
    rw [List.length_append] at hthen hcondition
    rw [depth_ite, write_eq, keyword, writeParts, List.length_append, List.length_cons]
    omega

/-- What stands behind the first word of a term ends it. -/
theorem endsWord_writeParts (t : Term) {rest : List Char} (hrest : EndsWord rest) :
    EndsWord (t.writeParts rest) := by
  cases t with
  | tru | fls | zero | foreign => exact hrest
  | _ => exact endsWord_cons (.inl rfl) _

/-! ## Exact readers -/

/-- The reader gives precisely the terms with the property, each off the texts that begin with its
written form. -/
def Reads (read : List Char → Option (Term × List Char)) (p : Term → Prop)
    (write : Term → List Char → List Char) : Prop :=
  ∀ (text : List Char) (t : Term) (rest : List Char), EndsWord rest →
    (read text = some (t, rest) ↔ p t ∧ write t rest = text)

theorem readEnclosed_of_ne (parens : Term → Bool) (read : List Char → Option (Term × List Char))
    {text : List Char} (h : ∀ inner, text ≠ '(' :: inner) :
    readEnclosed parens read text =
      (read text).bind fun (t, rest) => if parens t then none else some (t, rest) := by
  unfold readEnclosed
  split
  · next inner => exact absurd rfl (h inner)
  · cases read text <;> rfl

theorem isPrefixOf?_append (word rest : List Char) : word.isPrefixOf? (word ++ rest) = some rest :=
  List.isPrefixOf?_eq_some_iff_append_eq.mpr rfl

theorem isPrefixOf?_blank (rest : List Char) : [' '].isPrefixOf? (' ' :: rest) = some rest :=
  isPrefixOf?_append [' '] rest

namespace Reads

variable {read : List Char → Option (Term × List Char)} {p : Term → Prop}

/-- A parenthesis in front of a text can only be one around a part. -/
theorem enclosed (h : Reads read p write) (hlegible : ∀ t, p t → t.IsLegible leaf?)
    (parens : Term → Bool) :
    Reads (readEnclosed parens read) p fun t => enclose (parens t) t.write := by
  intro text t rest hrest
  have hclosed : EndsWord (')' :: rest) := endsWord_cons (.inr rfl) rest
  constructor
  · intro hread
    by_cases hopen : ∃ inner, text = '(' :: inner
    · obtain ⟨inner, rfl⟩ := hopen
      rw [readEnclosed] at hread
      split at hread
      · next u behind hinner =>
        obtain ⟨hparens, heq⟩ := Option.ite_none_right_eq_some.mp hread
        cases heq
        obtain ⟨hp, hwrite⟩ := (h inner t (')' :: rest) hclosed).mp hinner
        exact ⟨hp, by simp [enclose, hparens, hwrite]⟩
      · cases hread
    · rw [readEnclosed_of_ne parens read (not_exists.mp hopen)] at hread
      obtain ⟨⟨u, behind⟩, hpart, hread⟩ := Option.bind_eq_some_iff.mp hread
      obtain ⟨hparens, heq⟩ := Option.ite_none_left_eq_some.mp hread
      cases heq
      obtain ⟨hp, hwrite⟩ := (h text t rest hrest).mp hpart
      exact ⟨hp, by simp [enclose, hparens, hwrite]⟩
  · rintro ⟨hp, rfl⟩
    cases hparens : parens t with
    | true =>
      have hinner := (h _ t (')' :: rest) hclosed).mpr ⟨hp, rfl⟩
      simp only [enclose, if_true, readEnclosed, hinner, hparens]
    | false =>
      have hpart := (h _ t rest hrest).mpr ⟨hp, rfl⟩
      have hopen := write_ne_open (hlegible t hp) hrest
      simp [enclose, readEnclosed_of_ne parens read hopen, hpart, hparens]

/-- What is read behind a keyword is a term that begins with it and whose parts were read. -/
theorem of_readParts (h : Reads read p write) (hlegible : ∀ t, p t → t.IsLegible leaf?)
    {keyword : Keyword} {text rest : List Char} (hrest : EndsWord rest) {t : Term}
    (hread : readParts read text keyword = some (t, rest)) :
    t.keyword = keyword ∧ (∀ u ∈ t.children, p u) ∧ t.writeParts rest = text := by
  cases keyword with
  | tru | fls | zero | foreign =>
    cases hread
    exact ⟨rfl, fun u hu => absurd hu List.not_mem_nil, rfl⟩
  | operator op =>
    obtain ⟨operandText, hblank, hread⟩ := Option.bind_eq_some_iff.mp hread
    obtain ⟨⟨u, behind⟩, hoperand, heq⟩ := Option.bind_eq_some_iff.mp hread
    cases heq
    obtain ⟨hu, rfl⟩ := (h.enclosed hlegible (!·.isConstant) _ u rest hrest).mp hoperand
    rw [List.isPrefixOf?_eq_some_iff_append_eq] at hblank
    rw [keyword_apply, writeParts_apply, Operator.children_apply]
    exact ⟨rfl, fun v hv => List.mem_singleton.mp hv ▸ hu, hblank⟩
  | conditional =>
    obtain ⟨conditionText, hblank, hread⟩ := Option.bind_eq_some_iff.mp hread
    obtain ⟨⟨c, behindCondition⟩, hcondition, hread⟩ := Option.bind_eq_some_iff.mp hread
    obtain ⟨thenText, hthenWord, hread⟩ := Option.bind_eq_some_iff.mp hread
    obtain ⟨⟨u, behindThen⟩, hthen, hread⟩ := Option.bind_eq_some_iff.mp hread
    obtain ⟨elseText, helseWord, hread⟩ := Option.bind_eq_some_iff.mp hread
    obtain ⟨⟨e, behind⟩, helse, heq⟩ := Option.bind_eq_some_iff.mp hread
    cases heq
    rw [List.isPrefixOf?_eq_some_iff_append_eq] at hblank hthenWord helseWord
    subst hblank hthenWord helseWord
    have hparts := h.enclosed hlegible isConditional
    obtain ⟨hc, rfl⟩ := (hparts _ _ _ (endsWord_cons (.inl rfl) _)).mp hcondition
    obtain ⟨hu, rfl⟩ := (hparts _ _ _ (endsWord_cons (.inl rfl) _)).mp hthen
    obtain ⟨he, rfl⟩ := (hparts _ _ _ hrest).mp helse
    exact ⟨rfl, by simp [children, hc, hu, he], rfl⟩

/-- The parts of a term are read from their text behind the keyword of the term. -/
theorem readParts_eq (h : Reads read p write) (hlegible : ∀ t, p t → t.IsLegible leaf?) {t : Term}
    (hp : ∀ u ∈ t.children, p u) {rest : List Char} (hrest : EndsWord rest) :
    readParts read (t.writeParts rest) t.keyword = some (t, rest) := by
  induction t using operatorInduction with
  | tru | fls | zero | foreign => rfl
  | apply op u _ =>
    have hoperand := (h.enclosed hlegible (!·.isConstant) _ u rest hrest).mpr ⟨hp u (by simp), rfl⟩
    simp only [keyword_apply, writeParts_apply, readParts, isPrefixOf?_blank, hoperand,
      Option.bind_eq_bind, Option.bind_some]
    rfl
  | ite c u e _ _ _ =>
    have hpart : ∀ v ∈ (ite c u e).children, ∀ rest, EndsWord rest →
        readEnclosed isConditional read (enclose v.isConditional v.write rest) = some (v, rest) := by
      intro v hv rest hrest
      exact (h.enclosed hlegible isConditional _ v rest hrest).mpr ⟨hp v hv, rfl⟩
    have helse := hpart e (by simp [children]) rest hrest
    have hthen := hpart u (by simp [children])
      (" else ".toList ++ enclose e.isConditional e.write rest) (endsWord_cons (.inl rfl) _)
    have hcondition := hpart c (by simp [children])
      (" then ".toList ++ enclose u.isConditional u.write
        (" else ".toList ++ enclose e.isConditional e.write rest)) (endsWord_cons (.inl rfl) _)
    simp only [keyword, readParts, writeParts, isPrefixOf?_blank, isPrefixOf?_append, hcondition,
      hthen, helse, Option.bind_eq_bind, Option.bind_some]
    rfl

end Reads

/-! ## Reading terms -/

/-- Reading is exact for the legible terms of at most so many levels, by induction on the levels. -/
theorem reads_within (leaf? : String → Option Foreign) (levels : Nat) :
    Reads (readWithin leaf? levels) (fun t => t.depth ≤ levels ∧ t.IsLegible leaf?) write := by
  have hlegible : ∀ (levels : Nat) (t : Term), t.depth ≤ levels ∧ t.IsLegible leaf? →
      t.IsLegible leaf? := fun _ _ => And.right
  induction levels with
  | zero =>
    intro text t rest _
    exact iff_of_false nofun fun h => Nat.not_le_of_lt t.depth_pos h.1.1
  | succ levels ih =>
    intro text t rest hrest
    refine Option.bind_eq_some_iff.trans ?_
    constructor
    · rintro ⟨⟨keyword, behind⟩, hkeyword, hread⟩
      obtain ⟨hword, rfl⟩ := Keyword.of_read hkeyword
      obtain ⟨rfl, hparts, rfl⟩ := ih.of_readParts (hlegible levels) hrest hread
      refine ⟨⟨?_, ?_⟩, t.write_eq rest⟩
      · exact depth_le_succ_iff_forall.mpr fun u hu => (hparts u hu).1
      · exact isLegible_iff.mpr ⟨hword, fun u hu => (hparts u hu).2⟩
    · rintro ⟨⟨hdepth, ht⟩, rfl⟩
      obtain ⟨hword, hparts⟩ := isLegible_iff.mp ht
      have hbelow := depth_le_succ_iff_forall.mp hdepth
      refine ⟨(t.keyword, t.writeParts rest), ?_, ?_⟩
      · rw [write_eq]
        exact Keyword.read_eq hword (t.endsWord_writeParts hrest)
      · exact ih.readParts_eq (hlegible levels) (fun u hu => ⟨hbelow u hu, hparts u hu⟩) hrest

/-- Reading gives back every legible term from its text, and a text that is none of one gives
nothing. -/
theorem ofText?_eq_some_iff {text : String} {t : Term} :
    ofText? leaf? text = some t ↔ t.IsLegible leaf? ∧ t.text = text := by
  have htext : t.text = text ↔ t.write [] = text.toList := by
    rw [Term.text, ← String.toList_inj, String.toList_ofList]
  have hread := reads_within leaf? (text.length + 1) text.toList t [] endsWord_nil
  rw [htext, ofText?]
  constructor
  · intro h
    split at h
    · next u hu =>
      cases h
      obtain ⟨⟨_, hlegible⟩, hwrite⟩ := hread.mp hu
      exact ⟨hlegible, hwrite⟩
    · cases h
  · rintro ⟨hlegible, hwrite⟩
    have hdepth := t.depth_add_length_le []
    rw [hwrite, String.length_toList, List.length_nil] at hdepth
    rw [hread.mpr ⟨⟨hdepth, hlegible⟩, hwrite⟩]

/-- A foreign leaf may be written like a term, and inside a conditional nothing tells the two
apart. -/
theorem text_not_injective :
    (ite .tru (.foreign (.string "succ 0")) .zero).text = "if true then succ 0 else 0" ∧
      (ite .tru (.succ .zero) .zero).text = "if true then succ 0 else 0" ∧
      ¬ ∀ a b : Term, a.text = b.text → a = b := by
  have hleaf : (ite .tru (.foreign (.string "succ 0")) .zero).text =
      "if true then succ 0 else 0" := by decide
  have hterm : (ite .tru (.succ .zero) .zero).text = "if true then succ 0 else 0" := by decide
  refine ⟨hleaf, hterm, fun hall => ?_⟩
  cases hall _ _ (hleaf.trans hterm.symm)

/-- Take foreign leaves that are written as single words, none of them a word of the calculus and no
two alike.  Then different terms with such leaves have different texts, and a term can be read from
its text: the reader gives a term for the texts of these terms alone, and for each the one whose
text it is.  Terms without foreign leaves are among them, whatever the leaves are. -/
theorem text_unambiguous (leaf? : String → Option Foreign) :
    (∀ a b : Term, a.IsLegible leaf? → b.IsLegible leaf? → (a.text = b.text ↔ a = b)) ∧
      (∀ (text : String) (t : Term),
        ofText? leaf? text = some t ↔ t.IsLegible leaf? ∧ t.text = text) ∧
      ∀ t : Term, t.isProper = true → t.IsLegible leaf? := by
  refine ⟨fun a b ha hb => ⟨fun h => ?_, congrArg text⟩, fun _ _ => ofText?_eq_some_iff, ?_⟩
  · have hreada : ofText? leaf? a.text = some a := ofText?_eq_some_iff.mpr ⟨ha, rfl⟩
    have hreadb : ofText? leaf? a.text = some b := ofText?_eq_some_iff.mpr ⟨hb, h.symm⟩
    exact Option.some.inj (hreada.symm.trans hreadb)
  · exact fun t => isLegible_of_isProper

/-- With a leaf that is written `then` a conditional can be read all the same, since the word is
between parentheses as an operand and the blanks say where the branches begin. -/
theorem text_unambiguous_marks :
    (ite .tru (.succ (.foreign (.string "then"))) (.foreign (.string "then"))).text =
        "if true then succ (then) else then" ∧
      ofText? (fun word => if word = "then" then some (.string word) else none)
          "if true then succ (then) else then" =
        some (ite .tru (.succ (.foreign (.string "then"))) (.foreign (.string "then"))) := by
  have hleaf : (Foreign.string "then").IsLegible
      (fun word => if word = "then" then some (.string word) else none) :=
    ⟨List.all_eq_true.mp (by decide), by decide, rfl⟩
  have hterm : (ite .tru (.succ (.foreign (.string "then"))) (.foreign (.string "then"))).IsLegible
      (fun word => if word = "then" then some (.string word) else none) := by
    intro leaf hmem
    obtain rfl : leaf = .string "then" := by simpa [subterms_eq, children] using hmem
    exact hleaf
  have htext : (ite .tru (.succ (.foreign (.string "then"))) (.foreign (.string "then"))).text =
      "if true then succ (then) else then" := by decide
  exact ⟨htext, ((text_unambiguous _).2.1 _ _).mpr ⟨hterm, htext⟩⟩

end Term

end BoolNat
