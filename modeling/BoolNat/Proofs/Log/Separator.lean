import BoolNat.Log.Filter
set_option autoImplicit false

/-! # Separators

A filter is cut at commas and signs of equality and trimmed of blanks.  Letter case leaves these
separators as they are and turns nothing else into one (`Text.lowerChar_of_isSeparator`,
`Text.eq_of_mem_lowerChar`), so a text in lower case has them where the text itself has them
(`Text.mem_lower_iff`, `Text.all_isBlank_lower`), and its parts are those of the text in lower case
(`LogFilter.parts_lower`).
-/

namespace BoolNat

namespace Text

/-- The characters at which filters are cut and trimmed. -/
def isSeparator (c : Char) : Bool := c = ',' || c = '=' || isBlank c

/-- The code points of separators. -/
def separatorPoints : List Nat :=
  List.range' 9 5 ++ List.range' 28 5 ++ List.range' 0x2000 11 ++
    [44, 61, 0x85, 0xA0, 0x1680, 0x2028, 0x2029, 0x202F, 0x205F, 0x3000]

theorem isSeparator_iff {c : Char} : isSeparator c = true ↔ c.toNat ∈ separatorPoints := by
  have hcomma : c = ',' ↔ c.toNat = 44 := Char.toNat_inj.symm
  have hequals : c = '=' ↔ c.toNat = 61 := Char.toNat_inj.symm
  simp only [isSeparator, isBlank, isWhiteSpace, separatorPoints, hcomma, hequals, Bool.or_eq_true,
    Bool.and_eq_true, decide_eq_true_eq, List.mem_append, List.mem_range'_1, List.mem_cons,
    List.not_mem_nil, or_false]
  omega

theorem isSeparator_ofNat {n : Nat} (h : n ∉ separatorPoints) :
    isSeparator (Char.ofNat n) = false := by
  rw [Bool.eq_false_iff, ne_eq, isSeparator_iff, Char.ofNat]
  by_cases hvalid : n.isValidChar
  · rw [dif_pos hvalid]
    exact h
  · rw [dif_neg hvalid]
    decide

/-- What holds of all separators is checked point by point. -/
theorem forall_isSeparator {P : Char → Prop} (h : ∀ n ∈ separatorPoints, P (Char.ofNat n))
    {c : Char} (hc : isSeparator c = true) : P c := by
  have hpoint := h c.toNat (isSeparator_iff.mp hc)
  rwa [Char.ofNat_toNat] at hpoint

/-! ## Separators in lower case -/

theorem lowerChar_of_isSeparator {c : Char} (h : isSeparator c = true) : lowerChar c = [c] :=
  forall_isSeparator (P := fun c => lowerChar c = [c]) (by decide +kernel) h

/-- No run of the table has a separator among its images. -/
theorem image?_notMem_separatorPoints {r : CaseRun} (hr : r ∈ lowerRuns) {n m : Nat}
    (h : r.image? n = some m) : m ∉ separatorPoints := by
  have hruns : ∀ r ∈ lowerRuns, ∀ p ∈ separatorPoints,
      p < r.image ∨ r.image + (r.last - r.first) < p := by
    decide +kernel
  intro hm
  have haway := hruns r hr m hm
  unfold CaseRun.image? at h
  split at h
  · cases h
    omega
  · cases h

theorem toLower_of_isSeparator_toLower {c : Char} (h : isSeparator c.toLower = true) :
    c.toLower = c := by
  have hsmall : ∀ n ∈ separatorPoints, n < 97 ∨ 122 < n := by decide
  have hpoint := hsmall _ (isSeparator_iff.mp h)
  unfold Char.toLower at hpoint ⊢
  split at hpoint
  · next hupper =>
    -- A capital letter becomes a small one, and no separator is between these.
    have hfirst : 65 ≤ c.toNat := UInt32.le_iff_toNat_le.mp hupper.1
    have hlast : c.toNat ≤ 90 := UInt32.le_iff_toNat_le.mp hupper.2
    have hlower : (c.val + ('a'.val - 'A'.val)).toNat = c.toNat + 32 := by
      rw [UInt32.toNat_add]
      exact Nat.mod_eq_of_lt (by change c.toNat + 32 < 2 ^ 32; omega)
    change (c.val + ('a'.val - 'A'.val)).toNat < 97 ∨ 122 < (c.val + ('a'.val - 'A'.val)).toNat
      at hpoint
    omega
  · next hother => exact dif_neg hother

/-- What a character is in lower case has no separator in it, unless the character is one. -/
theorem eq_of_mem_lowerChar {c d : Char} (hd : d ∈ lowerChar c) (h : isSeparator d = true) :
    d = c := by
  have hlong : ∀ entry ∈ lowerLong, ∀ n ∈ entry.2, n ∉ separatorPoints := by decide
  unfold lowerChar at hd
  split at hd
  · cases List.mem_singleton.mp hd
    exact toLower_of_isSeparator_toLower h
  · unfold mapChar at hd
    split at hd
    · next points hpoints =>
      obtain ⟨before, after, hentry, _⟩ := List.lookup_eq_some_iff.mp hpoints
      obtain ⟨n, hn, rfl⟩ := List.mem_map.mp hd
      have hn := hlong (c.toNat, points) (by simp [hentry]) n hn
      rw [isSeparator_ofNat hn] at h
      cases h
    · split at hd
      · next n hn =>
        obtain ⟨r, hr, himage⟩ := List.exists_of_findSome?_eq_some hn
        cases List.mem_singleton.mp hd
        rw [isSeparator_ofNat (image?_notMem_separatorPoints hr himage)] at h
        cases h
      · exact List.mem_singleton.mp hd

theorem lowerChar_ne_nil (c : Char) : lowerChar c ≠ [] := by
  have hlong : ∀ entry ∈ lowerLong, entry.2 ≠ [] := by decide
  unfold lowerChar
  split
  · simp
  · unfold mapChar
    split
    · next points hpoints =>
      obtain ⟨before, after, hentry, _⟩ := List.lookup_eq_some_iff.mp hpoints
      have hne := hlong (c.toNat, points) (by simp [hentry])
      simpa using hne
    · split <;> simp

section

variable {p : Char → Bool}

/-- What tells no two characters apart that are not separators holds of all of a character in lower
case just if it holds of the character. -/
theorem all_lowerChar (hp : ∀ c d, isSeparator c = false → isSeparator d = false → p c = p d)
    (c : Char) : (lowerChar c).all p = p c := by
  cases hc : isSeparator c with
  | true => rw [lowerChar_of_isSeparator hc, List.all_cons, List.all_nil, Bool.and_true]
  | false =>
    have hsame : ∀ d ∈ lowerChar c, p d = p c := by
      intro d hd
      refine hp d c ?_ hc
      rw [Bool.eq_false_iff]
      intro hs
      rw [eq_of_mem_lowerChar hd hs, hc] at hs
      cases hs
    cases hlower : lowerChar c with
    | nil => exact absurd hlower (lowerChar_ne_nil c)
    | cons d rest =>
      rw [hlower] at hsame
      rw [Bool.eq_iff_iff, List.all_eq_true]
      constructor
      · intro hall
        rw [← hsame d List.mem_cons_self]
        exact hall d List.mem_cons_self
      · intro hpc e he
        rw [hsame e he, hpc]

theorem all_lowerFrom (hp : ∀ c d, isSeparator c = false → isSeparator d = false → p c = p d)
    (afterCased : Bool) (cs : List Char) : (lowerFrom afterCased cs).all p = cs.all p := by
  induction cs generalizing afterCased with
  | nil => rfl
  | cons c rest ih =>
    simp only [lowerFrom]
    split
    · next hsigma =>
      have hfinal : p 'ς' = p 'Σ' := hp _ _ (by decide) (by decide)
      have hsmall : p 'σ' = p 'Σ' := hp _ _ (by decide) (by decide)
      subst hsigma
      rw [List.all_cons, ih, List.all_cons]
      split
      · rw [hfinal]
      · rw [hsmall]
    · rw [List.all_append, all_lowerChar hp, ih, List.all_cons]

end

/-- A text in lower case has the separators of the text. -/
theorem mem_lower_iff {s : Char} (hs : isSeparator s = true) {cs : List Char} :
    s ∈ lower cs ↔ s ∈ cs := by
  have hother : ∀ c, isSeparator c = false → (s != c) = true := by
    intro c hc
    rw [bne_iff_ne]
    rintro rfl
    rw [hc] at hs
    cases hs
  have hall : (lower cs).all (s != ·) = cs.all (s != ·) :=
    all_lowerFrom (fun c d hc hd => (hother c hc).trans (hother d hd).symm) false cs
  rw [List.all_bne, List.all_bne, Bool.not_inj_iff] at hall
  rw [← List.contains_iff_mem, hall, List.contains_iff_mem]

theorem all_isBlank_lower (cs : List Char) : (lower cs).all isBlank = cs.all isBlank := by
  have hblank : ∀ c, isSeparator c = false → isBlank c = false :=
    fun c hc => (Bool.or_eq_false_iff.mp hc).2
  exact all_lowerFrom (fun c d hc hd => (hblank c hc).trans (hblank d hd).symm) false cs

/-! ## Lower case on either side of a comma -/

theorem startsCased_append_comma (cs rest : List Char) :
    startsCased (cs ++ ',' :: rest) = startsCased cs := by
  induction cs with
  | nil => rfl
  | cons c cs ih => simp only [List.cons_append, startsCased, ih]

theorem lowerFrom_append_comma (afterCased : Bool) (cs rest : List Char) :
    lowerFrom afterCased (cs ++ ',' :: rest) = lowerFrom afterCased cs ++ ',' :: lower rest := by
  induction cs generalizing afterCased with
  | nil => rfl
  | cons c cs ih =>
    simp only [List.cons_append, lowerFrom, startsCased_append_comma, ih]
    split
    · rfl
    · rw [List.append_assoc]

/-- A word ends at a comma, and another begins. -/
theorem lower_append_comma (cs rest : List Char) :
    lower (cs ++ ',' :: rest) = lower cs ++ ',' :: lower rest :=
  lowerFrom_append_comma false cs rest

end Text

namespace LogFilter

/-! ## Parts -/

theorem parts_ne_nil (cs : List Char) : parts cs ≠ [] := by
  unfold parts
  split
  · simp
  · simp
  · split <;> simp

/-- What is no comma is put in front of the first part. -/
theorem parts_cons_of_ne {c : Char} (h : c ≠ ',') {cs part : List Char} {more : List (List Char)}
    (hparts : parts cs = part :: more) : parts (c :: cs) = (c :: part) :: more := by
  rw [parts, hparts]
  exact h

theorem parts_of_not_mem {cs : List Char} (h : ',' ∉ cs) : parts cs = [cs] := by
  induction cs with
  | nil => rfl
  | cons c cs ih =>
    rw [List.mem_cons, not_or] at h
    exact parts_cons_of_ne (Ne.symm h.1) (ih h.2)

theorem parts_append_comma (cs rest : List Char) :
    parts (cs ++ ',' :: rest) = parts cs ++ parts rest := by
  induction cs with
  | nil => rfl
  | cons c cs ih =>
    by_cases hc : c = ','
    · subst hc
      exact congrArg ([] :: ·) ih
    · obtain ⟨part, more, hparts⟩ := List.exists_cons_of_ne_nil (parts_ne_nil cs)
      rw [hparts] at ih
      rw [parts_cons_of_ne hc hparts]
      exact parts_cons_of_ne hc ih

/-- The parts of a text in lower case are the parts of the text, each in lower case. -/
theorem parts_lower (cs : List Char) : parts (Text.lower cs) = (parts cs).map Text.lower := by
  have hcomma : ∀ cs, ',' ∉ cs → ',' ∉ Text.lower cs :=
    fun cs h hmem => h ((Text.mem_lower_iff (by decide)).mp hmem)
  -- From comma to comma: what a sigma becomes depends on the letters on both sides of it, so the
  -- text cannot be taken apart character by character.
  induction hn : cs.length using Nat.strongRecOn generalizing cs with
  | ind n ih =>
    by_cases h : ',' ∈ cs
    · obtain ⟨first, rest, rfl, hfirst⟩ := List.eq_append_cons_of_mem h
      have hrest : rest.length < n := by
        rw [← hn, List.length_append, List.length_cons]
        omega
      rw [Text.lower_append_comma, parts_append_comma, parts_append_comma, List.map_append,
        parts_of_not_mem (hcomma first hfirst), parts_of_not_mem hfirst, ih _ hrest rest rfl]
      rfl
    · rw [parts_of_not_mem (hcomma cs h), parts_of_not_mem h]
      rfl

end LogFilter

end BoolNat
