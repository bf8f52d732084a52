import BoolNat.Metatheory.Census
import BoolNat.Proofs.Population.Size
import BoolNat.Proofs.Reduction.Bounds
import BoolNat.Proofs.Reduction.Sequence
import BoolNat.Proofs.Typing.Expansion
set_option autoImplicit false

/-! # The balance of the census

Every entry of the census is unfinished, gets stuck or reaches a value, and no entry with a type
gets stuck.  An unfinished entry is still counted as well typed if it has a type, and only such an
entry is counted twice among the well-typed ones, those that reach a value without a type, those
that get stuck and the unfinished ones.  So these four counts come to no less than the number of
terms, and to more exactly if a term with a type is unfinished (`countRow_balance`).

At every size there is a term with a type that takes as many steps as terms of that size can,
namely one less than it has nodes: predecessors around zero.  A bound on steps that is enough for
it is enough for all terms of its size (`countP_unfinished_eq_zero_iff`).
-/

namespace BoolNat

/-- Predecessors of zero are numbers. -/
theorem hasType_nestedPred (n : Nat) : HasType (.nestedPred n) .nat := by
  induction n with
  | zero => exact .zero
  | succ n ih => exact .pred ih

namespace Census

/-! ## Entries -/

namespace Entry

variable {maxSteps : Int} {t : Term}

theorem isUnfinished_ofTerm (maxSteps : Int) (t : Term) :
    (ofTerm maxSteps t).isUnfinished = t.overruns maxSteps := by
  cases ho : t.overruns maxSteps with
  | true => rw [isUnfinished, ofTerm, Term.normalize_eq_error ho]
  | false => rw [isUnfinished, ofTerm, Term.normalize_of_enough ho]

theorem getsStuck_ofTerm_iff :
    (ofTerm maxSteps t).getsStuck = true ↔
      t.overruns maxSteps = false ∧ t.normalForm.isValue = false := by
  cases ho : t.overruns maxSteps with
  | true => simp [getsStuck, ofTerm, Term.normalize_eq_error ho]
  | false => simp [getsStuck, ofTerm, Term.normalize_of_enough ho]

theorem isTyped_ofTerm_iff : (ofTerm maxSteps t).isTyped = true ↔ ∃ ty, HasType t ty :=
  Term.isTyped_iff

/-- A value has a type. -/
theorem isTyped_of_isValue (h : t.isValue = true) : (ofTerm maxSteps t).isTyped = true :=
  isTyped_ofTerm_iff.mpr (HasType.exists_of_isValue h)

/-- What is stuck gets stuck without a step. -/
theorem getsStuck_of_isStuck (h : t.isStuck = true) : (ofTerm maxSteps t).getsStuck = true := by
  obtain ⟨hnormal, hvalue⟩ := Term.isStuck_iff.mp h
  rw [getsStuck_ofTerm_iff, Term.normalForm_of_normal hnormal, Term.overruns_eq_false_iff_le,
    Term.stepCount_of_normal hnormal]
  exact ⟨Nat.zero_le _, hvalue⟩

/-- What has a type does not get stuck. -/
theorem getsStuck_eq_false_of_isTyped (maxSteps : Int) (t : Term)
    (h : (ofTerm maxSteps t).isTyped = true) : (ofTerm maxSteps t).getsStuck = false := by
  obtain ⟨ty, hty⟩ := isTyped_ofTerm_iff.mp h
  have hvalue := (hty.of_reaches t.reaches_normalForm).isValue_of_normal t.step_normalForm
  rw [Bool.eq_false_iff, Ne, getsStuck_ofTerm_iff, hvalue]
  rintro ⟨_, hnone⟩
  cases hnone

/-- An entry is unfinished, gets stuck or reaches a value, and is only one of these. -/
theorem kind (e : Entry) :
    (e.isUnfinished = true ∧ e.getsStuck = false ∧ e.reachesValue = false) ∨
      (e.isUnfinished = false ∧ e.getsStuck = true ∧ e.reachesValue = false) ∨
        (e.isUnfinished = false ∧ e.getsStuck = false ∧ e.reachesValue = true) := by
  unfold isUnfinished getsStuck reachesValue
  cases e.normal with
  | error limit => simp
  | ok v => cases v.isValue <;> simp

/-- An entry counts once, and once more if it has a type and is unfinished. -/
theorem balance {e : Entry} (h : e.isTyped = true → e.getsStuck = false) :
    1 + (if (e.isTyped && e.isUnfinished) = true then 1 else 0) =
      (if e.isTyped = true then 1 else 0) +
        (if (e.reachesValue && !e.isTyped) = true then 1 else 0) +
        (if e.getsStuck = true then 1 else 0) + if e.isUnfinished = true then 1 else 0 := by
  rcases e.kind with ⟨hu, hs, hv⟩ | ⟨hu, hs, hv⟩ | ⟨hu, hs, hv⟩
  · cases e.isTyped <;> simp [hu, hs, hv]
  · have ht : e.isTyped = false := by
      cases ht : e.isTyped with
      | false => rfl
      | true => rw [h ht] at hs; cases hs
    simp [hu, hs, hv, ht]
  · cases e.isTyped <;> simp [hu, hs, hv]

end Entry

/-! ## Counts -/

/-- The well-typed entries, the values without a type, those that get stuck and the unfinished ones
come to as many as there are, and to more by those that have a type and are unfinished. -/
theorem countRow_balance (n : Nat) {entries : List Entry}
    (h : ∀ e ∈ entries, e.isTyped = true → e.getsStuck = false) :
    (countRow n entries).terms + entries.countP (fun e => e.isTyped && e.isUnfinished) =
      (countRow n entries).wellTyped + (countRow n entries).untypedValue +
        (countRow n entries).getsStuck + (countRow n entries).unfinished := by
  unfold countRow
  induction entries with
  | nil => rfl
  | cons e rest ih =>
    obtain ⟨he, hrest⟩ := List.forall_mem_cons.mp h
    have hcounts := ih hrest
    have hentry := Entry.balance he
    simp only [List.length_cons, List.countP_cons] at hcounts ⊢
    omega

/-! ## Terms of one size -/

/-- The entries of one size. -/
def entries (maxSteps : Int) (n : Nat) : List Entry :=
  (Population.ofSize n).map (.ofTerm maxSteps)

theorem row_eq (maxSteps : Int) (n : Nat) : row maxSteps n = countRow n (entries maxSteps n) := rfl

variable {maxSteps : Int} {n : Nat}

theorem forall_mem_entries {p : Entry → Prop} :
    (∀ e ∈ entries maxSteps n, p e) ↔ ∀ t ∈ Population.ofSize n, p (.ofTerm maxSteps t) :=
  List.forall_mem_map

theorem nestedPred_mem_ofSize (n : Nat) : Term.nestedPred n ∈ Population.ofSize (n + 1 : Nat) :=
  ((Population.enumerates_layer (n + 1)).mem_iff _).mpr
    ⟨(hasType_nestedPred n).isProper, Term.size_nestedPred n⟩

/-- Whether all unfinished entries of a size are counted or those with a type only, there are none
under the bounds that are enough for predecessors of zero of that size. -/
theorem countP_unfinished_eq_zero_iff (hn : 1 ≤ n) {p : Entry → Bool}
    (hunfinished : ∀ e, p e = true → e.isUnfinished = true)
    (htyped : ∀ e, e.isTyped = true → e.isUnfinished = true → p e = true) :
    (entries maxSteps n).countP p = 0 ↔ n - 1 ≤ maxSteps.toNat := by
  obtain ⟨k, rfl⟩ := Nat.exists_eq_add_of_le' hn
  rw [List.countP_eq_zero, forall_mem_entries, Nat.add_sub_cancel]
  constructor
  · intro hnone
    have htype : ∃ ty, HasType (.nestedPred k) ty := ⟨_, hasType_nestedPred k⟩
    have hfinished : (Term.nestedPred k).overruns maxSteps = false := by
      rw [← Entry.isUnfinished_ofTerm, Bool.eq_false_iff]
      exact fun hu =>
        hnone _ (nestedPred_mem_ofSize k) (htyped _ (Entry.isTyped_ofTerm_iff.mpr htype) hu)
    rwa [Term.overruns_eq_false_iff_le, Term.stepCount_nestedPred] at hfinished
  · intro hle t ht hp
    have hsize := Population.size_of_mem_ofSize ht
    have hcount := t.stepCount_lt_size
    have hoverruns := hunfinished _ hp
    rw [Entry.isUnfinished_ofTerm, Term.overruns_iff] at hoverruns
    omega

/-- The constants are the values of size 1, and of any larger size there is one numeral. -/
theorem countP_isValue_ofSize (hn : 1 ≤ n) :
    (Population.ofSize n).countP Term.isValue = if n = 1 then 3 else 1 := by
  match n with
  | 1 =>
    rw [Population.ofSize_eq_layer]
    rfl
  | n + 2 =>
    have hlayer := Population.enumerates_layer (n + 2)
    have hmem : Term.numeral (n + 1) ∈ Population.ofSize (n + 2 : Nat) :=
      (hlayer.mem_iff _).mpr ⟨Term.isProper_numeral _, Term.size_numeral _⟩
    have hvalue : (Population.ofSize (n + 2 : Nat)).countP Term.isValue =
        (Population.ofSize (n + 2 : Nat)).count (.numeral (n + 1)) := by
      refine List.countP_congr fun t ht => ?_
      rw [beq_iff_eq, ← Term.isValue_and_size_iff]
      exact (and_iff_left (Population.size_of_mem_ofSize ht)).symm
    rw [hvalue, List.count_eq_one_of_mem hlayer.nodup hmem]
    rfl

/-! ## Rows -/

/-- What the counts of a row have to do with each other and with the bound on steps. -/
structure Row.Balanced (maxSteps : Int) (r : Row) : Prop where
  values_le : r.values ≤ r.wellTyped
  stuck_le : r.stuck ≤ r.getsStuck
  values_eq : r.values = if r.size = 1 then 3 else 1
  terms_le : r.terms ≤ r.wellTyped + r.untypedValue + r.getsStuck + r.unfinished
  terms_eq_iff : r.terms = r.wellTyped + r.untypedValue + r.getsStuck + r.unfinished ↔
    (r.size : Int) - 1 ≤ maxSteps
  unfinished_eq_zero_iff : r.unfinished = 0 ↔ (r.size : Int) - 1 ≤ maxSteps

theorem balanced_row (hm : 0 ≤ maxSteps) (hn : 1 ≤ n) : (row maxSteps n).Balanced maxSteps := by
  have hbound : n - 1 ≤ maxSteps.toNat ↔ (n : Int) - 1 ≤ maxSteps := by omega
  have hbalance := countRow_balance n
    (forall_mem_entries.mpr fun t (_ : t ∈ Population.ofSize n) =>
      Entry.getsStuck_eq_false_of_isTyped maxSteps t)
  have htwice : (entries maxSteps n).countP (fun e => e.isTyped && e.isUnfinished) = 0 ↔
      n - 1 ≤ maxSteps.toNat :=
    countP_unfinished_eq_zero_iff hn (by simp) (by simp +contextual)
  have hunfinished : (row maxSteps n).unfinished = 0 ↔ n - 1 ≤ maxSteps.toNat :=
    countP_unfinished_eq_zero_iff hn (fun _ => id) (fun _ _ => id)
  rw [← row_eq] at hbalance
  constructor
  · rw [row_eq]
    refine List.countP_mono_left (forall_mem_entries.mpr fun t _ => ?_)
    exact Entry.isTyped_of_isValue
  · rw [row_eq]
    refine List.countP_mono_left (forall_mem_entries.mpr fun t _ => ?_)
    exact Entry.getsStuck_of_isStuck
  · have hvalues : (row maxSteps n).values = (Population.ofSize n).countP Term.isValue :=
      List.countP_map
    rw [hvalues]
    exact countP_isValue_ofSize hn
  · omega
  · have hsize : (row maxSteps n).size = n := rfl
    rw [hsize, ← hbound, ← htwice]
    omega
  · rw [hunfinished]
    exact hbound

/-- The census goes through the sizes from 1 on, and all terms of a size are counted in its row,
whatever sizes there are after it. -/
theorem rows_eq (maxSteps maxSize : Int) :
    (rows maxSteps maxSize).map (·.1) = (List.range' 1 maxSize.toNat).map (row maxSteps) := by
  rw [rows, List.map_map]
  refine List.map_congr_left fun n hn => ?_
  have hplace : n ≤ maxSize.toNat := by
    rw [List.mem_range'_1] at hn
    omega
  rw [Function.comp_apply, Population.layerIn_sizeTable hplace]
  rfl

/-- In a census there is a row for every size from 1 on, and in each the counts are in balance: the
values are among the well-typed terms, and the stuck terms among those that get stuck; there are
three values of size 1 and one of any other; and the four kinds of terms come to no less than all
terms, and to no more exactly if the bound on steps is at least one less than the size, that is, if
no term is unfinished. -/
theorem rows_balanced {maxSteps : Int} (hm : 0 ≤ maxSteps) :
    (∀ maxSize : Int,
      (rows maxSteps maxSize).map (·.1) = (List.range' 1 maxSize.toNat).map (row maxSteps)) ∧
    ∀ n : Nat, 1 ≤ n → (row maxSteps n).size = n ∧ (row maxSteps n).Balanced maxSteps :=
  ⟨rows_eq maxSteps, fun _ hn => ⟨rfl, balanced_row hm hn⟩⟩

/-- After one step two of the terms of size 3 are unfinished.  They have a type, and so the kinds
come to 29 although there are 27 terms. -/
theorem rows_balanced_two_unfinished :
    (0 : Int) ≤ 1 ∧ row 1 3 = ⟨3, 27, 1, 6, 18, 21, 0, 2⟩ ∧
      (rows 1 4).map (·.1) = [row 1 1, row 1 2, row 1 3, row 1 4] ∧ (row 1 3).Balanced 1 := by
  have hm : (0 : Int) ≤ 1 := by decide
  obtain ⟨hrows, hbalanced⟩ := rows_balanced hm
  exact ⟨hm, by decide +kernel, hrows 4, (hbalanced 3 (by decide)).2⟩

end Census

end BoolNat
