import BoolNat.Proofs.Population.Groups
import BoolNat.Term.Measure
import BoolNat.Term.Value
set_option autoImplicit false

/-! # The population of a size

A layer is put together from the layers below it.  If those are exhaustive for their sizes, then
the two ranges of a layer go through the ways to split the size among the three parts of a
conditional, each once (`Enumerates.splits`), and the layer is exhaustive for its size
(`Enumerates.layer`).

The table of layers holds at every place the layer put together from the places before it
(`ofSize_eq_layer`).  So all of it is exhaustive, by induction on the size, and the layers one
after the other are exhaustive up to a size, smaller terms first (`enumerates_by_size`).
-/

namespace BoolNat

namespace Term

theorem size_eq_one_iff {t : Term} : t.size = 1 ↔ t.children = [] := by
  induction t using operatorInduction with
  | tru | fls | zero | foreign => exact iff_of_true (size_of_leaf rfl) rfl
  | apply op t _ =>
    have := t.size_pos
    rw [size_apply, Operator.children_apply]
    exact iff_of_false (by omega) (List.cons_ne_nil _ _)
  | ite c t e _ _ _ =>
    have := c.size_pos
    rw [size_ite]
    exact iff_of_false (by omega) (List.cons_ne_nil _ _)

theorem size_numeral (n : Nat) : (numeral n).size = n + 1 := by
  induction n with
  | zero => exact size_eq_one_iff.mpr rfl
  | succ n ih => rw [numeral_succ, ← ih]; exact size_apply .succ (numeral n)

theorem exists_numeral_of_isNumeric {t : Term} (h : t.isNumeric = true) : ∃ n, t = numeral n := by
  induction t with
  | zero => exact ⟨0, rfl⟩
  | succ t ih =>
    obtain ⟨n, rfl⟩ := ih h
    exact ⟨n + 1, rfl⟩
  | _ => cases h

/-- The truth values are as small as terms can be, so the only value of a larger size is a
numeral. -/
theorem isValue_and_size_iff {t : Term} {n : Nat} :
    t.isValue = true ∧ t.size = n + 2 ↔ t = numeral (n + 1) := by
  constructor
  · rintro ⟨hv, hsize⟩
    rcases (Bool.or_eq_true _ _).mp hv with hb | hn
    · cases t with
      | tru | fls => rw [size_eq_one_iff.mpr rfl] at hsize; omega
      | _ => cases hb
    · obtain ⟨k, rfl⟩ := exists_numeral_of_isNumeric hn
      rw [size_numeral] at hsize
      rw [Nat.succ.inj hsize]
  · rintro rfl
    exact ⟨isValue_of_isNumeric (isNumeric_numeral _), size_numeral _⟩

/-- A term of more than one node is an operator over a term of one node less, or a conditional
whose parts have one node less together. -/
theorem size_eq_add_two_iff {t : Term} {n : Nat} :
    t.size = n + 2 ↔ (∃ op u, Operator.apply op u = t ∧ u.size = n + 1) ∨
      ∃ c u e, Term.ite c u e = t ∧ c.size + u.size + e.size = n + 1 := by
  constructor
  · intro h
    induction t using operatorInduction with
    | tru | fls | zero | foreign => rw [size_eq_one_iff.mpr rfl] at h; omega
    | apply op u _ =>
      rw [size_apply] at h
      exact .inl ⟨op, u, rfl, by omega⟩
    | ite c u e _ _ _ =>
      rw [size_ite] at h
      exact .inr ⟨c, u, e, rfl, by omega⟩
  · rintro (⟨op, u, rfl, h⟩ | ⟨c, u, e, rfl, h⟩)
    · rw [size_apply, h]
    · rw [size_ite, h]

end Term

namespace Population

/-! ## One layer -/

/-- The conditionals of a layer. -/
def splits (below : Nat → List Term) (n : Nat) : List Term :=
  (List.range' 1 n).flatMap fun i =>
    (List.range' 1 (n - i)).flatMap fun j =>
      conditionals (below i) (below j) (below (n + 1 - i - j))

theorem layer_add_two (below : Nat → List Term) (n : Nat) :
    layer below (n + 2) = operations (below (n + 1)) ++ splits below n := rfl

namespace Enumerates

variable {below : Nat → List Term} {n : Nat}

/-- The two ranges go through the ways to write `n + 1` as a sum of three sizes, and the sizes of
its parts tell the way in which a conditional is found. -/
theorem splits (h : ∀ k ≤ n, Enumerates (below k) (·.size = k)) :
    Enumerates (splits below n)
      (fun t => ∃ c u e, Term.ite c u e = t ∧ c.size + u.size + e.size = n + 1) := by
  have hsplit : ∀ i ∈ List.range' 1 n, ∀ j ∈ List.range' 1 (n - i),
      Enumerates (Population.conditionals (below i) (below j) (below (n + 1 - i - j)))
        (fun t => ∃ c u e, Term.ite c u e = t ∧ c.size = i ∧ u.size = j ∧
          e.size = n + 1 - i - j) := by
    intro i hi j hj
    rw [List.mem_range'_1] at hi hj
    exact (h i (by omega)).conditionals (h j (by omega)) (h (n + 1 - i - j) (by omega))
  have hfirst : ∀ i ∈ List.range' 1 n, Enumerates
      ((List.range' 1 (n - i)).flatMap fun j =>
        Population.conditionals (below i) (below j) (below (n + 1 - i - j)))
      (fun t => ∃ j ∈ List.range' 1 (n - i), ∃ c u e, Term.ite c u e = t ∧ c.size = i ∧
        u.size = j ∧ e.size = n + 1 - i - j) := by
    intro i hi
    refine Enumerates.flatMap (List.nodup_range' 1) (hsplit i hi) ?_
    rintro j j' t ⟨c, u, e, rfl, _, rfl, _⟩ ⟨c', u', e', heq, _, rfl, _⟩
    rw [(Term.ite.inj heq).2.1]
  refine (Enumerates.flatMap (List.nodup_range' 1) hfirst ?_).congr fun t _ => ?_
  · rintro i i' t ⟨j, _, c, u, e, rfl, rfl, _⟩ ⟨j', _, c', u', e', heq, rfl, _⟩
    rw [(Term.ite.inj heq).1]
  · simp only [List.mem_range'_1]
    constructor
    · rintro ⟨i, hi, j, hj, c, u, e, rfl, hc, hu, he⟩
      exact ⟨c, u, e, rfl, by omega⟩
    · rintro ⟨c, u, e, rfl, hsum⟩
      have := c.size_pos
      have := u.size_pos
      have := e.size_pos
      exact ⟨c.size, by omega, u.size, by omega, c, u, e, rfl, rfl, rfl, by omega⟩

/-- A layer over layers that are exhaustive for their sizes is exhaustive for its size. -/
theorem layer (h : ∀ k < n, Enumerates (below k) (·.size = k)) :
    Enumerates (layer below n) (·.size = n) := by
  match n with
  | 0 => exact nil fun t => Nat.ne_of_gt t.size_pos
  | 1 => exact constants.congr fun t _ => Term.size_eq_one_iff.symm
  | m + 2 =>
    have hoperations := (h (m + 1) (by omega)).operations
    have hsplits := splits (n := m) fun k hk => h k (by omega)
    have hboth := hoperations.append hsplits fun t => not_conditional_of_operation
    exact hboth.congr fun t _ => Term.size_eq_add_two_iff.symm

end Enumerates

/-! ## The table of layers -/

theorem layer_congr {below below' : Nat → List Term} {n : Nat}
    (h : ∀ k < n, below k = below' k) : layer below n = layer below' n := by
  match n with
  | 0 | 1 => rfl
  | m + 2 =>
    rw [layer_add_two, layer_add_two, h (m + 1) (by omega)]
    congr 1
    refine List.flatMap_congr fun i hi => List.flatMap_congr fun j hj => ?_
    rw [List.mem_range'_1] at hi hj
    rw [h i (by omega), h j (by omega), h (m + 1 - i - j) (by omega)]

theorem layerIn_extend_size (table : Array (List Term)) :
    layerIn (extend table) table.size = layer (layerIn table) table.size := by
  simp [layerIn, extend, Array.getD_eq_getD_getElem?]

/-- The table puts every layer together from the layers of smaller sizes. -/
theorem ofSize_eq_layer (n : Nat) : ofSize n = layer (fun k => ofSize k) n := by
  cases n with
  | zero => rfl
  | succ m =>
    have hput := layerIn_extend_size (sizeTable m)
    rw [size_sizeTable] at hput
    have hlayer : ofSize (m + 1 : Nat) = layer (layerIn (sizeTable m)) (m + 1) := hput
    rw [hlayer]
    exact layer_congr fun k hk => layerIn_sizeTable (Nat.le_of_lt_succ hk)

/-- Every layer is exhaustive for its size, by induction on the size. -/
theorem enumerates_layer (n : Nat) : Enumerates (ofSize n) (·.size = n) := by
  induction n using Nat.strongRecOn with
  | ind n ih =>
    rw [ofSize_eq_layer]
    exact Enumerates.layer ih

theorem size_of_mem_ofSize {n : Nat} {t : Term} (h : t ∈ ofSize n) : t.size = n :=
  (((enumerates_layer n).mem_iff t).mp h).2

theorem enumerates_ofSize (n : Int) : Enumerates (ofSize n) (fun t => (t.size : Int) = n) := by
  have hcast : ofSize n = ofSize n.toNat := by rw [ofSize, ofSize, Int.toNat_natCast]
  rw [hcast]
  refine (enumerates_layer n.toNat).congr fun t _ => ?_
  have := t.size_pos
  omega

/-- A numeral is a term of every size from 1 on. -/
theorem ofSize_eq_nil_iff (n : Int) : ofSize n = [] ↔ n < 1 := by
  rw [(enumerates_ofSize n).eq_nil_iff]
  constructor
  · intro hnone
    by_contra hn
    refine hnone (.numeral (n - 1).toNat) (Term.isProper_numeral _) ?_
    rw [Term.size_numeral]
    omega
  · intro hn t _ hsize
    have := t.size_pos
    omega

/-! ## The layers one after the other -/

theorem upToSize_eq_flatMap (n : Int) :
    upToSize n = (List.range (n.toNat + 1)).flatMap fun k : Nat => ofSize k := by
  have htable : (sizeTable n.toNat).toList =
      (List.range (n.toNat + 1)).map fun k : Nat => ofSize k := by
    refine List.ext_getElem ?_ fun k hk hk' => ?_
    · rw [Array.length_toList, size_sizeTable, List.length_map, List.length_range]
    · rw [Array.length_toList] at hk
      have hplace : k ≤ n.toNat := by rw [size_sizeTable] at hk; omega
      rw [List.getElem_map, List.getElem_range, ← layerIn_sizeTable hplace, layerIn,
        Array.getElem_toList, Array.getD_eq_getD_getElem?, Array.getElem?_eq_getElem hk]
      rfl
  rw [upToSize, htable, List.flatMap_def]

theorem enumerates_upToSize (n : Int) :
    Enumerates (upToSize n) (fun t => (t.size : Int) ≤ n) := by
  rw [upToSize_eq_flatMap]
  refine (Enumerates.flatMap List.nodup_range (fun k _ => enumerates_layer k) ?_).congr
    fun t _ => ?_
  · rintro k k' t rfl rfl
    rfl
  · have := t.size_pos
    simp only [List.mem_range, exists_eq_right']
    omega

/-- Smaller terms come first. -/
theorem pairwise_size_upToSize (n : Int) :
    (upToSize n).Pairwise (fun t u => t.size ≤ u.size) := by
  rw [upToSize_eq_flatMap, List.pairwise_flatMap]
  refine ⟨?_, ?_⟩
  · intro k _
    refine List.pairwise_of_forall_mem_list fun t ht u hu => Nat.le_of_eq ?_
    rw [size_of_mem_ofSize ht, size_of_mem_ofSize hu]
  · refine List.pairwise_lt_range.imp ?_
    intro k k' hlt t ht u hu
    rw [size_of_mem_ofSize ht, size_of_mem_ofSize hu]
    exact Nat.le_of_lt hlt

/-- The population of a size holds the terms of the calculus of that size, once each, and is empty
below size 1; the population up to a size holds those of at most that size, once each, and smaller
ones first. -/
theorem enumerates_by_size (n : Int) :
    Enumerates (ofSize n) (fun t => (t.size : Int) = n) ∧ (ofSize n = [] ↔ n < 1) ∧
      Enumerates (upToSize n) (fun t => (t.size : Int) ≤ n) ∧
      (upToSize n).Pairwise (fun t u => t.size ≤ u.size) :=
  ⟨enumerates_ofSize n, ofSize_eq_nil_iff n, enumerates_upToSize n, pairwise_size_upToSize n⟩

end Population

end BoolNat
