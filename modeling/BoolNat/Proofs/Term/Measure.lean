import BoolNat.Term.Measure
import BoolNat.Term.Text
import Mathlib.Algebra.Ring.Nat
import Mathlib.Data.Finset.Union
import Mathlib.Data.List.Perm.Subperm
set_option autoImplicit false

/-! # What the measures say of one another

Every measure of a term is known from those of its parts: the loops over a stack come to what
recursion would (`Term.measures_by_children`).  So a property of the measures is proved by induction
on the term.

Only conditionals have more than one part, and they have three: each makes two more leaves than
there would be without it (`Term.length_leaves`).  The constants are among the leaves, the leaves
among the nodes.  A level takes a node at least, and has at most three times the nodes of the level
above it (`Term.depth_le_size`, `Term.size_lt_three_pow`).
-/

namespace BoolNat.Term

/-! ## Constants -/

/-- The constants of a leaf are the leaf itself. -/
theorem toFinset_constants_of_leaf {t : Term} (h : t.children = []) :
    t.constants.toFinset = {t} := by
  ext c
  rw [List.mem_toFinset, mem_constants, subterms_eq, h, Finset.mem_singleton]
  simp only [List.flatMap_nil, List.mem_singleton]
  constructor
  · exact fun hc => hc.1
  · rintro rfl
    exact ⟨rfl, h⟩

/-- A term that is no leaf has the constants of its parts, and none of its own. -/
theorem toFinset_constants_of_ne {t : Term} (h : t.children ≠ []) :
    t.constants.toFinset = t.children.toFinset.biUnion fun u => u.constants.toFinset := by
  ext c
  simp only [List.mem_toFinset, Finset.mem_biUnion, mem_constants]
  rw [subterms_eq, List.mem_cons, List.mem_flatMap]
  constructor
  · rintro ⟨rfl | ⟨u, hu, hc⟩, hleaf⟩
    · exact absurd hleaf h
    · exact ⟨u, hu, hc, hleaf⟩
  · rintro ⟨u, hu, hc, hleaf⟩
    exact ⟨.inr ⟨u, hu, hc⟩, hleaf⟩

/-! ## By the parts -/

/-- The subterms of a term are the term and then those of its parts in order; its size is one more
than the sum of their sizes, and its height one more than the greatest of their heights, or one if
it has no parts.  Its constants, each listed once, are the term itself if it has no parts, and
otherwise those of all its parts. -/
theorem measures_by_children (t : Term) :
    t.subterms = t :: t.children.flatMap subterms ∧
      t.size = 1 + (t.children.map size).sum ∧
      t.depth = 1 + (t.children.map depth).max?.getD 0 ∧
      t.constants.Nodup ∧
      t.constants.toFinset =
        if t.children = [] then {t}
        else t.children.toFinset.biUnion fun u => u.constants.toFinset := by
  have hdepth : t.depth = 1 + (t.children.map depth).max?.getD 0 := by
    rw [t.depth_eq, List.foldl_max, Nat.zero_max]
  refine ⟨t.subterms_eq, t.size_eq, hdepth, t.nodup_constants, ?_⟩
  split
  case isTrue hleaf => exact toFinset_constants_of_leaf hleaf
  case isFalse hparts => exact toFinset_constants_of_ne hparts

/-! ## Leaves -/

/-- How many conditionals there are in a term. -/
def conditionals (t : Term) : Nat := t.subterms.countP isConditional

theorem length_leaves_eq (t : Term) : t.leaves.length = t.subterms.countP (·.children.isEmpty) :=
  List.countP_eq_length_filter.symm

/-- A term without a conditional has one leaf, and every conditional makes two more. -/
theorem length_leaves (t : Term) : t.leaves.length = 1 + 2 * t.conditionals := by
  rw [length_leaves_eq, conditionals]
  induction t using operatorInduction with
  | tru | fls | zero | foreign =>
    rw [countP_subterms_of_leaf _ rfl, countP_subterms_of_leaf _ rfl]
    rfl
  | apply op t ih =>
    -- An operator is neither a leaf nor a conditional.
    have hconditional : (op.apply t).isConditional = false := by cases op <;> rfl
    rw [countP_subterms_apply, countP_subterms_apply, ih, Operator.children_apply, hconditional]
    rfl
  | ite c t e ihc iht ihe =>
    rw [countP_subterms_ite, countP_subterms_ite, ihc, iht, ihe]
    simp only [children, isConditional, List.isEmpty_cons, Bool.toNat_false, Bool.toNat_true]
    omega

theorem length_leaves_le_size (t : Term) : t.leaves.length ≤ t.size :=
  List.length_filter_le _ _

/-- The constants are leaves, and none is listed twice. -/
theorem length_constants_le (t : Term) : t.constants.length ≤ t.leaves.length := by
  have hsub : t.constants ⊆ t.leaves := by
    intro c hc
    obtain ⟨hmem, hleaf⟩ := mem_constants.mp hc
    exact List.mem_filter.mpr ⟨hmem, List.isEmpty_iff.mpr hleaf⟩
  exact (List.subperm_of_subset t.nodup_constants hsub).length_le

/-! ## Size and height -/

theorem depth_le_size (t : Term) : t.depth ≤ t.size := by
  induction t using operatorInduction with
  | tru | fls | zero | foreign => rw [depth_of_leaf rfl]; exact size_pos _
  | apply op t ih => rw [depth_apply, size_apply]; omega
  | ite c t e ihc iht ihe => rw [depth_ite, size_ite]; omega

/-- Twice the size is less than three to the power of the height: a term of one level more has at
most three parts, which are within the bound for one level less. -/
theorem size_lt_three_pow (t : Term) : 2 * t.size < 3 ^ t.depth := by
  induction t using operatorInduction with
  | tru | fls | zero | foreign => rw [depth_of_leaf rfl, size_of_leaf rfl]; decide
  | apply op t ih =>
    rw [depth_apply, size_apply, Nat.pow_add]
    omega
  | ite c t e ihc iht ihe =>
    have hpart : ∀ u : Term, u.depth ≤ max c.depth (max t.depth e.depth) →
        3 ^ u.depth ≤ 3 ^ max c.depth (max t.depth e.depth) :=
      fun u hu => Nat.pow_le_pow_right (by decide) hu
    have hc := hpart c (by omega)
    have ht := hpart t (by omega)
    have he := hpart e (by omega)
    rw [depth_ite, size_ite, Nat.pow_add]
    omega

/-- A term has one leaf more than twice its conditionals.  Of its nodes, no more are constants, each
counted once, than there are leaves, and it has no more leaves than nodes.  It has at least as many
nodes as levels, and at most as many as the full tree of its height in which all that is not a leaf
is a conditional. -/
theorem measures_bounded (t : Term) :
    t.leaves.length = 1 + 2 * t.conditionals ∧
      t.constants.length ≤ t.leaves.length ∧ t.leaves.length ≤ t.size ∧
      t.depth ≤ t.size ∧ t.size ≤ (3 ^ t.depth - 1) / 2 := by
  have hsize := t.size_lt_three_pow
  exact ⟨t.length_leaves, t.length_constants_le, t.length_leaves_le_size, t.depth_le_size, by omega⟩

end BoolNat.Term
