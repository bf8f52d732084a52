import BoolNat.Proofs.Population.Groups
import BoolNat.Term.Measure
import Mathlib.Tactic.Ring
set_option autoImplicit false

/-! # The population of a height

The terms of a height are put together from those of one less: the constants once more, the
operators over one of them, and the conditionals over three (`withinHeight_succ`).  These groups
share no term, and together they have what the height of a term says about the heights of its
parts (`Term.depth_le_succ_iff`), so the population is exhaustive by induction on the height
(`enumerates_withinHeight`), and its length obeys the recurrence of the groups
(`length_withinHeight_succ`).
-/

namespace BoolNat

namespace Population

theorem withinHeight_succ (d : Nat) :
    withinHeight (d + 1) = constants ++ operations (withinHeight d) ++
      conditionals (withinHeight d) (withinHeight d) (withinHeight d) := by
  cases d <;> rfl

/-- Every population of a height is exhaustive for it, by induction on the height. -/
theorem enumerates_withinHeight (d : Nat) : Enumerates (withinHeight d) (·.depth ≤ d) := by
  induction d with
  | zero => exact Enumerates.nil fun t => Nat.not_le_of_lt t.depth_pos
  | succ d ih =>
    rw [withinHeight_succ]
    have hfirst := Enumerates.constants.append ih.operations ?_
    · refine (hfirst.append (ih.conditionals ih ih) ?_).congr
        fun t _ => Term.depth_le_succ_iff.symm
      rintro t (hleaf | hoperation)
      · rintro ⟨c, u, e, rfl, _⟩
        cases hleaf
      · exact not_conditional_of_operation hoperation
    · rintro t hleaf ⟨op, u, rfl, _⟩
      rw [Operator.children_apply] at hleaf
      cases hleaf

theorem length_withinHeight_succ (d : Nat) :
    (withinHeight (d + 1)).length =
      3 + 3 * (withinHeight d).length + (withinHeight d).length ^ 3 := by
  have hconstants : constants.length = 3 := rfl
  rw [withinHeight_succ, List.length_append, List.length_append, length_operations,
    length_conditionals, hconstants]
  ring

theorem enumerates_upToDepth (d : Int) :
    Enumerates (upToDepth d) (fun t => (t.depth : Int) ≤ d) := by
  refine (enumerates_withinHeight d.toNat).congr fun t _ => ?_
  have := t.depth_pos
  omega

theorem upToDepth_eq_nil_iff (d : Int) : upToDepth d = [] ↔ d < 1 := by
  rw [(enumerates_upToDepth d).eq_nil_iff]
  constructor
  · intro hnone
    by_contra hd
    refine hnone .zero rfl ?_
    rw [Term.depth_of_leaf rfl]
    omega
  · intro hd t _ hdepth
    have := t.depth_pos
    omega

/-- The population of a height holds the terms of the calculus of at most that height, once each,
and is empty below height 1.  There are three terms of height 1, and the length for one more
height is three more than three times the length plus its third power. -/
theorem enumerates_by_depth :
    (∀ d : Int, Enumerates (upToDepth d) (fun t => (t.depth : Int) ≤ d) ∧
        (upToDepth d = [] ↔ d < 1)) ∧
      (upToDepth 1).length = 3 ∧
      ∀ d : Nat, (upToDepth (d + 1)).length =
        3 + 3 * (upToDepth d).length + (upToDepth d).length ^ 3 :=
  ⟨fun d => ⟨enumerates_upToDepth d, upToDepth_eq_nil_iff d⟩, rfl, length_withinHeight_succ⟩

end Population

end BoolNat
