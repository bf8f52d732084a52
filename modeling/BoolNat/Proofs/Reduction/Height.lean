import BoolNat.Proofs.Reduction.Composition
import Mathlib.Algebra.Group.Nat.Defs
set_option autoImplicit false

/-! # How long an evaluation is, by the height of the term

An operator takes one step at most after its operand, and a conditional takes the steps of its
condition, one more, and those of one branch: that is how long the sequences are which theirs are
put together from (`Term.sequence_apply`, `Term.sequence_ite`).

One level more at most doubles what can be done, then, and a term takes fewer steps than two to
the power of the levels below its root (`Term.stepCount_lt_two_pow`).
-/

namespace BoolNat.Term

theorem stepCount_apply_le (op : Operator) (t : Term) :
    (op.apply t).stepCount ≤ t.stepCount + 1 := by
  have hlength := congrArg List.length (sequence_apply op t)
  rw [List.length_append, List.length_map, length_sequence, length_sequence] at hlength
  have hlast : (op.apply t.normalForm).contract?.toList.length ≤ 1 := by
    cases (op.apply t.normalForm).contract? <;> simp
  omega

/-- A conditional evaluates its condition, picks a branch if it can, and evaluates that. -/
theorem stepCount_ite_le (c t e : Term) :
    (ite c t e).stepCount ≤ c.stepCount + 1 + max t.stepCount e.stepCount := by
  have hlength := congrArg List.length (sequence_ite c t e)
  rw [List.length_append, List.length_map, length_sequence, length_sequence] at hlength
  cases hr : (ite c.normalForm t e).contract? with
  | none =>
    rw [hr, Option.elim_none, List.length_nil] at hlength
    omega
  | some r =>
    rw [hr, Option.elim_some, length_sequence] at hlength
    rcases contract?_ite_cases hr with rfl | rfl <;> omega

/-- A term takes fewer steps than two to the power of the levels below its root, by induction on
these: an operator adds a step to what is done below it, and a conditional adds one to what is
done in its condition and in one branch. -/
theorem stepCount_lt_two_pow {t : Term} {below : Nat} (h : t.depth ≤ below + 1) :
    t.stepCount < 2 ^ below := by
  induction below generalizing t with
  | zero =>
    have hleaf := depth_le_one_iff.mp h
    have hnormal : t.step = none := by
      cases t with
      | tru | fls | zero | foreign => rfl
      | _ => cases hleaf
    rw [stepCount_of_normal hnormal]
    decide
  | succ below ih =>
    have hdouble : 2 ^ (below + 1) = 2 * 2 ^ below := Nat.pow_succ'
    have hpos : 0 < 2 ^ below := Nat.two_pow_pos below
    rcases depth_le_succ_iff.mp h with (hleaf | ⟨op, u, rfl, hu⟩) | ⟨c, u, e, rfl, hc, hu, he⟩
    · have hdepth := depth_le_one_iff.mpr hleaf
      have hleaf := ih (Nat.le_trans hdepth (Nat.le_add_left 1 below))
      omega
    · have hsteps := stepCount_apply_le op u
      have hbelow := ih hu
      omega
    · have hsteps := stepCount_ite_le c u e
      have hcondition := ih hc
      have hthen := ih hu
      have helse := ih he
      omega

end BoolNat.Term
