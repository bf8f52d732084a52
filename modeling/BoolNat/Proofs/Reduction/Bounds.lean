import BoolNat.Proofs.Reduction.Height
set_option autoImplicit false

/-! # How long an evaluation can be

The conditionals, predecessors and tests for zero in a term are its *eliminators*: every rule that
contracts something uses one up and copies none, so a term takes no more steps than it has of them
(`Run.length_le_eliminators`).  The height bounds the steps another way
(`Term.stepCount_lt_two_pow`).

Neither bound can be lowered.  Predecessors around zero go away one by one, and a tree of
conditionals whose conditions are as high as their branches does twice at every level what it does
one level below, and once more.
-/

namespace BoolNat

namespace Term

/-- A conditional, a predecessor or a test for zero. -/
def isEliminator : Term → Bool
  | .ite _ _ _ | .pred _ | .isZero _ => true
  | .tru | .fls | .zero | .succ _ | .foreign _ => false

/-- How many conditionals, predecessors and tests for zero there are in a term. -/
def eliminators (t : Term) : Nat := t.subterms.countP isEliminator

theorem eliminators_of_leaf {t : Term} (h : t.children = []) : t.eliminators = 0 := by
  rw [eliminators, countP_subterms_of_leaf _ h]
  cases t with
  | tru | fls | zero | foreign => rfl
  | _ => cases h

theorem eliminators_apply (op : Operator) (t : Term) :
    (op.apply t).eliminators = t.eliminators + (op.apply t).isEliminator.toNat :=
  countP_subterms_apply isEliminator op t

theorem eliminators_succ (t : Term) : (succ t).eliminators = t.eliminators :=
  eliminators_apply .succ t

theorem eliminators_pred (t : Term) : (pred t).eliminators = t.eliminators + 1 :=
  eliminators_apply .pred t

theorem eliminators_isZero (t : Term) : (isZero t).eliminators = t.eliminators + 1 :=
  eliminators_apply .isZero t

theorem eliminators_ite (c t e : Term) :
    (ite c t e).eliminators = c.eliminators + t.eliminators + e.eliminators + 1 :=
  countP_subterms_ite isEliminator c t e

/-- Some node is no eliminator, since a term has a leaf. -/
theorem eliminators_lt_size (t : Term) : t.eliminators < t.size := by
  induction t using operatorInduction with
  | tru | fls | zero | foreign => rw [eliminators_of_leaf rfl]; exact size_pos _
  | apply op t ih =>
    have hroot := (op.apply t).isEliminator.toNat_le
    rw [eliminators_apply, size_apply]
    omega
  | ite c t e ihc iht ihe =>
    rw [eliminators_ite, size_ite]
    omega

end Term

/-- A step uses up an eliminator: the one that is contracted. -/
theorem Step.eliminators_lt {t t' : Term} (h : Step t t') : t'.eliminators < t.eliminators := by
  induction h with
  | ifTrue | ifFalse => rw [Term.eliminators_ite]; omega
  | ifCondition t e _ ih => rw [Term.eliminators_ite, Term.eliminators_ite]; omega
  | succOperand _ ih => rwa [Term.eliminators_succ, Term.eliminators_succ]
  | predZero => rw [Term.eliminators_pred]; omega
  | predSucc => rw [Term.eliminators_pred, Term.eliminators_succ]; omega
  | predOperand _ ih => rw [Term.eliminators_pred, Term.eliminators_pred]; omega
  | isZeroZero | isZeroSucc =>
    rw [Term.eliminators_isZero, Term.eliminators_of_leaf rfl]; omega
  | isZeroOperand _ ih => rw [Term.eliminators_isZero, Term.eliminators_isZero]; omega

theorem Run.length_le_eliminators {n : Nat} {t u : Term} (h : Run n t u) : n ≤ t.eliminators := by
  have hmeasure := h.add_measure_le Step.eliminators_lt
  omega

/-! ## Terms that take as many steps as they may -/

namespace Term

/-- Zero under `n` predecessors. -/
def nestedPred : Nat → Term
  | 0 => .zero
  | n + 1 => .pred (nestedPred n)

theorem size_nestedPred (n : Nat) : (nestedPred n).size = n + 1 := by
  induction n with
  | zero => exact size_of_leaf rfl
  | succ n ih => rw [nestedPred, ← ih]; exact size_apply .pred (nestedPred n)

theorem eliminators_nestedPred (n : Nat) : (nestedPred n).eliminators = n := by
  induction n with
  | zero => exact eliminators_of_leaf rfl
  | succ n ih => rw [nestedPred, eliminators_pred, ih]

/-- The operand is evaluated to zero first, and then the outermost predecessor is contracted. -/
theorem run_nestedPred (n : Nat) : Run n (nestedPred n) zero := by
  induction n with
  | zero => exact .nil _
  | succ n ih =>
    have hoperand : Run n (nestedPred (n + 1)) (pred zero) := ih.plug (.operand .pred .hole)
    exact hoperand.trans (.cons rfl (.nil zero))

/-- No term of this size takes more steps. -/
theorem stepCount_nestedPred (n : Nat) : (nestedPred n).stepCount = n :=
  (run_nestedPred n).stepCount_eq rfl

/-- The full tree of conditionals with `n` levels above its leaves, which are all `true`. -/
def nestedIf : Nat → Term
  | 0 => .tru
  | n + 1 => .ite (nestedIf n) (nestedIf n) (nestedIf n)

theorem depth_nestedIf (n : Nat) : (nestedIf n).depth = n + 1 := by
  induction n with
  | zero => exact depth_of_leaf rfl
  | succ n ih => rw [nestedIf, depth_ite, ih]; omega

/-- The condition is evaluated to `true`, the conditional is contracted to its first branch, and
that is evaluated as the condition was. -/
theorem run_nestedIf (n : Nat) : Run (2 ^ n - 1) (nestedIf n) tru := by
  induction n with
  | zero => exact .nil _
  | succ n ih =>
    have hcondition : Run (2 ^ n - 1) (nestedIf (n + 1)) (ite tru (nestedIf n) (nestedIf n)) :=
      ih.plug (.condition .hole (nestedIf n) (nestedIf n))
    have hrun := hcondition.trans (.cons rfl ih)
    have hcount : 2 ^ n - 1 + (2 ^ n - 1 + 1) = 2 ^ (n + 1) - 1 := by
      have hpos : 0 < 2 ^ n := Nat.two_pow_pos n
      have hdouble : 2 ^ (n + 1) = 2 * 2 ^ n := Nat.pow_succ'
      omega
    rwa [hcount] at hrun

end Term

/-- Every step makes a term smaller, and a term reaches its normal form in no more steps than it has
eliminators, of which there are fewer than nodes, and in fewer steps than two to the power of the
levels below its root.  There are terms of any number of eliminators, and of any height, that take
as many steps as this allows. -/
theorem evaluation_length_bounded :
    (∀ t t' : Term, t.step = some t' → t'.size < t.size) ∧
      (∀ t : Term, ∃ (n : Nat) (u : Term), Run n t u ∧ u.step = none ∧
        n ≤ t.eliminators ∧ t.eliminators ≤ t.size - 1 ∧ n ≤ 2 ^ (t.depth - 1) - 1) ∧
      (∀ n : Nat, ∃ t u : Term, t.eliminators = n ∧ Run n t u ∧ u.step = none) ∧
      ∀ d : Nat, 1 ≤ d →
        ∃ t u : Term, t.depth = d ∧ Run (2 ^ (d - 1) - 1) t u ∧ u.step = none := by
  refine ⟨?_, ?_, ?_, ?_⟩
  · intro t t' h
    exact (Step.of_step h).size_lt
  · intro t
    have hrun := t.run_normalForm
    have heliminators := t.eliminators_lt_size
    have hbelow : t.depth ≤ t.depth - 1 + 1 := Nat.le_add_of_sub_le (Nat.le_refl _)
    have hheight := Term.stepCount_lt_two_pow hbelow
    exact ⟨t.stepCount, t.normalForm, hrun, t.step_normalForm, hrun.length_le_eliminators,
      by omega, by omega⟩
  · intro n
    exact ⟨Term.nestedPred n, .zero, Term.eliminators_nestedPred n, Term.run_nestedPred n, rfl⟩
  · intro d hd
    have hd : d = d - 1 + 1 := by omega
    exact ⟨Term.nestedIf (d - 1), .tru, (Term.depth_nestedIf _).trans hd.symm,
      Term.run_nestedIf (d - 1), rfl⟩

/-- A predecessor of a successor steps to something smaller, and some term of height three takes
three steps. -/
theorem evaluation_length_bounded_pred_succ :
    (Term.pred (.succ .zero)).step = some .zero ∧
      Term.zero.size < (Term.pred (.succ .zero)).size ∧
      1 ≤ 3 ∧ ∃ t u : Term, t.depth = 3 ∧ Run 3 t u ∧ u.step = none := by
  obtain ⟨hsize, _, _, hattained⟩ := evaluation_length_bounded
  exact ⟨rfl, hsize _ _ rfl, by decide, hattained 3 (by decide)⟩

end BoolNat
