import BoolNat.Population.Generate
import BoolNat.Proofs.Population.Height
import BoolNat.Proofs.Typing.Infer
import Mathlib.Algebra.Order.Ring.Rat
set_option autoImplicit false

/-! # What random terms can be

A generator takes one of two ways by the chance of a draw.  Both ways are open when the chance
lies strictly between 0 and 1; otherwise one of them is closed, and nothing else changes
(`Gen.returns_chance`).  So each generator has a row for the levels below the root that says which
terms it can give: a leaf, an operator over a term of one level less, or a conditional over three
(`Gen.returns_termWithin_succ`, `Gen.returns_typedWithin_succ`).

The rows read like the height of a term (`Term.depth_le_succ_iff`) and, for the generator that is
asked for a type, like the typing rules.  By induction on the levels, whatever is generated is of
the height and type that were asked for, and every such term can come out as long as both ways of
a chance are open.
-/

namespace BoolNat.Gen

section
variable {α : Type} {p : Rat} {yes no : Gen α} {a : α}

/-- A draw can fall below a chance that is positive, and not below one that is less than 1. -/
theorem returns_chance :
    Returns (number >>= fun x => if x < p then yes else no) a ↔
      (0 < p ∧ Returns yes a) ∨ (p < 1 ∧ Returns no a) := by
  have hdraw : Returns (number >>= fun x => if x < p then yes else no) a ↔
      ∃ x : Rat, 0 ≤ x ∧ x < 1 ∧ Returns (if x < p then yes else no) a := by
    constructor
    · intro h
      cases h with
      | unit x nonneg lt_one rest => exact ⟨x, nonneg, lt_one, rest⟩
    · intro h
      obtain ⟨x, nonneg, lt_one, rest⟩ := h
      exact .unit x nonneg lt_one rest
  rw [hdraw]
  constructor
  · intro h
    obtain ⟨x, nonneg, lt_one, rest⟩ := h
    by_cases hx : x < p
    · rw [if_pos hx] at rest
      exact .inl ⟨lt_of_le_of_lt nonneg hx, rest⟩
    · rw [if_neg hx] at rest
      exact .inr ⟨lt_of_le_of_lt (not_lt.mp hx) lt_one, rest⟩
  · intro h
    rcases h with ⟨hp, rest⟩ | ⟨hp, rest⟩
    · exact ⟨0, le_refl 0, one_pos, by rwa [if_pos hp]⟩
    · -- The chance itself is a draw that is not below it, unless it is negative.
      have hx : ¬ max p 0 < p := not_lt.mpr (le_max_left p 0)
      exact ⟨max p 0, le_max_right p 0, max_lt hp one_pos, by rwa [if_neg hx]⟩

theorem returns_chance_between (hpos : 0 < p) (hlt : p < 1) :
    Returns (number >>= fun x => if x < p then yes else no) a ↔ Returns yes a ∨ Returns no a := by
  rw [returns_chance, and_iff_right hpos, and_iff_right hlt]

end

variable {t : Term} {p : Rat} {below : Nat} {ty : Ty}

/-- A conditional whose parts are generated one after the other. -/
theorem returns_conditional (condition thenBranch elseBranch : Gen Term) :
    Returns (do return .ite (← condition) (← thenBranch) (← elseBranch)) t ↔
      ∃ c u e, Term.ite c u e = t ∧ Returns condition c ∧ Returns thenBranch u ∧
        Returns elseBranch e := by
  simp only [Bind.bind, Pure.pure, returns_bind, returns_pure]
  constructor
  · rintro ⟨c, hc, u, hu, e, he, rfl⟩
    exact ⟨c, u, e, rfl, hc, hu, he⟩
  · rintro ⟨c, u, e, rfl, hc, hu, he⟩
    exact ⟨c, hc, u, hu, e, he, rfl⟩

/-- An operator and then its operand. -/
theorem returns_operation (operator : Gen Operator) (operand : Gen Term) :
    Returns (do return (← operator).apply (← operand)) t ↔
      ∃ op u, op.apply u = t ∧ Returns operator op ∧ Returns operand u := by
  simp only [Bind.bind, Pure.pure, returns_bind, returns_pure]
  constructor
  · rintro ⟨op, hop, u, hu, rfl⟩
    exact ⟨op, u, rfl, hop, hu⟩
  · rintro ⟨op, u, rfl, hop, hu⟩
    exact ⟨op, hop, u, hu, rfl⟩

/-! ## Terms of any shape -/

theorem returns_constant : Returns constant t ↔ t.isProper = true ∧ t.children = [] := by
  rw [constant, returns_oneOf]
  exact Population.Enumerates.constants.mem_iff t

/-- With levels left below the root, a term of any shape is a constant, an operator or a
conditional, if the chance of a leaf leaves the way open. -/
theorem returns_termWithin_succ :
    Returns (termWithin p (below + 1)) t ↔
      (0 < p ∧ Returns constant t) ∨
        (p < 1 ∧ ((∃ op u, Operator.apply op u = t ∧ Returns (termWithin p below) u) ∨
          ∃ c u e, Term.ite c u e = t ∧ Returns (termWithin p below) c ∧
            Returns (termWithin p below) u ∧ Returns (termWithin p below) e)) := by
  rw [termWithin, returns_chance]
  refine or_congr_right (and_congr_right fun _ => ?_)
  have hoperation := fun op => returns_operation (t := t) (.pure op) (termWithin p below)
  rw [← returns_conditional]
  refine returns_bind.trans ?_
  constructor
  · intro h
    obtain ⟨shape, _, hshape⟩ := h
    cases shape with
    | none => exact .inr hshape
    | some op =>
      obtain ⟨_, u, heq, _, hu⟩ := (hoperation op).mp hshape
      exact .inl ⟨_, u, heq, hu⟩
  · intro h
    rcases h with ⟨op, u, heq, hu⟩ | h
    · have hshape : some op ∈ [none, some Operator.succ, some .pred, some .isZero] := by
        cases op <;> decide
      exact ⟨some op, returns_oneOf.mpr hshape, (hoperation op).mpr ⟨op, u, heq, .pure op, hu⟩⟩
    · exact ⟨none, returns_oneOf.mpr (List.mem_cons_self ..), h⟩

/-- What is generated has no foreign leaf and is within the height, at every chance of a leaf. -/
theorem isProper_of_returns_termWithin (h : Returns (termWithin p below) t) :
    t.isProper = true ∧ t.depth ≤ below + 1 := by
  induction below generalizing t with
  | zero =>
    obtain ⟨hproper, hleaf⟩ := returns_constant.mp h
    exact ⟨hproper, Term.depth_le_one_iff.mpr hleaf⟩
  | succ below ih =>
    rw [Term.depth_le_succ_iff]
    rcases returns_termWithin_succ.mp h with
      ⟨_, hconstant⟩ | ⟨_, ⟨op, u, rfl, hu⟩ | ⟨c, u, e, rfl, hc, hu, he⟩⟩
    · obtain ⟨hproper, hleaf⟩ := returns_constant.mp hconstant
      exact ⟨hproper, .inl (.inl hleaf)⟩
    · obtain ⟨hproper, hdepth⟩ := ih hu
      exact ⟨(Term.isProper_apply op u).trans hproper, .inl (.inr ⟨op, u, rfl, hdepth⟩)⟩
    · obtain ⟨hcp, hcd⟩ := ih hc
      obtain ⟨hup, hud⟩ := ih hu
      obtain ⟨hep, hed⟩ := ih he
      exact ⟨Term.isProper_ite.mpr ⟨hcp, hup, hep⟩, .inr ⟨c, u, e, rfl, hcd, hud, hed⟩⟩

/-- Every term of the calculus within the height can come out while both ways of the chance of a
leaf are open. -/
theorem returns_termWithin_of_isProper (hpos : 0 < p) (hlt : p < 1) (hproper : t.isProper = true)
    (hdepth : t.depth ≤ below + 1) : Returns (termWithin p below) t := by
  induction below generalizing t with
  | zero => exact returns_constant.mpr ⟨hproper, Term.depth_le_one_iff.mp hdepth⟩
  | succ below ih =>
    rw [returns_termWithin_succ]
    rcases Term.depth_le_succ_iff.mp hdepth with
      (hleaf | ⟨op, u, rfl, hu⟩) | ⟨c, u, e, rfl, hc, hu, he⟩
    · exact .inl ⟨hpos, returns_constant.mpr ⟨hproper, hleaf⟩⟩
    · rw [Term.isProper_apply] at hproper
      exact .inr ⟨hlt, .inl ⟨op, u, rfl, ih hproper hu⟩⟩
    · obtain ⟨hcp, hup, hep⟩ := Term.isProper_ite.mp hproper
      exact .inr ⟨hlt, .inr ⟨c, u, e, rfl, ih hcp hc, ih hup hu, ih hep he⟩⟩

/-! ## Terms of a type -/

theorem returns_typedConstant :
    Returns (typedConstant ty) t ↔ HasType t ty ∧ t.children = [] := by
  cases ty with
  | bool =>
    rw [typedConstant, returns_oneOf]
    constructor
    · intro h
      rcases List.mem_pair.mp h with rfl | rfl
      · exact ⟨.tru, rfl⟩
      · exact ⟨.fls, rfl⟩
    · intro h
      obtain ⟨htyped, hleaf⟩ := h
      cases htyped with
      | tru | fls => simp
      | isZero | ite => cases hleaf
  | nat =>
    refine returns_pure.trans ?_
    constructor
    · intro h
      subst h
      exact ⟨.zero, rfl⟩
    · intro h
      obtain ⟨htyped, hleaf⟩ := h
      cases htyped with
      | zero => rfl
      | succ | pred | ite => cases hleaf

/-- An operator whose result has the type; for truth values there is nothing to choose. -/
def operatorOf : Ty → Gen Operator
  | .bool => return .isZero
  | .nat => oneOf .succ [.pred]

theorem returns_operatorOf {op : Operator} : Returns (operatorOf ty) op ↔ op.resultType = ty := by
  cases ty with
  | bool => exact returns_pure.trans (by cases op <;> decide)
  | nat => exact returns_oneOf.trans (by cases op <;> decide)

theorem typedWithin_succ (p : Rat) (below : Nat) (ty : Ty) :
    typedWithin p (below + 1) ty = (do
      if (← number) < p then
        typedConstant ty
      else if (← number) < conditionalChance then
        return .ite (← typedWithin p below .bool) (← typedWithin p below ty)
          (← typedWithin p below ty)
      else
        return (← operatorOf ty).apply (← typedWithin p below .nat)) := by
  cases ty <;> rfl

/-- With levels left below the root, a term of a type is a constant of the type, a conditional
with branches of the type, or an operator whose result has the type, if the chance of a leaf
leaves the way open. -/
theorem returns_typedWithin_succ :
    Returns (typedWithin p (below + 1) ty) t ↔
      (0 < p ∧ Returns (typedConstant ty) t) ∨
        (p < 1 ∧ ((∃ c u e, Term.ite c u e = t ∧ Returns (typedWithin p below .bool) c ∧
            Returns (typedWithin p below ty) u ∧ Returns (typedWithin p below ty) e) ∨
          ∃ op u, Operator.apply op u = t ∧ op.resultType = ty ∧
            Returns (typedWithin p below .nat) u)) := by
  have hpos : 0 < conditionalChance := by decide +kernel
  have hlt : conditionalChance < 1 := by decide +kernel
  rw [typedWithin_succ, returns_chance]
  refine or_congr_right (and_congr_right fun _ => ?_)
  rw [returns_chance_between hpos hlt, returns_conditional, returns_operation]
  simp only [returns_operatorOf]

/-- What is generated has the type and is within the height, at every chance of a leaf. -/
theorem hasType_of_returns_typedWithin (h : Returns (typedWithin p below ty) t) :
    HasType t ty ∧ t.depth ≤ below + 1 := by
  induction below generalizing ty t with
  | zero =>
    obtain ⟨htyped, hleaf⟩ := returns_typedConstant.mp h
    exact ⟨htyped, Term.depth_le_one_iff.mpr hleaf⟩
  | succ below ih =>
    rw [Term.depth_le_succ_iff]
    rcases returns_typedWithin_succ.mp h with
      ⟨_, hconstant⟩ | ⟨_, ⟨c, u, e, rfl, hc, hu, he⟩ | ⟨op, u, rfl, hop, hu⟩⟩
    · obtain ⟨htyped, hleaf⟩ := returns_typedConstant.mp hconstant
      exact ⟨htyped, .inl (.inl hleaf)⟩
    · obtain ⟨hct, hcd⟩ := ih hc
      obtain ⟨hut, hud⟩ := ih hu
      obtain ⟨het, hed⟩ := ih he
      exact ⟨.ite hct hut het, .inr ⟨c, u, e, rfl, hcd, hud, hed⟩⟩
    · obtain ⟨hut, hud⟩ := ih hu
      exact ⟨hasType_apply_iff.mpr ⟨hop, hut⟩, .inl (.inr ⟨op, u, rfl, hud⟩)⟩

/-- Every term of the type within the height can come out while both ways of the chance of a leaf
are open. -/
theorem returns_typedWithin_of_hasType (hpos : 0 < p) (hlt : p < 1) (htyped : HasType t ty)
    (hdepth : t.depth ≤ below + 1) : Returns (typedWithin p below ty) t := by
  induction below generalizing ty t with
  | zero =>
    have hleaf := Term.depth_le_one_iff.mp hdepth
    exact returns_typedConstant.mpr ⟨htyped, hleaf⟩
  | succ below ih =>
    rw [returns_typedWithin_succ]
    rcases Term.depth_le_succ_iff.mp hdepth with
      (hleaf | ⟨op, u, rfl, hu⟩) | ⟨c, u, e, rfl, hc, hu, he⟩
    · exact .inl ⟨hpos, returns_typedConstant.mpr ⟨htyped, hleaf⟩⟩
    · obtain ⟨hop, hut⟩ := hasType_apply_iff.mp htyped
      exact .inr ⟨hlt, .inr ⟨op, u, rfl, hop, ih hut hu⟩⟩
    · obtain ⟨hct, hut, het⟩ := hasType_ite_iff.mp htyped
      exact .inr ⟨hlt, .inl ⟨c, u, e, rfl, ih hct hc, ih hut hu, ih het he⟩⟩

/-! ## Heights as they are asked for -/

/-- The levels below the root, and the root, are as many as the height that is asked for. -/
theorem le_max_depth_iff {n : Nat} {depth : Int} :
    n ≤ (depth - 1).toNat + 1 ↔ (n : Int) ≤ max depth 1 := by
  omega

theorem isProper_of_returns_term {depth : Int} (h : Returns (term p depth) t) :
    t.isProper = true ∧ (t.depth : Int) ≤ max depth 1 := by
  obtain ⟨hproper, hdepth⟩ := isProper_of_returns_termWithin h
  exact ⟨hproper, le_max_depth_iff.mp hdepth⟩

theorem hasType_of_returns_typed {depth : Int} (h : Returns (typed p ty depth) t) :
    HasType t ty ∧ (t.depth : Int) ≤ max depth 1 := by
  obtain ⟨htyped, hdepth⟩ := hasType_of_returns_typedWithin h
  exact ⟨htyped, le_max_depth_iff.mp hdepth⟩

/-- If the chance of a leaf is strictly between 0 and 1, what the generator of terms of any shape can
give are the terms of the calculus within the height that was asked for, a height below 1 counting
as 1: the same terms that the population of this height lists. -/
theorem returns_term_iff_isProper (hpos : 0 < p) (hlt : p < 1) (depth : Int) (t : Term) :
    (Returns (term p depth) t ↔ t.isProper = true ∧ (t.depth : Int) ≤ max depth 1) ∧
      (Returns (term p depth) t ↔ t ∈ Population.upToDepth (max depth 1)) := by
  have hexact : Returns (term p depth) t ↔ t.isProper = true ∧ (t.depth : Int) ≤ max depth 1 := by
    constructor
    · exact isProper_of_returns_term
    · intro h
      obtain ⟨hproper, hdepth⟩ := h
      exact returns_termWithin_of_isProper hpos hlt hproper (le_max_depth_iff.mpr hdepth)
  have hlisted := (Population.enumerates_upToDepth (max depth 1)).mem_iff t
  exact ⟨hexact, hexact.trans hlisted.symm⟩

/-- At the usual chance of a leaf an ill-typed term of four levels can come out at height 4, where it
is listed, and not at height 3. -/
theorem returns_term_four_levels :
    0 < defaultLeafChance ∧ defaultLeafChance < 1 ∧
      Returns (term defaultLeafChance 4) (.ite (.succ .tru) (.pred (.isZero .fls)) .zero) ∧
      Term.ite (.succ .tru) (.pred (.isZero .fls)) .zero ∈ Population.upToDepth (max 4 1) ∧
      ¬ Returns (term defaultLeafChance 3) (.ite (.succ .tru) (.pred (.isZero .fls)) .zero) := by
  have hpos : 0 < defaultLeafChance := by decide +kernel
  have hlt : defaultLeafChance < 1 := by decide +kernel
  have hdepth : (Term.ite (.succ .tru) (.pred (.isZero .fls)) .zero).depth = 4 := by
    have htru : Term.tru.depth = 1 := Term.depth_of_leaf rfl
    have hfls : Term.fls.depth = 1 := Term.depth_of_leaf rfl
    have hzero : Term.zero.depth = 1 := Term.depth_of_leaf rfl
    simp only [Term.depth_ite, Term.depth_isZero, Term.depth_succ, Term.depth_pred, htru, hfls,
      hzero]
    decide
  have hexact := fun height => returns_term_iff_isProper hpos hlt height
    (.ite (.succ .tru) (.pred (.isZero .fls)) .zero)
  have hreturns := (hexact 4).1.mpr ⟨rfl, by rw [hdepth]; decide⟩
  refine ⟨hpos, hlt, hreturns, (hexact 4).2.mp hreturns, ?_⟩
  intro h
  have hheight := ((hexact 3).1.mp h).2
  rw [hdepth] at hheight
  exact absurd hheight (by decide)

/-- Asked for a type of the calculus, the generator of typed terms gives terms of this type and
within the height that was asked for, a height below 1 counting as 1.  If the chance of a leaf is
strictly between 0 and 1, it can give every such term. -/
theorem returns_typed_iff_typecheck (ty : Ty) (depth : Int) (p : Rat) :
    typedByName p (some (.known ty)) depth = .ok (typed p ty depth) ∧
      (∀ t, Returns (typed p ty depth) t →
        t.typecheck = .ok (some ty) ∧ (t.depth : Int) ≤ max depth 1) ∧
      (0 < p → p < 1 → ∀ t, Returns (typed p ty depth) t ↔
        t.typecheck = .ok (some ty) ∧ (t.depth : Int) ≤ max depth 1) := by
  have hsound : ∀ t, Returns (typed p ty depth) t →
      t.typecheck = .ok (some ty) ∧ (t.depth : Int) ≤ max depth 1 := by
    intro t h
    obtain ⟨htyped, hdepth⟩ := hasType_of_returns_typed h
    exact ⟨Term.typecheck_eq_some_iff.mpr htyped, hdepth⟩
  refine ⟨rfl, hsound, ?_⟩
  intro hpos hlt t
  constructor
  · exact hsound t
  · intro h
    obtain ⟨hchecked, hdepth⟩ := h
    have htyped := Term.typecheck_eq_some_iff.mp hchecked
    exact returns_typedWithin_of_hasType hpos hlt htyped (le_max_depth_iff.mpr hdepth)

/-- At the usual chance of a leaf a term of five levels can come out at height 5, and not at
height 4. -/
theorem returns_typed_five_levels :
    0 < defaultLeafChance ∧ defaultLeafChance < 1 ∧
      Returns (typed defaultLeafChance .nat 5)
        (.ite (.isZero .zero) (.succ (.pred .zero)) (.succ (.succ (.pred .zero)))) ∧
      ¬ Returns (typed defaultLeafChance .nat 4)
        (.ite (.isZero .zero) (.succ (.pred .zero)) (.succ (.succ (.pred .zero)))) := by
  have hpos : 0 < defaultLeafChance := by decide +kernel
  have hlt : defaultLeafChance < 1 := by decide +kernel
  have hdepth : (Term.ite (.isZero .zero) (.succ (.pred .zero))
      (.succ (.succ (.pred .zero)))).depth = 5 := by
    have hzero : Term.zero.depth = 1 := Term.depth_of_leaf rfl
    simp only [Term.depth_ite, Term.depth_isZero, Term.depth_succ, Term.depth_pred, hzero]
    decide
  refine ⟨hpos, hlt, ?_, ?_⟩
  · have hexact := (returns_typed_iff_typecheck .nat 5 defaultLeafChance).2.2 hpos hlt
    exact (hexact _).mpr ⟨rfl, by rw [hdepth]; decide⟩
  · intro h
    have hsound := (returns_typed_iff_typecheck .nat 4 defaultLeafChance).2.1 _ h
    rw [hdepth] at hsound
    exact absurd hsound.2 (by decide)

end BoolNat.Gen
