import BoolNat.Proofs.Reduction.Decomposition
import BoolNat.Proofs.Typing.FirstFailure
set_option autoImplicit false

/-! # What the checker says about a stuck term

The checker goes into conditions before it looks at branches, and into operands before it
looks at operators.  That is the way evaluation goes, so nothing has to be in order before the hole
of an evaluation context (`Context.passed_place`), and the first error in such a context is the one
in its hole (`typeOf_plug_of_error`), whatever stands in the branches around it.

A stuck term is an evaluation context around a fault, and a fault is an error by the rule of
its own node.  So the checker's reason to refuse a stuck term is the place where evaluation
is stuck (`typeOf_of_isStuck`).
-/

namespace BoolNat

namespace Context

/-- The place of the hole. -/
def place : Context → Place
  | .hole => .root
  | .condition inner t e => .condition inner.place t e
  | .operand op inner => .operand op inner.place

theorem fill_place (E : Context) (u : Term) : E.place.fill u = E.plug u := by
  induction E with
  | hole => rfl
  | condition inner t e ih => rw [place, Place.fill, plug, ih]
  | operand op inner ih => rw [place, Place.fill, plug, ih]

theorem passed_place (E : Context) : E.place.Passed := by
  induction E with
  | hole => exact trivial
  | condition inner t e ih => exact ih
  | operand op inner ih => exact ih

end Context

namespace Term

/-- An error in the hole of an evaluation context is the error of the whole term. -/
theorem typeOf_plug_of_error {u : Term} {r : Rejection} (E : Context)
    (h : u.typeOf = .error r) : (E.plug u).typeOf = .error r := by
  rw [← E.fill_place]
  exact E.passed_place.typeOf_fill h

/-- A conditional over a numeral is refused for its condition, before its branches are
looked at. -/
theorem typeOf_ite_of_isNumeric {c : Term} (t e : Term) (h : c.isNumeric = true) :
    (ite c t e).typeOf = .error (.typeError (.conditionNotBool (ite c t e) c .nat)) := by
  have hc := (HasType.of_isNumeric h).typeByNode_eq
  rw [typeOf_eq_typeByNode, typeByNode, hc]

/-- An operator over a truth value is refused for its operand. -/
theorem typeOf_apply_of_isBoolean {t : Term} (op : Operator) (h : t.isBoolean = true) :
    (op.apply t).typeOf = .error (.typeError (.operandNotNat (op.apply t) t .bool)) := by
  have ht := (HasType.of_isBoolean h).typeByNode_eq
  rw [typeOf_eq_typeByNode, typeByNode_apply, ht]; rfl

end Term

/-- The checker refuses a stuck term for the node at which evaluation is stuck: for a
conditional over a numeral there, for an operator over a truth value there, or for a foreign
leaf there. -/
theorem typeOf_of_isStuck {t : Term} (h : t.isStuck = true) :
    (∃ c a b : Term, t.focus = .ite c a b ∧ c.isNumeric = true ∧
        t.typeOf = .error (.typeError (.conditionNotBool (.ite c a b) c .nat))) ∨
      (∃ (op : Operator) (u : Term), t.focus = op.apply u ∧ u.isBoolean = true ∧
        t.typeOf = .error (.typeError (.operandNotNat (op.apply u) u .bool))) ∨
      ∃ leaf : Foreign, t.focus = .foreign leaf ∧ t.typeOf = .error (.foreignLeaf leaf) := by
  have hfault := Term.isFault_focus_of_isStuck h
  obtain ⟨E, hE⟩ := t.exists_plug_focus
  have hblame : ∀ r, t.focus.typeOf = .error r → t.typeOf = .error r := by
    intro r hr
    have hplug := Term.typeOf_plug_of_error E hr
    rwa [hE] at hplug
  rcases Term.isFault_iff.mp hfault with ⟨c, a, b, hw, hc⟩ | ⟨op, u, hw, hu⟩ | ⟨leaf, hw⟩
  · exact .inl ⟨c, a, b, hw, hc, hblame _ (hw ▸ Term.typeOf_ite_of_isNumeric a b hc)⟩
  · exact .inr (.inl ⟨op, u, hw, hu, hblame _ (hw ▸ Term.typeOf_apply_of_isBoolean op hu)⟩)
  · exact .inr (.inr ⟨leaf, hw, hblame _ (hw ▸ rfl)⟩)

/-- The branches of the conditional would be refused for a foreign leaf and for a branch of
another type, but evaluation is stuck in its condition, and that is the reason given. -/
theorem typeOf_of_isStuck_condition :
    (Term.ite (.isZero (.succ (.pred .tru))) (.foreign (.string "x"))
        (.ite .tru .zero .fls)).isStuck = true ∧
      (Term.ite (.isZero (.succ (.pred .tru))) (.foreign (.string "x"))
          (.ite .tru .zero .fls)).focus =
        .pred .tru ∧
      (Term.ite (.isZero (.succ (.pred .tru))) (.foreign (.string "x"))
          (.ite .tru .zero .fls)).typeOf =
        .error (.typeError (.operandNotNat (.pred .tru) .tru .bool)) := by
  have h : (Term.ite (.isZero (.succ (.pred .tru))) (.foreign (.string "x"))
      (.ite .tru .zero .fls)).isStuck = true := by decide
  refine ⟨h, rfl, ?_⟩
  rcases typeOf_of_isStuck h with ⟨c, a, b, hw, _⟩ | ⟨op, u, hw, _, herror⟩ | ⟨leaf, hw, _⟩
  · cases hw
  · cases op with
    | pred => cases hw; exact herror
    | succ | isZero => cases hw
  · cases hw

end BoolNat
