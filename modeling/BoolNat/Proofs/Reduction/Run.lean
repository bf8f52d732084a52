import BoolNat.Proofs.Reduction.Step
import BoolNat.Reduction.Trace
import BoolNat.Term.Measure
set_option autoImplicit false

/-! # Runs

`Run n t u` says that `n` steps lead from `t` to `u`, and `Reaches t u` that some number
of steps does.  Since a step is a function of the term, a run is determined by its first
term and its length, and a term has at most one normal form (`Run.normal_unique`).  Since
every step makes the term smaller (`Step.size_lt`), a run is no longer than the term is
large (`Run.add_measure_le`), and what holds of normal forms and passes from each term to
the one a step before holds of all terms (`Term.stepInduction`).
-/

namespace BoolNat

/-- From `t`, `n` steps lead to `u`. -/
inductive Run : Nat → Term → Term → Prop
  | nil (t : Term) : Run 0 t t
  | cons {n : Nat} {t t' u : Term} (first : t.step = some t') (rest : Run n t' u) :
    Run (n + 1) t u

/-- From `t`, some number of steps leads to `u`. -/
def Reaches (t u : Term) : Prop := ∃ n, Run n t u

theorem run_zero_iff {t u : Term} : Run 0 t u ↔ t = u := by
  constructor
  · intro h
    cases h
    rfl
  · rintro rfl
    exact .nil t

theorem run_succ_iff {n : Nat} {t u : Term} :
    Run (n + 1) t u ↔ ∃ t', t.step = some t' ∧ Run n t' u := by
  constructor
  · intro h
    cases h with
    | cons first rest => exact ⟨_, first, rest⟩
  · rintro ⟨t', first, rest⟩
    exact .cons first rest

/-- A step makes the term smaller. -/
theorem Step.size_lt {t t' : Term} (h : Step t t') : t'.size < t.size := by
  rw [Term.size_eq_nodes, Term.size_eq_nodes]
  induction h with
  | ifTrue | ifFalse | predZero | predSucc | isZeroZero | isZeroSucc =>
    simp only [Term.nodes]; omega
  | ifCondition _ _ _ ih | succOperand _ ih | predOperand _ ih | isZeroOperand _ ih =>
    simp only [Term.nodes]; omega

/-- Induction along the steps of a term, which come to an end. -/
@[elab_as_elim]
theorem Term.stepInduction {motive : Term → Prop} (normal : ∀ t : Term, t.step = none → motive t)
    (step : ∀ t t' : Term, t.step = some t' → motive t' → motive t) (t : Term) : motive t := by
  induction hs : t.size using Nat.strongRecOn generalizing t with
  | ind s ih =>
    cases ht : t.step with
    | none => exact normal t ht
    | some t' => exact step t t' ht (ih t'.size (hs ▸ (Step.of_step ht).size_lt) t' rfl)

namespace Run

theorem trans {n m : Nat} {t u v : Term} (h : Run n t u) (h' : Run m u v) :
    Run (n + m) t v := by
  induction h with
  | nil => rwa [Nat.zero_add]
  | cons first _ ih => rw [Nat.succ_add]; exact .cons first (ih h')

/-- A run inside an evaluation context is a run of the whole. -/
theorem plug {n : Nat} {t u : Term} (E : Context) (h : Run n t u) :
    Run n (E.plug t) (E.plug u) := by
  induction h with
  | nil t => exact .nil _
  | cons first _ ih => exact .cons (((Step.of_step first).plug E).step_eq) ih

/-- A run is no longer than what it takes away from a measure that every step makes smaller. -/
theorem add_measure_le {n : Nat} {t u : Term} {measure : Term → Nat}
    (hstep : ∀ {t t' : Term}, Step t t' → measure t' < measure t) (h : Run n t u) :
    n + measure u ≤ measure t := by
  induction h with
  | nil => omega
  | cons first _ ih =>
    have hfirst := hstep (.of_step first)
    omega

/-- Two runs from one term to normal forms are the same run. -/
theorem normal_unique {n m : Nat} {t u v : Term} (h : Run n t u) (hu : u.step = none)
    (h' : Run m t v) (hv : v.step = none) : n = m ∧ u = v := by
  induction h generalizing m with
  | nil t =>
    cases h' with
    | nil => exact ⟨rfl, rfl⟩
    | cons first _ => rw [hu] at first; cases first
  | cons first _ ih =>
    cases h' with
    | nil => rw [hv] at first; cases first
    | cons first' rest' =>
      rw [first] at first'
      cases first'
      obtain ⟨rfl, rfl⟩ := ih hu rest'
      exact ⟨rfl, rfl⟩

end Run

namespace Reaches

theorem refl (t : Term) : Reaches t t := ⟨0, .nil t⟩

theorem of_step {t t' : Term} (h : t.step = some t') : Reaches t t' := ⟨1, .cons h (.nil t')⟩

theorem trans {t u v : Term} (h : Reaches t u) (h' : Reaches u v) : Reaches t v := by
  obtain ⟨n, hn⟩ := h
  obtain ⟨m, hm⟩ := h'
  exact ⟨n + m, hn.trans hm⟩

theorem plug {t u : Term} (E : Context) (h : Reaches t u) :
    Reaches (E.plug t) (E.plug u) := by
  obtain ⟨n, hn⟩ := h
  exact ⟨n, hn.plug E⟩

/-- The normal form a term reaches is unique. -/
theorem normal_unique {t u v : Term} (h : Reaches t u) (hu : u.step = none)
    (h' : Reaches t v) (hv : v.step = none) : u = v := by
  obtain ⟨n, hn⟩ := h
  obtain ⟨m, hm⟩ := h'
  exact (hn.normal_unique hu hm hv).2

end Reaches

end BoolNat
