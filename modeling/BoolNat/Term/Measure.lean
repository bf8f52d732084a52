import BoolNat.Term
set_option autoImplicit false

/-! # Walks and measures

Terms are as deep as the numbers they denote, so nothing here recurses on a
term: every measure is a loop over a stack of pending subterms.  The loops end
because taking a term off the stack and putting its children on it lowers the
number of nodes still pending (`nodes_children`).

* `Term.subterms`: the subterms in pre-order, the term itself first;
* `Term.size`: how many there are;
* `Term.constants`: the leaves that occur, each once;
* `Term.depth`: the height, 1 for a leaf.

That the loops compute what recursion over the children would is `subterms_eq`,
`size_eq`, `mem_constants` and `depth_eq`.
-/

namespace BoolNat.Term

/-- The number of nodes, by recursion on the term.  It measures the work left on
a stack of pending terms. -/
def nodes : Term → Nat
  | .succ t | .pred t | .isZero t => t.nodes + 1
  | .ite c t e => c.nodes + t.nodes + e.nodes + 1
  | .tru | .fls | .zero | .foreign _ => 1

/-- The number of nodes of the terms on a stack. -/
def pendingNodes : List Term → Nat
  | [] => 0
  | t :: pending => t.nodes + pendingNodes pending

theorem pendingNodes_append (xs ys : List Term) :
    pendingNodes (xs ++ ys) = pendingNodes xs + pendingNodes ys := by
  induction xs with
  | nil => simp [pendingNodes]
  | cons t xs ih => simp only [List.cons_append, pendingNodes, ih]; omega

theorem pendingNodes_reverse (xs : List Term) : pendingNodes xs.reverse = pendingNodes xs := by
  induction xs with
  | nil => rfl
  | cons t xs ih =>
    rw [List.reverse_cons, pendingNodes_append, ih]
    simp only [pendingNodes]
    omega

theorem nodes_children (t : Term) : pendingNodes t.children + 1 = t.nodes := by
  cases t with
  | ite c t e => simp only [children, pendingNodes, nodes]; omega
  | _ => rfl

/-! ## Pre-order -/

/-- Visit the pending terms in pre-order, after the terms already seen. -/
def walk (seen : Array Term) : List Term → Array Term
  | [] => seen
  | t :: pending => walk (seen.push t) (t.children ++ pending)
termination_by pending => pendingNodes pending
decreasing_by
  have := nodes_children t
  rw [pendingNodes_append, pendingNodes]
  omega

/-- The subterms in pre-order, the term itself first. -/
def subterms (t : Term) : List Term := (walk #[] [t]).toList

theorem walk_append (seen : Array Term) (xs ys : List Term) :
    walk seen (xs ++ ys) = walk (walk seen xs) ys := by
  fun_induction walk seen xs with
  | case1 seen => rfl
  | case2 seen t pending ih =>
    rw [List.cons_append, walk, ← List.append_assoc, ih]

theorem walk_seen (seen : Array Term) (xs : List Term) :
    walk seen xs = seen ++ walk #[] xs := by
  suffices h : ∀ before after : Array Term, walk (before ++ after) xs = before ++ walk after xs by
    simpa using h seen #[]
  intro before after
  fun_induction walk after xs generalizing before with
  | case1 after => simp [walk]
  | case2 after t pending ih => rw [walk, ← Array.append_push, ih]

theorem walk_toList (xs : List Term) : (walk #[] xs).toList = xs.flatMap subterms := by
  induction xs with
  | nil => simp [walk]
  | cons t xs ih =>
    rw [← List.singleton_append, walk_append, walk_seen, Array.toList_append, ih]
    simp [subterms]

/-- The walk lists the term itself and then, from left to right, the subterms of its
children. -/
theorem subterms_eq (t : Term) : t.subterms = t :: t.children.flatMap subterms := by
  show (walk #[] [t]).toList = _
  rw [walk, walk_seen, List.append_nil, Array.toList_append, walk_toList]
  rfl

theorem subterms_apply (op : Operator) (t : Term) :
    (op.apply t).subterms = op.apply t :: t.subterms := by
  rw [subterms_eq, Operator.children_apply, List.flatMap_singleton]

theorem subterms_ite (c t e : Term) :
    (ite c t e).subterms = ite c t e :: (c.subterms ++ (t.subterms ++ e.subterms)) := by
  rw [subterms_eq, children]
  simp only [List.flatMap_cons, List.flatMap_nil, List.append_nil]

theorem self_mem_subterms (t : Term) : t ∈ t.subterms := by
  rw [subterms_eq]
  exact List.mem_cons_self ..

/-- The subterms of a child are subterms. -/
theorem mem_subterms_of_child {t child u : Term} (hchild : child ∈ t.children)
    (hu : u ∈ child.subterms) : u ∈ t.subterms := by
  rw [subterms_eq]
  exact List.mem_cons_of_mem t (List.mem_flatMap.mpr ⟨child, hchild, hu⟩)

/-! ## Counts -/

/-- The number of nodes of a term. -/
def size (t : Term) : Nat := t.subterms.length

theorem length_flatMap_subterms (xs : List Term) :
    (xs.flatMap subterms).length = (xs.map size).foldr (· + ·) 0 := by
  induction xs with
  | nil => rfl
  | cons t xs ih => rw [List.flatMap_cons, List.length_append, ih]; rfl

/-- The size is one more than the sizes of the children. -/
theorem size_eq (t : Term) : t.size = 1 + (t.children.map size).foldr (· + ·) 0 := by
  unfold size
  rw [subterms_eq, List.length_cons, length_flatMap_subterms, Nat.add_comm]
  rfl

theorem size_of_leaf {t : Term} (h : t.children = []) : t.size = 1 := by
  rw [size_eq, h]
  rfl

theorem size_apply (op : Operator) (t : Term) : (op.apply t).size = t.size + 1 := by
  rw [size_eq, Operator.children_apply]
  exact Nat.add_comm 1 t.size

theorem size_ite (c t e : Term) : (ite c t e).size = c.size + t.size + e.size + 1 := by
  simp only [size_eq (ite c t e), children, List.map_cons, List.map_nil, List.foldr]
  omega

/-- The walk counts what recursion counts. -/
theorem size_eq_nodes (t : Term) : t.size = t.nodes := by
  induction t using operatorInduction with
  | tru | fls | zero | foreign => exact size_of_leaf rfl
  | apply op t ih => rw [size_apply, ih]; cases op <;> rfl
  | ite c t e ihc iht ihe => rw [size_ite, ihc, iht, ihe]; rfl

theorem size_pos (t : Term) : 0 < t.size := by
  rw [size_eq]; omega

theorem countP_subterms_of_leaf (kind : Term → Bool) {t : Term} (h : t.children = []) :
    t.subterms.countP kind = (kind t).toNat := by
  rw [subterms_eq, h, List.flatMap_nil, List.countP_singleton]
  cases kind t <;> rfl

/-- An operator adds a node of its own kind to those of its operand. -/
theorem countP_subterms_apply (kind : Term → Bool) (op : Operator) (t : Term) :
    (op.apply t).subterms.countP kind = t.subterms.countP kind + (kind (op.apply t)).toNat := by
  rw [subterms_apply, List.countP_cons]
  cases kind (op.apply t) <;> rfl

/-- A conditional adds a node of its own kind to those of its three parts. -/
theorem countP_subterms_ite (kind : Term → Bool) (c t e : Term) :
    (ite c t e).subterms.countP kind = c.subterms.countP kind + t.subterms.countP kind +
      e.subterms.countP kind + (kind (ite c t e)).toNat := by
  have hroot : (kind (ite c t e)).toNat = if kind (ite c t e) = true then 1 else 0 := by
    cases kind (ite c t e) <;> rfl
  rw [subterms_ite, List.countP_cons, List.countP_append, List.countP_append, hroot]
  omega

/-- The subterms without children. -/
def leaves (t : Term) : List Term := t.subterms.filter (·.children.isEmpty)

/-- The constants that occur in a term, foreign leaves among them, each once. -/
def constants (t : Term) : List Term := t.leaves.eraseDups

/-- The constants of a term are its subterms without children. -/
theorem mem_constants {t c : Term} : c ∈ t.constants ↔ c ∈ t.subterms ∧ c.children = [] := by
  rw [constants, List.mem_eraseDups, leaves, List.mem_filter, List.isEmpty_iff]

theorem nodup_eraseDups (ts : List Term) : ts.eraseDups.Nodup := by
  induction h : ts.length using Nat.strongRecOn generalizing ts with
  | ind n ih =>
    cases ts with
    | nil => exact .nil
    | cons t rest =>
      rw [List.eraseDups_cons, List.nodup_cons, List.mem_eraseDups, List.mem_filter]
      have hshorter := List.length_filter_le (fun u => !u == t) rest
      refine ⟨by simp, ih _ ?_ _ rfl⟩
      rw [← h, List.length_cons]
      omega

theorem nodup_constants (t : Term) : t.constants.Nodup := nodup_eraseDups _

/-! ## Height -/

/-- The greatest level on the stack or below it, where the stack pairs a pending
term with the level at which it stands.  The children go on the stack from left to
right, so the last of them is visited first. -/
def deepest (least : Nat) : List (Term × Nat) → Nat
  | [] => least
  | (t, level) :: pending =>
    deepest (max least level) (t.children.reverse.map (·, level + 1) ++ pending)
termination_by pending => pendingNodes (pending.map (·.1))
decreasing_by
  have := nodes_children t
  simp only [List.map_append, List.map_map, List.map_cons, Function.comp_def, List.map_id',
    pendingNodes_append, pendingNodes_reverse, pendingNodes]
  omega

/-- The height of a term; a leaf has height 1. -/
def depth (t : Term) : Nat := deepest 0 [(t, 1)]

theorem deepest_append (least : Nat) (xs ys : List (Term × Nat)) :
    deepest least (xs ++ ys) = deepest (deepest least xs) ys := by
  fun_induction deepest least xs with
  | case1 least => rfl
  | case2 least t level pending ih =>
    rw [List.cons_append, deepest, ← List.append_assoc, ih]

/-- A pending term is as deep as its level and its own height say. -/
theorem deepest_single (least level : Nat) (t : Term) :
    deepest least [(t, level + 1)] = max least (level + t.depth) := by
  suffices h : ∀ least level,
      deepest least [(t, level + 1)] = max least (level + deepest 0 [(t, 1)]) from h least level
  induction t using operatorInduction with
  | tru | fls | zero | foreign => intro least level; simp [deepest, children]
  | apply op t ih =>
    intro least level
    have step : ∀ least level, deepest least [(op.apply t, level + 1)]
        = deepest (max least (level + 1)) [(t, level + 1 + 1)] := by
      intro least level
      rw [deepest, Operator.children_apply]
      rfl
    have h0 : deepest 0 [(op.apply t, 1)] = _ := step 0 0
    rw [step, ih]
    rw [ih] at h0
    omega
  | ite c t e ihc iht ihe =>
    intro least level
    have step : ∀ least level, deepest least [(ite c t e, level + 1)]
        = deepest (deepest (deepest (max least (level + 1)) [(e, level + 1 + 1)])
            [(t, level + 1 + 1)]) [(c, level + 1 + 1)] := by
      intro least level
      rw [← deepest_append, ← deepest_append, deepest]
      rfl
    have h0 : deepest 0 [(ite c t e, 1)] = _ := step 0 0
    rw [step, ihc, iht, ihe]
    rw [ihc, iht, ihe] at h0
    omega

theorem depth_of_leaf {t : Term} (h : t.children = []) : t.depth = 1 := by
  simp [depth, deepest, h]

theorem depth_apply (op : Operator) (t : Term) : (op.apply t).depth = 1 + t.depth := by
  have h := deepest_single (max 0 1) 1 t
  simp only [depth, deepest, Operator.children_apply, List.reverse_singleton, List.map_cons,
    List.map_nil, List.append_nil] at *
  omega

theorem depth_succ (t : Term) : (succ t).depth = 1 + t.depth := depth_apply .succ t

theorem depth_pred (t : Term) : (pred t).depth = 1 + t.depth := depth_apply .pred t

theorem depth_isZero (t : Term) : (isZero t).depth = 1 + t.depth := depth_apply .isZero t

theorem depth_ite (c t e : Term) :
    (ite c t e).depth = 1 + max c.depth (max t.depth e.depth) := by
  have h : (ite c t e).depth = deepest (deepest (deepest (max 0 1) [(e, 1 + 1)])
      [(t, 1 + 1)]) [(c, 1 + 1)] := by
    rw [← deepest_append, ← deepest_append, depth, deepest]
    rfl
  rw [h, deepest_single, deepest_single, deepest_single]
  omega

/-- The height is one more than the greatest height among the children. -/
theorem depth_eq (t : Term) : t.depth = 1 + (t.children.map depth).foldl max 0 := by
  cases t with
  | tru | fls | zero | foreign => rw [depth_of_leaf rfl]; rfl
  | succ t => simp [depth_succ, children]
  | pred t => simp [depth_pred, children]
  | isZero t => simp [depth_isZero, children]
  | ite c t e => simp [depth_ite, children, Nat.max_assoc]

theorem depth_pos (t : Term) : 0 < t.depth := by
  rw [depth_eq]; omega

/-- A term is a constant or foreign leaf, or its parts are below its height. -/
theorem depth_le_succ_iff {t : Term} {d : Nat} :
    t.depth ≤ d + 1 ↔
      (t.children = [] ∨ ∃ op u, Operator.apply op u = t ∧ u.depth ≤ d) ∨
        ∃ c u e, Term.ite c u e = t ∧ c.depth ≤ d ∧ u.depth ≤ d ∧ e.depth ≤ d := by
  constructor
  · intro h
    induction t using operatorInduction with
    | tru | fls | zero | foreign => exact .inl (.inl rfl)
    | apply op u _ =>
      rw [depth_apply] at h
      exact .inl (.inr ⟨op, u, rfl, by omega⟩)
    | ite c u e _ _ _ =>
      rw [depth_ite] at h
      exact .inr ⟨c, u, e, rfl, by omega⟩
  · rintro ((hleaf | ⟨op, u, rfl, h⟩) | ⟨c, u, e, rfl, h⟩)
    · rw [depth_of_leaf hleaf]; omega
    · rw [depth_apply]; omega
    · rw [depth_ite]; omega

/-- The parts are below the height. -/
theorem depth_le_succ_iff_forall {t : Term} {d : Nat} :
    t.depth ≤ d + 1 ↔ ∀ u ∈ t.children, u.depth ≤ d := by
  induction t using operatorInduction with
  | tru | fls | zero | foreign =>
    rw [depth_of_leaf rfl]
    exact iff_of_true (by omega) fun u hu => absurd hu List.not_mem_nil
  | apply op u _ =>
    rw [depth_apply, Operator.children_apply, List.forall_mem_singleton]
    omega
  | ite c u e _ _ _ =>
    rw [depth_ite, children, List.forall_mem_cons, List.forall_mem_cons,
      List.forall_mem_singleton]
    omega

theorem depth_le_one_iff {t : Term} : t.depth ≤ 1 ↔ t.children = [] := by
  have hpart : ∀ u : Term, ¬ u.depth ≤ 0 := fun u => Nat.not_le_of_lt u.depth_pos
  have hparts : t.depth ≤ 1 ↔ ∀ u ∈ t.children, u.depth ≤ 0 := depth_le_succ_iff_forall
  rw [hparts, List.eq_nil_iff_forall_not_mem]
  simp only [hpart, imp_false]

end BoolNat.Term
