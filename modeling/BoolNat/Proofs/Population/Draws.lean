import BoolNat.Population.Replay
import BoolNat.Proofs.Population.Random
set_option autoImplicit false

/-! # How many draws a random term takes

A generator makes its requests one by one, and what it asks for next depends on the answers so far.
So which draws it uses is settled by the answers, and what stands behind them in a list of recorded
draws has no influence (`Gen.exists_takes_of_replay`).

How many requests the two generators of terms make can be read off the term that comes out,
whatever the answers are (`Gen.Takes.total_termWithin`, `Gen.Takes.total_typedWithin`).  Every node
has its own draws, and how many these are is told by its level and, for a term of a type, by its
shape: above the last level there is a draw for whether to take a leaf, and there is one for every
further choice that is open.
-/

namespace BoolNat

namespace Term

/-- The nodes of a term in pre-order, each with its level, where the root stands at `level`. -/
def leveled (level : Nat) (t : Term) : List (Term × Nat) :=
  (t, level) :: match t with
    | .succ u | .pred u | .isZero u => u.leveled (level + 1)
    | .ite c u e => c.leveled (level + 1) ++ (u.leveled (level + 1) ++ e.leveled (level + 1))
    | .tru | .fls | .zero | .foreign _ => []

theorem leveled_of_leaf {t : Term} (h : t.children = []) (level : Nat) :
    t.leveled level = [(t, level)] := by
  cases t with
  | tru | fls | zero | foreign => rfl
  | _ => cases h

theorem leveled_apply (op : Operator) (t : Term) (level : Nat) :
    (op.apply t).leveled level = (op.apply t, level) :: t.leveled (level + 1) := by
  cases op <;> rfl

theorem leveled_ite (c t e : Term) (level : Nat) :
    (ite c t e).leveled level = (ite c t e, level) ::
      (c.leveled (level + 1) ++ (t.leveled (level + 1) ++ e.leveled (level + 1))) := rfl

end Term

namespace Gen

/-! ## Requests -/

section
variable {α β : Type} {g : Gen α} {f : α → Gen β} {a a' : α} {b : β} {n : Nat}

/-- The generator gives `a` after `n` requests, for some answers of any kind. -/
inductive Takes : Gen α → Nat → α → Prop
  | pure (a : α) : Takes (.pure a) 0 a
  | unit {next : Rat → Gen α} {n : Nat} {a : α} (x : Rat) (rest : Takes (next x) n a) :
      Takes (.unit next) (n + 1) a
  | index {bound : Nat} {next : Fin (bound + 1) → Gen α} {n : Nat} {a : α} (i : Fin (bound + 1))
      (rest : Takes (next i) n a) : Takes (.index bound next) (n + 1) a

theorem Takes.of_pure (h : Takes (.pure a) n a') : n = 0 ∧ a' = a := by
  cases h
  exact ⟨rfl, rfl⟩

/-- Two generators in a row make the requests of the first and then those of the second. -/
theorem Takes.of_bind (h : Takes (g.bind f) n b) :
    ∃ a i j, Takes g i a ∧ Takes (f a) j b ∧ n = i + j := by
  induction g generalizing n with
  | pure a => exact ⟨a, 0, n, .pure a, h, (Nat.zero_add n).symm⟩
  | unit next ih =>
    cases h with
    | unit x rest =>
      obtain ⟨a, i, j, hi, hj, rfl⟩ := ih x rest
      exact ⟨a, i + 1, j, .unit x hi, hj, by omega⟩
  | index bound next ih =>
    cases h with
    | index k rest =>
      obtain ⟨a, i, j, hi, hj, rfl⟩ := ih k rest
      exact ⟨a, i + 1, j, .index k hi, hj, by omega⟩

theorem Takes.of_oneOf {first : α} {rest : List α} (h : Takes (oneOf first rest) n a) :
    n = 1 ∧ a ∈ first :: rest := by
  cases h with
  | index i h =>
    cases h
    exact ⟨rfl, List.getElem_mem _⟩

/-- A draw is compared with a chance, and one of two ways is taken. -/
theorem Takes.of_chance {p : Rat} {yes no : Gen α}
    (h : Takes (number >>= fun x => if x < p then yes else no) n a) :
    ∃ m, n = m + 1 ∧ (Takes yes m a ∨ Takes no m a) := by
  obtain ⟨x, i, m, hdraw, hway, rfl⟩ := h.of_bind
  have hi : i = 1 := by
    cases hdraw with
    | unit _ rest => rw [rest.of_pure.1]
  refine ⟨m, by omega, ?_⟩
  split at hway
  case isTrue => exact .inl hway
  case isFalse => exact .inr hway

end

/-! ## Recorded draws -/

section
variable {α : Type} {g : Gen α} {a : α} {draws left : List Rat}

/-- A run on recorded draws uses as many as the generator makes requests, and it is the same run on
all draws that begin with these: by induction on the generator, each request takes the first draw of
both lists. -/
theorem exists_takes_of_replay (h : g.replay draws = some (a, left)) :
    ∃ count ≤ draws.length, Takes g count a ∧
      ∀ other : List Rat, other.take count = draws.take count →
        g.replay other = some (a, other.drop count) := by
  induction g generalizing draws with
  | pure a =>
    cases h
    exact ⟨0, Nat.zero_le _, .pure a, fun other _ => rfl⟩
  | unit next ih =>
    cases draws with
    | nil => cases h
    | cons draw draws =>
      obtain ⟨count, hle, htakes, hsame⟩ := ih draw h
      refine ⟨count + 1, Nat.succ_le_succ hle, .unit draw htakes, ?_⟩
      intro other hother
      cases other with
      | nil => cases hother
      | cons draw' other =>
        rw [List.take_succ_cons, List.take_succ_cons, List.cons.injEq] at hother
        obtain ⟨rfl, hrest⟩ := hother
        exact hsame other hrest
  | index bound next ih =>
    cases draws with
    | nil => cases h
    | cons draw draws =>
      obtain ⟨count, hle, htakes, hsame⟩ := ih (indexOf bound draw) h
      refine ⟨count + 1, Nat.succ_le_succ hle, .index _ htakes, ?_⟩
      intro other hother
      cases other with
      | nil => cases hother
      | cons draw' other =>
        rw [List.take_succ_cons, List.take_succ_cons, List.cons.injEq] at hother
        obtain ⟨rfl, hrest⟩ := hother
        exact hsame other hrest

/-- The first `count` draws, whatever stands behind them, make the generator give `a`, and it uses
these and no more. -/
def UsesFirst (g : Gen α) (draws : List Rat) (a : α) (count : Nat) : Prop :=
  ∀ other : List Rat, other.take count = draws.take count →
    g.replay other = some (a, other.drop count) ∧ g.drawsUsed other = count

theorem exists_usesFirst_of_replay (h : g.replay draws = some (a, left)) :
    ∃ count, Takes g count a ∧ UsesFirst g draws a count := by
  obtain ⟨count, hle, htakes, hsame⟩ := exists_takes_of_replay h
  refine ⟨count, htakes, ?_⟩
  intro other hother
  have hreplay := hsame other hother
  have hlength := congrArg List.length hother
  rw [List.length_take, List.length_take, Nat.min_eq_left hle] at hlength
  refine ⟨hreplay, ?_⟩
  rw [drawsUsed, hreplay]
  simp only [List.length_drop]
  omega

end

/-! ## Draws by node -/

/-- What a table has for some nodes together, if it has an entry for each of them. -/
def total (table : Term × Nat → Option Nat) : List (Term × Nat) → Option Nat
  | [] => some 0
  | node :: nodes => do return (← table node) + (← total table nodes)

/-- The draws for a node of a term of any shape that was asked for with a height: above the last
level there is one for whether to take a leaf, and everywhere there is one for which leaf or shape
to take. -/
def untypedDraws (depth : Int) (node : Term × Nat) : Option Nat :=
  if (node.2 : Int) < depth then some 2 else some 1

/-- The draws for a node of a term of a type that was asked for with a height.  There is one leaf
only among the numbers, and one operator only that gives a truth value, so that nothing is drawn to
choose these; and a node that is no constant does not stand at the last level. -/
def typedDraws (depth : Int) (node : Term × Nat) : Option Nat :=
  if (node.2 : Int) < depth then
    match node.1 with
    | .zero => some 1
    | .tru | .fls | .ite _ _ _ | .isZero _ => some 2
    | .succ _ | .pred _ => some 3
    | .foreign _ => none
  else
    match node.1 with
    | .zero => some 0
    | .tru | .fls => some 1
    | _ => none

variable {t : Term} {p : Rat} {below n level : Nat} {ty : Ty} {depth : Int}

section
variable {table : Term × Nat → Option Nat} {node : Term × Nat} {nodes xs ys : List (Term × Nat)}
  {c u e : Term} {m i j k : Nat}

theorem total_cons (hnode : table node = some i) (hnodes : total table nodes = some j) :
    total table (node :: nodes) = some (i + j) := by
  rw [total, hnode, hnodes]
  rfl

theorem total_append (hxs : total table xs = some i) (hys : total table ys = some j) :
    total table (xs ++ ys) = some (i + j) := by
  induction xs generalizing i with
  | nil =>
    cases hxs
    rwa [List.nil_append, Nat.zero_add]
  | cons node xs ih =>
    rw [total] at hxs
    obtain ⟨n, hn, hrest⟩ := Option.bind_eq_some_iff.mp hxs
    obtain ⟨m, hm, hsum⟩ := Option.bind_eq_some_iff.mp hrest
    cases hsum
    rw [List.cons_append, Nat.add_assoc]
    exact total_cons hn (ih hm)

theorem total_leveled_of_leaf (h : t.children = []) :
    total table (t.leveled level) = table (t, level) := by
  rw [Term.leveled_of_leaf h, total, total]
  cases table (t, level) <;> rfl

theorem total_leveled_apply {op : Operator} (hnode : table (op.apply u, level) = some m)
    (hu : total table (u.leveled (level + 1)) = some i) :
    total table ((op.apply u).leveled level) = some (m + i) := by
  rw [Term.leveled_apply]
  exact total_cons hnode hu

theorem total_leveled_ite (hnode : table (.ite c u e, level) = some m)
    (hc : total table (c.leveled (level + 1)) = some i)
    (hu : total table (u.leveled (level + 1)) = some j)
    (he : total table (e.leveled (level + 1)) = some k) :
    total table ((Term.ite c u e).leveled level) = some (m + (i + (j + k))) := by
  rw [Term.leveled_ite]
  exact total_cons hnode (total_append hc (total_append hu he))

end

/-- A conditional whose parts are generated one after the other. -/
theorem Takes.of_conditional {condition thenBranch elseBranch : Gen Term}
    (h : Takes (do return .ite (← condition) (← thenBranch) (← elseBranch)) n t) :
    ∃ c u e i j k, Term.ite c u e = t ∧ Takes condition i c ∧ Takes thenBranch j u ∧
      Takes elseBranch k e ∧ n = i + (j + k) := by
  obtain ⟨c, i, _, hc, hrest, rfl⟩ := h.of_bind
  obtain ⟨u, j, _, hu, hlast, rfl⟩ := hrest.of_bind
  obtain ⟨e, k, _, he, hresult, rfl⟩ := hlast.of_bind
  obtain ⟨rfl, rfl⟩ := hresult.of_pure
  exact ⟨c, u, e, i, j, k, rfl, hc, hu, he, rfl⟩

/-- An operator and then its operand. -/
theorem Takes.of_operation {operator : Gen Operator} {operand : Gen Term}
    (h : Takes (do return (← operator).apply (← operand)) n t) :
    ∃ op u i j, Operator.apply op u = t ∧ Takes operator i op ∧ Takes operand j u ∧ n = i + j := by
  obtain ⟨op, i, _, hop, hrest, rfl⟩ := h.of_bind
  obtain ⟨u, j, _, hu, hresult, rfl⟩ := hrest.of_bind
  obtain ⟨rfl, rfl⟩ := hresult.of_pure
  exact ⟨op, u, i, j, rfl, hop, hu, rfl⟩

/-! ### Terms of any shape -/

theorem Takes.of_constant (h : Takes constant n t) : n = 1 ∧ t.children = [] := by
  obtain ⟨hn, ht⟩ := h.of_oneOf
  have hleaf := (Population.Enumerates.constants.mem_iff t).mp ht
  exact ⟨hn, hleaf.2⟩

/-- The draws for a term are those of its nodes, by induction on the levels below its root. -/
theorem Takes.total_termWithin (h : Takes (termWithin p below) n t)
    (hbelow : (depth - level).toNat = below) :
    total (untypedDraws depth) (t.leveled level) = some n := by
  induction below generalizing n t level with
  | zero =>
    have hlevel : ¬ (level : Int) < depth := by omega
    obtain ⟨rfl, hleaf⟩ := Takes.of_constant h
    rw [total_leveled_of_leaf hleaf, untypedDraws, if_neg hlevel]
  | succ below ih =>
    have hlevel : (level : Int) < depth := by omega
    have hnext : (depth - (level + 1 : Nat)).toNat = below := by omega
    have hnode : ∀ u : Term, untypedDraws depth (u, level) = some 2 := fun _ => if_pos hlevel
    -- One draw is for whether to take a leaf; the other one picks the leaf or the shape.
    rw [termWithin] at h
    obtain ⟨m, rfl, hconstant | hshape⟩ := h.of_chance
    · obtain ⟨rfl, hleaf⟩ := hconstant.of_constant
      rw [total_leveled_of_leaf hleaf, hnode]
    · obtain ⟨shape, i, k, hchoice, hparts, rfl⟩ := hshape.of_bind
      obtain ⟨rfl, _⟩ := hchoice.of_oneOf
      cases shape with
      | none =>
        obtain ⟨c, u, e, i, j, k, rfl, hc, hu, he, rfl⟩ := Takes.of_conditional hparts
        rw [total_leveled_ite (hnode _) (ih hc hnext) (ih hu hnext) (ih he hnext)]
        congr 1
        omega
      | some op =>
        obtain ⟨u, i, _, hu, hresult, rfl⟩ := Takes.of_bind hparts
        obtain ⟨rfl, rfl⟩ := hresult.of_pure
        rw [total_leveled_apply (hnode _) (ih hu hnext)]
        congr 1
        omega

/-! ### Terms of a type -/

/-- At the last level there is nothing but a constant, and it takes one draw less. -/
theorem Takes.of_typedConstant (h : Takes (typedConstant ty) n t) :
    t.children = [] ∧ ∀ level : Nat,
      typedDraws depth (t, level) = if (level : Int) < depth then some (n + 1) else some n := by
  cases ty with
  | bool =>
    obtain ⟨rfl, ht⟩ := h.of_oneOf
    rcases List.mem_pair.mp ht with rfl | rfl <;> exact ⟨rfl, fun level => rfl⟩
  | nat =>
    obtain ⟨rfl, rfl⟩ := h.of_pure
    exact ⟨rfl, fun level => rfl⟩

/-- With levels left, an operator takes two draws, and one more if there are two to choose from. -/
theorem Takes.of_operatorOf {op : Operator} (h : Takes (operatorOf ty) n op) (u : Term)
    (hlevel : (level : Int) < depth) : typedDraws depth (op.apply u, level) = some (n + 2) := by
  rw [typedDraws, if_pos hlevel]
  cases ty with
  | bool =>
    obtain ⟨rfl, rfl⟩ := h.of_pure
    rfl
  | nat =>
    obtain ⟨rfl, hop⟩ := h.of_oneOf
    rcases List.mem_pair.mp hop with rfl | rfl <;> rfl

/-- The draws for a term of a type are those of its nodes, by induction on the levels below its
root. -/
theorem Takes.total_typedWithin (h : Takes (typedWithin p below ty) n t)
    (hbelow : (depth - level).toNat = below) :
    total (typedDraws depth) (t.leveled level) = some n := by
  induction below generalizing n t level ty with
  | zero =>
    have hlevel : ¬ (level : Int) < depth := by omega
    obtain ⟨hleaf, hnode⟩ := Takes.of_typedConstant h
    rw [total_leveled_of_leaf hleaf, hnode, if_neg hlevel]
  | succ below ih =>
    have hlevel : (level : Int) < depth := by omega
    have hnext : (depth - (level + 1 : Nat)).toNat = below := by omega
    -- A draw for whether to take a leaf, one for whether to take a conditional, and what the
    -- constant or the operator takes.
    rw [typedWithin_succ] at h
    obtain ⟨m, rfl, hconstant | hshape⟩ := h.of_chance
    · obtain ⟨hleaf, hnode⟩ := hconstant.of_typedConstant
      rw [total_leveled_of_leaf hleaf, hnode, if_pos hlevel]
    · obtain ⟨k, rfl, hparts | hparts⟩ := hshape.of_chance
      · obtain ⟨c, u, e, i, j, k, rfl, hc, hu, he, rfl⟩ := Takes.of_conditional hparts
        have hnode : typedDraws depth (.ite c u e, level) = some 2 := if_pos hlevel
        rw [total_leveled_ite hnode (ih hc hnext) (ih hu hnext) (ih he hnext)]
        congr 1
        omega
      · obtain ⟨op, u, i, j, rfl, hop, hu, rfl⟩ := Takes.of_operation hparts
        have hnode := hop.of_operatorOf u hlevel
        rw [total_leveled_apply hnode (ih hu hnext)]
        congr 1
        omega

/-! ## The two generators -/

theorem exists_typed_of_typedByName {name : Option TypeName} {g : Gen Term}
    (h : typedByName p name depth = .ok g) : ∃ ty, g = typed p ty depth := by
  match name with
  | some (.known ty) => exact ⟨ty, (Except.ok.inj h).symm⟩
  | some (.unknown _) | none => cases h

/-- Whatever the chance of a leaf is, a run of a generator of terms on recorded draws that comes to
an end uses as many draws as the nodes of its term take together, with the root at level 1.  Draws
that begin with the same ones, whatever follows, give the same term with as many. -/
theorem draws_used_by_nodes (p : Rat) (depth : Int) (draws left : List Rat) (t : Term) :
    ((term p depth).replay draws = some (t, left) →
      ∃ count, total (untypedDraws depth) (t.leveled 1) = some count ∧
        UsesFirst (term p depth) draws t count) ∧
      ∀ (name : Option TypeName) (g : Gen Term), typedByName p name depth = .ok g →
        g.replay draws = some (t, left) →
        ∃ count, total (typedDraws depth) (t.leveled 1) = some count ∧
          UsesFirst g draws t count := by
  have hbelow : (depth - (1 : Nat)).toNat = (depth - 1).toNat := rfl
  constructor
  · intro h
    obtain ⟨count, htakes, huses⟩ := exists_usesFirst_of_replay h
    exact ⟨count, Takes.total_termWithin htakes hbelow, huses⟩
  · intro name g hname h
    obtain ⟨count, htakes, huses⟩ := exists_usesFirst_of_replay h
    obtain ⟨ty, rfl⟩ := exists_typed_of_typedByName hname
    exact ⟨count, Takes.total_typedWithin htakes hbelow, huses⟩

/-- Draws for three levels, with one more that is not used: nine make an ill-typed conditional, and
eight one that is a number, whatever comes behind them. -/
theorem draws_used_by_nodes_three_levels :
    (term defaultLeafChance 3).replay [1 / 2, 0, 1 / 10, 1, 1 / 2, 3, 0, 0, 2, 7] =
        some (.ite .fls (.isZero .tru) .zero, [7]) ∧
      UsesFirst (term defaultLeafChance 3) [1 / 2, 0, 1 / 10, 1, 1 / 2, 3, 0, 0, 2, 7]
        (.ite .fls (.isZero .tru) .zero) 9 ∧
      typedByName defaultLeafChance (some (.known .nat)) 3 = .ok (typed defaultLeafChance .nat 3) ∧
      (typed defaultLeafChance .nat 3).replay
          [1 / 2, 1 / 10, 1 / 2, 1 / 2, 1 / 2, 1 / 2, 4, 1 / 10, 7] =
        some (.ite (.isZero .zero) (.succ .zero) .zero, [7]) ∧
      UsesFirst (typed defaultLeafChance .nat 3)
        [1 / 2, 1 / 10, 1 / 2, 1 / 2, 1 / 2, 1 / 2, 4, 1 / 10, 7]
        (.ite (.isZero .zero) (.succ .zero) .zero) 8 := by
  have huntyped : (term defaultLeafChance 3).replay
      [1 / 2, 0, 1 / 10, 1, 1 / 2, 3, 0, 0, 2, 7] =
        some (.ite .fls (.isZero .tru) .zero, [7]) := by decide +kernel
  have htyped : (typed defaultLeafChance .nat 3).replay
      [1 / 2, 1 / 10, 1 / 2, 1 / 2, 1 / 2, 1 / 2, 4, 1 / 10, 7] =
        some (.ite (.isZero .zero) (.succ .zero) .zero, [7]) := by decide +kernel
  refine ⟨huntyped, ?_, rfl, htyped, ?_⟩
  · obtain ⟨count, hcount, huses⟩ := (draws_used_by_nodes defaultLeafChance 3 _ _ _).1 huntyped
    cases hcount
    exact huses
  · obtain ⟨count, hcount, huses⟩ :=
      (draws_used_by_nodes defaultLeafChance 3 _ _ _).2 (some (.known .nat)) _ rfl htyped
    cases hcount
    exact huses

end Gen

end BoolNat
