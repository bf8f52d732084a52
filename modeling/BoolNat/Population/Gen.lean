set_option autoImplicit false

/-! # Generators

A generator is a description of a random choice: a value, or a request for a draw
with what to do for each answer.  There are two requests, for a number of the unit
interval and for an index below a bound.  Who answers them is left open: a list of
recorded draws (`Gen.replay`), a random stream, or anybody (`Gen.Returns`, which
collects every value that some answers lead to).
-/

namespace BoolNat

/-- A choice that depends on draws. -/
inductive Gen (α : Type) where
  | pure (a : α)
  /-- ask for a number of the unit interval -/
  | unit (next : Rat → Gen α)
  /-- ask for an index below `bound + 1` -/
  | index (bound : Nat) (next : Fin (bound + 1) → Gen α)

namespace Gen

variable {α β : Type}

/-- Use the value of one generator in the next. -/
def bind : Gen α → (α → Gen β) → Gen β
  | .pure a, f => f a
  | .unit next, f => .unit fun x => (next x).bind f
  | .index bound next, f => .index bound fun i => (next i).bind f

instance : Monad Gen where
  pure := .pure
  bind := bind

def number : Gen Rat := .unit .pure

/-- Draw one of the elements `first :: rest`. -/
def oneOf (first : α) (rest : List α) : Gen α :=
  .index rest.length fun i => .pure ((first :: rest)[i])

/-- The value `a` is what the generator gives for some answers to its requests, a
number of the unit interval being at least 0 and less than 1. -/
inductive Returns : Gen α → α → Prop
  | pure (a : α) : Returns (.pure a) a
  | unit {next : Rat → Gen α} {a : α} (x : Rat) (nonneg : 0 ≤ x) (lt_one : x < 1)
      (rest : Returns (next x) a) : Returns (.unit next) a
  | index {bound : Nat} {next : Fin (bound + 1) → Gen α} {a : α} (i : Fin (bound + 1))
      (rest : Returns (next i) a) : Returns (.index bound next) a

@[simp] theorem returns_pure {a b : α} : Returns (.pure a) b ↔ b = a :=
  ⟨fun h => by cases h; rfl, fun h => h ▸ .pure a⟩

/-- What two generators in a row may give. -/
theorem returns_bind {g : Gen α} {f : α → Gen β} {b : β} :
    Returns (g.bind f) b ↔ ∃ a, Returns g a ∧ Returns (f a) b := by
  induction g with
  | pure a => simp [bind]
  | unit next ih =>
    constructor
    · intro h
      cases h with
      | unit x h0 h1 rest =>
        obtain ⟨a, ha, hb⟩ := (ih x).1 rest
        exact ⟨a, .unit x h0 h1 ha, hb⟩
    · rintro ⟨a, ha, hb⟩
      cases ha with
      | unit x h0 h1 rest => exact .unit x h0 h1 ((ih x).2 ⟨a, rest, hb⟩)
  | index bound next ih =>
    constructor
    · intro h
      cases h with
      | index i rest =>
        obtain ⟨a, ha, hb⟩ := (ih i).1 rest
        exact ⟨a, .index i ha, hb⟩
    · rintro ⟨a, ha, hb⟩
      cases ha with
      | index i rest => exact .index i ((ih i).2 ⟨a, rest, hb⟩)

/-- Drawing one of some elements may give any of them. -/
theorem returns_oneOf {first b : α} {rest : List α} :
    Returns (oneOf first rest) b ↔ b ∈ first :: rest := by
  constructor
  · intro h
    cases h with
    | index i h =>
      cases h
      exact List.getElem_mem _
  · intro h
    obtain ⟨i, hi, rfl⟩ := List.getElem_of_mem h
    exact .index ⟨i, hi⟩ (.pure _)

end Gen

end BoolNat
