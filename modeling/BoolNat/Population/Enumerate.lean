import BoolNat.Term
set_option autoImplicit false

/-! # Exhaustive populations

All terms of the calculus up to a size or up to a height, each once, in a fixed
order: constants, then operators, then conditionals, and inside each group by the
order of the parts.

By size, the terms are listed layer by layer.  A layer is put together from the
smaller ones: an operator over a term that is one smaller, or a conditional over
three terms whose sizes add up to one less.  The layers found so far are kept in a
table (`sizeTable`), whose entry `n` is the layer of size `n`.
-/

namespace BoolNat.Population

def constants : List Term := [.tru, .fls, .zero]

/-- Every operator over every one of the given terms. -/
def operations (terms : List Term) : List Term :=
  Operator.all.flatMap fun op => terms.map op.apply

/-- Every conditional with its parts from the given lists. -/
def conditionals (cs ts es : List Term) : List Term :=
  cs.flatMap fun c => ts.flatMap fun t => es.map fun e => .ite c t e

/-! ## By size -/

/-- The terms of size `n`, put together from the layers below. -/
def layer (below : Nat → List Term) : Nat → List Term
  | 0 => []
  | 1 => constants
  | n + 2 =>
    operations (below (n + 1)) ++
      (List.range' 1 n).flatMap fun c =>
        (List.range' 1 (n - c)).flatMap fun t =>
          conditionals (below c) (below t) (below (n + 1 - c - t))

/-- The layer of size `k` in a table of layers. -/
def layerIn (table : Array (List Term)) (k : Nat) : List Term := table.getD k []

/-- A table of layers with the next one added. -/
def extend (table : Array (List Term)) : Array (List Term) :=
  table.push (layer (layerIn table) table.size)

/-- The layers of the sizes from 0 to `n`. -/
def sizeTable : Nat → Array (List Term)
  | 0 => extend #[]
  | n + 1 => extend (sizeTable n)

/-- Every term of size `n`; there is none of a size below 1. -/
def ofSize (n : Int) : List Term := layerIn (sizeTable n.toNat) n.toNat

/-- Every term of size at most `n`, smallest first. -/
def upToSize (n : Int) : List Term := (sizeTable n.toNat).toList.flatten

/-- Search the next `layers` layers after those of the table, one after the other,
and stop at the first in which something is found. -/
def searchLayers {ε α : Type} (find : List Term → Except ε (Option α)) :
    Nat → Array (List Term) → Except ε (Option α)
  | 0, _ => .ok none
  | layers + 1, table =>
    let table := extend table
    match find (layerIn table (table.size - 1)) with
    | .error e => .error e
    | .ok (some a) => .ok (some a)
    | .ok none => searchLayers find layers table

/-- Search the terms of size at most `n`, smallest first, and list no more of them
than needed. -/
def searchUpToSize {ε α : Type} (n : Int) (find : List Term → Except ε (Option α)) :
    Except ε (Option α) :=
  searchLayers find n.toNat (sizeTable 0)

theorem size_sizeTable (n : Nat) : (sizeTable n).size = n + 1 := by
  induction n with
  | zero => simp [sizeTable, extend]
  | succ n ih => simp [sizeTable, extend, ih]

theorem layerIn_extend {table : Array (List Term)} {k : Nat} (h : k < table.size) :
    layerIn (extend table) k = layerIn table k := by
  simp [layerIn, extend, Array.getD_eq_getD_getElem?, Array.getElem?_push, Nat.ne_of_lt h]

theorem layerIn_sizeTable_add (k extra : Nat) :
    layerIn (sizeTable (k + extra)) k = layerIn (sizeTable k) k := by
  induction extra with
  | zero => rfl
  | succ extra ih =>
    have reached : k < (sizeTable (k + extra)).size := by rw [size_sizeTable]; omega
    exact (layerIn_extend reached).trans ih

/-- Every table that reaches up to a size has the terms of that size in its place. -/
theorem layerIn_sizeTable {k n : Nat} (h : k ≤ n) : layerIn (sizeTable n) k = ofSize k := by
  obtain ⟨extra, rfl⟩ := Nat.exists_eq_add_of_le h
  exact layerIn_sizeTable_add k extra

/-! ## By height -/

/-- Every term of height at most `d`. -/
def withinHeight : Nat → List Term
  | 0 => []
  | 1 => constants
  | d + 2 =>
    let smaller := withinHeight (d + 1)
    constants ++ operations smaller ++ conditionals smaller smaller smaller

/-- Every term of height at most `d`; there is none of a height below 1. -/
def upToDepth (d : Int) : List Term := withinHeight d.toNat

end BoolNat.Population
