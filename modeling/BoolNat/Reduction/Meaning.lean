import BoolNat.Term
set_option autoImplicit false

/-! # What terms mean

A term means a truth value or a number, computed from what its parts mean and without
taking any step.  The predecessor of zero is zero.  A conditional means what the branch
that its condition picks means, whatever the other branch is.  A term whose parts mean
things of the wrong kind means nothing, and neither does a foreign leaf.
-/

namespace BoolNat

/-- What a term may mean. -/
inductive Meaning where
  | bool (b : Bool)
  | nat (n : Nat)
  deriving DecidableEq, Repr, Inhabited

namespace Meaning

def toNat? : Meaning → Option Nat
  | .nat n => some n
  | .bool _ => none

def toBool? : Meaning → Option Bool
  | .bool b => some b
  | .nat _ => none

end Meaning

/-- What a term means, if anything. -/
def Term.meaning : Term → Option Meaning
  | .tru => some (.bool true)
  | .fls => some (.bool false)
  | .zero => some (.nat 0)
  | .succ t => (t.meaning.bind Meaning.toNat?).map fun n => .nat (n + 1)
  | .pred t => (t.meaning.bind Meaning.toNat?).map fun n => .nat (n - 1)
  | .isZero t => (t.meaning.bind Meaning.toNat?).map fun n => .bool (n = 0)
  | .ite c t e =>
    match c.meaning.bind Meaning.toBool? with
    | some true => t.meaning
    | some false => e.meaning
    | none => none
  | .foreign _ => none

end BoolNat
