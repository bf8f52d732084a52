import BoolNat.Term
set_option autoImplicit false

/-! # Values and numerals

The values of the calculus are the two truth values and the numerals
`succ (… (succ 0))`.  `Term.numeral` and `Term.toNat?` go between numerals and
numbers; both are loops, since a numeral is as deep as its number.
-/

namespace BoolNat

/-- A numeral was asked for a number below zero. -/
structure NotNatural where
  given : Int
  deriving DecidableEq, Repr, Inhabited

def NotNatural.message (e : NotNatural) : String :=
  "Numerals are natural numbers, got " ++ toString e.given

namespace Term

def isBoolean : Term → Bool
  | .tru | .fls => true
  | _ => false

/-- A numeral: a run of successors over zero. -/
def isNumeric : Term → Bool
  | .zero => true
  | .succ t => t.isNumeric
  | _ => false

/-- A truth value or a numeral. -/
def isValue (t : Term) : Bool := t.isBoolean || t.isNumeric

theorem isValue_of_isNumeric {t : Term} (h : t.isNumeric = true) : t.isValue = true := by
  simp [isValue, h]

def numeral (n : Nat) : Term := n.repeat .succ .zero

/-- The numeral of an integer, which has one if it is not negative. -/
def ofInt (n : Int) : Except NotNatural Term :=
  if n < 0 then .error ⟨n⟩ else .ok (numeral n.toNat)

/-- The number of a numeral below which `passed` successors were already counted. -/
def countSucc (passed : Nat) : Term → Option Nat
  | .zero => some passed
  | .succ t => countSucc (passed + 1) t
  | _ => none

/-- The number a numeral stands for; any other term stands for none. -/
def toNat? (t : Term) : Option Nat := countSucc 0 t

@[simp] theorem numeral_zero : numeral 0 = .zero := rfl

@[simp] theorem numeral_succ (n : Nat) : numeral (n + 1) = .succ (numeral n) := rfl

theorem isNumeric_numeral (n : Nat) : (numeral n).isNumeric = true := by
  induction n with
  | zero => rfl
  | succ n ih => simpa [isNumeric] using ih

theorem isProper_numeral (n : Nat) : (numeral n).isProper = true := by
  induction n with
  | zero => rfl
  | succ n ih => exact ih

theorem countSucc_numeral (passed n : Nat) : countSucc passed (numeral n) = some (passed + n) := by
  induction n generalizing passed with
  | zero => rfl
  | succ n ih => simp only [numeral_succ, countSucc, ih]; congr 1; omega

/-- Reading a numeral back gives its number. -/
@[simp] theorem toNat?_numeral (n : Nat) : toNat? (numeral n) = some n := by
  simp [toNat?, countSucc_numeral]

theorem exists_numeral_of_countSucc {passed n : Nat} {t : Term}
    (h : countSucc passed t = some n) : ∃ k, t = numeral k := by
  induction t generalizing passed with
  | zero => exact ⟨0, rfl⟩
  | succ t ih =>
    obtain ⟨k, rfl⟩ := ih h
    exact ⟨k + 1, rfl⟩
  | _ => cases h

/-- Only the numeral of a number is read back as the number. -/
theorem toNat?_eq_some_iff {t : Term} {n : Nat} : t.toNat? = some n ↔ t = numeral n := by
  constructor
  · intro h
    obtain ⟨k, rfl⟩ := exists_numeral_of_countSucc h
    rw [toNat?_numeral] at h
    rw [Option.some.inj h]
  · rintro rfl
    exact toNat?_numeral n

theorem ofInt_natCast (n : Nat) : ofInt n = .ok (numeral n) := by
  rw [ofInt, if_neg (by omega), Int.toNat_natCast]

end Term

end BoolNat
