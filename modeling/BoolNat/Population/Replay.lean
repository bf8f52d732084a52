import BoolNat.Population.Gen
set_option autoImplicit false

/-! # Recorded draws

A generator can be run on a list of recorded draws, which answer its requests from
left to right.  A request for a number takes the draw as it is; a request for an
index drops the fraction of the draw and reduces what is left modulo the bound.
-/

namespace BoolNat.Gen

variable {α : Type}

/-- The index below `bound + 1` that a draw stands for. -/
def indexOf (bound : Nat) (draw : Rat) : Fin (bound + 1) :=
  Fin.ofNat (bound + 1) ((draw.num.tdiv draw.den) % (bound + 1 : Nat)).toNat

/-- Run a generator on recorded draws: its value and the draws that are left, or nothing
if the draws run out. -/
def replay : Gen α → List Rat → Option (α × List Rat)
  | .pure a, draws => some (a, draws)
  | .unit _, [] => none
  | .unit next, draw :: draws => (next draw).replay draws
  | .index _ _, [] => none
  | .index bound next, draw :: draws => (next (indexOf bound draw)).replay draws

/-- How many draws a run has used: all of them if they ran out. -/
def drawsUsed (g : Gen α) (draws : List Rat) : Nat :=
  match g.replay draws with
  | some (_, left) => draws.length - left.length
  | none => draws.length

def exhaustedMessage : String := "no draws left"

end BoolNat.Gen
