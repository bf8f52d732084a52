import BoolNat.Population.Gen
set_option autoImplicit false

/-! # A seeded random stream

The Mersenne twister on 32-bit words, and how its words answer the requests of a
generator.  The state is a block of 624 words and the position of the next one in
it; when the block is used up, the next block is computed from it.

A number of the unit interval is made from 53 bits of two words; an index is drawn
from the top bits of a word, over and over until it is below its bound.
-/

namespace BoolNat

structure Twister where
  words : Array UInt32
  position : Nat
  deriving DecidableEq, Repr, Inhabited

namespace Twister

def blockSize : Nat := 624

/-- How far ahead the word lies that is mixed into a word. -/
def shiftSize : Nat := 397

def word (words : Array UInt32) (i : Nat) : UInt32 := words.getD i 0

/-! ## Seeding -/

/-- A block filled from one word. -/
def fill (seed : UInt32) : Array UInt32 :=
  (List.range (blockSize - 1)).foldl (fun (words : Array UInt32) i =>
    let last := word words i
    words.push ((last ^^^ (last >>> 30)) * 1812433253 + (i + 1).toUInt32)) #[seed]

/-- The next index at which a block is stirred.  Past the end it starts again from
the front, whose word becomes the last one. -/
def advance (words : Array UInt32) (i : Nat) : Array UInt32 × Nat :=
  if i + 1 ≥ blockSize then (words.setIfInBounds 0 (word words (blockSize - 1)), 1)
  else (words, i + 1)

/-- Stir the words of a key into a block, from index `i` and key position `j`. -/
def stirKey (key : Array UInt32) : Nat → Nat → Nat → Array UInt32 → Array UInt32 × Nat
  | 0, i, _, words => (words, i)
  | rounds + 1, i, j, words =>
    let last := word words (i - 1)
    let mixed := (word words i ^^^ ((last ^^^ (last >>> 30)) * 1664525)) + word key j + j.toUInt32
    let (words, i) := advance (words.setIfInBounds i mixed) i
    stirKey key rounds i (if j + 1 ≥ key.size then 0 else j + 1) words

def stir : Nat → Nat → Array UInt32 → Array UInt32
  | 0, _, words => words
  | rounds + 1, i, words =>
    let last := word words (i - 1)
    let mixed := (word words i ^^^ ((last ^^^ (last >>> 30)) * 1566083941)) - i.toUInt32
    let (words, i) := advance (words.setIfInBounds i mixed) i
    stir rounds i words

/-- The 32-bit words of a number, lowest first. -/
def wordsOf (n : Nat) : List UInt32 :=
  if n < 4294967296 then [n.toUInt32]
  else (n % 4294967296).toUInt32 :: wordsOf (n / 4294967296)
termination_by n
decreasing_by omega

/-- The stream of a seed; the sign of the seed makes no difference. -/
def ofSeed (seed : Int) : Twister :=
  let key := (wordsOf seed.natAbs).toArray
  let (words, i) := stirKey key (max blockSize key.size) 1 0 (fill 19650218)
  ⟨(stir (blockSize - 1) i words).setIfInBounds 0 0x80000000, blockSize⟩

/-! ## Words -/

/-- Replace the word at `i` by the one of the next block. -/
def refreshWord (words : Array UInt32) (i : Nat) : Array UInt32 :=
  let high := word words i &&& 0x80000000
  let low := word words ((i + 1) % blockSize) &&& 0x7fffffff
  let joined := high ||| low
  let mixed := word words ((i + shiftSize) % blockSize) ^^^ (joined >>> 1)
  words.setIfInBounds i (if joined &&& 1 = 0 then mixed else mixed ^^^ 0x9908b0df)

/-- The next block, computed in place from front to back. -/
def refresh (words : Array UInt32) : Array UInt32 :=
  (List.range blockSize).foldl refreshWord words

/-- Spread the bits of a word before it is given out. -/
def temper (y : UInt32) : UInt32 :=
  let y := y ^^^ (y >>> 11)
  let y := y ^^^ ((y <<< 7) &&& 0x9d2c5680)
  let y := y ^^^ ((y <<< 15) &&& 0xefc60000)
  y ^^^ (y >>> 18)

def next (s : Twister) : UInt32 × Twister :=
  if s.position < blockSize then
    (temper (word s.words s.position), { s with position := s.position + 1 })
  else
    let words := refresh s.words
    (temper (word words 0), ⟨words, 1⟩)

/-! ## Draws -/

/-- The next number of the unit interval: 53 bits, 27 of one word and 26 of the next. -/
def unit (s : Twister) : Rat × Twister :=
  let (a, s) := s.next
  let (b, s) := s.next
  let bits := (a >>> 5).toNat * 67108864 + (b >>> 6).toNat
  ((bits : Rat) / 9007199254740992, s)

/-- Draw the top `bits` bits of a word until they are below the bound, at most
`attempts` times. -/
def indexWithin (bound : Nat) (bits : UInt32) : Nat → Twister → Fin (bound + 1) × Twister
  | 0, s => (0, s)
  | attempts + 1, s =>
    let (w, s) := s.next
    let r := (w >>> (32 - bits)).toNat
    if h : r < bound + 1 then (⟨r, h⟩, s) else indexWithin bound bits attempts s

/-- How often an index is drawn before the search is given up.  Each draw is below
its bound with a chance of more than one half, so giving up is out of reach. -/
def maxAttempts : Nat := 100000

/-- The next index below `bound + 1`. -/
def index (bound : Nat) (s : Twister) : Fin (bound + 1) × Twister :=
  indexWithin bound (Nat.log2 (bound + 1) + 1).toUInt32 maxAttempts s

end Twister

/-- Run a generator on a random stream. -/
def Gen.sample {α : Type} : Gen α → Twister → α × Twister
  | .pure a, s => (a, s)
  | .unit next, s =>
    let (x, s) := s.unit
    (next x).sample s
  | .index bound next, s =>
    let (i, s) := s.index bound
    (next i).sample s

/-- Two generators in a row draw from the stream one after the other. -/
theorem Gen.sample_bind {α β : Type} (g : Gen α) (f : α → Gen β) (s : Twister) :
    (g.bind f).sample s = (f (g.sample s).1).sample (g.sample s).2 := by
  induction g generalizing s with
  | pure a => rfl
  | unit next ih => simp only [bind, sample]; exact ih ..
  | index bound next ih => simp only [bind, sample]; exact ih ..

end BoolNat
