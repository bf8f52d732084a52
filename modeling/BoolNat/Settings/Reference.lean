import BoolNat.Settings.Dotenv
set_option autoImplicit false

/-! # References between variables

In a value of a file of variables a name between braces, with a dollar sign in front, stands for
the value of that name.  Behind the name and the two characters `:-` a text may be given that is to
be taken if nothing has the name.  A name refers to the entries of the file that stand before, the
latest of them, and then to the environment; a name without a value stands for the empty text.
-/

namespace BoolNat.Dotenv

/-- A piece of a value: a character, or a name to be looked up. -/
inductive Piece where
  | char (c : Char)
  | reference (name fallback : List Char)
  deriving DecidableEq, Repr, Inhabited

/-- The reference a text begins with, and how many characters it takes. -/
def reference? : List Char → Option (Piece × Nat)
  | '$' :: '\x7b' :: cs =>
    let name := cs.takeWhile fun c => c ≠ '\x7d' && c ≠ ':'
    match cs.drop name.length with
    | '\x7d' :: _ => some (.reference name [], name.length + 3)
    | ':' :: '-' :: cs =>
      let fallback := cs.takeWhile (· ≠ '\x7d')
      if fallback.length < cs.length then
        some (.reference name fallback, name.length + fallback.length + 5)
      else none
    | _ => none
  | _ => none

/-- The pieces of a value behind its next `skip` characters. -/
def piecesFrom : (skip : Nat) → List Char → List Piece
  | _, [] => []
  | skip + 1, _ :: rest => piecesFrom skip rest
  | 0, c :: rest =>
    match reference? (c :: rest) with
    | some (piece, length) => piece :: piecesFrom (length - 1) rest
    | none => .char c :: piecesFrom 0 rest

def pieces (value : String) : List Piece := piecesFrom 0 value.toList

def references (value : String) : List String :=
  (pieces value).filterMap fun
    | .char _ => none
    | .reference name _ => some (String.ofList name)

/-- What a piece stands for, where `lookup` has the values of names. -/
def Piece.expand (lookup : String → Option (Option String)) : Piece → List Char
  | .char c => [c]
  | .reference name fallback =>
    match lookup (String.ofList name) with
    | some (some value) => value.toList
    | some none => []
    | none => fallback

def expand (lookup : String → Option (Option String)) (value : String) : String :=
  String.ofList ((pieces value).flatMap (Piece.expand lookup))

/-- The value of a name: the latest binding, or else what the environment has. -/
def lookup (environment : List (String × String)) (latestFirst : List Binding) (name : String) :
    Option (Option String) :=
  (latestFirst.lookup name).or ((environment.reverse.lookup name).map some)

/-- Bindings with the values expanded, behind others. -/
def expandAll (environment : List (String × String)) (latestFirst : List Binding) :
    List Binding → List Binding
  | [] => []
  | (name, value) :: rest =>
    let binding := (name, value.map (expand (lookup environment latestFirst)))
    binding :: expandAll environment (binding :: latestFirst) rest

/-- What a file binds, with the values expanded. -/
def read (environment : List (String × String)) (file : Option String) : List Binding :=
  expandAll environment [] (bindings file)

end BoolNat.Dotenv
