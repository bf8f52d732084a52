import BoolNat.Text.Blank
set_option autoImplicit false

/-! # Files of variables

A file of variables has one `NAME=value` to a line.  The word `export` may stand
before the name, the name may stand in single quotes and the value in single or
double quotes; blank lines, lines that begin with `#`, and a `#` after a blank are
comments.  A name may also stand alone, without a value.  A quoted value may run over
several lines, and knows escapes.  Where the text is none of this, the rest of the line
is skipped.

Reading goes from the front of the text, entry by entry; every entry takes at least
one character, so the length of the text bounds their number.
-/

namespace BoolNat.Dotenv

/-- A name, with its value if it has one. -/
abbrev Binding := String × Option String

def isLineEnd (c : Char) : Bool := c = '\n' || c = '\r'

def isInlineBlank (c : Char) : Bool := Text.isBlank c && !isLineEnd c

def dropExport (cs : List Char) : List Char :=
  match "export".toList.isPrefixOf? cs with
  | some (c :: rest) => if isInlineBlank c then rest.dropWhile isInlineBlank else cs
  | _ => cs

/-- A character that a name may have without quotes. -/
def isNameChar (c : Char) : Bool := !(c = '=' || c = '#' || Text.isBlank c)

def readName (cs : List Char) : Option (List Char × List Char) :=
  match cs with
  | '\'' :: rest =>
    let name := rest.takeWhile (· ≠ '\'')
    match rest.drop name.length with
    | _ :: after => if name.isEmpty then none else some (name, after)
    | [] => none
  | _ =>
    let name := cs.takeWhile isNameChar
    if name.isEmpty then none else some (name, cs.drop name.length)

/-- Read up to the first quote that is not hidden by a backslash before it, or up to the
last one if all of them are hidden. -/
def readQuoted (quote : Char) : (hidden : Bool) → List Char → Option (List Char × List Char)
  | _, [] => none
  | hidden, c :: rest =>
    if c = quote then
      if hidden then
        ((readQuoted quote false rest).map fun r => (c :: r.1, r.2)).or (some ([], rest))
      else some ([], rest)
    else (readQuoted quote (c = '\\') rest).map fun r => (c :: r.1, r.2)

def doubleEscape? : Char → Option Char
  | '\\' => some '\\'
  | '\'' => some '\''
  | '"' => some '"'
  | 'a' => some '\x07'
  | 'b' => some '\x08'
  | 'f' => some '\x0c'
  | 'n' => some '\n'
  | 'r' => some '\r'
  | 't' => some '\t'
  | 'v' => some '\x0b'
  | _ => none

def singleEscape? : Char → Option Char
  | '\\' => some '\\'
  | '\'' => some '\''
  | _ => none

/-- Replace escapes by what they stand for; other backslashes stay. -/
def unescape (escape? : Char → Option Char) : List Char → List Char
  | [] => []
  | '\\' :: c :: rest =>
    match escape? c with
    | some d => d :: unescape escape? rest
    | none => '\\' :: unescape escape? (c :: rest)
  | c :: rest => c :: unescape escape? rest
termination_by cs => cs.length

/-- Cut a comment off an unquoted value: it begins with a `#` after a blank. -/
def cutComment : List Char → List Char
  | [] => []
  | c :: rest =>
    if Text.isBlank c && (rest.dropWhile Text.isBlank).head? = some '#' then []
    else c :: cutComment rest

def readValue (cs : List Char) : Option (List Char × List Char) :=
  match cs with
  | '\'' :: rest =>
    (readQuoted '\'' false rest).map fun r => (unescape singleEscape? r.1, r.2)
  | '"' :: rest =>
    (readQuoted '"' false rest).map fun r => (unescape doubleEscape? r.1, r.2)
  | _ =>
    let line := cs.takeWhile (!isLineEnd ·)
    some (Text.trimRight Text.isBlank (cutComment line), cs.drop line.length)

/-- Drop a comment and the end of the line; nothing else may stand there. -/
def endEntry (cs : List Char) : Option (List Char) :=
  let cs := cs.dropWhile isInlineBlank
  let cs := match cs with
    | '#' :: rest => rest.dropWhile (!isLineEnd ·)
    | _ => cs
  match cs with
  | [] => some []
  | c :: rest => if isLineEnd c then some rest else none

def skipLine (cs : List Char) : List Char := (cs.dropWhile (!isLineEnd ·)).drop 1

/-- What has been read counts if it stands at the end of its line. -/
def finish (read : Option Binding) (cs : List Char) : Option Binding × List Char :=
  match endEntry cs with
  | some rest => (read, rest)
  | none => (none, skipLine cs)

/-- Read what stands behind a name: what the name is bound to, and what follows. -/
def readBinding (name : List Char) (cs : List Char) : Option Binding × List Char :=
  match cs.dropWhile isInlineBlank with
  | '=' :: after =>
    match readValue (after.dropWhile isInlineBlank) with
    | none => (none, skipLine (after.dropWhile isInlineBlank))
    | some (value, after) =>
      finish (some (String.ofList name, some (String.ofList value))) after
  | after => finish (some (String.ofList name, none)) after

/-- Read one entry: what it binds, if it binds anything, and what follows it. -/
def readEntry (cs : List Char) : Option Binding × List Char :=
  let cs := dropExport cs
  if cs.head? = some '#' then finish none cs
  else
    match readName cs with
    | none => (none, skipLine cs)
    | some (name, after) => readBinding name after

def readEntries : (entries : Nat) → List Char → List Binding
  | 0, _ => []
  | entries + 1, cs =>
    match cs.dropWhile Text.isBlank with
    | [] => []
    | c :: rest =>
      (readEntry (c :: rest)).1.toList ++ readEntries entries (readEntry (c :: rest)).2

/-- What a text binds, in the order in which it stands there. -/
def scan (text : List Char) : List Binding := readEntries (text.length + 1) text

/-- What a file binds; where there is none it is nothing. -/
def bindings : Option String → List Binding
  | some text => scan text.toList
  | none => []

end BoolNat.Dotenv
