import OptionHost.Fault

/-!
# Places in a YAML text

A cursor is the rest of a text with its place. Line ends are line feeds here; the other line
breaks that YAML knows keep their own characters.
-/

namespace OptionHost.Yaml

/-- Why a document cannot be read: it is malformed, or one of its scalars is impossible. -/
inductive Trouble where
  | malformed
  | fault (f : Fault)
  deriving Inhabited

abbrev Reading (α : Type) := Except Trouble α

def malformed {α : Type} : Reading α := .error .malformed

def isBreak (c : Char) : Bool :=
  c == '\n' || c == '\x85' || c == '\u2028' || c == '\u2029'

def isGap (c : Char) : Bool := c == ' ' || c == '\t' || isBreak c

/-- Whether a text ends here or goes on with a gap. -/
def atGap : List Char → Bool
  | [] => true
  | c :: _ => isGap c

def atLineEnd : List Char → Bool
  | [] => true
  | c :: _ => isBreak c

/-- Whether a line ends here or goes on with a blank. -/
def atBlank : List Char → Bool
  | [] => true
  | c :: _ => c == ' ' || isBreak c

/-- The characters of names of anchors, handles and directives. -/
def isNameChar (c : Char) : Bool := c.isAlphanum || c == '-' || c == '_'

structure Cursor where
  rest : List Char
  index : Nat
  line : Nat
  column : Nat
  deriving Inhabited

namespace Cursor

def ofText (text : List Char) : Cursor := ⟨text, 0, 0, 0⟩

/-- The place behind the next character. A byte order mark takes no column. -/
def next (c : Cursor) : Cursor :=
  match c.rest with
  | [] => c
  | ch :: rest =>
    if isBreak ch then ⟨rest, c.index + 1, c.line + 1, 0⟩
    else if ch == '\ufeff' then ⟨rest, c.index + 1, c.line, c.column⟩
    else ⟨rest, c.index + 1, c.line, c.column + 1⟩

def skip : Nat → Cursor → Cursor
  | 0, c => c
  | n + 1, c => skip n c.next

def peek (c : Cursor) : Option Char := c.rest.head?

def takeWhile (p : Char → Bool) (c : Cursor) : List Char × Cursor :=
  let taken := c.rest.takeWhile p
  (taken, c.skip taken.length)

def skipWhile (p : Char → Bool) (c : Cursor) : Cursor := (c.takeWhile p).2

def skipBlanks (c : Cursor) : Cursor := c.skipWhile (· == ' ')

/-- A comment up to the end of its line, if one begins here. -/
def skipComment (c : Cursor) : Cursor :=
  if c.peek == some '#' then c.skipWhile (!isBreak ·) else c

/-- The line break here: a line feed, unless it is a separator that keeps its own character. -/
def lineBreak? (c : Cursor) : Option (Char × Cursor) :=
  match c.rest with
  | [] => none
  | ch :: _ =>
    if isBreak ch then
      some (if ch == '\u2028' || ch == '\u2029' then ch else '\n', c.next)
    else none

def skipBreak (c : Cursor) : Cursor := (c.lineBreak?.map Prod.snd).getD c

end Cursor

/-- Whether three characters stand here alone. -/
def isMark (mark : List Char) (rest : List Char) : Bool :=
  mark.isPrefixOf rest && atGap (rest.drop 3)

/-- Whether a document begins or ends here, whatever the column. -/
def isDocumentMark (rest : List Char) : Bool :=
  isMark ['-', '-', '-'] rest || isMark ['.', '.', '.'] rest

end OptionHost.Yaml
