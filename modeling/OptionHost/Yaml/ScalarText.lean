import OptionHost.Json.Reader
import OptionHost.Yaml.Cursor

/-!
# The text of scalars

The three ways to write a scalar: plain, between quotes, and as an indented block. Lines of a
plain or quoted scalar are folded: one line break becomes a blank, and of several the first is
dropped.
-/

namespace OptionHost.Yaml

/-- The joint between two lines: the first break with the breaks that follow it. -/
def folded (first : Char) (others : List Char) : List Char :=
  (if first != '\n' then [first] else if others.isEmpty then [' '] else []) ++ others

/-! ## Plain scalars -/

/-- The characters that end a plain scalar within brackets. -/
def isFlowEnd (c : Char) : Bool :=
  c == ',' || c == '?' || c == '[' || c == ']' || c == '\x7b' || c == '\x7d'

/-- The characters that make a colon an indicator within brackets. -/
def isFlowIndicator (c : Char) : Bool := c != '?' && isFlowEnd c

/-- How many characters of a line belong to a plain scalar, up to the next gap. -/
def plainLength (inFlow : Bool) : List Char → Nat
  | [] => 0
  | c :: rest =>
    if isGap c then 0
    else if c == ':' && (atGap rest || (inFlow && rest.head?.any isFlowIndicator)) then 0
    else if inFlow && isFlowEnd c then 0
    else plainLength inFlow rest + 1

/-- The breaks and blanks after the first break in a plain scalar; nothing where a document
begins or ends. -/
def plainBreaks : (fuel : Nat) → (sofar : List Char) → Cursor → Option (List Char) × Cursor
  | 0, sofar, c => (some sofar, c)
  | fuel + 1, sofar, c =>
    match c.lineBreak? with
    | some (b, c) =>
      if isDocumentMark c.rest then (none, c) else plainBreaks fuel (sofar ++ [b]) c
    | none => if c.peek == some ' ' then plainBreaks fuel sofar c.next else (some sofar, c)

structure PlainGap where
  joint : List Char
  cursor : Cursor
  crossesLine : Bool

def plainGap (c : Cursor) : PlainGap :=
  let (blanks, c) := c.takeWhile (· == ' ')
  match c.lineBreak? with
  | none => ⟨blanks, c, false⟩
  | some (first, c) =>
    if isDocumentMark c.rest then ⟨[], c, true⟩
    else
      match plainBreaks (c.rest.length + 1) [] c with
      | (none, c) => ⟨[], c, true⟩
      | (some others, c) => ⟨folded first others, c, true⟩

/-- A plain scalar: its text, the place behind it, and whether it ended on a line of its own.
`indent` is the least column of its further lines. -/
def plainFrom (inFlow : Bool) (indent : Int) :
    (fuel : Nat) → (sofar joint : List Char) → (fresh : Bool) → Cursor →
      List Char × Cursor × Bool
  | 0, sofar, _, fresh, c => (sofar, c, fresh)
  | fuel + 1, sofar, joint, fresh, c =>
    if c.peek == some '#' then (sofar, c, fresh)
    else
      match plainLength inFlow c.rest with
      | 0 => (sofar, c, fresh)
      | n =>
        let sofar := sofar ++ joint ++ c.rest.take n
        let gap := plainGap (c.skip n)
        let c := gap.cursor
        if gap.joint.isEmpty || c.peek == some '#' || (!inFlow && (c.column : Int) < indent) then
          (sofar, c, gap.crossesLine)
        else plainFrom inFlow indent fuel sofar gap.joint gap.crossesLine c

def plain (inFlow : Bool) (indent : Int) (c : Cursor) : List Char × Cursor × Bool :=
  plainFrom inFlow indent (c.rest.length + 1) [] [] false c

/-! ## Quoted scalars -/

/-- Line breaks in a quoted scalar, blanks and tabs beside them dropped. -/
def quotedBreaks : (fuel : Nat) → (sofar : List Char) → Cursor → Reading (List Char × Cursor)
  | 0, sofar, c => .ok (sofar, c)
  | fuel + 1, sofar, c =>
    if isDocumentMark c.rest then malformed
    else
      let c := c.skipWhile fun ch => ch == ' ' || ch == '\t'
      match c.lineBreak? with
      | some (b, c) => quotedBreaks fuel (sofar ++ [b]) c
      | none => .ok (sofar, c)

/-- The character that a letter behind a backslash stands for. -/
def escaped? : Char → Option Char
  | '0' => some '\x00'
  | 'a' => some '\x07'
  | 'b' => some '\x08'
  | 't' => some '\t'
  | '\t' => some '\t'
  | 'n' => some '\n'
  | 'v' => some '\x0b'
  | 'f' => some '\x0c'
  | 'r' => some '\r'
  | 'e' => some '\x1b'
  | ' ' => some ' '
  | '\x22' => some '\x22'
  | '\\' => some '\\'
  | '/' => some '/'
  | 'N' => some '\x85'
  | '_' => some '\xa0'
  | 'L' => some '\u2028'
  | 'P' => some '\u2029'
  | _ => none

/-- The number of hexadecimal digits behind a letter that announces a code point. -/
def codeWidth? : Char → Option Nat
  | 'x' => some 2
  | 'u' => some 4
  | 'U' => some 8
  | _ => none

def codePoint (width : Nat) (c : Cursor) : Reading (Char × Cursor) :=
  match (c.rest.take width).mapM Text.hexValue? with
  | none => malformed
  | some digits =>
    if digits.length < width then malformed
    else
      let n := Text.digitsValue 16 digits
      if 0x80000000 ≤ n then
        .error (.fault (.foreign "OverflowError" "Python int too large to convert to C int"))
      else if 0x110000 ≤ n then
        .error (.fault (.wrongValue (.stated "chr() arg not in range(0x110000)")))
      else .ok (Json.codePoint n, c.skip width)

/-- What an escape stands for; the cursor is behind the backslash. -/
def escape (c : Cursor) : Reading (List Char × Cursor) :=
  match c.peek with
  | none => malformed
  | some ch =>
    match escaped? ch, codeWidth? ch with
    | some x, _ => .ok ([x], c.next)
    | _, some width => do
      let (x, c) ← codePoint width c.next
      return ([x], c)
    | _, _ => if isBreak ch then quotedBreaks (c.rest.length + 1) [] c.skipBreak else malformed

def quotedFrom (double : Bool) : (fuel : Nat) → (sofar : List Char) → Cursor →
    Reading (List Char × Cursor)
  | 0, _, _ => malformed
  | fuel + 1, sofar, c =>
    match c.rest with
    | [] => malformed
    | ch :: rest =>
      if double && ch == '\x22' then .ok (sofar, c.next)
      else if !double && ch == '\x27' then
        if rest.head? == some '\x27' then quotedFrom double fuel (sofar ++ [ch]) (c.skip 2)
        else .ok (sofar, c.next)
      else if double && ch == '\\' then do
        let (text, c) ← escape c.next
        quotedFrom double fuel (sofar ++ text) c
      else if isGap ch then do
        let (blanks, c) := c.takeWhile fun ch => ch == ' ' || ch == '\t'
        match c.lineBreak? with
        | none => quotedFrom double fuel (sofar ++ blanks) c
        | some (first, c) =>
          let (others, c) ← quotedBreaks (c.rest.length + 1) [] c
          quotedFrom double fuel (sofar ++ folded first others) c
      else quotedFrom double fuel (sofar ++ [ch]) c.next

/-- A quoted scalar, the cursor being at its opening quote. -/
def quoted (c : Cursor) : Reading (List Char × Cursor) :=
  quotedFrom (c.peek == some '\x22') (c.rest.length + 1) [] c.next

/-! ## Block scalars -/

/-- What is kept of the line breaks at the end of a block: one, none or all. -/
inductive Chomping where
  | clip
  | strip
  | keep
  deriving DecidableEq, Repr, Inhabited

def chomping? : Option Char → Option Chomping
  | some '+' => some .keep
  | some '-' => some .strip
  | _ => none

/-- The digit of an indentation indicator; zero is none. -/
def increment (c : Cursor) : Reading (Option Nat × Cursor) :=
  match c.peek with
  | some d =>
    if d.isDigit then
      if d == '0' then malformed else .ok (some (d.toNat - 48), c.next)
    else .ok (none, c)
  | none => .ok (none, c)

/-- The header of a block: chomping and indentation in either order, and the rest of the line. -/
def blockHeader (c : Cursor) : Reading (Chomping × Option Nat × Cursor) := do
  let (chomping, n, c) ←
    match chomping? c.peek with
    | some chomping => do
      let (n, c) ← increment c.next
      pure (chomping, n, c)
    | none => do
      let (n, c) ← increment c
      match n, chomping? c.peek with
      | some n, some chomping => pure (chomping, some n, c.next)
      | n, _ => pure (.clip, n, c)
  if !atBlank c.rest then malformed
  else
    let c := c.skipBlanks.skipComment
    if atLineEnd c.rest then return (chomping, n, c.skipBreak) else malformed

/-- The empty lines at the head of a block: their breaks, and the widest run of blanks. -/
def blockIndentation : (fuel : Nat) → (breaks : List Char) → (widest : Nat) → Cursor →
    List Char × Nat × Cursor
  | 0, breaks, widest, c => (breaks, widest, c)
  | fuel + 1, breaks, widest, c =>
    match c.lineBreak? with
    | some (b, c) => blockIndentation fuel (breaks ++ [b]) widest c
    | none =>
      if c.peek == some ' ' then
        blockIndentation fuel breaks (max widest c.next.column) c.next
      else (breaks, widest, c)

def skipIndent (indent : Nat) : (fuel : Nat) → Cursor → Cursor
  | 0, c => c
  | fuel + 1, c =>
    if c.column < indent && c.peek == some ' ' then skipIndent indent fuel c.next else c

/-- The empty lines before a line of a block. -/
def blockBreaks (indent : Nat) : (fuel : Nat) → (breaks : List Char) → Cursor →
    List Char × Cursor
  | 0, breaks, c => (breaks, c)
  | fuel + 1, breaks, c =>
    let c := skipIndent indent (indent + 1) c
    match c.lineBreak? with
    | some (b, c) => blockBreaks indent fuel (breaks ++ [b]) c
    | none => (breaks, c)

/-- Whether the next character is a blank or a tab. -/
def startsSpaced (c : Cursor) : Bool := c.peek == some ' ' || c.peek == some '\t'

/-- A block behind its header: its text, the last line break, and the empty lines at the end. -/
structure BlockText where
  text : List Char
  lastBreak : List Char
  trailing : List Char
  cursor : Cursor

/-- The lines of a block. Where lines are folded, a single break between two lines that do not
begin with a blank is one blank. -/
def blockLines (fold : Bool) (indent : Nat) : (fuel : Nat) → BlockText → BlockText
  | 0, b => b
  | fuel + 1, b =>
    let c := b.cursor
    if c.column == indent && !c.rest.isEmpty then
      let (line, after) := c.takeWhile (!isBreak ·)
      let (lastBreak, after) :=
        match after.lineBreak? with
        | some (x, after) => ([x], after)
        | none => ([], after)
      let (breaks, after) := blockBreaks indent (after.rest.length + 1) [] after
      let text := b.text ++ b.trailing ++ line
      if after.column == indent && !after.rest.isEmpty then
        let joint :=
          if fold && lastBreak == ['\n'] && !startsSpaced c && !startsSpaced after then
            if breaks.isEmpty then [' '] else []
          else lastBreak
        blockLines fold indent fuel ⟨text ++ joint, lastBreak, breaks, after⟩
      else ⟨text, lastBreak, breaks, after⟩
    else b

/-- A block scalar behind its indicator. `parent` is the column of the surrounding block. -/
def block (fold : Bool) (parent : Int) (c : Cursor) : Reading (List Char × Cursor) := do
  let (chomping, n, c) ← blockHeader c
  let least := (max (parent + 1) 1).toNat
  let (indent, breaks, c) :=
    match n with
    | some n =>
      let indent := least + n - 1
      let (breaks, c) := blockBreaks indent (c.rest.length + 1) [] c
      (indent, breaks, c)
    | none =>
      let (breaks, widest, c) := blockIndentation (c.rest.length + 1) [] 0 c
      (max least widest, breaks, c)
  let b := blockLines fold indent (c.rest.length + 1) ⟨[], [], breaks, c⟩
  let ending :=
    match chomping with
    | .strip => []
    | .clip => b.lastBreak
    | .keep => b.lastBreak ++ b.trailing
  return (b.text ++ ending, b.cursor)

end OptionHost.Yaml
