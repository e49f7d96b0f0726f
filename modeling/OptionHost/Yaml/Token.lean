import OptionHost.Text.Utf8
import OptionHost.Yaml.ScalarText

/-!
# Tokens

A YAML text as a list of tokens. Indentation shows as tokens that open and close blocks. A key
of a mapping is known by the colon behind it, so every place where a key could begin is
remembered until its line is over; the slot of the token there says what has to stand before
it once the colon is found.
-/

namespace OptionHost.Yaml

inductive Token where
  | versionDirective (major : Nat)
  | tagDirective (handle start : String)
  | otherDirective
  | documentStart
  | documentEnd
  | streamEnd
  | sequenceStart
  | mappingStart
  | blockEnd
  | flowSequenceStart
  | flowSequenceEnd
  | flowMappingStart
  | flowMappingEnd
  | entry
  | comma
  | key
  | value
  | alias (name : String)
  | anchor (name : String)
  | tag (handle : Option String) (suffix : String)
  | scalar (text : String) (isPlain : Bool)
  | broken (t : Trouble)
  deriving Inhabited

/-- A token with what stands before it: the beginning of a block mapping, and the mark of a
key. -/
structure Slot where
  token : Token
  opensMapping : Bool
  isKey : Bool
  deriving Inhabited

def Slot.tokens (s : Slot) : List Token :=
  (if s.opensMapping then [.mappingStart] else []) ++ (if s.isKey then [.key] else []) ++
    [s.token]

/-- A place where a key might have begun: the slot of its first token, and whether the text is
malformed unless a colon follows. -/
structure Candidate where
  slot : Nat
  required : Bool
  index : Nat
  line : Nat
  column : Nat
  deriving Inhabited

structure Lexer where
  cursor : Cursor
  slots : Array Slot
  /-- The column of the innermost block, and those of the blocks around it. -/
  indent : Int
  outer : List Int
  flow : Nat
  allowsKey : Bool
  /-- The candidate of each level of brackets. -/
  candidates : List (Nat × Candidate)
  deriving Inhabited

namespace Lexer

def ofText (text : List Char) : Lexer :=
  ⟨.ofText text, #[], -1, [], 0, true, []⟩

abbrev Step := StateT Lexer (Except Trouble)

def fail {α : Type} : Step α := fun _ => malformed

def push (t : Token) : Step Unit :=
  modify fun l => { l with slots := l.slots.push ⟨t, false, false⟩ }

def setCursor (c : Cursor) : Step Unit := modify fun l => { l with cursor := c }

def allowKey (allowed : Bool) : Step Unit := modify fun l => { l with allowsKey := allowed }

/-- A token of some characters that all belong to it. -/
def pushOver (t : Token) (length : Nat) : Step Unit := do
  push t
  setCursor ((← get).cursor.skip length)

/-- Keys are on one line and at most this long. -/
def longestKey : Nat := 1024

def isStale (l : Lexer) (k : Candidate) : Bool :=
  k.line != l.cursor.line || longestKey < l.cursor.index - k.index

/-- Gives up the candidates that a colon can no longer follow. -/
def dropStale : Step Unit := do
  let l ← get
  if l.candidates.any fun e => l.isStale e.2 && e.2.required then fail
  modify fun l => { l with candidates := l.candidates.filter fun e => !l.isStale e.2 }

def dropCandidate : Step Unit := do
  let l ← get
  match l.candidates.lookup l.flow with
  | none => return
  | some k =>
    if k.required then fail
    modify fun l => { l with candidates := l.candidates.filter fun e => e.1 != l.flow }

def saveCandidate : Step Unit := do
  let l ← get
  if l.allowsKey then
    dropCandidate
    let k : Candidate :=
      ⟨l.slots.size, l.flow == 0 && l.indent == l.cursor.column, l.cursor.index, l.cursor.line,
        l.cursor.column⟩
    modify fun l => { l with candidates := (l.flow, k) :: l.candidates }

/-- Closes the blocks that are indented further than a column. -/
def unwind (column : Int) : (fuel : Nat) → Step Unit
  | 0 => return
  | fuel + 1 => do
    let l ← get
    if l.flow == 0 && column < l.indent then
      set { l with indent := l.outer.headD (-1), outer := l.outer.drop 1 }
      push .blockEnd
      unwind column fuel

def unwindTo (column : Int) : Step Unit := do unwind column ((← get).outer.length + 1)

/-- Opens a block at a column, if it lies further right than the innermost one. -/
def indentTo (column : Nat) : Step Bool := do
  let l ← get
  if l.indent < column then
    set { l with indent := (column : Int), outer := l.indent :: l.outer }
    return true
  return false

/-! ## What stands between tokens -/

def skipGapFrom : (fuel : Nat) → Step Unit
  | 0 => return
  | fuel + 1 => do
    let c := (← get).cursor.skipBlanks.skipComment
    match c.lineBreak? with
    | none => setCursor c
    | some (_, c) =>
      setCursor c
      if (← get).flow == 0 then allowKey true
      skipGapFrom fuel

def skipGap : Step Unit := do
  let c := (← get).cursor
  if c.index == 0 && c.peek == some '\ufeff' then setCursor c.next
  skipGapFrom (c.rest.length + 1)

/-! ## Directives -/

def isDigit (c : Char) : Bool := '0' ≤ c && c ≤ '9'

/-- A handle of tags: an exclamation mark, or a name between two of them. -/
def tagHandle (c : Cursor) : Reading (String × Cursor) :=
  if c.peek != some '!' then malformed
  else
    let (name, after) := c.next.takeWhile isNameChar
    if after.peek == some '!' then
      .ok ("!" ++ String.ofList name ++ "!", after.next)
    else if name.isEmpty && c.next.peek == some ' ' then .ok ("!", c.next)
    else malformed

def isUriChar (c : Char) : Bool :=
  c.isAlphanum || "-;/?:@&=+$,_.!~*\x27()[]%".toList.contains c

def uriOctets : (fuel : Nat) → (sofar : List UInt8) → Cursor → Reading (List UInt8 × Cursor)
  | 0, sofar, c => .ok (sofar, c)
  | fuel + 1, sofar, c =>
    match c.rest with
    | '%' :: a :: b :: _ =>
      match Text.hexValue? a, Text.hexValue? b with
      | some x, some y => uriOctets fuel (sofar ++ [(x * 16 + y).toUInt8]) (c.skip 3)
      | _, _ => malformed
    | '%' :: _ => malformed
    | _ => .ok (sofar, c)

/-- The characters of a tag, escapes being octets of UTF-8. -/
def uriFrom : (fuel : Nat) → (sofar : List Char) → Cursor → Reading (List Char × Cursor)
  | 0, sofar, c => .ok (sofar, c)
  | fuel + 1, sofar, c =>
    match c.rest with
    | [] => .ok (sofar, c)
    | ch :: _ =>
      if ch == '%' then do
        let (octets, c) ← uriOctets (c.rest.length + 1) [] c
        match Text.decodeUtf8? octets with
        | some s => uriFrom fuel (sofar ++ s) c
        | none => malformed
      else if isUriChar ch then uriFrom fuel (sofar ++ [ch]) c.next
      else .ok (sofar, c)

def uri (c : Cursor) : Reading (String × Cursor) := do
  let (text, after) ← uriFrom (c.rest.length + 1) [] c
  if after.index == c.index then malformed else return (String.ofList text, after)

def number (c : Cursor) : Reading (Nat × Cursor) :=
  let (digits, after) := c.takeWhile isDigit
  if digits.isEmpty then malformed
  else if digitLimit < digits.length then
    .error (.fault (.wrongValue (.tooManyDigits digits.length)))
  else .ok (Text.digitsValue 10 (Json.digitsOf digits), after)

def versionDirective (c : Cursor) : Reading (Token × Cursor) := do
  let (major, c) ← number c.skipBlanks
  if c.peek != some '.' then malformed
  else
    let (_, c) ← number c.next
    if atBlank c.rest then return (.versionDirective major, c) else malformed

def tagDirective (c : Cursor) : Reading (Token × Cursor) := do
  let (handle, c) ← tagHandle c.skipBlanks
  if c.peek != some ' ' then malformed
  else
    let (start, c) ← uri c.skipBlanks
    if atBlank c.rest then return (.tagDirective handle start, c) else malformed

/-- A directive with the rest of its line; the cursor is behind the percent sign. -/
def directive (c : Cursor) : Reading (Token × Cursor) := do
  let (name, c) := c.takeWhile isNameChar
  if name.isEmpty || !atBlank c.rest then malformed
  else
    let (token, c) ←
      match String.ofList name with
      | "YAML" => versionDirective c
      | "TAG" => tagDirective c
      | _ => pure (.otherDirective, c.skipWhile (!isBreak ·))
    let c := c.skipBlanks.skipComment
    if atLineEnd c.rest then return (token, c.skipBreak) else malformed

/-! ## Names and tags -/

/-- The name of an anchor or alias; the cursor is behind the indicator. -/
def anchorName (c : Cursor) : Reading (String × Cursor) :=
  let (name, after) := c.takeWhile isNameChar
  let ends := atGap after.rest || after.peek.any fun ch => "?:,]\x7d%@\x60".toList.contains ch
  if name.isEmpty || !ends then malformed else .ok (String.ofList name, after)

/-- Whether an exclamation mark ends a handle before the next gap. -/
def hasHandle (rest : List Char) : Bool :=
  (rest.takeWhile fun ch => !(ch == ' ' || isBreak ch)).contains '!'

/-- A tag: in angle brackets, the lone exclamation mark, or a suffix with or without handle. -/
def tag (c : Cursor) : Reading (Token × Cursor) := do
  let (token, c) ←
    match c.rest.drop 1 with
    | '<' :: _ => do
      let (suffix, c) ← uri (c.skip 2)
      if c.peek == some '>' then pure (.tag none suffix, c.next) else malformed
    | rest =>
      if atGap rest then pure (.tag none "!", c.next)
      else do
        let (handle, c) ← if hasHandle rest then tagHandle c else pure ("!", c.next)
        let (suffix, c) ← uri c
        pure (.tag (some handle) suffix, c)
  if atBlank c.rest then return (token, c) else malformed

/-! ## One token after the other -/

/-- Reads something with a token and moves behind it. -/
def pushRead (read : Cursor → Reading (Token × Cursor)) (c : Cursor) : Step Unit := do
  match read c with
  | .error t => throw t
  | .ok (token, c) =>
    push token
    setCursor c

/-- What ends all blocks: the end of the text, a directive, or a mark between documents. -/
def leaveBlocks : Step Unit := do
  unwindTo (-1)
  dropCandidate
  allowKey false

def openFlow (t : Token) : Step Unit := do
  saveCandidate
  modify fun l => { l with flow := l.flow + 1, allowsKey := true }
  pushOver t 1

def closeFlow (t : Token) : Step Unit := do
  dropCandidate
  if (← get).flow == 0 then fail
  modify fun l => { l with flow := l.flow - 1, allowsKey := false }
  pushOver t 1

def blockEntry : Step Unit := do
  let l ← get
  if l.flow == 0 then
    if !l.allowsKey then fail
    if ← indentTo l.cursor.column then push .sequenceStart
  allowKey true
  dropCandidate
  pushOver .entry 1

def explicitKey : Step Unit := do
  let l ← get
  if l.flow == 0 then
    if !l.allowsKey then fail
    if ← indentTo l.cursor.column then push .mappingStart
  allowKey (l.flow == 0)
  dropCandidate
  pushOver .key 1

/-- A colon: the end of the candidate's key, or a value without one. -/
def value : Step Unit := do
  let l ← get
  match l.candidates.lookup l.flow with
  | some k =>
    modify fun l => { l with candidates := l.candidates.filter fun e => e.1 != l.flow }
    let opens ← if l.flow == 0 then indentTo k.column else pure false
    modify fun l =>
      { l with slots := l.slots.modify k.slot fun s =>
          { s with isKey := true, opensMapping := opens } }
    allowKey false
  | none =>
    if l.flow == 0 then
      if !l.allowsKey then fail
      if ← indentTo l.cursor.column then push .mappingStart
    allowKey (l.flow == 0)
    dropCandidate
  pushOver .value 1

def named (make : String → Token) : Step Unit := do
  saveCandidate
  allowKey false
  pushRead (fun c => do
    let (name, c) ← anchorName c.next
    return (make name, c)) (← get).cursor

def tagToken : Step Unit := do
  saveCandidate
  allowKey false
  pushRead tag (← get).cursor

def blockScalar (fold : Bool) : Step Unit := do
  allowKey true
  dropCandidate
  let l ← get
  pushRead (fun c => do
    let (text, c) ← block fold l.indent c.next
    return (.scalar (String.ofList text) false, c)) l.cursor

def quotedScalar : Step Unit := do
  saveCandidate
  allowKey false
  pushRead (fun c => do
    let (text, c) ← quoted c
    return (.scalar (String.ofList text) false, c)) (← get).cursor

def plainScalar : Step Unit := do
  saveCandidate
  allowKey false
  let l ← get
  let (text, c, fresh) := plain (l.flow != 0) (l.indent + 1) l.cursor
  push (.scalar (String.ofList text) true)
  setCursor c
  allowKey fresh

/-- The characters that begin no plain scalar by themselves. -/
def isIndicator (c : Char) : Bool := "-?:,[]\x7b\x7d#&*!|>\x27\x22%@\x60".toList.contains c

/-- Whether a plain scalar begins here. Some indicators may begin one if no gap follows. -/
def beginsPlain (inFlow : Bool) (ch : Char) (rest : List Char) : Bool :=
  (!isGap ch && !isIndicator ch) ||
    (!atGap rest && (ch == '-' || (!inFlow && (ch == '?' || ch == ':'))))

/-- The tokens of what comes next; true at the end of the text. -/
def next : Step Bool := do
  skipGap
  dropStale
  unwindTo (← get).cursor.column
  let l ← get
  let c := l.cursor
  let inFlow := l.flow != 0
  match c.rest with
  | [] =>
    leaveBlocks
    push .streamEnd
    return true
  | ch :: rest =>
    if ch == '%' && c.column == 0 then
      leaveBlocks
      pushRead (fun c => directive c.next) (← get).cursor
    else if c.column == 0 && isMark ['-', '-', '-'] c.rest then
      leaveBlocks
      pushOver .documentStart 3
    else if c.column == 0 && isMark ['.', '.', '.'] c.rest then
      leaveBlocks
      pushOver .documentEnd 3
    else if ch == '[' then openFlow .flowSequenceStart
    else if ch == '\x7b' then openFlow .flowMappingStart
    else if ch == ']' then closeFlow .flowSequenceEnd
    else if ch == '\x7d' then closeFlow .flowMappingEnd
    else if ch == ',' then
      allowKey true
      dropCandidate
      pushOver .comma 1
    else if ch == '-' && atGap rest then blockEntry
    else if ch == '?' && (inFlow || atGap rest) then explicitKey
    else if ch == ':' && (inFlow || atGap rest) then value
    else if ch == '*' then named .alias
    else if ch == '&' then named .anchor
    else if ch == '!' then tagToken
    else if ch == '|' && !inFlow then blockScalar false
    else if ch == '>' && !inFlow then blockScalar true
    else if ch == '\x27' || ch == '\x22' then quotedScalar
    else if beginsPlain inFlow ch rest then plainScalar
    else fail
    return false

/-- How many slots are settled here. From the first on where a key may still have begun, what
has to stand before them is not known. -/
def settled (l : Lexer) : Nat :=
  let live := l.candidates.filter fun e => !l.isStale e.2
  (live.map fun e => e.2.slot).foldl min l.slots.size

/-- The slots of a text, the last one being its end. Where the text cannot be read any further,
that stands in place of everything that is not settled by then. -/
def run : (fuel : Nat) → Lexer → Array Slot
  | 0, l => l.slots
  | fuel + 1, l =>
    match next l with
    | .error t => (l.slots.take l.settled).push ⟨.broken t, false, false⟩
    | .ok (true, l) => l.slots
    | .ok (false, l) => run fuel l

end Lexer

def Token.ofText (text : List Char) : List Token :=
  (Lexer.run (text.length + 1) (.ofText text)).toList.flatMap Slot.tokens

end OptionHost.Yaml
