import OptionHost.Yaml.Tag
import OptionHost.Yaml.Token

/-!
# Nodes

The tree that the tokens of a document write. An alias stands for the node that its anchor
marks; an alias within that very node closes a cycle, which no value of finite depth has.
-/

namespace OptionHost.Yaml

inductive Node where
  | scalar (tag : Tag) (text : String)
  | sequence (tag : Tag) (items : List Node)
  | mapping (tag : Tag) (pairs : List (Node × Node))
  /-- A node around this place, of which only the kind is kept. -/
  | cycle (isMapping : Bool)
  deriving Inhabited

/-- Which nodes may begin at a place: those in brackets, those of a block, or also the entries
of a sequence that is not indented below its key. -/
inductive Style where
  | flow
  | block
  | keyed
  deriving DecidableEq, Repr, Inhabited

/-- What is known of an anchor: its node, or while that is being read, its kind. -/
inductive Anchored where
  | complete (n : Node)
  | within (isMapping : Bool)
  deriving Inhabited

structure NodeReader where
  tokens : List Token
  anchors : List (String × Anchored)
  handles : List (String × String)
  deriving Inhabited

namespace NodeReader

abbrev Step := StateT NodeReader (Except Trouble)

def fail {α : Type} : Step α := fun _ => malformed

/-- The next token. Where the text breaks off there is none. -/
def peek : Step Token := do
  match (← get).tokens with
  | [] => fail
  | .broken t :: _ => throw t
  | t :: _ => return t

def advance : Step Unit := modify fun c => { c with tokens := c.tokens.drop 1 }

/-- The content of a node that is left out. -/
def emptyText : Step Node := return .scalar .null ""

def fullTag (handle : Option String) (suffix : String) : Step String := do
  match handle with
  | none => return suffix
  | some handle =>
    match (← get).handles.lookup handle with
    | some start => return start ++ suffix
    | none => fail

/-- An anchor and a tag in either order, each at most once. -/
def properties : Step (Option String × Option String) := do
  match ← peek with
  | .anchor name =>
    advance
    match ← peek with
    | .tag handle suffix =>
      advance
      return (some name, some (← fullTag handle suffix))
    | _ => return (some name, none)
  | .tag handle suffix =>
    advance
    match ← peek with
    | .anchor name =>
      advance
      return (some name, some (← fullTag handle suffix))
    | _ => return (none, some (← fullTag handle suffix))
  | _ => return (none, none)

/-- Whether a node's tag is left to its form. -/
def isImplicit (tag : Option String) : Bool := tag == none || tag == some "!"

def collectionTag (tag : Option String) (usual : Tag) : Tag :=
  match tag with
  | some uri => if isImplicit tag then usual else .ofUri uri
  | none => usual

/-- The tag of a scalar. The tag `!` has every scalar read as a plain one. -/
def scalarTag (tag : Option String) (text : String) (isPlain : Bool) : Tag :=
  match tag with
  | none => if isPlain then Plain.tagOf text.toList else .str
  | some uri => if isImplicit tag then Plain.tagOf text.toList else .ofUri uri

def setAnchor (name : Option String) (a : Anchored) : Step Unit :=
  match name with
  | none => return
  | some name => modify fun c => { c with anchors := (name, a) :: c.anchors }

/-- No two nodes of a document have one anchor. -/
def checkAnchor (name : Option String) : Step Unit := do
  let c ← get
  if name.any fun name => (c.anchors.lookup name).isSome then fail

def aliased (name : String) : Step Node := do
  match (← get).anchors.lookup name with
  | none => fail
  | some (.complete n) => return n
  | some (.within isMapping) => return .cycle isMapping

/-- Takes a token of one kind if it is the next. -/
def accept (p : Token → Bool) : Step Bool := do
  if p (← peek) then
    advance
    return true
  return false

def expect (p : Token → Bool) : Step Unit := do
  if !(← accept p) then fail

def isEntry : Token → Bool
  | .entry => true
  | _ => false

def isComma : Token → Bool
  | .comma => true
  | _ => false

def isKey : Token → Bool
  | .key => true
  | _ => false

def isValue : Token → Bool
  | .value => true
  | _ => false

def isBlockEnd : Token → Bool
  | .blockEnd => true
  | _ => false

def isSequenceEnd : Token → Bool
  | .flowSequenceEnd => true
  | _ => false

def isMappingEnd : Token → Bool
  | .flowMappingEnd => true
  | _ => false

/-- Whether nothing stands between a mark of a block and the next one. -/
def endsInBlock (t : Token) : Bool := isKey t || isValue t || isBlockEnd t

mutual

def node : (fuel : Nat) → Style → Step Node
  | 0, _ => fail
  | fuel + 1, style => do
    match ← peek with
    | .alias name =>
      advance
      aliased name
    | _ =>
      let (anchor, tag) ← properties
      let sequence (items : Step (List Node)) : Step Node := do
        checkAnchor anchor
        setAnchor anchor (.within false)
        let n := .sequence (collectionTag tag .seq) (← items)
        setAnchor anchor (.complete n)
        return n
      let mapping (pairs : Step (List (Node × Node))) : Step Node := do
        checkAnchor anchor
        setAnchor anchor (.within true)
        let n := .mapping (collectionTag tag .map) (← pairs)
        setAnchor anchor (.complete n)
        return n
      let scalar (text : String) (isPlain : Bool) : Step Node := do
        checkAnchor anchor
        let n := .scalar (scalarTag tag text isPlain) text
        setAnchor anchor (.complete n)
        return n
      match ← peek, style with
      | .entry, .keyed => sequence (looseItems fuel)
      | .scalar text isPlain, _ =>
        advance
        scalar text isPlain
      | .flowSequenceStart, _ =>
        advance
        sequence (flowItems fuel true)
      | .flowMappingStart, _ =>
        advance
        mapping (flowPairs fuel true)
      | .sequenceStart, .block | .sequenceStart, .keyed =>
        advance
        sequence (blockItems fuel)
      | .mappingStart, .block | .mappingStart, .keyed =>
        advance
        mapping (blockPairs fuel)
      | _, _ => if anchor.isSome || tag.isSome then scalar "" true else fail

/-- The node that begins here, unless a token comes next before which a node may be left
out. -/
def nodeUnless : (fuel : Nat) → (Token → Bool) → Style → Step Node
  | 0, _, _ => fail
  | fuel + 1, ends, style => do
    if ends (← peek) then emptyText else node fuel style

/-- The rest of a sequence of its own indentation. -/
def blockItems : (fuel : Nat) → Step (List Node)
  | 0 => fail
  | fuel + 1 => do
    if ← accept isEntry then
      let item ← nodeUnless fuel (fun t => isEntry t || isBlockEnd t) .block
      return item :: (← blockItems fuel)
    expect isBlockEnd
    return []

/-- The rest of a sequence that has the indentation of its key. -/
def looseItems : (fuel : Nat) → Step (List Node)
  | 0 => fail
  | fuel + 1 => do
    if ← accept isEntry then
      let item ← nodeUnless fuel (fun t => isEntry t || endsInBlock t) .block
      return item :: (← looseItems fuel)
    return []

def blockPairs : (fuel : Nat) → Step (List (Node × Node))
  | 0 => fail
  | fuel + 1 => do
    if ← accept isKey then
      let key ← nodeUnless fuel endsInBlock .keyed
      let value ← if ← accept isValue then nodeUnless fuel endsInBlock .keyed else emptyText
      return (key, value) :: (← blockPairs fuel)
    expect isBlockEnd
    return []

/-- The rest of a sequence in brackets. A key makes its entry a mapping of one pair. -/
def flowItems : (fuel : Nat) → (first : Bool) → Step (List Node)
  | 0, _ => fail
  | fuel + 1, first => do
    if ← accept isSequenceEnd then return []
    if !first then expect isComma
    let ends (t : Token) : Bool := isComma t || isSequenceEnd t
    if ← accept isKey then
      let key ← nodeUnless fuel (fun t => isValue t || ends t) .flow
      let value ← if ← accept isValue then nodeUnless fuel ends .flow else emptyText
      return .mapping .map [(key, value)] :: (← flowItems fuel false)
    if ← accept isSequenceEnd then return []
    let item ← node fuel .flow
    return item :: (← flowItems fuel false)

/-- The rest of a mapping in braces. An entry without a mark is a key without a value. -/
def flowPairs : (fuel : Nat) → (first : Bool) → Step (List (Node × Node))
  | 0, _ => fail
  | fuel + 1, first => do
    if ← accept isMappingEnd then return []
    if !first then expect isComma
    let ends (t : Token) : Bool := isComma t || isMappingEnd t
    if ← accept isKey then
      let key ← nodeUnless fuel (fun t => isValue t || ends t) .flow
      let value ← if ← accept isValue then nodeUnless fuel ends .flow else emptyText
      return (key, value) :: (← flowPairs fuel false)
    if ← accept isMappingEnd then return []
    let key ← node fuel .flow
    return (key, ← emptyText) :: (← flowPairs fuel false)

end

/-- What the handles stand for where a document does not say otherwise. -/
def usualHandles : List (String × String) := [("!", "!"), ("!!", Tag.coreStart)]

def directives : (fuel : Nat) → (hasVersion : Bool) → Step Unit
  | 0, _ => fail
  | fuel + 1, hasVersion => do
    match ← peek with
    | .versionDirective major =>
      advance
      if hasVersion || major != 1 then fail
      directives fuel true
    | .tagDirective handle start =>
      advance
      if ((← get).handles.lookup handle).isSome then fail
      modify fun c => { c with handles := (handle, start) :: c.handles }
      directives fuel hasVersion
    | .otherDirective =>
      advance
      directives fuel hasVersion
    | _ => modify fun c => { c with handles := c.handles ++ usualHandles }

def isDocumentEnd : Token → Bool
  | .documentEnd => true
  | _ => false

def isStreamEnd : Token → Bool
  | .streamEnd => true
  | _ => false

def isDocumentStart : Token → Bool
  | .documentStart => true
  | _ => false

def isDirective : Token → Bool
  | .versionDirective _ | .tagDirective .. | .otherDirective => true
  | _ => false

def skipDocumentEnds : (fuel : Nat) → Step Unit
  | 0 => fail
  | fuel + 1 => do
    if ← accept isDocumentEnd then skipDocumentEnds fuel

/-- The only document of a text, if it has one. A second one is refused behind its
directives. -/
def document (fuel : Nat) : Step (Option Node) := do
  let t ← peek
  let n ←
    if isStreamEnd t then return none
    else if isDirective t || isDocumentStart t then
      directives fuel false
      expect isDocumentStart
      let absent (t : Token) : Bool :=
        isDirective t || isDocumentStart t || isDocumentEnd t || isStreamEnd t
      nodeUnless fuel absent .block
    else
      modify fun c => { c with handles := usualHandles }
      node fuel .block
  skipDocumentEnds fuel
  if !(← accept isStreamEnd) then
    modify fun c => { c with handles := [] }
    directives fuel false
    fail
  return some n

end NodeReader

/-- The tree of the only document of a text, if it has one. -/
def Node.ofText? (text : List Char) : Reading (Option Node) :=
  let tokens := Token.ofText text
  (NodeReader.document (4 * tokens.length + 8)).run' ⟨tokens, [], []⟩

end OptionHost.Yaml
