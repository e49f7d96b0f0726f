import OptionHost.Value.Entries
import OptionHost.Yaml.Node
import OptionHost.Yaml.Scalar

/-!
# Documents

The value that a document stands for. Mappings may merge others in; what they bind themselves
wins. A document is read level by level, so of several troubles the one nearest to the top is
reported, and on one level the first.
-/

namespace OptionHost.Yaml

/-- What a part of a document stands for, or a trouble and the levels above it. -/
abbrev Staged (α : Type) := Except (Nat × Trouble) α

namespace Staged

def malformed {α : Type} : Staged α := .error (0, .malformed)

def ofReading {α : Type} (r : Reading α) : Staged α := r.mapError fun t => (0, t)

def below {α : Type} (l : Staged α) : Staged α := l.mapError fun (n, t) => (n + 1, t)

def both {α β : Type} (a : Staged α) (b : Staged β) : Staged (α × β) :=
  match a, b with
  | .ok x, .ok y => .ok (x, y)
  | .error e, .ok _ => .error e
  | .ok _, .error e => .error e
  | .error e, .error e' => .error (if e'.1 < e.1 then e' else e)

def all {α : Type} : List (Staged α) → Staged (List α)
  | [] => .ok []
  | l :: rest => (both l (all rest)).map fun (x, xs) => x :: xs

end Staged

/-- A pair of a mapping, its key and its value each read or in trouble. -/
structure Member where
  key : Staged Value
  value : Staged Value

namespace Member

def read (m : Member) : Staged (Value × Value) := m.key.both m.value

/-- The entries that the pairs of a mapping write. -/
def entries (members : List Member) : Staged Entries :=
  (Staged.all (members.map read)).map Entries.ofPairs

/-- The pairs themselves, each of them once more a sequence of two. -/
def tuples (members : List Member) : Staged Value :=
  (Staged.all (members.map read)).map fun pairs => .list (pairs.map fun (k, v) => .tuple [k, v])

end Member

namespace Node

def tag : Node → Tag
  | .scalar tag _ => tag
  | .sequence tag _ => tag
  | .mapping tag _ => tag
  | .cycle isMapping => if isMapping then .map else .seq

/-- Whether a node may be the key of a mapping. -/
def isKey (n : Node) : Bool := !n.tag.isCollection

mutual

/-- The text of a node that is to be read as a scalar: its own, or that of its default
value. -/
def text? : Node → Option String
  | .scalar _ text => some text
  | .mapping _ pairs => defaultText? pairs
  | .sequence .. => none
  | .cycle _ => none
termination_by structural n => n

def defaultText? : List (Node × Node) → Option String
  | [] => none
  | p :: rest =>
    match pairText? p with
    | some text => text
    | none => defaultText? rest
termination_by structural n => n

/-- Whether a pair is the default value, and the text of it. -/
def pairText? : Node × Node → Option (Option String)
  | (k, v) => if k.tag == .value then some (text? v) else none
termination_by structural n => n

end

/-- A node that is read as a scalar although it is none. -/
def readAsScalar (n : Node) : Staged Value :=
  match n.tag, n.text? with
  | .unknown, _ => .malformed
  | .timestamp, some _ =>
    .error (0, .fault (.wrongType (.stated "expected string or bytes-like object, got 'list'")))
  | tag, some text => .ofReading (Scalar.read tag text)
  | _, none => .malformed

mutual

def read : Node → Staged Value
  | .scalar tag text =>
    if tag.isCollection then .below .malformed else .ofReading (Scalar.read tag text)
  | .sequence tag items =>
    match tag with
    | .seq => .below ((Staged.all (readItems items)).map .list)
    | .omap | .pairs =>
      .below (match readSingles items with
        | (members, true) => Member.tuples members
        | (members, false) =>
          (Staged.both (Member.tuples members) (.malformed : Staged Unit)).map Prod.fst)
    | .map | .set => .below .malformed
    | _ => .malformed
  | .mapping tag pairs =>
    match tag with
    | .map =>
      .below (match readPairs pairs with
        | some (merged, own) => (Member.entries (merged ++ own)).map .dict
        | none => .malformed)
    | .set =>
      .below (match readPairs pairs with
        | some (merged, own) =>
          (Member.entries (merged ++ own)).map fun entries => .set (Entries.keys entries)
        | none => .malformed)
    | .seq | .omap | .pairs => .below .malformed
    | _ => readAsScalar (.mapping tag pairs)
  | .cycle isMapping => .ok (.object (if isMapping then "dict" else "list"))
termination_by structural n => n

def readItems : List Node → List (Staged Value)
  | [] => []
  | n :: rest => n.read :: readItems rest
termination_by structural n => n

/-- The pairs of mappings that have one each, up to the first that is something else, and
whether there is none such. -/
def readSingles : List Node → List Member × Bool
  | [] => ([], true)
  | n :: rest =>
    match readSingle n with
    | some m =>
      let (members, complete) := readSingles rest
      (m :: members, complete)
    | none => ([], false)
termination_by structural n => n

def readSingle : Node → Option Member
  | .mapping _ pairs => readOnly pairs
  | .scalar .. => none
  | .sequence .. => none
  | .cycle _ => none
termination_by structural n => n

def readOnly : List (Node × Node) → Option Member
  | [] => none
  | p :: rest => if rest.isEmpty then some (readPair p) else none
termination_by structural n => n

def readPair : Node × Node → Member
  | (k, v) => ⟨k.read, v.read⟩
termination_by structural n => n

/-- The pairs that a mapping merges in and its own ones, if it merges in nothing but
mappings. -/
def readPairs : List (Node × Node) → Option (List Member × List Member)
  | [] => some ([], [])
  | p :: rest =>
    match readEntry p with
    | none => none
    | some (merged, own) =>
      match readPairs rest with
      | none => none
      | some (merged', own') => some (merged ++ merged', own ++ own')
termination_by structural n => n

def readEntry : Node × Node → Option (List Member × List Member)
  | (k, v) =>
    match k.tag with
    | .merge =>
      match readMerged v with
      | some members => some (members, [])
      | none => none
    | .value =>
      match k.text? with
      | some text => some ([], [⟨.ok (.text text), v.read⟩])
      | none => some ([], [⟨.malformed, v.read⟩])
    | _ => some ([], [⟨if k.isKey then k.read else .malformed, v.read⟩])
termination_by structural n => n

/-- What a node contributes that is merged into a mapping. Of several mappings the first
wins. -/
def readMerged : Node → Option (List Member)
  | .mapping _ pairs =>
    match readPairs pairs with
    | some (merged, own) => some (merged ++ own)
    | none => none
  | .sequence _ items => readMergedItems items
  | .scalar .. => none
  | .cycle isMapping => if isMapping then some [] else none
termination_by structural n => n

def readMergedItems : List Node → Option (List Member)
  | [] => some []
  | n :: rest =>
    match readMergedItem n, readMergedItems rest with
    | some first, some later => some (later ++ first)
    | _, _ => none
termination_by structural n => n

/-- Only mappings can stand in a list of what is merged in. -/
def readMergedItem : Node → Option (List Member)
  | .mapping _ pairs =>
    match readPairs pairs with
    | some (merged, own) => some (merged ++ own)
    | none => none
  | .sequence .. => none
  | .scalar .. => none
  | .cycle isMapping => if isMapping then some [] else none
termination_by structural n => n

end

end Node

def isPrintable (c : Char) : Bool :=
  let n := c.toNat
  n == 9 || n == 10 || n == 13 || (0x20 ≤ n && n ≤ 0x7E) || n == 0x85 ||
    (0xA0 ≤ n && n ≤ 0xFFFD) || 0x10000 ≤ n

/-- The value of a text's only document; a text without one is null. -/
def readDocument (text : List Char) : Reading Value :=
  if text.all isPrintable then
    match Node.ofText? text with
    | .error t => .error t
    | .ok none => .ok .null
    | .ok (some n) => n.read.mapError Prod.snd
  else malformed

end OptionHost.Yaml
