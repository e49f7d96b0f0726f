import Mathlib
import OptionHost.Yaml.Node

/-!
# Faults of tokens

A text that breaks off is malformed, but for three things that are faults of their own: an escape
whose number is too large for a character, or for a machine integer, and a version with too many
digits. Each function has its specification, from which those of its callers follow. Building the
tree adds nothing: where there is none, a token is broken or the text is malformed.
-/

open Std.Do

set_option mvcgen.warning false

namespace OptionHost.Yaml

/-- A trouble is that the text is malformed, or one of certain faults. -/
def Trouble.Within (P : Fault → Prop) : Trouble → Prop
  | .malformed => True
  | .fault f => P f

/-- A token is in order, or the text breaks off there with such a trouble. -/
def Token.Within (P : Fault → Prop) : Token → Prop
  | .broken t => t.Within P
  | _ => True

/-- The faults of a text for which there are no tokens. -/
inductive TokenFault : Fault → Prop
  | wideEscape :
    TokenFault (.foreign "OverflowError" "Python int too large to convert to C int")
  | highEscape : TokenFault (.wrongValue (.stated "chr() arg not in range(0x110000)"))
  | longVersion {count : Nat} (long : digitLimit < count) :
    TokenFault (.wrongValue (.tooManyDigits count))

variable {α : Type} {P : Fault → Prop} (c : Cursor) (fuel : Nat)

/-! ## Readings -/

/-- What a reading ends with. -/
abbrev lexical : PostCond α (.except Trouble .pure) :=
  post⟨fun _ => ⌜True⌝, fun t => ⌜t.Within TokenFault⌝⟩

@[spec]
theorem malformed_spec {Q : PostCond α (.except Trouble .pure)} :
    ⦃Q.2.1 .malformed⦄ (malformed : Reading α) ⦃Q⦄ :=
  id

@[spec]
theorem ok_spec (a : α) {Q : PostCond α (.except Trouble .pure)} :
    ⦃Q.1 a⦄ (Except.ok a : Reading α) ⦃Q⦄ :=
  id

@[spec]
theorem quotedBreaks_spec (sofar : List Char) :
    ⦃⌜True⌝⦄ quotedBreaks fuel sofar c ⦃lexical⦄ := by
  fun_induction quotedBreaks fuel sofar c <;> mvcgen [*]

@[spec]
theorem codePoint_spec (width : Nat) : ⦃⌜True⌝⦄ codePoint width c ⦃lexical⦄ := by
  fun_cases codePoint width c with
  | case1 | case2 | case5 => mvcgen
  | case3 => exact fun _ => .wideEscape
  | case4 => exact fun _ => .highEscape

@[spec]
theorem escape_spec : ⦃⌜True⌝⦄ escape c ⦃lexical⦄ := by
  mvcgen [escape]

@[spec]
theorem quotedFrom_spec (double : Bool) (sofar : List Char) :
    ⦃⌜True⌝⦄ quotedFrom double fuel sofar c ⦃lexical⦄ := by
  induction fuel generalizing sofar c with
  | zero => mvcgen [quotedFrom]
  | succ fuel ih => mvcgen [quotedFrom, ih]

@[spec]
theorem quoted_spec : ⦃⌜True⌝⦄ quoted c ⦃lexical⦄ := by
  mvcgen [quoted]

@[spec]
theorem increment_spec : ⦃⌜True⌝⦄ increment c ⦃lexical⦄ := by
  mvcgen [increment]

@[spec]
theorem blockHeader_spec : ⦃⌜True⌝⦄ blockHeader c ⦃lexical⦄ := by
  mvcgen [blockHeader]

@[spec]
theorem block_spec (fold : Bool) (parent : Int) : ⦃⌜True⌝⦄ block fold parent c ⦃lexical⦄ := by
  mvcgen [block]

namespace Lexer

@[spec]
theorem tagHandle_spec : ⦃⌜True⌝⦄ tagHandle c ⦃lexical⦄ := by
  mvcgen [tagHandle]

@[spec]
theorem uriOctets_spec (sofar : List UInt8) : ⦃⌜True⌝⦄ uriOctets fuel sofar c ⦃lexical⦄ := by
  fun_induction uriOctets fuel sofar c <;> mvcgen [*]

@[spec]
theorem uriFrom_spec (sofar : List Char) : ⦃⌜True⌝⦄ uriFrom fuel sofar c ⦃lexical⦄ := by
  induction fuel generalizing sofar c with
  | zero => mvcgen [uriFrom]
  | succ fuel ih => mvcgen [uriFrom, ih]

@[spec]
theorem uri_spec : ⦃⌜True⌝⦄ uri c ⦃lexical⦄ := by
  mvcgen [uri]

@[spec]
theorem number_spec : ⦃⌜True⌝⦄ number c ⦃lexical⦄ := by
  fun_cases number c with
  | case1 | case3 => mvcgen
  | case2 _ _ _ _ long => exact fun _ => .longVersion long

@[spec]
theorem anchorName_spec : ⦃⌜True⌝⦄ anchorName c ⦃lexical⦄ := by
  mvcgen [anchorName]

/-- What the reading of a token ends with. -/
abbrev lexicalToken : PostCond (Token × Cursor) (.except Trouble .pure) :=
  post⟨fun r => ⌜r.1.Within TokenFault⌝, fun t => ⌜t.Within TokenFault⌝⟩

@[spec]
theorem versionDirective_spec : ⦃⌜True⌝⦄ versionDirective c ⦃lexicalToken⦄ := by
  mvcgen [versionDirective]

@[spec]
theorem tagDirective_spec : ⦃⌜True⌝⦄ tagDirective c ⦃lexicalToken⦄ := by
  mvcgen [tagDirective]

@[spec]
theorem directive_spec : ⦃⌜True⌝⦄ directive c ⦃lexicalToken⦄ := by
  mvcgen [directive]

@[spec]
theorem tag_spec : ⦃⌜True⌝⦄ tag c ⦃lexicalToken⦄ := by
  mvcgen [tag]

/-! ## The slots of a text -/

/-- No token so far is broken, but with the faults of tokens. -/
def Sound (l : Lexer) : Prop := ∀ s ∈ l.slots, s.token.Within TokenFault

variable {l l' : Lexer} {t : Token}

theorem Sound.push (sound : l.Sound) (within : t.Within TokenFault) (opens isKey : Bool) :
    Sound { l with slots := l.slots.push ⟨t, opens, isKey⟩ } := by
  intro s mem
  rcases Array.mem_push.mp mem with mem | rfl
  · exact sound s mem
  · exact within

/-- A slot that turns out to be a key keeps its token. -/
theorem Sound.mark (sound : l.Sound) (slot : Nat) (opens : Bool) :
    Sound { l with slots := l.slots.modify slot fun s =>
      { s with isKey := true, opensMapping := opens } } := by
  intro s mem
  obtain ⟨i, bound, rfl⟩ := Array.mem_iff_getElem.mp mem
  rw [Array.size_modify] at bound
  rw [Array.getElem_modify]
  split
  · exact sound l.slots[i] (Array.getElem_mem bound)
  · exact sound l.slots[i] (Array.getElem_mem bound)

/-- What a step ends with. -/
abbrev sound : PostCond α (.arg Lexer (.except Trouble .pure)) :=
  post⟨fun _ l => ⌜l.Sound⌝, fun t => ⌜t.Within TokenFault⌝⟩

@[spec]
theorem fail_spec {Q : PostCond α (.arg Lexer (.except Trouble .pure))} :
    ⦃fun _ => Q.2.1 .malformed⦄ (fail : Step α) ⦃Q⦄ :=
  fun _ => id

@[spec]
theorem push_spec (within : t.Within TokenFault) :
    ⦃fun l => ⌜l.Sound⌝⦄ Lexer.push t ⦃sound⦄ := by
  mvcgen [Lexer.push]
  exact Sound.push ‹_› within _ _

@[spec]
theorem setCursor_spec : ⦃fun l => ⌜l.Sound⌝⦄ setCursor c ⦃sound⦄ := by
  mvcgen [setCursor]

@[spec]
theorem allowKey_spec (allowed : Bool) :
    ⦃fun l => ⌜l.Sound⌝⦄ allowKey allowed ⦃sound⦄ := by
  mvcgen [allowKey]

@[spec]
theorem pushOver_spec (within : t.Within TokenFault) (length : Nat) :
    ⦃fun l => ⌜l.Sound⌝⦄ pushOver t length ⦃sound⦄ := by
  mvcgen [pushOver]

@[spec]
theorem dropStale_spec : ⦃fun l => ⌜l.Sound⌝⦄ dropStale ⦃sound⦄ := by
  mvcgen [dropStale]

@[spec]
theorem dropCandidate_spec : ⦃fun l => ⌜l.Sound⌝⦄ dropCandidate ⦃sound⦄ := by
  mvcgen [dropCandidate]

@[spec]
theorem saveCandidate_spec : ⦃fun l => ⌜l.Sound⌝⦄ saveCandidate ⦃sound⦄ := by
  mvcgen [saveCandidate]

@[spec]
theorem unwind_spec (column : Int) :
    ⦃fun l => ⌜l.Sound⌝⦄ unwind column fuel ⦃sound⦄ := by
  induction fuel with
  | zero => mvcgen [unwind]
  | succ fuel ih => mvcgen [unwind, ih]

@[spec]
theorem unwindTo_spec (column : Int) : ⦃fun l => ⌜l.Sound⌝⦄ unwindTo column ⦃sound⦄ := by
  mvcgen [unwindTo]

@[spec]
theorem indentTo_spec (column : Nat) : ⦃fun l => ⌜l.Sound⌝⦄ indentTo column ⦃sound⦄ := by
  mvcgen [indentTo]

@[spec]
theorem skipGapFrom_spec : ⦃fun l => ⌜l.Sound⌝⦄ skipGapFrom fuel ⦃sound⦄ := by
  induction fuel with
  | zero => mvcgen [skipGapFrom]
  | succ fuel ih => mvcgen [skipGapFrom, ih]

@[spec]
theorem skipGap_spec : ⦃fun l => ⌜l.Sound⌝⦄ skipGap ⦃sound⦄ := by
  mvcgen [skipGap]

@[spec]
theorem leaveBlocks_spec : ⦃fun l => ⌜l.Sound⌝⦄ leaveBlocks ⦃sound⦄ := by
  mvcgen [leaveBlocks]

@[spec]
theorem openFlow_spec (within : t.Within TokenFault) :
    ⦃fun l => ⌜l.Sound⌝⦄ openFlow t ⦃sound⦄ := by
  mvcgen [openFlow]

@[spec]
theorem closeFlow_spec (within : t.Within TokenFault) :
    ⦃fun l => ⌜l.Sound⌝⦄ closeFlow t ⦃sound⦄ := by
  mvcgen [closeFlow]

@[spec]
theorem blockEntry_spec : ⦃fun l => ⌜l.Sound⌝⦄ blockEntry ⦃sound⦄ := by
  mvcgen [blockEntry]
  all_goals exact fun _ _ => trivial

@[spec]
theorem explicitKey_spec : ⦃fun l => ⌜l.Sound⌝⦄ explicitKey ⦃sound⦄ := by
  mvcgen [explicitKey]
  all_goals exact fun _ _ => trivial

@[spec]
theorem value_spec : ⦃fun l => ⌜l.Sound⌝⦄ value ⦃sound⦄ := by
  mvcgen [value]
  -- Where the colon ends a candidate's key, its slot is marked and no token is new.
  case vc2 | vc5 => exact Sound.mark ‹_› _ _
  all_goals exact fun _ _ => trivial

@[spec]
theorem pushRead_spec {read : Cursor → Reading (Token × Cursor)}
    (reads : ⦃⌜True⌝⦄ read c ⦃lexicalToken⦄) :
    ⦃fun l => ⌜l.Sound⌝⦄ pushRead read c ⦃sound⦄ := by
  rw [pushRead]
  cases e : read c with
  | error t =>
    rw [e] at reads
    exact fun _ _ => reads trivial
  | ok r =>
    rw [e] at reads
    have within : r.1.Within TokenFault := reads trivial
    mvcgen

@[spec]
theorem named_spec {make : String → Token} (within : ∀ name, (make name).Within TokenFault) :
    ⦃fun l => ⌜l.Sound⌝⦄ named make ⦃sound⦄ := by
  mvcgen [named]
  exact within _

@[spec]
theorem tagToken_spec : ⦃fun l => ⌜l.Sound⌝⦄ tagToken ⦃sound⦄ := by
  mvcgen [tagToken]

@[spec]
theorem blockScalar_spec (fold : Bool) :
    ⦃fun l => ⌜l.Sound⌝⦄ blockScalar fold ⦃sound⦄ := by
  mvcgen [blockScalar]

@[spec]
theorem quotedScalar_spec : ⦃fun l => ⌜l.Sound⌝⦄ quotedScalar ⦃sound⦄ := by
  mvcgen [quotedScalar]

@[spec]
theorem plainScalar_spec : ⦃fun l => ⌜l.Sound⌝⦄ plainScalar ⦃sound⦄ := by
  mvcgen [plainScalar]

theorem next_spec : ⦃fun l => ⌜l.Sound⌝⦄ next ⦃sound⦄ := by
  mvcgen [next]
  all_goals exact fun _ => trivial

theorem sound_of_next {atEnd : Bool} (sound : l.Sound) (moved : next l = .ok (atEnd, l')) :
    l'.Sound := by
  have step : (wp⟦next l⟧ _).down := next_spec l sound
  rw [moved] at step
  exact step

theorem within_of_next {t : Trouble} (sound : l.Sound) (stopped : next l = .error t) :
    t.Within TokenFault := by
  have step : (wp⟦next l⟧ _).down := next_spec l sound
  rw [stopped] at step
  exact step

theorem within_of_mem_run (sound : l.Sound) : ∀ s ∈ run fuel l, s.token.Within TokenFault := by
  induction fuel generalizing l with
  | zero => exact sound
  | succ fuel ih =>
    rw [run]
    split
    next t stopped =>
      intro s mem
      rcases Array.mem_push.mp mem with mem | rfl
      · have kept : s ∈ l.slots.toList.take l.settled := by
          simpa using Array.mem_toList_iff.mpr mem
        exact sound s (Array.mem_toList_iff.mp (List.mem_of_mem_take kept))
      · exact within_of_next sound stopped
    next l' ended => exact sound_of_next sound ended
    next l' moved => exact ih (sound_of_next sound moved)

end Lexer

/-- A text breaks off because it is malformed, or with a fault of its tokens. -/
theorem Token.within_of_mem_ofText {text : List Char} :
    ∀ t ∈ Token.ofText text, t.Within TokenFault := by
  intro t mem
  obtain ⟨s, slot, mem⟩ := List.mem_flatMap.mp mem
  have fresh : (Lexer.ofText text).Sound := by simp [Lexer.Sound, Lexer.ofText]
  have within := Lexer.within_of_mem_run _ fresh s (Array.mem_toList_iff.mp slot)
  simp only [Slot.tokens, List.mem_append, List.mem_singleton] at mem
  rcases mem with (opening | marking) | rfl
  · split at opening <;> simp at opening
    exact opening ▸ trivial
  · split at marking <;> simp at marking
    exact marking ▸ trivial
  · exact within

/-! ## Trees -/

namespace NodeReader

/-- What is left of the text breaks off only in certain ways. -/
def Within (P : Fault → Prop) (r : NodeReader) : Prop := ∀ t ∈ r.tokens, t.Within P

/-- What a step ends with. -/
abbrev within (P : Fault → Prop) : PostCond α (.arg NodeReader (.except Trouble .pure)) :=
  post⟨fun _ r => ⌜r.Within P⌝, fun t => ⌜t.Within P⌝⟩

@[spec]
theorem fail_spec {Q : PostCond α (.arg NodeReader (.except Trouble .pure))} :
    ⦃fun _ => Q.2.1 .malformed⦄ (fail : Step α) ⦃Q⦄ :=
  fun _ => id

theorem peek_eq (r : NodeReader) : peek r =
    match r.tokens with
    | [] => malformed
    | .broken t :: _ => .error t
    | t :: _ => .ok (t, r) := by
  obtain ⟨tokens, anchors, handles⟩ := r
  simp only [peek, bind, StateT.bind, get, getThe, MonadStateOf.get, StateT.get, pure, Except.pure,
    Except.bind]
  split
  · rfl
  · rfl
  next t _ unbroken =>
    cases t with
    | broken t => exact absurd rfl (unbroken t)
    | _ => rfl

@[spec]
theorem peek_spec : ⦃fun r => ⌜r.Within P⌝⦄ peek ⦃within P⦄ := by
  intro r tokensWithin
  change (wp⟦peek r⟧ _).down
  rw [peek_eq]
  split
  · trivial
  next t _ tokens => exact tokensWithin (.broken t) (by simp [tokens])
  · exact tokensWithin

@[spec]
theorem advance_spec : ⦃fun r => ⌜r.Within P⌝⦄ advance ⦃within P⦄ := by
  mvcgen [advance]
  exact fun t mem => ‹Within P _› t (List.mem_of_mem_drop mem)

@[spec]
theorem emptyText_spec : ⦃fun r => ⌜r.Within P⌝⦄ emptyText ⦃within P⦄ := by
  mvcgen [emptyText]

@[spec]
theorem fullTag_spec (handle : Option String) (suffix : String) :
    ⦃fun r => ⌜r.Within P⌝⦄ fullTag handle suffix ⦃within P⦄ := by
  mvcgen [fullTag]

@[spec]
theorem properties_spec : ⦃fun r => ⌜r.Within P⌝⦄ properties ⦃within P⦄ := by
  mvcgen [properties]

@[spec]
theorem setAnchor_spec (name : Option String) (a : Anchored) :
    ⦃fun r => ⌜r.Within P⌝⦄ setAnchor name a ⦃within P⦄ := by
  mvcgen [setAnchor]

@[spec]
theorem checkAnchor_spec (name : Option String) :
    ⦃fun r => ⌜r.Within P⌝⦄ checkAnchor name ⦃within P⦄ := by
  mvcgen [checkAnchor]

@[spec]
theorem aliased_spec (name : String) : ⦃fun r => ⌜r.Within P⌝⦄ aliased name ⦃within P⦄ := by
  mvcgen [aliased]

@[spec]
theorem accept_spec (p : Token → Bool) : ⦃fun r => ⌜r.Within P⌝⦄ accept p ⦃within P⦄ := by
  mvcgen [accept]

@[spec]
theorem expect_spec (p : Token → Bool) : ⦃fun r => ⌜r.Within P⌝⦄ expect p ⦃within P⦄ := by
  mvcgen [expect]

/-- The functions that read nodes end in this way when they have some fuel. -/
structure Reads (P : Fault → Prop) (fuel : Nat) : Prop where
  node (style : Style) : ⦃fun r => ⌜r.Within P⌝⦄ node fuel style ⦃within P⦄
  nodeUnless (ends : Token → Bool) (style : Style) :
    ⦃fun r => ⌜r.Within P⌝⦄ nodeUnless fuel ends style ⦃within P⦄
  blockItems : ⦃fun r => ⌜r.Within P⌝⦄ blockItems fuel ⦃within P⦄
  looseItems : ⦃fun r => ⌜r.Within P⌝⦄ looseItems fuel ⦃within P⦄
  blockPairs : ⦃fun r => ⌜r.Within P⌝⦄ blockPairs fuel ⦃within P⦄
  flowItems (first : Bool) : ⦃fun r => ⌜r.Within P⌝⦄ flowItems fuel first ⦃within P⦄
  flowPairs (first : Bool) : ⦃fun r => ⌜r.Within P⌝⦄ flowPairs fuel first ⦃within P⦄

theorem Reads.zero : Reads P 0 where
  node style := by mvcgen [NodeReader.node]
  nodeUnless ends style := by mvcgen [NodeReader.nodeUnless]
  blockItems := by mvcgen [NodeReader.blockItems]
  looseItems := by mvcgen [NodeReader.looseItems]
  blockPairs := by mvcgen [NodeReader.blockPairs]
  flowItems first := by mvcgen [NodeReader.flowItems]
  flowPairs first := by mvcgen [NodeReader.flowPairs]

theorem Reads.succ (reads : Reads P fuel) : Reads P (fuel + 1) := by
  obtain ⟨node, nodeUnless, blockItems, looseItems, blockPairs, flowItems, flowPairs⟩ := reads
  constructor
  case node =>
    intro style
    mvcgen [NodeReader.node, blockItems, looseItems, blockPairs, flowItems, flowPairs]
  case nodeUnless =>
    intro ends style
    mvcgen [NodeReader.nodeUnless, node]
  case blockItems => mvcgen [NodeReader.blockItems, nodeUnless, blockItems]
  case looseItems => mvcgen [NodeReader.looseItems, nodeUnless, looseItems]
  case blockPairs => mvcgen [NodeReader.blockPairs, nodeUnless, blockPairs]
  case flowItems =>
    intro first
    mvcgen [NodeReader.flowItems, node, nodeUnless, flowItems]
  case flowPairs =>
    intro first
    mvcgen [NodeReader.flowPairs, node, nodeUnless, flowPairs]

theorem reads : ∀ fuel, Reads P fuel
  | 0 => .zero
  | fuel + 1 => (reads fuel).succ

@[spec]
theorem directives_spec (hasVersion : Bool) :
    ⦃fun r => ⌜r.Within P⌝⦄ directives fuel hasVersion ⦃within P⦄ := by
  induction fuel generalizing hasVersion with
  | zero => mvcgen [directives]
  | succ fuel ih => mvcgen [directives, ih]

@[spec]
theorem skipDocumentEnds_spec : ⦃fun r => ⌜r.Within P⌝⦄ skipDocumentEnds fuel ⦃within P⦄ := by
  induction fuel with
  | zero => mvcgen [skipDocumentEnds]
  | succ fuel ih => mvcgen [skipDocumentEnds, ih]

theorem document_spec : ⦃fun r => ⌜r.Within P⌝⦄ document fuel ⦃within P⦄ := by
  have node := (reads (P := P) fuel).node
  have nodeUnless := (reads (P := P) fuel).nodeUnless
  mvcgen [document, node, nodeUnless]

theorem within_of_document {r : NodeReader} {t : Trouble} (tokens : r.Within P)
    (failed : document fuel r = .error t) : t.Within P := by
  have step : (wp⟦document fuel r⟧ _).down := document_spec fuel r tokens
  rw [failed] at step
  exact step

end NodeReader

/-- A fault that keeps a text from having a tree is that of a token at which it breaks off. -/
theorem Node.broken_of_ofText? {text : List Char} {f : Fault}
    (failed : ofText? text = .error (.fault f)) : .broken (.fault f) ∈ Token.ofText text := by
  have tokens : NodeReader.Within (fun f => .broken (.fault f) ∈ Token.ofText text)
      ⟨Token.ofText text, [], []⟩ := by
    intro t mem
    cases t with
    | broken t =>
      cases t with
      | malformed => trivial
      | fault f => exact mem
    | _ => trivial
  rw [ofText?, StateT.run'] at failed
  cases document : NodeReader.document (4 * (Token.ofText text).length + 8)
      ⟨Token.ofText text, [], []⟩ with
  | error t =>
    rw [document] at failed
    cases failed
    exact NodeReader.within_of_document _ tokens document
  | ok r =>
    rw [document] at failed
    cases failed

end OptionHost.Yaml
