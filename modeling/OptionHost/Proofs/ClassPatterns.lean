import OptionHost.Proofs.AccessorOutcomes
import OptionHost.Proofs.KeyIdentity

/-!
# What patterns match

The source of a pattern is read as a bracketed class, in which the meaning of a character hangs on
its place and on what stands beside it. Escaping takes care of all of this: the source of any
characters is read back as just these characters, each on its own. Only where there are none is it
no class at all. So a ready store finds in a text the places of the characters of its class.
-/

namespace OptionHost

/-! ## Reading an escaped class back -/

namespace CharacterClass

/-- The class that has some characters and no others. -/
def ofChars (chars : List Char) : CharacterClass := ⟨false, chars.map .single⟩

theorem contains_ofChars {chars : List Char} {c : Char} :
    (ofChars chars).contains c = true ↔ c ∈ chars := by
  simp [contains, ofChars, ClassItem.contains, List.any_map]

end CharacterClass

namespace Pattern

open CharacterClass (character? items? read?)

/-- What stands between the brackets, with the closing one. -/
def body (chars : List Char) : List Char := chars.flatMap escape ++ [']']

theorem body_cons (c : Char) (rest : List Char) : body (c :: rest) = escape c ++ body rest := by
  rw [body, List.flatMap_cons, List.append_assoc, body]

/-- A character that has a meaning of its own is neither a letter nor a digit. -/
theorem isAlphanum_of_special {c : Char} (member : special.contains c = true) :
    c.isAlphanum = false := by
  have none : special.all fun c => !c.isAlphanum := by decide
  simpa using List.all_eq_true.mp none c (List.contains_iff_mem.mp member)

/-- An escaped character begins with a backslash, or with itself if it needs none. -/
theorem escape_cases (c : Char) :
    (special.contains c = true ∧ escape c = ['\\', c]) ∨
      (special.contains c = false ∧ escape c = [c]) := by
  unfold escape
  cases member : special.contains c with
  | true => exact .inl ⟨rfl, rfl⟩
  | false => exact .inr ⟨rfl, rfl⟩

theorem character?_escape (c : Char) (rest : List Char) :
    character? (escape c ++ rest) = some (c, rest) := by
  obtain ⟨member, escaped⟩ | ⟨plain, escaped⟩ := escape_cases c
  · rw [escaped]
    simp [character?, isAlphanum_of_special member]
  · have unescaped : c ≠ '\\' := by
      rintro rfl
      exact absurd plain (by decide)
    rw [escaped, List.singleton_append]
    unfold character?
    split
    next same => exact absurd (List.cons.inj same).1 unescaped
    next same => exact absurd (List.cons.inj same).1 unescaped
    next same =>
      cases same
      rfl
    next same => cases same

/-- An escaped character begins with none of those that brackets and ranges are made of. -/
theorem escape_begins (c : Char) (rest : List Char) :
    ∃ first others, escape c ++ rest = first :: others ∧
      first ≠ ']' ∧ first ≠ '-' ∧ first ≠ '^' := by
  obtain ⟨_, escaped⟩ | ⟨plain, escaped⟩ := escape_cases c
  · exact ⟨'\\', c :: rest, by rw [escaped]; rfl, by decide⟩
  · refine ⟨c, rest, by rw [escaped]; rfl, ?_, ?_, ?_⟩
    all_goals
      rintro rfl
      exact absurd plain (by decide)

/-- No range is read where a class goes on or ends behind a character. -/
theorem body_begins (chars : List Char) :
    ∃ first others, body chars = first :: others ∧ first ≠ '-' := by
  cases chars with
  | nil => exact ⟨']', [], rfl, by decide⟩
  | cons c rest =>
    obtain ⟨first, others, begins, -, noRange, -⟩ := escape_begins c (body rest)
    exact ⟨first, others, (body_cons c rest).trans begins, noRange⟩

theorem items?_escape (fuel : Nat) (sofar : List ClassItem) (c : Char) (rest : List Char) :
    items? (fuel + 1) sofar (escape c ++ body rest) =
      items? fuel (.single c :: sofar) (body rest) := by
  obtain ⟨first, others, begins, noEnd, -⟩ := escape_begins c (body rest)
  obtain ⟨next, later, goesOn, noRange⟩ := body_begins rest
  have read := character?_escape c (body rest)
  rw [begins] at read ⊢
  have goes : (first == ']' && !sofar.isEmpty) = false := by simp [noEnd]
  rw [goesOn] at read ⊢
  simp only [items?, goes, Bool.false_eq_true, if_false, read]
  split
  next none => cases none
  next same =>
    cases same
    exact absurd rfl noRange
  next same =>
    cases same
    exact absurd rfl noRange
  next same =>
    cases same
    rfl

/-- Characters are added one by one to those that were read before, as long as a bracket that comes
first is not taken for a member. -/
theorem items?_body {chars : List Char} {fuel : Nat} (enough : chars.length < fuel)
    (sofar : List ClassItem) (open_ : sofar ≠ [] ∨ chars ≠ []) :
    items? fuel sofar (body chars) = some (sofar.reverse ++ chars.map .single, []) := by
  induction chars generalizing sofar fuel with
  | nil =>
    obtain ⟨fuel, rfl⟩ := Nat.exists_eq_add_of_le' (Nat.succ_le_of_lt enough)
    have closes : (']' == ']' && !sofar.isEmpty) = true := by
      simpa using open_
    rw [body, List.flatMap_nil, List.nil_append, List.map_nil, List.append_nil]
    simp only [items?, closes, if_true]
  | cons c rest ih =>
    obtain ⟨fuel, rfl⟩ := Nat.exists_eq_add_of_le' (Nat.succ_le_of_lt (Nat.zero_lt_of_lt enough))
    rw [body_cons, items?_escape, ih (Nat.lt_of_succ_lt_succ enough) _ (.inl (List.cons_ne_nil _ _)),
      List.reverse_cons, List.append_assoc]
    rfl

theorem length_lt_body (chars : List Char) : chars.length < (body chars).length := by
  induction chars with
  | nil => exact Nat.one_pos
  | cons c rest ih =>
    have some : 0 < (escape c).length := by
      obtain ⟨_, escaped⟩ | ⟨_, escaped⟩ := escape_cases c <;> simp [escaped]
    rw [body_cons, List.length_append, List.length_cons]
    omega

/-- Any characters at all are read back as they are; without any there is no class. -/
theorem read?_ofChars (chars : List Char) :
    read? (ofChars chars).source = if chars = [] then none else some (.ofChars chars) := by
  cases chars with
  | nil => rfl
  | cons c rest =>
    obtain ⟨first, others, begins, -, -, noCaret⟩ := escape_begins c (body rest)
    have whole : body (c :: rest) = first :: others := (body_cons c rest).trans begins
    have enough : (c :: rest).length < (body (c :: rest)).length + 1 :=
      Nat.lt_succ_of_lt (length_lt_body (c :: rest))
    have items := items?_body enough [] (.inr (List.cons_ne_nil c rest))
    rw [whole, List.length_cons] at items
    rw [if_neg (List.cons_ne_nil c rest)]
    change read? ('[' :: body (c :: rest)) = _
    rw [whole]
    simp [read?, noCaret, items, CharacterClass.ofChars]

/-! ## Finding -/

/-- A pattern that finds in every text the places of some characters, from left to right. -/
structure Finds (p : Pattern) (chars : List Char) : Prop where
  exact : ∀ text i c, (i, c) ∈ p.findAll text ↔ text[i]? = some c ∧ c ∈ chars
  ordered : ∀ text, (p.findAll text).Pairwise fun m n => m.1 < n.1

theorem findAll_of_read {p : Pattern} {cls : CharacterClass} (read : read? p.source = some cls)
    (text : List Char) : p.findAll text =
      (text.zipIdx.filter fun m => cls.contains m.1).map fun m => (m.2, m.1) := by
  rw [findAll, read]

theorem finds_of_read {p : Pattern} {chars : List Char}
    (read : read? p.source = some (.ofChars chars)) : p.Finds chars := by
  constructor
  · intro text i c
    rw [findAll_of_read read, List.mem_map]
    constructor
    · rintro ⟨⟨c, i⟩, member, ⟨⟩⟩
      obtain ⟨there, within⟩ := List.mem_filter.mp member
      exact ⟨List.mem_zipIdx_iff_getElem?.mp there, CharacterClass.contains_ofChars.mp within⟩
    · rintro ⟨there, within⟩
      refine ⟨(c, i), List.mem_filter.mpr ⟨List.mem_zipIdx_iff_getElem?.mpr there, ?_⟩, rfl⟩
      exact CharacterClass.contains_ofChars.mpr within
  · intro text
    have places : (text.zipIdx.map Prod.snd).Pairwise (· < ·) := by
      rw [List.zipIdx_map_snd]
      exact List.pairwise_lt_range'
    rw [findAll_of_read read, List.pairwise_map]
    exact (List.pairwise_map.mp places).sublist List.filter_sublist

theorem finds_ofChars {chars : List Char} (some_ : chars ≠ []) : (ofChars chars).Finds chars :=
  finds_of_read ((read?_ofChars chars).trans (if_neg some_))

theorem accepts_ofChars {chars : List Char} (some_ : chars ≠ []) {c : Char} :
    (ofChars chars).accepts c = true ↔ c ∈ chars := by
  rw [accepts, read?_ofChars, if_neg some_]
  exact CharacterClass.contains_ofChars

-- Left as they are, the same characters would be all but a range.
example : (ofChars "^a-c".toList).accepts 'b' = false ∧
    Pattern.accepts ⟨"[^a-c]".toList⟩ 'b' = false ∧
    Pattern.accepts ⟨"[^a-c]".toList⟩ 'x' = true ∧
    (ofChars "^a-c".toList).accepts 'x' = false ∧ (ofChars "^a-c".toList).accepts '-' = true := by
  decide

end Pattern

/-! ## The pattern of a store -/

theorem Value.exists_texts {values : List Value} (texts : ∀ v ∈ values, v.isText = true) :
    ∃ names : List String, values = names.map .text := by
  induction values with
  | nil => exact ⟨[], rfl⟩
  | cons v rest ih =>
    obtain ⟨isText, others⟩ := List.forall_mem_cons.mp texts
    obtain ⟨names, rfl⟩ := ih others
    cases v with
    | text name => exact ⟨name :: names, rfl⟩
    | _ => cases isText

namespace Entries.Textual

variable {classes : Entries} (textual : classes.Textual)

include textual

/-- A table that a store may be created with has characters for every class. -/
theorem filled (full : classes.Full) {e : Value × Value} (listed : e ∈ classes) :
    e.2.isTrue = true := by
  unfold Full at full
  generalize same : (classes.filter fun e => !e.2.isTrue).map Prod.fst = hollow at full
  have texts : ∀ v ∈ hollow, v.isText = true := by
    subst same
    intro v member
    obtain ⟨e, kept, rfl⟩ := List.mem_map.mp member
    exact (textual e (List.mem_filter.mp kept).1).1
  obtain ⟨names, rfl⟩ := Value.exists_texts texts
  obtain ⟨result, sorted, perm⟩ := Value.sorted_texts names
  cases sorted.symm.trans full
  rw [← perm.nil_eq, List.map_eq_nil_iff, List.filter_eq_nil_iff] at same
  simpa using same e listed

/-- What such a table has under a key, it has under a text, and it is not empty. -/
theorem named_of_get? (full : classes.Full) {key : Value} {chars : String}
    (found : classes.get? key = some (.text chars)) : (∃ name, key = .text name) ∧ chars ≠ "" := by
  obtain ⟨⟨k, v⟩, listed, same, held⟩ := Entries.mem_of_get? found
  have isTrue := textual.filled full listed
  have isText := (textual _ listed).1
  dsimp only at held same isTrue isText
  subst held
  cases k with
  | text name => exact ⟨⟨name, Value.same_text_left.mp same⟩, by simpa [Value.isTrue] using isTrue⟩
  | _ => cases isText

end Entries.Textual

namespace Store

variable {s t : Store} {classes : Entries}

/-- A store over given classes whose pattern, while it is ready, is that of the selected one,
whatever its values are. -/
structure Patterned (classes : Entries) (s : Store) : Prop where
  table : s.classes = classes
  selects : ∀ values pattern, s.condition = .ready values pattern →
    values.Selects classes pattern

theorem Patterned.of_same (patterned : s.Patterned classes) (table : t.classes = s.classes)
    (condition : t.condition = s.condition) : t.Patterned classes :=
  ⟨table.trans patterned.table, condition ▸ patterned.selects⟩

theorem Step.patterned {write : Option Change} (step : Step s write t) (textual : classes.Textual)
    (patterned : s.Patterned classes) : t.Patterned classes := by
  cases step with
  | start e =>
    obtain ⟨_, rfl⟩ | ⟨_, chars, pattern, found, compiled, rfl⟩ := start_cases e
    · exact patterned
    · refine ⟨patterned.table, ?_⟩
      rintro values _ ⟨⟩
      rw [patterned.table] at found
      obtain ⟨text, rfl⟩ := textual.get? found
      exact ⟨text, found, (Except.ok.inj compiled).symm⟩
  | close =>
    unfold Store.close
    split
    · exact patterned
    · refine ⟨patterned.table, ?_⟩
      rintro values pattern ⟨⟩
  | @write _ option value change e =>
    obtain ⟨values, pattern, name, pattern', ready, named, asked, _, rfl, compiled⟩ :=
      write_cases e
    refine ⟨patterned.table, ?_⟩
    rintro _ _ ⟨⟩
    obtain ⟨rfl, _, chars, found⟩ | ⟨other, _⟩ := admits_cases named asked
    · rw [if_pos rfl, found] at compiled
      rw [patterned.table] at found
      obtain ⟨text, rfl⟩ := textual.get? found
      exact ⟨text, found, (Except.ok.inj compiled).symm⟩
    · rw [if_neg other] at compiled
      have kept : (values.set value name).breakAt = values.breakAt := by
        cases name with
        | breakAt => exact absurd rfl other
        | _ => rfl
      obtain ⟨chars, found, same⟩ := patterned.selects values pattern ready
      exact ⟨chars, kept ▸ found, compiled.trans same⟩
  | register id => exact patterned.of_same rfl rfl
  | unregister e =>
    obtain rfl := unregister_eq_ok e
    exact patterned.of_same rfl rfl

/-- What a ready store tells of its class and its pattern. -/
theorem Patterned.tells (patterned : s.Patterned classes) (textual : classes.Textual)
    (full : classes.Full) (ready : s.stage = .ready) :
    ∃ chars : String, s.classChars .null = .ok (.text chars) ∧ chars ≠ "" ∧
      s.pattern = .ok (.ofChars chars.toList) := by
  obtain ⟨values, pattern, ready⟩ := ready_of_stage ready
  obtain ⟨chars, found, rfl⟩ := patterned.selects values pattern ready
  obtain ⟨⟨name, selected⟩, some_⟩ := textual.named_of_get? full found
  have required : s.require (.text OptionName.breakAt.name) =
      .ok (values, .ofChars chars.toList) := by
    rw [require, ready]
  have known : s.classOf values.breakAt = .ok (some (.text chars)) := by
    rw [← found, ← patterned.table, selected]
    rfl
  refine ⟨chars, ?_, some_, ?_⟩
  · unfold classChars
    rw [required]
    change (s.classOf values.breakAt >>= _) = _
    rw [known]
    rfl
  · unfold Store.pattern
    rw [required]
    rfl

end Store

namespace Session

/-- The source of any characters is read back as the class of these characters, unless there are
none. So whenever a store over a table of texts is ready, whatever its initial values were, it names
some characters as those of its class, and its pattern finds them and nothing else. -/
theorem finds_class {initial : OptionValues} {classes : Entries} {store : Store} {depth : Nat}
    {requests : List Request} {replies : List (Except Raised Reply)} {h : Host}
    (textual : classes.Textual) (created : Store.create initial classes = .ok store)
    (run : steps depth requests (Host.ofStore store) = some (replies, h)) :
    (∀ chars, CharacterClass.read? (Pattern.ofChars chars).source =
        if chars = [] then none else some (.ofChars chars)) ∧
      (∀ chars c, chars ≠ [] → ((Pattern.ofChars chars).accepts c = true ↔ c ∈ chars)) ∧
      ∀ s ∈ store :: h.history, s.stage = .ready → ∃ chars pattern,
        s.classChars .null = .ok (.text chars) ∧ chars ≠ "" ∧ s.pattern = .ok pattern ∧
          pattern.Finds chars.toList := by
  have accounts := (steps_path run).accounts (Host.accounts_ofStore store)
  obtain ⟨full, rfl⟩ := Store.create_eq_ok_iff.mp created
  have begun : Store.Patterned classes ⟨initial, classes, .uninitialized, []⟩ :=
    ⟨rfl, by rintro values pattern ⟨⟩⟩
  have patterned := accounts.chain.induction (Store.Patterned classes) _
    (fun _ _ ⟨_, step⟩ => step.patterned textual) fun _ => begun
  refine ⟨Pattern.read?_ofChars, fun chars c some_ => Pattern.accepts_ofChars some_, ?_⟩
  intro s known ready
  obtain ⟨chars, named, some_, found⟩ := (patterned s known).tells textual full ready
  refine ⟨chars, _, named, some_, found, Pattern.finds_ofChars ?_⟩
  rwa [Ne, String.toList_eq_nil_iff]

/-- A class whose characters would open a negated range and close it at once. -/
def bracketing : Entries := [(.text "odd", .text "^]-\\a"), (.text "plain", .text "a")]

/-- They are found where they stand, each on its own; the values that nobody has checked make no
difference. -/
theorem finds_class_bracketing :
    ∃ store replies h pattern,
      Store.create ⟨.int 1, .null, .text "plain"⟩ bracketing = .ok store ∧
        steps 1 [.start, .set (.text "break_at") (.text "odd")] (Host.ofStore store) =
          some (replies, h) ∧
        h.store.pattern = .ok pattern ∧ pattern.Finds "^]-\\a".toList ∧
        pattern.source = "[\\^\\]\\-\\\\a]".toList ∧
        pattern.findAll "b-a]".toList = [(1, '-'), (2, 'a'), (3, ']')] := by
  let store : Store := ⟨⟨.int 1, .null, .text "plain"⟩, bracketing, .uninitialized, []⟩
  have created : Store.create ⟨.int 1, .null, .text "plain"⟩ bracketing = .ok store := rfl
  have textual : bracketing.Textual := by
    unfold Entries.Textual
    decide
  have ran : ((steps 1 [.start, .set (.text "break_at") (.text "odd")] (Host.ofStore store)).map
      fun p => (p.2.store.stage, p.2.store.classChars .null, p.2.store.pattern)) =
        some (.ready, .ok (.text "^]-\\a"), .ok (.ofChars "^]-\\a".toList)) := rfl
  obtain ⟨⟨replies, h⟩, run, state⟩ := Option.map_eq_some_iff.mp ran
  obtain ⟨stage, named, compiled⟩ : h.store.stage = .ready ∧
      h.store.classChars .null = .ok (.text "^]-\\a") ∧
      h.store.pattern = .ok (.ofChars "^]-\\a".toList) := by simpa using state
  obtain ⟨-, -, found⟩ := finds_class textual created run
  have last : h.store ∈ store :: h.history := by
    rw [← ((steps_path run).accounts (Host.accounts_ofStore store)).current]
    exact List.getLastD_mem_cons
  obtain ⟨chars, pattern, named', -, compiled', finds⟩ := found h.store last stage
  cases named.symm.trans named'
  cases compiled.symm.trans compiled'
  exact ⟨store, replies, h, _, created, run, compiled, finds, by decide, by decide⟩

end Session

end OptionHost
