import Mathlib.Data.List.Forall2
import OptionHost.Proofs.DistinctKeys
import OptionHost.Proofs.Outcome
import OptionHost.Settings.Sections

/-!
# What a document is read as

Each setting stands at one place of a document. It has the value that its reader makes of what the
document has there, or its initial value if the document has nothing there, and writing it out and
reading it again changes nothing.
-/

namespace OptionHost

namespace Checked

variable {α : Type}

theorem under_eq_ok {c : Checked α} {key : Value} {a : α} : c.under key = .ok a ↔ c = .ok a :=
  Except.mapError_eq_ok

@[simp] theorem under_ok (key : Value) (a : α) : under key (.ok a) = .ok a := rfl

@[simp] theorem under_error (key : Value) (issues : List Issue) :
    under key (.error issues : Checked α) = .error (issues.map (Issue.under key)) := rfl

end Checked

namespace Reader

variable {α : Type}

theorem field_ok {entries : Entries} {name : String} {otherwise a : α} {read : Reader α}
    (ok : field entries name otherwise read = .ok a) :
    (entries.named? name).elim (.ok otherwise) read = .ok a := by
  rw [field] at ok
  cases named : entries.named? name with
  | none => rwa [named] at ok
  | some v =>
    rw [named] at ok
    exact Checked.under_eq_ok.mp ok

theorem known_of_unknownKeys {known : List String} {entries : Entries}
    (none : unknownKeys known entries = []) : ∀ e ∈ entries, ∃ key ∈ known, e.1 = .text key := by
  rintro ⟨k, v⟩ mem
  have fine := List.filterMap_eq_nil_iff.mp none (k, v) mem
  cases k with
  | text s => exact ⟨s, by simpa using fine, rfl⟩
  | _ => cases fine

theorem oneOf_ok {texts : List String} {v : Value} {s : String} (ok : oneOf texts v = .ok s) :
    oneOf texts (.text s) = .ok s := by
  cases v with
  | text t =>
    by_cases among : texts.contains t = true
    · rw [oneOf, if_pos among] at ok
      cases ok
      rw [oneOf, if_pos among]
    · rw [oneOf, if_neg among] at ok
      cases ok
  | _ => cases ok

theorem positiveFloat_ok {v : Value} {x : Binary64} (ok : positiveFloat v = .ok x) :
    positiveFloat (.float x) = .ok x := by
  obtain ⟨y, -, bounded⟩ := Except.bind_eq_ok ok
  by_cases positive : (y.compareRatio? 0 1 == some .gt) = true
  · rw [if_pos positive] at bounded
    cases bounded
    exact if_pos positive
  · rw [if_neg positive] at bounded
    cases bounded

/-! ## Tables of texts -/

theorem text_ok_or_refused (v : Value) : (∃ s, text v = .ok s) ∨ ∃ kind, text v = .refuse kind := by
  cases v with
  | text s => exact .inl ⟨s, rfl⟩
  | bytes octets =>
    rw [text]
    cases Text.decodeUtf8? octets with
    | none => exact .inr ⟨_, rfl⟩
    | some s => exact .inl ⟨_, rfl⟩
  | _ => exact .inr ⟨_, rfl⟩

/-- An entry that is read as a pair of texts. -/
def PairOf (e : Value × Value) (p : String × String) : Prop :=
  text e.1 = .ok p.1 ∧ text e.2 = .ok p.2

theorem textEntry_fine {key value : Value} (fine : (textEntry key value).issues = []) :
    ∃ p, textEntry key value = .ok p ∧ PairOf (key, value) p := by
  rcases text_ok_or_refused key with ⟨s, hs⟩ | ⟨kind, hs⟩ <;>
    rcases text_ok_or_refused value with ⟨t, ht⟩ | ⟨kind', ht⟩
  · exact ⟨(s, t), by simp [textEntry, hs, ht], hs, ht⟩
  all_goals
    simp [textEntry, hs, ht, Checked.refuse, Checked.issues] at fine

/-- A table with one more pair; a name that it has already keeps its place. -/
def addPair (sofar : List (String × String)) (e : String × String) : List (String × String) :=
  if sofar.any (·.1 == e.1) then sofar.map fun f => if f.1 == e.1 then e else f
  else sofar ++ [e]

theorem names_addPair {sofar : List (String × String)} {e : String × String}
    (nodup : (sofar.map Prod.fst).Nodup) : ((addPair sofar e).map Prod.fst).Nodup := by
  by_cases known : sofar.any (·.1 == e.1) = true
  · have names : ((addPair sofar e).map Prod.fst) = sofar.map Prod.fst := by
      rw [addPair, if_pos known, List.map_map]
      refine List.map_congr_left fun f _ => ?_
      by_cases same : f.1 = e.1 <;> simp [same]
    rwa [names]
  · rw [addPair, if_neg known, List.map_append]
    refine List.nodup_append.mpr ⟨nodup, by simp, ?_⟩
    rintro name mem _ last rfl
    obtain ⟨f, there, rfl⟩ := List.mem_map.mp mem
    obtain same : f.1 = e.1 := by simpa using last
    exact known (List.any_eq_true.mpr ⟨f, there, by simp [same]⟩)

theorem names_addPairs {written sofar : List (String × String)}
    (nodup : (sofar.map Prod.fst).Nodup) :
    ((written.foldl addPair sofar).map Prod.fst).Nodup := by
  induction written generalizing sofar with
  | nil => exact nodup
  | cons e rest ih => exact ih (names_addPair nodup)

theorem addPairs_of_nodup {written sofar : List (String × String)}
    (nodup : ((sofar ++ written).map Prod.fst).Nodup) :
    written.foldl addPair sofar = sofar ++ written := by
  induction written generalizing sofar with
  | nil => simp
  | cons e rest ih =>
    have added : addPair sofar e = sofar ++ [e] := by
      refine if_neg fun known => ?_
      obtain ⟨f, there, same⟩ := List.any_eq_true.mp known
      rw [List.map_append, List.nodup_append] at nodup
      exact nodup.2.2 f.1 (List.mem_map_of_mem there) e.1 (by simp) (by simpa using same)
    rw [List.foldl_cons, added, ih (by simpa using nodup)]
    simp

theorem textDict_ok {v : Value} {pairs : List (String × String)} (ok : textDict v = .ok pairs) :
    ∃ entries written, v = .dict entries ∧ List.Forall₂ PairOf entries written ∧
      pairs = written.foldl addPair [] := by
  cases v with
  | dict entries =>
    rw [textDict] at ok
    split at ok
    next fine =>
      cases ok
      refine ⟨entries, _, rfl, ?_, rfl⟩
      -- which function keeps the pairs does not matter as long as it does
      generalize hkeep : (fun r : Checked (String × String) => _) = keep
      have kept (p : String × String) : keep (.ok p) = some p := by rw [← hkeep]
      clear hkeep
      induction entries with
      | nil => exact .nil
      | cons e rest ih =>
        simp only [List.map_cons, List.flatMap_cons, List.append_eq_nil_iff] at fine
        obtain ⟨p, read, pair⟩ := textEntry_fine fine.1
        rw [List.map_cons, List.filterMap_cons, read, kept]
        exact .cons pair (ih fine.2)
    next => cases ok
  | _ => cases ok

theorem names_of_pairs {entries : Entries} {written : List (String × String)}
    (pairs : List.Forall₂ PairOf entries written) (texts : ∀ e ∈ entries, e.1.isText = true) :
    entries.map Prod.fst = written.map fun p => .text p.1 := by
  induction pairs with
  | nil => rfl
  | @cons e p entries written pair _ ih =>
    obtain ⟨k, v⟩ := e
    have named := texts (k, v) (by simp)
    cases k with
    | text s =>
      obtain rfl : s = p.1 := Except.ok.inj pair.1
      rw [List.map_cons, List.map_cons, ih fun f mem => texts f (by simp [mem])]
    | _ => cases named

theorem lookup_of_pairs {entries : Entries} {written : List (String × String)}
    (pairs : List.Forall₂ PairOf entries written) (texts : ∀ e ∈ entries, e.1.isText = true)
    (name : String) : (entries.named? name).map text = (written.lookup name).map .ok := by
  induction pairs with
  | nil => rfl
  | @cons e p entries written pair _ ih =>
    obtain ⟨k, v⟩ := e
    have named := texts (k, v) (by simp)
    cases k with
    | text s =>
      obtain rfl : s = p.1 := Except.ok.inj pair.1
      have others := ih fun f mem => texts f (by simp [mem])
      have value : text v = .ok p.2 := pair.2
      by_cases first : p.1 = name
      · rw [List.lookup_cons, first]
        simp [Entries.named?, Entries.get?, value]
      · have later : (name == p.1) = false := beq_false_of_ne (Ne.symm first)
        rw [List.lookup_cons, later, Entries.named?, Entries.get?, if_neg (by simpa using first)]
        exact others
    | _ => cases named

/-- A table whose keys are different texts is read entry by entry. -/
theorem textDict_lookup {entries : Entries} {pairs : List (String × String)}
    (differ : entries.KeysDiffer) (texts : ∀ e ∈ entries, e.1.isText = true)
    (ok : textDict (.dict entries) = .ok pairs) (name : String) :
    (entries.named? name).map text = (pairs.lookup name).map .ok := by
  obtain ⟨entries, written, same, pairs, rfl⟩ := textDict_ok ok
  cases same
  have keys : (entries.map Prod.fst).Pairwise fun a b => a.same b = false :=
    List.pairwise_map.mpr differ
  rw [names_of_pairs pairs texts, List.pairwise_map] at keys
  have nodup : (written.map Prod.fst).Nodup :=
    List.pairwise_map.mpr (keys.imp fun apart same => by simp [same] at apart)
  rw [addPairs_of_nodup (by simpa using nodup), List.nil_append]
  exact lookup_of_pairs pairs texts name

theorem textDict_written {classes : List (String × String)} (nodup : (classes.map Prod.fst).Nodup) :
    textDict (.dict (classes.map fun c => (.text c.1, .text c.2))) = .ok classes := by
  have read : (classes.map fun c => ((.text c.1, .text c.2) : Value × Value)).map
      (fun e => textEntry e.1 e.2) = classes.map .ok := by
    rw [List.map_map]
    rfl
  have fine : (classes.map (.ok : String × String → Checked (String × String))).flatMap
      Checked.issues = [] := by
    simp [List.flatMap_map, Checked.issues]
  simp only [textDict, read, fine]
  refine congrArg Except.ok ?_
  rw [List.filterMap_map]
  have kept : classes.filterMap some = classes := List.filterMap_some
  exact (congrArg (List.foldl addPair []) kept).trans (addPairs_of_nodup (by simpa using nodup))

/-- A field of a section stands two keys below the root. -/
theorem at?_field {σ : Type} {readPart : Reader σ} {read : Reader α} {start x : σ}
    {part key : String} {root : Entries} (get : σ → α)
    (fields : ∀ v x, readPart v = .ok x →
      ∃ entries, v = .dict entries ∧ field entries key (get start) read = .ok (get x))
    (ok : field root part start readPart = .ok x) :
    ((Value.dict root).at? [part, key]).elim (.ok (get start)) read = .ok (get x) := by
  have there := field_ok ok
  rw [Entries.at?_pair]
  cases named : root.named? part with
  | none =>
    rw [named] at there
    cases there
    rfl
  | some v =>
    rw [named] at there
    obtain ⟨entries, rfl, found⟩ := fields v x there
    rw [Option.bind_some, Entries.at?_single]
    exact field_ok found

end Reader

/-! ## Sections -/

open Reader (field unknownKeys)

theorem OptionSettings.read_ok {v : Value} {o : OptionSettings} (ok : read v = .ok o) :
    ∃ entries, v = .dict entries ∧
      field entries "wrap" initial.wrap Reader.bool = .ok o.wrap ∧
      field entries "line_break" initial.lineBreak Reader.bool = .ok o.lineBreak ∧
      field entries "break_at" initial.breakAt Reader.text = .ok o.breakAt ∧
      field entries "break_at_classes" initial.classes Reader.textDict = .ok o.classes ∧
      unknownKeys keys entries = [] ∧ o.rule? = none := by
  cases v with
  | dict entries =>
    simp only [read] at ok
    split at ok
    next w l b c wrap lineBreak breakAt classes fine =>
      split at ok
      next rule =>
        cases ok
        exact ⟨entries, rfl, wrap, lineBreak, breakAt, classes,
          (List.append_eq_nil_iff.mp fine).2, rule⟩
      next => cases ok
    next => cases ok
  | _ => cases ok

theorem OptionSettings.read_of_fields {entries : Entries} {w l : Bool} {b : String}
    {c : List (String × String)}
    (wrap : field entries "wrap" initial.wrap Reader.bool = .ok w)
    (lineBreak : field entries "line_break" initial.lineBreak Reader.bool = .ok l)
    (breakAt : field entries "break_at" initial.breakAt Reader.text = .ok b)
    (classes : field entries "break_at_classes" initial.classes Reader.textDict = .ok c)
    (known : unknownKeys keys entries = []) (rule : rule? ⟨w, l, b, c⟩ = none) :
    read (.dict entries) = .ok ⟨w, l, b, c⟩ := by
  simp only [read, wrap, lineBreak, breakAt, classes, known, Checked.issues, List.append_nil, rule]

theorem OptionSettings.classes_toValue {o : OptionSettings}
    (nodup : (o.classes.map Prod.fst).Nodup) :
    field [(.text "wrap", .bool o.wrap), (.text "line_break", .bool o.lineBreak),
      (.text "break_at", .text o.breakAt), (.text "break_at_classes", .dict o.classEntries)]
      "break_at_classes" initial.classes Reader.textDict = .ok o.classes :=
  Checked.under_eq_ok.mpr (Reader.textDict_written nodup)

/-- Options that obey their rule are read from what they are written as. -/
theorem OptionSettings.read_toValue {o : OptionSettings} (nodup : (o.classes.map Prod.fst).Nodup)
    (rule : o.rule? = none) : read o.toValue = .ok o :=
  read_of_fields rfl rfl rfl (classes_toValue nodup) rfl rule

theorem ScriptSettings.read_ok {v : Value} {s : ScriptSettings} (ok : read v = .ok s) :
    ∃ entries, v = .dict entries ∧
      field entries "engine" initial.engine (Reader.oneOf ["starlark", "monty"]) = .ok s.engine ∧
      field entries "max_execution_time" initial.limit Reader.positiveFloat = .ok s.limit ∧
      field entries "enable_print" initial.printing Reader.bool = .ok s.printing ∧
      field entries "enable_debug" initial.echoing Reader.bool = .ok s.echoing ∧
      unknownKeys keys entries = [] := by
  cases v with
  | dict entries =>
    simp only [read] at ok
    split at ok
    next e l p d engine limit printing echoing fine =>
      cases ok
      exact ⟨entries, rfl, engine, limit, printing, echoing, (List.append_eq_nil_iff.mp fine).2⟩
    next => cases ok
  | _ => cases ok

theorem ScriptSettings.read_of_fields {entries : Entries} {e : String} {l : Binary64} {p d : Bool}
    (engine : field entries "engine" initial.engine (Reader.oneOf ["starlark", "monty"]) = .ok e)
    (limit : field entries "max_execution_time" initial.limit Reader.positiveFloat = .ok l)
    (printing : field entries "enable_print" initial.printing Reader.bool = .ok p)
    (echoing : field entries "enable_debug" initial.echoing Reader.bool = .ok d)
    (known : unknownKeys keys entries = []) : read (.dict entries) = .ok ⟨e, l, p, d⟩ := by
  simp only [read, engine, limit, printing, echoing, known, Checked.issues, List.append_nil]

theorem LogSettings.read_ok {v : Value} {s : LogSettings} (ok : read v = .ok s) :
    ∃ entries, v = .dict entries ∧
      field entries "level" initial.level (Reader.oneOf (Level.all.map Level.name)) =
        .ok s.level ∧
      unknownKeys ["level"] entries = [] := by
  cases v with
  | dict entries =>
    simp only [read] at ok
    split at ok
    next l level fine =>
      cases ok
      exact ⟨entries, rfl, level, (List.append_eq_nil_iff.mp fine).2⟩
    next => cases ok
  | _ => cases ok

theorem LogSettings.read_of_fields {entries : Entries} {l : String}
    (level : field entries "level" initial.level (Reader.oneOf (Level.all.map Level.name)) = .ok l)
    (known : unknownKeys ["level"] entries = []) : read (.dict entries) = .ok ⟨l⟩ := by
  simp only [read, level, known, Checked.issues, List.append_nil]

theorem Settings.read_ok {root : Entries} {c : Settings} (ok : read (.dict root) = .ok c) :
    field root "options" initial.options OptionSettings.read = .ok c.options ∧
      field root "scripting" initial.scripting ScriptSettings.read = .ok c.scripting ∧
      field root "logging" initial.logging LogSettings.read = .ok c.logging ∧
      unknownKeys keys root = [] := by
  rw [read] at ok
  split at ok
  next => cases ok
  next =>
    have done := Except.mapError_eq_ok.mp ok
    simp only [readEntries] at done
    split at done
    next o s l options scripting logging fine =>
      cases done
      exact ⟨options, scripting, logging, (List.append_eq_nil_iff.mp fine).2⟩
    next => cases done

theorem Settings.read_of_fields {root : Entries} {o : OptionSettings} {s : ScriptSettings}
    {l : LogSettings} (texts : (root.any fun e => !e.1.isText) = false)
    (options : field root "options" initial.options OptionSettings.read = .ok o)
    (scripting : field root "scripting" initial.scripting ScriptSettings.read = .ok s)
    (logging : field root "logging" initial.logging LogSettings.read = .ok l)
    (known : unknownKeys keys root = []) : read (.dict root) = .ok ⟨o, s, l⟩ := by
  rw [read, if_neg (by simp [texts])]
  simp only [readEntries, options, scripting, logging, known, Checked.issues, List.append_nil]
  rfl

/-- The sections of a document with the keys that each may have. -/
def Settings.sectionKeys : List (String × List String) :=
  [("options", OptionSettings.keys), ("scripting", ScriptSettings.keys), ("logging", ["level"])]

/-- Every key of a document is that of a section, and every key of a section one of its own. -/
def Settings.Known (root : Entries) : Prop :=
  ∀ e ∈ root, ∃ part ∈ sectionKeys, e.1 = .text part.1 ∧
    ∃ entries, e.2 = .dict entries ∧ ∀ f ∈ entries, ∃ key ∈ part.2, f.1 = .text key

theorem Settings.read_known {root : Entries} {c : Settings} (differ : root.KeysDiffer)
    (ok : read (.dict root) = .ok c) : Known root := by
  obtain ⟨options, scripting, logging, known⟩ := read_ok ok
  rintro ⟨k, v⟩ mem
  obtain ⟨name, listed, rfl⟩ := Reader.known_of_unknownKeys known _ mem
  have found := differ.named?_of_mem mem
  rcases (by simpa [keys] using listed : name = "options" ∨ name = "scripting" ∨ name = "logging")
    with rfl | rfl | rfl
  · have there := Reader.field_ok options
    rw [found] at there
    obtain ⟨entries, rfl, -, -, -, -, own, -⟩ := OptionSettings.read_ok there
    exact ⟨("options", OptionSettings.keys), by simp [sectionKeys], rfl, entries, rfl,
      Reader.known_of_unknownKeys own⟩
  · have there := Reader.field_ok scripting
    rw [found] at there
    obtain ⟨entries, rfl, -, -, -, -, own⟩ := ScriptSettings.read_ok there
    exact ⟨("scripting", ScriptSettings.keys), by simp [sectionKeys], rfl, entries, rfl,
      Reader.known_of_unknownKeys own⟩
  · have there := Reader.field_ok logging
    rw [found] at there
    obtain ⟨entries, rfl, -, own⟩ := LogSettings.read_ok there
    exact ⟨("logging", ["level"]), by simp [sectionKeys], rfl, entries, rfl,
      Reader.known_of_unknownKeys own⟩

/-- What was read obeys the rule that joins the options. -/
theorem Settings.read_rule {root : Entries} {c : Settings} (ok : read (.dict root) = .ok c) :
    c.options.rule? = none := by
  have there := Reader.field_ok (read_ok ok).1
  cases named : root.named? "options" with
  | none =>
    rw [named] at there
    rw [← Except.ok.inj there]
    rfl
  | some v =>
    rw [named] at there
    obtain ⟨entries, -, -, -, -, -, -, rule⟩ := OptionSettings.read_ok there
    exact rule

theorem OptionSettings.selected_of_rule {o : OptionSettings} (rule : o.rule? = none) :
    ∃ chars, o.classes.lookup o.breakAt = some chars ∧ chars ≠ "" := by
  simp only [rule?] at rule
  split at rule
  next => cases rule
  next =>
    split at rule
    next => cases rule
    next full =>
      split at rule
      next => cases rule
      next among =>
        have listed : o.breakAt ∈ o.classes.map Prod.fst := by simpa using among
        cases found : o.classes.lookup o.breakAt with
        | none =>
          obtain ⟨c, mem, same⟩ := List.mem_map.mp listed
          have absent := List.lookup_eq_none_iff.mp found c mem
          simp [same] at absent
        | some chars =>
          refine ⟨chars, rfl, ?_⟩
          rintro rfl
          obtain ⟨before, after, same, -⟩ := List.lookup_eq_some_iff.mp found
          simp [same] at full

/-! ## Settings -/

/-- The settings of a host by the types of their values. -/
inductive Setting : Type → Type
  | wrap : Setting Bool
  | lineBreak : Setting Bool
  | breakAt : Setting String
  | classes : Setting (List (String × String))
  | engine : Setting String
  | limit : Setting Binary64
  | printing : Setting Bool
  | echoing : Setting Bool
  | level : Setting String

namespace Setting

variable {α : Type}

/-- The section of a setting. -/
def part : Setting α → String
  | wrap | lineBreak | breakAt | classes => "options"
  | engine | limit | printing | echoing => "scripting"
  | level => "logging"

def key : Setting α → String
  | wrap => "wrap"
  | lineBreak => "line_break"
  | breakAt => "break_at"
  | classes => "break_at_classes"
  | engine => "engine"
  | limit => "max_execution_time"
  | printing => "enable_print"
  | echoing => "enable_debug"
  | level => "level"

def path (s : Setting α) : KeyPath := [s.part, s.key]

def read : Setting α → Reader α
  | wrap | lineBreak | printing | echoing => Reader.bool
  | breakAt => Reader.text
  | classes => Reader.textDict
  | engine => Reader.oneOf ["starlark", "monty"]
  | limit => Reader.positiveFloat
  | level => Reader.oneOf (Level.all.map Level.name)

def value (c : Settings) : Setting α → α
  | wrap => c.options.wrap
  | lineBreak => c.options.lineBreak
  | breakAt => c.options.breakAt
  | classes => c.options.classes
  | engine => c.scripting.engine
  | limit => c.scripting.limit
  | printing => c.scripting.printing
  | echoing => c.scripting.echoing
  | level => c.logging.level

def toValue : Setting α → α → Value
  | wrap, b | lineBreak, b | printing, b | echoing, b => .bool b
  | breakAt, t | engine, t | level, t => .text t
  | classes, table => .dict (table.map fun c => (.text c.1, .text c.2))
  | limit, x => .float x

/-- What a setting is where a document has something for it, or nothing. -/
def readFrom (s : Setting α) (found : Option Value) : Checked α :=
  found.elim (.ok (s.value .initial)) s.read

/-- Every setting of a document has the value that is read at its place. -/
theorem readFrom_at? {root : Entries} {c : Settings} (s : Setting α)
    (ok : Settings.read (.dict root) = .ok c) :
    s.readFrom ((Value.dict root).at? s.path) = .ok (s.value c) := by
  obtain ⟨options, scripting, logging, -⟩ := Settings.read_ok ok
  cases s with
  | wrap =>
    refine Reader.at?_field OptionSettings.wrap (fun v o read => ?_) options
    obtain ⟨entries, rfl, wrap, -⟩ := OptionSettings.read_ok read
    exact ⟨entries, rfl, wrap⟩
  | lineBreak =>
    refine Reader.at?_field OptionSettings.lineBreak (fun v o read => ?_) options
    obtain ⟨entries, rfl, -, lineBreak, -⟩ := OptionSettings.read_ok read
    exact ⟨entries, rfl, lineBreak⟩
  | breakAt =>
    refine Reader.at?_field OptionSettings.breakAt (fun v o read => ?_) options
    obtain ⟨entries, rfl, -, -, breakAt, -⟩ := OptionSettings.read_ok read
    exact ⟨entries, rfl, breakAt⟩
  | classes =>
    refine Reader.at?_field OptionSettings.classes (fun v o read => ?_) options
    obtain ⟨entries, rfl, -, -, -, classes, -⟩ := OptionSettings.read_ok read
    exact ⟨entries, rfl, classes⟩
  | engine =>
    refine Reader.at?_field ScriptSettings.engine (fun v o read => ?_) scripting
    obtain ⟨entries, rfl, engine, -⟩ := ScriptSettings.read_ok read
    exact ⟨entries, rfl, engine⟩
  | limit =>
    refine Reader.at?_field ScriptSettings.limit (fun v o read => ?_) scripting
    obtain ⟨entries, rfl, -, limit, -⟩ := ScriptSettings.read_ok read
    exact ⟨entries, rfl, limit⟩
  | printing =>
    refine Reader.at?_field ScriptSettings.printing (fun v o read => ?_) scripting
    obtain ⟨entries, rfl, -, -, printing, -⟩ := ScriptSettings.read_ok read
    exact ⟨entries, rfl, printing⟩
  | echoing =>
    refine Reader.at?_field ScriptSettings.echoing (fun v o read => ?_) scripting
    obtain ⟨entries, rfl, -, -, -, echoing, -⟩ := ScriptSettings.read_ok read
    exact ⟨entries, rfl, echoing⟩
  | level =>
    refine Reader.at?_field LogSettings.level (fun v o read => ?_) logging
    obtain ⟨entries, rfl, level, -⟩ := LogSettings.read_ok read
    exact ⟨entries, rfl, level⟩

theorem at?_toValue (s : Setting α) (c : Settings) :
    c.toValue.at? s.path = some (s.toValue (s.value c)) := by
  cases s <;> rfl

/-- A table of classes that was read names each class once. -/
theorem names_of_classes {found : Option Value} {table : List (String × String)}
    (ok : classes.readFrom found = .ok table) : (table.map Prod.fst).Nodup := by
  cases found with
  | none =>
    cases ok
    decide
  | some v =>
    obtain ⟨_, written, -, -, rfl⟩ := Reader.textDict_ok ok
    exact Reader.names_addPairs (by simp)

/-- A value that was read is read again from what it is written as. -/
theorem read_toValue {found : Option Value} {a : α} (s : Setting α)
    (ok : s.readFrom found = .ok a) : s.read (s.toValue a) = .ok a := by
  cases s with
  | wrap | lineBreak | printing | echoing | breakAt => rfl
  | engine | level =>
    cases found with
    | none =>
      cases ok
      rfl
    | some v => exact Reader.oneOf_ok ok
  | limit =>
    cases found with
    | none =>
      cases ok
      rfl
    | some v => exact Reader.positiveFloat_ok ok
  | classes => exact Reader.textDict_written (names_of_classes ok)

end Setting

end OptionHost
