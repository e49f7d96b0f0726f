import OptionHost.Layer.File
import OptionHost.Proofs.DocumentFaults
import OptionHost.Proofs.Utf8Encoding

/-!
# Files that can be read

What comes of a file of octets, whatever they are. A malformed document and one that is no mapping
leave the layer empty, and the journal says so. Two things do not: octets that encode no text, and
a text whose document has a fault; then there is no layer.
-/

namespace OptionHost

namespace Layer

variable {files : Files} {path : String} {content : List UInt8}

/-- What the octets of the file at a path come to. -/
inductive Reads (path : String) (content : List UInt8) : Report Entries → Prop
  | mapping {s : List Char} {entries : Entries} (encoded : content = Text.encodeUtf8 s)
    (read : Yaml.readDocument (unifyLines s) = .ok (.dict entries)) :
    Reads path content ⟨[], .ok entries⟩
  | null {s : List Char} (encoded : content = Text.encodeUtf8 s)
    (read : Yaml.readDocument (unifyLines s) = .ok .null) : Reads path content ⟨[], .ok []⟩
  | noMapping {s : List Char} {v : Value} (encoded : content = Text.encodeUtf8 s)
    (read : Yaml.readDocument (unifyLines s) = .ok v) (other : v.isDict = false)
    (there : v ≠ .null) : Reads path content ⟨[noMapping path], .ok []⟩
  | malformed {s : List Char} (encoded : content = Text.encodeUtf8 s)
    (read : Yaml.readDocument (unifyLines s) = .error .malformed) :
    Reads path content ⟨[unreadable path], .ok []⟩
  | impossible {s : List Char} {f : Fault} (encoded : content = Text.encodeUtf8 s)
    (read : Yaml.readDocument (unifyLines s) = .error (.fault f))
    (origin : Yaml.Impossible (unifyLines s) f) : Reads path content ⟨[], .error f⟩
  | undecodable (noText : ∀ s, content ≠ Text.encodeUtf8 s) :
    Reads path content ⟨[], .error (.undecodable (Text.utf8Trouble content))⟩

theorem load_encoded (here : files.get? path = some (.octets content)) {s : List Char}
    (encoded : content = Text.encodeUtf8 s) :
    load files path = match Yaml.readDocument (unifyLines s) with
      | .error .malformed => ⟨[unreadable path], .ok []⟩
      | .error (.fault f) => ⟨[], .error f⟩
      | .ok v => ofDocument path v := by
  have text : readText content = .ok (unifyLines s) := by
    rw [readText, Text.decodeUtf8?_eq_some_iff.mpr encoded]
  simp only [load, here, text]
  change Report.bind ⟨[], .ok (unifyLines s)⟩ _ = _
  simp only [Report.bind, List.nil_append]
  rcases Yaml.readDocument (unifyLines s) with (_ | _) | _ <;> rfl

theorem load_undecodable (here : files.get? path = some (.octets content))
    (noText : ∀ s, content ≠ Text.encodeUtf8 s) :
    load files path = ⟨[], .error (.undecodable (Text.utf8Trouble content))⟩ := by
  have text : readText content = .error (.undecodable (Text.utf8Trouble content)) := by
    rw [readText, Text.decodeUtf8?_eq_none_iff.mpr noText]
  simp only [load, here, text]
  rfl

theorem ofDocument_other {v : Value} (other : v.isDict = false) (there : v ≠ .null) :
    ofDocument path v = ⟨[noMapping path], .ok []⟩ := by
  cases v with
  | null => exact absurd rfl there
  | dict => cases other
  | _ => rfl

theorem reads_load (here : files.get? path = some (.octets content)) :
    Reads path content (load files path) := by
  by_cases encodes : ∃ s, content = Text.encodeUtf8 s
  · obtain ⟨s, encoded⟩ := encodes
    rw [load_encoded here encoded]
    split
    next read => exact .malformed encoded read
    next f read => exact .impossible encoded read (Yaml.impossible_of_readDocument read)
    next v read =>
      cases v with
      | null => exact .null encoded read
      | dict entries => exact .mapping encoded read
      | _ => exact .noMapping encoded read rfl (by rintro ⟨⟩)
  · rw [load_undecodable here (not_exists.mp encodes)]
    exact .undecodable (not_exists.mp encodes)

theorem Reads.load_eq {r : Report Entries} (reads : Reads path content r)
    (here : files.get? path = some (.octets content)) : load files path = r := by
  cases reads with
  | mapping encoded read | null encoded read =>
    rw [load_encoded here encoded, read]
    rfl
  | malformed encoded read | impossible encoded read => rw [load_encoded here encoded, read]
  | noMapping encoded read other there =>
    rw [load_encoded here encoded, read]
    exact ofDocument_other other there
  | undecodable noText => exact load_undecodable here noText

/-- The layer that a file is to give: the mapping of its document, or nothing. -/
def readable (content : List UInt8) : Entries :=
  match (Text.decodeUtf8? content).map (Yaml.readDocument ∘ unifyLines) with
  | some (.ok (.dict entries)) => entries
  | _ => []

theorem readable_of_ok {s : List Char} {v : Value} (encoded : content = Text.encodeUtf8 s)
    (read : Yaml.readDocument (unifyLines s) = .ok v) :
    (ofDocument path v).outcome = .ok (readable content) := by
  rw [readable, Text.decodeUtf8?_eq_some_iff.mpr encoded, Option.map_some, Function.comp, read]
  cases v <;> rfl

theorem outcome_eq_readable_iff (here : files.get? path = some (.octets content)) :
    (load files path).outcome = .ok (readable content) ↔
      ∃ s, content = Text.encodeUtf8 s ∧
        ∀ f, Yaml.readDocument (unifyLines s) ≠ .error (.fault f) := by
  constructor
  · intro loaded
    have reads := reads_load here
    generalize load files path = r at loaded reads
    cases reads with
    | mapping encoded read | null encoded read | noMapping encoded read | malformed encoded read =>
      exact ⟨_, encoded, by simp [read]⟩
    | impossible | undecodable => cases loaded
  · rintro ⟨s, encoded, possible⟩
    rw [load_encoded here encoded]
    split
    next read =>
      rw [readable, Text.decodeUtf8?_eq_some_iff.mpr encoded, Option.map_some, Function.comp, read]
    next f read => exact absurd read (possible f)
    next v read => exact readable_of_ok encoded read

/-- A file of octets gives the layer that it is to give exactly if it is a text without a fault;
otherwise there is no layer, and the fault is of one of seven classes. -/
theorem load_octets (files : Files) (path : String) (content : List UInt8)
    (here : files.get? path = some (.octets content)) :
    (∀ r, load files path = r ↔ Reads path content r) ∧
      ((load files path).outcome = .ok (readable content) ↔
        ∃ s, content = Text.encodeUtf8 s ∧
          ∀ f, Yaml.readDocument (unifyLines s) ≠ .error (.fault f)) ∧
      ∀ f, (load files path).outcome = .error f →
        f.className = "UnicodeDecodeError" ∨ f.className ∈ Yaml.faultClasses := by
  refine ⟨fun r => ?_, outcome_eq_readable_iff here, fun f failed => ?_⟩
  · constructor
    · rintro rfl
      exact reads_load here
    · exact fun reads => reads.load_eq here
  · have reads := reads_load here
    generalize load files path = r at failed reads
    cases reads with
    | impossible _ _ origin =>
      cases failed
      exact .inr origin.className_mem
    | undecodable =>
      cases failed
      exact .inl rfl
    | _ => cases failed

/-- A file that is no text, and one whose document has a date that is none. -/
theorem load_octets_spoiled :
    let date := Text.encodeUtf8 "d: 2020-13-45".toList
    let files : Files := [("a.yaml", .octets [0xFF]), ("b.yaml", .octets date)]
    files.get? "a.yaml" = some (.octets [0xFF]) ∧
      load files "a.yaml" = ⟨[], .error (.undecodable
        "'utf-8' codec can't decode byte 0xff in position 0: invalid start byte")⟩ ∧
      files.get? "b.yaml" = some (.octets date) ∧
      load files "b.yaml" = ⟨[], .error (.wrongValue (.stated "month must be in 1..12"))⟩ := by
  intro date files
  have noText : ∀ s, [0xFF] ≠ Text.encodeUtf8 s := Text.decodeUtf8?_eq_none_iff.mp rfl
  have trouble : Text.utf8Trouble [0xFF] =
      "'utf-8' codec can't decode byte 0xff in position 0: invalid start byte" := by decide
  have read : Yaml.readDocument (unifyLines "d: 2020-13-45".toList) =
      .error (.fault (.wrongValue (.stated "month must be in 1..12"))) := by cbv
  refine ⟨rfl, ?_, rfl, ?_⟩
  · exact ((load_octets files "a.yaml" [0xFF] rfl).1 _).mpr (trouble ▸ .undecodable noText)
  · exact ((load_octets files "b.yaml" date rfl).1 _).mpr
      (.impossible rfl read (Yaml.impossible_of_readDocument read))

end Layer

end OptionHost
