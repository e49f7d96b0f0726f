import OptionHost.Proofs.Agreement
import OptionHost.Proofs.KeyIdentity

/-!
# What layers have at a path

A path of keys leads through the mappings of a layer, and may be obstructed by something else on the
way. Of many layers the last one that has something to say about a path decides what their merge has
there: that it is obstructed, a value, or a mapping. The keys of such a mapping come from all layers
that add to it, in the order in which they first appear.
-/

namespace OptionHost

/-! ## Values that are regular throughout -/

namespace Value

/-- The values that a value is made of, the keys of mappings left out. -/
def parts : Value → List Value
  | .list items | .tuple items | .set items => items
  | .dict entries => entries.map Prod.snd
  | _ => []

/-- Every mapping within a value is regular, however deep it lies. -/
inductive Regular : Value → Prop
  | intro {v : Value} (own : ∀ entries : Entries, v = .dict entries → entries.Regular)
      (parts : ∀ w ∈ v.parts, w.Regular) : v.Regular

theorem regular_dict {entries : Entries} :
    (Value.dict entries).Regular ↔ entries.Regular ∧ ∀ e ∈ entries, e.2.Regular := by
  constructor
  · rintro ⟨own, parts⟩
    exact ⟨own entries rfl, fun e mem => parts e.2 (List.mem_map_of_mem mem)⟩
  · rintro ⟨own, values⟩
    refine ⟨fun _ same => Value.dict.inj same ▸ own, fun w mem => ?_⟩
    obtain ⟨e, there, rfl⟩ := List.mem_map.mp mem
    exact values e there

theorem regular_leaf {v : Value} (plain : v.isDict = false) (single : v.parts = []) :
    v.Regular := by
  refine ⟨?_, by simp [single]⟩
  rintro entries rfl
  cases plain

theorem regular_null : Value.null.Regular := regular_leaf rfl rfl

theorem regular_bool (b : Bool) : (Value.bool b).Regular := regular_leaf rfl rfl

theorem regular_int (n : Int) : (Value.int n).Regular := regular_leaf rfl rfl

theorem regular_text (s : String) : (Value.text s).Regular := regular_leaf rfl rfl

theorem Regular.own {entries : Entries} (regular : (Value.dict entries).Regular) :
    entries.Regular :=
  (regular_dict.mp regular).1

theorem Regular.get? {entries : Entries} {key v : Value} (regular : (Value.dict entries).Regular)
    (found : entries.get? key = some v) : v.Regular := by
  obtain ⟨e, mem, -, rfl⟩ := Entries.mem_of_get? found
  exact (regular_dict.mp regular).2 e mem

/-- What passes from the mappings in a mapping to itself holds of every mapping that is regular. -/
theorem Regular.dict_induction {motive : (entries : Entries) → (Value.dict entries).Regular → Prop}
    (step : ∀ (entries : Entries) (regular : (Value.dict entries).Regular),
      (∀ (key : Value) (inner : Entries) (found : entries.get? key = some (.dict inner)),
        motive inner (regular.get? found)) → motive entries regular)
    {entries : Entries} (regular : (Value.dict entries).Regular) : motive entries regular := by
  suffices all : ∀ v : Value, v.Regular → ∀ (entries : Entries) (regular : (dict entries).Regular),
      v = .dict entries → motive entries regular from all _ regular entries regular rfl
  intro v regular
  induction regular with
  | intro own parts ih =>
    rintro entries regular rfl
    refine step entries regular fun key inner found => ?_
    obtain ⟨e, mem, -, there⟩ := Entries.mem_of_get? found
    exact ih e.2 (List.mem_map_of_mem mem) inner _ there

end Value

namespace Entries

variable {entries lower upper : Entries} {key : Value}

theorem Regular.get?_of_mem {e : Value × Value} (regular : entries.Regular) (mem : e ∈ entries) :
    entries.get? e.1 = some e.2 := by
  induction entries with
  | nil => cases mem
  | cons first rest ih =>
    rcases List.mem_cons.mp mem with rfl | there
    · exact if_pos (regular.keys e mem).itself
    · have apart := (List.pairwise_cons.mp regular.differ).1 e there
      exact (if_neg (Bool.eq_false_iff.mp apart)).trans (ih regular.tail there)

end Entries

namespace Value

open Entries (found)

/-- A mapping is laid over the entries that are beneath it, if there are any. -/
theorem laidOver_found {upper : Entries} (regular : upper.Regular) (below : Option Value) :
    (Value.dict upper).laidOver below = .dict (Entries.merge (found below) upper) := by
  rcases laidOver_dict upper below with ⟨lower, rfl, same⟩ | ⟨none, same⟩
  · exact same
  · rw [same, none, Entries.nil_merge regular.differ]

theorem isDict_laidOver (upper : Entries) (below : Option Value) :
    ((Value.dict upper).laidOver below).isDict = true := by
  rcases laidOver_dict upper below with ⟨_, _, same⟩ | ⟨_, same⟩ <;> rw [same] <;> rfl

theorem regular_found {below : Option Value} (regular : ∀ w, below = some w → w.Regular) :
    (Value.dict (found below)).Regular := by
  have empty : (Value.dict []).Regular := regular_dict.mpr ⟨.nil, by simp⟩
  cases below with
  | none => exact empty
  | some w =>
    cases w with
    | dict entries => exact regular _ rfl
    | _ => exact empty

theorem Regular.laidOver {v : Value} (regular : v.Regular) {below : Option Value}
    (regularBelow : ∀ w, below = some w → w.Regular) : (v.laidOver below).Regular := by
  induction regular generalizing below with
  | @intro v own parts ih =>
    by_cases plain : v.isDict = false
    · rw [laidOver_plain plain]
      exact ⟨own, parts⟩
    · obtain ⟨upper, rfl⟩ := exists_dict plain
      have lower := regular_found regularBelow
      have merged := lower.own.merge (own upper rfl)
      rw [laidOver_found (own upper rfl)]
      refine regular_dict.mpr ⟨merged, fun e mem => ?_⟩
      have there := merged.get?_of_mem mem
      rw [Entries.get?_merge lower.own (own upper rfl)] at there
      cases above : upper.get? e.1 with
      | none =>
        rw [above] at there
        exact lower.get? there
      | some u =>
        rw [above] at there
        obtain ⟨f, bound, -, rfl⟩ := Entries.mem_of_get? above
        rw [← Option.some.inj there]
        exact ih f.2 (List.mem_map_of_mem bound) fun w beneath => lower.get? beneath

/-! ## Paths -/

/-- The value that a path of keys leads to, if every key on the way is bound. -/
def reach? : List Value → Value → Option Value
  | [], v => some v
  | key :: rest, .dict entries => (Entries.get? key entries).bind (reach? rest)
  | _ :: _, _ => none

/-- Before the end of a path something stands in the way that is no mapping. -/
def Obstructs (path : List Value) (v : Value) : Prop :=
  ∃ before after w, path = before ++ after ∧ after ≠ [] ∧ v.reach? before = some w ∧
    w.isDict = false

variable {entries : Entries} {v : Value} {key : Value} {path rest : List Value}

theorem reach?_cons (key : Value) (rest : List Value) (entries : Entries) :
    (Value.dict entries).reach? (key :: rest) = (entries.get? key).bind (reach? rest) := rfl

theorem reach?_plain (plain : v.isDict = false) : v.reach? (key :: rest) = none := by
  cases v <;> first | rfl | cases plain

theorem not_obstructs_nil : ¬v.Obstructs [] := by
  rintro ⟨before, after, w, split, some, -⟩
  exact some (List.append_eq_nil_iff.mp split.symm).2

theorem obstructs_plain (plain : v.isDict = false) : v.Obstructs (key :: rest) :=
  ⟨[], key :: rest, v, rfl, by simp, rfl, plain⟩

theorem obstructs_cons : (Value.dict entries).Obstructs (key :: rest) ↔
    ∃ u, entries.get? key = some u ∧ u.Obstructs rest := by
  constructor
  · rintro ⟨before, after, w, split, some, reached, plain⟩
    cases before with
    | nil =>
      cases reached
      cases plain
    | cons k before =>
      obtain ⟨rfl, later⟩ := List.cons.inj split
      obtain ⟨u, bound, reached⟩ := Option.bind_eq_some_iff.mp reached
      exact ⟨u, bound, before, after, w, later, some, reached, plain⟩
  · rintro ⟨u, bound, before, after, w, rfl, some, reached, plain⟩
    exact ⟨key :: before, after, w, rfl, some, by rw [reach?_cons, bound]; exact reached, plain⟩

theorem Obstructs.reach? (obstructs : v.Obstructs path) : v.reach? path = none := by
  obtain ⟨before, after, w, rfl, some, reached, plain⟩ := obstructs
  induction before generalizing v with
  | nil =>
    cases reached
    obtain ⟨key, rest, rfl⟩ := List.exists_cons_of_ne_nil some
    exact reach?_plain plain
  | cons k before ih =>
    cases v with
    | dict entries =>
      obtain ⟨u, bound, reached⟩ := Option.bind_eq_some_iff.mp reached
      rw [List.cons_append, reach?_cons, bound]
      exact ih reached
    | _ => cases reached

theorem Regular.reach? {w : Value} (regular : v.Regular) (reached : v.reach? path = some w) :
    w.Regular := by
  induction path generalizing v with
  | nil =>
    cases reached
    exact regular
  | cons key rest ih =>
    cases v with
    | dict entries =>
      obtain ⟨u, bound, reached⟩ := Option.bind_eq_some_iff.mp reached
      exact ih (regular.get? bound) reached
    | _ => cases reached

/-- At every path where the upper of two values does not obstruct the way, it is laid over what the
lower one has there; where it does, nothing is left. -/
theorem reach?_laidOver (regular : v.Regular) {below : Option Value}
    (regularBelow : ∀ w, below = some w → w.Regular) (path : List Value) :
    (v.Obstructs path → (v.laidOver below).reach? path = none) ∧
      (¬v.Obstructs path → (v.laidOver below).reach? path =
        ((v.reach? path).map (·.laidOver (below.bind (·.reach? path)))).or
          (below.bind (·.reach? path))) := by
  induction path generalizing v below with
  | nil =>
    refine ⟨fun obstructs => absurd obstructs not_obstructs_nil, fun _ => ?_⟩
    cases below <;> rfl
  | cons key rest ih =>
    by_cases plain : v.isDict = false
    · rw [laidOver_plain plain]
      exact ⟨fun _ => reach?_plain plain, fun free => absurd (obstructs_plain plain) free⟩
    obtain ⟨upper, rfl⟩ := exists_dict plain
    have lower := regular_found regularBelow
    have beneath : below.bind (·.reach? (key :: rest)) =
        ((found below).get? key).bind (·.reach? rest) := by
      cases below with
      | none => rfl
      | some w => cases w <;> rfl
    rw [laidOver_found regular.own, reach?_cons, Entries.get?_merge lower.own regular.own, beneath,
      obstructs_cons, reach?_cons]
    cases above : upper.get? key with
    | none => simp
    | some u =>
      have under : ∀ w, (found below).get? key = some w → w.Regular := fun _ => lower.get?
      simpa using ih (regular.get? above) under

end Value

/-! ## Two layers -/

namespace Entries

/-- A layer has something to say about a path, if only that it is obstructed. -/
def Decides (path : List Value) (layer : Entries) : Prop :=
  ((Value.dict layer).reach? path).isSome = true ∨ (Value.dict layer).Obstructs path

/-- A layer has something that is no mapping at a path or on the way there. -/
def Severs (path : List Value) (layer : Entries) : Prop :=
  ∃ before after w, path = before ++ after ∧ (Value.dict layer).reach? before = some w ∧
    w.isDict = false

theorem severs_iff {path : List Value} {layer : Entries} : layer.Severs path ↔
    (Value.dict layer).Obstructs path ∨
      ∃ v, (Value.dict layer).reach? path = some v ∧ v.isDict = false := by
  constructor
  · rintro ⟨before, after, w, split, reached, plain⟩
    by_cases whole : after = []
    · obtain rfl : path = before := by rw [split, whole, List.append_nil]
      exact .inr ⟨w, reached, plain⟩
    · exact .inl ⟨before, after, w, split, whole, reached, plain⟩
  · rintro (⟨before, after, w, split, -, reached, plain⟩ | ⟨v, reached, plain⟩)
    · exact ⟨before, after, w, split, reached, plain⟩
    · exact ⟨path, [], v, (List.append_nil path).symm, reached, plain⟩

/-- The keys of the mapping that a layer has at a path. -/
def keysAt (path : List Value) (layer : Entries) : List Value :=
  keys (found ((Value.dict layer).reach? path))

variable {lower upper : Entries} {path : List Value} {v : Value}

section Merge

variable (regularLower : (Value.dict lower).Regular) (regularUpper : (Value.dict upper).Regular)

include regularLower

theorem beneath_regular (w : Value) (beneath : some (Value.dict lower) = some w) : w.Regular :=
  Option.some.inj beneath ▸ regularLower

include regularUpper

theorem regular_merge : (Value.dict (merge lower upper)).Regular :=
  regularUpper.laidOver (beneath_regular regularLower)

theorem reach?_merge_of_obstructs (obstructs : (Value.dict upper).Obstructs path) :
    (Value.dict (merge lower upper)).reach? path = none :=
  (Value.reach?_laidOver regularUpper (beneath_regular regularLower) path).1 obstructs

theorem reach?_merge (free : ¬(Value.dict upper).Obstructs path) :
    (Value.dict (merge lower upper)).reach? path =
      (((Value.dict upper).reach? path).map (·.laidOver ((Value.dict lower).reach? path))).or
        ((Value.dict lower).reach? path) :=
  (Value.reach?_laidOver regularUpper (beneath_regular regularLower) path).2 free

theorem reach?_merge_of_silent (silent : ¬upper.Decides path) :
    (Value.dict (merge lower upper)).reach? path = (Value.dict lower).reach? path := by
  obtain ⟨unbound, free⟩ := not_or.mp silent
  rw [reach?_merge regularLower regularUpper free, Option.not_isSome_iff_eq_none.mp unbound]
  rfl

theorem reach?_merge_of_reach? (reached : (Value.dict upper).reach? path = some v) :
    (Value.dict (merge lower upper)).reach? path =
      some (v.laidOver ((Value.dict lower).reach? path)) := by
  have free : ¬(Value.dict upper).Obstructs path := fun obstructs => by
    rw [obstructs.reach?] at reached
    cases reached
  rw [reach?_merge regularLower regularUpper free, reached]
  rfl

/-- Where no way is cut off, the keys of an upper mapping follow those of the lower one. -/
theorem keysAt_merge (whole : ¬upper.Severs path) :
    keysAt path (merge lower upper) =
      keysAt path lower ++ newKeys (keysAt path lower) (keysAt path upper) := by
  obtain ⟨free, unbroken⟩ := not_or.mp (severs_iff.not.mp whole)
  unfold keysAt
  rw [reach?_merge regularLower regularUpper free]
  cases above : (Value.dict upper).reach? path with
  | none => simp [found, Settings.entriesOf, keys, newKeys]
  | some u =>
    obtain ⟨entries, rfl⟩ := Value.exists_dict fun plain => unbroken ⟨u, above, plain⟩
    rw [Option.map_some, Option.some_or,
      Value.laidOver_found (regularUpper.reach? above).own]
    exact keys_merge _ entries

theorem keysAt_merge_of_severs (severs : upper.Severs path) :
    keysAt path (merge lower upper) = [] := by
  unfold keysAt
  rcases severs_iff.mp severs with obstructs | ⟨v, reached, plain⟩
  · rw [reach?_merge_of_obstructs regularLower regularUpper obstructs]
    rfl
  · rw [reach?_merge_of_reach? regularLower regularUpper reached, Value.laidOver_plain plain]
    cases v <;> first | rfl | cases plain

end Merge

/-! ## Any number of layers -/

section Fold

variable {layers : List Entries} (regularLower : (Value.dict lower).Regular)
  (regular : ∀ layer ∈ layers, (Value.dict layer).Regular)

include regularLower regular

theorem regular_foldl : (Value.dict (layers.foldl merge lower)).Regular := by
  induction layers generalizing lower with
  | nil => exact regularLower
  | cons layer rest ih =>
    exact ih (regular_merge regularLower (regular layer (by simp)))
      fun l mem => regular l (List.mem_cons_of_mem layer mem)

/-- Layers that say nothing about a path leave it as it is. -/
theorem reach?_foldl_of_silent (silent : ∀ layer ∈ layers, ¬layer.Decides path) :
    (Value.dict (layers.foldl merge lower)).reach? path = (Value.dict lower).reach? path := by
  induction layers generalizing lower with
  | nil => rfl
  | cons layer rest ih =>
    have first := regular layer (by simp)
    rw [List.foldl_cons, ih (regular_merge regularLower first)
        (fun l mem => regular l (List.mem_cons_of_mem layer mem))
        (fun l mem => silent l (List.mem_cons_of_mem layer mem)),
      reach?_merge_of_silent regularLower first (silent layer (by simp))]

theorem keysAt_foldl (whole : ∀ layer ∈ layers, ¬layer.Severs path) :
    keysAt path (layers.foldl merge lower) =
      keysAt path lower ++ newKeys (keysAt path lower) (layers.flatMap (keysAt path)) := by
  induction layers generalizing lower with
  | nil => simp [newKeys]
  | cons layer rest ih =>
    have first := regular layer (by simp)
    rw [List.foldl_cons, ih (regular_merge regularLower first)
        (fun l mem => regular l (List.mem_cons_of_mem layer mem))
        (fun l mem => whole l (List.mem_cons_of_mem layer mem)),
      keysAt_merge regularLower first (whole layer (by simp)), List.flatMap_cons, newKeys_append,
      List.append_assoc]

end Fold

theorem regular_nil : (Value.dict []).Regular := Value.regular_dict.mpr ⟨.nil, by simp⟩

theorem regular_mergeAll {layers : List Entries}
    (regular : ∀ layer ∈ layers, (Value.dict layer).Regular) :
    (Value.dict (mergeAll layers)).Regular :=
  regular_foldl regular_nil regular

theorem mergeAll_append (before after : List Entries) :
    mergeAll (before ++ after) = after.foldl merge (mergeAll before) :=
  List.foldl_append

section Last

variable {before after : List Entries} {layer : Entries}
  (regular : ∀ l ∈ before ++ layer :: after, (Value.dict l).Regular)

include regular

theorem regular_before : (Value.dict (mergeAll before)).Regular :=
  regular_mergeAll fun l mem => regular l (by simp [mem])

theorem regular_last : (Value.dict layer).Regular := regular layer (by simp)

/-- Behind the last layer that says something about a path nothing changes there. -/
theorem reach?_mergeAll_of_last (silent : ∀ l ∈ after, ¬Decides path l) :
    (Value.dict (mergeAll (before ++ layer :: after))).reach? path =
      (Value.dict (merge (mergeAll before) layer)).reach? path := by
  have first := regular_merge (regular_before regular) (regular_last regular)
  rw [mergeAll_append, List.foldl_cons]
  exact reach?_foldl_of_silent first (fun l mem => regular l (by simp [mem])) silent

end Last

/-- Behind a layer that severs a path, a mapping there begins anew. -/
theorem keysAt_mergeAll_of_severs {before : List Entries}
    (regular : ∀ l ∈ before, (Value.dict l).Regular)
    (severs : ∀ l, before.getLast? = some l → Severs path l) :
    keysAt path (mergeAll before) = [] := by
  rcases List.eq_nil_or_concat before with rfl | ⟨earlier, last, rfl⟩
  · cases path <;> rfl
  · rw [List.concat_eq_append] at regular severs ⊢
    rw [mergeAll_append, List.foldl_cons, List.foldl_nil]
    exact keysAt_merge_of_severs (regular_before regular) (regular_last regular)
      (severs last (by simp))

/-- The result of laying layers over one another from the lowest, told path by path. -/
structure Settled (layers : List Entries) (result : Entries) : Prop where
  /-- Nothing is at a path that no layer says anything about. -/
  absent : ∀ path, path ≠ [] → (∀ layer ∈ layers, ¬layer.Decides path) →
    (Value.dict result).reach? path = none
  /-- The last layer that says something about a path decides: either it obstructs the path, -/
  obstructed : ∀ path before layer after, layers = before ++ layer :: after →
    (∀ l ∈ after, ¬Decides path l) → (Value.dict layer).Obstructs path →
      (Value.dict result).reach? path = none
  /-- or it has a value there, -/
  valued : ∀ path before layer after, layers = before ++ layer :: after →
    (∀ l ∈ after, ¬Decides path l) → ∀ v, (Value.dict layer).reach? path = some v →
      v.isDict = false → (Value.dict result).reach? path = some v
  /-- or a mapping. -/
  mapping : ∀ path before layer after, layers = before ++ layer :: after →
    (∀ l ∈ after, ¬Decides path l) → ∀ v, (Value.dict layer).reach? path = some v →
      v.isDict = true → ∃ w, (Value.dict result).reach? path = some w ∧ w.isDict = true
  /-- No mapping anywhere in the result has a key twice. -/
  regular : (Value.dict result).Regular
  /-- The keys of a mapping are those of all layers behind the last one that severs its path, in
  order of their first appearance. -/
  ordered : ∀ path before after, layers = before ++ after → (∀ l ∈ after, ¬Severs path l) →
    (∀ l, before.getLast? = some l → Severs path l) →
      keysAt path result = newKeys [] (after.flatMap (keysAt path))

/-- Later layers win at every depth, and a layer without entries makes no difference. -/
theorem mergeAll_settled {layers : List Entries}
    (regular : ∀ layer ∈ layers, (Value.dict layer).Regular) :
    Settled layers (mergeAll layers) ∧ ∀ before after, layers = before ++ after →
      mergeAll (before ++ [] :: after) = mergeAll layers := by
  refine ⟨⟨?_, ?_, ?_, ?_, regular_mergeAll regular, ?_⟩, ?_⟩
  · intro path some silent
    obtain ⟨key, rest, rfl⟩ := List.exists_cons_of_ne_nil some
    exact reach?_foldl_of_silent regular_nil regular silent
  · rintro path before layer after rfl silent obstructs
    rw [reach?_mergeAll_of_last regular silent]
    exact reach?_merge_of_obstructs (regular_before regular) (regular_last regular) obstructs
  · rintro path before layer after rfl silent v reached plain
    rw [reach?_mergeAll_of_last regular silent,
      reach?_merge_of_reach? (regular_before regular) (regular_last regular) reached,
      Value.laidOver_plain plain]
  · rintro path before layer after rfl silent v reached mapping
    rw [reach?_mergeAll_of_last regular silent,
      reach?_merge_of_reach? (regular_before regular) (regular_last regular) reached]
    refine ⟨_, rfl, ?_⟩
    cases v <;> first | exact Value.isDict_laidOver _ _ | cases mapping
  · rintro path before after rfl whole severs
    have earlier : ∀ l ∈ before, (Value.dict l).Regular := fun l mem => regular l (by simp [mem])
    rw [mergeAll_append, keysAt_foldl (regular_mergeAll earlier)
      (fun l mem => regular l (by simp [mem])) whole, keysAt_mergeAll_of_severs earlier severs]
    rfl
  · rintro before after rfl
    rw [mergeAll_append, mergeAll_append]
    rfl

/-- A layer with a table of classes, one of them under a number. -/
def tabled : Entries :=
  [(.text "options", .dict [(.text "classes", .dict [(.int 1, .text "a"), (.text "b", .text "c")]),
    (.text "wrap", .bool true)])]

theorem regular_tabled : (Value.dict tabled).Regular := by
  simp [tabled, Value.regular_dict, Value.regular_text, Value.regular_bool]
  decide

/-- A layer that puts a number in the place of the table. -/
def cleared : Entries := [(.text "options", .dict [(.text "classes", .int 5)])]

theorem regular_cleared : (Value.dict cleared).Regular := by
  simp [cleared, Value.regular_dict, Value.regular_int]
  decide

/-- A layer with a table again, the number written as a truth value. -/
def restored : Entries :=
  [(.text "options", .dict [(.text "classes", .dict [(.text "y", .text "z"),
    (.bool true, .text "x")])])]

theorem regular_restored : (Value.dict restored).Regular := by
  simp [restored, Value.regular_dict, Value.regular_text]
  decide

theorem mergeAll_settled_restored :
    (∀ layer ∈ [tabled, cleared, restored], (Value.dict layer).Regular) ∧
      Settled [tabled, cleared, restored] (mergeAll [tabled, cleared, restored]) ∧
      (Value.dict (mergeAll [tabled, cleared, restored])).reach? [.text "options", .text "wrap"] =
        some (.bool true) ∧
      (Value.dict (mergeAll [tabled, cleared, restored])).reach?
        [.text "options", .text "classes", .text "b"] = none ∧
      keysAt [.text "options", .text "classes"] (mergeAll [tabled, cleared, restored]) =
        [.text "y", .bool true] ∧
      mergeAll [tabled, [], cleared, restored] = mergeAll [tabled, cleared, restored] := by
  have regular : ∀ layer ∈ [tabled, cleared, restored], (Value.dict layer).Regular := by
    simp [regular_tabled, regular_cleared, regular_restored]
  obtain ⟨settled, blank⟩ := mergeAll_settled regular
  refine ⟨regular, settled, ?_, ?_, ?_, blank [tabled] [cleared, restored] rfl⟩
  · refine settled.valued _ [] tabled [cleared, restored] rfl ?_ _ rfl rfl
    simp [Decides, cleared, restored, Value.reach?_cons, get?, Value.obstructs_cons]
  · refine settled.obstructed _ [tabled] cleared [restored] rfl ?_ ?_
    · simp [Decides, restored, Value.reach?_cons, get?, Value.obstructs_cons, Value.same,
        Value.integer?]
    · exact ⟨[.text "options", .text "classes"], [.text "b"], .int 5, rfl, by simp, rfl, rfl⟩
  · refine settled.ordered _ [tabled, cleared] [restored] rfl ?_ ?_
    · simp [severs_iff, restored, get?, Value.obstructs_cons,
        Value.not_obstructs_nil, Value.reach?, Value.isDict]
    · rintro l ⟨⟩
      exact severs_iff.mpr (.inr ⟨.int 5, rfl, rfl⟩)

end Entries

end OptionHost
