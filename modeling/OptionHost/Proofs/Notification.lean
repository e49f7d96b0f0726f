import OptionHost.Proofs.OptionScript
import OptionHost.Proofs.StoreHistory

/-!
# What listeners hear

A listener that writes an option while it is being told of a change starts another round of news,
which is over before the first one goes on. So a listener further down the line hears of the later
change first. Every change still reaches every listener once, unless its telling breaks off; it
reaches a listener in the order in which the store changed if no change is made while the listener
has yet to hear of an earlier one.
-/

namespace OptionHost

open Act
open Host (Conduct Telling)

/-! ## Changes and news -/

def Entry.commit? (o : OptionName) : Entry → Option Change
  | .stored _ (some c) => if c.option = o ∧ c.isReal = true then some c else none
  | _ => none

def Entry.news? (id : ListenerId) (o : OptionName) : Entry → Option Change
  | .notified other c => if other = id ∧ c.option = o then some c else none
  | _ => none

@[simp]
theorem Entry.commit?_cut (o : OptionName) (id : ListenerId) (c : Change) :
    Entry.commit? o (.cut id c) = none :=
  rfl

@[simp]
theorem Entry.news?_cut (id : ListenerId) (o : OptionName) (other : ListenerId) (c : Change) :
    Entry.news? id o (.cut other c) = none :=
  rfl

/-- The changes that were made to an option, in order. -/
def commits (o : OptionName) (es : List Entry) : List Change := es.filterMap (Entry.commit? o)

/-- The changes of an option that a listener was told of, in order. -/
def news (id : ListenerId) (o : OptionName) (es : List Entry) : List Change :=
  es.filterMap (Entry.news? id o)

/-- Each change begins where the one before it ended. -/
def Chained : Value → List Change → Value → Prop
  | v, [], w => v = w
  | v, c :: cs, w => c.old = v ∧ Chained c.new cs w

/-- The listener is registered once, in every state that the store was put into. -/
def Registered (id : ListenerId) (es : List Entry) : Prop :=
  ∀ t write, Entry.stored t write ∈ es → t.listeners.count id = 1

/-- The listener is the first to be told, in every state that the store was put into. -/
def Leads (id : ListenerId) (es : List Entry) : Prop :=
  ∀ t write, Entry.stored t write ∈ es → t.listeners.head? = some id

/-- Whenever a change is made, the listener was told of as many as were made before. -/
def Prompt (id : ListenerId) (o : OptionName) (es : List Entry) : Prop :=
  ∀ before t c after, es = before ++ .stored t (some c) :: after → c.option = o →
    c.isReal = true → (news id o before).length = (commits o before).length

/-- No telling of a change of the option broke off. -/
def Unbroken (o : OptionName) (es : List Entry) : Prop :=
  ∀ id c, Entry.cut id c ∈ es → c.option ≠ o

/-- What was written to the journal of a host since another one. -/
def Host.since (h' h : Host) : List Entry :=
  (h'.journal.take (h'.journal.length - h.journal.length)).reverse

theorem Host.since_eq {h h' : Host} {es : List Entry}
    (grown : h'.journal = es.reverse ++ h.journal) : h'.since h = es := by
  have length : h'.journal.length - h.journal.length = es.reverse.length := by
    rw [grown, List.length_append]
    omega
  unfold since
  rw [length, grown, List.take_left, List.reverse_reverse]

theorem chained_append {v w : Value} {cs ds : List Change} :
    Chained v (cs ++ ds) w ↔ ∃ u, Chained v cs u ∧ Chained u ds w := by
  induction cs generalizing v with
  | nil =>
    constructor
    · exact fun chained => ⟨v, rfl, chained⟩
    · rintro ⟨u, rfl, chained⟩
      exact chained
  | cons c cs ih =>
    constructor
    · rintro ⟨old, chained⟩
      obtain ⟨u, first, rest⟩ := ih.mp chained
      exact ⟨u, ⟨old, first⟩, rest⟩
    · rintro ⟨u, ⟨old, first⟩, rest⟩
      exact ⟨old, ih.mpr ⟨u, first, rest⟩⟩

section

variable {id : ListenerId} {o : OptionName} {es ds : List Entry} {e : Entry}

theorem commits_append : commits o (es ++ ds) = commits o es ++ commits o ds :=
  List.filterMap_append

theorem news_append : news id o (es ++ ds) = news id o es ++ news id o ds :=
  List.filterMap_append

theorem commits_cons : commits o (e :: es) = (e.commit? o).toList ++ commits o es := by
  unfold commits
  rw [List.filterMap_cons]
  cases e.commit? o <;> rfl

theorem news_cons : news id o (e :: es) = (e.news? id o).toList ++ news id o es := by
  unfold news
  rw [List.filterMap_cons]
  cases e.news? id o <;> rfl

end

/-! ## The order of news -/

/-- An entry that is about no state of the store and no listener. -/
def Entry.isAside (e : Entry) : Prop := e.store? = none ∧ e.event? = none ∧ e.cut? = none

/-- What can be written to a journal while parties have yet to be told of a change. Each is told in
turn, and what it does is done before the next one is told. Where the telling breaks off, nobody is
left to be told of the change. -/
inductive Story : List (ListenerId × Change) → List Entry → Prop where
  | nil : Story [] []
  | aside {owed : List (ListenerId × Change)} {e : Entry} {es : List Entry} (aside : e.isAside)
      (rest : Story owed es) : Story owed (e :: es)
  | kept {t : Store} {es : List Entry} (rest : Story [] es) : Story [] (.stored t none :: es)
  | wrote {t : Store} {c : Change} {es : List Entry}
      (rest : Story ((t.audience c).map fun id => (id, c)) es) :
      Story [] (.stored t (some c) :: es)
  | told {id : ListenerId} {c : Change} {owed : List (ListenerId × Change)}
      {during es : List Entry} (heard : Story [] during) (rest : Story owed es) :
      Story ((id, c) :: owed) (.notified id c :: (during ++ es))
  | broke {id : ListenerId} {c : Change} {ids : List ListenerId} {during es : List Entry}
      (heard : Story [] during) (rest : Story [] es) :
      Story ((id :: ids).map fun id => (id, c)) (.notified id c :: (during ++ .cut id c :: es))

namespace Story

theorem append {owed : List (ListenerId × Change)} {es ds : List Entry} (first : Story owed es)
    (rest : Story [] ds) : Story owed (es ++ ds) := by
  induction first with
  | nil => exact rest
  | aside aside _ ih => exact .aside aside ih
  | kept _ ih => exact .kept ih
  | wrote _ ih => exact .wrote ih
  | @told id c owed during es heard _ _ ih =>
    have split : Entry.notified id c :: (during ++ es) ++ ds =
        .notified id c :: (during ++ (es ++ ds)) := by simp
    rw [split]
    exact .told heard ih
  | @broke id c ids during es heard _ _ ih =>
    have split : Entry.notified id c :: (during ++ .cut id c :: es) ++ ds =
        .notified id c :: (during ++ .cut id c :: (es ++ ds)) := by simp
    rw [split]
    exact .broke heard ih

theorem isAside_of_isQuiet {e : Entry} (quiet : e.isQuiet = true) : e.isAside := by
  cases e with
  | stored store write => cases quiet
  | notified id change => cases quiet
  | cut id change => cases quiet
  | _ => exact ⟨rfl, rfl, rfl⟩

end Story

/-- The journal of the second host goes on with a story in which nobody is left to be told. -/
def Host.Tells (h h' : Host) : Prop :=
  ∃ es, h'.journal = es.reverse ++ h.journal ∧ Story [] es

namespace Host.Tells

variable {h h' h₁ h₂ : Host}

theorem of_same (journal : h'.journal = h.journal) : h.Tells h' := ⟨[], journal, .nil⟩

theorem noted {e : Entry} (aside : e.isAside) (journal : h'.journal = e :: h.journal) :
    h.Tells h' :=
  ⟨[e], journal, .aside aside .nil⟩

theorem trans (first : h.Tells h₁) (second : h₁.Tells h₂) : h.Tells h₂ := by
  obtain ⟨es, grown, story⟩ := first
  obtain ⟨ds, further, later⟩ := second
  refine ⟨es ++ ds, ?_, story.append later⟩
  rw [further, grown]
  simp

theorem telling {c : Change} {ids : List ListenerId} (telling : Telling Host.Tells c ids h h') :
    ∃ es, h'.journal = es.reverse ++ h.journal ∧ Story (ids.map fun id => (id, c)) es := by
  induction telling with
  | done h => exact ⟨[], rfl, .nil⟩
  | @noted ids h h' e quiet _ ih =>
    obtain ⟨es, grown, story⟩ := ih
    refine ⟨e :: es, ?_, .aside (Story.isAside_of_isQuiet quiet) story⟩
    rw [grown]
    simp
  | @told id ids h h₁ h₂ heard _ ih =>
    obtain ⟨during, grown, story⟩ := heard
    obtain ⟨es, further, rest⟩ := ih
    refine ⟨.notified id c :: (during ++ es), ?_, .told story rest⟩
    rw [further, grown]
    simp
  | @cut id ids h h₁ heard =>
    obtain ⟨during, grown, story⟩ := heard
    refine ⟨.notified id c :: (during ++ [.cut id c]), ?_, .broke story .nil⟩
    rw [grown]
    simp

theorem audience_eq {s t : Store} {option value : Value} {c : Change}
    (written : s.write option value = .ok (c, t)) : t.audience c = s.audience c := by
  obtain ⟨values, pattern, name, pattern', -, -, -, -, rfl, -⟩ := Store.write_cases written
  rfl

instance : Conduct Host.Tells where
  refl _ := of_same rfl
  trans := trans
  noted _ _ quiet := noted (Story.isAside_of_isQuiet quiet) rfl
  stored _ := ⟨[_], rfl, .kept .nil⟩
  wrote {h h' _ _ c t} written told := by
    obtain ⟨es, grown, story⟩ := telling told
    rw [← audience_eq written] at story
    refine ⟨.stored t (some c) :: es, ?_, .wrote story⟩
    rw [grown]
    simp
  levelSet _ _ := of_same rfl
  bridgeOpened _ := of_same rfl
  bridgeDetached _ _ := of_same rfl
  runnerOpened _ _ _ := of_same rfl
  runnerClosed _ := of_same rfl
  listenerAdded _ _ _ := of_same rfl
  accessed _ _ called a outcome _ :=
    called.trans (noted (e := .accessed _ a outcome) ⟨rfl, rfl, rfl⟩ rfl)
  evaluated _ ran rest := by
    exact trans (trans (of_same rfl) ran) (trans (of_same rfl) rest)

end Host.Tells

/-! ## Who hears what -/

/-- The changes of an option that a listener has yet to be told of. -/
def owedTo (id : ListenerId) (o : OptionName) (owed : List (ListenerId × Change)) : List Change :=
  owed.filterMap fun e => if e.1 = id ∧ e.2.option = o then some e.2 else none

section

variable {id : ListenerId} {o : OptionName} {owed : List (ListenerId × Change)}
  {es ds : List Entry}

theorem Entry.isAside.commit? {e : Entry} (aside : e.isAside) : e.commit? o = none := by
  cases e with
  | stored t write => cases aside.1
  | _ => rfl

theorem Entry.isAside.news? {e : Entry} (aside : e.isAside) : e.news? id o = none := by
  cases e with
  | notified other c => cases aside.2.1
  | _ => rfl

theorem owedTo_cons (other : ListenerId) (c : Change) :
    owedTo id o ((other, c) :: owed) =
      (Entry.news? id o (.notified other c)).toList ++ owedTo id o owed := by
  by_cases mine : other = id ∧ c.option = o
  · simp [owedTo, Entry.news?, mine]
  · simp [owedTo, Entry.news?, mine]

theorem owedTo_round (ids : List ListenerId) (c : Change) :
    owedTo id o (ids.map fun id => (id, c)) =
      if c.option = o then List.replicate (ids.count id) c else [] := by
  induction ids with
  | nil => simp [owedTo]
  | cons other ids ih =>
    rw [List.map_cons, owedTo_cons, ih]
    by_cases named : c.option = o
    · by_cases same : other = id
      · simp [Entry.news?, named, same, List.replicate_succ]
      · simp [Entry.news?, named, same]
    · simp [Entry.news?, named]

/-- A party that is registered once is told of a change once, if it is one. -/
theorem owedTo_audience {t : Store} (c : Change) (once : t.listeners.count id = 1) :
    owedTo id o ((t.audience c).map fun id => (id, c)) =
      (Entry.commit? o (.stored t (some c))).toList := by
  rw [owedTo_round]
  unfold Store.audience Entry.commit?
  by_cases named : c.option = o
  · by_cases real : c.isReal = true
    · simp [named, real, once]
    · simp [named, real]
  · simp [named]

theorem owedTo_of_absent (absent : ∀ e ∈ owed, e.1 ≠ id) : owedTo id o owed = [] := by
  refine List.filterMap_eq_nil_iff.mpr fun e member => ?_
  exact if_neg fun same => absent e member same.1

theorem Registered.mono (registered : Registered id es) (part : ∀ e ∈ ds, e ∈ es) :
    Registered id ds :=
  fun t write member => registered t write (part _ member)

theorem Unbroken.mono (unbroken : Unbroken o es) (part : ∀ e ∈ ds, e ∈ es) : Unbroken o ds :=
  fun id c member => unbroken id c (part _ member)

/-- A change of another option is owed to nobody. -/
theorem owedTo_other (ids : List ListenerId) {c : Change} (other : c.option ≠ o) :
    owedTo id o (ids.map fun id => (id, c)) = [] := by
  rw [owedTo_round, if_neg other]

theorem Entry.news?_other (heard : ListenerId) {c : Change} (other : c.option ≠ o) :
    Entry.news? id o (.notified heard c) = none :=
  if_neg fun same => other same.2

theorem Leads.mono (leads : Leads id es) (part : ∀ e ∈ ds, e ∈ es) : Leads id ds :=
  fun t write member => leads t write (part _ member)

/-- Every change reaches a listener that is registered once, and reaches it once. -/
theorem Story.news_perm (story : Story owed es) (registered : Registered id es)
    (unbroken : Unbroken o es) : (news id o es).Perm (owedTo id o owed ++ commits o es) := by
  induction story with
  | nil => exact .refl _
  | @aside owed e es aside _ ih =>
    have later := ih (registered.mono (by simp +contextual)) (unbroken.mono (by simp +contextual))
    simpa [news_cons, commits_cons, aside.news?, aside.commit?] using later
  | @kept t es _ ih =>
    have later := ih (registered.mono (by simp +contextual)) (unbroken.mono (by simp +contextual))
    simpa [news_cons, commits_cons, Entry.news?, Entry.commit?] using later
  | @wrote t c es _ ih =>
    have later := ih (registered.mono (by simp +contextual)) (unbroken.mono (by simp +contextual))
    rw [owedTo_audience c (registered t (some c) (by simp))] at later
    rw [news_cons, commits_cons]
    exact later
  | @told other c owed during es _ _ ih₁ ih₂ =>
    have first := ih₁ (registered.mono (by simp +contextual)) (unbroken.mono (by simp +contextual))
    have later := ih₂ (registered.mono (by simp +contextual)) (unbroken.mono (by simp +contextual))
    rw [news_cons, commits_cons, owedTo_cons, news_append, commits_append, List.append_assoc]
    refine List.Perm.append_left _ ((first.append later).trans ?_)
    -- What was owed before moves past what happened in between.
    have past : (commits o during ++ (owedTo id o owed ++ commits o es)).Perm
        (owedTo id o owed ++ (commits o during ++ commits o es)) := by
      rw [← List.append_assoc, ← List.append_assoc]
      exact List.perm_append_comm.append_right _
    exact past
  | @broke other c ids during es _ _ ih₁ ih₂ =>
    have elsewhere : c.option ≠ o := unbroken other c (by simp)
    have first := ih₁ (registered.mono (by simp +contextual)) (unbroken.mono (by simp +contextual))
    have later := ih₂ (registered.mono (by simp +contextual)) (unbroken.mono (by simp +contextual))
    rw [owedTo_other _ elsewhere]
    simpa [news_cons, commits_cons, news_append, commits_append,
      Entry.news?_other other elsewhere, Entry.commit?, owedTo] using first.append later

/-- Whenever a change is made, as many were heard of as were made, earlier ones included. -/
def Abreast (id : ListenerId) (o : OptionName) (heard made : Nat) (es : List Entry) : Prop :=
  ∀ before t c after, es = before ++ .stored t (some c) :: after → c.option = o →
    c.isReal = true → heard + (news id o before).length = made + (commits o before).length

theorem Prompt.abreast (prompt : Prompt id o es) : Abreast id o 0 0 es := by
  intro before t c after split named real
  rw [prompt before t c after split named real]

namespace Abreast

variable {heard made : Nat}

theorem take (abreast : Abreast id o heard made (es ++ ds)) : Abreast id o heard made es := by
  intro before t c after split named real
  refine abreast before t c (after ++ ds) ?_ named real
  rw [split]
  simp

theorem drop (abreast : Abreast id o heard made (es ++ ds)) :
    Abreast id o (heard + (news id o es).length) (made + (commits o es).length) ds := by
  intro before t c after split named real
  have counted := abreast (es ++ before) t c after (by rw [split]; simp) named real
  rw [news_append, commits_append, List.length_append, List.length_append] at counted
  omega

theorem tail {e : Entry} (abreast : Abreast id o heard made (e :: es)) :
    Abreast id o (heard + (e.news? id o).toList.length) (made + (e.commit? o).toList.length)
      es := by
  have rest := Abreast.drop (show Abreast id o heard made ([e] ++ es) from abreast)
  rw [news_cons, commits_cons] at rest
  simpa [news, commits] using rest

end Abreast

/-- A listener that is behind stays behind: nothing is made and nothing is heard. -/
theorem Story.behind (story : Story owed es) (registered : Registered id es)
    (unbroken : Unbroken o es) (nothing : owedTo id o owed = []) {heard made : Nat}
    (abreast : Abreast id o heard made es) (behind : heard < made) :
    news id o es = [] ∧ commits o es = [] := by
  induction story with
  | nil => exact ⟨rfl, rfl⟩
  | @aside owed e es aside _ ih =>
    have rest := abreast.tail
    rw [aside.news?, aside.commit?] at rest
    have later := ih (registered.mono (by simp +contextual)) (unbroken.mono (by simp +contextual))
      nothing rest
    simpa [news_cons, commits_cons, aside.news?, aside.commit?] using later
  | @kept t es _ ih =>
    have later := ih (registered.mono (by simp +contextual)) (unbroken.mono (by simp +contextual))
      nothing abreast.tail
    simpa [news_cons, commits_cons, Entry.news?, Entry.commit?] using later
  | @wrote t c es _ ih =>
    have unmade : Entry.commit? o (.stored t (some c)) = none := by
      refine if_neg fun made => ?_
      have counted := abreast [] t c es rfl made.1 made.2
      simp only [news, commits, List.filterMap_nil, List.length_nil] at counted
      omega
    have nobody := owedTo_audience (o := o) c (registered t (some c) (by simp))
    have rest := abreast.tail
    rw [unmade] at nobody rest
    have later := ih (registered.mono (by simp +contextual)) (unbroken.mono (by simp +contextual))
      nobody rest
    simpa [news_cons, commits_cons, Entry.news?, unmade] using later
  | @told other c owed during es _ _ ih₁ ih₂ =>
    rw [owedTo_cons, List.append_eq_nil_iff, Option.toList_eq_nil_iff] at nothing
    obtain ⟨unheard, nothing⟩ := nothing
    have rest := abreast.tail
    rw [unheard] at rest
    obtain ⟨heard₁, made₁⟩ := ih₁ (registered.mono (by simp +contextual))
      (unbroken.mono (by simp +contextual)) rfl rest.take
    have after := rest.drop
    rw [heard₁, made₁] at after
    obtain ⟨heard₂, made₂⟩ := ih₂ (registered.mono (by simp +contextual))
      (unbroken.mono (by simp +contextual)) nothing after
    simp [news_cons, commits_cons, news_append, commits_append, unheard, heard₁, made₁, heard₂,
      made₂, Entry.commit?]
  | @broke other c ids during es _ _ ih₁ ih₂ =>
    have unheard : Entry.news? id o (.notified other c) = none :=
      Entry.news?_other other (unbroken other c (by simp))
    have rest := abreast.tail
    rw [unheard] at rest
    obtain ⟨heard₁, made₁⟩ := ih₁ (registered.mono (by simp +contextual))
      (unbroken.mono (by simp +contextual)) rfl rest.take
    have after := rest.drop
    rw [heard₁, made₁] at after
    obtain ⟨heard₂, made₂⟩ := ih₂ (registered.mono (by simp +contextual))
      (unbroken.mono (by simp +contextual)) rfl after.tail
    simp [news_cons, commits_cons, news_append, commits_append, unheard, heard₁, made₁, heard₂,
      made₂, Entry.commit?]

/-- A listener that is never behind when a change is made hears of the changes in order. -/
theorem Story.news_of_abreast (story : Story owed es) (registered : Registered id es)
    (unbroken : Unbroken o es) (single : (owedTo id o owed).length ≤ 1) {heard made : Nat}
    (abreast : Abreast id o heard made es) (even : made = heard + (owedTo id o owed).length) :
    news id o es = owedTo id o owed ++ commits o es := by
  induction story generalizing heard made with
  | nil => rfl
  | @aside owed e es aside _ ih =>
    have rest := abreast.tail
    rw [aside.news?, aside.commit?] at rest
    have later := ih (registered.mono (by simp +contextual)) (unbroken.mono (by simp +contextual))
      single rest even
    simpa [news_cons, commits_cons, aside.news?, aside.commit?] using later
  | @kept t es _ ih =>
    have later := ih (registered.mono (by simp +contextual)) (unbroken.mono (by simp +contextual))
      single abreast.tail even
    simpa [news_cons, commits_cons, Entry.news?, Entry.commit?] using later
  | @wrote t c es _ ih =>
    have audience := owedTo_audience (o := o) c (registered t (some c) (by simp))
    have later := ih (registered.mono (by simp +contextual)) (unbroken.mono (by simp +contextual))
      ?_ abreast.tail ?_
    · rw [news_cons, commits_cons, ← audience]
      exact later
    · rw [audience]
      cases Entry.commit? o (.stored t (some c)) <;> simp
    · rw [audience, even]
      simp [owedTo, Entry.news?]
  | @told other c owed during es story _ ih₁ ih₂ =>
    have first : Registered id during := registered.mono (by simp +contextual)
    have second : Registered id es := registered.mono (by simp +contextual)
    have whole : Unbroken o during := unbroken.mono (by simp +contextual)
    have whole₂ : Unbroken o es := unbroken.mono (by simp +contextual)
    have rest := abreast.tail
    rw [owedTo_cons, List.length_append] at single even
    have unmade : Entry.commit? o (.notified other c) = none := rfl
    rw [unmade] at rest
    rw [news_cons, commits_cons, owedTo_cons, news_append, commits_append, unmade]
    rcases Nat.eq_zero_or_pos (owedTo id o owed).length with none_ | one
    · have nothing : owedTo id o [] = [] := rfl
      have heard₁ := ih₁ first whole (by simp [nothing]) rest.take (by simp [nothing]; omega)
      rw [nothing, List.nil_append] at heard₁
      have after := rest.drop
      rw [heard₁] at after
      have heard₂ := ih₂ second whole₂ (by omega) after (by simp; omega)
      rw [heard₁, heard₂, List.length_eq_zero_iff.mp none_]
      simp
    · have unheard : (Entry.news? id o (.notified other c)).toList.length = 0 := by omega
      obtain ⟨heard₁, made₁⟩ := story.behind first whole rfl rest.take (by simp; omega)
      have after := rest.drop
      rw [heard₁, made₁] at after
      have heard₂ := ih₂ second whole₂ (by omega) after (by simp; omega)
      rw [heard₁, made₁, heard₂]
      simp
  | @broke other c ids during es _ _ ih₁ ih₂ =>
    have elsewhere : c.option ≠ o := unbroken other c (by simp)
    have nothing : owedTo id o [] = [] := rfl
    rw [owedTo_other _ elsewhere] at even ⊢
    have rest := abreast.tail
    rw [Entry.news?_other other elsewhere] at rest
    have heard₁ := ih₁ (registered.mono (by simp +contextual))
      (unbroken.mono (by simp +contextual)) (by simp [nothing]) rest.take
      (by simpa [nothing, Entry.commit?] using even)
    rw [nothing, List.nil_append] at heard₁
    have after := rest.drop
    rw [heard₁] at after
    have heard₂ := ih₂ (registered.mono (by simp +contextual))
      (unbroken.mono (by simp +contextual)) (by simp [nothing]) after.tail
      (by simpa [nothing, Entry.commit?, Entry.news?] using even)
    simp [news_cons, commits_cons, news_append, commits_append, heard₁, heard₂, nothing,
      Entry.news?_other other elsewhere, Entry.commit?]

/-- A listener that is told first hears of the changes in order, whatever breaks off behind it. -/
theorem Story.news_of_leads (story : Story owed es) (registered : Registered id es)
    (leads : Leads id es) (first : ∀ e ∈ owed.tail, e.1 ≠ id) :
    news id o es = owedTo id o owed ++ commits o es := by
  induction story with
  | nil => rfl
  | @aside owed e es aside _ ih =>
    have later :=
      ih (registered.mono (by simp +contextual)) (leads.mono (by simp +contextual)) first
    simpa [news_cons, commits_cons, aside.news?, aside.commit?] using later
  | @kept t es _ ih =>
    have later :=
      ih (registered.mono (by simp +contextual)) (leads.mono (by simp +contextual)) first
    simpa [news_cons, commits_cons, Entry.news?, Entry.commit?] using later
  | @wrote t c es _ ih =>
    have once := registered t (some c) (by simp)
    have head := leads t (some c) (by simp)
    have others : ∀ e ∈ ((t.audience c).map fun id => (id, c)).tail, e.1 ≠ id := by
      obtain ⟨rest, split⟩ := List.head?_eq_some_iff.mp head
      have absent : id ∉ rest := by
        rw [split, List.count_cons_self] at once
        exact List.count_eq_zero.mp (by omega)
      unfold Store.audience
      rw [split]
      split
      · rintro e member rfl
        obtain ⟨other, listed, rfl⟩ := List.mem_map.mp member
        exact absent listed
      · rintro e ⟨⟩
    have later := ih (registered.mono (by simp +contextual)) (leads.mono (by simp +contextual))
      others
    rw [owedTo_audience c once] at later
    rw [news_cons, commits_cons]
    exact later
  | @told other c owed during es _ _ ih₁ ih₂ =>
    have heard₁ := ih₁ (registered.mono (by simp +contextual))
      (leads.mono (by simp +contextual)) (by simp)
    have heard₂ := ih₂ (registered.mono (by simp +contextual))
      (leads.mono (by simp +contextual))
      (fun e member => first e (List.mem_of_mem_tail member))
    have nothing : owedTo id o owed = [] := owedTo_of_absent first
    rw [news_cons, commits_cons, owedTo_cons, nothing, news_append, commits_append, heard₁, heard₂,
      nothing]
    simp [owedTo, Entry.commit?]
  | @broke other c ids during es _ _ ih₁ ih₂ =>
    have heard₁ := ih₁ (registered.mono (by simp +contextual))
      (leads.mono (by simp +contextual)) (by simp)
    have heard₂ := ih₂ (registered.mono (by simp +contextual))
      (leads.mono (by simp +contextual)) (by simp)
    have nothing : owedTo id o (ids.map fun id => (id, c)) = [] := owedTo_of_absent first
    rw [news_cons, commits_cons, List.map_cons, owedTo_cons, nothing, news_append, commits_append,
      news_cons, commits_cons, heard₁, heard₂]
    simp [owedTo, Entry.commit?]

end

/-! ## The chain of changes -/

namespace Store

variable {s t : Store} {classes : Entries}

/-- A write that makes no difference writes the value that is there. -/
theorem write_unreal (typed : ∀ values pattern, s.condition = .ready values pattern → values.Typed)
    {option value : Value} {c : Change} (written : s.write option value = .ok (c, t))
    (unreal : c.isReal = false) : c.new = c.old := by
  obtain ⟨values, pattern, name, pattern', ready, named, asked, rfl, -, -⟩ := write_cases written
  have typed := typed values pattern ready
  have same : (values.get name).same value = true := by simpa [Change.isReal] using unreal
  obtain ⟨rfl, isText, -⟩ | ⟨other, isBool⟩ := admits_cases named asked
  · obtain ⟨held, breakAt⟩ := typed.breakAt
    have held_ : values.get .breakAt = .text held := breakAt
    cases value with
    | text selected =>
      rw [held_, Value.same_text, beq_iff_eq] at same
      rw [held_, same]
    | _ => cases isText
  · have held : ∃ b, values.get name = .bool b := by
      cases name with
      | wrap => exact typed.wrap
      | lineBreak => exact typed.lineBreak
      | breakAt => exact absurd rfl other
    obtain ⟨b, held⟩ := held
    cases value with
    | bool written =>
      rw [held, Value.same_bool, beq_iff_eq] at same
      rw [held, same]
    | _ => cases isBool

theorem Step.chained {write : Option Change} (step : s.Step write t) (sound : s.Sound classes)
    (begun : s.stage ≠ .uninitialized) {values' : OptionValues} {pattern' : Pattern}
    (ready : t.condition = .ready values' pattern') :
    ∃ values pattern, s.condition = .ready values pattern ∧
      ∀ o, Chained (values.get o) (commits o [.stored t write]) (values'.get o) := by
  cases step with
  | start e =>
    obtain ⟨_, rfl⟩ | ⟨uninitialized, -⟩ := start_cases e
    · exact ⟨values', pattern', ready, fun _ => rfl⟩
    · exact absurd uninitialized begun
  | close =>
    have closed := close_stage s
    rw [stage, ready] at closed
    cases closed
  | register id => exact ⟨values', pattern', ready, fun _ => rfl⟩
  | unregister e =>
    obtain rfl := unregister_eq_ok e
    exact ⟨values', pattern', ready, fun _ => rfl⟩
  | @write _ _ value c written =>
    have unreal := write_unreal sound.typed written
    obtain ⟨values, pattern, name, pattern'', was, -, -, rfl, rfl, -⟩ := write_cases written
    cases ready
    refine ⟨values, pattern, was, fun o => ?_⟩
    rw [OptionValues.get_set]
    by_cases named : name = o
    · subst named
      cases real : Change.isReal ⟨name, values.get name, value⟩ with
      | true => simp [commits, Entry.commit?, real, Chained]
      | false =>
        simp only [commits, List.filterMap_cons, Entry.commit?, real, Bool.false_eq_true, and_false,
          if_false, List.filterMap_nil]
        exact (unreal real).symm
    · simp [commits, Entry.commit?, named, Chained]

end Store

/-- What a host whose store was ready once has come to: the changes since then lead from the values
of then to those of now, as long as the store is ready. -/
structure Host.Carries (classes : Entries) (values : OptionValues) (h h' : Host) : Prop where
  sound : h'.store.Sound classes
  begun : h'.store.stage ≠ .uninitialized
  grown : h'.journal = (h'.since h).reverse ++ h.journal
  chained : ∀ values' pattern', h'.store.condition = .ready values' pattern' →
    ∀ o, Chained (values.get o) (commits o (h'.since h)) (values'.get o)

namespace Host.Carries

variable {classes : Entries} {values : OptionValues} {h h' h'' : Host}

theorem of_same (carries : h.Carries classes values h') (journal : h''.journal = h'.journal)
    (store : h''.store = h'.store) : h.Carries classes values h'' := by
  have since : h''.since h = h'.since h := by
    unfold Host.since
    rw [journal]
  obtain ⟨sound, begun, grown, chained⟩ := carries
  constructor
  · rwa [store]
  · rwa [store]
  · rwa [since, journal]
  · rwa [since, store]

theorem since_cons (carries : h.Carries classes values h') {e : Entry}
    (journal : h''.journal = e :: h'.journal) : h''.since h = h'.since h ++ [e] := by
  refine Host.since_eq ?_
  rw [journal, carries.grown]
  simp

theorem noted (carries : h.Carries classes values h') {e : Entry}
    (journal : h''.journal = e :: h'.journal) (store : h''.store = h'.store)
    (other : ∀ o, e.commit? o = none) : h.Carries classes values h'' := by
  have since := carries.since_cons journal
  obtain ⟨sound, begun, grown, chained⟩ := carries
  constructor
  · rwa [store]
  · rwa [store]
  · rw [since, journal, grown]
    simp
  · intro values' pattern' ready o
    rw [store] at ready
    rw [since, commits_append, commits_cons, other]
    simpa [commits] using chained values' pattern' ready o

theorem stored (carries : h.Carries classes values h') (textual : classes.Textual) {t : Store}
    {write : Option Change} (step : h'.store.Step write t) :
    h.Carries classes values
      { h' with store := t, journal := .stored t write :: h'.journal } := by
  have since : Host.since { h' with store := t, journal := .stored t write :: h'.journal } h =
      h'.since h ++ [.stored t write] := carries.since_cons rfl
  obtain ⟨sound, begun, grown, chained⟩ := carries
  constructor
  · exact step.sound textual sound
  · intro uninitialized
    have follows : h'.store.stage.Follows t.stage := step.follows
    rw [show t.stage = .uninitialized from uninitialized] at follows
    generalize h'.store.stage = stage at follows begun
    cases follows
    exact begun rfl
  · rw [since, grown]
    simp
  · intro values' pattern' ready o
    obtain ⟨held, pattern, was, made⟩ := step.chained sound begun ready
    rw [since, commits_append]
    exact chained_append.mpr ⟨held.get o, chained held pattern was o, made o⟩

end Host.Carries

theorem Host.Path.carries {classes : Entries} {values : OptionValues} {pattern : Pattern}
    {h h' : Host} (path : h.Path h') (textual : classes.Textual) (sound : h.store.Sound classes)
    (ready : h.store.condition = .ready values pattern) : h.Carries classes values h' := by
  induction path with
  | refl =>
    have since : h.since h = [] := Host.since_eq rfl
    refine ⟨sound, ?_, ?_, ?_⟩
    · rw [Store.stage, ready]
      rintro ⟨⟩
    · rw [since]
      rfl
    · intro values' pattern' same o
      cases ready.symm.trans same
      rw [since]
      rfl
  | tail _ move ih =>
    cases move with
    | noted e plain =>
      refine ih.noted rfl rfl fun o => ?_
      cases e with
      | stored t write => cases plain
      | _ => rfl
    | stored step => exact ih.stored textual step
    | accessed id a outcome opened =>
      exact ih.noted (e := .accessed id a outcome) rfl rfl fun o => rfl
    | _ => exact ih.of_same rfl rfl

/-! ## The last word -/

namespace Session

/-- A run of requests between two hosts whose stores are ready, on a store that was built from
validated options, with any listeners. The changes made to an option lead from its value before the
run to its value after it. If no telling of a change of the option broke off, a listener that is
registered once all the time is told of each of them exactly once, and if besides it was told of as
many as were made before whenever one was made, it hears of them in the order in which they were
made. The listener that is the first to be told hears of them in that order in any case. So the last
it hears is the value that the option has in the end. -/
theorem steps_last_word {window : WindowOptions} {shared : SharedOptions} {classes : Entries}
    {store : Store} {h h' : Host} {depth : Nat} {requests : List Request}
    {replies : List (Except Raised Reply)} {values values' : OptionValues}
    {pattern pattern' : Pattern} (textual : classes.Textual)
    (created : Store.create (.ofOptions window shared) classes = .ok store)
    (reached : (Host.ofStore store).Path h)
    (run : Session.steps depth requests h = some (replies, h'))
    (ready : h.store.condition = .ready values pattern)
    (ready' : h'.store.condition = .ready values' pattern') :
    h'.journal = (h'.since h).reverse ++ h.journal ∧
      ∀ o, Chained (values.get o) (commits o (h'.since h)) (values'.get o) ∧
        ∀ id, Registered id (h'.since h) →
          (Unbroken o (h'.since h) → (news id o (h'.since h)).Perm (commits o (h'.since h))) ∧
            (Prompt id o (h'.since h) ∧ Unbroken o (h'.since h) ∨ Leads id (h'.since h) →
              news id o (h'.since h) = commits o (h'.since h) ∧
                Chained (values.get o) (news id o (h'.since h)) (values'.get o)) := by
  have accounts := Host.Path.accounts reached (Host.accounts_ofStore store)
  have sound : h.store.Sound classes := by
    refine accounts.sound textual (Store.sound_of_create created) _ ?_
    rw [← accounts.current]
    exact List.getLastD_mem_cons
  have carries := Host.Path.carries (steps_path run) textual sound ready
  have tells : h.Tells h' := steps_along run
  obtain ⟨es, grown, story⟩ := tells
  rw [← Host.since_eq grown] at story
  refine ⟨carries.grown, fun o => ⟨carries.chained values' pattern' ready' o, ?_⟩⟩
  intro id registered
  refine ⟨story.news_perm registered, fun order => ?_⟩
  have inOrder : news id o (h'.since h) = commits o (h'.since h) := by
    rcases order with ⟨prompt, unbroken⟩ | leads
    · exact story.news_of_abreast registered unbroken (Nat.zero_le 1) prompt.abreast rfl
    · refine story.news_of_leads registered leads ?_
      rintro e ⟨⟩
  rw [inOrder]
  exact ⟨rfl, carries.chained values' pattern' ready' o⟩

/-- A listener that turns wrapping back on as soon as it is turned off. -/
def rebounding (change : Change) : Reaction Request :=
  match change.option, change.new with
  | .wrap, .bool false => .does (.set (.text "wrap") (.bool true)) fun _ => .returns
  | _, _ => .returns

/-- Two listeners, of which the first one writes back. -/
def paired : List Request :=
  [.start, .register "first" rebounding, .register "second" fun _ => .returns]

theorem unbroken_of_cuts {o : OptionName} {es : List Entry} (whole : es.filterMap Entry.cut? = []) :
    Unbroken o es := by
  intro id c member
  have cut : Entry.cut? (.cut id c) = none := List.filterMap_eq_nil_iff.mp whole _ member
  cases cut

theorem registered_of_states {id : ListenerId} {es : List Entry} {states : List (List ListenerId)}
    (listed : (es.filterMap Entry.store?).map Store.listeners = states)
    (once : ∀ listeners ∈ states, listeners.count id = 1) : Registered id es := by
  intro t write member
  have state : t ∈ es.filterMap Entry.store? :=
    List.mem_filterMap.mpr ⟨.stored t write, member, rfl⟩
  exact once _ (listed ▸ List.mem_map_of_mem state)

/-- The second listener hears last that wrapping is off, while it is on. -/
theorem last_word_untrue :
    ∃ store replies h replies' h' values values' pattern pattern',
      Store.create (.ofOptions ⟨true, false⟩ ⟨"ascii"⟩) builtinClasses = .ok store ∧
        steps 3 paired (Host.ofStore store) = some (replies, h) ∧
        steps 3 [.set (.text "wrap") (.bool false)] h = some (replies', h') ∧
        h.store.condition = .ready values pattern ∧
        h'.store.condition = .ready values' pattern' ∧
        Registered "second" (h'.since h) ∧
        news "second" .wrap (h'.since h) =
          [⟨.wrap, .bool false, .bool true⟩, ⟨.wrap, .bool true, .bool false⟩] ∧
        values'.get .wrap = .bool true ∧
        ¬Chained (values.get .wrap) (news "second" .wrap (h'.since h)) (values'.get .wrap) := by
  refine ⟨_, _, _, _, _, _, _, _, _, rfl, rfl, rfl, rfl, rfl, ?_, rfl, rfl, ?_⟩
  · refine registered_of_states
      (show _ = [["first", "second"], ["first", "second"]] from rfl) ?_
    decide
  · rintro ⟨⟨⟩, -⟩

/-- The first listener hears of both changes in order, and the second one hears of both. -/
theorem steps_last_word_paired :
    ∃ store replies h replies' h',
      Store.create (.ofOptions ⟨true, false⟩ ⟨"ascii"⟩) builtinClasses = .ok store ∧
        steps 3 paired (Host.ofStore store) = some (replies, h) ∧
        steps 3 [.set (.text "wrap") (.bool false)] h = some (replies', h') ∧
        (commits .wrap (h'.since h)).length = 2 ∧
        news "first" .wrap (h'.since h) = commits .wrap (h'.since h) ∧
        (news "second" .wrap (h'.since h)).Perm (commits .wrap (h'.since h)) := by
  let store : Store := ⟨.initial, builtinClasses, .uninitialized, []⟩
  have created : Store.create (.ofOptions ⟨true, false⟩ ⟨"ascii"⟩) builtinClasses = .ok store :=
    rfl
  have ran : ∃ replies h replies' h', steps 3 paired (Host.ofStore store) = some (replies, h) ∧
      steps 3 [.set (.text "wrap") (.bool false)] h = some (replies', h') ∧
      (∃ values pattern, h.store.condition = .ready values pattern) ∧
      (∃ values' pattern', h'.store.condition = .ready values' pattern') ∧
      (((h'.since h).filterMap Entry.store?).map Store.listeners) =
        [["first", "second"], ["first", "second"]] ∧
      (h'.since h).filterMap Entry.cut? = [] ∧
      (commits .wrap (h'.since h)).length = 2 :=
    ⟨_, _, _, _, rfl, rfl, ⟨_, _, rfl⟩, ⟨_, _, rfl⟩, rfl, rfl, rfl⟩
  obtain ⟨replies, h, replies', h', before, run, ⟨values, pattern, ready⟩,
    ⟨values', pattern', ready'⟩, states, whole, two⟩ := ran
  obtain ⟨-, words⟩ :=
    steps_last_word builtinClasses_textual created (steps_path before) run ready ready'
  obtain ⟨-, heard⟩ := words .wrap
  have leads : Leads "first" (h'.since h) := by
    intro t write member
    have state : t.listeners ∈ ((h'.since h).filterMap Entry.store?).map Store.listeners :=
      List.mem_map_of_mem (List.mem_filterMap.mpr ⟨.stored t write, member, rfl⟩)
    rw [states] at state
    simp_all
  refine ⟨store, replies, h, replies', h', created, before, run, two, ?_, ?_⟩
  · have once : Registered "first" (h'.since h) := registered_of_states states (by decide)
    exact ((heard "first" once).2 (.inr leads)).1
  · have once : Registered "second" (h'.since h) := registered_of_states states (by decide)
    exact (heard "second" once).1 (unbroken_of_cuts whole)

end Session

end OptionHost
