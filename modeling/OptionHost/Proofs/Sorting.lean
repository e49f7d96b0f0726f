import OptionHost.Proofs.Outcome
import OptionHost.Value.Order

/-!
# Sorting values that can be compared

A sort fails where a comparison does. Among items that can all be compared it does not, and it gives
the same items in some order.
-/

namespace OptionHost

namespace Sorting

variable {α : Type} {before : α → α → Except Fault Bool} {items sorted : List α}

/-- Any two of the items can be compared. -/
def Comparable (before : α → α → Except Fault Bool) (items : List α) : Prop :=
  ∀ x ∈ items, ∀ y ∈ items, ∃ b, before x y = .ok b

theorem Comparable.of_perm {others : List α} (comparable : Comparable before items)
    (perm : others.Perm items) : Comparable before others :=
  fun x hx y hy => comparable x (perm.mem_iff.mp hx) y (perm.mem_iff.mp hy)

theorem place_total {item : α} (compared : ∀ other ∈ sorted, ∃ b, before item other = .ok b)
    (fuel low high : Nat) : ∃ i, place before item sorted fuel low high = .ok i := by
  induction fuel generalizing low high with
  | zero => exact ⟨low, rfl⟩
  | succ fuel ih =>
    unfold place
    split
    · dsimp only
      cases found : sorted[(low + high) / 2]? with
      | none => exact ⟨low, rfl⟩
      | some other =>
        obtain ⟨b, compared⟩ := compared other (List.mem_of_getElem? found)
        dsimp only
        rw [compared]
        cases b with
        | true => exact ih low ((low + high) / 2)
        | false => exact ih ((low + high) / 2 + 1) high
    · exact ⟨low, rfl⟩

theorem insert_perm {item : α} (comparable : Comparable before (item :: sorted)) :
    ∃ result, insert before sorted item = .ok result ∧ result.Perm (item :: sorted) := by
  have compared : ∀ other ∈ sorted, ∃ b, before item other = .ok b := fun other member =>
    comparable item List.mem_cons_self other (List.mem_cons_of_mem _ member)
  obtain ⟨i, placed⟩ := place_total compared (sorted.length + 1) 0 sorted.length
  refine ⟨sorted.take i ++ item :: sorted.drop i, ?_, ?_⟩
  · unfold insert
    rw [placed]
    rfl
  · have split : (item :: (sorted.take i ++ sorted.drop i)).Perm (item :: sorted) := by
      rw [List.take_append_drop]
    exact List.perm_middle.trans split

theorem inserts_perm (comparable : Comparable before (sorted ++ items)) :
    ∃ result, items.foldlM (insert before) sorted = .ok result ∧
      result.Perm (sorted ++ items) := by
  induction items generalizing sorted with
  | nil => exact ⟨sorted, rfl, by rw [List.append_nil]⟩
  | cons item rest ih =>
    -- Both parts have to be comparable together, since items move from one to the other.
    have moved : (item :: sorted ++ rest).Perm (sorted ++ item :: rest) := List.perm_middle.symm
    have front : Comparable before (item :: sorted) := fun x hx y hy =>
      comparable.of_perm moved x (List.mem_append_left _ hx) y (List.mem_append_left _ hy)
    obtain ⟨extended, inserted, perm⟩ := insert_perm front
    have whole := perm.append_right rest
    obtain ⟨result, folded, perm'⟩ := ih (comparable.of_perm (whole.trans moved))
    refine ⟨result, ?_, perm'.trans (whole.trans moved)⟩
    rw [List.foldlM_cons, inserted]
    exact folded

theorem run_perm {last : α} (comparable : Comparable before (last :: items)) (descending : Bool)
    (reversed : List α) :
    ∃ fore left, run before descending last reversed items = .ok (fore, left) ∧
      (fore ++ left).Perm (reversed ++ items) := by
  induction items generalizing last reversed with
  | nil => exact ⟨reversed, [], rfl, .refl _⟩
  | cons item rest ih =>
    obtain ⟨b, compared⟩ := comparable item (by simp) last (by simp)
    unfold run
    rw [compared]
    by_cases goes : (b == descending) = true
    · have later : Comparable before (item :: rest) := fun x hx y hy =>
        comparable x (List.mem_cons_of_mem _ hx) y (List.mem_cons_of_mem _ hy)
      obtain ⟨fore, left, went, perm⟩ := ih later (item :: reversed)
      refine ⟨fore, left, ?_, perm.trans List.perm_middle.symm⟩
      exact (if_pos goes).trans went
    · exact ⟨reversed, item :: rest, if_neg goes, .refl _⟩

/-- Items that can all be compared are sorted. -/
theorem sort_perm (comparable : Comparable before items) :
    ∃ result, sort before items = .ok result ∧ result.Perm items := by
  match items, comparable with
  | [], _ => exact ⟨[], rfl, .refl _⟩
  | [item], _ => exact ⟨[item], rfl, .refl _⟩
  | first :: second :: rest, comparable =>
    obtain ⟨descending, compared⟩ := comparable second (by simp) first (by simp)
    have later : Comparable before (second :: rest) := fun x hx y hy =>
      comparable x (List.mem_cons_of_mem _ hx) y (List.mem_cons_of_mem _ hy)
    obtain ⟨fore, left, went, perm⟩ := run_perm later descending [second, first]
    have whole : (fore ++ left).Perm (first :: second :: rest) := perm.trans (.swap _ _ _)
    have start : (if descending then fore else fore.reverse).Perm fore := by
      cases descending with
      | true => exact .refl _
      | false => exact List.reverse_perm fore
    have parts := (start.append_right left).trans whole
    obtain ⟨result, folded, perm'⟩ := inserts_perm (comparable.of_perm parts)
    refine ⟨result, ?_, perm'.trans parts⟩
    rw [sort, compared]
    change (run before descending second [second, first] rest >>= _) = _
    rw [went]
    exact folded

end Sorting

namespace Value

theorem comparable_texts (names : List String) :
    Sorting.Comparable precedes (names.map .text) := by
  simp only [Sorting.Comparable, List.forall_mem_map]
  exact fun s _ t _ => ⟨decide (s < t), precedes_text s t⟩

/-- A list of texts is always sorted. -/
theorem sorted_texts (names : List String) :
    ∃ result, sorted (names.map .text) = .ok result ∧ result.Perm (names.map .text) :=
  Sorting.sort_perm (comparable_texts names)

end Value

end OptionHost
