import Mathlib.Data.List.Basic
import Mathlib.Data.List.Induction

/-!
# Keyed chunks

Some elements of a list have a key, and each of them opens a chunk that reaches to
the next one. Elements before the first key belong to no chunk. Dropping the chunks
of some keys is the same as going through the list and keeping the elements behind
a key that is not dropped.
-/

set_option autoImplicit false

namespace HomeclusterInfra.Chunks

universe u v

variable {α : Type u} {κ : Type v}

/-- The chunks of a list, each with the key that opens it. -/
def chunks (key : α → Option κ) : List α → List (κ × List α)
  | [] => []
  | item :: rest =>
      match key item with
      | none => chunks key rest
      | some own =>
          (own, item :: rest.takeWhile fun item => (key item).isNone) :: chunks key rest

/-- Whether an element is kept: by its key, or without one as the element before. -/
def keepsAt (key : α → Option κ) (keeps : κ → Bool) (keeping : Bool) (item : α) : Bool :=
  (key item).elim keeping keeps

/-- Whether elements are kept behind a list, where `keeping` says it for those before
the first key. -/
def keepsAfter (key : α → Option κ) (keeps : κ → Bool) : Bool → List α → Bool :=
  List.foldl (keepsAt key keeps)

/-- The elements that are kept. -/
def kept (key : α → Option κ) (keeps : κ → Bool) : Bool → List α → List α
  | _, [] => []
  | keeping, item :: rest =>
      if keepsAt key keeps keeping item then item :: kept key keeps true rest
      else kept key keeps false rest

variable {key : α → Option κ} {keeps : κ → Bool} {keeping : Bool} {items : List α}

theorem keepsAt_of_none {item : α} (unkeyed : key item = none) :
    keepsAt key keeps keeping item = keeping := by
  rw [keepsAt, unkeyed, Option.elim_none]

theorem keepsAt_of_some {item : α} {own : κ} (keyed : key item = some own) :
    keepsAt key keeps keeping item = keeps own := by
  rw [keepsAt, keyed, Option.elim_some]

/-- Elements are kept behind a list that has a key exactly when the last key of it is. -/
theorem keepsAfter_false (items : List α) : keepsAfter key keeps false items =
    (items.filterMap key).getLast?.any keeps := by
  unfold keepsAfter
  induction items using List.reverseRecOn with
  | nil => rfl
  | append_singleton items item ih =>
      rw [List.foldl_append, List.foldl_cons, List.foldl_nil, List.filterMap_append]
      cases keyed : key item with
      | none =>
          rw [keepsAt_of_none keyed, ih, List.filterMap_cons_none keyed, List.filterMap_nil,
            List.append_nil]
      | some own =>
          rw [keepsAt_of_some keyed, List.filterMap_cons_some keyed, List.filterMap_nil,
            List.getLast?_concat, Option.any_some]

theorem kept_sublist (keeping : Bool) (items : List α) :
    (kept key keeps keeping items).Sublist items := by
  induction items generalizing keeping with
  | nil => exact .slnil
  | cons item rest ih =>
      rw [kept]
      split
      · exact (ih true).cons_cons item
      · exact (ih false).cons item

theorem mem_of_mem_kept {item : α} (member : item ∈ kept key keeps keeping items) :
    item ∈ items :=
  (kept_sublist keeping items).mem member

/-- **Keeping goes on from list to list.** -/
theorem kept_append (keeping : Bool) (first second : List α) :
    kept key keeps keeping (first ++ second) =
      kept key keeps keeping first ++
        kept key keeps (keepsAfter key keeps keeping first) second := by
  induction first generalizing keeping with
  | nil => rfl
  | cons item rest ih =>
      have next := ih (keepsAt key keeps keeping item)
      rw [List.cons_append, kept, kept, keepsAfter, List.foldl_cons]
      cases kept? : keepsAt key keeps keeping item with
      | true =>
          rw [kept?] at next
          exact congrArg (item :: ·) next
      | false =>
          rw [kept?] at next
          exact next

/-- What is kept in front of the first key. -/
theorem kept_true (items : List α) : kept key keeps true items =
    (items.takeWhile fun item => (key item).isNone) ++ kept key keeps false items := by
  induction items with
  | nil => rfl
  | cons item rest ih =>
      rw [kept, kept]
      cases keyed : key item with
      | none =>
          rw [keepsAt_of_none keyed, keepsAt_of_none keyed, if_pos rfl, if_neg Bool.false_ne_true,
            ih, List.takeWhile_cons_of_pos (by rw [keyed]; rfl), List.cons_append]
      | some own =>
          rw [keepsAt_of_some keyed, keepsAt_of_some keyed, List.takeWhile_cons_of_neg,
            List.nil_append]
          rw [keyed]
          exact Bool.false_ne_true

/-- **The chunks that are not dropped**, one after another. -/
theorem flatMap_chunks (keeps : κ → Bool) (items : List α) :
    ((chunks key items).filter fun chunk => keeps chunk.1).flatMap Prod.snd =
      kept key keeps false items := by
  induction items with
  | nil => rfl
  | cons item rest ih =>
      rw [chunks, kept]
      cases keyed : key item with
      | none =>
          rw [keepsAt_of_none keyed, if_neg Bool.false_ne_true]
          exact ih
      | some own =>
          rw [keepsAt_of_some keyed]
          simp only [List.filter_cons]
          by_cases keeping : keeps own = true
          · rw [if_pos keeping, if_pos keeping, List.flatMap_cons, ih, kept_true, List.cons_append]
          · rw [if_neg keeping, if_neg keeping, ih]

theorem kept_eq_self (all : ∀ item ∈ items, ∀ own, key item = some own → keeps own = true) :
    kept key keeps true items = items := by
  induction items with
  | nil => rfl
  | cons item rest ih =>
      rw [List.forall_mem_cons] at all
      rw [kept, if_pos, ih all.2]
      cases keyed : key item with
      | none => exact keepsAt_of_none keyed
      | some own => exact (keepsAt_of_some keyed).trans (all.1 own keyed)

theorem kept_false_ne_cons {item : α} {rest : List α} :
    kept key keeps false rest ≠ item :: rest := by
  intro same
  have length := (@kept_sublist _ _ key keeps false rest).length_le
  rw [same, List.length_cons] at length
  omega

theorem keeps_of_kept_eq_self (whole : kept key keeps keeping items = items) :
    ∀ item ∈ items, ∀ own, key item = some own → keeps own = true := by
  induction items generalizing keeping with
  | nil => exact fun _ member => absurd member List.not_mem_nil
  | cons item rest ih =>
      rw [kept] at whole
      split at whole
      next kept =>
        rw [List.forall_mem_cons]
        refine ⟨fun own keyed => ?_, ih (List.cons.inj whole).2⟩
        rwa [keepsAt_of_some keyed] at kept
      next => exact absurd whole kept_false_ne_cons

/-- **A list that begins without a key is kept whole** exactly when what is in front
of it is kept and no key of it is dropped. -/
theorem kept_eq_self_iff {item : α} {rest : List α} (unkeyed : key item = none) :
    kept key keeps keeping (item :: rest) = item :: rest ↔
      keeping = true ∧ ∀ other ∈ item :: rest, ∀ own, key other = some own → keeps own = true := by
  constructor
  · intro whole
    refine ⟨?_, keeps_of_kept_eq_self whole⟩
    rw [kept, keepsAt_of_none unkeyed] at whole
    cases keeping with
    | true => rfl
    | false => exact absurd whole kept_false_ne_cons
  · rintro ⟨rfl, all⟩
    exact kept_eq_self all

/-- A part of a list that stands at the end of something in place of the list is the
whole list, where the list begins with nothing that stands before. -/
theorem eq_of_append_eq_append {front part back whole : List α} (sub : part.Sublist whole)
    (apart : ∀ first, whole.head? = some first → first ∉ front)
    (same : front ++ part = back ++ whole) : part = whole := by
  rcases List.append_eq_append_iff.mp same with ⟨more, -, longer⟩ | ⟨more, inside, parts⟩
  · have length := sub.length_le
    rw [longer, List.length_append] at length
    have none : more = [] := List.length_eq_zero_iff.mp (by omega)
    rw [longer, none, List.nil_append]
  · cases more with
    | nil => exact parts.symm
    | cons first more =>
        refine absurd ?_ (apart first (by rw [parts]; rfl))
        rw [inside]
        exact List.mem_append_right _ List.mem_cons_self

end HomeclusterInfra.Chunks
