import HomeclusterInfra.Library.Nested
import Mathlib.Order.Nat

/-!
# The latest entry of each key

One pass over a list keeps an entry for each key, and replaces it by a later one of
higher rank. In the end each key of the list has an entry of highest rank. Where
rank and key tell the entries apart, the kept ones do not depend on their order.
-/

set_option autoImplicit false

namespace HomeclusterInfra.Latest

open Nested

universe u v

variable {κ : Type u} {α : Type v} (keyOf : α → κ) (rank : α → Nat)

/-- Keep an entry where its key has none yet, or one of lower rank. -/
def keep [DecidableEq κ] (kept : List (κ × α)) (entry : α) : List (κ × α) :=
  match kept.lookup (keyOf entry) with
  | none => put kept (keyOf entry) entry
  | some other => if rank other < rank entry then put kept (keyOf entry) entry else kept

/-- An entry of highest rank among those of its key. -/
def IsLatest (entries : List α) (entry : α) : Prop :=
  entry ∈ entries ∧ ∀ other ∈ entries, keyOf other = keyOf entry → rank other ≤ rank entry

/-- Key and rank tell the entries apart. -/
def Apart (entries : List α) : Prop :=
  ∀ first ∈ entries, ∀ second ∈ entries, keyOf first = keyOf second →
    rank first = rank second → first = second

/-- What has been kept of some entries. -/
structure Keeps [DecidableEq κ] (entries : List α) (kept : List (κ × α)) : Prop where
  distinct : (kept.map Prod.fst).Nodup
  latest : ∀ key entry, kept.lookup key = some entry →
    keyOf entry = key ∧ IsLatest keyOf rank entries entry
  covers : ∀ entry ∈ entries, (kept.lookup (keyOf entry)).isSome

variable {keyOf rank} {entries others : List α} {kept : List (κ × α)} {entry : α} {key : κ}

/-! ## The latest entries -/

/-- An entry stays the latest where the next one does not pass it. -/
theorem IsLatest.concat (latest : IsLatest keyOf rank entries entry) {next : α}
    (below : keyOf next = keyOf entry → rank next ≤ rank entry) :
    IsLatest keyOf rank (entries ++ [next]) entry := by
  refine ⟨List.mem_append_left _ latest.1, fun other member same => ?_⟩
  rcases List.mem_append.mp member with earlier | last
  · exact latest.2 other earlier same
  · rw [List.mem_singleton.mp last] at same ⊢
    exact below same

/-- The next entry is the latest where no earlier one passes it. -/
theorem isLatest_concat_self
    (below : ∀ other ∈ entries, keyOf other = keyOf entry → rank other ≤ rank entry) :
    IsLatest keyOf rank (entries ++ [entry]) entry := by
  refine ⟨List.mem_append_right _ List.mem_cons_self, fun other member same => ?_⟩
  rcases List.mem_append.mp member with earlier | last
  · exact below other earlier same
  · exact (congrArg rank (List.mem_singleton.mp last)).le

/-- The latest entry of a key is one only. -/
theorem IsLatest.unique (apart : Apart keyOf rank entries) {first second : α}
    (one : IsLatest keyOf rank entries first) (other : IsLatest keyOf rank entries second)
    (same : keyOf first = keyOf second) : first = second :=
  apart first one.1 second other.1 same
    (le_antisymm (other.2 first one.1 same) (one.2 second other.1 same.symm))

theorem IsLatest.perm (perm : entries.Perm others) :
    IsLatest keyOf rank entries entry ↔ IsLatest keyOf rank others entry := by
  simp only [IsLatest, perm.mem_iff]

theorem Apart.perm (perm : entries.Perm others) (apart : Apart keyOf rank entries) :
    Apart keyOf rank others := by
  intro first one second other
  exact apart first (perm.mem_iff.mpr one) second (perm.mem_iff.mpr other)

/-! ## What a pass keeps -/

variable [DecidableEq κ]

theorem keeps_nil : Keeps keyOf rank [] [] :=
  ⟨List.nodup_nil, fun _ _ found => (by cases found), fun _ member => absurd member List.not_mem_nil⟩

/-- The next entry is put in. -/
theorem Keeps.put (keeps : Keeps keyOf rank entries kept)
    (below : ∀ other ∈ entries, keyOf other = keyOf entry → rank other ≤ rank entry) :
    Keeps keyOf rank (entries ++ [entry]) (put kept (keyOf entry) entry) where
  distinct := put_distinct _ _ keeps.distinct
  latest key found here := by
    rw [lookup_put] at here
    split at here
    next same =>
      obtain rfl := Option.some.inj here
      exact ⟨same.symm, isLatest_concat_self below⟩
    next different =>
      obtain ⟨rfl, latest⟩ := keeps.latest key found here
      exact ⟨rfl, latest.concat fun same => absurd same.symm different⟩
  covers other member := by
    rw [lookup_put]
    split
    next => rfl
    next different =>
      rcases List.mem_append.mp member with earlier | last
      · exact keeps.covers other earlier
      · exact absurd (congrArg keyOf (List.mem_singleton.mp last)) different

/-- The next entry is passed over. -/
theorem Keeps.pass (keeps : Keeps keyOf rank entries kept) {other : α}
    (found : kept.lookup (keyOf entry) = some other) (below : rank entry ≤ rank other) :
    Keeps keyOf rank (entries ++ [entry]) kept where
  distinct := keeps.distinct
  latest key last here := by
    obtain ⟨rfl, latest⟩ := keeps.latest key last here
    refine ⟨rfl, latest.concat fun same => ?_⟩
    rw [same, here] at found
    rwa [Option.some.inj found]
  covers next member := by
    rcases List.mem_append.mp member with earlier | last
    · exact keeps.covers next earlier
    · rw [List.mem_singleton.mp last, found]
      rfl

/-- One entry. -/
theorem Keeps.keep (keeps : Keeps keyOf rank entries kept) (entry : α) :
    Keeps keyOf rank (entries ++ [entry]) (keep keyOf rank kept entry) := by
  unfold Latest.keep
  split
  next missing =>
    refine keeps.put fun other member same => ?_
    have covered := keeps.covers other member
    rw [same, missing] at covered
    cases covered
  next last found =>
    obtain ⟨key, latest⟩ := keeps.latest _ last found
    split
    next higher =>
      exact keeps.put fun other member same =>
        (latest.2 other member (same.trans key.symm)).trans higher.le
    next notHigher => exact keeps.pass found (Nat.le_of_not_lt notHigher)

/-- **A pass keeps the latest entries.** -/
theorem keeps_foldl (entries : List α) :
    Keeps keyOf rank entries (entries.foldl (keep keyOf rank) []) := by
  induction entries using List.reverseRecOn with
  | nil => exact keeps_nil
  | append_singleton entries entry ih =>
      rw [List.foldl_append]
      exact ih.keep entry

/-- **What is kept is exactly what is latest.** -/
theorem Keeps.mem_iff (keeps : Keeps keyOf rank entries kept) (apart : Apart keyOf rank entries) :
    (key, entry) ∈ kept ↔ keyOf entry = key ∧ IsLatest keyOf rank entries entry := by
  constructor
  · intro member
    exact keeps.latest key entry (Keyed.lookup_of_mem keeps.distinct member)
  · rintro ⟨rfl, latest⟩
    obtain ⟨other, found⟩ := Option.isSome_iff_exists.mp (keeps.covers entry latest.1)
    obtain ⟨same, isLatest⟩ := keeps.latest _ other found
    rw [latest.unique apart isLatest same.symm]
    rw [← same] at found
    exact Keyed.mem_of_lookup found

/-- **The order of the entries does not matter.** -/
theorem mem_foldl_keep_perm (perm : entries.Perm others) (apart : Apart keyOf rank entries)
    (pair : κ × α) :
    pair ∈ entries.foldl (keep keyOf rank) [] ↔ pair ∈ others.foldl (keep keyOf rank) [] := by
  obtain ⟨key, entry⟩ := pair
  rw [(keeps_foldl entries).mem_iff apart, (keeps_foldl others).mem_iff (apart.perm perm),
    IsLatest.perm perm]

end HomeclusterInfra.Latest
