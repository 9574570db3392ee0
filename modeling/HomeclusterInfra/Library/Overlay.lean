import Mathlib.Data.List.Basic

/-!
# Entries set over a list

Some entries of a list have a key, and for some keys one entry is wanted. Each entry
with a wanted key gives way to the wanted one, and the wanted keys that no entry had
get theirs at the end. Nothing else changes, and doing so once more changes nothing
at all.
-/

set_option autoImplicit false

namespace HomeclusterInfra.Overlay

universe u v

variable {κ : Type u} {α : Type v} [DecidableEq κ] (keyOf : α → Option κ) (wanted : κ → Option α)

/-- What stands for an entry. -/
def settle (entry : α) : α :=
  ((keyOf entry).bind wanted).getD entry

/-- The keys that no entry has. -/
def missing (keys : List κ) (entries : List α) : List κ :=
  keys.filter fun key => some key ∉ entries.map keyOf

/-- The wanted entries set over a list. -/
def overlay (keys : List κ) (entries : List α) : List α :=
  entries.map (settle keyOf wanted) ++ (missing keyOf keys entries).filterMap wanted

/-- An entry that no wanted one stands for. -/
def Unmanaged (entry : α) : Prop :=
  (keyOf entry).bind wanted = none

instance : DecidablePred (Unmanaged keyOf wanted) := fun entry =>
  decidable_of_iff (((keyOf entry).bind wanted).isNone = true) Option.isNone_iff_eq_none

section Laws

variable {keyOf wanted} {keys : List κ} {entries : List α} {entry given : α} {key : κ}

omit [DecidableEq κ] in
theorem settle_of_wanted (has : keyOf entry = some key) (is : wanted key = some given) :
    settle keyOf wanted entry = given := by
  rw [settle, has, Option.bind_some, is, Option.getD_some]

omit [DecidableEq κ] in
theorem settle_of_unmanaged (unmanaged : Unmanaged keyOf wanted entry) :
    settle keyOf wanted entry = entry := by
  rw [settle, unmanaged, Option.getD_none]

omit [DecidableEq κ] in
variable (keyOf wanted) in
/-- An entry with a wanted key, or one that stays. -/
theorem wanted_or_unmanaged (entry : α) :
    (∃ key given, keyOf entry = some key ∧ wanted key = some given) ∨
      Unmanaged keyOf wanted entry := by
  rcases found : (keyOf entry).bind wanted with - | given
  · exact Or.inr found
  · obtain ⟨key, has, is⟩ := Option.bind_eq_some_iff.mp found
    exact Or.inl ⟨key, given, has, is⟩

/-- What is wanted for a key has that key. -/
def Keyed (keyOf : α → Option κ) (wanted : κ → Option α) : Prop :=
  ∀ key given, wanted key = some given → keyOf given = some key

variable (keyed : Keyed keyOf wanted)

include keyed

omit [DecidableEq κ] in
theorem keyOf_settle (entry : α) : keyOf (settle keyOf wanted entry) = keyOf entry := by
  rcases wanted_or_unmanaged keyOf wanted entry with
    ⟨key, given, has, is⟩ | unmanaged
  · rw [settle_of_wanted has is, has, keyed key given is]
  · rw [settle_of_unmanaged unmanaged]

omit [DecidableEq κ] in
theorem not_unmanaged_of_wanted {given : α} (is : wanted key = some given) :
    ¬Unmanaged keyOf wanted given := by
  rw [Unmanaged, keyed key given is, Option.bind_some, is]
  exact Option.some_ne_none given

omit [DecidableEq κ] in
theorem settle_settle (entry : α) :
    settle keyOf wanted (settle keyOf wanted entry) = settle keyOf wanted entry := by
  rcases wanted_or_unmanaged keyOf wanted entry with
    ⟨key, given, has, is⟩ | unmanaged
  · rw [settle_of_wanted has is, settle_of_wanted (keyed key given is) is]
  · rw [settle_of_unmanaged unmanaged, settle_of_unmanaged unmanaged]

omit keyed in
theorem mem_missing : key ∈ missing keyOf keys entries ↔
    key ∈ keys ∧ some key ∉ entries.map keyOf := by
  rw [missing, List.mem_filter, decide_eq_true_eq]

/-- Every entry of an overlay is settled. -/
theorem settle_of_mem_overlay (member : entry ∈ overlay keyOf wanted keys entries) :
    settle keyOf wanted entry = entry := by
  rcases List.mem_append.mp member with replaced | added
  · obtain ⟨first, _, rfl⟩ := List.mem_map.mp replaced
    exact settle_settle keyed first
  · obtain ⟨key, _, is⟩ := List.mem_filterMap.mp added
    exact settle_of_wanted (keyed key entry is) is

/-- **An entry with a wanted key is the wanted one.** -/
theorem eq_wanted_of_mem_overlay (member : entry ∈ overlay keyOf wanted keys entries)
    (has : keyOf entry = some key) (is : wanted key = some given) : entry = given := by
  rw [← settle_of_mem_overlay keyed member]
  exact settle_of_wanted has is

/-- **Entries without a wanted key stay, in order.** -/
theorem filter_unmanaged_overlay :
    (overlay keyOf wanted keys entries).filter (Unmanaged keyOf wanted ·) =
      entries.filter (Unmanaged keyOf wanted ·) := by
  have replaced : (entries.map (settle keyOf wanted)).filter (Unmanaged keyOf wanted ·) =
      entries.filter (Unmanaged keyOf wanted ·) := by
    induction entries with
    | nil => rfl
    | cons entry entries ih =>
        have same : Unmanaged keyOf wanted (settle keyOf wanted entry) ↔
            Unmanaged keyOf wanted entry := by
          rw [Unmanaged, keyOf_settle keyed, Unmanaged]
        rw [List.map_cons, List.filter_cons, List.filter_cons, ih]
        by_cases unmanaged : Unmanaged keyOf wanted entry
        · rw [if_pos (decide_eq_true (same.mpr unmanaged)), if_pos (decide_eq_true unmanaged),
            settle_of_unmanaged unmanaged]
        · rw [if_neg (by simpa using mt same.mp unmanaged), if_neg (by simpa using unmanaged)]
  have added : ((missing keyOf keys entries).filterMap wanted).filter (Unmanaged keyOf wanted ·) =
      [] := by
    rw [List.filter_eq_nil_iff]
    intro given member
    obtain ⟨key, _, is⟩ := List.mem_filterMap.mp member
    simpa using not_unmanaged_of_wanted keyed is
  rw [overlay, List.filter_append, replaced, added, List.append_nil]

section Covering

variable (all : ∀ key ∈ keys, (wanted key).isSome)

include all

/-- **Every wanted key occurs.** -/
theorem mem_keys_overlay (member : key ∈ keys) :
    some key ∈ (overlay keyOf wanted keys entries).map keyOf := by
  rw [overlay, List.map_append, List.mem_append]
  by_cases had : some key ∈ entries.map keyOf
  · obtain ⟨entry, inside, has⟩ := List.mem_map.mp had
    exact Or.inl (List.mem_map.mpr
      ⟨settle keyOf wanted entry, List.mem_map_of_mem inside, (keyOf_settle keyed entry).trans has⟩)
  · obtain ⟨given, is⟩ := Option.isSome_iff_exists.mp (all key member)
    exact Or.inr (List.mem_map.mpr
      ⟨given, List.mem_filterMap.mpr ⟨key, mem_missing.mpr ⟨member, had⟩, is⟩,
        keyed key given is⟩)

/-- **Once more changes nothing.** -/
theorem overlay_overlay :
    overlay keyOf wanted keys (overlay keyOf wanted keys entries) =
      overlay keyOf wanted keys entries := by
  have settled : (overlay keyOf wanted keys entries).map (settle keyOf wanted) =
      overlay keyOf wanted keys entries :=
    (List.map_congr_left fun _ member => settle_of_mem_overlay keyed member).trans
      (List.map_id _)
  have whole : missing keyOf keys (overlay keyOf wanted keys entries) = [] := by
    apply List.eq_nil_iff_forall_not_mem.mpr
    intro key member
    obtain ⟨inside, fresh⟩ := mem_missing.mp member
    exact fresh (mem_keys_overlay keyed all inside)
  rw [overlay, settled, whole, List.filterMap_nil, List.append_nil]

end Covering

end Laws

end HomeclusterInfra.Overlay
