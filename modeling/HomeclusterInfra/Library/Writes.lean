import Mathlib.Data.List.Induction
import Mathlib.Logic.Function.Basic
import HomeclusterInfra.Library.Checked

/-!
# Writes to a keyed store

A store holds a value for some of its keys. Writes are applied one after
another, and a key then holds what was written to it last, or what it held
before. A guarded write fails where the store holds a value that is not to be
replaced; if no write puts such a value into the store, a sequence of guarded
writes succeeds exactly when the store at its beginning holds none at their
keys.
-/

set_option autoImplicit false

namespace HomeclusterInfra.Writes

open Checked

universe u v w

variable {κ : Type u} {α : Type v} [DecidableEq κ]

/-- The store after a write. -/
def write (store : κ → Option α) (entry : κ × α) : κ → Option α :=
  Function.update store entry.1 (some entry.2)

/-- The store after a list of writes. -/
def writeAll (store : κ → Option α) (entries : List (κ × α)) : κ → Option α :=
  entries.foldl write store

@[simp] theorem writeAll_nil (store : κ → Option α) : writeAll store [] = store :=
  rfl

theorem writeAll_append (store : κ → Option α) (first second : List (κ × α)) :
    writeAll store (first ++ second) = writeAll (writeAll store first) second :=
  List.foldl_append

/-- **A key holds what was written to it last**, or what it held before. -/
theorem writeAll_apply (store : κ → Option α) (key : κ) :
    ∀ entries : List (κ × α), writeAll store entries key =
      ((entries.filter fun entry => entry.1 = key).getLast?.map Prod.snd).or (store key) := by
  intro entries
  induction entries using List.reverseRecOn with
  | nil => rfl
  | append_singleton entries entry ih =>
      rw [writeAll_append, List.filter_append]
      by_cases same : entry.1 = key
      · rw [List.filter_cons_of_pos (by simpa using same), List.filter_nil,
          List.getLast?_concat, ← same]
        exact Function.update_self _ _ _
      · rw [List.filter_cons_of_neg (by simpa using same), List.filter_nil, List.append_nil, ← ih]
        exact Function.update_of_ne (Ne.symm same) _ _

theorem writeAll_of_notMem {store : κ → Option α} {entries : List (κ × α)} {key : κ}
    (other : ∀ entry ∈ entries, entry.1 ≠ key) : writeAll store entries key = store key := by
  have none : entries.filter (fun entry => entry.1 = key) = [] := by
    rw [List.filter_eq_nil_iff]
    exact fun entry member => by simpa using other entry member
  rw [writeAll_apply, none]
  rfl

/-- A key that is written to, and always with the same value, holds it. -/
theorem writeAll_of_agree {store : κ → Option α} {entries : List (κ × α)} {key : κ} {value : α}
    (written : ∃ entry ∈ entries, entry.1 = key)
    (agree : ∀ entry ∈ entries, entry.1 = key → entry.2 = value) :
    writeAll store entries key = some value := by
  obtain ⟨entry, member, same⟩ := written
  have present : entry ∈ entries.filter (fun entry => entry.1 = key) :=
    List.mem_filter.mpr ⟨member, by simpa using same⟩
  obtain ⟨last, found⟩ := Option.isSome_iff_exists.mp
    (List.getLast?_isSome.mpr (List.ne_nil_of_mem present))
  obtain ⟨inside, sameKey⟩ := List.mem_filter.mp (List.mem_of_getLast? found)
  rw [writeAll_apply, found, Option.map_some, agree last inside (by simpa using sameKey)]
  rfl

section Guarded

variable {ε : Type w} (refuses : α → Bool) (failure : ε)

/-- A write that fails where the store holds what is not to be replaced. -/
def guardedWrite (store : κ → Option α) (entry : κ × α) : Except ε (κ → Option α) :=
  if (store entry.1).any refuses then .error failure else .ok (write store entry)

variable {refuses failure}

/-- **A sequence of guarded writes** depends on the store at its beginning only. -/
theorem foldlM_guardedWrite_eq_ok :
    ∀ {entries : List (κ × α)} {store result : κ → Option α},
      (∀ entry ∈ entries, refuses entry.2 = false) →
        (entries.foldlM (guardedWrite refuses failure) store = .ok result ↔
          (∀ entry ∈ entries, (store entry.1).any refuses = false) ∧
            writeAll store entries = result) := by
  intro entries
  induction entries with
  | nil =>
      intro store result _
      rw [List.foldlM_nil, pure_eq_ok]
      simp
  | cons entry entries ih =>
      intro store result harmless
      rw [List.forall_mem_cons] at harmless
      rw [List.foldlM_cons, bind_eq_ok, List.forall_mem_cons]
      have later : ∀ next ∈ entries, (store entry.1).any refuses = false →
          ((write store entry next.1).any refuses = false ↔
            (store next.1).any refuses = false) := by
        intro next _ free
        by_cases same : next.1 = entry.1
        · rw [write, same, Function.update_self, free]
          exact iff_of_true harmless.1 rfl
        · rw [write, Function.update_of_ne same]
      constructor
      · rintro ⟨middle, first, rest⟩
        unfold guardedWrite at first
        split at first
        · cases first
        next free =>
            obtain rfl := Except.ok.inj first
            have free : (store entry.1).any refuses = false := Bool.not_eq_true _ ▸ free
            obtain ⟨others, final⟩ := (ih harmless.2).mp rest
            exact ⟨⟨free, fun next member => (later next member free).mp (others next member)⟩,
              final⟩
      · rintro ⟨⟨free, others⟩, final⟩
        refine ⟨write store entry, ?_, (ih harmless.2).mpr
          ⟨fun next member => (later next member free).mpr (others next member), final⟩⟩
        rw [guardedWrite, free]
        rfl

end Guarded

end HomeclusterInfra.Writes
