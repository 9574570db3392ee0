import Mathlib.Data.List.Nodup

/-!
# Mappings

A mapping with text keys that remembers the order in which its keys were
inserted, as Python's `dict` does. A key is set in its place when it is there
and at the end when it is new.
-/

set_option autoImplicit false

namespace HomeclusterInfra

universe u v

/-! ## Lists with keys -/

namespace Keyed

variable {κ : Type u} {α : Type v} [BEq κ] [LawfulBEq κ] {entries : List (κ × α)} {key : κ}
  {value : α}

theorem mem_of_lookup (found : entries.lookup key = some value) : (key, value) ∈ entries := by
  obtain ⟨before, after, rfl, -⟩ := List.lookup_eq_some_iff.mp found
  exact List.mem_append_right before List.mem_cons_self

/-- Where the keys are distinct an entry is found under its key. -/
theorem lookup_of_mem (distinct : (entries.map Prod.fst).Nodup) (member : (key, value) ∈ entries) :
    entries.lookup key = some value := by
  induction entries with
  | nil => cases member
  | cons first entries ih =>
      obtain ⟨name, other⟩ := first
      rw [List.map_cons, List.nodup_cons] at distinct
      rcases List.mem_cons.mp member with same | later
      · obtain ⟨rfl, rfl⟩ := Prod.mk.inj same
        exact List.lookup_cons_self
      · have different : key ≠ name := by
          rintro rfl
          exact distinct.1 (List.mem_map.mpr ⟨_, later, rfl⟩)
        rw [List.lookup_cons, beq_false_of_ne different]
        exact ih distinct.2 later

end Keyed

/-! ## Mappings with text keys -/

/-- Keys and values in the order of insertion. -/
abbrev Mapping (α : Type u) := List (String × α)

namespace Mapping

variable {α : Type u}

/-- `mapping.get(key)` -/
def get : Mapping α → String → Option α
  | [], _ => none
  | (name, value) :: rest, key => if name = key then some value else get rest key

/-- `key in mapping` -/
def has (mapping : Mapping α) (key : String) : Bool :=
  (mapping.get key).isSome

/-- `mapping[key] = value` -/
def set : Mapping α → String → α → Mapping α
  | [], key, value => [(key, value)]
  | (name, old) :: rest, key, value =>
      if name = key then (name, value) :: rest else (name, old) :: set rest key value

/-- `mapping.update(other)` -/
def update (mapping other : Mapping α) : Mapping α :=
  other.foldl (fun result entry => result.set entry.1 entry.2) mapping

/-- Set those of the keys that the source has to what it holds, converted. -/
def copy (source : Mapping α) (convert : α → α) (keys : List String) (target : Mapping α) :
    Mapping α :=
  keys.foldl (fun result key =>
    match source.get key with
    | some value => result.set key (convert value)
    | none => result) target

@[simp] theorem get_nil (key : String) : get ([] : Mapping α) key = none :=
  rfl

@[simp] theorem get_cons (name : String) (value : α) (rest : Mapping α) (key : String) :
    get ((name, value) :: rest) key = if name = key then some value else get rest key :=
  rfl

theorem get_set (mapping : Mapping α) (key : String) (value : α) (other : String) :
    (mapping.set key value).get other = if key = other then some value else mapping.get other := by
  induction mapping with
  | nil => rfl
  | cons entry rest ih =>
      obtain ⟨name, old⟩ := entry
      by_cases same : name = key
      · subst same
        simp only [set, get_cons, if_true]
        by_cases here : name = other
        · rw [if_pos here, if_pos here]
        · rw [if_neg here, if_neg here, if_neg here]
      · simp only [set, if_neg same, get_cons, ih]
        by_cases here : name = other
        · subst here
          rw [if_pos rfl, if_neg (Ne.symm same), if_pos rfl]
        · rw [if_neg here, if_neg here]

theorem get_set_self (mapping : Mapping α) (key : String) (value : α) :
    (mapping.set key value).get key = some value := by
  rw [get_set, if_pos rfl]

theorem get_set_of_ne (mapping : Mapping α) {key other : String} (value : α) (ne : key ≠ other) :
    (mapping.set key value).get other = mapping.get other := by
  rw [get_set, if_neg ne]

theorem get_append (first second : Mapping α) (key : String) :
    get (first ++ second : Mapping α) key = (first.get key).or (second.get key) := by
  induction first with
  | nil => rfl
  | cons entry rest ih =>
      obtain ⟨name, value⟩ := entry
      rw [List.cons_append, get_cons, get_cons, ih]
      split <;> rfl

theorem mem_of_get {mapping : Mapping α} {key : String} {value : α}
    (found : mapping.get key = some value) : (key, value) ∈ mapping := by
  induction mapping with
  | nil => cases found
  | cons entry rest ih =>
      obtain ⟨name, other⟩ := entry
      rw [get_cons] at found
      split at found
      case isTrue same =>
          rw [same, Option.some.inj found]
          exact List.mem_cons_self
      case isFalse => exact .tail _ (ih found)

theorem get_eq_none {mapping : Mapping α} {key : String} :
    mapping.get key = none ↔ key ∉ mapping.map Prod.fst := by
  induction mapping with
  | nil => simp
  | cons entry rest ih =>
      obtain ⟨name, value⟩ := entry
      rw [get_cons]
      by_cases same : name = key
      · simp [same]
      · rw [if_neg same, ih]
        simp [Ne.symm same]

/-- A key that the other mapping lacks is left alone by `update`. -/
theorem get_update_of_notMem (mapping : Mapping α) {other : Mapping α} {key : String}
    (missing : key ∉ other.map Prod.fst) : (mapping.update other).get key = mapping.get key := by
  unfold update
  induction other generalizing mapping with
  | nil => rfl
  | cons entry rest ih =>
      rw [List.map_cons, List.mem_cons, not_or] at missing
      rw [List.foldl_cons, ih _ missing.2, get_set_of_ne _ _ (Ne.symm missing.1)]

/-- `update` takes a key from the other mapping when that has it, once. -/
theorem get_update_of_nodup (mapping : Mapping α) {other : Mapping α} (key : String)
    (nodup : (other.map Prod.fst).Nodup) :
    (mapping.update other).get key = (other.get key).or (mapping.get key) := by
  unfold update
  induction other generalizing mapping with
  | nil => rfl
  | cons entry rest ih =>
      obtain ⟨name, value⟩ := entry
      rw [List.map_cons, List.nodup_cons] at nodup
      rw [List.foldl_cons, ih _ nodup.2, get_set, get_cons]
      by_cases same : name = key
      · subst same
        rw [get_eq_none.2 nodup.1, if_pos rfl, if_pos rfl]
        rfl
      · rw [if_neg same, if_neg same]

theorem keys_set_nodup {mapping : Mapping α} {key : String} {value : α}
    (nodup : (mapping.map Prod.fst).Nodup) : ((mapping.set key value).map Prod.fst).Nodup := by
  induction mapping with
  | nil => simp [set]
  | cons entry rest ih =>
      obtain ⟨name, old⟩ := entry
      rw [List.map_cons, List.nodup_cons] at nodup
      by_cases same : name = key
      · rw [set, if_pos same, List.map_cons, List.nodup_cons]
        exact nodup
      · rw [set, if_neg same, List.map_cons, List.nodup_cons]
        refine ⟨?_, ih nodup.2⟩
        rw [← get_eq_none, get_set_of_ne _ _ (Ne.symm same), get_eq_none]
        exact nodup.1

theorem keys_update_nodup {mapping : Mapping α} (other : Mapping α)
    (nodup : (mapping.map Prod.fst).Nodup) : ((mapping.update other).map Prod.fst).Nodup := by
  unfold update
  induction other generalizing mapping with
  | nil => exact nodup
  | cons entry rest ih => exact ih (keys_set_nodup nodup)

/-- Setting a new key makes a mapping longer by one, setting an old one does not. -/
theorem length_set (mapping : Mapping α) (key : String) (value : α) :
    (mapping.set key value).length =
      if (mapping.get key).isSome then mapping.length else mapping.length + 1 := by
  induction mapping with
  | nil => rfl
  | cons entry rest ih =>
      obtain ⟨name, old⟩ := entry
      rw [get_cons]
      by_cases same : name = key
      · simp [set, same]
      · rw [set, if_neg same, if_neg same, List.length_cons, ih, List.length_cons]
        split <;> rfl

theorem length_update_le (mapping other : Mapping α) :
    (mapping.update other).length ≤ mapping.length + other.length := by
  unfold update
  induction other generalizing mapping with
  | nil => exact Nat.le_refl _
  | cons entry rest ih =>
      have next := ih (mapping.set entry.1 entry.2)
      rw [length_set] at next
      rw [List.foldl_cons, List.length_cons]
      split at next <;> omega

/-- **An update adds as many keys as it is given** exactly when they are all
different and all new. -/
theorem length_update_iff (mapping other : Mapping α) :
    (mapping.update other).length = mapping.length + other.length ↔
      (other.map Prod.fst).Nodup ∧ ∀ entry ∈ other, mapping.get entry.1 = none := by
  induction other generalizing mapping with
  | nil => simp [update]
  | cons entry rest ih =>
      obtain ⟨name, value⟩ := entry
      have split : mapping.update ((name, value) :: rest) = (mapping.set name value).update rest :=
        rfl
      rw [split, List.map_cons, List.nodup_cons, List.forall_mem_cons, List.length_cons]
      cases held : mapping.get name with
      | some old =>
          have short := length_update_le (mapping.set name value) rest
          rw [length_set, held] at short
          simp only [Option.isSome_some, if_true] at short
          refine iff_of_false (by omega) fun all => ?_
          exact absurd all.2.1 (by simp)
      | none =>
          have longer : (mapping.set name value).length = mapping.length + 1 := by
            rw [length_set, held]
            rfl
          have regroup : mapping.length + (rest.length + 1) =
              (mapping.set name value).length + rest.length := by
            omega
          rw [regroup, ih]
          constructor
          · rintro ⟨nodup, fresh⟩
            have apart : ∀ entry ∈ rest, name ≠ entry.1 := by
              intro entry member same
              have absent := fresh entry member
              rw [← same, get_set_self] at absent
              cases absent
            refine ⟨⟨?_, nodup⟩, rfl, fun entry member => ?_⟩
            · intro inside
              obtain ⟨entry, member, same⟩ := List.mem_map.mp inside
              exact apart entry member same.symm
            · rw [← get_set_of_ne mapping value (apart entry member)]
              exact fresh entry member
          · rintro ⟨⟨absent, nodup⟩, -, fresh⟩
            refine ⟨nodup, fun entry member => ?_⟩
            have apart : name ≠ entry.1 := by
              rintro rfl
              exact absent (List.mem_map.mpr ⟨entry, member, rfl⟩)
            rw [get_set_of_ne mapping value apart]
            exact fresh entry member

/-- A mapping without repeated keys has what is listed in it. -/
theorem get_of_mem {mapping : Mapping α} {key : String} {value : α}
    (nodup : (mapping.map Prod.fst).Nodup) (member : (key, value) ∈ mapping) :
    mapping.get key = some value := by
  induction mapping with
  | nil => cases member
  | cons entry rest ih =>
      obtain ⟨name, other⟩ := entry
      rw [List.map_cons, List.nodup_cons] at nodup
      rw [get_cons]
      rcases List.mem_cons.mp member with same | inside
      · obtain ⟨rfl, rfl⟩ := Prod.mk.inj same
        exact if_pos rfl
      · have apart : name ≠ key := by
          rintro rfl
          exact nodup.1 (List.mem_map.mpr ⟨(name, value), inside, rfl⟩)
        rw [if_neg apart]
        exact ih nodup.2 inside

/-- An update with one value for each key of a list. -/
theorem get_update_map (mapping : Mapping α) (keys : List String) (value : String → α)
    (key : String) :
    (mapping.update (keys.map fun name => (name, value name))).get key =
      if key ∈ keys then some (value key) else mapping.get key := by
  unfold update
  induction keys generalizing mapping with
  | nil => rfl
  | cons name keys ih =>
      rw [List.map_cons, List.foldl_cons, ih, get_set]
      by_cases same : name = key
      · subst same
        simp
      · simp [same, Ne.symm same]

theorem get_copy (source : Mapping α) (convert : α → α) (keys : List String) (target : Mapping α)
    (key : String) :
    (copy source convert keys target).get key =
      if key ∈ keys then ((source.get key).map convert).or (target.get key)
      else target.get key := by
  unfold copy
  induction keys generalizing target with
  | nil => rfl
  | cons first keys ih =>
      rw [List.foldl_cons, ih]
      by_cases same : first = key
      · subst same
        cases found : source.get first with
        | none => simp
        | some value => simp [get_set_self]
      · have other : (match source.get first with
            | some value => target.set first (convert value)
            | none => target).get key = target.get key := by
          cases source.get first with
          | none => rfl
          | some value => exact get_set_of_ne target _ same
        rw [other]
        simp [Ne.symm same]

theorem keys_copy_nodup (source : Mapping α) (convert : α → α) (keys : List String)
    {target : Mapping α} (nodup : (target.map Prod.fst).Nodup) :
    ((copy source convert keys target).map Prod.fst).Nodup := by
  unfold copy
  induction keys generalizing target with
  | nil => exact nodup
  | cons first keys ih =>
      rw [List.foldl_cons]
      refine ih ?_
      cases source.get first with
      | none => exact nodup
      | some value => exact keys_set_nodup nodup

end Mapping

end HomeclusterInfra
