import Mathlib.Data.List.Nodup
import HomeclusterInfra.Library.JsonReader
import HomeclusterInfra.Library.Mapping

/-!
# Objects with literal keys

Access to the fields of a JSON object by their names, and what it yields for an
object that was built from a list of named fields.
-/

set_option autoImplicit false

namespace HomeclusterInfra.JsonText

/-- `value.get(key)`; nothing when the value is no object. -/
def Json.field (value : Json) (key : String) : Option Json :=
  match value with
  | .obj fields => fields.lookup key.toList
  | _ => none

/-- `set(value) == set(keys)`, of an object and keys that are all different. -/
def Json.keysAre (value : Json) (keys : List String) : Bool :=
  match value with
  | .obj fields => fields.length = keys.length && keys.all fun key =>
      (fields.lookup key.toList).isSome
  | _ => false

/-- A natural number. -/
def Json.asNat : Json → Option Nat
  | .int value => if 0 ≤ value then some value.toNat else none
  | _ => none

/-- A text. -/
def Json.asChars : Json → Option (List Char)
  | .str value => some value
  | _ => none

def Json.asText (value : Json) : Option String :=
  value.asChars.map String.ofList

/-- The items of a list. -/
def Json.asList : Json → Option (List Json)
  | .arr items => some items
  | _ => none

section Fields

variable {fields : List (String × Json)}

theorem lookup_map_toList (fields : List (String × Json)) (key : String) :
    (fields.map fun field => (field.1.toList, field.2)).lookup key.toList =
      Mapping.get fields key := by
  induction fields with
  | nil => rfl
  | cons field fields ih =>
      obtain ⟨name, value⟩ := field
      rw [List.map_cons, Mapping.get_cons, List.lookup_cons]
      by_cases same : name = key
      · subst same
        simp
      · have different : (key.toList == name.toList) = false := by
          rw [beq_eq_false_iff_ne]
          exact fun texts => same (String.toList_inj.1 texts).symm
        rw [different, if_neg same]
        exact ih

@[simp] theorem Json.field_object (fields : List (String × Json)) (key : String) :
    (Json.object fields).field key = Mapping.get fields key :=
  lookup_map_toList fields key

@[simp] theorem Json.keysAre_object (fields : List (String × Json)) (keys : List String) :
    (Json.object fields).keysAre keys =
      (decide (fields.length = keys.length) && keys.all fun key => Mapping.has fields key) := by
  simp only [Json.object, Json.keysAre, List.length_map, lookup_map_toList, Mapping.has]

@[simp] theorem Json.asNat_natCast (n : Nat) : (Json.int n).asNat = some n := by
  simp [Json.asNat]

@[simp] theorem Json.asText_text (value : String) : (Json.text value).asText = some value := by
  simp [Json.asText, Json.text, Json.asChars]

/-- An object whose fields are readable, each under its own name. -/
theorem readable_object (distinct : (fields.map Prod.fst).Nodup)
    (readable : ∀ field ∈ fields, field.2.Readable) : (Json.object fields).Readable := by
  refine ⟨?_, ?_⟩
  · have keys : (fields.map fun field => (field.1.toList, field.2)).map Prod.fst =
        (fields.map Prod.fst).map String.toList := by
      simp only [List.map_map]
      rfl
    rw [keys]
    exact List.Nodup.map (fun _ _ same => String.toList_inj.1 same) distinct
  · clear distinct
    induction fields with
    | nil => exact trivial
    | cons field fields ih =>
        rw [List.forall_mem_cons] at readable
        exact ⟨readable.1, ih readable.2⟩

theorem readable_arr {items : List Json} (readable : ∀ item ∈ items, item.Readable) :
    (Json.arr items).Readable := by
  have all : AllReadable items := by
    induction items with
    | nil => exact trivial
    | cons item items ih =>
        rw [List.forall_mem_cons] at readable
        exact ⟨readable.1, ih readable.2⟩
  exact all

end Fields

/-! ## Objects with exact keys -/

section ExactKeys

variable {fields : List (List Char × Json)} {keys : List String}

/-- The names of an object with exact keys are the keys, each once. -/
theorem names_perm (distinct : keys.Nodup) (exactly : (Json.obj fields).keysAre keys = true) :
    (keys.map String.toList).Perm (fields.map Prod.fst) := by
  simp only [Json.keysAre, Bool.and_eq_true, decide_eq_true_eq, List.all_eq_true] at exactly
  refine List.Subperm.perm_of_length_le (List.subperm_of_subset ?_ ?_) ?_
  · exact List.Nodup.map (fun _ _ same => String.toList_inj.1 same) distinct
  · intro name member
    obtain ⟨key, listed, rfl⟩ := List.mem_map.1 member
    obtain ⟨value, found⟩ := Option.isSome_iff_exists.1 (exactly.2 key listed)
    exact List.mem_map.2 ⟨_, Keyed.mem_of_lookup found, rfl⟩
  · rw [List.length_map, List.length_map, exactly.1]

theorem names_nodup (distinct : keys.Nodup) (exactly : (Json.obj fields).keysAre keys = true) :
    (fields.map Prod.fst).Nodup :=
  (names_perm distinct exactly).nodup
    (List.Nodup.map (fun _ _ same => String.toList_inj.1 same) distinct)

end ExactKeys

end HomeclusterInfra.JsonText
