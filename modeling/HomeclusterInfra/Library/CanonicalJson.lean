import Mathlib.Data.List.Lex
import Mathlib.Data.Char
import HomeclusterInfra.Library.JsonLengths
import HomeclusterInfra.Library.JsonObject
import HomeclusterInfra.Library.NamedTree

/-!
# Canonical JSON

`json.dumps` with sorted keys and compact separators gives one text for all the
orders in which the fields of an object may stand. The text is read back as the
value with its keys sorted, and a line of such a text is known from the text that
it begins.

Bytes are written as hexadecimal digits, two for each, or are those of a text.
-/

set_option autoImplicit false

namespace HomeclusterInfra.JsonText

open Text

/-! ## Sorted keys -/

mutual
/-- A value whose objects all have their fields in the order of the keys. -/
def Json.sortKeys : Json → Json
  | .null => .null
  | .bool value => .bool value
  | .int value => .int value
  | .float value => .float value
  | .str value => .str value
  | .arr items => .arr (sortKeysItems items)
  | .obj fields => .obj (sortedByKey (sortKeysFields fields))

def sortKeysItems : List Json → List Json
  | [] => []
  | item :: items => item.sortKeys :: sortKeysItems items

def sortKeysFields : List (List Char × Json) → List (List Char × Json)
  | [] => []
  | (key, value) :: fields => (key, value.sortKeys) :: sortKeysFields fields
end

/-- `json.dumps(value, sort_keys=True, separators=(",", ":"), ensure_ascii=True)` -/
def canonical (value : Json) : List Char :=
  dumps (Style.compact true) value.sortKeys

section SortedKeys

variable {value other : Json} {fields fields' : List (List Char × Json)}

theorem sortKeysItems_eq (items : List Json) : sortKeysItems items = items.map Json.sortKeys := by
  induction items with
  | nil => rfl
  | cons item items ih => rw [sortKeysItems, ih, List.map_cons]

theorem sortKeysFields_eq (fields : List (List Char × Json)) :
    sortKeysFields fields = fields.map fun field => (field.1, field.2.sortKeys) := by
  induction fields with
  | nil => rfl
  | cons field fields ih => rw [sortKeysFields, ih, List.map_cons]

theorem sortKeys_obj (fields : List (List Char × Json)) : (Json.obj fields).sortKeys =
    .obj ((sortedByKey fields).map fun field => (field.1, field.2.sortKeys)) := by
  rw [Json.sortKeys, sortKeysFields_eq, sortedByKey_map]

theorem sortKeys_arr (items : List Json) :
    (Json.arr items).sortKeys = .arr (items.map Json.sortKeys) := by
  rw [Json.sortKeys, sortKeysItems_eq]

theorem allReadable_iff {items : List Json} :
    AllReadable items ↔ ∀ item ∈ items, item.Readable := by
  induction items with
  | nil => simp [AllReadable]
  | cons item items ih => rw [AllReadable, ih, List.forall_mem_cons]

theorem fieldsReadable_iff : FieldsReadable fields ↔ ∀ field ∈ fields, field.2.Readable := by
  induction fields with
  | nil => simp [FieldsReadable]
  | cons field fields ih => rw [FieldsReadable, ih, List.forall_mem_cons]

/-- The keys keep their names. -/
theorem names_sortKeysFields (fields : List (List Char × Json)) :
    (sortKeysFields fields).map Prod.fst = fields.map Prod.fst := by
  rw [sortKeysFields_eq, List.map_map]
  rfl

mutual
theorem Json.Readable.sortKeys : ∀ {value : Json}, value.Readable → value.sortKeys.Readable
  | .null, readable => readable
  | .bool _, readable => readable
  | .int _, readable => readable
  | .float _, readable => readable
  | .str _, readable => readable
  | .arr items, readable => @AllReadable.sortKeys items readable
  | .obj fields, readable => by
      refine ⟨?_, ?_⟩
      · refine ((sortedByKey_perm (sortKeysFields fields)).map Prod.fst).nodup_iff.mpr ?_
        rw [names_sortKeysFields]
        exact readable.1
      · rw [fieldsReadable_iff]
        intro field member
        rw [mem_sortedByKey] at member
        exact fieldsReadable_iff.mp (FieldsReadable.sortKeys readable.2) field member

theorem AllReadable.sortKeys : ∀ {items : List Json}, AllReadable items →
    AllReadable (sortKeysItems items)
  | [], readable => readable
  | _ :: _, readable => ⟨Json.Readable.sortKeys readable.1, AllReadable.sortKeys readable.2⟩

theorem FieldsReadable.sortKeys : ∀ {fields : List (List Char × Json)}, FieldsReadable fields →
    FieldsReadable (sortKeysFields fields)
  | [], readable => readable
  | (_, _) :: _, readable =>
      ⟨Json.Readable.sortKeys readable.1, FieldsReadable.sortKeys readable.2⟩
end

/-- A field is found where its key is, in the sorted object as well. -/
theorem lookup_sortKeys (distinct : (fields.map Prod.fst).Nodup) (name : List Char) :
    (sortedByKey (sortKeysFields fields)).lookup name = (fields.lookup name).map Json.sortKeys := by
  have apart : ((sortedByKey (sortKeysFields fields)).map Prod.fst).Nodup := by
    refine ((sortedByKey_perm (sortKeysFields fields)).map Prod.fst).nodup_iff.mpr ?_
    rw [names_sortKeysFields]
    exact distinct
  cases found : fields.lookup name with
  | some value =>
      refine Keyed.lookup_of_mem apart (mem_sortedByKey.mpr ?_)
      rw [sortKeysFields_eq]
      exact List.mem_map.mpr ⟨_, Keyed.mem_of_lookup found, rfl⟩
  | none =>
      rw [Option.map_none, List.lookup_eq_none_iff]
      intro field member
      rw [mem_sortedByKey, sortKeysFields_eq] at member
      obtain ⟨original, listed, rfl⟩ := List.mem_map.mp member
      exact List.lookup_eq_none_iff.mp found original listed

theorem field_sortKeys (readable : (Json.obj fields).Readable) (key : String) :
    (Json.obj fields).sortKeys.field key = ((Json.obj fields).field key).map Json.sortKeys :=
  lookup_sortKeys readable.1 key.toList

theorem field_sortKeys_object {named : List (String × Json)} (readable : (Json.object named).Readable)
    (key : String) : (Json.object named).sortKeys.field key =
      (Mapping.get named key).map Json.sortKeys := by
  rw [← Json.field_object]
  exact field_sortKeys readable key

mutual
/-- Keys that are sorted stay as they are. -/
theorem sortKeys_sortKeys : ∀ value : Json, value.sortKeys.sortKeys = value.sortKeys
  | .null => rfl
  | .bool _ => rfl
  | .int _ => rfl
  | .float _ => rfl
  | .str _ => rfl
  | .arr items => congrArg Json.arr (sortKeysItems_sortKeysItems items)
  | .obj fields => by
      have inside := sortKeysFields_sortKeysFields fields
      rw [Json.sortKeys, Json.sortKeys, sortKeysFields_eq, ← sortedByKey_map,
        ← sortKeysFields_eq, inside]
      congr 1
      exact List.Pairwise.insertionSort_eq (List.pairwise_insertionSort _ _)

theorem sortKeysItems_sortKeysItems : ∀ items : List Json,
    sortKeysItems (sortKeysItems items) = sortKeysItems items
  | [] => rfl
  | item :: items => by
      rw [sortKeysItems, sortKeysItems, sortKeys_sortKeys item, sortKeysItems_sortKeysItems items]

theorem sortKeysFields_sortKeysFields : ∀ fields : List (List Char × Json),
    sortKeysFields (sortKeysFields fields) = sortKeysFields fields
  | [] => rfl
  | (key, value) :: fields => by
      rw [sortKeysFields, sortKeysFields, sortKeys_sortKeys value,
        sortKeysFields_sortKeysFields fields]
end

end SortedKeys

/-! ## Canonical texts -/

section Canonical

variable {value other : Json}

/-- **A canonical text is read back** with its keys sorted, whatever blanks follow. -/
theorem loadsWith_canonical {hook : PairsHook} (keeps : hook.Keeps) (readable : value.Readable)
    {spaces : List Char} (areSpaces : spaces.all isJsonSpace = true) :
    loadsWith hook (canonical value ++ spaces) = some value.sortKeys :=
  loadsWith_dumps keeps (compact_standard true) readable.sortKeys areSpaces

theorem endsNumber_newline (rest : List Char) : Binary64.EndsNumber ('\n' :: rest) := by
  intro char head
  obtain rfl := Option.some.inj head
  decide

/-- **A line is known from the text that it begins.** -/
theorem canonical_line_inj (readable : value.Readable) (readable' : other.Readable)
    {rest rest' : List Char}
    (same : canonical value ++ '\n' :: rest = canonical other ++ '\n' :: rest') :
    value.sortKeys = other.sortKeys ∧ rest = rest' := by
  have read := @readValue_dumps uniqueKeys _ uniqueKeys_keeps (compact_standard true) _
    readable.sortKeys ((canonical value).length + (canonical other).length + 1)
    (by rw [canonical]; omega) ('\n' :: rest) (endsNumber_newline rest)
  have read' := @readValue_dumps uniqueKeys _ uniqueKeys_keeps (compact_standard true) _
    readable'.sortKeys ((canonical value).length + (canonical other).length + 1)
    (by rw [canonical, canonical]; omega) ('\n' :: rest') (endsNumber_newline rest')
  rw [canonical, canonical] at same
  rw [same, read'] at read
  obtain ⟨sameValue, sameRest⟩ := Prod.mk.inj (Option.some.inj read)
  exact ⟨sameValue.symm, (List.cons.inj sameRest).2.symm⟩

end Canonical

/-! ## Objects with the same fields -/

section SameFields

variable {fields fields' : List (List Char × Json)}

/-- Objects whose fields are the same, up to the order of keys, are the same once sorted. -/
theorem sortKeys_congr (distinct : (fields.map Prod.fst).Nodup)
    (distinct' : (fields'.map Prod.fst).Nodup)
    (same : ∀ name, (fields.lookup name).map Json.sortKeys =
      (fields'.lookup name).map Json.sortKeys) :
    (Json.obj fields).sortKeys = (Json.obj fields').sortKeys := by
  have names : ∀ {fields : List (List Char × Json)}, (fields.map Prod.fst).Nodup →
      ((sortKeysFields fields).map Prod.fst).Nodup := by
    intro fields nodup
    rwa [names_sortKeysFields]
  have entries : ∀ {fields : List (List Char × Json)}, (fields.map Prod.fst).Nodup →
      ∀ entry, entry ∈ sortKeysFields fields ↔
        (fields.lookup entry.1).map Json.sortKeys = some entry.2 := by
    intro fields nodup entry
    rw [sortKeysFields_eq, List.mem_map, Option.map_eq_some_iff]
    constructor
    · rintro ⟨field, member, rfl⟩
      exact ⟨field.2, Keyed.lookup_of_mem nodup member, rfl⟩
    · rintro ⟨value, found, sorted⟩
      exact ⟨(entry.1, value), Keyed.mem_of_lookup found, Prod.ext rfl sorted⟩
  rw [Json.sortKeys, Json.sortKeys]
  congr 1
  refine sortedByKey_eq_of_mem_iff (names distinct) (names distinct') fun entry => ?_
  rw [entries distinct, entries distinct', same]

theorem lookup_setField (fields : List (List Char × Json)) (key name : List Char) (value : Json) :
    (setField fields key value).lookup name =
      if name = key then some value else fields.lookup name := by
  induction fields with
  | nil =>
      rw [setField, List.lookup_cons, List.lookup_nil]
      by_cases same : name = key
      · rw [if_pos same, beq_iff_eq.mpr same]
      · rw [if_neg same, beq_false_of_ne same]
  | cons field fields ih =>
      obtain ⟨first, old⟩ := field
      rw [setField]
      split
      next here =>
          subst here
          rw [List.lookup_cons, List.lookup_cons]
          by_cases same : name = first
          · rw [if_pos same, beq_iff_eq.mpr same]
          · rw [if_neg same, beq_false_of_ne same]
      next apart =>
          rw [List.lookup_cons, List.lookup_cons, ih]
          by_cases same : name = first
          · have other : name ≠ key := fun equal => apart (same.symm.trans equal)
            simp only [beq_iff_eq.mpr same, if_neg other]
          · rw [beq_false_of_ne same]

theorem names_setField {key : List Char} {value : Json} (old : key ∈ fields.map Prod.fst) :
    (setField fields key value).map Prod.fst = fields.map Prod.fst := by
  induction fields with
  | nil => exact absurd old List.not_mem_nil
  | cons field fields ih =>
      obtain ⟨first, value'⟩ := field
      rw [setField]
      split
      next => rfl
      next apart =>
          rw [List.map_cons, List.mem_cons] at old
          rw [List.map_cons, List.map_cons, ih (old.resolve_left (Ne.symm apart))]

theorem lookup_filter_ne (fields : List (List Char × Json)) (key name : List Char) :
    (fields.filter fun field => field.1 ≠ key).lookup name =
      if name = key then none else fields.lookup name := by
  induction fields with
  | nil => simp
  | cons field fields ih =>
      obtain ⟨first, value⟩ := field
      by_cases dropped : first = key
      · rw [List.filter_cons_of_neg (by simpa using dropped), ih, List.lookup_cons]
        by_cases same : name = key
        · rw [if_pos same, if_pos same]
        · rw [if_neg same, if_neg same, beq_false_of_ne (dropped ▸ same)]
      · rw [List.filter_cons_of_pos (by simpa using dropped), List.lookup_cons, List.lookup_cons,
          ih]
        by_cases same : name = first
        · have other : name ≠ key := fun equal => dropped (same.symm.trans equal)
          simp only [beq_iff_eq.mpr same, if_neg other]
        · rw [beq_false_of_ne same]

/-- A name under which two objects with the same keys have the same. -/
theorem lookup_congr_of_keysAre {keys : List String} (distinct : keys.Nodup)
    (exactly : (Json.obj fields).keysAre keys = true)
    (exactly' : (Json.obj fields').keysAre keys = true) {name : List Char}
    (same : ∀ key ∈ keys, key.toList = name → ((Json.obj fields).field key).map Json.sortKeys =
      ((Json.obj fields').field key).map Json.sortKeys) :
    (fields.lookup name).map Json.sortKeys = (fields'.lookup name).map Json.sortKeys := by
  by_cases member : name ∈ keys.map String.toList
  · obtain ⟨key, listed, rfl⟩ := List.mem_map.mp member
    exact same key listed rfl
  · have absent : ∀ {fields : List (List Char × Json)}, (Json.obj fields).keysAre keys = true →
        fields.lookup name = none := by
      intro fields exactly
      rw [List.lookup_eq_none_iff]
      intro field inside
      rw [bne_iff_ne]
      rintro rfl
      exact member ((names_perm distinct exactly).mem_iff.mpr (List.mem_map_of_mem inside))
    rw [absent exactly, absent exactly']

/-- Objects with the same keys whose fields are the same. -/
theorem sortKeys_eq_of_fields {value other : Json} {keys : List String} (distinct : keys.Nodup)
    (exactly : value.keysAre keys = true) (exactly' : other.keysAre keys = true)
    (same : ∀ key ∈ keys, (value.field key).map Json.sortKeys =
      (other.field key).map Json.sortKeys) : value.sortKeys = other.sortKeys := by
  cases value with
  | obj fields =>
      cases other with
      | obj fields' =>
          exact sortKeys_congr (names_nodup distinct exactly) (names_nodup distinct exactly')
            fun name => lookup_congr_of_keysAre distinct exactly exactly' fun key listed _ =>
              same key listed
      | null | bool | int | float | str | arr => cases exactly'
  | null | bool | int | float | str | arr => cases exactly

end SameFields

/-! ## Bytes -/

theorem utf8Bytes_injective : Function.Injective utf8Bytes := by
  intro text text' same
  have decoded := utf8Decode_utf8Bytes text
  rw [same, utf8Decode_utf8Bytes] at decoded
  exact (Option.some.inj decoded).symm

/-- `bytes.hex()` -/
def hexText (bytes : List UInt8) : List Char :=
  bytes.flatMap fun byte => [(byte.toNat / 16).digitChar, (byte.toNat % 16).digitChar]

theorem hexText_injective : Function.Injective hexText := by
  intro first
  induction first with
  | nil =>
      intro second same
      cases second with
      | nil => rfl
      | cons byte second => cases same
  | cons byte first ih =>
      intro second same
      cases second with
      | nil => cases same
      | cons byte' second =>
          simp only [hexText, List.flatMap_cons, List.cons_append, List.nil_append,
            List.cons.injEq] at same
          obtain ⟨high, low, rest⟩ := same
          have digits : ∀ {one other : Nat}, one < 16 → other < 16 →
              one.digitChar = other.digitChar → one = other := by
            intro one other small small' same
            have read := hexDigit_digitChar small
            rw [same, hexDigit_digitChar small'] at read
            exact (Option.some.inj read).symm
          have below := byte.toNat_lt
          have below' := byte'.toNat_lt
          have highs := digits (by omega) (by omega) high
          have lows := digits (by omega) (by omega) low
          have sameByte : byte = byte' := UInt8.toNat_inj.mp (by omega)
          rw [sameByte, ih rest]

end HomeclusterInfra.JsonText
