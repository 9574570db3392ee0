import HomeclusterInfra.PxeReceipt.Reader

/-!
# A receipt against the stored one

A run that finds a receipt of its date puts the window of that receipt into its own
and compares the bytes. They are the same exactly when the two agree in all that was
measured (`compareReceipt_iff`).
-/

set_option autoImplicit false

namespace HomeclusterInfra.PxeReceipt

open Text JsonText

/-- `{**value, key: item}` -/
def put (value : Json) (key : String) (item : Json) : Json :=
  match value with
  | .obj fields => .obj (setField fields key.toList item)
  | other => other

/-- A receipt with another window, and the identity that goes with it. -/
def withWindow (sha256 : List UInt8 → List Char) (value window : Json) : Json :=
  put (put value "capture_window" window) "receipt_id"
    (.str (receiptId sha256 (put value "capture_window" window)))

/-- `expected` -/
def expectedReceipt (sha256 : List UInt8 → List Char) (value existing : Json) : Option Json :=
  (existing.field "capture_window").map (withWindow sha256 value)

/-- The comparison of a built receipt with what is stored. -/
def compareReceipt (sha256 : List UInt8 → List Char) (value : Json) (existingRaw : List UInt8) :
    Option Json :=
  (loadsBytes uniqueKeys existingRaw).bind fun existing =>
    if validateReceipt sha256 existing then
      (expectedReceipt sha256 value existing).bind fun expected =>
        if existingRaw = encoded expected then some existing else none
    else none

/-- Two receipts agree in all but the window and the identity. -/
def SameMeasured (value stored : Json) : Prop :=
  ∀ key ∈ receiptKeys, key ≠ "capture_window" → key ≠ "receipt_id" →
    (value.field key).map Json.sortKeys = (stored.field key).map Json.sortKeys

section Comparison

variable {sha256 : List UInt8 → List Char} {value stored : Json}

/-- The identity of a receipt rests on its other fields. -/
theorem receiptId_congr {keys : List String} (distinct : keys.Nodup)
    (exactly : value.keysAre keys = true) (exactly' : stored.keysAre keys = true)
    (same : ∀ key ∈ keys, key ≠ "receipt_id" → (value.field key).map Json.sortKeys =
      (stored.field key).map Json.sortKeys) : receiptId sha256 value = receiptId sha256 stored := by
  have payload : (receiptPayload value).sortKeys = (receiptPayload stored).sortKeys := by
    cases value with
    | obj fields =>
        cases stored with
        | obj fields' =>
            have kept : ∀ {fields : List (List Char × Json)}, (fields.map Prod.fst).Nodup →
                ((fields.filter fun field => field.1 ≠ "receipt_id".toList).map Prod.fst).Nodup :=
              fun nodup => nodup.sublist (List.filter_sublist.map Prod.fst)
            refine sortKeys_congr (kept (names_nodup distinct exactly))
              (kept (names_nodup distinct exactly')) fun name => ?_
            rw [lookup_filter_ne, lookup_filter_ne]
            split
            next => rfl
            next other =>
                refine lookup_congr_of_keysAre distinct exactly exactly' fun key listed named => ?_
                refine same key listed ?_
                rintro rfl
                exact other named.symm
        | null | bool | int | float | str | arr => cases exactly'
    | null | bool | int | float | str | arr => cases exactly
  unfold receiptId
  rw [canonical, payload, ← canonical]

theorem field_put {key : String} {item : Json} (fields : List (List Char × Json)) (other : String) :
    (put (.obj fields) key item).field other =
      if other = key then some item else (Json.obj fields).field other := by
  rw [put, Json.field, lookup_setField, Json.field]
  simp only [String.toList_inj]

theorem keysAre_put {fields : List (List Char × Json)} {keys : List String} {key : String}
    {item : Json} (distinct : keys.Nodup) (exactly : (Json.obj fields).keysAre keys = true)
    (listed : key ∈ keys) : (put (.obj fields) key item).keysAre keys = true := by
  have old : key.toList ∈ fields.map Prod.fst :=
    (names_perm distinct exactly).mem_iff.mp (List.mem_map_of_mem listed)
  have length : (setField fields key.toList item).length = fields.length := by
    rw [← List.length_map (f := Prod.fst), names_setField old, List.length_map]
  simp only [Json.keysAre, Bool.and_eq_true, decide_eq_true_eq, List.all_eq_true] at exactly
  simp only [put, Json.keysAre, Bool.and_eq_true, decide_eq_true_eq, List.all_eq_true, length]
  refine ⟨exactly.1, fun other member => ?_⟩
  rw [lookup_setField]
  split
  next => rfl
  next => exact exactly.2 other member

/-- An object stays plain when a plain value is put under one of its keys. -/
theorem readable_put {fields : List (List Char × Json)} {keys : List String} {key : String}
    {item : Json} (distinct : keys.Nodup) (exactly : (Json.obj fields).keysAre keys = true)
    (listed : key ∈ keys) (readable : (Json.obj fields).Readable) (plain : item.Readable) :
    (put (.obj fields) key item).Readable := by
  refine readable_of_keysAre distinct (keysAre_put distinct exactly listed)
    fun other member found same => ?_
  rw [field_put] at same
  split at same
  next => exact Option.some.inj same ▸ plain
  next => exact field_eq_some_readable readable same

theorem encoded_inj (readable : value.Readable) (readable' : stored.Readable) :
    encoded value = encoded stored ↔ value.sortKeys = stored.sortKeys := by
  constructor
  · intro same
    exact (canonical_line_inj readable readable' (utf8Bytes_injective same)).1
  · intro same
    rw [encoded, encoded, canonical, same, ← canonical]

theorem field_of_fieldText {key : String} {text : List Char}
    (found : fieldText value key = some text) : value.field key = some (.str text) := by
  obtain ⟨item, same, read⟩ := Option.bind_eq_some_iff.mp found
  cases item with
  | str text' => rw [same, Option.some.inj read]
  | null | bool | int | float | arr | obj => cases read

section Window

variable {fields fields' : List (List Char × Json)} {window : Json}

theorem Valid.put (valid : Valid sha256 (.obj fields)) (plain : window.Readable) :
    (PxeReceipt.put (.obj fields) "capture_window" window).keysAre receiptKeys = true ∧
      (PxeReceipt.put (.obj fields) "capture_window" window).Readable :=
  ⟨keysAre_put (by decide) valid.keys (by decide),
    readable_put (by decide) valid.keys (by decide) valid.readable plain⟩

theorem Valid.withWindow (valid : Valid sha256 (.obj fields)) (plain : window.Readable) :
    (PxeReceipt.withWindow sha256 (.obj fields) window).keysAre receiptKeys = true ∧
      (PxeReceipt.withWindow sha256 (.obj fields) window).Readable := by
  obtain ⟨keyed, readable⟩ := valid.put plain
  have listed : "receipt_id" ∈ receiptKeys := by decide
  exact ⟨keysAre_put (by decide) keyed listed, readable_put (by decide) keyed listed readable
    (by exact trivial)⟩

theorem field_withWindow (key : String) :
    (withWindow sha256 (.obj fields) window).field key =
      if key = "receipt_id" then
        some (.str (receiptId sha256 (put (.obj fields) "capture_window" window)))
      else if key = "capture_window" then some window else (Json.obj fields).field key := by
  rw [withWindow, put, field_put, ← put, field_put]

/-- What the expected receipt has to do with the stored one. -/
theorem withWindow_sorted_iff (valid : Valid sha256 (.obj fields))
    (valid' : Valid sha256 (.obj fields'))
    (windowed : (Json.obj fields').sortKeys.field "capture_window" = some window) :
    (Json.obj fields').sortKeys = (withWindow sha256 (.obj fields) window).sortKeys ↔
      SameMeasured (.obj fields) (.obj fields') := by
  have plain : window.Readable := field_eq_some_readable valid'.readable.sortKeys windowed
  obtain ⟨keyed, readable⟩ := valid.withWindow plain
  have windows : ((Json.obj fields').field "capture_window").map Json.sortKeys = some window :=
    field_sorted valid'.readable _ ▸ windowed
  have window_sorted : window.sortKeys = window := by
    obtain ⟨original, -, rfl⟩ := Option.map_eq_some_iff.mp windows
    exact sortKeys_sortKeys original
  constructor
  · intro same key member window identity
    have found := congrArg (fun sorted => Json.field sorted key) same
    simp only [field_sorted valid'.readable, field_sorted readable, field_withWindow,
      if_neg identity, if_neg window] at found
    exact found.symm
  · intro same
    have agree : ∀ key ∈ receiptKeys, key ≠ "receipt_id" →
        ((Json.obj fields').field key).map Json.sortKeys =
          ((put (.obj fields) "capture_window" window).field key).map Json.sortKeys := by
      intro key member identity
      rw [field_put]
      split
      next here =>
          subst here
          rw [windows, Option.map_some, window_sorted]
      next another => exact (same key member another identity).symm
    refine sortKeys_eq_of_fields (by decide) valid'.keys keyed fun key member => ?_
    by_cases identity : key = "receipt_id"
    · subst identity
      rw [field_withWindow, if_pos rfl, field_of_fieldText valid'.identity,
        receiptId_congr (by decide) valid'.keys (valid.put plain).1 agree]
    · rw [agree key member identity, field_withWindow, if_neg identity, field_put]

end Window

/-- **The comparison of a receipt with a stored one.** -/
theorem compareReceipt_iff (valid : Valid sha256 value) (valid' : Valid sha256 stored)
    (existing : Json) :
    compareReceipt sha256 value (encoded stored) = some existing ↔
      SameMeasured value stored ∧ existing = stored.sortKeys := by
  obtain ⟨fields, rfl⟩ := valid.isObject
  obtain ⟨fields', rfl⟩ := valid'.isObject
  have windowed : ((Json.obj fields').sortKeys.field "capture_window").isSome := by
    have passes := valid'.sorted.window
    rw [checkField] at passes
    exact Option.isSome_of_any passes
  obtain ⟨window, windowed⟩ := Option.isSome_iff_exists.mp windowed
  have plain : window.Readable := field_eq_some_readable valid'.readable.sortKeys windowed
  rw [compareReceipt, loadsBytes_encoded valid'.readable, Option.bind_some,
    if_pos (validateReceipt_eq_true.mpr valid'.sorted), expectedReceipt, windowed, Option.map_some,
    Option.bind_some, Option.ite_none_right_eq_some, Option.some.injEq, @eq_comm _ _ existing,
    encoded_inj valid'.readable (valid.withWindow plain).2,
    withWindow_sorted_iff valid valid' windowed]

end Comparison

end HomeclusterInfra.PxeReceipt
