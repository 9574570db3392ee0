import Mathlib.Algebra.Order.BigOperators.Group.List
import HomeclusterInfra.Library.CanonicalJson
import HomeclusterInfra.Library.DecimalLengths

/-!
# Sizes of JSON texts

How long a JSON text in compact separators can become, from bounds for its parts.
An object whose keys are known is bounded by a table of its fields.
-/

set_option autoImplicit false

namespace HomeclusterInfra.JsonText

open Text

/-- The number of bytes of a value in compact separators. -/
def compactLength (value : Json) : Nat :=
  encodedLength (Style.compact true) value

/-- A character that stands for itself in a JSON string. -/
def isPlain (char : Char) : Bool :=
  32 ≤ char.toNat && char.toNat ≤ 126 && char ≠ '"' && char ≠ '\\'

theorem escapeChar_of_isPlain {char : Char} (plain : isPlain char = true) (style : Style) :
    escapeChar style char = [char] := by
  simp only [isPlain, Bool.and_eq_true, decide_eq_true_eq] at plain
  obtain ⟨⟨⟨low, high⟩, quote⟩, backslash⟩ := plain
  rw [escapeChar_plain (by
    rintro (same | same | control)
    · exact quote same
    · exact backslash same
    · omega), if_neg]
  rw [Bool.and_eq_true, decide_eq_true_eq, not_and]
  intro _
  omega

theorem utf8Length_of_plain {text : List Char} (plain : text.all isPlain = true) :
    utf8Length text = text.length := by
  refine utf8Length_ascii fun char member => ?_
  have inside := List.all_eq_true.mp plain char member
  simp only [isPlain, Bool.and_eq_true, decide_eq_true_eq] at inside
  omega

theorem utf8Length_stringText {text : List Char} (plain : text.all isPlain = true) (style : Style) :
    utf8Length (stringText style text) = text.length + 2 := by
  have same : text.flatMap (escapeChar style) = text := by
    induction text with
    | nil => rfl
    | cons char text ih =>
        rw [List.all_cons, Bool.and_eq_true] at plain
        rw [List.flatMap_cons, escapeChar_of_isPlain plain.1, ih plain.2, List.singleton_append]
  have quote : '"'.utf8Size = 1 := rfl
  rw [stringText, same, utf8Length_append, utf8Length_cons, utf8Length_cons, utf8Length_nil, quote,
    utf8Length_of_plain plain]
  omega

theorem compactLength_str {text : List Char} (plain : text.all isPlain = true) :
    compactLength (.str text) = text.length + 2 :=
  utf8Length_stringText plain _

theorem compactLength_nat {n digits : Nat} (positive : 0 < digits) (small : n < 10 ^ digits) :
    compactLength (.int n) ≤ digits := by
  have length := Binary64.length_natText_le positive small
  rw [← utf8Length_ascii fun char member => natText_ascii member] at length
  exact length

/-- A double that is not too great. -/
theorem compactLength_float_le {value : Rat} {digits : Nat} (large : 1 ≤ value)
    (small : value < 10 ^ digits) (few : digits ≤ 15) : compactLength (.float value) ≤ 40 := by
  have length := Binary64.length_reprText_le large small few
  rw [← utf8Length_ascii (Binary64.reprText_ascii value)] at length
  exact length

theorem compactLength_arr_le (items : List Json) :
    compactLength (.arr items) ≤ 2 + (items.map fun item => compactLength item + 1).sum := by
  have inside : ∀ items : List Json, utf8Length (dumpsItems (Style.compact true) items) ≤
      (items.map fun item => compactLength item + 1).sum := by
    intro items
    induction items with
    | nil => exact Nat.le_refl _
    | cons item items ih =>
        cases items with
        | nil =>
            simp only [dumpsItems, List.map_cons, List.map_nil, List.sum_cons, List.sum_nil,
              compactLength, encodedLength]
            omega
        | cons next items =>
            rw [dumpsItems_cons_cons, List.map_cons, List.sum_cons, utf8Length_append,
              utf8Length_append]
            have comma : utf8Length (Style.compact true).itemSeparator = 1 := rfl
            rw [comma, compactLength, encodedLength]
            omega
  have whole := inside items
  have opening : '['.utf8Size = 1 := rfl
  have closing : ']'.utf8Size = 1 := rfl
  rw [compactLength, encodedLength, dumps, utf8Length_append, utf8Length_cons, utf8Length_cons,
    utf8Length_nil, opening, closing]
  omega

theorem compactLength_obj_le {fields : List (List Char × Json)}
    (plain : ∀ field ∈ fields, field.1.all isPlain = true) :
    compactLength (.obj fields) ≤
      2 + (fields.map fun field => field.1.length + 4 + compactLength field.2).sum := by
  have inside : utf8Length (dumpsFields (Style.compact true) fields) ≤
      (fields.map fun field => field.1.length + 4 + compactLength field.2).sum := by
    induction fields with
    | nil => exact Nat.le_refl _
    | cons field fields ih =>
        rw [List.forall_mem_cons] at plain
        have later := ih plain.2
        have key := utf8Length_stringText plain.1 (Style.compact true)
        have colon : utf8Length (Style.compact true).keySeparator = 1 := rfl
        have comma : utf8Length (Style.compact true).itemSeparator = 1 := rfl
        cases fields with
        | nil =>
            simp only [dumpsFields, List.map_cons, List.map_nil, List.sum_cons, List.sum_nil,
              utf8Length_append, key, colon, compactLength, encodedLength]
            omega
        | cons next fields =>
            rw [dumpsFields_cons_cons, List.map_cons, List.sum_cons]
            simp only [utf8Length_append, key, colon, comma]
            rw [compactLength, encodedLength]
            omega
  have opening : '\x7b'.utf8Size = 1 := rfl
  have closing : '\x7d'.utf8Size = 1 := rfl
  rw [compactLength, encodedLength, dumps, utf8Length_append, utf8Length_cons, utf8Length_cons,
    utf8Length_nil, opening, closing]
  omega

/-- An object with sorted keys is as long as its fields. -/
theorem compactLength_sortKeys_le {named : List (String × Json)}
    (plain : ∀ field ∈ named, field.1.toList.all isPlain = true) :
    compactLength (Json.object named).sortKeys ≤
      2 + (named.map fun field => field.1.length + 4 + compactLength field.2.sortKeys).sum := by
  have whole : (Json.object named).sortKeys = .obj ((sortedByKey (named.map fun field =>
      (field.1.toList, field.2))).map fun field => (field.1, field.2.sortKeys)) := sortKeys_obj _
  have keys : ∀ field ∈ (sortedByKey (named.map fun field => (field.1.toList, field.2))).map
      fun field => (field.1, field.2.sortKeys), field.1.all isPlain = true := by
    intro field member
    obtain ⟨entry, listed, rfl⟩ := List.mem_map.mp member
    obtain ⟨given, isField, rfl⟩ := List.mem_map.mp (mem_sortedByKey.mp listed)
    exact plain given isField
  rw [whole]
  refine (compactLength_obj_le keys).trans (Nat.add_le_add_left (Nat.le_of_eq ?_) 2)
  rw [List.map_map, ((sortedByKey_perm _).map _).sum_eq, List.map_map]
  simp only [Function.comp_def, String.length_toList]

/-- A field with a plain key whose key and value are no longer than some bounds. -/
def Fits (width bound : Nat) (field : String × Json) : Prop :=
  (field.1.toList.all isPlain = true ∧ field.1.length ≤ width) ∧ compactLength field.2 ≤ bound

theorem fits_of {width bound : Nat} (key : String) {value : Json}
    (known : key.toList.all isPlain = true ∧ key.length ≤ width)
    (short : compactLength value ≤ bound) : Fits width bound (key, value) :=
  ⟨known, short⟩

theorem sum_le_of_fits {width bound : Nat} {named : List (String × Json)}
    (fits : ∀ field ∈ named, Fits width bound field) :
    (named.map fun field => field.1.length + 4 + compactLength field.2).sum ≤
      named.length * (width + 4 + bound) := by
  induction named with
  | nil => exact Nat.zero_le _
  | cons field named ih =>
      rw [List.forall_mem_cons] at fits
      obtain ⟨⟨⟨-, key⟩, value⟩, rest⟩ := fits
      have later := ih rest
      rw [List.map_cons, List.sum_cons, List.length_cons, Nat.succ_mul]
      omega

/-- An object is no longer than its number of fields allows. -/
theorem compactLength_object_le {width bound : Nat} {named : List (String × Json)}
    (fits : ∀ field ∈ named, Fits width bound field) :
    compactLength (Json.object named) ≤ 2 + named.length * (width + 4 + bound) := by
  have plain : ∀ field ∈ named.map fun field => (field.1.toList, field.2),
      field.1.all isPlain = true := by
    intro field member
    obtain ⟨given, listed, rfl⟩ := List.mem_map.mp member
    exact (fits given listed).1.1
  refine (compactLength_obj_le plain).trans (Nat.add_le_add_left ?_ 2)
  rw [List.map_map]
  exact sum_le_of_fits fits

theorem compactLength_sorted_le {width bound : Nat} {named : List (String × Json)}
    (fits : ∀ field ∈ named, Fits width bound (field.1, field.2.sortKeys)) :
    compactLength (Json.object named).sortKeys ≤ 2 + named.length * (width + 4 + bound) := by
  refine (compactLength_sortKeys_le fun field member => (fits field member).1.1).trans
    (Nat.add_le_add_left ?_ 2)
  have sum := @sum_le_of_fits width bound (named.map fun field => (field.1, field.2.sortKeys))
    fun field member => by
      obtain ⟨given, listed, rfl⟩ := List.mem_map.mp member
      exact fits given listed
  rw [List.map_map, List.length_map] at sum
  exact sum

/-- The fields of an object with exact keys, in the order of the keys. -/
theorem fields_perm {fields : List (List Char × Json)} {keys : List String}
    (distinct : keys.Nodup) (exactly : (Json.obj fields).keysAre keys = true) :
    fields.Perm (keys.map fun key => (key.toList, (fields.lookup key.toList).getD .null)) := by
  have names := names_nodup distinct exactly
  have listed : (keys.map fun key => (key.toList, (fields.lookup key.toList).getD .null)).Nodup := by
    refine distinct.map fun one other same => ?_
    exact String.toList_inj.mp (Prod.mk.inj same).1
  rw [List.perm_ext_iff_of_nodup names.of_map listed]
  rintro ⟨name, item⟩
  rw [List.mem_map]
  constructor
  · intro member
    obtain ⟨key, inside, rfl⟩ := List.mem_map.mp
      ((names_perm distinct exactly).mem_iff.mpr (List.mem_map_of_mem member))
    refine ⟨key, inside, ?_⟩
    rw [Keyed.lookup_of_mem names member]
    rfl
  · rintro ⟨key, inside, same⟩
    simp only [Json.keysAre, Bool.and_eq_true, List.all_eq_true] at exactly
    obtain ⟨found, lookup⟩ := Option.isSome_iff_exists.mp (exactly.2 key inside)
    rw [lookup] at same
    obtain ⟨rfl, rfl⟩ := Prod.mk.inj same
    exact Keyed.mem_of_lookup lookup

/-- **An object with exact keys is as long as its fields allow**, which a table bounds. -/
theorem compactLength_le_of_keysAre {value : Json} (table : List (String × Nat))
    (distinct : (table.map Prod.fst).Nodup)
    (plain : ∀ entry ∈ table, entry.1.toList.all isPlain = true)
    (exactly : value.keysAre (table.map Prod.fst) = true)
    (fits : ∀ entry ∈ table, ∀ item, value.field entry.1 = some item →
      compactLength item ≤ entry.2) :
    compactLength value ≤ 2 + (table.map fun entry => entry.1.length + 4 + entry.2).sum := by
  cases value with
  | obj fields =>
      have perm := fields_perm distinct exactly
      rw [List.map_map] at perm
      have plainFields : ∀ field ∈ fields, field.1.all isPlain = true := by
        intro field member
        obtain ⟨entry, inside, rfl⟩ := List.mem_map.mp (perm.mem_iff.mp member)
        exact plain entry inside
      refine Nat.le_trans (compactLength_obj_le plainFields) (Nat.add_le_add_left ?_ 2)
      rw [(perm.map _).sum_eq, List.map_map]
      refine List.sum_le_sum fun entry inside => ?_
      simp only [Json.keysAre, Bool.and_eq_true, List.all_eq_true] at exactly
      obtain ⟨item, found⟩ := Option.isSome_iff_exists.mp
        (exactly.2 entry.1 (List.mem_map_of_mem inside))
      have bound := fits entry inside item found
      simp only [Function.comp, found, Option.getD_some, String.length_toList]
      omega
  | null | bool | int | float | str | arr => cases exactly

end HomeclusterInfra.JsonText
