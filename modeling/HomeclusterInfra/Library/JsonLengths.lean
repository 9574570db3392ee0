import HomeclusterInfra.Library.JsonReader

/-!
# Lengths of JSON texts

The compact text of a value with raw characters is never longer, in UTF-8, than
the default text with ASCII escapes. A string inside a value grows at most six
times when it is escaped.
-/

set_option autoImplicit false

namespace HomeclusterInfra.JsonText

open Text

/-! ## Characters -/

section Characters

variable {style : Style} {char : Char}

/-- A character that is escaped in every style. -/
def alwaysEscaped (char : Char) : Prop :=
  char = '"' ∨ char = '\\' ∨ char.toNat < 32

/-- A character that is escaped in no style, or only outside ASCII. -/
theorem escapeChar_plain (plain : ¬ alwaysEscaped char) :
    escapeChar style char =
      if style.ensureAscii && 126 < char.toNat then
        if char.toNat < 0x10000 then unicodeEscape char.toNat
        else
          unicodeEscape (0xd800 + (char.toNat - 0x10000) / 0x400) ++
            unicodeEscape (0xdc00 + (char.toNat - 0x10000) % 0x400)
      else [char] := by
  simp only [alwaysEscaped, not_or] at plain
  obtain ⟨quote, backslash, large⟩ := plain
  have newline : char ≠ '\n' := by
    rintro rfl
    exact large (by decide)
  have carriage : char ≠ '\r' := by
    rintro rfl
    exact large (by decide)
  have tab : char ≠ '\t' := by
    rintro rfl
    exact large (by decide)
  rw [escapeChar, if_neg quote, if_neg backslash, if_neg newline, if_neg carriage, if_neg tab,
    if_neg (by omega), if_neg (by omega), if_neg large]

/-- What is escaped in every style is escaped in one way. -/
theorem escapeChar_special (special : alwaysEscaped char) (one other : Style) :
    escapeChar one char = escapeChar other char := by
  by_cases quote : char = '"'
  · rw [escapeChar, if_pos quote, escapeChar, if_pos quote]
  by_cases backslash : char = '\\'
  · rw [escapeChar, if_neg quote, if_pos backslash, escapeChar, if_neg quote, if_pos backslash]
  have control : char.toNat < 32 := by
    rcases special with same | same | small
    · exact absurd same quote
    · exact absurd same backslash
    · exact small
  rw [escapeChar, escapeChar]
  simp only [control, if_true]

theorem length_hex4 {code : Nat} (small : code < 0x10000) : (hex4 code).length = 4 := by
  rw [hex4_eq small]
  rfl

theorem ascii_unicodeEscape {code : Nat} (small : code < 0x10000) :
    ∀ char ∈ unicodeEscape code, char.toNat < 128 := by
  have digit : ∀ n < 16, n.digitChar.toNat < 128 := by decide
  intro char member
  rw [unicodeEscape, hex4_eq small] at member
  simp only [List.mem_cons, List.not_mem_nil, or_false] at member
  rcases member with rfl | rfl | rfl | rfl | rfl | rfl
  · decide
  · decide
  · exact digit _ (by omega)
  · exact digit _ (by omega)
  · exact digit _ (by omega)
  · exact digit _ (by omega)

theorem utf8Length_unicodeEscape {code : Nat} (small : code < 0x10000) :
    utf8Length (unicodeEscape code) = 6 := by
  rw [utf8Length_ascii (ascii_unicodeEscape small), unicodeEscape, List.length_cons,
    List.length_cons, length_hex4 small]

theorem utf8Length_pair (char : Char) (large : 0x10000 ≤ char.toNat) :
    utf8Length (unicodeEscape (0xd800 + (char.toNat - 0x10000) / 0x400) ++
      unicodeEscape (0xdc00 + (char.toNat - 0x10000) % 0x400)) = 12 := by
  have valid := toNat_valid char
  rw [utf8Length_append, utf8Length_unicodeEscape (by omega), utf8Length_unicodeEscape (by omega)]

theorem utf8Length_special (special : alwaysEscaped char) :
    utf8Length (escapeChar style char) ≤ 6 := by
  have all : ∀ code < 128, utf8Length (escapeChar {} (Char.ofNat code)) ≤ 6 := by
    decide +kernel
  have small : char.toNat < 128 := by
    rcases special with rfl | rfl | small
    · decide
    · decide
    · omega
  have short := all char.toNat small
  rwa [Char.ofNat_toNat, escapeChar_special special {} style] at short

/-- Raw characters take no more bytes than escapes. -/
theorem escapeChar_compact_le :
    utf8Length (escapeChar (.compact false) char) ≤ utf8Length (escapeChar {} char) := by
  by_cases special : alwaysEscaped char
  · rw [escapeChar_special special (.compact false) {}]
  · rw [escapeChar_plain special, escapeChar_plain special]
    have four := char.utf8Size_le_four
    have raw : utf8Length [char] = char.utf8Size := by simp
    simp only [Style.compact, Bool.false_and, Bool.true_and, Bool.false_eq_true, if_false,
      decide_eq_true_eq]
    split_ifs with escaped plane
    · rw [utf8Length_unicodeEscape plane, raw]
      omega
    · rw [utf8Length_pair char (not_lt.1 plane), raw]
      omega
    · exact le_rfl

/-- An escape takes at most six times the bytes of the character. -/
theorem escapeChar_le (style : Style) : utf8Length (escapeChar style char) ≤ 6 * char.utf8Size := by
  have one := char.utf8Size_pos
  by_cases special : alwaysEscaped char
  · have short := @utf8Length_special style _ special
    omega
  · rw [escapeChar_plain special]
    have raw : utf8Length [char] = char.utf8Size := by simp
    split_ifs with escaped plane
    · rw [utf8Length_unicodeEscape plane]
      omega
    · have four : char.utf8Size = 4 := by
        rw [Char.utf8Size_eq_four_iff, UInt32.lt_iff_toNat_lt]
        exact not_lt.1 plane
      rw [utf8Length_pair char (not_lt.1 plane), four]
      omega
    · omega

/-- **A string grows at most six times when it is escaped.** -/
theorem stringText_le (style : Style) (value : List Char) :
    utf8Length (stringText style value) ≤ 6 * utf8Length value + 2 := by
  have body : utf8Length (value.flatMap (escapeChar style)) ≤ 6 * utf8Length value := by
    induction value with
    | nil => exact le_rfl
    | cons char value ih =>
        have step := @escapeChar_le char style
        rw [List.flatMap_cons, utf8Length_append, utf8Length_cons]
        omega
  have quote : '"'.utf8Size = 1 := rfl
  rw [stringText]
  simp only [utf8Length_cons, utf8Length_append, utf8Length_nil, List.cons_append, quote]
  omega

theorem stringText_compact_le (value : List Char) :
    utf8Length (stringText (.compact false) value) ≤ utf8Length (stringText {} value) := by
  have body : utf8Length (value.flatMap (escapeChar (.compact false))) ≤
      utf8Length (value.flatMap (escapeChar {})) := by
    induction value with
    | nil => exact le_rfl
    | cons char value ih =>
        have step := @escapeChar_compact_le char
        rw [List.flatMap_cons, List.flatMap_cons, utf8Length_append, utf8Length_append]
        omega
  rw [stringText, stringText]
  simp only [utf8Length_cons, utf8Length_append, List.cons_append]
  omega

end Characters

/-! ## Values -/

/-- One style writes strings and separators no longer than another. -/
structure Style.Shorter (one other : Style) : Prop where
  strings : ∀ value, utf8Length (stringText one value) ≤ utf8Length (stringText other value)
  items : utf8Length one.itemSeparator ≤ utf8Length other.itemSeparator
  keys : utf8Length one.keySeparator ≤ utf8Length other.keySeparator

theorem compact_shorter : (Style.compact false).Shorter {} :=
  ⟨stringText_compact_le, by decide, by decide⟩

/-- Without spaces a text of raw characters is shorter. -/
theorem compact_shorter_raw : (Style.compact false).Shorter ⟨false, ", ".toList, ": ".toList⟩ :=
  ⟨fun _ => le_rfl, by decide, by decide⟩

section Values

variable {one other : Style}

mutual
/-- **The text in a shorter style is not longer.** -/
theorem dumps_le (shorter : one.Shorter other) (value : Json) :
    utf8Length (dumps one value) ≤ utf8Length (dumps other value) := by
  match value with
  | .null => exact le_rfl
  | .bool true => exact le_rfl
  | .bool false => exact le_rfl
  | .int value => exact le_rfl
  | .float value => exact le_rfl
  | .str value => exact shorter.strings value
  | .arr items =>
      have inside := dumpsItems_le shorter items
      rw [dumps, dumps]
      simp only [utf8Length_cons, utf8Length_append, List.cons_append]
      omega
  | .obj fields =>
      have inside := dumpsFields_le shorter fields
      rw [dumps, dumps]
      simp only [utf8Length_cons, utf8Length_append, List.cons_append]
      omega

theorem dumpsItems_le (shorter : one.Shorter other) (items : List Json) :
    utf8Length (dumpsItems one items) ≤ utf8Length (dumpsItems other items) := by
  match items with
  | [] => exact le_rfl
  | [item] =>
      have first := dumps_le shorter item
      rwa [dumpsItems, dumpsItems]
  | item :: next :: items =>
      have first := dumps_le shorter item
      have later := dumpsItems_le shorter (next :: items)
      have separator := shorter.items
      rw [dumpsItems_cons_cons, dumpsItems_cons_cons]
      simp only [utf8Length_append]
      omega

theorem dumpsFields_le (shorter : one.Shorter other) (fields : List (List Char × Json)) :
    utf8Length (dumpsFields one fields) ≤ utf8Length (dumpsFields other fields) := by
  have mark := shorter.keys
  match fields with
  | [] => exact le_rfl
  | [(key, value)] =>
      have named := shorter.strings key
      have first := dumps_le shorter value
      rw [dumpsFields, dumpsFields]
      simp only [utf8Length_append]
      omega
  | (key, value) :: next :: fields =>
      have named := shorter.strings key
      have first := dumps_le shorter value
      have later := dumpsFields_le shorter (next :: fields)
      have separator := shorter.items
      rw [dumpsFields_cons_cons, dumpsFields_cons_cons]
      simp only [utf8Length_append]
      omega
end

theorem encodedLength_le (shorter : one.Shorter other) (value : Json) :
    encodedLength one value ≤ encodedLength other value :=
  dumps_le shorter value

theorem compact_standard (ensureAscii : Bool) : (Style.compact ensureAscii).Standard :=
  ⟨[], [], rfl, rfl, rfl, rfl⟩

end Values

end HomeclusterInfra.JsonText
