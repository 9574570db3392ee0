import HomeclusterInfra.Library.DecimalText
import HomeclusterInfra.Library.JsonText

/-!
# Reading JSON text

`json.loads` of a text. What makes an object of the pairs that were read is a
parameter; without one, a later field replaces an earlier one with the same key.
`NaN`, the infinities and unpaired surrogates have no JSON value
here and are refused.

What `json.dumps` writes reads back as the value that was written, when the
doubles in it are doubles and no object has a key twice. The value is read from
the beginning of a text; what may follow it does not continue a number.
-/

set_option autoImplicit false

namespace HomeclusterInfra.JsonText

open Text Binary64

/-! ## Strings -/

/-- `[0-9a-fA-F]` -/
def hexDigit (char : Char) : Option Nat :=
  if char.isDigit then some (char.toNat - '0'.toNat)
  else if 'a' ≤ char && char ≤ 'f' then some (char.toNat - 'a'.toNat + 10)
  else if 'A' ≤ char && char ≤ 'F' then some (char.toNat - 'A'.toNat + 10)
  else none

/-- Four hexadecimal digits and what follows them. -/
def readHex4 : List Char → Option (Nat × List Char)
  | first :: second :: third :: fourth :: rest => do
      let a ← hexDigit first
      let b ← hexDigit second
      let c ← hexDigit third
      let d ← hexDigit fourth
      pure (4096 * a + 256 * b + 16 * c + d, rest)
  | _ => none

/-- What follows a mark at the beginning of a text. -/
def expect (mark : Char) : List Char → Option (List Char)
  | [] => none
  | char :: rest => if char = mark then some rest else none

/-- The character of `\u` and what follows it; two surrogates are one character. -/
def readUnicode (text : List Char) : Option (Char × List Char) :=
  (readHex4 text).bind fun (code, rest) =>
    if 0xd800 ≤ code && code < 0xdc00 then
      (expect '\\' rest).bind fun escape => (expect 'u' escape).bind fun more =>
        (readHex4 more).bind fun (low, after) =>
          if 0xdc00 ≤ low && low < 0xe000 then
            some (Char.ofNat (0x10000 + (code - 0xd800) * 0x400 + (low - 0xdc00)), after)
          else none
    else if 0xdc00 ≤ code && code < 0xe000 then none
    else some (Char.ofNat code, rest)

/-- The escapes of one letter. -/
def escapes : List (Char × Char) :=
  [('"', '"'), ('\\', '\\'), ('/', '/'), ('b', Char.ofNat 8), ('f', Char.ofNat 12), ('n', '\n'),
    ('r', '\r'), ('t', '\t')]

/-- What follows a backslash. -/
def readEscape : List Char → Option (Char × List Char)
  | [] => none
  | mark :: rest =>
      if mark = 'u' then readUnicode rest else (escapes.lookup mark).map fun char => (char, rest)

/-- One character of a string, escaped or not. -/
def readChar : List Char → Option (Char × List Char)
  | [] => none
  | char :: rest =>
      if char = '\\' then readEscape rest
      else if char.toNat < 32 then none else some (char, rest)

/-- The characters of a string after its opening quote. -/
def readString : Nat → List Char → Option (List Char × List Char)
  | 0, _ => none
  | fuel + 1, text =>
      match expect '"' text with
      | some rest => some ([], rest)
      | none =>
          (readChar text).bind fun (char, rest) =>
            (readString fuel rest).map fun (chars, after) => (char :: chars, after)

/-! ## Values -/

/-- Space between tokens. -/
def isJsonSpace (char : Char) : Bool :=
  char = ' ' || char = '\t' || char = '\n' || char = '\r'

def skipSpace (text : List Char) : List Char :=
  text.dropWhile isJsonSpace

/-- `dictionary[key] = value` -/
def setField : List (List Char × Json) → List Char → Json → List (List Char × Json)
  | [], key, value => [(key, value)]
  | (name, old) :: fields, key, value =>
      if name = key then (name, value) :: fields else (name, old) :: setField fields key value

/-- The dictionary of some pairs. -/
def objectOf (pairs : List (List Char × Json)) : List (List Char × Json) :=
  pairs.foldl (fun fields pair => setField fields pair.1 pair.2) []

/-- An integer or a double. -/
def readNumber (text : List Char) : Option (Json × List Char) :=
  (scanNumber text).map fun (scanned, rest) =>
    if scanned.isInteger then
      (.int (if scanned.negative then -(digitsValue scanned.whole : Int)
        else digitsValue scanned.whole), rest)
    else
      (.float (if scanned.negative then -nearest scanned.magnitude
        else nearest scanned.magnitude), rest)

/-- A value that is written as one word. -/
def readWord (word : String) (value : Json) (text : List Char) : Option (Json × List Char) :=
  (word.toList.isPrefixOf? text).map fun rest => (value, rest)

/-- A string after its opening quote. -/
def readQuoted (text : List Char) : Option (List Char × List Char) :=
  readString (text.length + 1) text

/-- What makes an object of the pairs that were read, `object_pairs_hook`. -/
abbrev PairsHook := List (List Char × Json) → Option (List (List Char × Json))

/-- Without a hook the pairs make a dictionary. -/
def dictOf : PairsHook :=
  fun pairs => some (objectOf pairs)

/-- A hook that refuses a key that is there already. -/
def uniqueKeys : PairsHook :=
  fun pairs => if (pairs.map Prod.fst).Nodup then some pairs else none

section Reading

variable (hook : PairsHook)

mutual
/-- The value at the beginning of a text, and what follows it. -/
def readValue : Nat → List Char → Option (Json × List Char)
  | 0, _ => none
  | _, [] => none
  | fuel + 1, first :: rest =>
      if first = '"' then (readQuoted rest).map fun (chars, after) => (.str chars, after)
      else if first = '[' then
        match expect ']' (skipSpace rest) with
        | some after => some (.arr [], after)
        | none => (readItems fuel (skipSpace rest)).map fun (items, after) => (.arr items, after)
      else if first = '\x7b' then
        match expect '\x7d' (skipSpace rest) with
        | some after => (hook []).map fun fields => (.obj fields, after)
        | none => (readFields fuel (skipSpace rest)).bind fun (pairs, after) =>
            (hook pairs).map fun fields => (.obj fields, after)
      else if first = 'n' then readWord "ull" .null rest
      else if first = 't' then readWord "rue" (.bool true) rest
      else if first = 'f' then readWord "alse" (.bool false) rest
      else readNumber (first :: rest)

/-- The items of an array up to its end. -/
def readItems : Nat → List Char → Option (List Json × List Char)
  | 0, _ => none
  | fuel + 1, text =>
      (readValue fuel text).bind fun (item, rest) =>
        match expect ',' (skipSpace rest) with
        | some more => (readItems fuel (skipSpace more)).map fun (items, after) =>
            (item :: items, after)
        | none => (expect ']' (skipSpace rest)).map fun after => ([item], after)

/-- The pairs of an object up to its end. -/
def readFields : Nat → List Char → Option (List (List Char × Json) × List Char)
  | 0, _ => none
  | fuel + 1, text =>
      (expect '"' text).bind fun quoted => (readQuoted quoted).bind fun (key, afterKey) =>
        (expect ':' (skipSpace afterKey)).bind fun colon =>
          (readValue fuel (skipSpace colon)).bind fun (value, rest) =>
            match expect ',' (skipSpace rest) with
            | some more => (readFields fuel (skipSpace more)).map fun (pairs, after) =>
                ((key, value) :: pairs, after)
            | none => (expect '\x7d' (skipSpace rest)).map fun after => ([(key, value)], after)
end

/-- `json.loads` with a hook. -/
def loadsWith (text : List Char) : Option Json :=
  (readValue hook (text.length + 1) (skipSpace text)).bind fun (value, rest) =>
    if (skipSpace rest).isEmpty then some value else none

end Reading

/-- `json.loads` -/
def loads (text : List Char) : Option Json :=
  loadsWith dictOf text

/-! ## Strings read back -/

section StringsBack

variable {style : Style} {char : Char} {rest : List Char}

theorem hexDigit_digitChar {digit : Nat} (small : digit < 16) :
    hexDigit digit.digitChar = some digit := by
  have all : ∀ digit < 16, hexDigit digit.digitChar = some digit := by decide
  exact all digit small

/-- The four digits of a code. -/
theorem hex4_eq {code : Nat} (small : code < 0x10000) :
    hex4 code = [(code / 4096).digitChar, (code / 256 % 16).digitChar,
      (code / 16 % 16).digitChar, (code % 16).digitChar] := by
  have zero : Nat.digitChar 0 = '0' := rfl
  have step : ∀ n, 16 ≤ n → Nat.toDigits 16 n = Nat.toDigits 16 (n / 16) ++ [(n % 16).digitChar] :=
    fun n => Nat.toDigits_of_base_le (by decide)
  have last : ∀ n < 16, Nat.toDigits 16 n = [n.digitChar] := fun n =>
    Nat.toDigits_of_lt_base
  rcases lt_or_ge code 16 with one | more
  · rw [hex4, last code one, Nat.div_eq_of_lt (by omega : code < 4096),
      Nat.div_eq_of_lt (by omega : code < 256), Nat.div_eq_of_lt one, Nat.mod_eq_of_lt one]
    rfl
  rcases lt_or_ge code 256 with two | more
  · rw [hex4, step code more, last (code / 16) (by omega),
      Nat.div_eq_of_lt (by omega : code < 4096), Nat.div_eq_of_lt two,
      Nat.mod_eq_of_lt (by omega : code / 16 < 16)]
    rfl
  rcases lt_or_ge code 4096 with three | more
  · rw [hex4, step code (by omega), step (code / 16) (by omega), last (code / 16 / 16) (by omega),
      Nat.div_div_eq_div_mul, Nat.div_eq_of_lt three, Nat.mod_eq_of_lt (by omega : code / 256 < 16)]
    rfl
  · have twice : code / 16 / 16 = code / 256 := by omega
    have thrice : code / 256 / 16 = code / 4096 := by omega
    rw [hex4, step code (by omega), step (code / 16) (by omega), twice,
      step (code / 256) (by omega), thrice, last (code / 4096) (by omega)]
    rfl

theorem readHex4_hex4 {code : Nat} (small : code < 0x10000) :
    readHex4 (hex4 code ++ rest) = some (code, rest) := by
  rw [hex4_eq small]
  simp only [List.cons_append, List.nil_append, readHex4,
    hexDigit_digitChar (by omega : code / 4096 < 16),
    hexDigit_digitChar (Nat.mod_lt (code / 256) (by decide : 16 > 0)),
    hexDigit_digitChar (Nat.mod_lt (code / 16) (by decide : 16 > 0)),
    hexDigit_digitChar (Nat.mod_lt code (by decide : 16 > 0)), Option.bind_eq_bind,
    Option.bind_some, Option.pure_def, Option.some.injEq, Prod.mk.injEq, and_true]
  omega

/-- The code of a character is no surrogate. -/
theorem toNat_valid (char : Char) :
    char.toNat < 0xd800 ∨ (0xdfff < char.toNat ∧ char.toNat < 0x110000) :=
  char.valid

theorem readChar_escape (code : Nat) :
    readChar (unicodeEscape code ++ rest) = readUnicode (hex4 code ++ rest) :=
  rfl

theorem unicodeEscape_append (code : Nat) :
    unicodeEscape code ++ rest = '\\' :: 'u' :: (hex4 code ++ rest) :=
  rfl

/-- An escaped code that is no surrogate. -/
theorem readChar_unicodeEscape (small : char.toNat < 0x10000) :
    readChar (unicodeEscape char.toNat ++ rest) = some (char, rest) := by
  have valid := toNat_valid char
  have high : ¬ (0xd800 ≤ char.toNat ∧ char.toNat < 0xdc00) := by omega
  have low : ¬ (0xdc00 ≤ char.toNat ∧ char.toNat < 0xe000) := by omega
  rw [readChar_escape, readUnicode, readHex4_hex4 small]
  simp [high, low, Char.ofNat_toNat]

theorem readUnicode_pair {text more after : List Char} {high low : Nat}
    (first : readHex4 text = some (high, '\\' :: 'u' :: more))
    (second : readHex4 more = some (low, after)) (isHigh : 0xd800 ≤ high ∧ high < 0xdc00)
    (isLow : 0xdc00 ≤ low ∧ low < 0xe000) :
    readUnicode text =
      some (Char.ofNat (0x10000 + (high - 0xd800) * 0x400 + (low - 0xdc00)), after) := by
  rw [readUnicode, first, Option.bind_some]
  simp only [expect, second, Option.bind_some, isHigh, isLow, decide_true, Bool.and_true, if_true]

/-- An escaped pair of surrogates. -/
theorem readChar_surrogates (large : 0x10000 ≤ char.toNat) :
    readChar (unicodeEscape (0xd800 + (char.toNat - 0x10000) / 0x400) ++
      unicodeEscape (0xdc00 + (char.toNat - 0x10000) % 0x400) ++ rest) = some (char, rest) := by
  have valid := toNat_valid char
  obtain ⟨high, isHigh⟩ : ∃ high, high = 0xd800 + (char.toNat - 0x10000) / 0x400 := ⟨_, rfl⟩
  obtain ⟨low, isLow⟩ : ∃ low, low = 0xdc00 + (char.toNat - 0x10000) % 0x400 := ⟨_, rfl⟩
  have code : 0x10000 + (high - 0xd800) * 0x400 + (low - 0xdc00) = char.toNat := by omega
  rw [← isHigh, ← isLow, List.append_assoc, readChar_escape, unicodeEscape_append,
    readUnicode_pair (readHex4_hex4 (by omega)) (readHex4_hex4 (by omega)) (by omega) (by omega),
    code, Char.ofNat_toNat]

/-- **A character of a string reads back.** -/
theorem readChar_escapeChar : readChar (escapeChar style char ++ rest) = some (char, rest) := by
  rw [escapeChar]
  by_cases quote : char = '"'
  · rw [if_pos quote, quote]
    rfl
  rw [if_neg quote]
  by_cases backslash : char = '\\'
  · rw [if_pos backslash, backslash]
    rfl
  rw [if_neg backslash]
  by_cases newline : char = '\n'
  · rw [if_pos newline, newline]
    rfl
  rw [if_neg newline]
  by_cases carriage : char = '\r'
  · rw [if_pos carriage, carriage]
    rfl
  rw [if_neg carriage]
  by_cases tab : char = '\t'
  · rw [if_pos tab, tab]
    rfl
  rw [if_neg tab]
  by_cases feed : char.toNat = 12
  · rw [if_pos feed, ← Char.ofNat_toNat char, feed]
    rfl
  rw [if_neg feed]
  by_cases back : char.toNat = 8
  · rw [if_pos back, ← Char.ofNat_toNat char, back]
    rfl
  rw [if_neg back]
  by_cases control : char.toNat < 32
  · rw [if_pos control]
    exact readChar_unicodeEscape (by omega)
  rw [if_neg control]
  by_cases ascii : (style.ensureAscii && decide (126 < char.toNat)) = true
  · rw [if_pos ascii]
    by_cases plane : char.toNat < 0x10000
    · rw [if_pos plane]
      exact readChar_unicodeEscape plane
    · rw [if_neg plane]
      exact readChar_surrogates (not_lt.1 plane)
  · rw [if_neg ascii, List.cons_append, List.nil_append, readChar, if_neg backslash,
      if_neg control]

theorem escapeChar_ne_nil : escapeChar style char ≠ [] := by
  intro empty
  have back := @readChar_escapeChar style char []
  rw [empty] at back
  cases back

/-- A character inside a string never begins with a quote. -/
theorem expect_quote_escapeChar : expect '"' (escapeChar style char ++ rest) = none := by
  have back := @readChar_escapeChar style char rest
  cases shape : escapeChar style char with
  | nil => exact absurd shape escapeChar_ne_nil
  | cons first more =>
      rw [List.cons_append, expect, if_neg]
      rintro rfl
      rw [shape, List.cons_append, readChar, if_neg (by decide), if_neg (by decide)] at back
      obtain rfl := (Prod.mk.inj (Option.some.inj back)).1
      rw [escapeChar, if_pos rfl] at shape
      exact absurd (List.cons.inj shape).1 (by decide)

theorem readString_escaped {value : List Char} {fuel : Nat} (enough : value.length < fuel) :
    readString fuel (value.flatMap (escapeChar style) ++ '"' :: rest) = some (value, rest) := by
  induction value generalizing fuel with
  | nil =>
      obtain ⟨fuel, rfl⟩ := Nat.exists_eq_succ_of_ne_zero (by omega : fuel ≠ 0)
      rfl
  | cons char value ih =>
      obtain ⟨fuel, rfl⟩ := Nat.exists_eq_succ_of_ne_zero (by omega : fuel ≠ 0)
      rw [List.length_cons] at enough
      rw [List.flatMap_cons, List.append_assoc, readString, expect_quote_escapeChar]
      simp only [readChar_escapeChar, Option.bind_some, ih (by omega : value.length < fuel),
        Option.map_some]

theorem length_le_length_flatMap (value : List Char) :
    value.length ≤ (value.flatMap (escapeChar style)).length := by
  induction value with
  | nil => exact Nat.zero_le _
  | cons char value ih =>
      have some : 0 < (escapeChar style char).length :=
        List.length_pos_iff.2 escapeChar_ne_nil
      rw [List.flatMap_cons, List.length_append, List.length_cons]
      omega

/-- **A string reads back.** -/
theorem readQuoted_escaped (value : List Char) :
    readQuoted (value.flatMap (escapeChar style) ++ '"' :: rest) = some (value, rest) := by
  refine readString_escaped ?_
  have longer := @length_le_length_flatMap style value
  rw [List.length_append, List.length_cons]
  omega

end StringsBack

/-! ## Values read back -/

/-- Separators of a mark and spaces. -/
def Style.Standard (style : Style) : Prop :=
  ∃ itemSpaces keySpaces, style.itemSeparator = ',' :: itemSpaces ∧
    style.keySeparator = ':' :: keySpaces ∧ itemSpaces.all isJsonSpace = true ∧
    keySpaces.all isJsonSpace = true

mutual
/-- The doubles are doubles that are not too small, and no object has a key twice. -/
def Json.Readable : Json → Prop
  | .float value => IsDouble value ∧ (value = 0 ∨ 1 ≤ value * 10 ^ 400)
  | .arr items => AllReadable items
  | .obj fields => (fields.map Prod.fst).Nodup ∧ FieldsReadable fields
  | _ => True

def AllReadable : List Json → Prop
  | [] => True
  | item :: items => item.Readable ∧ AllReadable items

def FieldsReadable : List (List Char × Json) → Prop
  | [] => True
  | (_, value) :: fields => value.Readable ∧ FieldsReadable fields
end

/-- A hook leaves pairs with different keys as they are. -/
def PairsHook.Keeps (hook : PairsHook) : Prop :=
  ∀ pairs, (pairs.map Prod.fst).Nodup → hook pairs = some pairs

section ValuesBack

variable {hook : PairsHook} {style : Style} {rest : List Char}

theorem skipSpace_append {spaces : List Char} (areSpaces : spaces.all isJsonSpace = true) :
    skipSpace (spaces ++ rest) = skipSpace rest := by
  induction spaces with
  | nil => rfl
  | cons space spaces ih =>
      rw [List.all_cons, Bool.and_eq_true] at areSpaces
      rw [List.cons_append, skipSpace, List.dropWhile_cons_of_pos areSpaces.1]
      exact ih areSpaces.2

theorem skipSpace_cons {first : Char} {more : List Char} (noSpace : isJsonSpace first = false) :
    skipSpace (first :: more) = first :: more := by
  rw [skipSpace, List.dropWhile_cons_of_neg (by simp [noSpace])]

theorem setField_new {fields : List (List Char × Json)} {key : List Char} {value : Json}
    (new : key ∉ fields.map Prod.fst) : setField fields key value = fields ++ [(key, value)] := by
  induction fields with
  | nil => rfl
  | cons field fields ih =>
      rw [List.map_cons, List.mem_cons, not_or] at new
      rw [setField, if_neg (Ne.symm new.1), ih new.2, List.cons_append]

theorem objectOf_of_nodup {pairs : List (List Char × Json)}
    (distinct : (pairs.map Prod.fst).Nodup) : objectOf pairs = pairs := by
  induction pairs using List.reverseRecOn with
  | nil => rfl
  | append_singleton pairs pair ih =>
      rw [List.map_append, List.map_cons, List.map_nil, List.nodup_append] at distinct
      rw [objectOf, List.foldl_append, ← objectOf, ih distinct.1]
      refine setField_new fun member => ?_
      exact distinct.2.2 _ member _ (List.mem_cons_self) rfl

theorem dictOf_keeps : dictOf.Keeps :=
  fun _ distinct => congrArg some (objectOf_of_nodup distinct)

theorem uniqueKeys_keeps : uniqueKeys.Keeps :=
  fun _ distinct => if_pos distinct

/-- A number begins with a sign or a digit. -/
theorem scanNumber_head {text : List Char} {scanned : Scanned}
    (scan : scanNumber text = some (scanned, rest)) :
    ∃ first more, text = first :: more ∧ (first = '-' ∨ first.isDigit = true) := by
  cases text with
  | nil => cases scan
  | cons first more =>
      refine ⟨first, more, rfl, ?_⟩
      by_contra other
      rw [not_or] at other
      have unsigned : scanSign (first :: more) = (false, first :: more) := by
        unfold scanSign
        split
        next tail same => exact absurd (List.cons.inj same).1 other.1
        next => rfl
      have none : scanWhole (first :: more) = Option.none := by
        unfold scanWhole
        split
        next tail same =>
            have zero := other.2
            rw [(List.cons.inj same).1] at zero
            exact absurd rfl zero
        next => rw [List.span_eq_takeWhile_dropWhile, List.takeWhile_cons_of_neg other.2]
      rw [scanNumber, unsigned, none] at scan
      cases scan

/-- What begins like a number is read as one. -/
theorem readValue_number {text : List Char} {scanned : Scanned} {fuel : Nat}
    (scan : scanNumber text = some (scanned, rest)) :
    readValue hook (fuel + 1) text = readNumber text := by
  obtain ⟨first, more, rfl, head⟩ := scanNumber_head scan
  have different : ∀ mark : Char, mark ≠ '-' → mark.isDigit = false → first ≠ mark := by
    rintro mark notSign notDigit rfl
    rcases head with sign | digit
    · exact notSign sign
    · rw [notDigit] at digit
      cases digit
  rw [readValue, if_neg (different _ (by decide) (by decide)),
    if_neg (different _ (by decide) (by decide)), if_neg (different _ (by decide) (by decide)),
    if_neg (different _ (by decide) (by decide)), if_neg (different _ (by decide) (by decide)),
    if_neg (different _ (by decide) (by decide))]

theorem natText_canonical (n : Nat) : (natText n).head? = some '0' → natText n = ['0'] := by
  intro zero
  rcases Nat.eq_zero_or_pos n with rfl | positive
  · rfl
  · exact absurd zero (natText_head positive)

/-- The digits of an integer without its sign. -/
theorem scanWhole_natText {n : Nat} (ends : EndsNumber rest) :
    scanWhole (natText n ++ rest) = some (natText n, rest) :=
  scanWhole_digits (natText_ne_nil n) (fun _ member => natText_isDigit member)
    (natText_canonical n) ends.noDigit

theorem scanNumber_intText (value : Int) (ends : EndsNumber rest) :
    ∃ scanned, scanNumber (intText value ++ rest) = some (scanned, rest) ∧
      scanned.isInteger = true ∧
      (if scanned.negative then -(digitsValue scanned.whole : Int)
        else digitsValue scanned.whole) = value := by
  cases value with
  | ofNat n =>
      refine ⟨⟨false, natText n, [], none⟩, ?_, rfl, ?_⟩
      · rw [intText, scanNumber_unsigned (natText_ne_nil n)
          (fun _ member => natText_isDigit member) (natText_canonical n) ends.noDigit,
          scanFraction_of_ends ends, scanExponent_of_ends ends]
      · simp [digitsValue_natText]
  | negSucc n =>
      refine ⟨⟨true, natText (n + 1), [], none⟩, ?_, rfl, ?_⟩
      · have signed : scanSign ('-' :: natText (n + 1) ++ rest) =
            (true, natText (n + 1) ++ rest) := rfl
        rw [intText, scanNumber, signed]
        simp only [scanWhole_natText ends, Option.map_some, scanFraction_of_ends ends,
          scanExponent_of_ends ends]
      · rw [if_pos rfl, digitsValue_natText]
        rfl

theorem readValue_int (value : Int) {fuel : Nat} (ends : EndsNumber rest) :
    readValue hook (fuel + 1) (intText value ++ rest) = some (.int value, rest) := by
  obtain ⟨scanned, scan, integer, same⟩ := scanNumber_intText value ends
  rw [readValue_number scan, readNumber, scan, Option.map_some]
  simp only [integer, if_true, same]

theorem readValue_float {value : Rat} {fuel : Nat} (double : IsDouble value)
    (notTiny : value = 0 ∨ 1 ≤ value * 10 ^ 400) (ends : EndsNumber rest) :
    readValue hook (fuel + 1) (reprText value ++ rest) = some (.float value, rest) := by
  obtain ⟨scanned, scan, unsigned, notInteger, back⟩ := scanNumber_reprText double notTiny ends
  rw [readValue_number scan, readNumber, scan, Option.map_some]
  simp only [notInteger, unsigned, back, Bool.false_eq_true, if_false]

theorem readValue_str (value : List Char) {fuel : Nat} :
    readValue hook (fuel + 1) (stringText style value ++ rest) = some (.str value, rest) := by
  have shape : stringText style value ++ rest =
      '"' :: (value.flatMap (escapeChar style) ++ '"' :: rest) := by
    simp [stringText]
  rw [shape, readValue, if_pos rfl, readQuoted_escaped, Option.map_some]

/-- A mark after a value ends a number in it. -/
theorem endsNumber_cons {mark : Char} {more : List Char}
    (other : mark = ',' ∨ mark = ']' ∨ mark = '\x7d') : EndsNumber (mark :: more) := by
  intro char head
  obtain rfl := Option.some.inj head
  rcases other with rfl | rfl | rfl <;> decide

theorem endsNumber_nil : EndsNumber [] := by
  intro char head
  cases head

/-- The first character of a value. -/
theorem dumps_head {value : Json} (readable : value.Readable) :
    ∃ first more, dumps style value = first :: more ∧ isJsonSpace first = false ∧
      first ≠ ']' ∧ first ≠ '\x7d' := by
  have number : ∀ {text : List Char} {scanned : Scanned} {rest : List Char},
      scanNumber text = some (scanned, rest) →
        ∃ first more, text = first :: more ∧ isJsonSpace first = false ∧
          first ≠ ']' ∧ first ≠ '\x7d' := by
    intro text scanned rest scan
    obtain ⟨first, more, shape, head⟩ := scanNumber_head scan
    refine ⟨first, more, shape, ?_⟩
    rcases head with rfl | digit
    · decide
    · refine ⟨?_, ?_, ?_⟩
      · simp only [isJsonSpace, Bool.or_eq_false_iff, decide_eq_false_iff_not]
        refine ⟨⟨⟨?_, ?_⟩, ?_⟩, ?_⟩ <;> rintro rfl <;> cases digit
      · rintro rfl
        cases digit
      · rintro rfl
        cases digit
  cases value with
  | null => exact ⟨'n', _, rfl, by decide⟩
  | bool value =>
      cases value with
      | false => exact ⟨'f', _, rfl, by decide⟩
      | true => exact ⟨'t', _, rfl, by decide⟩
  | int value =>
      obtain ⟨scanned, scan, -⟩ := scanNumber_intText value endsNumber_nil
      rw [List.append_nil] at scan
      exact number scan
  | float value =>
      obtain ⟨scanned, scan, -⟩ := scanNumber_reprText readable.1 readable.2 endsNumber_nil
      rw [List.append_nil] at scan
      exact number scan
  | str value => exact ⟨'"', _, rfl, by decide⟩
  | arr items => exact ⟨'[', _, rfl, by decide⟩
  | obj fields => exact ⟨'\x7b', _, rfl, by decide⟩

theorem skipSpace_dumps {value : Json} (readable : value.Readable) :
    skipSpace (dumps style value ++ rest) = dumps style value ++ rest := by
  obtain ⟨first, more, shape, noSpace, -⟩ := @dumps_head style _ readable
  rw [shape, List.cons_append]
  exact skipSpace_cons noSpace

theorem expect_dumps {value : Json} {mark : Char} (readable : value.Readable)
    (closing : mark = ']' ∨ mark = '\x7d') : expect mark (dumps style value ++ rest) = none := by
  obtain ⟨first, more, shape, -, notBracket, notBrace⟩ := @dumps_head style _ readable
  rw [shape, List.cons_append, expect, if_neg]
  rcases closing with rfl | rfl
  · exact notBracket
  · exact notBrace

theorem dumpsItems_cons_cons (item next : Json) (items : List Json) :
    dumpsItems style (item :: next :: items) =
      dumps style item ++ (style.itemSeparator ++ dumpsItems style (next :: items)) := by
  rw [dumpsItems, List.append_assoc]
  simp

theorem dumpsFields_cons_cons (key : List Char) (value : Json) (next : List Char × Json)
    (fields : List (List Char × Json)) :
    dumpsFields style ((key, value) :: next :: fields) =
      stringText style key ++ (style.keySeparator ++ (dumps style value ++
        (style.itemSeparator ++ dumpsFields style (next :: fields)))) := by
  rw [dumpsFields]
  · simp only [List.append_assoc]
  · simp

/-- The key of a field up to its value. -/
theorem readQuoted_key {spaces more : List Char} (key : List Char)
    (separator : style.keySeparator = ':' :: spaces) (areSpaces : spaces.all isJsonSpace = true) :
    expect '"' (stringText style key ++ (style.keySeparator ++ more)) =
        some (key.flatMap (escapeChar style) ++ '"' :: (':' :: spaces ++ more)) ∧
      expect ':' (skipSpace (':' :: spaces ++ more)) = some (spaces ++ more) ∧
      skipSpace (spaces ++ more) = skipSpace more := by
  refine ⟨?_, rfl, skipSpace_append areSpaces⟩
  rw [separator, stringText]
  simp only [List.cons_append, List.append_assoc, List.nil_append, expect, if_true]

/-- The items begin with the first item. -/
theorem dumpsItems_cons (item : Json) (items : List Json) :
    ∃ more, dumpsItems style (item :: items) = dumps style item ++ more := by
  cases items with
  | nil => exact ⟨[], by rw [dumpsItems, List.append_nil]⟩
  | cons next items => exact ⟨_, dumpsItems_cons_cons item next items⟩

/-- The fields begin with a quote. -/
theorem dumpsFields_cons (field : List Char × Json) (fields : List (List Char × Json)) :
    ∃ more, dumpsFields style (field :: fields) = '"' :: more := by
  obtain ⟨key, value⟩ := field
  cases fields with
  | nil => exact ⟨_, by rw [dumpsFields, stringText]; rfl⟩
  | cons next fields =>
      exact ⟨_, by rw [dumpsFields_cons_cons, stringText, List.cons_append]; rfl⟩

mutual
/-- **A value reads back.** -/
theorem readValue_dumps (keeps : hook.Keeps) (standard : style.Standard) (value : Json)
    (readable : value.Readable) {fuel : Nat} (enough : (dumps style value).length < fuel) {rest : List Char}
    (ends : EndsNumber rest) :
    readValue hook fuel (dumps style value ++ rest) = some (value, rest) := by
  obtain ⟨fuel, rfl⟩ := Nat.exists_eq_succ_of_ne_zero (by omega : fuel ≠ 0)
  match value with
  | .null => rfl
  | .bool true => rfl
  | .bool false => rfl
  | .int value => exact readValue_int value ends
  | .float value => exact readValue_float readable.1 readable.2 ends
  | .str value => exact readValue_str value
  | .arr [] => rfl
  | .arr (item :: items) =>
      have shape : dumps style (.arr (item :: items)) ++ rest =
          '[' :: (dumpsItems style (item :: items) ++ ']' :: rest) := by
        simp [dumps]
      rw [dumps, List.length_append, List.length_cons, List.length_cons, List.length_nil] at enough
      have read := @readItems_dumps keeps standard item items readable fuel
        (by omega) rest
      obtain ⟨more, first⟩ := @dumpsItems_cons style item items
      rw [shape, readValue, if_neg (by decide), if_pos rfl]
      rw [first, List.append_assoc] at read ⊢
      rw [skipSpace_dumps readable.1, expect_dumps readable.1 (.inl rfl)]
      simp only [read, Option.map_some]
  | .obj [] =>
      have none := keeps [] List.nodup_nil
      rw [show dumps style (.obj []) ++ rest = '\x7b' :: '\x7d' :: rest from rfl, readValue,
        if_neg (by decide), if_neg (by decide), if_pos rfl]
      simp only [skipSpace_cons (by decide : isJsonSpace '\x7d' = false), expect, if_true, none,
        Option.map_some]
  | .obj (field :: fields) =>
      have shape : dumps style (.obj (field :: fields)) ++ rest =
          '\x7b' :: (dumpsFields style (field :: fields) ++ '\x7d' :: rest) := by
        simp [dumps]
      rw [dumps, List.length_append, List.length_cons, List.length_cons, List.length_nil] at enough
      have read := @readFields_dumps keeps standard field fields readable.2 fuel
        (by omega) rest
      obtain ⟨more, first⟩ := @dumpsFields_cons style field fields
      rw [shape, readValue, if_neg (by decide), if_neg (by decide), if_pos rfl]
      rw [first, List.cons_append] at read ⊢
      rw [skipSpace_cons (by decide), expect, if_neg (by decide)]
      simp only [read, Option.bind_some, keeps _ readable.1, Option.map_some]
termination_by fuel

theorem readItems_dumps (keeps : hook.Keeps) (standard : style.Standard) (item : Json)
    (items : List Json) (readable : AllReadable (item :: items)) {fuel : Nat}
    (enough : (dumpsItems style (item :: items)).length + 1 < fuel) {rest : List Char} :
    readItems hook fuel (dumpsItems style (item :: items) ++ ']' :: rest) =
      some (item :: items, rest) := by
  obtain ⟨fuel, rfl⟩ := Nat.exists_eq_succ_of_ne_zero (by omega : fuel ≠ 0)
  match items with
  | [] =>
      rw [dumpsItems] at enough ⊢
      have read := readValue_dumps keeps standard item readable.1 (by omega : _ < fuel)
        (@endsNumber_cons _ rest (.inr (.inl rfl)))
      rw [readItems, read, Option.bind_some]
      rfl
  | next :: items =>
      obtain ⟨itemSpaces, keySpaces, isItem, -, areSpaces, -⟩ := id standard
      rw [dumpsItems_cons_cons, isItem] at enough ⊢
      simp only [List.length_append, List.length_cons] at enough
      have later := @readItems_dumps keeps standard next items readable.2 fuel
        (by omega) rest
      obtain ⟨more, first⟩ := @dumpsItems_cons style next items
      have read := readValue_dumps keeps standard item readable.1 (by omega : _ < fuel)
        (@endsNumber_cons _ (itemSpaces ++ (dumpsItems style (next :: items) ++ ']' :: rest))
          (.inl rfl))
      have inside : skipSpace (itemSpaces ++ (dumpsItems style (next :: items) ++ ']' :: rest)) =
          dumpsItems style (next :: items) ++ ']' :: rest := by
        rw [skipSpace_append areSpaces, first, List.append_assoc, skipSpace_dumps readable.2.1]
      rw [List.append_assoc, List.append_assoc, List.cons_append, readItems, read,
        Option.bind_some]
      simp only [skipSpace_cons (by decide : isJsonSpace ',' = false), expect, if_true, inside,
        later, Option.map_some]
termination_by fuel

theorem readFields_dumps (keeps : hook.Keeps) (standard : style.Standard)
    (field : List Char × Json) (fields : List (List Char × Json))
    (readable : FieldsReadable (field :: fields)) {fuel : Nat}
    (enough : (dumpsFields style (field :: fields)).length + 1 < fuel) {rest : List Char} :
    readFields hook fuel (dumpsFields style (field :: fields) ++ '\x7d' :: rest) =
      some (field :: fields, rest) := by
  obtain ⟨fuel, rfl⟩ := Nat.exists_eq_succ_of_ne_zero (by omega : fuel ≠ 0)
  obtain ⟨itemSpaces, keySpaces, isItem, isKey, areItemSpaces, areKeySpaces⟩ := id standard
  match field, fields with
  | (key, value), [] =>
      rw [dumpsFields] at enough ⊢
      simp only [List.length_append] at enough
      have read := readValue_dumps keeps standard value readable.1 (by omega : _ < fuel)
        (@endsNumber_cons _ rest (.inr (.inr rfl)))
      obtain ⟨quoted, colon, spaced⟩ := @readQuoted_key style _
        (dumps style value ++ '\x7d' :: rest) key isKey areKeySpaces
      rw [List.append_assoc, List.append_assoc, readFields, quoted, Option.bind_some,
        readQuoted_escaped, Option.bind_some]
      simp only [colon, Option.bind_some, spaced, skipSpace_dumps readable.1, read]
      rfl
  | (key, value), next :: fields =>
      rw [dumpsFields_cons_cons, isItem] at enough ⊢
      simp only [List.length_append, List.length_cons] at enough
      have later := @readFields_dumps keeps standard next fields readable.2 fuel
        (by omega) rest
      obtain ⟨more, first⟩ := @dumpsFields_cons style next fields
      have read := readValue_dumps keeps standard value readable.1 (by omega : _ < fuel)
        (@endsNumber_cons _ (itemSpaces ++ (dumpsFields style (next :: fields) ++ '\x7d' :: rest))
          (.inl rfl))
      have inside : skipSpace (itemSpaces ++ (dumpsFields style (next :: fields) ++ '\x7d' :: rest)) =
          dumpsFields style (next :: fields) ++ '\x7d' :: rest := by
        rw [skipSpace_append areItemSpaces, first]
        exact skipSpace_cons (by decide)
      obtain ⟨quoted, colon, spaced⟩ := @readQuoted_key style _
        (dumps style value ++
          (',' :: itemSpaces ++ (dumpsFields style (next :: fields) ++ '\x7d' :: rest)))
        key isKey areKeySpaces
      simp only [List.append_assoc, List.cons_append] at quoted colon spaced read ⊢
      rw [readFields, quoted, Option.bind_some, readQuoted_escaped, Option.bind_some]
      simp only [colon, Option.bind_some, spaced, skipSpace_dumps readable.1, read]
      simp only [skipSpace_cons (by decide : isJsonSpace ',' = false), expect, if_true, inside,
        later, Option.map_some]
termination_by fuel
end

/-- **A text of a value reads as the value**, whatever space follows it. -/
theorem loadsWith_dumps (keeps : hook.Keeps) (standard : style.Standard) {value : Json}
    (readable : value.Readable) {spaces : List Char} (areSpaces : spaces.all isJsonSpace = true) :
    loadsWith hook (dumps style value ++ spaces) = some value := by
  have ends : EndsNumber spaces := by
    intro char head
    have space := List.all_eq_true.1 areSpaces char (List.mem_of_head? head)
    simp only [isJsonSpace, Bool.or_eq_true, decide_eq_true_eq] at space
    rcases space with ((rfl | rfl) | rfl) | rfl <;> decide
  have enough : (dumps style value).length < (dumps style value ++ spaces).length + 1 := by
    rw [List.length_append]
    omega
  have read := readValue_dumps keeps standard value readable enough ends
  have after : skipSpace spaces = [] := by
    have skipped := @skipSpace_append [] spaces areSpaces
    rwa [List.append_nil] at skipped
  rw [loadsWith, @skipSpace_dumps style spaces _ readable, read, Option.bind_some]
  simp only [after, List.isEmpty_nil, if_true]

theorem loads_dumps (standard : style.Standard) {value : Json} (readable : value.Readable) :
    loads (dumps style value) = some value := by
  have read := @loadsWith_dumps _ _ dictOf_keeps standard _ readable [] rfl
  rwa [List.append_nil] at read

end ValuesBack

end HomeclusterInfra.JsonText
