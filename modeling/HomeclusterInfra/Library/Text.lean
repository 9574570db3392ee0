import Mathlib.Data.List.Induction
import Mathlib.Data.List.TakeWhile
import Mathlib.Tactic.Ring

/-!
# Text

Text is a list of characters and a byte string is a list of bytes. This module
holds the operations of Python's `str` and `bytes` types on them that the list
library lacks: decimal numerals, stripping, decoding UTF-8 with replacement of
malformed parts, and the length of an encoding.

The character classes that need the Unicode character database, decimal
digits, alphanumeric and printable characters, are read from an instance of
`UnicodeData`.
-/

set_option autoImplicit false

namespace HomeclusterInfra.Text

/-- The parts of the Unicode character database that text functions consult. -/
class UnicodeData where
  /-- General category `Nd`. -/
  isDecimal : Char → Bool
  /-- `str.isalnum`. -/
  isAlnum : Char → Bool
  /-- `str.isprintable` of one character. -/
  isPrintable : Char → Bool

/-- The database restricted to ASCII. -/
@[reducible] def asciiData : UnicodeData where
  isDecimal char := char.isDigit
  isAlnum char := char.isAlphanum
  isPrintable char := 32 ≤ char.toNat && char.toNat < 127

/-- Texts are compared character by character. -/
instance lawfulBEqText : LawfulBEq (List Char) :=
  inferInstance

/-! ## Codes of characters -/

theorem isUpper_iff {char : Char} :
    char.isUpper = true ↔ 65 ≤ char.toNat ∧ char.toNat ≤ 90 :=
  decide_eq_true_iff.trans (and_congr UInt32.le_iff_toNat_le UInt32.le_iff_toNat_le)

theorem isLower_iff {char : Char} :
    char.isLower = true ↔ 97 ≤ char.toNat ∧ char.toNat ≤ 122 :=
  Bool.and_eq_true_iff.trans (and_congr (decide_eq_true_iff.trans UInt32.le_iff_toNat_le)
    (decide_eq_true_iff.trans UInt32.le_iff_toNat_le))

theorem isAlpha_iff {char : Char} :
    char.isAlpha = true ↔ char.isUpper = true ∨ char.isLower = true :=
  Bool.or_eq_true_iff

theorem isAlphanum_iff {char : Char} :
    char.isAlphanum = true ↔ char.isAlpha = true ∨ char.isDigit = true :=
  Bool.or_eq_true_iff

/-- A byte is a character of its own. -/
theorem toNat_charOfByte (byte : UInt8) : (Char.ofNat byte.toNat).toNat = byte.toNat := by
  have small := byte.toNat_lt
  have valid : byte.toNat.isValidChar := Or.inl (by omega)
  rw [Char.ofNat, dif_pos valid]
  rfl

theorem charOfByte_injective : Function.Injective fun byte : UInt8 => Char.ofNat byte.toNat := by
  intro first second same
  have codes := congrArg Char.toNat same
  exact UInt8.toNat_inj.mp
    ((toNat_charOfByte first).symm.trans (codes.trans (toNat_charOfByte second)))

/-- `str.isspace` of one character. -/
def isSpace (char : Char) : Bool :=
  let code := char.toNat
  (9 ≤ code && code ≤ 13) || (28 ≤ code && code ≤ 32) || code = 0x85 || code = 0xa0 ||
    code = 0x1680 || (0x2000 ≤ code && code ≤ 0x200a) || code = 0x2028 || code = 0x2029 ||
    code = 0x202f || code = 0x205f || code = 0x3000

/-- The decimal numeral of a natural number. -/
def natText (n : Nat) : List Char :=
  Nat.toDigits 10 n

/-- A decimal numeral, filled up with leading zeros. -/
def zeroPadded (width n : Nat) : List Char :=
  let digits := natText n
  List.replicate (width - digits.length) '0' ++ digits

/-- The value of a list of ASCII digits, as `int` reads it. -/
def digitsValue (digits : List Char) : Nat :=
  digits.foldl (fun value digit => 10 * value + (digit.toNat - '0'.toNat)) 0

/-- Remove trailing elements that satisfy a condition. -/
def rstripWhile {α : Type} (drops : α → Bool) (text : List α) : List α :=
  (text.reverse.dropWhile drops).reverse

/-- `str.strip()`. -/
def strip (text : List Char) : List Char :=
  rstripWhile isSpace (text.dropWhile isSpace)

/-- `str.split()` -/
def words (text : List Char) : List (List Char) :=
  (text.splitOnP isSpace).filter fun word => !word.isEmpty

/-- The characters at which `str.splitlines` ends a line. -/
def isLineBreak (char : Char) : Bool :=
  let code := char.toNat
  (10 ≤ code && code ≤ 13) || (28 ≤ code && code ≤ 30) || code = 0x85 || code = 0x2028 ||
    code = 0x2029

/-- `str.splitlines()`, where `line` holds what was read of the line, last
character first. -/
def splitlinesFrom : List Char → List Char → List (List Char)
  | line, [] => if line.isEmpty then [] else [line.reverse]
  | line, '\r' :: '\n' :: rest => line.reverse :: splitlinesFrom [] rest
  | line, char :: rest =>
      if isLineBreak char then line.reverse :: splitlinesFrom [] rest
      else splitlinesFrom (char :: line) rest

/-- `str.splitlines()` -/
def splitlines (text : List Char) : List (List Char) :=
  splitlinesFrom [] text

/-- The number of bytes of the UTF-8 encoding. -/
def utf8Length (text : List Char) : Nat :=
  (text.map fun char => char.utf8Size).sum

/-! ## Decoding -/

/-- The replacement character U+FFFD. -/
def replacement : Char :=
  Char.ofNat 0xfffd

/-- How many continuation bytes a lead byte asks for, and the range of the
first of them; nothing for a byte that cannot begin a character. -/
def leadByte (byte : UInt8) : Option (Nat × Nat × Nat) :=
  let code := byte.toNat
  if 0xc2 ≤ code && code ≤ 0xdf then some (1, 0x80, 0xbf)
  else if code = 0xe0 then some (2, 0xa0, 0xbf)
  else if code = 0xed then some (2, 0x80, 0x9f)
  else if 0xe1 ≤ code && code ≤ 0xef then some (2, 0x80, 0xbf)
  else if code = 0xf0 then some (3, 0x90, 0xbf)
  else if 0xf1 ≤ code && code ≤ 0xf3 then some (3, 0x80, 0xbf)
  else if code = 0xf4 then some (3, 0x80, 0x8f)
  else none

/-- The payload bits of a lead byte of a sequence with `more` continuation bytes. -/
def leadPayload (more : Nat) (byte : UInt8) : Nat :=
  byte.toNat % (if more = 1 then 32 else if more = 2 then 16 else 8)

/-- `bytes.decode('utf-8', 'replace')`. `open?` holds the unfinished sequence:
how many continuation bytes are missing, the range of the next one, and the
value so far. A byte that does not continue the sequence ends it with one
replacement character and is read again as the beginning of a character. -/
def decodeReplace : Option (Nat × Nat × Nat × Nat) → List UInt8 → List Char
  | none, [] => []
  | some _, [] => [replacement]
  | none, byte :: rest =>
      if byte.toNat < 0x80 then Char.ofNat byte.toNat :: decodeReplace none rest
      else match leadByte byte with
        | none => replacement :: decodeReplace none rest
        | some (more, low, high) =>
            decodeReplace (some (more, low, high, leadPayload more byte)) rest
  | some (more, low, high, value), byte :: rest =>
      if low ≤ byte.toNat && byte.toNat ≤ high then
        let value := 64 * value + byte.toNat % 64
        if more = 1 then Char.ofNat value :: decodeReplace none rest
        else decodeReplace (some (more - 1, 0x80, 0xbf, value)) rest
      else if byte.toNat < 0x80 then
        replacement :: Char.ofNat byte.toNat :: decodeReplace none rest
      else match leadByte byte with
        | none => replacement :: replacement :: decodeReplace none rest
        | some (more, low, high) =>
            replacement :: decodeReplace (some (more, low, high, leadPayload more byte)) rest

/-- Decode a byte string from its beginning. -/
def decodeUtf8 (bytes : List UInt8) : List Char :=
  decodeReplace none bytes

/-- The bytes of an ASCII text. -/
def asciiBytes (text : List Char) : List UInt8 :=
  text.map fun char => UInt8.ofNat char.toNat

/-- The characters of ASCII bytes. -/
theorem map_asciiBytes {text : List Char} (ascii : ∀ char ∈ text, char.toNat < 128) :
    (asciiBytes text).map (fun byte => Char.ofNat byte.toNat) = text := by
  rw [asciiBytes, List.map_map]
  refine (List.map_congr_left fun char member => ?_).trans (List.map_id text)
  have small := ascii char member
  simp only [Function.comp, UInt8.toNat_ofNat', Nat.mod_eq_of_lt (by omega : char.toNat < 256)]
  exact Char.ofNat_toNat char

/-- ASCII texts with the same bytes are the same. -/
theorem asciiBytes_inj {one other : List Char} (asciiOne : ∀ char ∈ one, char.toNat < 128)
    (asciiOther : ∀ char ∈ other, char.toNat < 128) (same : asciiBytes one = asciiBytes other) :
    one = other := by
  rw [← map_asciiBytes asciiOne, same, map_asciiBytes asciiOther]

/-! ## UTF-8 -/

/-- `str.encode()` -/
def utf8Bytes (text : List Char) : List UInt8 :=
  text.flatMap String.utf8EncodeChar

/-- `bytes.decode()`; nothing when it raises. -/
def utf8Decode (data : List UInt8) : Option (List Char) :=
  data.toByteArray.utf8Decode?.map Array.toList

theorem utf8Decode_utf8Bytes (text : List Char) : utf8Decode (utf8Bytes text) = some text := by
  have decoded := @List.utf8Decode?_utf8Encode text
  rw [List.utf8Encode] at decoded
  rw [utf8Decode, utf8Bytes, decoded, Option.map_some]

theorem length_utf8Bytes (text : List Char) : (utf8Bytes text).length = utf8Length text := by
  rw [utf8Bytes, List.length_flatMap, utf8Length]
  simp only [String.length_utf8EncodeChar]

@[simp] theorem utf8Length_nil : utf8Length [] = 0 :=
  rfl

@[simp] theorem utf8Length_cons (char : Char) (text : List Char) :
    utf8Length (char :: text) = char.utf8Size + utf8Length text := by
  simp [utf8Length]

@[simp] theorem utf8Length_append (first last : List Char) :
    utf8Length (first ++ last) = utf8Length first + utf8Length last := by
  simp [utf8Length]

/-- ASCII characters are encoded in one byte. -/
theorem utf8Length_ascii {text : List Char} (ascii : ∀ char ∈ text, char.toNat < 128) :
    utf8Length text = text.length := by
  induction text with
  | nil => rfl
  | cons char text ih =>
      rw [List.forall_mem_cons] at ascii
      have single : char.utf8Size = 1 := by
        rw [Char.utf8Size_eq_one_iff, UInt32.le_iff_toNat_le]
        have small := ascii.1
        have bound : char.val.toNat < 128 := small
        exact Nat.le_of_lt_succ bound
      rw [utf8Length_cons, List.length_cons, single, ih ascii.2, Nat.add_comm]

/-! ## Numerals -/

theorem natText_isDigit {n : Nat} {char : Char} (member : char ∈ natText n) :
    char.isDigit = true :=
  Nat.isDigit_of_mem_toDigits (by decide) (by decide) member

theorem notMem_natText {n : Nat} {char : Char} (other : char.isDigit = false) :
    char ∉ natText n := by
  intro member
  rw [natText_isDigit member] at other
  cases other

theorem digitsValue_natText (n : Nat) : digitsValue (natText n) = n := by
  have value := @Nat.ofDigitChars_ten_toDigits n
  rwa [Nat.ofDigitChars_eq_foldl] at value

theorem natText_ne_nil (n : Nat) : natText n ≠ [] :=
  Nat.toDigits_ne_nil

theorem natText_ascii {n : Nat} {char : Char} (member : char ∈ natText n) : char.toNat < 128 := by
  have range := natText_isDigit member
  simp only [Char.isDigit, Bool.and_eq_true, decide_eq_true_eq, ge_iff_le,
    UInt32.le_iff_toNat_le] at range
  have bound : char.toNat ≤ 57 := range.2
  omega

theorem natText_head {n : Nat} (positive : 0 < n) : (natText n).head? ≠ some '0' := by
  induction n using Nat.strongRecOn with
  | ind n ih =>
      by_cases small : n < 10
      · rw [natText, Nat.toDigits_of_lt_base small, List.head?_cons, Ne, Option.some.injEq,
          Nat.digitChar_eq_zero]
        omega
      · rw [natText, Nat.toDigits_of_base_le (by decide) (by omega), ← natText,
          List.head?_append]
        have earlier := ih (n / 10) (by omega) (by omega)
        cases digits : natText (n / 10) with
        | nil => exact absurd digits (natText_ne_nil _)
        | cons first rest =>
            rw [digits] at earlier
            exact earlier

theorem digitsValue_append (first last : List Char) :
    digitsValue (first ++ last) = digitsValue first * 10 ^ last.length + digitsValue last := by
  induction last using List.reverseRecOn with
  | nil => simp [digitsValue]
  | append_singleton last digit ih =>
      rw [← List.append_assoc]
      simp only [digitsValue, List.foldl_append, List.foldl_cons, List.foldl_nil,
        List.length_append, List.length_cons, List.length_nil, Nat.zero_add] at ih ⊢
      rw [ih, Nat.pow_succ]
      ring

@[simp] theorem digitsValue_zeros (count : Nat) : digitsValue (List.replicate count '0') = 0 := by
  induction count with
  | zero => rfl
  | succ count ih =>
      rw [List.replicate_succ', digitsValue_append, ih]
      rfl

/-- What is stripped at the end satisfies the condition. -/
theorem rstripWhile_append {α : Type} (drops : α → Bool) (text : List α) :
    ∃ tail, text = rstripWhile drops text ++ tail ∧ ∀ item ∈ tail, drops item = true := by
  refine ⟨(text.reverse.takeWhile drops).reverse, ?_, ?_⟩
  · rw [rstripWhile, ← List.reverse_append, List.takeWhile_append_dropWhile, List.reverse_reverse]
  · intro item member
    exact List.mem_takeWhile_imp (List.mem_reverse.1 member)

/-- A property of the characters of a literal, which the literal spells. -/
theorem toList_literal {holds : List Char → Prop} {literal : String} {chars : List Char}
    (spelled : literal = String.ofList chars) (known : holds chars) : holds literal.toList := by
  rw [spelled, String.toList_ofList]
  exact known

end HomeclusterInfra.Text
