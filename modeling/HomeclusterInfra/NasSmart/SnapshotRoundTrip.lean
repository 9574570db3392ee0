import HomeclusterInfra.Library.Nested
import HomeclusterInfra.NasSmart.SnapshotText
import Mathlib.Data.List.Dedup

/-!
# Snapshots read back

A document is written from the disks of the bays, each with its rows. The parser
returns what was written when every bay is there once, with an identity of its own
and all required attributes once, and raises otherwise. So nothing depends on the
order of bays and rows, and no part can be left out or written twice.
-/

set_option autoImplicit false

namespace HomeclusterInfra.NasSmart

open Text Regex Regex.Rx Checked
open Binary64 (zeroPadded_isDigit zeroPadded_ne_nil digitsValue_zeroPadded)

/-! ## Rows -/

/-- Blanks at the margin of a line. -/
structure Margin where
  text : List Char
  blank : ∀ char ∈ text, char = ' ' ∨ char = '\t'

/-- Blanks between two words. -/
structure Gap extends Margin where
  nonempty : text ≠ []

/-- A decimal numeral, perhaps with leading zeros. -/
structure Numeral where
  digits : List Char
  nonempty : digits ≠ []
  decimal : ∀ char ∈ digits, char.isDigit = true
  short : digits.length ≤ 4300

def Numeral.value (numeral : Numeral) : Nat :=
  digitsValue numeral.digits

/-- An attribute row, with its blanks. -/
structure Row where
  code : Nat
  name : List Char
  raw : Numeral
  value : Numeral
  worst : Numeral
  threshold : Numeral
  status : List Char
  indent : Margin
  gaps : Fin 6 → Gap
  trail : Margin
  code_pos : 1 ≤ code
  code_le : code ≤ 255
  name_nonempty : name ≠ []
  name_chars : ∀ char ∈ name, isNameChar char = true
  status_nonempty : status ≠ []
  status_chars : ∀ char ∈ status, isStatusChar char = true
  raw_le : raw.value ≤ maxInteger
  value_le : value.value ≤ 255
  worst_le : worst.value ≤ 255
  threshold_le : threshold.value ≤ 255

/-- The row from its first word to its last. -/
def Row.body (row : Row) : List Char :=
  zeroPadded 3 row.code ++ ((row.gaps 0).text ++ (row.name ++ ((row.gaps 1).text ++
    (row.raw.digits ++ ((row.gaps 2).text ++ (row.value.digits ++ ((row.gaps 3).text ++
      (row.worst.digits ++ ((row.gaps 4).text ++ (row.threshold.digits ++ ((row.gaps 5).text ++
        row.status)))))))))))

/-- The line of a row. -/
def Row.text (row : Row) : List Char :=
  row.indent.text ++ row.body ++ row.trail.text

/-- The row is fine: its status is `OK`, and its value is above its threshold if it
has one. -/
def Row.ok (row : Row) : Bool :=
  row.status == "OK".toList && (row.threshold.value == 0 || row.value.value > row.threshold.value)

/-! ## How a row is matched -/

theorem isVisible_of_isNameChar {char : Char} (name : isNameChar char = true) :
    IsVisible char := by
  simp only [isNameChar, Bool.or_eq_true, decide_eq_true_eq] at name
  rcases name with (alphanum | rfl) | rfl
  · exact isVisible_of_isAlphanum alphanum
  · exact ⟨by decide, by decide⟩
  · exact ⟨by decide, by decide⟩

theorem isNameChar_of_isStatusChar {char : Char} (status : isStatusChar char = true) :
    isNameChar char = true := by
  simp only [isStatusChar, isNameChar, Char.isAlphanum, Bool.or_eq_true] at status ⊢
  rcases status with (alpha | same) | same
  · exact .inl (.inl (.inl alpha))
  · exact .inl (.inr same)
  · exact .inr same

/-- The characters of a word. -/
def AreVisible (word : List Char) : Prop :=
  ∀ char ∈ word, IsVisible char

theorem AreVisible.solid {word : List Char} (visible : AreVisible word) :
    ∀ char ∈ word, isSpace char = false :=
  fun char member => (visible char member).notSpace

theorem solid_of_all {word : List Char} (all : (word.all fun char => !isSpace char) = true) :
    ∀ char ∈ word, isSpace char = false :=
  fun char member => (Bool.not_eq_true' _).mp (List.all_eq_true.mp all char member)

theorem areVisible_of_isDigit {word : List Char} (decimal : ∀ char ∈ word, char.isDigit = true) :
    AreVisible word :=
  fun char member => isVisible_of_isDigit (decimal char member)

theorem areVisible_of_isNameChar {word : List Char}
    (chars : ∀ char ∈ word, isNameChar char = true) : AreVisible word :=
  fun char member => isVisible_of_isNameChar (chars char member)

theorem areVisible_of_isStatusChar {word : List Char}
    (chars : ∀ char ∈ word, isStatusChar char = true) : AreVisible word :=
  areVisible_of_isNameChar fun char member => isNameChar_of_isStatusChar (chars char member)

/-- What a match of the row pattern captures are words of the line. -/
theorem rowPattern_sound {text : List Char} {row : Position Char}
    (found : rowPattern.fullmatch text = some row) :
    ∃ name, words text = [row.captured 1, name, row.captured 2, row.captured 3, row.captured 4,
      row.captured 5, row.captured 6] := by
  obtain ⟨reads, ends⟩ := fullmatch_sound found
  obtain ⟨_, reads₀, _, reads₁, _, reads₂, _, reads₃, _, reads₄, _, reads₅, _, reads₆, _, reads₇,
    _, reads₈, _, reads₉, _, reads₁₀, _, reads₁₁, reads₁₂⟩ := reads
  obtain ⟨code, rest₀, split₀, length₀, chars₀, rfl⟩ := reads_group_exactly_iff.mp reads₀
  obtain ⟨gap₁, rest₁, split₁, filled₁, blank₁, rfl⟩ := reads_plus_symbol_iff.mp reads₁
  obtain ⟨name, rest₂, split₂, nonempty₂, chars₂, rfl⟩ := reads_plus_symbol_iff.mp reads₂
  obtain ⟨gap₃, rest₃, split₃, filled₃, blank₃, rfl⟩ := reads_plus_symbol_iff.mp reads₃
  obtain ⟨raw, rest₄, split₄, nonempty₄, chars₄, rfl⟩ := reads_group_plus_iff.mp reads₄
  obtain ⟨gap₅, rest₅, split₅, filled₅, blank₅, rfl⟩ := reads_plus_symbol_iff.mp reads₅
  obtain ⟨value, rest₆, split₆, nonempty₆, chars₆, rfl⟩ := reads_group_plus_iff.mp reads₆
  obtain ⟨gap₇, rest₇, split₇, filled₇, blank₇, rfl⟩ := reads_plus_symbol_iff.mp reads₇
  obtain ⟨worst, rest₈, split₈, nonempty₈, chars₈, rfl⟩ := reads_group_plus_iff.mp reads₈
  obtain ⟨gap₉, rest₉, split₉, filled₉, blank₉, rfl⟩ := reads_plus_symbol_iff.mp reads₉
  obtain ⟨threshold, rest₁₀, split₁₀, nonempty₁₀, chars₁₀, rfl⟩ := reads_group_plus_iff.mp reads₁₀
  obtain ⟨gap₁₁, rest₁₁, split₁₁, filled₁₁, blank₁₁, rfl⟩ := reads_plus_symbol_iff.mp reads₁₁
  obtain ⟨status, last, split₁₂, nonempty₁₂, chars₁₂, rfl⟩ := reads_group_plus_iff.mp reads₁₂
  obtain rfl : rest₀ = gap₁ ++ rest₁ := split₁
  obtain rfl : rest₁ = name ++ rest₂ := split₂
  obtain rfl : rest₂ = gap₃ ++ rest₃ := split₃
  obtain rfl : rest₃ = raw ++ rest₄ := split₄
  obtain rfl : rest₄ = gap₅ ++ rest₅ := split₅
  obtain rfl : rest₅ = value ++ rest₆ := split₆
  obtain rfl : rest₆ = gap₇ ++ rest₇ := split₇
  obtain rfl : rest₇ = worst ++ rest₈ := split₈
  obtain rfl : rest₈ = gap₉ ++ rest₉ := split₉
  obtain rfl : rest₉ = threshold ++ rest₁₀ := split₁₀
  obtain rfl : rest₁₀ = gap₁₁ ++ rest₁₁ := split₁₁
  obtain rfl : rest₁₁ = status ++ last := split₁₂
  obtain rfl : last = [] := ends
  have nonempty₀ : code ≠ [] := by
    intro none
    rw [none] at length₀
    cases length₀
  have whole : text = code ++ _ := split₀
  refine ⟨name, ?_⟩
  show words text = [code, name, raw, value, worst, threshold, status]
  rw [whole, words_word nonempty₀ (areVisible_of_isDigit chars₀).solid filled₁ blank₁,
    words_word nonempty₂ (areVisible_of_isNameChar chars₂).solid filled₃ blank₃,
    words_word nonempty₄ (areVisible_of_isDigit chars₄).solid filled₅ blank₅,
    words_word nonempty₆ (areVisible_of_isDigit chars₆).solid filled₇ blank₇,
    words_word nonempty₈ (areVisible_of_isDigit chars₈).solid filled₉ blank₉,
    words_word nonempty₁₀ (areVisible_of_isDigit chars₁₀).solid filled₁₁ blank₁₁,
    List.append_nil, words_single nonempty₁₂ (areVisible_of_isStatusChar chars₁₂).solid]

/-! ## How a row is read -/

theorem Margin.isSpace (margin : Margin) : ∀ char ∈ margin.text, Text.isSpace char = true := by
  intro char member
  rcases margin.blank char member with rfl | rfl
  · decide
  · decide

theorem Numeral.visible (numeral : Numeral) : AreVisible numeral.digits :=
  areVisible_of_isDigit numeral.decimal

namespace Row

variable (row : Row)

theorem length_code : (zeroPadded 3 row.code).length = 3 := by
  have small := row.code_le
  exact Calendar.length_zeroPadded (by omega) (by omega)

theorem code_visible : AreVisible (zeroPadded 3 row.code) :=
  areVisible_of_isDigit zeroPadded_isDigit

theorem matches_body : (rowPattern.fullmatch row.body).isSome := by
  refine fullmatch_isSome_iff.mpr ⟨_, ⟨_, reads_group_exactly_iff.mpr
      ⟨zeroPadded 3 row.code, _, rfl, row.length_code, zeroPadded_isDigit, rfl⟩,
    _, reads_plus_symbol_iff.mpr
      ⟨(row.gaps 0).text, _, rfl, (row.gaps 0).nonempty, (row.gaps 0).isSpace, rfl⟩,
    _, reads_plus_symbol_iff.mpr ⟨row.name, _, rfl, row.name_nonempty, row.name_chars, rfl⟩,
    _, reads_plus_symbol_iff.mpr
      ⟨(row.gaps 1).text, _, rfl, (row.gaps 1).nonempty, (row.gaps 1).isSpace, rfl⟩,
    _, reads_group_plus_iff.mpr ⟨row.raw.digits, _, rfl, row.raw.nonempty, row.raw.decimal, rfl⟩,
    _, reads_plus_symbol_iff.mpr
      ⟨(row.gaps 2).text, _, rfl, (row.gaps 2).nonempty, (row.gaps 2).isSpace, rfl⟩,
    _, reads_group_plus_iff.mpr
      ⟨row.value.digits, _, rfl, row.value.nonempty, row.value.decimal, rfl⟩,
    _, reads_plus_symbol_iff.mpr
      ⟨(row.gaps 3).text, _, rfl, (row.gaps 3).nonempty, (row.gaps 3).isSpace, rfl⟩,
    _, reads_group_plus_iff.mpr
      ⟨row.worst.digits, _, rfl, row.worst.nonempty, row.worst.decimal, rfl⟩,
    _, reads_plus_symbol_iff.mpr
      ⟨(row.gaps 4).text, _, rfl, (row.gaps 4).nonempty, (row.gaps 4).isSpace, rfl⟩,
    _, reads_group_plus_iff.mpr
      ⟨row.threshold.digits, _, rfl, row.threshold.nonempty, row.threshold.decimal, rfl⟩,
    _, reads_plus_symbol_iff.mpr
      ⟨(row.gaps 5).text, _, rfl, (row.gaps 5).nonempty, (row.gaps 5).isSpace, rfl⟩,
    reads_group_plus_iff.mpr
      ⟨row.status, [], (List.append_nil _).symm, row.status_nonempty, row.status_chars, rfl⟩⟩, rfl⟩

theorem words_body : words row.body = [zeroPadded 3 row.code, row.name, row.raw.digits,
    row.value.digits, row.worst.digits, row.threshold.digits, row.status] := by
  rw [body, words_word (zeroPadded_ne_nil 3 row.code) row.code_visible.solid (row.gaps 0).nonempty
      (row.gaps 0).isSpace,
    words_word row.name_nonempty (areVisible_of_isNameChar row.name_chars).solid
      (row.gaps 1).nonempty (row.gaps 1).isSpace,
    words_word row.raw.nonempty row.raw.visible.solid (row.gaps 2).nonempty (row.gaps 2).isSpace,
    words_word row.value.nonempty row.value.visible.solid (row.gaps 3).nonempty
      (row.gaps 3).isSpace,
    words_word row.worst.nonempty row.worst.visible.solid (row.gaps 4).nonempty
      (row.gaps 4).isSpace,
    words_word row.threshold.nonempty row.threshold.visible.solid (row.gaps 5).nonempty
      (row.gaps 5).isSpace,
    words_single row.status_nonempty (areVisible_of_isStatusChar row.status_chars).solid]

theorem strip_text : strip row.text = row.body := by
  have begins : ∃ back, row.body = zeroPadded 3 row.code ++ back := ⟨_, rfl⟩
  have ends : ∃ front, row.body = front ++ row.status := by
    refine ⟨zeroPadded 3 row.code ++ (row.gaps 0).text ++ row.name ++ (row.gaps 1).text ++
      row.raw.digits ++ (row.gaps 2).text ++ row.value.digits ++ (row.gaps 3).text ++
      row.worst.digits ++ (row.gaps 4).text ++ row.threshold.digits ++ (row.gaps 5).text, ?_⟩
    simp only [body, List.append_assoc]
  obtain ⟨back, begins⟩ := begins
  obtain ⟨front, ends⟩ := ends
  refine strip_margins row.indent.isSpace row.trail.isSpace (fun char first => ?_)
    (fun char last => ?_) ?_
  · rw [begins, List.head?_append_of_ne_nil _ (zeroPadded_ne_nil 3 row.code)] at first
    exact row.code_visible.solid char (List.mem_of_head? first)
  · rw [ends, List.getLast?_append_of_ne_nil _ row.status_nonempty] at last
    exact (areVisible_of_isStatusChar row.status_chars).solid char (List.mem_of_getLast? last)
  · rw [begins]
    exact List.append_ne_nil_of_left_ne_nil (zeroPadded_ne_nil 3 row.code) back

theorem readInt_numeral (numeral : Numeral) : readInt numeral.digits = .ok numeral.value := by
  rw [readInt, if_pos numeral.short]
  rfl

theorem readInt_code : readInt (zeroPadded 3 row.code) = .ok row.code := by
  have length := row.length_code
  rw [readInt, if_pos (by omega), digitsValue_zeroPadded]

/-- **A row adds its attribute**, unless that is there already. -/
theorem readRow_text (attrs : Attributes) (healthy : Bool) :
    readRow row.text attrs healthy =
      if (attrs.lookup row.code).isSome then .error "invalid SMART numeric value"
      else .ok (attrs ++ [(row.code, row.raw.value)], healthy && row.ok) := by
  obtain ⟨found, isFound⟩ := Option.isSome_iff_exists.mp row.matches_body
  obtain ⟨name, same⟩ := rowPattern_sound isFound
  rw [row.words_body] at same
  simp only [List.cons.injEq, and_true] at same
  obtain ⟨code, -, raw, value, worst, threshold, status⟩ := same
  have inRange : (1 ≤ row.code && row.code ≤ 255 && !(attrs.lookup row.code).isSome &&
      row.raw.value ≤ maxInteger &&
      [row.value.value, row.worst.value, row.threshold.value].all fun x => x ≤ 255) =
      !(attrs.lookup row.code).isSome := by
    simp [row.code_pos, row.code_le, row.raw_le, row.value_le, row.worst_le, row.threshold_le]
  rw [readRow, row.strip_text, isFound]
  simp only [← code, ← raw, ← value, ← worst, ← threshold, ← status, readInt_code,
    readInt_numeral, bind, Except.bind]
  rw [inRange]
  cases (attrs.lookup row.code).isSome with
  | false => rfl
  | true => rfl

/-- The words of a row begin with its code. -/
theorem words_text : ∃ rest, words row.text = zeroPadded 3 row.code :: rest := by
  rw [text, body, List.append_assoc, words_blanks row.indent.isSpace, List.append_assoc,
    List.append_assoc, words_word (zeroPadded_ne_nil 3 row.code) row.code_visible.solid
      (row.gaps 0).nonempty (row.gaps 0).isSpace]
  exact ⟨_, rfl⟩

theorem text_ne {line : List Char} (other : ∀ rest, words line ≠ zeroPadded 3 row.code :: rest) :
    row.text ≠ line := by
  rintro rfl
  obtain ⟨rest, same⟩ := row.words_text
  exact other rest same

/-- A code is no word that begins with a letter. -/
theorem code_ne {char : Char} {word : List Char} (letter : char.isDigit = false) :
    zeroPadded 3 row.code ≠ char :: word := by
  intro same
  have digit := @zeroPadded_isDigit 3 row.code char
    (same.symm ▸ List.mem_cons_self)
  rw [letter] at digit
  cases digit

theorem text_ne_endBay : row.text ≠ "END_BAY".toList := by
  refine row.text_ne fun rest same => ?_
  rw [show words "END_BAY".toList = ["END_BAY".toList] by decide, List.cons.injEq] at same
  exact row.code_ne (by decide) same.1.symm

/-- A row is no header of a disk. -/
theorem readBay_text {header : Bay × String} : readBay row.text ≠ .ok header := by
  intro read
  obtain ⟨rest, same⟩ := row.words_text
  rw [readBay, same] at read
  split at read
  · next mark name digest split =>
      have first : mark = zeroPadded 3 row.code := (List.cons.inj split).1.symm
      split at read
      · rw [if_neg] at read
        · cases read
        · rw [Bool.and_eq_true, decide_eq_true_eq, not_and]
          rintro rfl
          exact absurd first.symm (row.code_ne (by decide))
      · cases read
  · cases read

end Row

/-! ## The rows of a disk -/

/-- The attribute that a row states. -/
def Row.entry (row : Row) : Nat × Nat :=
  (row.code, row.raw.value)

theorem map_entry (rows : List Row) : (rows.map Row.entry).map Prod.fst = rows.map Row.code := by
  rw [List.map_map]
  rfl

/-- **Rows are read to the mark behind them**, if no code is there twice. -/
theorem readRows_rows {rows : List Row} {rest : List (List Char)} {attrs : Attributes}
    {healthy : Bool} {result : (Attributes × Bool) × List (List Char)}
    (distinct : (attrs.map Prod.fst).Nodup) :
    readRows (rows.map Row.text ++ "END_BAY".toList :: rest) attrs healthy = .ok result ↔
      ((attrs ++ rows.map Row.entry).map Prod.fst).Nodup ∧
        result = ((attrs ++ rows.map Row.entry, healthy && rows.all Row.ok),
          "END_BAY".toList :: rest) := by
  induction rows generalizing attrs healthy with
  | nil =>
      rw [List.map_nil, List.map_nil, List.nil_append, List.append_nil, readRows, if_pos rfl,
        List.all_nil, Bool.and_true, Except.ok.injEq]
      exact ⟨fun same => ⟨distinct, same.symm⟩, fun same => same.2.symm⟩
  | cons row rows ih =>
      rw [List.map_cons, List.cons_append, readRows, if_neg row.text_ne_endBay, row.readRow_text,
        List.map_cons, List.append_cons attrs row.entry]
      by_cases known : (attrs.lookup row.code).isSome
      · rw [if_pos known]
        refine iff_of_false (fun read => by cases read) fun all => ?_
        have fresh := all.1
        have listed : row.code ∈ attrs.map Prod.fst := by
          by_contra absent
          rw [Nested.lookup_eq_none.mpr absent] at known
          cases known
        rw [List.map_append, List.map_append] at fresh
        exact (List.nodup_append.mp (List.nodup_append.mp fresh).1).2.2 _ listed _
          (List.mem_singleton.mpr rfl) rfl
      · rw [if_neg known]
        have fresh : ((attrs ++ [row.entry]).map Prod.fst).Nodup := by
          rw [List.map_append]
          refine List.nodup_append.mpr ⟨distinct, List.nodup_singleton _, ?_⟩
          rintro code listed other member rfl
          rw [List.map_singleton, List.mem_singleton] at member
          rw [Option.not_isSome_iff_eq_none, Nested.lookup_eq_none] at known
          rw [member] at listed
          exact known listed
        rw [List.all_cons, ← Bool.and_assoc]
        exact ih fresh

/-- A line that is no row and no mark stops the rows before it. -/
theorem readRows_stopped {rows : List Row} {line : List Char} {rest : List (List Char)}
    {attrs : Attributes} {healthy : Bool} {result : (Attributes × Bool) × List (List Char)}
    (notMark : line ≠ "END_BAY".toList) (notRow : (words (strip line)).length ≠ 7) :
    readRows (rows.map Row.text ++ line :: rest) attrs healthy ≠ .ok result := by
  induction rows generalizing attrs healthy with
  | nil =>
      have unread : readRow line attrs healthy = .error "invalid SMART attribute" := by
        rw [readRow]
        split
        · rfl
        · next row found =>
            obtain ⟨name, same⟩ := rowPattern_sound found
            exact absurd (congrArg List.length same) notRow
      rw [List.map_nil, List.nil_append, readRows, if_neg notMark, unread]
      intro read
      cases read
  | cons row rows ih =>
      rw [List.map_cons, List.cons_append, readRows, if_neg row.text_ne_endBay, row.readRow_text]
      by_cases known : (attrs.lookup row.code).isSome
      · rw [if_pos known]
        intro read
        cases read
      · rw [if_neg known]
        exact ih

/-- Rows without a mark behind them are read to the end. -/
theorem readRows_end {rows : List Row} {attrs : Attributes} {healthy : Bool}
    {result : Attributes × Bool} {rest : List (List Char)}
    (read : readRows (rows.map Row.text) attrs healthy = .ok (result, rest)) : rest = [] := by
  induction rows generalizing attrs healthy with
  | nil =>
      cases read
      rfl
  | cons row rows ih =>
      rw [List.map_cons, readRows, if_neg row.text_ne_endBay, row.readRow_text] at read
      by_cases known : (attrs.lookup row.code).isSome
      · rw [if_pos known] at read
        cases read
      · rw [if_neg known] at read
        exact ih read

/-! ## Disks -/

/-- What is written of a disk. -/
structure Block where
  bay : Bay
  diskId : String
  rows : List Row
  hex : isHex64 diskId = true

namespace Block

variable (block : Block)

/-- `BAY %s %s` -/
def header : List Char :=
  "BAY ".toList ++ block.bay.name.toList ++ ' ' :: block.diskId.toList

def lines : List (List Char) :=
  block.header :: (block.rows.map Row.text ++ ["END_BAY".toList])

def codes : List Nat :=
  block.rows.map Row.code

/-- The disk is written whole: no attribute is there twice, and the required ones
are there, with a temperature. -/
structure Complete : Prop where
  distinct : block.codes.Nodup
  required : ∀ code ∈ required, code ∈ block.codes
  temperature : ∀ row ∈ block.rows, row.code = 194 → row.raw.value ≤ 150

/-- The reading says what the rows say. -/
structure Describes (reading : Reading) : Prop where
  diskId : reading.diskId = block.diskId
  healthy : reading.healthy = true ↔ ∀ row ∈ block.rows, row.status = "OK".toList ∧
    (row.threshold.value = 0 ∨ row.threshold.value < row.value.value)
  temperature : ∀ row ∈ block.rows, row.code = 194 → reading.temperature = row.raw.value
  raw : ∀ row ∈ block.rows, ∀ fault, row.code = Attribute.code fault →
    reading.raw fault = row.raw.value

/-- What the parser makes of the disk. -/
def reading : Reading :=
  readingOf block.diskId (block.rows.map Row.entry) (block.rows.all Row.ok)

/-- The disk with its bay, as the parser returns it. -/
def entry : Bay × Reading :=
  (block.bay, block.reading)

variable {block}

theorem areVisible_diskId : AreVisible block.diskId.toList := by
  have hex := block.hex
  simp only [isHex64, Bool.and_eq_true, List.all_eq_true, Bool.or_eq_true, decide_eq_true_eq]
    at hex
  intro char member
  rcases hex.2 char member with digit | ⟨low, high⟩
  · exact isVisible_of_isDigit digit
  · have lowCode : 97 ≤ char.toNat := low
    have highCode : char.toNat ≤ 102 := high
    exact ⟨by omega, by omega⟩

theorem diskId_ne_nil : block.diskId.toList ≠ [] := by
  intro none
  have hex := block.hex
  rw [isHex64, none] at hex
  cases hex

theorem words_header :
    words block.header = ["BAY".toList, block.bay.name.toList, block.diskId.toList] := by
  have shape : block.header = "BAY".toList ++ ([' '] ++
      (block.bay.name.toList ++ ([' '] ++ block.diskId.toList))) := by
    simp [header]
  have blank : ∀ char ∈ [' '], Text.isSpace char = true := List.all_eq_true.mp (by decide)
  have name : block.bay.name.toList ≠ [] ∧
      ∀ char ∈ block.bay.name.toList, Text.isSpace char = false := by
    cases block.bay <;> exact ⟨by decide, solid_of_all (by decide)⟩
  rw [shape, words_word (by decide) (solid_of_all (by decide)) (by decide) blank,
    words_word name.1 name.2 (by decide) blank,
    words_single diskId_ne_nil areVisible_diskId.solid]

theorem readBay_header : readBay block.header = .ok (block.bay, block.diskId) := by
  have named : Bay.ofName block.bay.name.toList = some block.bay := by
    cases block.bay <;> rfl
  rw [readBay, words_header]
  simp only [named, String.ofList_toList, block.hex, decide_true, Bool.and_self, if_true]

theorem header_ne_endBay : block.header ≠ "END_BAY".toList := by
  intro same
  have first : block.header.head? = some 'B' := rfl
  rw [same] at first
  cases first

theorem strip_header : strip block.header = block.header := by
  have stripped := @strip_margins [] block.header []
    (fun _ none => absurd none List.not_mem_nil) (fun _ none => absurd none List.not_mem_nil)
    (fun char first => ?_) (fun char last => ?_) (List.cons_ne_nil _ _)
  · rwa [List.nil_append, List.append_nil] at stripped
  · obtain rfl : 'B' = char := Option.some.inj first
    decide
  · rw [header, List.getLast?_append_of_ne_nil _ (List.cons_ne_nil _ _),
      List.getLast?_cons_of_ne_nil diskId_ne_nil] at last
    exact areVisible_diskId.solid char (List.mem_of_getLast? last)

/-- A code that is written is found with its raw value. -/
theorem lookup_entry (distinct : block.codes.Nodup) {row : Row} (member : row ∈ block.rows) :
    (block.rows.map Row.entry).lookup row.code = some row.raw.value :=
  Keyed.lookup_of_mem (map_entry block.rows ▸ distinct) (List.mem_map.mpr ⟨row, member, rfl⟩)

theorem isSome_lookup_entry {code : Nat} :
    ((block.rows.map Row.entry).lookup code).isSome ↔ code ∈ block.codes := by
  rw [codes, ← map_entry, ← not_iff_not, ← Nested.lookup_eq_none, Bool.not_eq_true,
    Option.isSome_eq_false_iff, Option.isNone_iff_eq_none]

/-- The checks behind the rows are about the disk. -/
theorem complete_iff : block.Complete ↔ block.codes.Nodup ∧
    (NasSmart.required.all fun code =>
      ((block.rows.map Row.entry).lookup code).isSome) = true ∧
    ((block.rows.map Row.entry).lookup 194).getD 0 ≤ 150 := by
  rw [List.all_eq_true]
  constructor
  · intro complete
    refine ⟨complete.distinct, fun code listed =>
      isSome_lookup_entry.mpr (complete.required code listed), ?_⟩
    have there := complete.required 194 (by decide)
    obtain ⟨row, member, same⟩ := List.mem_map.mp there
    rw [← same, lookup_entry complete.distinct member]
    exact complete.temperature row member same
  · rintro ⟨distinct, listed, cool⟩
    refine ⟨distinct, fun code member => isSome_lookup_entry.mp (listed code member),
      fun row member same => ?_⟩
    rw [← same, lookup_entry distinct member] at cool
    exact cool

/-- What the parser makes of a whole disk is what its rows say. -/
theorem describes_reading (complete : block.Complete) : block.Describes block.reading where
  diskId := rfl
  healthy := by
    show block.rows.all Row.ok = true ↔ _
    rw [List.all_eq_true]
    refine forall₂_congr fun row _ => ?_
    simp [Row.ok]
  temperature row member same := by
    show ((block.rows.map Row.entry).lookup 194).getD 0 = _
    rw [← same, lookup_entry complete.distinct member]
    rfl
  raw row member fault same := by
    show ((block.rows.map Row.entry).lookup fault.code).getD 0 = _
    rw [← same, lookup_entry complete.distinct member]
    rfl

/-- The rows determine the reading. -/
theorem Describes.unique {first second : Reading} (complete : block.Complete)
    (one : block.Describes first) (two : block.Describes second) : first = second := by
  have required (code : Nat) (listed : code ∈ required) : ∃ row ∈ block.rows, row.code = code :=
    List.mem_map.mp (complete.required code listed)
  obtain ⟨temperature, member, same⟩ := required 194 (by decide)
  have sameRaw : first.raw = second.raw := by
    funext fault
    obtain ⟨row, member, same⟩ := required fault.code
      (List.mem_append_left _ (List.mem_map_of_mem fault.mem_all))
    rw [one.raw row member fault same, two.raw row member fault same]
  have sameHealth : first.healthy = second.healthy :=
    Bool.eq_iff_iff.mpr (one.healthy.trans two.healthy.symm)
  have sameId := one.diskId.trans two.diskId.symm
  have sameTemperature :=
    (one.temperature temperature member same).trans (two.temperature temperature member same).symm
  cases first
  cases second
  cases sameRaw
  cases sameHealth
  cases sameId
  cases sameTemperature
  rfl

end Block

/-! ## The disks of a document -/

/-- **A disk is read** when it is whole and its bay is new. -/
theorem readBays_block {block : Block} {rest : List (List Char)} {disks result : Disks} :
    readBays (block.lines ++ rest) disks = .ok result ↔
      block.Complete ∧ block.bay ∉ disks.map Prod.fst ∧
        readBays rest (disks ++ [block.entry]) = .ok result := by
  have lines : block.lines ++ rest =
      block.header :: (block.rows.map Row.text ++ "END_BAY".toList :: rest) := by
    rw [Block.lines, List.cons_append, List.append_assoc]
    rfl
  have rows (read : (Attributes × Bool) × List (List Char)) :
      readRows (block.rows.map Row.text ++ "END_BAY".toList :: rest) [] true = .ok read ↔
        block.codes.Nodup ∧ read = ((block.rows.map Row.entry, block.rows.all Row.ok),
          "END_BAY".toList :: rest) := by
    rw [@readRows_rows _ _ [] _ _ List.nodup_nil, List.nil_append, map_entry, Bool.true_and]
    rfl
  rw [lines, readBays, Block.readBay_header]
  simp only
  by_cases known : (disks.lookup block.bay).isSome
  · rw [if_pos known]
    refine iff_of_false (fun read => by cases read) fun all => ?_
    rw [Nested.lookup_eq_none.mpr all.2.1] at known
    cases known
  · rw [if_neg known]
    have fresh : block.bay ∉ disks.map Prod.fst :=
      Nested.lookup_eq_none.mp (Option.not_isSome_iff_eq_none.mp known)
    rw [Block.complete_iff]
    split
    · next problem failed =>
        refine iff_of_false (fun read => by cases read) fun all => ?_
        rw [(rows _).mpr ⟨all.1.1, rfl⟩] at failed
        cases failed
    · next read failed =>
        refine iff_of_false (fun read => by cases read) fun _ => ?_
        cases ((rows _).mp failed).2
    · next attrs healthy mark after read =>
        obtain ⟨distinct, same⟩ := (rows _).mp read
        cases same
        by_cases listed : (required.all fun code =>
            ((block.rows.map Row.entry).lookup code).isSome) = true
        · rw [if_pos listed]
          by_cases cool : ((block.rows.map Row.entry).lookup 194).getD 0 ≤ 150
          · rw [if_pos cool]
            exact ⟨fun read => ⟨⟨distinct, listed, cool⟩, fresh, read⟩, fun all => all.2.2⟩
          · rw [if_neg cool]
            exact iff_of_false (fun read => by cases read) fun all => cool all.1.2.2
        · rw [if_neg listed]
          exact iff_of_false (fun read => by cases read) fun all => listed all.1.2.1

/-- **Disks are read** when each is whole and no bay is there twice. -/
theorem readBays_blocks {blocks : List Block} {rest : List (List Char)} {disks result : Disks}
    (distinct : (disks.map Prod.fst).Nodup) :
    readBays (blocks.flatMap Block.lines ++ rest) disks = .ok result ↔
      (∀ block ∈ blocks, block.Complete) ∧
        ((disks ++ blocks.map Block.entry).map Prod.fst).Nodup ∧
        readBays rest (disks ++ blocks.map Block.entry) = .ok result := by
  induction blocks generalizing disks with
  | nil =>
      rw [List.flatMap_nil, List.map_nil, List.nil_append, List.append_nil]
      exact ⟨fun read => ⟨fun _ none => absurd none List.not_mem_nil, distinct, read⟩,
        fun all => all.2.2⟩
  | cons block blocks ih =>
      rw [List.flatMap_cons, List.append_assoc, readBays_block, List.map_cons,
        List.append_cons disks block.entry (blocks.map Block.entry), List.forall_mem_cons,
        and_assoc]
      refine and_congr_right fun _ => ?_
      constructor
      · rintro ⟨fresh, read⟩
        have still : ((disks ++ [block.entry]).map Prod.fst).Nodup := by
          rw [List.map_append]
          refine List.nodup_append.mpr ⟨distinct, List.nodup_singleton _, ?_⟩
          rintro bay listed other member rfl
          rw [List.map_singleton, List.mem_singleton] at member
          rw [member] at listed
          exact fresh listed
        exact (ih still).mp read
      · rintro ⟨complete, all, read⟩
        have still : ((disks ++ [block.entry]).map Prod.fst).Nodup := by
          rw [List.map_append] at all
          exact (List.nodup_append.mp all).1
        refine ⟨fun listed => ?_, (ih still).mpr ⟨complete, all, read⟩⟩
        rw [List.map_append] at still
        exact (List.nodup_append.mp still).2.2 _ listed _ (List.mem_singleton.mpr rfl) rfl

/-! ## Documents -/

/-- The lines of a document around those of its disks. -/
def framed (lines : List (List Char)) : List (List Char) :=
  "NAS_SMART_1".toList :: (lines ++ ["END".toList])

/-- The lines that the appliance prints. -/
def documentLines (blocks : List Block) : List (List Char) :=
  framed (blocks.flatMap Block.lines)

/-- The bytes of lines. -/
def encode (lines : List (List Char)) : List UInt8 :=
  asciiBytes (unlines lines)

/-- Every bay is there once, with an identity of its own, and whole. -/
structure Valid (blocks : List Block) : Prop where
  bays : (blocks.map Block.bay).Perm Bay.all
  identities : (blocks.map Block.diskId).Nodup
  complete : ∀ block ∈ blocks, block.Complete

/-- A line of visible characters and blanks. -/
def IsPlain (line : List Char) : Prop :=
  ∀ char ∈ line, IsVisible char ∨ char = ' ' ∨ char = '\t'

theorem AreVisible.plain {word : List Char} (visible : AreVisible word) : IsPlain word :=
  fun char member => .inl (visible char member)

theorem Margin.plain (margin : Margin) : IsPlain margin.text :=
  fun char member => .inr (margin.blank char member)

theorem IsPlain.append {front back : List Char} (first : IsPlain front) (second : IsPlain back) :
    IsPlain (front ++ back) := by
  intro char member
  rcases List.mem_append.mp member with inFront | inBack
  · exact first char inFront
  · exact second char inBack

theorem IsPlain.notLineBreak {line : List Char} (plain : IsPlain line) :
    ∀ char ∈ line, isLineBreak char = false := by
  intro char member
  rcases plain char member with visible | rfl | rfl
  · exact visible.notLineBreak
  · decide
  · decide

theorem IsPlain.ascii {line : List Char} (plain : IsPlain line) :
    ∀ char ∈ line, char.toNat < 128 := by
  intro char member
  rcases plain char member with ⟨_, high⟩ | rfl | rfl
  · omega
  · decide
  · decide

theorem Row.plain_text (row : Row) : IsPlain row.text :=
  ((row.indent.plain.append <| row.code_visible.plain.append <| (row.gaps 0).plain.append <|
    (areVisible_of_isNameChar row.name_chars).plain.append <| (row.gaps 1).plain.append <|
    row.raw.visible.plain.append <| (row.gaps 2).plain.append <|
    row.value.visible.plain.append <| (row.gaps 3).plain.append <|
    row.worst.visible.plain.append <| (row.gaps 4).plain.append <|
    row.threshold.visible.plain.append <| (row.gaps 5).plain.append <|
    (areVisible_of_isStatusChar row.status_chars).plain)).append row.trail.plain

/-- The lines of a document are plain. -/
inductive IsLine : List Char → Prop
  | begin : IsLine "NAS_SMART_1".toList
  | header (block : Block) : IsLine block.header
  | row (row : Row) : IsLine row.text
  | endBay : IsLine "END_BAY".toList
  | finish : IsLine "END".toList

theorem plain_of_all {line : List Char}
    (all : (line.all fun char => decide (33 ≤ char.toNat ∧ char.toNat < 127) || char == ' ') = true) :
    IsPlain line := by
  intro char member
  have one := List.all_eq_true.mp all char member
  rw [Bool.or_eq_true, decide_eq_true_eq, beq_iff_eq] at one
  rcases one with visible | blank
  · exact .inl visible
  · exact .inr (.inl blank)

theorem IsLine.plain {line : List Char} (written : IsLine line) : IsPlain line := by
  cases written with
  | begin => exact plain_of_all (by decide)
  | header block =>
      have name : IsPlain block.bay.name.toList := by
        cases block.bay <;> exact plain_of_all (by decide)
      exact ((plain_of_all (by decide)).append name).append
        (List.forall_mem_cons.mpr ⟨.inr (.inl rfl), Block.areVisible_diskId.plain⟩)
  | row row => exact row.plain_text
  | endBay => exact plain_of_all (by decide)
  | finish => exact plain_of_all (by decide)

/-- The bytes of plain lines are read as those lines, if they are not too many. -/
theorem parseSnapshot_encode {lines : List (List Char)} (plain : ∀ line ∈ lines, IsPlain line) :
    parseSnapshot (encode lines) =
      if (encode lines).length > maxBytes then .error "invalid SMART snapshot size"
      else readDocument lines := by
  have ascii : ∀ char ∈ unlines lines, char.toNat < 128 := by
    intro char member
    obtain ⟨line, listed, inside⟩ := List.mem_flatMap.mp member
    rcases List.mem_append.mp inside with inLine | feed
    · exact (plain line listed).ascii char inLine
    · rw [List.mem_singleton.mp feed]
      decide
  have small : (encode lines).all (· < 128) = true := by
    rw [List.all_eq_true]
    intro byte member
    obtain ⟨char, listed, rfl⟩ := List.mem_map.mp member
    have code := ascii char listed
    rw [decide_eq_true_eq, UInt8.lt_iff_toNat_lt, UInt8.toNat_ofNat', Nat.mod_eq_of_lt (by omega)]
    exact code
  rw [parseSnapshot, if_pos small, encode, map_asciiBytes ascii,
    splitlines_unlines fun line listed => (plain line listed).notLineBreak]

theorem map_fst_entry (blocks : List Block) :
    (blocks.map Block.entry).map Prod.fst = blocks.map Block.bay := by
  rw [List.map_map]
  rfl

theorem map_diskId_entry (blocks : List Block) :
    ((blocks.map Block.entry).map fun disk => disk.2.diskId) = blocks.map Block.diskId := by
  rw [List.map_map]
  rfl

theorem isSome_lookup_bay {blocks : List Block} {bay : Bay} :
    ((blocks.map Block.entry).lookup bay).isSome ↔ bay ∈ blocks.map Block.bay := by
  rw [← map_fst_entry, ← not_iff_not, ← Nested.lookup_eq_none, Bool.not_eq_true,
    Option.isSome_eq_false_iff, Option.isNone_iff_eq_none]

theorem readDocument_framed (lines : List (List Char)) : readDocument (framed lines) = do
    let disks ← readBays lines []
    require ((Bay.all.all fun bay => (disks.lookup bay).isSome) &&
      (disks.map fun disk => disk.2.diskId).dedup.length = 4)
      "missing or duplicate disk identity"
    return disks := by
  have whole : (decide ("NAS_SMART_1".toList = "NAS_SMART_1".toList) &&
      decide ((lines ++ ["END".toList]).getLast? = some "END".toList)) = true := by
    rw [List.getLast?_concat, decide_eq_true rfl, decide_eq_true rfl]
    rfl
  rw [framed, readDocument, if_pos whole, List.dropLast_concat]

/-- **A document is read** when every bay is there once, with an identity of its own,
and whole. -/
theorem readDocument_documentLines {blocks : List Block} {disks : Disks} :
    readDocument (documentLines blocks) = .ok disks ↔
      Valid blocks ∧ disks = blocks.map Block.entry := by
  rw [documentLines, readDocument_framed, bind_eq_ok]
  have read (found : Disks) : readBays (blocks.flatMap Block.lines) [] = .ok found ↔
      (∀ block ∈ blocks, block.Complete) ∧ (blocks.map Block.bay).Nodup ∧
        found = blocks.map Block.entry := by
    rw [← List.append_nil (blocks.flatMap Block.lines), @readBays_blocks _ _ [] _ List.nodup_nil,
      List.nil_append, map_fst_entry, readBays, Except.ok.injEq]
    exact and_congr_right fun _ => and_congr_right fun _ => eq_comm
  constructor
  · rintro ⟨found, same, checked⟩
    obtain ⟨complete, distinct, rfl⟩ := (read found).mp same
    obtain ⟨_, holds, result⟩ := bind_eq_ok.mp checked
    rw [require_eq_ok, Bool.and_eq_true, List.all_eq_true, decide_eq_true_eq,
      map_diskId_entry] at holds
    rw [pure_eq_ok] at result
    have bays : (blocks.map Block.bay).Perm Bay.all :=
      (List.perm_ext_iff_of_nodup distinct (by decide)).mpr fun bay =>
        iff_of_true (isSome_lookup_bay.mp (holds.1 bay bay.mem_all)) bay.mem_all
    have four : blocks.length = 4 := List.length_map Block.bay ▸ bays.length_eq
    refine ⟨⟨bays, ?_, complete⟩, result.symm⟩
    rw [← List.dedup_eq_self]
    refine (List.dedup_sublist _).eq_of_length ?_
    rw [holds.2, List.length_map, four]
  · rintro ⟨valid, rfl⟩
    have distinct : (blocks.map Block.bay).Nodup := valid.bays.nodup_iff.mpr (by decide)
    have four : blocks.length = 4 := List.length_map Block.bay ▸ valid.bays.length_eq
    refine ⟨_, (read _).mpr ⟨valid.complete, distinct, rfl⟩, bind_eq_ok.mpr ⟨⟨⟩, ?_, rfl⟩⟩
    rw [require_eq_ok, Bool.and_eq_true, List.all_eq_true, decide_eq_true_eq, map_diskId_entry,
      List.dedup_eq_self.mpr valid.identities, List.length_map]
    exact ⟨fun bay _ => isSome_lookup_bay.mpr (valid.bays.mem_iff.mpr bay.mem_all), four⟩

/-! ## Damaged documents -/

/-- A document with a part left out, or with something in it twice. -/
inductive Damaged (blocks : List Block) : List (List Char) → Prop
  | header : Damaged blocks (blocks.flatMap Block.lines ++ ["END".toList])
  | finish : Damaged blocks ("NAS_SMART_1".toList :: blocks.flatMap Block.lines)
  | bay {before after : List Block} {block : Block} (split : blocks = before ++ block :: after) :
      Damaged blocks (documentLines (before ++ after))
  | bayLine {before after : List Block} {block : Block} (split : blocks = before ++ block :: after) :
      Damaged blocks (framed (before.flatMap Block.lines ++
        (block.lines.tail ++ after.flatMap Block.lines)))
  | endBay {before after : List Block} {block : Block} (split : blocks = before ++ block :: after) :
      Damaged blocks (framed (before.flatMap Block.lines ++
        (block.lines.dropLast ++ after.flatMap Block.lines)))
  | row {before after : List Block} {block : Block} (split : blocks = before ++ block :: after)
      {front back : List Row} {row : Row} (rows : block.rows = front ++ row :: back)
      (needed : row.code ∈ required) :
      Damaged blocks (documentLines (before ++ { block with rows := front ++ back } :: after))
  | bayAdded {before after : List Block} (split : blocks = before ++ after) {extra : Block}
      (known : extra.bay ∈ blocks.map Block.bay) :
      Damaged blocks (documentLines (before ++ extra :: after))
  | bayRenamed {before after : List Block} {block : Block}
      (split : blocks = before ++ block :: after) {other : Block} (known : other ∈ before ++ after) :
      Damaged blocks (documentLines (before ++ { block with bay := other.bay } :: after))
  | rowAdded {before after : List Block} {block : Block} (split : blocks = before ++ block :: after)
      {front back : List Row} (rows : block.rows = front ++ back) {extra : Row}
      (known : extra.code ∈ block.codes) :
      Damaged blocks (documentLines (before ++
        { block with rows := front ++ extra :: back } :: after))
  | identityCopied {before after : List Block} {block : Block}
      (split : blocks = before ++ block :: after) {other : Block} (known : other ∈ before ++ after) :
      Damaged blocks (documentLines (before ++
        { block with diskId := other.diskId, hex := other.hex } :: after))

theorem isLine_of_mem_lines {blocks : List Block} {line : List Char}
    (member : line ∈ blocks.flatMap Block.lines) : IsLine line := by
  obtain ⟨block, -, inBlock⟩ := List.mem_flatMap.mp member
  rcases List.mem_cons.mp inBlock with rfl | inBlock
  · exact .header block
  · rcases List.mem_append.mp inBlock with inRows | mark
    · obtain ⟨row, -, rfl⟩ := List.mem_map.mp inRows
      exact .row row
    · rw [List.mem_singleton.mp mark]
      exact .endBay

theorem isLine_of_mem_framed {lines : List (List Char)} (inside : ∀ line ∈ lines, IsLine line) :
    ∀ line ∈ framed lines, IsLine line := by
  intro line member
  rcases List.mem_cons.mp member with rfl | member
  · exact .begin
  · rcases List.mem_append.mp member with inLines | mark
    · exact inside line inLines
    · rw [List.mem_singleton.mp mark]
      exact .finish

theorem isLine_of_mem_documentLines {blocks : List Block} :
    ∀ line ∈ documentLines blocks, IsLine line :=
  isLine_of_mem_framed fun _ => isLine_of_mem_lines

/-- Some lines of the middle block are left out. -/
theorem isLine_of_mem_middle {before after : List Block} {block : Block} {kept : List (List Char)}
    (some : kept ⊆ block.lines) :
    ∀ line ∈ before.flatMap Block.lines ++ (kept ++ after.flatMap Block.lines), IsLine line := by
  intro line member
  rcases List.mem_append.mp member with inBefore | member
  · exact isLine_of_mem_lines inBefore
  · rcases List.mem_append.mp member with inBlock | inAfter
    · exact @isLine_of_mem_lines [block] _ (by simpa using some inBlock)
    · exact isLine_of_mem_lines inAfter

theorem Damaged.isLine {blocks : List Block} {lines : List (List Char)}
    (damaged : Damaged blocks lines) : ∀ line ∈ lines, IsLine line := by
  cases damaged with
  | header =>
      intro line member
      exact isLine_of_mem_documentLines line (List.mem_cons_of_mem _ member)
  | finish =>
      intro line member
      rcases List.mem_cons.mp member with rfl | member
      · exact .begin
      · exact isLine_of_mem_lines member
  | bayLine => exact isLine_of_mem_framed (isLine_of_mem_middle (List.tail_sublist _).subset)
  | endBay => exact isLine_of_mem_framed (isLine_of_mem_middle (List.dropLast_subset _))
  | bay => exact isLine_of_mem_documentLines
  | row => exact isLine_of_mem_documentLines
  | bayAdded => exact isLine_of_mem_documentLines
  | bayRenamed => exact isLine_of_mem_documentLines
  | rowAdded => exact isLine_of_mem_documentLines
  | identityCopied => exact isLine_of_mem_documentLines

/-- A line that is no header of a disk stops the disks before it. -/
theorem readBays_stopped {blocks : List Block} {line : List Char} {rest : List (List Char)}
    {disks : Disks} (unread : ∀ header, readBay line ≠ .ok header) :
    readBays (blocks.flatMap Block.lines ++ line :: rest) [] ≠ .ok disks := by
  rw [Ne, @readBays_blocks _ _ [] _ List.nodup_nil]
  rintro ⟨-, -, read⟩
  rw [readBays] at read
  split at read
  · cases read
  · next header found => exact unread _ found

/-- A disk without its mark stops the disks before it. -/
theorem readBays_unmarked {before after : List Block} {block : Block} {disks : Disks} :
    readBays (before.flatMap Block.lines ++
      (block.header :: block.rows.map Row.text ++ after.flatMap Block.lines)) [] ≠ .ok disks := by
  have rows (attrs : Attributes) (healthy : Bool) (mark : List Char) (rest : List (List Char)) :
      readRows (block.rows.map Row.text ++ after.flatMap Block.lines) [] true ≠
        .ok ((attrs, healthy), mark :: rest) := by
    cases after with
    | nil =>
        rw [List.flatMap_nil, List.append_nil]
        intro read
        cases readRows_end read
    | cons next after =>
        refine readRows_stopped Block.header_ne_endBay ?_
        rw [Block.strip_header, Block.words_header]
        exact (by decide : 3 ≠ 7)
  rw [Ne, @readBays_blocks _ _ [] _ List.nodup_nil]
  rintro ⟨-, -, read⟩
  rw [List.cons_append, readBays, Block.readBay_header] at read
  simp only at read
  split at read
  · cases read
  · split at read
    · cases read
    · cases read
    · next attrs healthy mark rest found => exact rows attrs healthy mark rest found

theorem readDocument_framed_ne_ok {lines : List (List Char)} {disks : Disks}
    (unread : ∀ found, readBays lines [] ≠ .ok found) : readDocument (framed lines) ≠ .ok disks := by
  rw [readDocument_framed]
  intro read
  obtain ⟨found, same, -⟩ := bind_eq_ok.mp read
  exact unread found same

/-- What two parts of a list have in common is there twice. -/
theorem not_nodup_middle {α : Type} {before after : List α} {middle other : α}
    (known : other ∈ before ++ after) (same : other = middle) :
    ¬(before ++ middle :: after).Nodup := by
  rw [List.nodup_middle, List.nodup_cons, ← same]
  exact fun both => both.1 known

/-- **A damaged document is not read.** -/
theorem Damaged.readDocument_ne_ok {blocks : List Block} {lines : List (List Char)}
    {disks : Disks} (valid : Valid blocks) (damaged : Damaged blocks lines) :
    readDocument lines ≠ .ok disks := by
  -- Damage that leaves whole lines of disks is a list of blocks that is not valid.
  have invalid {others : List Block} (wrong : ¬Valid others) :
      readDocument (documentLines others) ≠ .ok disks :=
    fun read => wrong (readDocument_documentLines.mp read).1
  cases damaged with
  | header =>
      cases blocks with
      | nil =>
          intro read
          cases read
      | cons block blocks =>
          have other : block.header ≠ "NAS_SMART_1".toList := by
            intro same
            cases congrArg List.head? same
          rw [List.flatMap_cons, Block.lines, List.cons_append, List.cons_append, readDocument,
            decide_eq_false other]
          intro read
          cases read
  | finish =>
      have other : (blocks.flatMap Block.lines).getLast? ≠ some "END".toList := by
        rcases List.eq_nil_or_concat blocks with rfl | ⟨front, block, rfl⟩
        · intro same
          cases same
        · rw [List.concat_eq_append, List.flatMap_append, List.flatMap_singleton, Block.lines,
            ← List.cons_append, ← List.append_assoc, List.getLast?_concat]
          decide
      rw [readDocument, decide_eq_false other, Bool.and_false]
      intro read
      cases read
  | bay split =>
      refine invalid fun others => ?_
      have one := valid.bays.length_eq
      have two := others.bays.length_eq
      rw [split, List.length_map, List.length_append, List.length_cons] at one
      rw [List.length_map, List.length_append] at two
      omega
  | @bayLine before after block split =>
      refine readDocument_framed_ne_ok fun found => ?_
      cases rows : block.rows with
      | nil =>
          rw [Block.lines, List.tail_cons, rows]
          refine readBays_stopped fun header read => ?_
          cases read
      | cons row rows' =>
          rw [Block.lines, List.tail_cons, rows]
          exact readBays_stopped fun header => row.readBay_text
  | @endBay before after block split =>
      refine readDocument_framed_ne_ok fun found => ?_
      rw [Block.lines, ← List.cons_append, List.dropLast_concat]
      exact readBays_unmarked
  | @row before after block split front back row rows needed =>
      refine invalid fun others => ?_
      have whole := valid.complete block (split ▸ List.mem_append_right before List.mem_cons_self)
      have there := (others.complete _ (List.mem_append_right before List.mem_cons_self)).required
        row.code needed
      have distinct := whole.distinct
      rw [Block.codes, rows, List.map_append, List.map_cons] at distinct
      rw [Block.codes, List.map_append] at there
      exact not_nodup_middle there rfl distinct
  | @bayAdded before after split extra known =>
      refine invalid fun others => ?_
      have distinct := others.bays.nodup_iff.mpr (by decide)
      rw [List.map_append, List.map_cons] at distinct
      rw [split, List.map_append] at known
      exact not_nodup_middle known rfl distinct
  | @bayRenamed before after block split other known =>
      refine invalid fun others => ?_
      have distinct := others.bays.nodup_iff.mpr (by decide)
      have there : other.bay ∈ before.map Block.bay ++ after.map Block.bay := by
        rw [← List.map_append]
        exact List.mem_map_of_mem known
      rw [List.map_append, List.map_cons] at distinct
      exact not_nodup_middle there rfl distinct
  | @rowAdded before after block split front back rows extra known =>
      refine invalid fun others => ?_
      have distinct := (others.complete _
        (List.mem_append_right before List.mem_cons_self)).distinct
      rw [Block.codes, List.map_append, List.map_cons] at distinct
      rw [Block.codes, rows, List.map_append] at known
      exact not_nodup_middle known rfl distinct
  | @identityCopied before after block split other known =>
      refine invalid fun others => ?_
      have distinct := others.identities
      have there : other.diskId ∈ before.map Block.diskId ++ after.map Block.diskId := by
        rw [← List.map_append]
        exact List.mem_map_of_mem known
      rw [List.map_append, List.map_cons] at distinct
      exact not_nodup_middle there rfl distinct

/-! ## The order of bays and rows -/

/-- The same rows in some order, under the same header. -/
structure Block.SameRows (first second : Block) : Prop where
  bay : first.bay = second.bay
  diskId : first.diskId = second.diskId
  rows : first.rows.Perm second.rows

/-- The same disks in some order, each with its rows in some order. -/
def Reordered (blocks others : List Block) : Prop :=
  ∃ middle, blocks.Perm middle ∧ List.Forall₂ Block.SameRows middle others

namespace Block.SameRows

variable {first second : Block}

theorem codes (same : SameRows first second) : first.codes.Perm second.codes :=
  same.rows.map Row.code

theorem complete (same : SameRows first second) (whole : first.Complete) : second.Complete where
  distinct := same.codes.nodup_iff.mp whole.distinct
  required code needed := same.codes.mem_iff.mp (whole.required code needed)
  temperature row member := whole.temperature row (same.rows.mem_iff.mpr member)

theorem describes (same : SameRows first second) {reading : Reading}
    (described : second.Describes reading) : first.Describes reading where
  diskId := described.diskId.trans same.diskId.symm
  healthy := by
    rw [described.healthy]
    exact forall_congr' fun row => imp_congr_left same.rows.mem_iff.symm
  temperature row member := described.temperature row (same.rows.mem_iff.mp member)
  raw row member := described.raw row (same.rows.mem_iff.mp member)

theorem lines (same : SameRows first second) : first.lines.Perm second.lines := by
  have header : first.header = second.header := by
    rw [Block.header, Block.header, same.bay, same.diskId]
  rw [Block.lines, Block.lines, header]
  exact ((same.rows.map Row.text).append_right _).cons _

end Block.SameRows

/-- Each of the first disks is one of the second. -/
theorem exists_sameRows_of_forall₂ {middle others : List Block}
    (same : List.Forall₂ Block.SameRows middle others) :
    (∀ block ∈ middle, ∃ other ∈ others, Block.SameRows block other) ∧
      ∀ other ∈ others, ∃ block ∈ middle, Block.SameRows block other := by
  induction same with
  | nil =>
      exact ⟨fun _ none => absurd none List.not_mem_nil,
        fun _ none => absurd none List.not_mem_nil⟩
  | @cons first second middle others head _ ih =>
      refine ⟨List.forall_mem_cons.mpr ⟨⟨second, List.mem_cons_self, head⟩, fun block member => ?_⟩,
        List.forall_mem_cons.mpr ⟨⟨first, List.mem_cons_self, head⟩, fun other member => ?_⟩⟩
      · obtain ⟨other, there, same⟩ := ih.1 block member
        exact ⟨other, List.mem_cons_of_mem _ there, same⟩
      · obtain ⟨block, there, same⟩ := ih.2 other member
        exact ⟨block, List.mem_cons_of_mem _ there, same⟩

theorem map_eq_of_forall₂ {α : Type} {field : Block → α} {middle others : List Block}
    (kept : ∀ first second, Block.SameRows first second → field first = field second)
    (same : List.Forall₂ Block.SameRows middle others) : middle.map field = others.map field := by
  induction same with
  | nil => rfl
  | cons head _ ih => rw [List.map_cons, List.map_cons, kept _ _ head, ih]

theorem lines_of_forall₂ {middle others : List Block}
    (same : List.Forall₂ Block.SameRows middle others) :
    (middle.flatMap Block.lines).Perm (others.flatMap Block.lines) := by
  induction same with
  | nil => exact .refl _
  | cons head _ ih =>
      rw [List.flatMap_cons, List.flatMap_cons]
      exact head.lines.append ih

namespace Reordered

variable {blocks others : List Block}

theorem valid (reordered : Reordered blocks others) (valid : Valid blocks) : Valid others := by
  obtain ⟨middle, perm, same⟩ := reordered
  refine ⟨?_, ?_, fun other member => ?_⟩
  · rw [← map_eq_of_forall₂ (fun _ _ same => same.bay) same]
    exact (perm.map Block.bay).symm.trans valid.bays
  · rw [← map_eq_of_forall₂ (fun _ _ same => same.diskId) same]
    exact (perm.map Block.diskId).nodup_iff.mp valid.identities
  · obtain ⟨block, there, same⟩ := (exists_sameRows_of_forall₂ same).2 other member
    exact same.complete (valid.complete block (perm.mem_iff.mpr there))

theorem lines (reordered : Reordered blocks others) :
    (documentLines blocks).Perm (documentLines others) := by
  obtain ⟨middle, perm, same⟩ := reordered
  exact (((perm.flatMap_right Block.lines).trans (lines_of_forall₂ same)).append_right _).cons _

theorem length_encode (reordered : Reordered blocks others) :
    (encode (documentLines blocks)).length = (encode (documentLines others)).length := by
  rw [encode, encode, asciiBytes, asciiBytes, List.length_map, List.length_map]
  exact (reordered.lines.flatMap_right _).length_eq

theorem exists_sameRows (reordered : Reordered blocks others) {block : Block}
    (member : block ∈ blocks) : ∃ other ∈ others, Block.SameRows block other := by
  obtain ⟨middle, perm, same⟩ := reordered
  exact (exists_sameRows_of_forall₂ same).1 block (perm.mem_iff.mp member)

end Reordered

/-! ## The round trip -/

theorem parseSnapshot_documentLines {blocks : List Block} (valid : Valid blocks)
    (fits : (encode (documentLines blocks)).length ≤ maxBytes) :
    parseSnapshot (encode (documentLines blocks)) = .ok (blocks.map Block.entry) := by
  rw [parseSnapshot_encode fun line member => (isLine_of_mem_documentLines line member).plain,
    if_neg (by omega)]
  exact readDocument_documentLines.mpr ⟨valid, rfl⟩

theorem lookup_map_entry {blocks : List Block} (valid : Valid blocks) {block : Block}
    (member : block ∈ blocks) : (blocks.map Block.entry).lookup block.bay = some block.reading := by
  refine Keyed.lookup_of_mem ?_ (List.mem_map_of_mem member)
  rw [map_fst_entry]
  exact valid.bays.nodup_iff.mpr (by decide)

/-- **Reordered documents are read alike.** -/
theorem lookup_reordered {blocks others : List Block} (valid : Valid blocks)
    (reordered : Reordered blocks others) (bay : Bay) :
    (others.map Block.entry).lookup bay = (blocks.map Block.entry).lookup bay := by
  obtain ⟨block, member, rfl⟩ := List.mem_map.mp (valid.bays.mem_iff.mpr bay.mem_all)
  obtain ⟨other, there, same⟩ := reordered.exists_sameRows member
  have whole := valid.complete block member
  rw [lookup_map_entry valid member, same.bay, lookup_map_entry (reordered.valid valid) there]
  have described := same.describes (Block.describes_reading (same.complete whole))
  exact congrArg some (Block.Describes.unique whole described (Block.describes_reading whole))

/-- **A snapshot is read back.** The parser returns of every bay what its rows say,
in whatever order bays and rows are written, and it raises when the header, the end,
a bay, its mark or a required row is left out, or a bay, an attribute or an identity
is there twice. -/
theorem snapshot_readBack {blocks : List Block} (valid : Valid blocks)
    (fits : (encode (documentLines blocks)).length ≤ maxBytes) :
    (∃ disks, parseSnapshot (encode (documentLines blocks)) = .ok disks ∧
      disks.map Prod.fst = blocks.map Block.bay ∧
      (∀ block ∈ blocks, ∃ reading, disks.lookup block.bay = some reading ∧
        block.Describes reading) ∧
      ∀ others, Reordered blocks others →
        ∃ found, parseSnapshot (encode (documentLines others)) = .ok found ∧
          ∀ bay, found.lookup bay = disks.lookup bay) ∧
    ∀ lines, Damaged blocks lines → ∀ disks, parseSnapshot (encode lines) ≠ .ok disks := by
  refine ⟨⟨_, parseSnapshot_documentLines valid fits, map_fst_entry blocks,
    fun block member => ⟨_, lookup_map_entry valid member,
      Block.describes_reading (valid.complete block member)⟩, fun others reordered => ?_⟩,
    fun lines damaged disks => ?_⟩
  · have size := reordered.length_encode
    exact ⟨_, parseSnapshot_documentLines (reordered.valid valid) (by omega),
      lookup_reordered valid reordered⟩
  · rw [parseSnapshot_encode fun line member => (damaged.isLine line member).plain]
    split
    · intro read
      cases read
    · exact damaged.readDocument_ne_ok valid

/-! ## A document -/

def oneBlank : Gap :=
  ⟨⟨[' '], fun _ member => .inl (List.mem_singleton.mp member)⟩, by decide⟩

def noMargin : Margin :=
  ⟨[], fun _ none => absurd none List.not_mem_nil⟩

def sampleNumeral : Numeral :=
  ⟨"100".toList, by decide, List.all_eq_true.mp (by decide), by decide⟩

def sampleRow (code : Nat) (bounds : 1 ≤ code ∧ code ≤ 255) : Row where
  code := code
  name := "Attribute".toList
  raw := sampleNumeral
  value := sampleNumeral
  worst := sampleNumeral
  threshold := sampleNumeral
  status := "OK".toList
  indent := noMargin
  gaps _ := oneBlank
  trail := noMargin
  code_pos := bounds.1
  code_le := bounds.2
  name_nonempty := by decide
  name_chars := List.all_eq_true.mp (by decide)
  status_nonempty := by decide
  status_chars := List.all_eq_true.mp (by decide)
  raw_le := by decide
  value_le := by decide
  worst_le := by decide
  threshold_le := by decide

def sampleBlock (bay : Bay) : Block where
  bay := bay
  diskId := String.ofList (List.replicate 63 '0' ++ bay.name.toList)
  rows := required.pmap sampleRow (by decide)
  hex := by cases bay <;> decide

theorem sampleBlock_complete : ∀ block ∈ Bay.all.map sampleBlock, block.Complete := by
  intro block member
  obtain ⟨bay, -, rfl⟩ := List.mem_map.mp member
  have whole : (sampleBlock .one).Complete := ⟨by decide, by decide, by decide⟩
  exact ⟨whole.distinct, whole.required, whole.temperature⟩

theorem snapshot_readBack_sample :
    ∃ disks, parseSnapshot (encode (documentLines (Bay.all.map sampleBlock))) = .ok disks :=
  have ⟨⟨disks, read, _⟩, _⟩ := @snapshot_readBack (Bay.all.map sampleBlock)
    ⟨by decide, by decide, sampleBlock_complete⟩ (by decide +kernel)
  ⟨disks, read⟩

end HomeclusterInfra.NasSmart
