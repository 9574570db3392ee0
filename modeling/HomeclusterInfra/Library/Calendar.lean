import Mathlib.Data.List.Lex
import Mathlib.Data.Char
import HomeclusterInfra.Library.DecimalText

/-!
# Calendar texts

Dates and moments of the calendar in texts of a fixed layout, as `strptime` reads
them and `strftime` writes them. Texts of moments are in the order of the moments.
-/

set_option autoImplicit false

namespace HomeclusterInfra.Calendar

open Text

/-! ## Days -/

def isLeapYear (year : Nat) : Bool :=
  year % 4 = 0 && (year % 100 ≠ 0 || year % 400 = 0)

def daysInMonth (year month : Nat) : Nat :=
  if month = 2 then (if isLeapYear year then 29 else 28)
  else if month = 4 || month = 6 || month = 9 || month = 11 then 30
  else 31

/-- A day of the calendar, whose first year is 1. -/
def isDay (year month day : Nat) : Bool :=
  1 ≤ year && 1 ≤ month && month ≤ 12 && 1 ≤ day && day ≤ daysInMonth year month

/-- Digits, and their value. -/
def readDigits (text : List Char) : Option Nat :=
  if text.all Char.isDigit then some (digitsValue text) else none

/-- `[0-9]{8}` that is a day for `strptime` and `%Y%m%d`. -/
def isDate (text : List Char) : Bool :=
  text.length = 8 &&
    match readDigits (text.take 4), readDigits ((text.drop 4).take 2),
      readDigits (text.drop 6) with
    | some year, some month, some day => isDay year month day
    | _, _, _ => false

/-- The parts of a text between marks at fixed places. -/
def isTimestamp (text : List Char) : Bool :=
  match text with
  | [y₁, y₂, y₃, y₄, '-', m₁, m₂, '-', d₁, d₂, 'T', h₁, h₂, ':', n₁, n₂, ':', s₁, s₂, 'Z'] =>
      match readDigits [y₁, y₂, y₃, y₄], readDigits [m₁, m₂], readDigits [d₁, d₂],
        readDigits [h₁, h₂], readDigits [n₁, n₂], readDigits [s₁, s₂] with
      | some year, some month, some day, some hour, some minute, some second =>
          isDay year month day && hour ≤ 23 && minute ≤ 59 && second ≤ 59
      | _, _, _, _, _, _ => false
  | _ => false

/-! ## Moments -/

/-- A second of the calendar, in a year of four digits. -/
structure Moment where
  year : Nat
  month : Nat
  day : Nat
  hour : Nat
  minute : Nat
  second : Nat
  date : isDay year month day = true
  years : 1000 ≤ year ∧ year ≤ 9999
  hours : hour ≤ 23
  minutes : minute ≤ 59
  seconds : second ≤ 59

/-- The fields of a moment, the most significant one first. -/
def Moment.fields (moment : Moment) : List Nat :=
  [moment.year, moment.month, moment.day, moment.hour, moment.minute, moment.second]

/-- `strftime("%Y-%m-%dT%H:%M:%SZ")` -/
def Moment.text (moment : Moment) : List Char :=
  zeroPadded 4 moment.year ++ '-' :: zeroPadded 2 moment.month ++ '-' ::
    zeroPadded 2 moment.day ++ 'T' :: zeroPadded 2 moment.hour ++ ':' ::
    zeroPadded 2 moment.minute ++ ':' :: zeroPadded 2 moment.second ++ ['Z']

section Padded

theorem length_zeroPadded {width n : Nat} (positive : 0 < width) (small : n < 10 ^ width) :
    (zeroPadded width n).length = width := by
  have fits := Binary64.length_natText_le positive small
  rw [zeroPadded, List.length_append, List.length_replicate]
  omega

theorem readDigits_zeroPadded (width n : Nat) : readDigits (zeroPadded width n) = some n := by
  rw [readDigits, if_pos (List.all_eq_true.mpr Binary64.zeroPadded_isDigit),
    Binary64.digitsValue_zeroPadded]

theorem digitsValue_lt {digits : List Char} (areDigits : ∀ char ∈ digits, char.isDigit = true) :
    digitsValue digits < 10 ^ digits.length := by
  induction digits using List.reverseRecOn with
  | nil => decide
  | append_singleton digits digit ih =>
      have front := ih fun char member => areDigits char (List.mem_append_left _ member)
      have last := areDigits digit (List.mem_append_right _ List.mem_cons_self)
      have value : digitsValue [digit] < 10 := by
        simp only [Char.isDigit, Bool.and_eq_true, decide_eq_true_eq] at last
        have upper : digit.toNat ≤ 57 := UInt32.le_iff_toNat_le.mp last.2
        simp only [digitsValue, List.foldl_cons, List.foldl_nil]
        change 10 * 0 + (digit.toNat - 48) < 10
        omega
      rw [digitsValue_append, List.length_append, List.length_singleton, Nat.pow_succ]
      omega

/-- Digits of one length are known from their value. -/
theorem digitsValue_inj {first second : List Char} (lengths : first.length = second.length)
    (areDigits : ∀ char ∈ first, char.isDigit = true)
    (areDigits' : ∀ char ∈ second, char.isDigit = true)
    (same : digitsValue first = digitsValue second) : first = second := by
  induction first using List.reverseRecOn generalizing second with
  | nil => exact (List.length_eq_zero_iff.mp lengths.symm).symm
  | append_singleton first digit ih =>
      cases second using List.reverseRecOn with
      | nil => simp at lengths
      | append_singleton second digit' =>
          have one : ∀ digit : Char, digit.isDigit = true →
              digitsValue [digit] + 48 = digit.toNat ∧ digitsValue [digit] < 10 := by
            intro digit isDigit
            simp only [Char.isDigit, Bool.and_eq_true, decide_eq_true_eq] at isDigit
            have lower : 48 ≤ digit.toNat := UInt32.le_iff_toNat_le.mp isDigit.1
            have upper : digit.toNat ≤ 57 := UInt32.le_iff_toNat_le.mp isDigit.2
            change 10 * 0 + (digit.toNat - 48) + 48 = digit.toNat ∧ 10 * 0 + (digit.toNat - 48) < 10
            omega
          obtain ⟨code, small⟩ := one digit (areDigits digit (by simp))
          obtain ⟨code', small'⟩ := one digit' (areDigits' digit' (by simp))
          rw [digitsValue_append, digitsValue_append, List.length_singleton, List.length_singleton]
            at same
          have fronts : first = second := by
            apply ih
            · simpa using lengths
            · exact fun char member => areDigits char (List.mem_append_left _ member)
            · exact fun char member => areDigits' char (List.mem_append_left _ member)
            · omega
          have lasts : digit = digit' := Char.toNat_inj.mp (by omega)
          rw [fronts, lasts]

/-- Digits that do not begin with a zero are the numeral of their value. -/
theorem eq_natText {digits : List Char} (areDigits : ∀ char ∈ digits, char.isDigit = true)
    (head : digits.head? ≠ some '0') (positive : 0 < digitsValue digits) :
    digits = natText (digitsValue digits) := by
  have large : ∀ digits : List Char, (∀ char ∈ digits, char.isDigit = true) →
      digits.head? ≠ some '0' → digits ≠ [] → 10 ^ (digits.length - 1) ≤ digitsValue digits := by
    intro digits areDigits head nonempty
    cases digits with
    | nil => exact absurd rfl nonempty
    | cons digit rest =>
        have isDigit := areDigits digit List.mem_cons_self
        simp only [Char.isDigit, Bool.and_eq_true, decide_eq_true_eq] at isDigit
        have lower : 48 ≤ digit.toNat := UInt32.le_iff_toNat_le.mp isDigit.1
        have other : digit.toNat ≠ 48 := fun same =>
          head (congrArg some (Char.toNat_inj.mp same))
        have one : 1 ≤ digitsValue [digit] := by
          change 1 ≤ 10 * 0 + (digit.toNat - 48)
          omega
        rw [← List.singleton_append, digitsValue_append, List.length_append, List.length_singleton,
          Nat.add_sub_cancel_left]
        have scaled := Nat.mul_le_mul_right (10 ^ rest.length) one
        omega
  have nonempty : digits ≠ [] := by
    rintro rfl
    exact absurd positive (by decide)
  have value := digitsValue_natText (digitsValue digits)
  have numeral : ∀ char ∈ natText (digitsValue digits), char.isDigit = true := fun char member =>
    natText_isDigit member
  have one := large digits areDigits head nonempty
  have other := large _ numeral (natText_head positive) (natText_ne_nil _)
  have below := digitsValue_lt areDigits
  have below' := digitsValue_lt numeral
  rw [value] at other below'
  have length : digits.length = (natText (digitsValue digits)).length := by
    have first := (Nat.pow_lt_pow_iff_right (by decide : 1 < 10)).mp (one.trans_lt below')
    have second := (Nat.pow_lt_pow_iff_right (by decide : 1 < 10)).mp (other.trans_lt below)
    have some_digit := List.length_pos_iff.mpr nonempty
    have some_digit' := List.length_pos_iff.mpr (natText_ne_nil (digitsValue digits))
    omega
  exact digitsValue_inj length areDigits numeral value.symm

/-- Digits of one length are in the order of their values. -/
theorem lt_of_digitsValue_lt {first second : List Char} (lengths : first.length = second.length)
    (areDigits : ∀ char ∈ first, char.isDigit = true)
    (areDigits' : ∀ char ∈ second, char.isDigit = true)
    (less : digitsValue first < digitsValue second) : first < second := by
  induction first generalizing second with
  | nil =>
      obtain rfl := List.length_eq_zero_iff.mp lengths.symm
      exact absurd less (Nat.lt_irrefl _)
  | cons digit first ih =>
      cases second with
      | nil => cases lengths
      | cons digit' second =>
          rw [List.forall_mem_cons] at areDigits areDigits'
          have tails : first.length = second.length := Nat.succ.inj lengths
          rw [← List.singleton_append, ← @List.singleton_append _ digit' second,
            digitsValue_append, digitsValue_append, tails] at less
          have below := digitsValue_lt areDigits'.2
          rcases lt_trichotomy digit digit' with smaller | same | larger
          · exact List.cons_lt_cons_iff.mpr (.inl smaller)
          · subst same
            exact List.cons_lt_cons_iff.mpr
              (.inr ⟨rfl, ih tails areDigits.2 areDigits'.2 (by omega)⟩)
          · have codes : digit'.toNat < digit.toNat := UInt32.lt_iff_toNat_lt.mp larger
            have digitCodes : 48 ≤ digit'.toNat := by
              have bounds := areDigits'.1
              simp only [Char.isDigit, Bool.and_eq_true, decide_eq_true_eq] at bounds
              exact UInt32.le_iff_toNat_le.mp bounds.1
            have values : digitsValue [digit'] + 1 ≤ digitsValue [digit] := by
              change 10 * 0 + (digit'.toNat - 48) + 1 ≤ 10 * 0 + (digit.toNat - 48)
              omega
            have scaled := Nat.mul_le_mul_right (10 ^ second.length) values
            rw [Nat.add_mul, Nat.one_mul] at scaled
            omega

/-- Texts are compared by a front of fixed width first. -/
theorem append_lt_append {first second rest rest' : List Char}
    (lengths : first.length = second.length) (less : first < second) :
    first ++ rest < second ++ rest' := by
  induction first generalizing second with
  | nil =>
      obtain rfl := List.length_eq_zero_iff.mp lengths.symm
      exact absurd less (List.lt_irrefl _)
  | cons char first ih =>
      cases second with
      | nil => cases lengths
      | cons char' second =>
          rcases List.cons_lt_cons_iff.mp less with smaller | ⟨rfl, later⟩
          · exact List.cons_lt_cons_iff.mpr (.inl smaller)
          · exact List.cons_lt_cons_iff.mpr (.inr ⟨rfl, ih (Nat.succ.inj lengths) later⟩)

theorem cons_le_cons {α : Type} [LinearOrder α] {head head' : α} {rest rest' : List α} :
    head :: rest ≤ head' :: rest' ↔ head < head' ∨ head = head' ∧ rest ≤ rest' := by
  rw [← not_lt, List.cons_lt_cons_iff, ← not_lt]
  constructor
  · intro order
    rcases lt_trichotomy head head' with less | same | more
    · exact .inl less
    · exact .inr ⟨same, fun less => order (.inr ⟨same.symm, less⟩)⟩
    · exact absurd (.inl more) order
  · rintro (less | ⟨rfl, order⟩) (more | ⟨same, later⟩)
    · exact lt_asymm less more
    · exact absurd less (same ▸ lt_irrefl _)
    · exact lt_irrefl _ more
    · exact order later

theorem append_le_append {front rest rest' : List Char} (less : rest ≤ rest') :
    front ++ rest ≤ front ++ rest' := by
  induction front with
  | nil => exact less
  | cons char front ih => exact cons_le_cons.mpr (.inr ⟨rfl, ih⟩)

/-- One field of a text in order: by the number, then by what follows. -/
theorem padded_le {width n n' : Nat} {rest rest' : List Char} {fields fields' : List Nat}
    (positive : 0 < width) (small : n < 10 ^ width) (small' : n' < 10 ^ width)
    (order : n :: fields ≤ n' :: fields') (further : fields ≤ fields' → rest ≤ rest') :
    zeroPadded width n ++ rest ≤ zeroPadded width n' ++ rest' := by
  rcases cons_le_cons.mp order with less | ⟨rfl, later⟩
  · refine le_of_lt (append_lt_append ?_ (lt_of_digitsValue_lt ?_ Binary64.zeroPadded_isDigit
      Binary64.zeroPadded_isDigit ?_))
    · rw [length_zeroPadded positive small, length_zeroPadded positive small']
    · rw [length_zeroPadded positive small, length_zeroPadded positive small']
    · rwa [Binary64.digitsValue_zeroPadded, Binary64.digitsValue_zeroPadded]
  · exact append_le_append (further later)

end Padded

section Moments

variable (moment : Moment)

theorem Moment.bounds : moment.year < 10 ^ 4 ∧ moment.month < 10 ^ 2 ∧ moment.day < 10 ^ 2 ∧
    moment.hour < 10 ^ 2 ∧ moment.minute < 10 ^ 2 ∧ moment.second < 10 ^ 2 := by
  have date := moment.date
  have days : daysInMonth moment.year moment.month ≤ 31 := by
    unfold daysInMonth
    split
    · split <;> omega
    · split <;> omega
  have years := moment.years
  have hours := moment.hours
  have minutes := moment.minutes
  have seconds := moment.seconds
  simp only [isDay, Bool.and_eq_true, decide_eq_true_eq] at date
  omega

/-- **Texts of moments are in the order of the moments.** -/
theorem Moment.text_le {moment later : Moment} (order : moment.fields ≤ later.fields) :
    moment.text ≤ later.text := by
  obtain ⟨year, month, day, hour, minute, second⟩ := moment.bounds
  obtain ⟨year', month', day', hour', minute', second'⟩ := later.bounds
  unfold Moment.text
  simp only [List.append_assoc, List.cons_append]
  have marked : ∀ (mark : Char) {rest rest' : List Char}, rest ≤ rest' →
      mark :: rest ≤ mark :: rest' := fun mark _ _ order => cons_le_cons.mpr (.inr ⟨rfl, order⟩)
  refine padded_le (by decide) year year' order fun order => marked '-' ?_
  refine padded_le (by decide) month month' order fun order => marked '-' ?_
  refine padded_le (by decide) day day' order fun order => marked 'T' ?_
  refine padded_le (by decide) hour hour' order fun order => marked ':' ?_
  refine padded_le (by decide) minute minute' order fun order => marked ':' ?_
  exact padded_le (by decide) second second' order fun _ => le_refl _

/-- **The text of a moment is a timestamp.** -/
theorem Moment.isTimestamp_text : isTimestamp moment.text = true := by
  obtain ⟨year, month, day, hour, minute, second⟩ := moment.bounds
  have four : ∀ {text : List Char}, text.length = 4 → ∃ a b c d, text = [a, b, c, d] := by
    intro text length
    exact List.length_eq_four.mp length
  have two : ∀ {text : List Char}, text.length = 2 → ∃ a b, text = [a, b] := by
    intro text length
    exact List.length_eq_two.mp length
  obtain ⟨y₁, y₂, y₃, y₄, years⟩ := four (length_zeroPadded (by decide) year)
  obtain ⟨m₁, m₂, months⟩ := two (length_zeroPadded (by decide) month)
  obtain ⟨d₁, d₂, days⟩ := two (length_zeroPadded (by decide) day)
  obtain ⟨h₁, h₂, hours⟩ := two (length_zeroPadded (by decide) hour)
  obtain ⟨n₁, n₂, minutes⟩ := two (length_zeroPadded (by decide) minute)
  obtain ⟨s₁, s₂, seconds⟩ := two (length_zeroPadded (by decide) second)
  have text : moment.text = [y₁, y₂, y₃, y₄, '-', m₁, m₂, '-', d₁, d₂, 'T', h₁, h₂, ':', n₁, n₂,
      ':', s₁, s₂, 'Z'] := by
    rw [Moment.text, years, months, days, hours, minutes, seconds]
    rfl
  rw [text, isTimestamp]
  simp only [← years, ← months, ← days, ← hours, ← minutes, ← seconds, readDigits_zeroPadded,
    moment.date, moment.hours, moment.minutes, moment.seconds, decide_true, Bool.and_self]

end Moments

end HomeclusterInfra.Calendar
