import Mathlib.Data.List.TakeDrop
import HomeclusterInfra.Library.Rounding

/-!
# Decimal texts of doubles

A number in a text is read as its digits before the point, its digits after
the point and its exponent. What `repr` writes for a double reads back as that
double: with seventeen digits the numeral is close enough to round to it, and
each of the three layouts of the text stands for the numeral it was made from.
-/

set_option autoImplicit false

namespace HomeclusterInfra.Binary64

open Text

/-! ## Reading -/

/-- The parts of a number in a text. -/
structure Scanned where
  negative : Bool
  whole : List Char
  fraction : List Char
  exponent : Option Int

/-- The number is written as an integer. -/
def Scanned.isInteger (scanned : Scanned) : Bool :=
  scanned.fraction.isEmpty && scanned.exponent.isNone

/-- The absolute value of the number. -/
def Scanned.magnitude (scanned : Scanned) : Rat :=
  digitsValue (scanned.whole ++ scanned.fraction) *
    tenPow (scanned.exponent.getD 0 - scanned.fraction.length)

/-- `-?` -/
def scanSign : List Char → Bool × List Char
  | '-' :: rest => (true, rest)
  | text => (false, text)

/-- `0|[1-9][0-9]*` -/
def scanWhole (text : List Char) : Option (List Char × List Char) :=
  match text with
  | '0' :: rest => some (['0'], rest)
  | _ =>
      match text.span Char.isDigit with
      | ([], _) => none
      | (digits, rest) => some (digits, rest)

/-- `(\.[0-9]+)?` -/
def scanFraction (text : List Char) : List Char × List Char :=
  match text with
  | '.' :: rest =>
      match rest.span Char.isDigit with
      | ([], _) => ([], text)
      | (digits, after) => (digits, after)
  | _ => ([], text)

/-- The sign of an exponent. -/
def scanExponentSign : List Char → Int × List Char
  | '-' :: rest => (-1, rest)
  | '+' :: rest => (1, rest)
  | text => (1, text)

/-- `([eE][-+]?[0-9]+)?` -/
def scanExponent (text : List Char) : Option Int × List Char :=
  match text with
  | mark :: rest =>
      if mark = 'e' || mark = 'E' then
        match (scanExponentSign rest).2.span Char.isDigit with
        | ([], _) => (none, text)
        | (digits, after) => (some ((scanExponentSign rest).1 * digitsValue digits), after)
      else (none, text)
  | [] => (none, [])

/-- The number at the beginning of a text, and what follows it. -/
def scanNumber (text : List Char) : Option (Scanned × List Char) :=
  (scanWhole (scanSign text).2).map fun (whole, afterWhole) =>
    (⟨(scanSign text).1, whole, (scanFraction afterWhole).1,
        (scanExponent (scanFraction afterWhole).2).1⟩,
      (scanExponent (scanFraction afterWhole).2).2)

/-- A text that does not continue a number. -/
def EndsNumber (rest : List Char) : Prop :=
  ∀ char, rest.head? = some char →
    char.isDigit = false ∧ char ≠ '.' ∧ char ≠ 'e' ∧ char ≠ 'E'

section Scanning

variable {digits rest : List Char}

theorem span_digits (areDigits : ∀ char ∈ digits, char.isDigit = true)
    (ends : ∀ char, rest.head? = some char → char.isDigit = false) :
    (digits ++ rest).span Char.isDigit = (digits, rest) := by
  rw [List.span_eq_takeWhile_dropWhile]
  induction digits with
  | nil =>
      cases rest with
      | nil => rfl
      | cons char rest => simp [ends char rfl]
  | cons digit digits ih =>
      rw [List.forall_mem_cons] at areDigits
      have step := Prod.mk.inj (ih areDigits.2)
      simp [areDigits.1, step.1, step.2]

theorem EndsNumber.noDigit (ends : EndsNumber rest) :
    ∀ char, rest.head? = some char → char.isDigit = false :=
  fun char head => (ends char head).1

theorem scanFraction_of_ends (ends : EndsNumber rest) : scanFraction rest = ([], rest) := by
  unfold scanFraction
  split
  next tail => exact absurd rfl (ends '.' rfl).2.1
  next => rfl

theorem scanExponent_of_ends (ends : EndsNumber rest) : scanExponent rest = (none, rest) := by
  cases rest with
  | nil => rfl
  | cons mark rest =>
      obtain ⟨-, -, small, large⟩ := ends mark rfl
      simp [scanExponent, small, large]

/-- Digits without a leading zero, before something that is no digit. -/
theorem scanWhole_digits (nonempty : digits ≠ [])
    (areDigits : ∀ char ∈ digits, char.isDigit = true)
    (canonical : digits.head? = some '0' → digits = ['0'])
    (ends : ∀ char, rest.head? = some char → char.isDigit = false) :
    scanWhole (digits ++ rest) = some (digits, rest) := by
  have spanned := span_digits areDigits ends
  cases digits with
  | nil => exact absurd rfl nonempty
  | cons first more =>
      by_cases zero : first = '0'
      · subst zero
        obtain rfl := (List.cons.inj (canonical rfl)).2
        rfl
      · unfold scanWhole
        split
        next tail same => exact absurd (List.cons.inj same).1 zero
        next => rw [spanned]

theorem scanFraction_digits (nonempty : digits ≠ [])
    (areDigits : ∀ char ∈ digits, char.isDigit = true)
    (ends : ∀ char, rest.head? = some char → char.isDigit = false) :
    scanFraction ('.' :: digits ++ rest) = (digits, rest) := by
  unfold scanFraction
  simp only [List.cons_append, span_digits areDigits ends]

theorem scanSign_digit (nonempty : digits ≠ [])
    (areDigits : ∀ char ∈ digits, char.isDigit = true) :
    scanSign (digits ++ rest) = (false, digits ++ rest) := by
  cases digits with
  | nil => exact absurd rfl nonempty
  | cons first more =>
      unfold scanSign
      split
      next tail same =>
          have digit := areDigits first (List.mem_cons_self)
          rw [(List.cons.inj same).1] at digit
          cases digit
      next => rfl

end Scanning

/-! ## Layouts -/

section Layouts

variable {digits rest : List Char}

theorem zeroPadded_isDigit {width n : Nat} :
    ∀ char ∈ zeroPadded width n, char.isDigit = true := by
  intro char member
  rcases List.mem_append.1 member with zero | digit
  · rw [List.eq_of_mem_replicate zero]
    rfl
  · exact natText_isDigit digit

theorem digitsValue_zeroPadded (width n : Nat) : digitsValue (zeroPadded width n) = n := by
  rw [zeroPadded, digitsValue_append, digitsValue_zeros, Nat.zero_mul, Nat.zero_add,
    digitsValue_natText]

theorem zeroPadded_ne_nil (width n : Nat) : zeroPadded width n ≠ [] := by
  simp [zeroPadded, natText_ne_nil]

/-- A mark, a sign and digits read as an exponent. -/
theorem scanExponent_digits {sign : Char} {written : List Char} (nonempty : written ≠ [])
    (areDigits : ∀ char ∈ written, char.isDigit = true) (ends : EndsNumber rest)
    (signed : sign = '-' ∨ sign = '+') :
    scanExponent ('e' :: sign :: written ++ rest) =
      (some ((if sign = '-' then (-1 : Int) else 1) * digitsValue written), rest) := by
  have spanned := span_digits areDigits ends.noDigit
  have mark : (decide ('e' = 'e') || decide ('e' = 'E')) = true := by decide
  rw [List.cons_append, List.cons_append, scanExponent, if_pos mark]
  cases written with
  | nil => exact absurd rfl nonempty
  | cons first more =>
      rcases signed with rfl | rfl
      · simp only [scanExponentSign, spanned, reduceIte]
      · have plus : ('+' = '-') = False := by decide
        simp only [scanExponentSign, spanned, plus, if_false]

/-- An exponent reads back. -/
theorem scanExponent_text {exponent : Int} (ends : EndsNumber rest) :
    scanExponent ((if exponent < 0 then "e-".toList else "e+".toList) ++
      zeroPadded 2 exponent.natAbs ++ rest) = (some exponent, rest) := by
  have nonempty := zeroPadded_ne_nil 2 exponent.natAbs
  have areDigits := @zeroPadded_isDigit 2 exponent.natAbs
  have value := digitsValue_zeroPadded 2 exponent.natAbs
  split_ifs with negative
  · refine (scanExponent_digits nonempty areDigits ends (.inl rfl)).trans ?_
    have same : -1 * (exponent.natAbs : Int) = exponent := by omega
    rw [value, if_pos rfl, same]
  · refine (scanExponent_digits nonempty areDigits ends (.inr rfl)).trans ?_
    have same : 1 * (exponent.natAbs : Int) = exponent := by omega
    rw [value, if_neg (by decide), same]

/-- A number without a sign. -/
theorem scanNumber_unsigned {whole after : List Char} (someWhole : whole ≠ [])
    (wholeDigits : ∀ char ∈ whole, char.isDigit = true)
    (canonical : whole.head? = some '0' → whole = ['0'])
    (ends : ∀ char, after.head? = some char → char.isDigit = false) :
    scanNumber (whole ++ after) =
      some (⟨false, whole, (scanFraction after).1, (scanExponent (scanFraction after).2).1⟩,
        (scanExponent (scanFraction after).2).2) := by
  rw [scanNumber, scanSign_digit someWhole wholeDigits]
  simp only [scanWhole_digits someWhole wholeDigits canonical ends, Option.map_some]

/-- A text reads as a number that is no integer, followed by a rest. -/
def ReadsAs (text : List Char) (magnitude : Rat) (rest : List Char) : Prop :=
  ∃ scanned, scanNumber text = some (scanned, rest) ∧ scanned.negative = false ∧
    scanned.isInteger = false ∧ scanned.magnitude = magnitude

/-- Digits before and after a point. -/
theorem readsAs_point {whole fraction : List Char} (someWhole : whole ≠ [])
    (wholeDigits : ∀ char ∈ whole, char.isDigit = true)
    (canonical : whole.head? = some '0' → whole = ['0']) (someFraction : fraction ≠ [])
    (fractionDigits : ∀ char ∈ fraction, char.isDigit = true) (ends : EndsNumber rest) :
    ReadsAs (whole ++ '.' :: fraction ++ rest)
      (digitsValue (whole ++ fraction) * 10 ^ (-(fraction.length : Int))) rest := by
  have point : ∀ char, ('.' :: fraction ++ rest).head? = some char → char.isDigit = false := by
    intro char head
    obtain rfl := Option.some.inj head
    rfl
  refine ⟨⟨false, whole, fraction, none⟩, ?_, rfl, ?_, ?_⟩
  · rw [List.append_assoc, scanNumber_unsigned someWhole wholeDigits canonical point,
      scanFraction_digits someFraction fractionDigits ends.noDigit, scanExponent_of_ends ends]
  · simp [Scanned.isInteger, someFraction]
  · simp [Scanned.magnitude, tenPow_eq_zpow]

/-- Digits, the first before a point, times a power of ten. -/
theorem readsAs_scientificText {digits : List Char} {exponent : Int} (nonempty : digits ≠ [])
    (areDigits : ∀ char ∈ digits, char.isDigit = true) (ends : EndsNumber rest) :
    ReadsAs (scientificText digits exponent ++ rest)
      (digitsValue digits * 10 ^ (exponent - digits.length + 1)) rest := by
  obtain ⟨first, more, rfl⟩ := List.exists_cons_of_ne_nil nonempty
  rw [List.forall_mem_cons] at areDigits
  have exponentRead := @scanExponent_text _ exponent ends
  obtain ⟨tail, marked⟩ : ∃ tail, (if exponent < 0 then "e-".toList else "e+".toList) ++
      zeroPadded 2 exponent.natAbs ++ rest = 'e' :: tail := by
    split_ifs
    · exact ⟨_, rfl⟩
    · exact ⟨_, rfl⟩
  rw [marked] at exponentRead
  have shape : scientificText (first :: more) exponent ++ rest =
      [first] ++ ((if more.isEmpty then [] else '.' :: more) ++ 'e' :: tail) := by
    rw [← marked]
    simp only [scientificText, List.drop_succ_cons, List.drop_zero, List.take_succ_cons,
      List.take_zero, List.append_assoc]
  have markNoDigit : ∀ char, ('e' :: tail).head? = some char → char.isDigit = false := by
    intro char head
    obtain rfl := Option.some.inj head
    rfl
  have fraction : scanFraction ((if more.isEmpty then [] else '.' :: more) ++ 'e' :: tail) =
      (more, 'e' :: tail) := by
    cases more with
    | nil => rfl
    | cons second others =>
        exact scanFraction_digits (List.cons_ne_nil _ _) areDigits.2 markNoDigit
  have noDigit : ∀ char, ((if more.isEmpty then [] else '.' :: more) ++ 'e' :: tail).head? =
      some char → char.isDigit = false := by
    intro char head
    cases more with
    | nil => exact markNoDigit char head
    | cons second others =>
        obtain rfl := Option.some.inj head
        rfl
  refine ⟨⟨false, [first], more, some exponent⟩, ?_, rfl, ?_, ?_⟩
  · rw [shape, scanNumber_unsigned (List.cons_ne_nil _ _) (by simpa using areDigits.1) (by simp)
      noDigit, fraction, exponentRead]
  · simp [Scanned.isInteger]
  · have shift : exponent - ((first :: more).length : Int) + 1 = exponent - more.length := by
      rw [List.length_cons]
      push_cast
      ring
    rw [shift]
    simp [Scanned.magnitude, tenPow_eq_zpow]

/-- Digits around a point, filled up with zeros. -/
theorem readsAs_pointText {digits : List Char} {exponent : Nat} (nonempty : digits ≠ [])
    (areDigits : ∀ char ∈ digits, char.isDigit = true) (leading : digits.head? ≠ some '0')
    (ends : EndsNumber rest) :
    ReadsAs (pointText digits (exponent + 1) ++ rest)
      (digitsValue digits * 10 ^ ((exponent : Int) - digits.length + 1)) rest := by
  obtain ⟨first, more, rfl⟩ := List.exists_cons_of_ne_nil nonempty
  generalize same : (first :: more) ++ List.replicate (exponent + 1 - (first :: more).length) '0' =
    padded
  have paddedDigits : ∀ char ∈ padded, char.isDigit = true := by
    intro char member
    rw [← same] at member
    rcases List.mem_append.1 member with digit | zero
    · exact areDigits char digit
    · rw [List.eq_of_mem_replicate zero]
      rfl
  have value : digitsValue padded =
      digitsValue (first :: more) * 10 ^ (exponent + 1 - (first :: more).length) := by
    rw [← same, digitsValue_append, digitsValue_zeros, List.length_replicate, Nat.add_zero]
  have wholeHead : (padded.take (exponent + 1)).head? = some first := by
    rw [← same]
    rfl
  have someWhole : padded.take (exponent + 1) ≠ [] := by
    intro empty
    rw [empty] at wholeHead
    cases wholeHead
  have canonical : (padded.take (exponent + 1)).head? = some '0' →
      padded.take (exponent + 1) = ['0'] := fun zero =>
    absurd (wholeHead.symm.trans zero) leading
  have wholeDigits : ∀ char ∈ padded.take (exponent + 1), char.isDigit = true :=
    fun char member => paddedDigits char (List.mem_of_mem_take member)
  have unfolded : pointText (first :: more) (exponent + 1) = padded.take (exponent + 1) ++ '.' ::
      (if (padded.drop (exponent + 1)).isEmpty then ['0'] else padded.drop (exponent + 1)) := by
    rw [← same]
    rfl
  have length : padded.length = (first :: more).length +
      (exponent + 1 - (first :: more).length) := by
    rw [← same, List.length_append, List.length_replicate]
  rw [unfolded]
  split_ifs with empty
  · rw [List.isEmpty_iff, List.drop_eq_nil_iff] at empty
    have read := readsAs_point someWhole wholeDigits canonical (List.cons_ne_nil '0' [])
      (by simp) ends
    have whole : padded.take (exponent + 1) = padded := List.take_of_length_le empty
    have magnitude : (digitsValue (padded.take (exponent + 1) ++ ['0']) : Rat) *
        10 ^ (-((['0'] : List Char).length : Int)) =
        digitsValue (first :: more) * 10 ^ ((exponent : Int) - (first :: more).length + 1) := by
      have zero : digitsValue ['0'] = 0 := rfl
      have power : (exponent : Int) - (first :: more).length + 1 =
          ((exponent + 1 - (first :: more).length : Nat) : Int) := by omega
      rw [whole, digitsValue_append, zero, value, power, zpow_natCast]
      simp
    rw [magnitude] at read
    exact read
  · have longer : exponent + 1 < padded.length := by
      rw [List.isEmpty_iff, List.drop_eq_nil_iff] at empty
      omega
    have noZeros : exponent + 1 - (first :: more).length = 0 := by omega
    have read := readsAs_point someWhole wholeDigits canonical (by simpa using empty)
      (fun char member => paddedDigits char (List.mem_of_mem_drop member)) ends
    have power : -((padded.drop (exponent + 1)).length : Int) =
        (exponent : Int) - (first :: more).length + 1 := by
      rw [List.length_drop]
      omega
    rw [List.take_append_drop, value, noZeros, Nat.pow_zero, Nat.mul_one, power] at read
    exact read

/-- **A layout stands for its digits times its power of ten.** -/
theorem readsAs_decimalText {digits : List Char} {exponent : Int} (nonempty : digits ≠ [])
    (areDigits : ∀ char ∈ digits, char.isDigit = true) (leading : digits.head? ≠ some '0')
    (ends : EndsNumber rest) :
    ReadsAs (decimalText digits exponent ++ rest)
      (digitsValue digits * 10 ^ (exponent - digits.length + 1)) rest := by
  unfold decimalText
  split_ifs with scientific small
  · exact readsAs_scientificText nonempty areDigits ends
  · have filled : ∀ char ∈ List.replicate (exponent.natAbs - 1) '0' ++ digits,
        char.isDigit = true := by
      intro char member
      rcases List.mem_append.1 member with zero | digit
      · rw [List.eq_of_mem_replicate zero]
        rfl
      · exact areDigits char digit
    have read := readsAs_point (List.cons_ne_nil '0' []) (by simp) (by simp)
      (List.append_ne_nil_of_right_ne_nil _ nonempty) filled ends
    have length : -((List.replicate (exponent.natAbs - 1) '0' ++ digits).length : Int) =
        exponent - digits.length + 1 := by
      rw [List.length_append, List.length_replicate]
      push_cast
      omega
    have value : digitsValue (['0'] ++ (List.replicate (exponent.natAbs - 1) '0' ++ digits)) =
        digitsValue digits := by
      rw [digitsValue_append, digitsValue_append, digitsValue_zeros]
      simp [digitsValue]
    rw [length, value] at read
    exact read
  · have read := @readsAs_pointText _ _ exponent.toNat nonempty areDigits leading ends
    rw [Int.toNat_of_nonneg (not_lt.1 small)] at read
    exact read

end Layouts

/-! ## The shortest numeral -/

section Shortest

variable {q : Rat}

theorem leadingZeros_reaches {fuel shift : Nat} (reached : 1 ≤ q * 10 ^ (shift + fuel)) :
    1 ≤ q * 10 ^ leadingZeros q fuel shift := by
  induction fuel generalizing shift with
  | zero => exact reached
  | succ fuel ih =>
      unfold leadingZeros
      split_ifs with here
      · exact here
      · refine ih ?_
        rwa [← Nat.add_assoc, Nat.add_right_comm] at reached

/-- The power of ten at the first digit is not above the number. -/
theorem tenPow_decimalExponent_le (notTiny : 1 ≤ q * 10 ^ 400) :
    (10 : Rat) ^ decimalExponent q ≤ q := by
  unfold decimalExponent
  split_ifs with large
  · have floorPos : 1 ≤ q.floor := by
      rw [Rat.le_floor_iff]
      exact_mod_cast large
    have lengthPos : 0 < (natText q.floor.toNat).length := Nat.length_toDigits_pos
    have digits : 10 ^ ((natText q.floor.toNat).length - 1) ≤ q.floor.toNat := by
      by_contra less
      rcases Nat.eq_zero_or_pos ((natText q.floor.toNat).length - 1) with zero | some
      · rw [zero] at less
        omega
      · have shorter := (Nat.length_toDigits_le_iff (by decide) some).2 (not_le.1 less)
        rw [← natText] at shorter
        omega
    have power : ((natText q.floor.toNat).length : Int) - 1 =
        (((natText q.floor.toNat).length - 1 : Nat) : Int) := by omega
    rw [power, zpow_natCast]
    calc (10 : Rat) ^ ((natText q.floor.toNat).length - 1) ≤ (q.floor.toNat : Rat) := by
          exact_mod_cast digits
      _ = (q.floor : Rat) := by
          exact_mod_cast congrArg (Int.cast : Int → Rat) (Int.toNat_of_nonneg (by omega))
      _ ≤ q := floor_le q
  · have positive : 0 < q := by
      by_contra nonpositive
      have product := mul_nonpos_of_nonpos_of_nonneg (not_lt.1 nonpositive)
        (by positivity : (0 : Rat) ≤ 10 ^ 400)
      exact absurd (notTiny.trans product) (by norm_num)
    have reached : 1 ≤ q * 10 ^ (1 + 400) :=
      notTiny.trans (mul_le_mul_of_nonneg_left
        (pow_le_pow_right₀ (by norm_num) (by norm_num)) positive.le)
    have found := @leadingZeros_reaches _ 400 1 reached
    rw [zpow_neg, zpow_natCast, inv_le_iff_one_le_mul₀ (by positivity)]
    exact found

/-- The nearest integer of a nonnegative rational, as a natural number. -/
theorem roundHalfEven_toNat (nonnegative : 0 ≤ q) :
    ((roundHalfEven q).toNat : Rat) = roundHalfEven q := by
  have zero : 0 ≤ roundHalfEven q := by
    have := roundHalfEven_mono nonnegative
    rwa [← Int.cast_zero, roundHalfEven_intCast] at this
  exact_mod_cast congrArg (Int.cast : Int → Rat) (Int.toNat_of_nonneg zero)

/-- A numeral with seventeen digits rounds to the double it is nearest to. -/
theorem nearest_nearestNumeral (double : IsDouble q) (notTiny : 1 ≤ q * 10 ^ 400) :
    nearest (nearestNumeral q 17).value = q := by
  have leading := tenPow_decimalExponent_le notTiny
  have positive : 0 < q := lt_of_lt_of_le (by positivity) leading
  generalize hscale : decimalExponent q - (17 : Nat) + 1 = scale
  have gridPos : (0 : Rat) < 10 ^ scale := by positivity
  have fine : (10 : Rat) ^ scale * 10 ^ 16 ≤ q := by
    have power : (10 : Rat) ^ scale * 10 ^ 16 = 10 ^ decimalExponent q := by
      rw [← zpow_natCast, ← zpow_add₀ (by norm_num), ← hscale]
      congr 1
      push_cast
      ring
    rw [power]
    exact leading
  obtain ⟨above, below⟩ := roundHalfEven_near (q / 10 ^ scale)
  have value : (nearestNumeral q 17).value = roundHalfEven (q / 10 ^ scale) * 10 ^ scale := by
    rw [Numeral.value, nearestNumeral]
    simp only [hscale, tenPow_eq_zpow]
    rw [roundHalfEven_toNat (div_nonneg positive.le gridPos.le)]
  have quotient : q / 10 ^ scale * 10 ^ scale = q := div_mul_cancel₀ q gridPos.ne'
  have bound : (10 : Rat) ^ scale / 2 < q / 2 ^ 54 := by
    rw [div_lt_div_iff₀ (by norm_num) (by norm_num)]
    nlinarith
  refine nearest_eq_of_close double positive ?_ ?_
  · refine lt_of_le_of_lt ?_ bound
    rw [value]
    nlinarith
  · refine lt_of_le_of_lt ?_ bound
    rw [value]
    nlinarith

/-- **The shortest numeral reads back.** -/
theorem nearest_shortestNumeral (double : IsDouble q) (notTiny : 1 ≤ q * 10 ^ 400)
    {fuel digits : Nat} (enough : fuel + digits = 17) :
    nearest (shortestNumeral q fuel digits).value = q := by
  induction fuel generalizing digits with
  | zero =>
      obtain rfl : digits = 17 := by omega
      exact nearest_nearestNumeral double notTiny
  | succ fuel ih =>
      unfold shortestNumeral
      dsimp only
      split_ifs with near above
      · exact near
      · exact above
      · exact ih (by omega)

end Shortest

/-! ## `repr` -/

section Repr

variable {q : Rat} {rest : List Char}

/-- The digits of a number are its significant digits and zeros. -/
theorem natText_eq_significantDigits (n : Nat) :
    ∃ zeros, natText n = significantDigits n ++ List.replicate zeros '0' := by
  obtain ⟨tail, split, allZeros⟩ := rstripWhile_append (· = '0') (natText n)
  refine ⟨tail.length, ?_⟩
  rw [significantDigits]
  refine split.trans (congrArg _ (List.eq_replicate_of_mem fun char member => ?_))
  simpa using allZeros char member

theorem significantDigits_isDigit {n : Nat} :
    ∀ char ∈ significantDigits n, char.isDigit = true := by
  intro char member
  obtain ⟨zeros, split⟩ := natText_eq_significantDigits n
  refine natText_isDigit (n := n) ?_
  rw [split]
  exact List.mem_append_left _ member

theorem significantDigits_head {n : Nat} (positive : 0 < n) :
    significantDigits n ≠ [] ∧ (significantDigits n).head? ≠ some '0' := by
  obtain ⟨zeros, split⟩ := natText_eq_significantDigits n
  have head := natText_head positive
  have some := natText_ne_nil n
  rw [split] at head some
  cases digits : significantDigits n with
  | nil =>
      rw [digits, List.nil_append] at head some
      cases zeros with
      | zero => exact absurd rfl some
      | succ zeros => exact absurd rfl head
  | cons first more =>
      rw [digits] at head
      exact ⟨List.cons_ne_nil _ _, head⟩

/-- The value of the significant digits, at the power of ten of the last one. -/
theorem significantDigits_value (n : Nat) (scale : Int) :
    (digitsValue (significantDigits n) : Rat) *
        10 ^ (scale + (natText n).length - 1 - (significantDigits n).length + 1) =
      n * 10 ^ scale := by
  obtain ⟨zeros, split⟩ := natText_eq_significantDigits n
  have value := digitsValue_natText n
  rw [split, digitsValue_append, digitsValue_zeros, List.length_replicate, Nat.add_zero] at value
  have power : scale + (natText n).length - 1 - (significantDigits n).length + 1 =
      scale + (zeros : Int) := by
    rw [split, List.length_append, List.length_replicate]
    push_cast
    ring
  rw [power, zpow_add₀ (by norm_num), zpow_natCast]
  calc (digitsValue (significantDigits n) : Rat) * (10 ^ scale * 10 ^ zeros)
      = (digitsValue (significantDigits n) * 10 ^ zeros : Nat) * 10 ^ scale := by
        push_cast
        ring
    _ = n * 10 ^ scale := by rw [value]

/-- **`repr` of a double reads back as the double.** -/
theorem scanNumber_reprText (double : IsDouble q) (notTiny : q = 0 ∨ 1 ≤ q * 10 ^ 400)
    (ends : EndsNumber rest) :
    ∃ scanned, scanNumber (reprText q ++ rest) = some (scanned, rest) ∧
      scanned.negative = false ∧ scanned.isInteger = false ∧ nearest scanned.magnitude = q := by
  rcases notTiny with rfl | notTiny
  · obtain ⟨scanned, scan, positive, notInteger, magnitude⟩ :=
      readsAs_point (List.cons_ne_nil '0' []) (by simp) (by simp) (List.cons_ne_nil '0' [])
        (by simp) ends
    refine ⟨scanned, scan, positive, notInteger, ?_⟩
    have zero : digitsValue (['0'] ++ ['0']) = 0 := rfl
    rw [magnitude, zero, Nat.cast_zero, zero_mul]
    exact nearest_of_nonpos le_rfl
  · have positive : 0 < q := lt_of_lt_of_le (by positivity) (tenPow_decimalExponent_le notTiny)
    have back := @nearest_shortestNumeral _ double notTiny 16 1 rfl
    rw [reprText, if_neg (not_le.2 positive)]
    dsimp only
    generalize shortestNumeral q 16 1 = numeral at back ⊢
    have some : 0 < numeral.significand := by
      by_contra zero
      have none : numeral.significand = 0 := by omega
      rw [Numeral.value, none, Nat.cast_zero, zero_mul, nearest_of_nonpos le_rfl] at back
      exact positive.ne back
    obtain ⟨nonempty, leading⟩ := significantDigits_head some
    obtain ⟨scanned, scan, unsigned, notInteger, magnitude⟩ :=
      @readsAs_decimalText _ _ (numeral.scale + (natText numeral.significand).length - 1)
        nonempty significantDigits_isDigit leading ends
    refine ⟨scanned, scan, unsigned, notInteger, ?_⟩
    rw [magnitude, significantDigits_value, ← tenPow_eq_zpow]
    exact back

end Repr

/-! ## Lengths -/

theorem length_natText_le {n digits : Nat} (positive : 0 < digits) (small : n < 10 ^ digits) :
    (natText n).length ≤ digits :=
  (Nat.length_toDigits_le_iff (by decide) positive).2 small

end HomeclusterInfra.Binary64
