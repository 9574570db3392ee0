import HomeclusterInfra.Library.DecimalText

/-!
# Lengths of decimal texts

How long the text of a double can become. The bound is no sharp one: it covers a number with
eighteen digits, a point and zeros around it.
-/

set_option autoImplicit false

namespace HomeclusterInfra.Binary64

open Text

section Lengths

variable {q : Rat} {digits : Nat}

/-- The first digit of a number from one on stands at its last power of ten. -/
theorem decimalExponent_bounds (large : 1 ≤ q) (small : q < 10 ^ digits) :
    0 ≤ decimalExponent q ∧ decimalExponent q < digits ∧
      q < (10 : Rat) ^ (decimalExponent q + 1) := by
  have floorPos : 1 ≤ q.floor := by
    rw [Rat.le_floor_iff]
    exact_mod_cast large
  have whole : ((q.floor.toNat : Nat) : Rat) = q.floor := by
    exact_mod_cast congrArg (Int.cast : Int → Rat) (Int.toNat_of_nonneg (by omega))
  have lengthPos : 0 < (natText q.floor.toNat).length := Nat.length_toDigits_pos
  have someDigits : 0 < digits := by
    by_contra none
    obtain rfl : digits = 0 := by omega
    rw [pow_zero] at small
    exact absurd large (not_le.mpr small)
  have below : q.floor.toNat < 10 ^ digits := by
    have floor : ((q.floor.toNat : Nat) : Rat) < 10 ^ digits :=
      whole ▸ lt_of_le_of_lt (floor_le q) small
    exact_mod_cast floor
  have short := length_natText_le someDigits below
  have within : q.floor.toNat < 10 ^ (natText q.floor.toNat).length :=
    (Nat.length_toDigits_le_iff (by decide) lengthPos).1 le_rfl
  rw [decimalExponent, if_pos large]
  refine ⟨by omega, by omega, ?_⟩
  have power : ((natText q.floor.toNat).length : Int) - 1 + 1 =
      ((natText q.floor.toNat).length : Nat) := by omega
  rw [power, zpow_natCast]
  calc q < q.floor + 1 := lt_floor_add_one q
    _ = ((q.floor.toNat + 1 : Nat) : Rat) := by
        rw [← whole]
        push_cast
        ring
    _ ≤ 10 ^ (natText q.floor.toNat).length := by exact_mod_cast within

/-- A numeral with some digits has no more of them, but for a carry. -/
theorem significand_nearestNumeral_le (large : 1 ≤ q) (small : q < 10 ^ digits) (count : Nat) :
    (nearestNumeral q count).significand ≤ 10 ^ count := by
  obtain ⟨-, -, below⟩ := decimalExponent_bounds large small
  generalize hscale : decimalExponent q - count + 1 = scale
  have gridPos : (0 : Rat) < 10 ^ scale := by positivity
  have quotient : q / 10 ^ scale ≤ ((10 ^ count : Int) : Rat) := by
    rw [div_le_iff₀ gridPos]
    refine below.le.trans_eq ?_
    rw [Int.cast_pow, Int.cast_ofNat, ← zpow_natCast, ← zpow_add₀ (by norm_num), ← hscale]
    congr 1
    ring
  have rounded := roundHalfEven_mono quotient
  rw [roundHalfEven_intCast] at rounded
  rw [nearestNumeral]
  simp only [hscale, tenPow_eq_zpow]
  rw [Int.toNat_le]
  exact_mod_cast rounded

/-- The shortest numeral is one of the numerals with up to seventeen digits. -/
theorem shortestNumeral_bounds (large : 1 ≤ q) (small : q < 10 ^ digits) {fuel count : Nat}
    (enough : fuel + count = 17) (some : 1 ≤ count) :
    (shortestNumeral q fuel count).significand ≤ 10 ^ 17 + 1 ∧
      decimalExponent q - 16 ≤ (shortestNumeral q fuel count).scale ∧
        (shortestNumeral q fuel count).scale ≤ decimalExponent q := by
  have near : ∀ count, 1 ≤ count → count ≤ 17 →
      (nearestNumeral q count).significand ≤ 10 ^ 17 ∧
        decimalExponent q - 16 ≤ (nearestNumeral q count).scale ∧
          (nearestNumeral q count).scale ≤ decimalExponent q := by
    intro count some few
    have bound := (significand_nearestNumeral_le large small count).trans
      (Nat.pow_le_pow_right (by norm_num) few)
    refine ⟨bound, ?_, ?_⟩
    · rw [nearestNumeral]
      dsimp only
      omega
    · rw [nearestNumeral]
      dsimp only
      omega
  induction fuel generalizing count with
  | zero =>
      obtain ⟨bound, low, high⟩ := near count some (by omega)
      exact ⟨bound.trans (Nat.le_succ _), low, high⟩
  | succ fuel ih =>
      obtain ⟨bound, low, high⟩ := near count some (by omega)
      unfold shortestNumeral
      dsimp only
      split_ifs
      · exact ⟨bound.trans (Nat.le_succ _), low, high⟩
      · exact ⟨Nat.succ_le_succ bound, low, high⟩
      · exact ih (by omega) (by omega)

theorem length_significantDigits_le (n : Nat) :
    (significantDigits n).length ≤ (natText n).length := by
  obtain ⟨zeros, split⟩ := natText_eq_significantDigits n
  have length := congrArg List.length split
  rw [List.length_append] at length
  omega

theorem length_pointText_le (written : List Char) (whole : Nat) :
    (pointText written whole).length ≤ written.length + whole + 2 := by
  rw [pointText]
  split
  next =>
    simp only [List.length_append, List.length_take, List.length_cons, List.length_nil,
      List.length_replicate]
    omega
  next =>
    simp only [List.length_append, List.length_take, List.length_cons, List.length_drop,
      List.length_replicate]
    omega

/-- **The text of a double from one up to some power of ten.** -/
theorem length_reprText_le (large : 1 ≤ q) (small : q < 10 ^ digits) (few : digits ≤ 15) :
    (reprText q).length ≤ 40 := by
  obtain ⟨low, high, -⟩ := decimalExponent_bounds large small
  obtain ⟨bound, least, most⟩ :=
    @shortestNumeral_bounds q digits large small 16 1 rfl le_rfl
  rw [reprText, if_neg (not_le.mpr (lt_of_lt_of_le one_pos large))]
  dsimp only
  generalize shortestNumeral q 16 1 = numeral at bound least most
  have short : (natText numeral.significand).length ≤ 18 :=
    length_natText_le (by norm_num) (by omega)
  have shorter := (length_significantDigits_le numeral.significand).trans short
  generalize natText numeral.significand = text at short
  generalize significantDigits numeral.significand = written at shorter
  rw [decimalText]
  split
  next =>
    have width : (zeroPadded 2 (numeral.scale + text.length - 1).natAbs).length ≤ 2 := by
      have digits := @length_natText_le (numeral.scale + text.length - 1).natAbs 2 (by norm_num)
        (by omega)
      rw [zeroPadded, List.length_append, List.length_replicate]
      omega
    have sign : ∀ negative : Prop, ∀ _ : Decidable negative,
        (if negative then "e-".toList else "e+".toList).length = 2 := by
      intro negative _
      split <;> rfl
    rw [scientificText, List.length_append, List.length_append, List.length_append, sign,
      List.length_take]
    split
    next => rw [List.length_nil]; omega
    next => rw [List.length_cons, List.length_drop]; omega
  next inside =>
    rw [Bool.or_eq_true, decide_eq_true_eq, decide_eq_true_eq, not_or] at inside
    split
    next =>
      simp only [List.length_append, List.length_cons, List.length_nil, List.length_replicate]
      omega
    next =>
      refine (length_pointText_le _ _).trans ?_
      omega

end Lengths

/-! ## Characters -/

section Ascii

variable {written : List Char}

theorem ascii_of_all (all : (written.all fun char => char.toNat < 128) = true) :
    ∀ char ∈ written, char.toNat < 128 :=
  fun char member => of_decide_eq_true (List.all_eq_true.mp all char member)

theorem zeroPadded_ascii (width n : Nat) : ∀ char ∈ zeroPadded width n, char.toNat < 128 := by
  intro char member
  rcases List.mem_append.mp member with zero | digit
  · rw [List.eq_of_mem_replicate zero]
    decide
  · exact natText_ascii digit

theorem scientificText_ascii (ascii : ∀ char ∈ written, char.toNat < 128) (exponent : Int) :
    ∀ char ∈ scientificText written exponent, char.toNat < 128 := by
  intro char member
  rw [scientificText, List.mem_append, List.mem_append, List.mem_append] at member
  rcases member with ((first | fraction) | sign) | digit
  · exact ascii char (List.mem_of_mem_take first)
  · split at fraction
    · cases fraction
    · rcases List.mem_cons.mp fraction with rfl | later
      · decide
      · exact ascii char (List.mem_of_mem_drop later)
  · have signs := @ascii_of_all ("e-".toList ++ "e+".toList) (by decide)
    split at sign
    · exact signs char (List.mem_append_left _ sign)
    · exact signs char (List.mem_append_right _ sign)
  · exact zeroPadded_ascii _ _ char digit

theorem pointText_ascii (ascii : ∀ char ∈ written, char.toNat < 128) (whole : Nat) :
    ∀ char ∈ pointText written whole, char.toNat < 128 := by
  have padded : ∀ char ∈ written ++ List.replicate (whole - written.length) '0',
      char.toNat < 128 := by
    intro char member
    rcases List.mem_append.mp member with digit | zero
    · exact ascii char digit
    · rw [List.eq_of_mem_replicate zero]
      decide
  intro char member
  rw [pointText, List.mem_append, List.mem_cons] at member
  rcases member with front | rfl | fraction
  · exact padded char (List.mem_of_mem_take front)
  · decide
  · split at fraction
    · rw [List.mem_singleton.mp fraction]
      decide
    · exact padded char (List.mem_of_mem_drop fraction)

theorem reprText_ascii (q : Rat) : ∀ char ∈ reprText q, char.toNat < 128 := by
  rw [reprText]
  split
  next => exact ascii_of_all (by decide)
  next =>
    dsimp only
    generalize shortestNumeral q 16 1 = numeral
    have digits : ∀ char ∈ significantDigits numeral.significand, char.toNat < 128 := by
      intro char member
      obtain ⟨zeros, split⟩ := natText_eq_significantDigits numeral.significand
      exact natText_ascii (split ▸ List.mem_append_left _ member)
    rw [decimalText]
    split
    next => exact scientificText_ascii digits _
    next =>
      split
      next =>
        intro char member
        rcases List.mem_cons.mp member with rfl | later
        · decide
        · rcases List.mem_cons.mp later with rfl | later
          · decide
          · rcases List.mem_append.mp later with zero | digit
            · rw [List.eq_of_mem_replicate zero]
              decide
            · exact digits char digit
      next => exact pointText_ascii digits _

end Ascii

end HomeclusterInfra.Binary64
