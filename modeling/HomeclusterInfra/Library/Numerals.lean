import Mathlib.Data.List.Induction
import HomeclusterInfra.Library.Text

/-!
# Decimal numerals in byte strings

The bytes of decimal numerals and the number they stand for. A numeral is the
one that is printed for its value, up to leading zeros.
-/

set_option autoImplicit false

namespace HomeclusterInfra.Numerals

open Text

/-- `[0-9]` of a byte pattern. -/
def isDigit (byte : UInt8) : Bool :=
  48 ≤ byte.toNat && byte.toNat ≤ 57

/-- `int` of a string of ASCII digits. -/
def value (numeral : List UInt8) : Nat :=
  numeral.foldl (fun total byte => 10 * total + (byte.toNat - 48)) 0

/-- The numeral that is printed for a number. -/
def printed (n : Nat) : List UInt8 :=
  asciiBytes (natText n)

@[simp] theorem value_concat (numeral : List UInt8) (byte : UInt8) :
    value (numeral ++ [byte]) = 10 * value numeral + (byte.toNat - 48) := by
  simp [value]

/-- The byte of one digit. -/
def digitByte (digit : Nat) : UInt8 :=
  UInt8.ofNat (48 + digit)

theorem toNat_digitByte {digit : Nat} (small : digit < 10) :
    (digitByte digit).toNat = 48 + digit := by
  rw [digitByte, UInt8.toNat_ofNat', Nat.mod_eq_of_lt (by omega)]

theorem printed_digit {digit : Nat} (small : digit < 10) : printed digit = [digitByte digit] := by
  have cases : digit = 0 ∨ digit = 1 ∨ digit = 2 ∨ digit = 3 ∨ digit = 4 ∨ digit = 5 ∨
      digit = 6 ∨ digit = 7 ∨ digit = 8 ∨ digit = 9 := by omega
  rcases cases with rfl | rfl | rfl | rfl | rfl | rfl | rfl | rfl | rfl | rfl <;> decide

/-- The last digit of a number with more than one. -/
theorem printed_step {n digit : Nat} (positive : 0 < n) (small : digit < 10) :
    printed (10 * n + digit) = printed n ++ [digitByte digit] := by
  have split := Nat.toDigits_append_toDigits (b := 10) (by decide) positive small
  rw [← printed_digit small, printed, natText, ← split]
  simp [printed, asciiBytes, natText]

theorem digitByte_isDigit {digit : Nat} (small : digit < 10) : isDigit (digitByte digit) = true := by
  rw [isDigit, toNat_digitByte small]
  simp
  omega

/-- A digit is the byte of its value. -/
theorem eq_digitByte {byte : UInt8} (digit : isDigit byte = true) :
    byte.toNat - 48 < 10 ∧ byte = digitByte (byte.toNat - 48) := by
  simp only [isDigit, Bool.and_eq_true, decide_eq_true_eq] at digit
  have small : byte.toNat - 48 < 10 := by omega
  refine ⟨small, UInt8.toNat_inj.1 ?_⟩
  rw [toNat_digitByte small]
  omega

theorem printed_isDigit (n : Nat) : ∀ byte ∈ printed n, isDigit byte = true := by
  induction n using Nat.strongRecOn with
  | ind n ih =>
      by_cases small : n < 10
      · intro byte member
        rw [printed_digit small, List.mem_singleton] at member
        rw [member]
        exact digitByte_isDigit small
      · have shape : n = 10 * (n / 10) + n % 10 := (Nat.div_add_mod n 10).symm
        intro byte member
        rw [shape, printed_step (by omega) (Nat.mod_lt n (by decide))] at member
        rcases List.mem_append.1 member with earlier | last
        · exact ih (n / 10) (by omega) byte earlier
        · rw [List.mem_singleton.1 last]
          exact digitByte_isDigit (Nat.mod_lt n (by decide))

theorem value_printed (n : Nat) : value (printed n) = n := by
  induction n using Nat.strongRecOn with
  | ind n ih =>
      by_cases small : n < 10
      · rw [printed_digit small, ← List.nil_append [digitByte n], value_concat,
          toNat_digitByte small]
        simp [value]
      · have shape : n = 10 * (n / 10) + n % 10 := (Nat.div_add_mod n 10).symm
        have digit : n % 10 < 10 := Nat.mod_lt n (by decide)
        rw [shape, printed_step (by omega) digit, value_concat, ih (n / 10) (by omega),
          toNat_digitByte digit]
        omega

theorem length_printed_pos (n : Nat) : 0 < (printed n).length := by
  rw [printed, asciiBytes, List.length_map]
  exact Nat.length_toDigits_pos

theorem length_printed_le_iff {n digits : Nat} (positive : 0 < digits) :
    (printed n).length ≤ digits ↔ n < 10 ^ digits := by
  rw [printed, asciiBytes, List.length_map]
  exact Nat.length_toDigits_le_iff (by decide) positive

/-- **A numeral is the printed one, up to leading zeros.** -/
theorem eq_zeros_append_printed {numeral : List UInt8} (nonempty : numeral ≠ [])
    (digits : ∀ byte ∈ numeral, isDigit byte = true) :
    ∃ zeros, numeral = List.replicate zeros 48 ++ printed (value numeral) := by
  induction numeral using List.reverseRecOn with
  | nil => exact absurd rfl nonempty
  | append_singleton earlier byte ih =>
      obtain ⟨small, same⟩ := eq_digitByte (digits byte (by simp))
      have single : printed (byte.toNat - 48) = [byte] := by
        rw [printed_digit small, ← same]
      rw [value_concat]
      by_cases empty : earlier = []
      · subst empty
        exact ⟨0, by simp [value, single]⟩
      · obtain ⟨zeros, shape⟩ := ih empty fun other member =>
          digits other (List.mem_append_left _ member)
        rcases Nat.eq_zero_or_pos (value earlier) with zero | positive
        · rw [zero, printed_digit (by decide)] at shape
          refine ⟨zeros + 1, ?_⟩
          rw [shape, ← shape, zero, Nat.mul_zero, Nat.zero_add, single, shape,
            List.replicate_succ']
          rfl
        · refine ⟨zeros, ?_⟩
          rw [printed_step positive small, ← same, ← List.append_assoc, ← shape]

theorem value_zeros_append (zeros : Nat) (numeral : List UInt8) :
    value (List.replicate zeros 48 ++ numeral) = value numeral := by
  have nothing : List.foldl (fun total (byte : UInt8) => 10 * total + (byte.toNat - 48)) 0
      (List.replicate zeros 48) = 0 := by
    induction zeros with
    | zero => rfl
    | succ zeros ih => simpa [List.replicate_succ] using ih
  rw [value, List.foldl_append, nothing, value]

end HomeclusterInfra.Numerals
