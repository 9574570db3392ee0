import HomeclusterInfra.Library.Lines
import Mathlib.Data.List.Basic

/-!
# Groups of hexadecimal digits

Digests and identifiers are written with lowercase hexadecimal digits, in groups of given
lengths with dashes between them.
-/

set_option autoImplicit false

namespace HomeclusterInfra.HexGroups

open Text

/-- `[0-9a-f]` -/
def isHex (char : Char) : Bool :=
  char.isDigit || ('a' ≤ char && char ≤ 'f')

/-- Groups of hexadecimal digits of these lengths, with dashes between them. -/
def isHexGroups (lengths : List Nat) (line : List Char) : Bool :=
  (line.splitOn '-').map List.length == lengths && (line.splitOn '-').all (·.all isHex)

variable {line : List Char} {lengths : List Nat}

theorem isHexGroups_iff : isHexGroups lengths line = true ↔
    (line.splitOn '-').map List.length = lengths ∧
      ∀ group ∈ line.splitOn '-', ∀ char ∈ group, isHex char = true := by
  simp only [isHexGroups, Bool.and_eq_true, beq_iff_eq, List.all_eq_true]

/-- A line of groups, put together again. -/
theorem intercalate_groups (line : List Char) : ['-'].intercalate (line.splitOn '-') = line :=
  List.intercalate_splitOn '-'

theorem mem_groups {char : Char} (groups : isHexGroups lengths line = true) (member : char ∈ line) :
    isHex char = true ∨ char = '-' := by
  have all := (isHexGroups_iff.mp groups).2
  rw [← intercalate_groups line] at member
  generalize line.splitOn '-' = pieces at all member
  induction pieces with
  | nil => cases member
  | cons piece pieces ih =>
      rw [List.forall_mem_cons] at all
      cases pieces with
      | nil =>
          rw [List.intercalate_singleton] at member
          exact Or.inl (all.1 char member)
      | cons next pieces =>
          rw [List.intercalate_cons_cons, List.mem_append, List.mem_append] at member
          rcases member with (inside | dash) | later
          · exact Or.inl (all.1 char inside)
          · exact Or.inr (List.mem_singleton.mp dash)
          · exact ih all.2 later

/-- Characters that are neither digits of that kind nor dashes are not in the line. -/
theorem notMem_groups {char : Char} (groups : isHexGroups lengths line = true)
    (other : (isHex char || char == '-') = false) : char ∉ line := by
  intro member
  rw [Bool.or_eq_false_iff, beq_eq_false_iff_ne] at other
  rcases mem_groups groups member with hex | dash
  · exact Bool.noConfusion (hex.symm.trans other.1)
  · exact other.2 dash

theorem length_groups (groups : isHexGroups lengths line = true) :
    line.length + 1 = lengths.sum + lengths.length := by
  have same := (isHexGroups_iff.mp groups).1
  have whole := congrArg List.length (intercalate_groups line)
  have nonempty := List.splitOn_ne_nil '-' line
  rw [← same, ← whole, List.length_map]
  generalize line.splitOn '-' = pieces at nonempty
  induction pieces with
  | nil => exact absurd rfl nonempty
  | cons piece pieces ih =>
      cases pieces with
      | nil => rw [List.intercalate_singleton, List.map_singleton, List.sum_singleton]; rfl
      | cons next pieces =>
          have rest := ih (List.cons_ne_nil _ _)
          rw [List.intercalate_cons_cons, List.length_append, List.length_append, List.map_cons,
            List.sum_cons, List.length_singleton]
          have longer : (piece :: next :: pieces).length = (next :: pieces).length + 1 := rfl
          omega

/-- A group alone. -/
theorem isHexGroups_single {length : Nat} (hex : ∀ char ∈ line, isHex char = true)
    (long : line.length = length) : isHexGroups [length] line = true := by
  have single : line.splitOn '-' = [line] :=
    List.splitOn_eq_singleton fun dash => absurd (hex _ dash) (by decide)
  rw [isHexGroups_iff, single, List.map_singleton, long, List.forall_mem_singleton]
  exact ⟨rfl, hex⟩

theorem isHexGroups_cons {length : Nat} {group : List Char}
    (hex : ∀ char ∈ group, isHex char = true) (long : group.length = length)
    (rest : isHexGroups lengths line = true) :
    isHexGroups (length :: lengths) (group ++ '-' :: line) = true := by
  have dash : '-' ∉ group := fun member => absurd (hex _ member) (by decide)
  rw [isHexGroups_iff] at rest ⊢
  rw [List.splitOn_append_cons_self_of_not_mem dash, List.map_cons, long, rest.1,
    List.forall_mem_cons]
  exact ⟨rfl, hex, rest.2⟩

/-- The characters of a group that is alone. -/
theorem isHex_of_single {length : Nat} (groups : isHexGroups [length] line = true) :
    ∀ char ∈ line, isHex char = true := by
  obtain ⟨lengthsSame, hex⟩ := isHexGroups_iff.mp groups
  have one : (line.splitOn '-').length = 1 :=
    (List.length_map List.length).symm.trans (congrArg List.length lengthsSame)
  obtain ⟨group, alone⟩ := List.length_eq_one_iff.mp one
  have whole := intercalate_groups line
  rw [alone, List.intercalate_singleton] at whole
  rw [alone, List.forall_mem_singleton, whole] at hex
  exact hex

theorem isHex_visible {char : Char} (hex : isHex char = true) : IsVisible char := by
  rw [isHex, Bool.or_eq_true, Bool.and_eq_true, decide_eq_true_eq, decide_eq_true_eq] at hex
  rcases hex with digit | ⟨low, high⟩
  · exact isVisible_of_isDigit digit
  · have lower : 97 ≤ char.toNat := UInt32.le_iff_toNat_le.mp low
    have upper : char.toNat ≤ 102 := UInt32.le_iff_toNat_le.mp high
    exact ⟨by omega, by omega⟩

theorem groups_visible (groups : isHexGroups lengths line = true) :
    ∀ char ∈ line, IsVisible char := by
  intro char member
  rcases mem_groups groups member with hex | rfl
  · exact isHex_visible hex
  · exact ⟨by decide, by decide⟩

end HomeclusterInfra.HexGroups
