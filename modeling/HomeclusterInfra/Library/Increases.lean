import Mathlib.Data.List.DropRight

/-!
# Sums of positive changes

A gauge is read again and again, and each reading names the thing it was taken
from. The readings of the last stay are those after the latest change of that
name. Over them the positive changes between neighbours are summed up; one more
reading adds its own change, or begins a new stay with nothing.
-/

set_option autoImplicit false

namespace HomeclusterInfra.Increases

universe u v

variable {α : Type u} {κ : Type v} [DecidableEq κ]

/-- The sum of the positive differences between neighbours. -/
def increases : List Nat → Nat
  | first :: second :: rest => (second - first) + increases (second :: rest)
  | _ => 0

/-- The last readings that share the name of the last one. -/
def lastStay (name : α → κ) (history : List α) : List α :=
  match history.getLast? with
  | none => []
  | some last => history.rtakeWhile fun reading => name reading = name last

theorem increases_concat (values : List Nat) (last new : Nat) :
    increases (values ++ [last] ++ [new]) = increases (values ++ [last]) + (new - last) := by
  induction values with
  | nil => simp [increases]
  | cons value values ih =>
      cases values with
      | nil => simp [increases]
      | cons next rest =>
          simp only [List.cons_append, increases] at ih ⊢
          omega

variable (name : α → κ) (history : List α) (last new : α)

theorem lastStay_concat :
    lastStay name (history ++ [new]) =
      (history.rtakeWhile fun reading => name reading = name new) ++ [new] := by
  simp [lastStay]

/-- A reading of the same thing prolongs the stay. -/
theorem lastStay_prolonged (same : name last = name new) :
    lastStay name (history ++ [last] ++ [new]) = lastStay name (history ++ [last]) ++ [new] := by
  rw [lastStay_concat, lastStay_concat, List.rtakeWhile_concat]
  simp [same]

/-- A reading of another thing begins a stay. -/
theorem lastStay_changed (changed : name last ≠ name new) :
    lastStay name (history ++ [last] ++ [new]) = [new] := by
  rw [lastStay_concat, List.rtakeWhile_concat]
  simp [changed]

/-- **One more reading of the same thing adds its own increase.** -/
theorem increases_prolonged (value : α → Nat) (same : name last = name new) :
    increases ((lastStay name (history ++ [last] ++ [new])).map value) =
      increases ((lastStay name (history ++ [last])).map value) + (value new - value last) := by
  rw [lastStay_prolonged name history last new same, lastStay_concat]
  simp only [List.map_append, List.map_cons, List.map_nil]
  exact increases_concat _ _ _

/-- **A reading of another thing begins at nothing.** -/
theorem increases_changed (value : α → Nat) (changed : name last ≠ name new) :
    increases ((lastStay name (history ++ [last] ++ [new])).map value) = 0 := by
  rw [lastStay_changed name history last new changed]
  rfl

theorem increases_first (value : α → Nat) :
    increases ((lastStay name [new]).map value) = 0 := by
  have alone := lastStay_concat name [] new
  rw [List.nil_append] at alone
  rw [alone]
  rfl

end HomeclusterInfra.Increases
