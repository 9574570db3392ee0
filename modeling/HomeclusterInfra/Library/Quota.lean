import Mathlib.Algebra.BigOperators.Group.List.Basic
import Mathlib.Order.Lattice

/-!
# Filling up to a quota

A loop takes items in their order and adds up what each of them brings, until
what has come together meets a quota. The amount of an item is looked at only
when the item is taken, and may turn out to be unknown.

What is taken is the shortest front of the items that meets the quota.
-/

set_option autoImplicit false

namespace HomeclusterInfra.Quota

universe u

variable {α : Type u} {β : Type u} [AddCommMonoid β]

/-- What the items bring together. -/
def total (size : α → Option β) (items : List α) : β :=
  (items.map fun item => (size item).getD 0).sum

variable {size : α → Option β}

theorem total_cons {item : α} {amount : β} (known : size item = some amount) (items : List α) :
    total size (item :: items) = amount + total size items := by
  rw [total, List.map_cons, List.sum_cons, known, Option.getD_some, total]

variable [LinearOrder β]

/-- Take items until the level meets the goal. -/
def fill (size : α → Option β) (goal : β) : β → List α → Option (List α × β)
  | level, [] => some ([], level)
  | level, item :: rest =>
      if goal ≤ level then some ([], level)
      else do
        let amount ← size item
        let (taken, final) ← fill size goal (level + amount) rest
        return (item :: taken, final)

variable {goal level final : β} {items taken : List α}

/-- **What is taken is a front of the items, and no shorter front meets the goal.**
It is all of them when they do not meet it together. -/
theorem fill_eq_some (filled : fill size goal level items = some (taken, final)) :
    ∃ count, taken = items.take count ∧ final = level + total size taken ∧
      (∀ item ∈ taken, (size item).isSome = true) ∧
      (∀ fewer < count, level + total size (items.take fewer) < goal) ∧
      (final < goal → taken = items) := by
  induction items generalizing level taken with
  | nil =>
      cases filled
      exact ⟨0, rfl, (add_zero _).symm, List.forall_mem_nil _, fun _ less => by omega,
        fun _ => rfl⟩
  | cons item rest ih =>
      rw [fill] at filled
      split at filled
      next met =>
        cases filled
        exact ⟨0, rfl, (add_zero _).symm, List.forall_mem_nil _, fun _ less => by omega,
          fun short => absurd short (not_lt.mpr met)⟩
      next unmet =>
        obtain ⟨amount, known, filled⟩ := Option.bind_eq_some_iff.mp filled
        obtain ⟨⟨others, last⟩, filled, same⟩ := Option.bind_eq_some_iff.mp filled
        cases same
        obtain ⟨count, rfl, rfl, sizes, shorter, all⟩ := ih filled
        refine ⟨count + 1, rfl, ?_, ?_, ?_, ?_⟩
        · rw [total_cons known, add_assoc]
        · rw [List.forall_mem_cons, known]
          exact ⟨rfl, sizes⟩
        · intro fewer less
          cases fewer with
          | zero => exact lt_of_eq_of_lt (add_zero level) (not_le.mp unmet)
          | succ fewer =>
              rw [List.take_succ_cons, total_cons known, ← add_assoc]
              exact shorter fewer (by omega)
        · intro short
          rw [all short]

end HomeclusterInfra.Quota
