import Mathlib.Order.Basic
import Mathlib.Data.List.Basic

/-!
# Ascending sequences between two bounds

A clock that is read, advanced and read again hands out a sequence of values
that ascends strictly from above its first reading up to its last. Two such
sequences that meet at a reading join to one.
-/

set_option autoImplicit false

namespace HomeclusterInfra.Ascending

universe u

variable {τ : Type u} [Preorder τ]

/-- The values ascend strictly, from above one bound up to another. -/
structure Ascends (low : τ) (values : List τ) (high : τ) : Prop where
  increasing : values.Pairwise (· < ·)
  above : ∀ value ∈ values, low < value
  below : ∀ value ∈ values, value ≤ high
  le : low ≤ high

variable {low middle high value : τ} {values first second : List τ}

theorem Ascends.nil (le : low ≤ high) : Ascends low [] high :=
  ⟨.nil, List.forall_mem_nil _, List.forall_mem_nil _, le⟩

theorem Ascends.single (above : low < value) : Ascends low [value] value := by
  refine ⟨List.pairwise_singleton _ _, ?_, ?_, above.le⟩
  · intro other member
    rw [List.mem_singleton.1 member]
    exact above
  · intro other member
    rw [List.mem_singleton.1 member]

/-- **Two sequences that meet at a bound join.** -/
theorem Ascends.append (one : Ascends low first middle) (two : Ascends middle second high) :
    Ascends low (first ++ second) high := by
  refine ⟨?_, ?_, ?_, one.le.trans two.le⟩
  · refine List.pairwise_append.2 ⟨one.increasing, two.increasing, ?_⟩
    intro earlier inFirst later inSecond
    exact (one.below earlier inFirst).trans_lt (two.above later inSecond)
  · intro value member
    rcases List.mem_append.1 member with inFirst | inSecond
    · exact one.above value inFirst
    · exact one.le.trans_lt (two.above value inSecond)
  · intro value member
    rcases List.mem_append.1 member with inFirst | inSecond
    · exact (one.below value inFirst).trans two.le
    · exact two.below value inSecond

end HomeclusterInfra.Ascending
