import Mathlib.Data.List.Sort
import Mathlib.Data.List.Nodup

/-!
# Ranking by a key

The items of a list with the greatest keys first. An item at a position has as
many items with greater keys as there are items before it.
-/

set_option autoImplicit false

namespace HomeclusterInfra.Ranking

variable {α κ : Type} [LinearOrder κ] (key : α → κ)

/-- The items, the greatest key first. -/
def greatestFirst (items : List α) : List α :=
  items.insertionSort fun first second => key second ≤ key first

variable {key} {items : List α}

theorem greatestFirst_perm : (greatestFirst key items).Perm items :=
  List.perm_insertionSort _ _

theorem mem_greatestFirst {item : α} : item ∈ greatestFirst key items ↔ item ∈ items :=
  greatestFirst_perm.mem_iff

theorem pairwise_greatestFirst :
    (greatestFirst key items).Pairwise fun first second => key second ≤ key first := by
  have total : ∀ first second : α, key second ≤ key first ∨ key first ≤ key second :=
    fun first second => le_total _ _
  have transitive : ∀ first second third : α, key second ≤ key first → key third ≤ key second →
      key third ≤ key first := fun _ _ _ one two => two.trans one
  have : Std.Total fun first second : α => key second ≤ key first := ⟨total⟩
  have : IsTrans α fun first second : α => key second ≤ key first := ⟨transitive⟩
  exact List.pairwise_insertionSort _ _

/-- **The items before a position have greater keys**, if no two keys are the same. -/
theorem position_le_greater (distinct : (items.map key).Nodup) {position : Nat} {item : α}
    (found : (greatestFirst key items)[position]? = some item) :
    position ≤ (items.filter fun other => key item < key other).length := by
  obtain ⟨inside, here⟩ := List.getElem?_eq_some_iff.mp found
  have split : greatestFirst key items =
      (greatestFirst key items).take position ++ item :: (greatestFirst key items).drop
        (position + 1) := by
    rw [← here, ← List.drop_eq_getElem_cons inside, List.take_append_drop]
  have nodup : ((greatestFirst key items).map key).Nodup :=
    (greatestFirst_perm.map key).nodup_iff.mpr distinct
  have sorted : (greatestFirst key items).Pairwise fun first second => key second ≤ key first :=
    pairwise_greatestFirst
  rw [split, List.pairwise_append] at sorted
  rw [split, List.map_append, List.map_cons, List.nodup_append] at nodup
  have greater : ∀ other ∈ (greatestFirst key items).take position, key item < key other := by
    intro other before
    refine lt_of_le_of_ne (sorted.2.2 other before item (List.mem_cons_self ..)) fun same => ?_
    exact nodup.2.2 _ (List.mem_map_of_mem before) _ (List.mem_cons_self ..) same.symm
  have filtered : ((greatestFirst key items).filter fun other => key item < key other).length =
      (items.filter fun other => key item < key other).length :=
    (greatestFirst_perm.filter _).length_eq
  rw [← filtered, split, List.filter_append,
    List.filter_eq_self.mpr fun other before => decide_eq_true (greater other before),
    List.length_append, List.length_take]
  omega

end HomeclusterInfra.Ranking
