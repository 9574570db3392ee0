import Mathlib.Data.Finset.Card
import Mathlib.Logic.Relation
import HomeclusterInfra.Library.Checked

/-!
# Traversals that share what they have seen

A recursive traversal of a graph collects what is stored at the nodes below a node,
each member once. All its calls share one list of the nodes that were seen, and a node
that was seen before adds nothing: not because nothing is below it, but because that
is collected elsewhere. So a call alone does not find what is below its node. What it
does is stated by the nodes it saw first: it collects exactly what these store, and
each of them has only children that were seen when it ends.

From no node seen, that is everything below the first. The traversal is cut off at a
depth, and it is never cut off where only finitely many nodes are stored.
-/

set_option autoImplicit false

namespace HomeclusterInfra.SharedSearch

open Checked

universe u

variable {ν μ : Type u}

/-- What is stored at a node, and its children; none where there is nothing. -/
abbrev Store (ν μ : Type u) : Type u :=
  ν → Option (List μ × List ν)

/-- One node is a child of another. -/
def Child (store : Store ν μ) (parent child : ν) : Prop :=
  ∃ own children, store parent = some (own, children) ∧ child ∈ children

/-- A member is stored at a node. -/
def Stores (store : Store ν μ) (node : ν) (member : μ) : Prop :=
  ∃ own children, store node = some (own, children) ∧ member ∈ own

variable [DecidableEq ν] [DecidableEq μ]

/-- Append what is not there yet. -/
def addNew (found more : List μ) : List μ :=
  more.foldl (fun found member => if member ∈ found then found else found ++ [member]) found

/-- Collect what is stored at a node and below it, where it was not seen before, and
all nodes seen after that. None says that the traversal was cut off. -/
def collect (store : Store ν μ) : Nat → List ν → ν → Option (List μ × List ν)
  | 0, _, _ => none
  | depth + 1, seen, node =>
      if node ∈ seen then some ([], seen)
      else match store node with
        | none => some ([], node :: seen)
        | some (own, children) =>
            children.foldlM (fun state child => do
              let (more, seen) ← collect store depth state.2 child
              return (addNew state.1 more, seen)) (own, node :: seen)

section AddNew

variable {found more : List μ} {member : μ}

theorem mem_addNew : member ∈ addNew found more ↔ member ∈ found ∨ member ∈ more := by
  induction more generalizing found with
  | nil => simp [addNew]
  | cons first more ih =>
      rw [addNew, List.foldl_cons, ← addNew, ih, List.mem_cons]
      split
      next here =>
        constructor
        · exact Or.imp_right Or.inr
        · rintro (before | rfl | later)
          · exact Or.inl before
          · exact Or.inl here
          · exact Or.inr later
      next => rw [List.mem_append, List.mem_singleton, or_assoc]

theorem addNew_nodup (distinct : found.Nodup) : (addNew found more).Nodup := by
  induction more generalizing found with
  | nil => exact distinct
  | cons first more ih =>
      rw [addNew, List.foldl_cons, ← addNew]
      apply ih
      split
      next => exact distinct
      next fresh => exact List.nodup_append.mpr ⟨distinct, List.nodup_singleton _, by
          rintro one member other only rfl
          exact fresh (List.mem_singleton.mp only ▸ member)⟩

/-- What was there stays in front. -/
theorem addNew_eq_append (found more : List μ) : ∃ rest, addNew found more = found ++ rest := by
  induction more generalizing found with
  | nil => exact ⟨[], (List.append_nil found).symm⟩
  | cons first more ih =>
      rw [addNew, List.foldl_cons, ← addNew]
      split
      next => exact ih found
      next =>
        obtain ⟨rest, same⟩ := ih (found ++ [first])
        exact ⟨first :: rest, by rw [same, List.append_assoc]; rfl⟩

end AddNew

/-! ## One call -/

variable {store : Store ν μ} {seen after : List ν} {node : ν} {found : List μ}

/-- What a call for a node does that ends. -/
structure Collects (store : Store ν μ) (seen : List ν) (node : ν) (found : List μ)
    (after : List ν) : Prop where
  sees : node ∈ after
  grows : ∀ other ∈ seen, other ∈ after
  closed : ∀ other ∈ after, other ∉ seen → ∀ child, Child store other child → child ∈ after
  reached : ∀ other ∈ after, other ∉ seen → Relation.ReflTransGen (Child store) node other
  mem_iff : ∀ member, member ∈ found ↔ ∃ other ∈ after, other ∉ seen ∧ Stores store other member
  distinct : found.Nodup

/-- The call for a node has gone through some of its children. -/
structure Gathers (store : Store ν μ) (seen : List ν) (node : ν) (done : List ν)
    (state : List μ × List ν) : Prop where
  sees : node ∈ state.2
  seesChildren : ∀ child ∈ done, child ∈ state.2
  grows : ∀ other ∈ seen, other ∈ state.2
  closed : ∀ other ∈ state.2, other ∉ seen → other ≠ node → ∀ child, Child store other child →
    child ∈ state.2
  reached : ∀ other ∈ state.2, other ∉ seen → Relation.ReflTransGen (Child store) node other
  mem_iff : ∀ member, member ∈ state.1 ↔ ∃ other ∈ state.2, other ∉ seen ∧
    Stores store other member
  distinct : state.1.Nodup

/-- One child. -/
theorem Gathers.child {done : List ν} {state : List μ × List ν} {child : ν} {more : List μ}
    (gathers : Gathers store seen node done state) (edge : Child store node child)
    (call : Collects store state.2 child more after) :
    Gathers store seen node (done ++ [child]) (addNew state.1 more, after) where
  sees := call.grows node gathers.sees
  seesChildren other member := by
    rcases List.mem_append.mp member with before | last
    · exact call.grows other (gathers.seesChildren other before)
    · rw [List.mem_singleton.mp last]
      exact call.sees
  grows other before := call.grows other (gathers.grows other before)
  closed other member fresh apart next below := by
    by_cases before : other ∈ state.2
    · exact call.grows next (gathers.closed other before fresh apart next below)
    · exact call.closed other member before next below
  reached other member fresh := by
    by_cases before : other ∈ state.2
    · exact gathers.reached other before fresh
    · exact .head edge (call.reached other member before)
  mem_iff member := by
    rw [mem_addNew, gathers.mem_iff, call.mem_iff]
    constructor
    · rintro (⟨other, before, fresh, stores⟩ | ⟨other, seenNow, fresh, stores⟩)
      · exact ⟨other, call.grows other before, fresh, stores⟩
      · exact ⟨other, seenNow, fun earlier => fresh (gathers.grows other earlier), stores⟩
    · rintro ⟨other, seenNow, fresh, stores⟩
      by_cases before : other ∈ state.2
      · exact Or.inl ⟨other, before, fresh, stores⟩
      · exact Or.inr ⟨other, seenNow, before, stores⟩
  distinct := addNew_nodup gathers.distinct

/-- The children one after the other. -/
theorem Gathers.children {depth : Nat} (calls : ∀ {seen child more after},
      collect store depth seen child = some (more, after) → Collects store seen child more after)
    {rest done : List ν} {state result : List μ × List ν}
    (edges : ∀ child ∈ rest, Child store node child)
    (gathers : Gathers store seen node done state)
    (ends : rest.foldlM (fun state child => do
        let (more, seen) ← collect store depth state.2 child
        return (addNew state.1 more, seen)) state = some result) :
    Gathers store seen node (done ++ rest) result := by
  induction rest generalizing done state with
  | nil =>
      cases ends
      rwa [List.append_nil]
  | cons child rest ih =>
      rw [List.forall_mem_cons] at edges
      rw [List.foldlM_cons] at ends
      obtain ⟨middle, stepped, ends⟩ := Option.bind_eq_some_iff.mp ends
      obtain ⟨⟨more, now⟩, call, same⟩ := Option.bind_eq_some_iff.mp stepped
      cases same
      have advanced := ih edges.2 (gathers.child edges.1 (calls call)) ends
      rwa [List.append_assoc] at advanced

omit [DecidableEq ν] [DecidableEq μ] in
/-- The call has seen its own node only. -/
theorem gathers_start {own : List μ} (fresh : node ∉ seen) (distinct : own.Nodup)
    (stored : ∀ member, member ∈ own ↔ Stores store node member) :
    Gathers store seen node [] (own, node :: seen) where
  sees := List.mem_cons_self
  seesChildren _ none_yet := absurd none_yet List.not_mem_nil
  grows _ before := List.mem_cons_of_mem _ before
  closed other member notSeen apart := by
    rcases List.mem_cons.mp member with same | before
    · exact absurd same apart
    · exact absurd before notSeen
  reached other member notSeen := by
    rcases List.mem_cons.mp member with rfl | before
    · exact .refl
    · exact absurd before notSeen
  mem_iff member := by
    rw [stored]
    constructor
    · exact fun here => ⟨node, List.mem_cons_self, fresh, here⟩
    · rintro ⟨other, among, notSeen, stores⟩
      rcases List.mem_cons.mp among with rfl | before
      · exact stores
      · exact absurd before notSeen
  distinct := distinct

omit [DecidableEq μ] in
/-- The call has gone through all children. -/
theorem Gathers.collects {done : List ν} {state : List μ × List ν}
    (gathers : Gathers store seen node done state)
    (all : ∀ child, Child store node child → child ∈ done) :
    Collects store seen node state.1 state.2 where
  sees := gathers.sees
  grows := gathers.grows
  closed other member fresh child below := by
    by_cases same : other = node
    · subst same
      exact gathers.seesChildren child (all child below)
    · exact gathers.closed other member fresh same child below
  reached := gathers.reached
  mem_iff := gathers.mem_iff
  distinct := gathers.distinct

/-- **What a call collects**, when each stored node has its members once. -/
theorem collect_collects (once : ∀ node own children, store node = some (own, children) →
      own.Nodup) {depth : Nat} (ends : collect store depth seen node = some (found, after)) :
    Collects store seen node found after := by
  induction depth generalizing seen node found after with
  | zero => cases ends
  | succ depth ih =>
      rw [collect] at ends
      split at ends
      next before =>
        cases ends
        exact ⟨before, fun _ => id, fun _ member fresh => absurd member fresh,
          fun _ member fresh => absurd member fresh, fun member =>
            ⟨fun no => absurd no List.not_mem_nil, fun ⟨_, here, fresh, _⟩ => absurd here fresh⟩,
          List.nodup_nil⟩
      next fresh =>
        split at ends
        next missing =>
          cases ends
          refine (gathers_start fresh List.nodup_nil fun member => ?_).collects ?_
          · refine ⟨fun no => absurd no List.not_mem_nil, ?_⟩
            rintro ⟨own, children, here, -⟩
            rw [missing] at here
            cases here
          · rintro child ⟨own, children, here, -⟩
            rw [missing] at here
            cases here
        next own children here =>
          have edges : ∀ child, Child store node child ↔ child ∈ children := by
            intro child
            refine ⟨?_, fun listed => ⟨own, children, here, listed⟩⟩
            rintro ⟨other, others, expanded, listed⟩
            rw [here] at expanded
            cases expanded
            exact listed
          have start : Gathers store seen node [] (own, node :: seen) := by
            refine gathers_start fresh (once node own children here) fun member => ?_
            refine ⟨fun stored => ⟨own, children, here, stored⟩, ?_⟩
            rintro ⟨other, others, expanded, stored⟩
            rw [here] at expanded
            cases expanded
            exact stored
          exact (start.children ih (fun child => (edges child).mpr) ends).collects
            fun child => (edges child).mp

/-- **From no node seen, everything below the first is collected.** -/
theorem mem_collect_iff (once : ∀ node own children, store node = some (own, children) →
      own.Nodup) {depth : Nat} (ends : collect store depth [] node = some (found, after))
    {member : μ} : member ∈ found ↔
      ∃ other, Relation.ReflTransGen (Child store) node other ∧ Stores store other member := by
  have call := collect_collects once ends
  have inside : ∀ other, Relation.ReflTransGen (Child store) node other → other ∈ after := by
    intro other reach
    induction reach with
    | refl => exact call.sees
    | tail _ edge ih => exact call.closed _ ih List.not_mem_nil _ edge
  rw [call.mem_iff]
  constructor
  · rintro ⟨other, seenNow, fresh, stores⟩
    exact ⟨other, call.reached other seenNow fresh, stores⟩
  · rintro ⟨other, reach, stores⟩
    exact ⟨other, inside other reach, List.not_mem_nil, stores⟩

/-! ## Every traversal ends -/

/-- The stored nodes are among these. -/
def Within (store : Store ν μ) (nodes : Finset ν) : Prop :=
  ∀ node, (store node).isSome → node ∈ nodes

/-- Calls that end at every depth from some one on give a loop that does. -/
theorem children_end {bound : Nat} (once : ∀ node own children,
      store node = some (own, children) → own.Nodup)
    (calls : ∀ now child, (∀ other ∈ seen, other ∈ now) →
      ∃ result, ∀ depth, bound ≤ depth → collect store depth now child = some result)
    (children : List ν) (state : List μ × List ν) (before : ∀ other ∈ seen, other ∈ state.2) :
    ∃ result, ∀ depth, bound ≤ depth → children.foldlM (fun state child => do
        let (more, seen) ← collect store depth state.2 child
        return (addNew state.1 more, seen)) state = some result := by
  induction children generalizing state with
  | nil => exact ⟨state, fun _ _ => rfl⟩
  | cons child children ih =>
      obtain ⟨⟨more, now⟩, call⟩ := calls state.2 child before
      have grows := (collect_collects once (call bound le_rfl)).grows
      obtain ⟨result, ends⟩ := ih (addNew state.1 more, now) fun other member =>
        grows other (before other member)
      refine ⟨result, fun depth deep => ?_⟩
      rw [List.foldlM_cons, call depth deep]
      exact ends depth deep

/-- A call ends, one step deeper, when the calls it makes end. -/
theorem collect_step {bound : Nat} (once : ∀ node own children,
      store node = some (own, children) → own.Nodup)
    (calls : node ∉ seen → (store node).isSome → ∀ now child,
      (∀ other ∈ node :: seen, other ∈ now) →
        ∃ result, ∀ depth, bound ≤ depth → collect store depth now child = some result) :
    ∃ result, ∀ depth, bound < depth → collect store depth seen node = some result := by
  have deeper : ∀ depth, bound < depth → ∃ rest, depth = rest + 1 ∧ bound ≤ rest :=
    fun depth deep => ⟨depth - 1, by omega, by omega⟩
  by_cases before : node ∈ seen
  · refine ⟨([], seen), fun depth deep => ?_⟩
    obtain ⟨rest, rfl, -⟩ := deeper depth deep
    rw [collect, if_pos before]
  · rcases here : store node with - | ⟨own, children⟩
    · refine ⟨([], node :: seen), fun depth deep => ?_⟩
      obtain ⟨rest, rfl, -⟩ := deeper depth deep
      rw [collect, if_neg before]
      simp only [here]
    · obtain ⟨result, ends⟩ := children_end once
        (calls before (by rw [here]; rfl)) children (own, node :: seen) fun _ => id
      refine ⟨result, fun depth deep => ?_⟩
      obtain ⟨rest, rfl, enough⟩ := deeper depth deep
      rw [collect, if_neg before]
      simp only [here]
      exact ends rest enough

/-- **The traversal is not cut off** below the number of stored nodes that were not
seen, and goes the same way at every greater depth. -/
theorem collect_ends {nodes : Finset ν} (within : Within store nodes)
    (once : ∀ node own children, store node = some (own, children) → own.Nodup) {bound : Nat}
    (enough : (nodes.filter (· ∉ seen)).card ≤ bound) :
    ∃ result, ∀ depth, bound < depth → collect store depth seen node = some result := by
  induction bound generalizing seen node with
  | zero =>
      refine collect_step once fun fresh stored => ?_
      have left : node ∈ nodes.filter (· ∉ seen) :=
        Finset.mem_filter.mpr ⟨within node stored, fresh⟩
      rw [Finset.card_eq_zero.mp (Nat.le_zero.mp enough)] at left
      cases left
  | succ bound ih =>
      refine collect_step once fun fresh stored now child grows => ?_
      have fewer : (nodes.filter (· ∉ now)).card < (nodes.filter (· ∉ seen)).card := by
        apply Finset.card_lt_card
        refine (Finset.ssubset_iff_of_subset ?_).mpr
          ⟨node, Finset.mem_filter.mpr ⟨within node stored, fresh⟩, ?_⟩
        · intro other
          simp only [Finset.mem_filter]
          rintro ⟨among, notNow⟩
          exact ⟨among, fun earlier => notNow (grows other (List.mem_cons_of_mem _ earlier))⟩
        · simp only [Finset.mem_filter, not_and, not_not]
          exact fun _ => grows node List.mem_cons_self
      obtain ⟨result, ends⟩ := @ih now child (by omega)
      exact ⟨result, fun depth deep => ends depth deep⟩

end HomeclusterInfra.SharedSearch
