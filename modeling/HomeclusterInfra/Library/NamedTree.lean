import Mathlib.Data.List.Sort

/-!
# Trees with named children

A node has a label and children under names, in some order. A path of names leads
to a node. The listing of a tree has all its paths with their labels, each node
before its children and these in the order of their names.

A listing ascends in the lexicographic order of the paths. So it does not depend
on the order of the children, and two trees with the same paths and labels have
the same listing.
-/

set_option autoImplicit false

namespace HomeclusterInfra

universe u v w

/-! ## Sorting by a key -/

section Sorting

variable {κ : Type u} {α : Type v} {β : Type w}

/-- Entries in the order of their keys. -/
def sortedByKey [LinearOrder κ] (entries : List (κ × α)) : List (κ × α) :=
  entries.insertionSort fun first second => first.1 ≤ second.1

section LinearKeys

variable [LinearOrder κ]

instance totalByKey : Std.Total fun first second : κ × α => first.1 ≤ second.1 :=
  ⟨fun first second => le_total first.1 second.1⟩

instance transByKey : IsTrans (κ × α) fun first second => first.1 ≤ second.1 :=
  ⟨fun _ _ _ => le_trans⟩

theorem sortedByKey_perm (entries : List (κ × α)) : (sortedByKey entries).Perm entries :=
  List.perm_insertionSort _ entries

@[simp] theorem mem_sortedByKey {entries : List (κ × α)} {entry : κ × α} :
    entry ∈ sortedByKey entries ↔ entry ∈ entries :=
  (sortedByKey_perm entries).mem_iff

@[simp] theorem length_sortedByKey (entries : List (κ × α)) :
    (sortedByKey entries).length = entries.length :=
  (sortedByKey_perm entries).length_eq

theorem sortedByKey_map (convert : α → β) (entries : List (κ × α)) :
    sortedByKey (entries.map fun entry => (entry.1, convert entry.2)) =
      (sortedByKey entries).map fun entry => (entry.1, convert entry.2) := by
  exact (List.map_insertionSort (fun first second : κ × α => first.1 ≤ second.1)
    (fun first second : κ × β => first.1 ≤ second.1) _ entries fun _ _ _ _ => Iff.rfl).symm

/-- Different keys ascend strictly. -/
theorem sortedByKey_pairwise {entries : List (κ × α)} (distinct : (entries.map Prod.fst).Nodup) :
    (sortedByKey entries).Pairwise fun first second => first.1 < second.1 := by
  have ascending : (sortedByKey entries).Pairwise fun first second => first.1 ≤ second.1 :=
    List.pairwise_insertionSort _ entries
  have apart : ((sortedByKey entries).map Prod.fst).Nodup :=
    ((sortedByKey_perm entries).map Prod.fst).nodup_iff.mpr distinct
  rw [List.Nodup, List.pairwise_map] at apart
  exact (ascending.and apart).imp fun both => lt_of_le_of_ne both.1 both.2

end LinearKeys

/-- **Entries that ascend strictly are fixed by what they are**: two such lists with
the same keys and related values are related one by one. -/
theorem forall₂_of_ascending {κ : Type u} {α : Type v} {β : Type w} [LT κ]
    [Std.Asymm fun first second : κ => first < second] {related : α → β → Prop} :
    ∀ {first : List (κ × α)} {second : List (κ × β)},
      first.Pairwise (fun one other => one.1 < other.1) →
      second.Pairwise (fun one other => one.1 < other.1) →
      (∀ key value, (key, value) ∈ first → ∃ other, (key, other) ∈ second ∧ related value other) →
      (∀ key other, (key, other) ∈ second → ∃ value, (key, value) ∈ first) →
      List.Forall₂ (fun one other => one.1 = other.1 ∧ related one.2 other.2) first second := by
  intro first
  induction first with
  | nil =>
      intro second _ _ _ back
      cases second with
      | nil => exact .nil
      | cons entry second =>
          obtain ⟨value, member⟩ := back entry.1 entry.2 List.mem_cons_self
          exact absurd member List.not_mem_nil
  | cons entry first ih =>
      obtain ⟨key, value⟩ := entry
      intro second ascending ascending' forth back
      cases second with
      | nil =>
          obtain ⟨other, member, -⟩ := forth key value List.mem_cons_self
          exact absurd member List.not_mem_nil
      | cons entry' second =>
          obtain ⟨key', value'⟩ := entry'
          rw [List.pairwise_cons] at ascending ascending'
          have irrefl : ∀ key : κ, ¬ key < key := fun key less => Std.Asymm.asymm _ _ less less
          have same : key = key' := by
            obtain ⟨other, member, -⟩ := forth key value List.mem_cons_self
            obtain ⟨value'', member'⟩ := back key' value' List.mem_cons_self
            rcases List.mem_cons.mp member with same | later
            · exact congrArg Prod.fst same
            · rcases List.mem_cons.mp member' with same' | later'
              · exact (congrArg Prod.fst same').symm
              · exact absurd (ascending.1 _ later') (Std.Asymm.asymm _ _ (ascending'.1 _ later))
          subst same
          have relate : related value value' := by
            obtain ⟨other, member, related⟩ := forth key value List.mem_cons_self
            rcases List.mem_cons.mp member with same | later
            · obtain rfl : other = value' := congrArg Prod.snd same
              exact related
            · exact absurd (ascending'.1 _ later) (irrefl key)
          refine .cons ⟨rfl, relate⟩ (ih ascending.2 ascending'.2 ?_ ?_)
          · intro later value member
            obtain ⟨other, member', related⟩ := forth later value (List.mem_cons_of_mem _ member)
            rcases List.mem_cons.mp member' with same | member'
            · exact absurd (ascending.1 _ member) (by
                rw [congrArg Prod.fst same]
                exact irrefl key)
            · exact ⟨other, member', related⟩
          · intro later other member
            obtain ⟨value, member'⟩ := back later other (List.mem_cons_of_mem _ member)
            rcases List.mem_cons.mp member' with same | member'
            · exact absurd (ascending'.1 _ member) (by
                rw [congrArg Prod.fst same]
                exact irrefl key)
            · exact ⟨value, member'⟩

/-- Entries with different keys are sorted alike when they are the same entries. -/
theorem sortedByKey_eq_of_mem_iff [LinearOrder κ] {entries other : List (κ × α)}
    (distinct : (entries.map Prod.fst).Nodup) (distinct' : (other.map Prod.fst).Nodup)
    (same : ∀ entry, entry ∈ entries ↔ entry ∈ other) :
    sortedByKey entries = sortedByKey other := by
  have related : List.Forall₂ (fun one other => one.1 = other.1 ∧ one.2 = other.2)
      (sortedByKey entries) (sortedByKey other) := by
    apply forall₂_of_ascending (sortedByKey_pairwise distinct) (sortedByKey_pairwise distinct')
    · intro key value member
      rw [mem_sortedByKey, same] at member
      exact ⟨value, mem_sortedByKey.mpr member, rfl⟩
    · intro key value member
      rw [mem_sortedByKey, ← same] at member
      exact ⟨value, mem_sortedByKey.mpr member⟩
  rw [← List.forall₂_eq_eq_eq]
  exact related.imp fun _ _ both => Prod.ext both.1 both.2

end Sorting

/-! ## Trees -/

/-- A tree whose nodes have labels and whose children have names. -/
inductive NamedTree (ν : Type u) (α : Type v) where
  | node (label : α) (children : List (ν × NamedTree ν α))

namespace NamedTree

variable {ν : Type u} {α : Type v}

/-- What holds of a node when it holds of its children holds of every tree. -/
theorem induct {motive : NamedTree ν α → Prop}
    (node : ∀ label children, (∀ entry ∈ children, motive entry.2) →
      motive (.node label children)) : ∀ tree, motive tree
  | .node label children => node label children fun entry _ => induct node entry.2
termination_by tree => sizeOf tree
decreasing_by
  rename_i member
  have inside := List.sizeOf_lt_of_mem member
  have child : sizeOf entry.2 < sizeOf entry := by
    cases entry
    simp
  rw [NamedTree.node.sizeOf_spec]
  omega

/-- A path of names leads to a node with this label. -/
inductive Has : NamedTree ν α → List ν → α → Prop where
  | here {label : α} {children : List (ν × NamedTree ν α)} : Has (.node label children) [] label
  | into {label found : α} {children : List (ν × NamedTree ν α)} {name : ν}
      {child : NamedTree ν α} {path : List ν} (member : (name, child) ∈ children)
      (inside : Has child path found) : Has (.node label children) (name :: path) found

/-- The children of every node have different names. -/
inductive Distinct : NamedTree ν α → Prop where
  | node {label : α} {children : List (ν × NamedTree ν α)}
      (names : (children.map Prod.fst).Nodup)
      (inside : ∀ entry ∈ children, Distinct entry.2) : Distinct (.node label children)

/-- An entry of a listing seen from the parent. -/
def under (name : ν) (entry : List ν × α) : List ν × α :=
  (name :: entry.1, entry.2)

variable [LinearOrder ν]

mutual
/-- All paths with their labels, each node before its children. -/
def listing : NamedTree ν α → List (List ν × α)
  | .node label children => ([], label) ::
      (sortedByKey (listings children)).flatMap fun entry => entry.2.map (under entry.1)

def listings : List (ν × NamedTree ν α) → List (ν × List (List ν × α))
  | [] => []
  | (name, child) :: children => (name, listing child) :: listings children
end

theorem listings_eq (children : List (ν × NamedTree ν α)) :
    listings children = children.map fun entry => (entry.1, entry.2.listing) := by
  induction children with
  | nil => rfl
  | cons entry children ih => rw [listings, ih, List.map_cons]

theorem listing_node (label : α) (children : List (ν × NamedTree ν α)) :
    listing (.node label children) = ([], label) ::
      (sortedByKey children).flatMap fun entry => entry.2.listing.map (under entry.1) := by
  rw [listing, listings_eq, sortedByKey_map, List.flatMap_map]

/-- The listing has the nodes of the tree. -/
theorem mem_listing {tree : NamedTree ν α} : ∀ {path : List ν} {label : α},
    (path, label) ∈ tree.listing ↔ Has tree path label := by
  induction tree using induct with
  | node label children ih =>
      intro path found
      rw [listing_node, List.mem_cons]
      constructor
      · rintro (same | inside)
        · obtain ⟨rfl, rfl⟩ := Prod.mk.inj same
          exact .here
        · obtain ⟨⟨name, child⟩, member, inside⟩ := List.mem_flatMap.mp inside
          obtain ⟨⟨path', label'⟩, listed, same⟩ := List.mem_map.mp inside
          obtain ⟨rfl, rfl⟩ := Prod.mk.inj same
          rw [mem_sortedByKey] at member
          exact .into member ((ih _ member).mp listed)
      · intro has
        cases has with
        | here => exact .inl rfl
        | @into _ _ _ name child path member inside =>
            refine .inr (List.mem_flatMap.mpr ⟨(name, child), mem_sortedByKey.mpr member, ?_⟩)
            exact List.mem_map.mpr ⟨(path, found), (ih _ member).mpr inside, rfl⟩

/-- **A listing ascends in the lexicographic order of the paths.** -/
theorem listing_pairwise {tree : NamedTree ν α} (distinct : Distinct tree) :
    tree.listing.Pairwise fun first second => first.1 < second.1 := by
  induction distinct with
  | @node label children names _ ih =>
      rw [listing_node, List.pairwise_cons, List.pairwise_flatMap]
      refine ⟨fun entry member => ?_, fun entry member => ?_, ?_⟩
      · obtain ⟨child, -, inside⟩ := List.mem_flatMap.mp member
        obtain ⟨below, -, rfl⟩ := List.mem_map.mp inside
        exact List.nil_lt_cons _ _
      · rw [List.pairwise_map]
        exact (ih entry (mem_sortedByKey.mp member)).imp fun less =>
          List.cons_lt_cons_iff.mpr (.inr ⟨rfl, less⟩)
      · refine (sortedByKey_pairwise names).imp ?_
        intro first second less one oneInside other otherInside
        obtain ⟨_, -, rfl⟩ := List.mem_map.mp oneInside
        obtain ⟨_, -, rfl⟩ := List.mem_map.mp otherInside
        exact List.cons_lt_cons_iff.mpr (.inl less)

omit [LinearOrder ν] in
/-- A path leads to one label. -/
theorem Has.unique {tree : NamedTree ν α} {path : List ν} {first second : α}
    (distinct : Distinct tree) (one : Has tree path first) (other : Has tree path second) :
    first = second := by
  induction one with
  | here =>
      cases other with
      | here => rfl
  | @into label found children name child path member _ ih =>
      cases other with
      | @into _ _ _ _ child' _ member' other =>
          cases distinct with
          | node names inside =>
              have same : (name, child) = (name, child') :=
                List.inj_on_of_nodup_map names member member' rfl
              obtain rfl := congrArg Prod.snd same
              exact ih (inside _ member) other

/-- **Trees with the same paths have the same listing.** -/
theorem listing_forall₂ {tree other : NamedTree ν α} {related : α → α → Prop}
    (distinct : Distinct tree) (distinct' : Distinct other)
    (forth : ∀ path label, Has tree path label → ∃ label', Has other path label' ∧
      related label label')
    (back : ∀ path label', Has other path label' → ∃ label, Has tree path label) :
    List.Forall₂ (fun one other => one.1 = other.1 ∧ related one.2 other.2) tree.listing
      other.listing := by
  apply forall₂_of_ascending (listing_pairwise distinct) (listing_pairwise distinct')
  · intro path label member
    obtain ⟨label', has, related⟩ := forth path label (mem_listing.mp member)
    exact ⟨label', mem_listing.mpr has, related⟩
  · intro path label' member
    obtain ⟨label, has⟩ := back path label' (mem_listing.mp member)
    exact ⟨label, mem_listing.mpr has⟩

end NamedTree

end HomeclusterInfra
