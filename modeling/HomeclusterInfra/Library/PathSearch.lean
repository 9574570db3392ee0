import Mathlib.Data.Finset.Card
import Mathlib.Logic.Relation
import HomeclusterInfra.Library.Checked

/-!
# Traversals that carry their path

A recursive traversal of a graph collects what is stored at the nodes below a
node. It remembers only the path it came along, and refuses when it meets that
path again: a node that is shared by two branches is visited twice, and a node
below itself is a cycle.

What a node holds and which children it has may itself fail to be read, and so
may a single child. The traversal is cut off at a depth. It is never cut off
where only finitely many nodes have children, so it ends on every such graph.
-/

set_option autoImplicit false

namespace HomeclusterInfra.PathSearch

open Checked

universe u v w

variable {ν : Type u} {μ : Type v} {ε : Type w}

/-- What is stored at a node, and the children below it in order. -/
abbrev Expansion (ν : Type u) (μ : Type v) (ε : Type w) : Type (max u v w) :=
  ν → Except ε (List μ × List (Except ε ν))

/-- One node is a child of another. -/
def Child (expand : Expansion ν μ ε) (parent child : ν) : Prop :=
  ∃ own children, expand parent = .ok (own, children) ∧ .ok child ∈ children

/-- A node, or one of the nodes below it, stores the member. -/
def Holds (expand : Expansion ν μ ε) (root : ν) (member : μ) : Prop :=
  ∃ node own children, Relation.ReflTransGen (Child expand) root node ∧
    expand node = .ok (own, children) ∧ member ∈ own

/-- A node lies on a cycle, or leads to one. -/
def Cyclic (expand : Expansion ν μ ε) (root : ν) : Prop :=
  ∃ node, Relation.ReflTransGen (Child expand) root node ∧
    Relation.TransGen (Child expand) node node

/-- Go on with a child that could be read. -/
def follow {α : Type v} (next : ν → Except (Option ε) α) : Except ε ν → Except (Option ε) α
  | .error failure => .error (some failure)
  | .ok child => next child

theorem follow_eq_ok {α : Type v} {next : ν → Except (Option ε) α} {child : Except ε ν}
    {result : α} :
    follow next child = .ok result ↔ ∃ node, child = .ok node ∧ next node = .ok result := by
  cases child with
  | error failure => simp [follow]
  | ok node => simp [follow]

variable [DecidableEq ν]

/-- Collect what is stored at a node and below it. The failure `none` says that
the traversal was cut off. -/
def gather (expand : Expansion ν μ ε) (cycle : ε) :
    Nat → List ν → ν → Except (Option ε) (List μ)
  | 0, _, _ => .error none
  | depth + 1, path, node =>
      if node ∈ path then .error (some cycle)
      else match expand node with
        | .error failure => .error (some failure)
        | .ok (own, children) => do
            let below ← children.mapM (follow (gather expand cycle depth (node :: path)))
            return own ++ below.flatten

variable {expand : Expansion ν μ ε} {cycle : ε} {depth : Nat} {path : List ν} {node : ν}
  {members : List μ}

/-- **A traversal that ends has traversed each child** and was not at this node before. -/
theorem gather_eq_ok : gather expand cycle depth path node = .ok members ↔
    ∃ rest own children below, depth = rest + 1 ∧ node ∉ path ∧
      expand node = .ok (own, children) ∧
      List.Forall₂ (fun child found => ∃ next, child = .ok next ∧
        gather expand cycle rest (node :: path) next = .ok found) children below ∧
      own ++ below.flatten = members := by
  cases depth with
  | zero =>
      constructor
      · intro done
        cases done
      · rintro ⟨rest, _, _, _, same, -⟩
        omega
  | succ depth =>
      by_cases met : node ∈ path
      · rw [gather, if_pos met]
        constructor
        · intro done
          cases done
        · rintro ⟨_, _, _, _, -, fresh, -⟩
          exact absurd met fresh
      · rw [gather, if_neg met]
        cases expanded : expand node with
        | error failure => simp
        | ok expansion =>
            obtain ⟨own, children⟩ := expansion
            simp only [bind_eq_ok, mapM_eq_ok, pure_eq_ok, follow_eq_ok]
            constructor
            · rintro ⟨below, each, same⟩
              exact ⟨depth, own, children, below, rfl, met, rfl, each, same⟩
            · rintro ⟨rest, own, children, below, deep, -, same, each, all⟩
              cases same
              cases deep
              exact ⟨below, each, all⟩

/-- A child of the node is traversed with the node on its path. -/
theorem gather_child {children : List (Except ε ν)} {below : List (List μ)} {rest : Nat}
    (each : List.Forall₂ (fun child found => ∃ next, child = .ok next ∧
      gather expand cycle rest path next = .ok found) children below)
    {child : ν} (among : .ok child ∈ children) :
    ∃ found ∈ below, gather expand cycle rest path child = .ok found := by
  induction each with
  | nil => cases among
  | cons first _ ih =>
      rcases List.mem_cons.mp among with here | later
      · obtain ⟨next, same, done⟩ := first
        rw [← here] at same
        cases same
        exact ⟨_, List.mem_cons_self, done⟩
      · obtain ⟨found, member, done⟩ := ih later
        exact ⟨found, .tail _ member, done⟩

/-- What was found below the node was found at a child. -/
theorem child_of_below {children : List (Except ε ν)} {below : List (List μ)} {rest : Nat}
    (each : List.Forall₂ (fun child found => ∃ next, child = .ok next ∧
      gather expand cycle rest path next = .ok found) children below)
    {found : List μ} (among : found ∈ below) :
    ∃ child, .ok child ∈ children ∧ gather expand cycle rest path child = .ok found := by
  induction each with
  | nil => cases among
  | cons first _ ih =>
      rcases List.mem_cons.mp among with rfl | later
      · obtain ⟨next, rfl, done⟩ := first
        exact ⟨next, List.mem_cons_self, done⟩
      · obtain ⟨child, member, done⟩ := ih later
        exact ⟨child, .tail _ member, done⟩

/-- **The traversal collects what the nodes below hold**, and nothing else. -/
theorem mem_gather_iff (done : gather expand cycle depth path node = .ok members) {member : μ} :
    member ∈ members ↔ Holds expand node member := by
  induction depth generalizing path node members with
  | zero => cases done
  | succ depth ih =>
      obtain ⟨rest, own, children, below, deep, -, expanded, each, rfl⟩ := gather_eq_ok.mp done
      cases deep
      rw [List.mem_append, List.mem_flatten]
      constructor
      · rintro (here | ⟨found, among, inFound⟩)
        · exact ⟨node, own, children, .refl, expanded, here⟩
        · obtain ⟨child, listed, ended⟩ := child_of_below each among
          obtain ⟨last, stored, others, reach, at_last, held⟩ := (ih ended).mp inFound
          exact ⟨last, stored, others, .head ⟨own, children, expanded, listed⟩ reach, at_last, held⟩
      · rintro ⟨last, stored, others, reach, at_last, held⟩
        rcases reach.cases_head with rfl | ⟨child, ⟨own', children', same, listed⟩, reach⟩
        · rw [expanded] at at_last
          cases at_last
          exact .inl held
        · rw [expanded] at same
          cases same
          obtain ⟨found, among, ended⟩ := gather_child each listed
          exact .inr ⟨found, among, (ih ended).mpr ⟨last, stored, others, reach, at_last, held⟩⟩

/-- A traversal that ends has read every node it led to. -/
theorem expands_of_gather (done : gather expand cycle depth path node = .ok members) {last : ν}
    (reach : Relation.ReflTransGen (Child expand) node last) :
    ∃ own children, expand last = .ok (own, children) := by
  induction depth generalizing path node members with
  | zero => cases done
  | succ depth ih =>
      obtain ⟨rest, own, children, below, deep, -, expanded, each, -⟩ := gather_eq_ok.mp done
      cases deep
      rcases reach.cases_head with rfl | ⟨child, ⟨own', children', same, listed⟩, reach⟩
      · exact ⟨own, children, expanded⟩
      · rw [expanded] at same
        cases same
        obtain ⟨found, -, ended⟩ := gather_child each listed
        exact ih ended reach

/-- A traversal that ends has met no node of its path and no cycle. -/
theorem clear_of_gather (done : gather expand cycle depth path node = .ok members) :
    ∀ last, Relation.ReflTransGen (Child expand) node last →
      last ∉ path ∧ ¬ Relation.TransGen (Child expand) last last := by
  induction depth generalizing path node members with
  | zero => cases done
  | succ depth ih =>
      obtain ⟨rest, own, children, below, deep, fresh, expanded, each, -⟩ := gather_eq_ok.mp done
      cases deep
      have clear_below : ∀ child, Child expand node child → ∀ last,
          Relation.ReflTransGen (Child expand) child last →
          last ∉ node :: path ∧ ¬ Relation.TransGen (Child expand) last last := by
        rintro child ⟨own', children', same, listed⟩ last reach
        rw [expanded] at same
        cases same
        obtain ⟨found, -, ended⟩ := gather_child each listed
        exact ih ended last reach
      intro last reach
      rcases reach.cases_head with rfl | ⟨child, edge, reach⟩
      · refine ⟨fresh, ?_⟩
        -- a cycle through the node would lead a child back to its path
        intro around
        obtain ⟨child, edge, back⟩ := Relation.TransGen.head'_iff.mp around
        exact (clear_below child edge node back).1 List.mem_cons_self
      · obtain ⟨apart, acyclic⟩ := clear_below child edge last reach
        exact ⟨fun inPath => apart (.tail _ inPath), acyclic⟩

/-- **A traversal that leads to a cycle does not end well.** -/
theorem not_cyclic_of_gather (done : gather expand cycle depth path node = .ok members) :
    ¬ Cyclic expand node := by
  rintro ⟨last, reach, around⟩
  exact (clear_of_gather done last reach).2 around

/-! ## Every traversal ends -/

/-- The nodes that have children are among these. -/
def Inner (expand : Expansion ν μ ε) (nodes : Finset ν) : Prop :=
  ∀ node own children, expand node = .ok (own, children) → children ≠ [] → node ∈ nodes

variable {nodes : Finset ν}

/-- A traversal ends, one step deeper, when those of the children end. -/
theorem gather_step {bound : Nat}
    (below : node ∉ path → ∀ child, Child expand node child → ∃ outcome, outcome ≠ .error none ∧
      ∀ depth, bound ≤ depth → gather expand cycle depth (node :: path) child = outcome) :
    ∃ outcome, outcome ≠ .error none ∧
      ∀ depth, bound < depth → gather expand cycle depth path node = outcome := by
  refine ⟨gather expand cycle (bound + 1) path node, ?_, ?_⟩
  · rw [gather]
    by_cases met : node ∈ path
    · rw [if_pos met]
      simp
    · rw [if_neg met]
      cases expanded : expand node with
      | error failure => simp
      | ok expansion =>
          obtain ⟨own, children⟩ := expansion
          intro cut
          cases each : children.mapM (follow (gather expand cycle bound (node :: path))) with
          | ok found =>
              simp only [each] at cut
              cases cut
          | error failure =>
              simp only [each] at cut
              cases cut
              obtain ⟨child, listed, failed⟩ := exists_of_mapM_eq_error each
              cases child with
              | error other => cases failed
              | ok child =>
                  obtain ⟨outcome, ends, same⟩ := below met child ⟨own, children, expanded, listed⟩
                  exact ends ((same bound le_rfl).symm.trans failed)
  · intro depth deep
    obtain ⟨rest, rfl⟩ : ∃ rest, depth = rest + 1 := ⟨depth - 1, by omega⟩
    have within : bound ≤ rest := by omega
    rw [gather, gather]
    by_cases met : node ∈ path
    · rw [if_pos met, if_pos met]
    · rw [if_neg met, if_neg met]
      cases expanded : expand node with
      | error failure => rfl
      | ok expansion =>
          obtain ⟨own, children⟩ := expansion
          have each : ∀ child ∈ children,
              follow (gather expand cycle rest (node :: path)) child =
                follow (gather expand cycle bound (node :: path)) child := by
            intro child listed
            cases child with
            | error failure => rfl
            | ok child =>
                obtain ⟨outcome, -, same⟩ := below met child ⟨own, children, expanded, listed⟩
                exact (same rest within).trans (same bound le_rfl).symm
          simp only [mapM_congr each]

/-- **The traversal is not cut off** below the number of nodes that have children
and are not on the path, and goes the same way at every greater depth. -/
theorem gather_ends (inner : Inner expand nodes) {bound : Nat}
    (enough : (nodes.filter (· ∉ path)).card ≤ bound) :
    ∃ outcome, outcome ≠ .error none ∧
      ∀ depth, bound < depth → gather expand cycle depth path node = outcome := by
  have inside : ∀ {path : List ν} {node child : ν}, node ∉ path → Child expand node child →
      node ∈ nodes.filter (· ∉ path) := by
    rintro path node child fresh ⟨own, children, expanded, listed⟩
    exact Finset.mem_filter.mpr
      ⟨inner node own children expanded (List.ne_nil_of_mem listed), fresh⟩
  induction bound generalizing path node with
  | zero =>
      apply gather_step
      intro fresh child edge
      have none_left := Finset.card_eq_zero.mp (Nat.le_zero.mp enough)
      have left := inside fresh edge
      rw [none_left] at left
      cases left
  | succ bound ih =>
      apply gather_step
      intro fresh child edge
      have fewer : (nodes.filter (· ∉ node :: path)).card < (nodes.filter (· ∉ path)).card := by
        apply Finset.card_lt_card
        refine (Finset.ssubset_iff_of_subset ?_).mpr ⟨node, inside fresh edge, ?_⟩
        · intro other
          simp only [Finset.mem_filter, List.mem_cons, not_or]
          rintro ⟨among, -, apart⟩
          exact ⟨among, apart⟩
        · simp
      obtain ⟨outcome, ends, same⟩ := @ih (node :: path) child (by omega)
      exact ⟨outcome, ends, fun depth deep => same depth deep⟩

end HomeclusterInfra.PathSearch
