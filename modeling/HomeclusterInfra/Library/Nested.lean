import HomeclusterInfra.Library.Mapping
import Mathlib.Data.List.Induction
import Mathlib.Data.List.Nodup
import Mathlib.Data.List.Pairwise

/-!
# Nested mappings

A nested mapping is a tree whose inner nodes are mappings from keys. A node is
found by the path of the keys that lead to it, and two nested mappings are the
same when the same paths lead to leaves that are equal and to mappings.

Merging an overlay into a base keeps the base and adds what is new, and lists the
paths where the two have something different. Keys of the overlay are normalised
before they are looked up. Everything that is proved about the merge is about
overlays whose keys are normal.
-/

set_option autoImplicit false

namespace HomeclusterInfra

universe u v

/-- A tree of mappings. -/
inductive Nested (κ : Type u) (β : Type v) where
  | leaf (value : β)
  | mapping (fields : List (κ × Nested κ β))

namespace Nested

variable {κ : Type u} {β : Type v}

/-! ## Fields -/

section Fields

variable {α : Type v} [DecidableEq κ]

/-- `fields[key] = value` -/
def put : List (κ × α) → κ → α → List (κ × α)
  | [], key, value => [(key, value)]
  | (name, old) :: rest, key, value =>
      if name = key then (name, value) :: rest else (name, old) :: put rest key value

theorem lookup_put (fields : List (κ × α)) (key : κ) (value : α) (other : κ) :
    (put fields key value).lookup other = if other = key then some value else fields.lookup other := by
  induction fields with
  | nil =>
      by_cases same : other = key
      · simp [put, same]
      · simp [put, same]
  | cons field fields ih =>
      obtain ⟨name, old⟩ := field
      by_cases here : name = key
      · subst here
        by_cases same : other = name
        · simp [put, same]
        · simp [put, List.lookup_cons, beq_false_of_ne same, same]
      · rw [put, if_neg here, List.lookup_cons, List.lookup_cons, ih]
        by_cases same : other = name
        · subst same
          simp [here]
        · simp [beq_false_of_ne same]

theorem lookup_eq_none {fields : List (κ × α)} {key : κ} :
    fields.lookup key = none ↔ key ∉ fields.map Prod.fst := by
  rw [List.lookup_eq_none_iff]
  constructor
  · rintro absent member
    obtain ⟨field, listed, rfl⟩ := List.mem_map.1 member
    exact absurd (absent field listed) (by simp)
  · intro absent field listed
    rw [bne_iff_ne]
    rintro rfl
    exact absent (List.mem_map.2 ⟨field, listed, rfl⟩)

theorem put_distinct {fields : List (κ × α)} (key : κ) (value : α)
    (distinct : (fields.map Prod.fst).Nodup) : ((put fields key value).map Prod.fst).Nodup := by
  induction fields with
  | nil => simp [put]
  | cons field fields ih =>
      obtain ⟨name, old⟩ := field
      rw [List.map_cons, List.nodup_cons] at distinct
      by_cases here : name = key
      · rw [put, if_pos here, List.map_cons, List.nodup_cons]
        exact distinct
      · rw [put, if_neg here, List.map_cons, List.nodup_cons]
        refine ⟨?_, ih distinct.2⟩
        rw [← lookup_eq_none, lookup_put, if_neg here, lookup_eq_none]
        exact distinct.1

end Fields

/-! ## Paths -/

section Paths

variable [DecidableEq κ]

/-- The fields of a mapping. -/
def fields : Nested κ β → List (κ × Nested κ β)
  | .leaf _ => []
  | .mapping fields => fields

/-- The node that a path leads to. -/
def at? : List κ → Nested κ β → Option (Nested κ β)
  | [], node => some node
  | key :: path, node => (node.fields.lookup key).bind (at? path)

@[simp] theorem at?_nil (node : Nested κ β) : at? [] node = some node :=
  rfl

@[simp] theorem at?_leaf (key : κ) (path : List κ) (value : β) :
    at? (key :: path) (.leaf value) = none :=
  rfl

@[simp] theorem at?_mapping (key : κ) (path : List κ) (fields : List (κ × Nested κ β)) :
    at? (key :: path) (.mapping fields) = (fields.lookup key).bind (at? path) :=
  rfl

theorem at?_append (first second : List κ) (node : Nested κ β) :
    at? (first ++ second) node = (at? first node).bind (at? second) := by
  induction first generalizing node with
  | nil => rfl
  | cons key first ih =>
      rw [List.cons_append, at?, at?, Option.bind_assoc]
      congr 1
      funext child
      exact ih child

/-- A property of the keys of one mapping holds of every mapping in a tree. -/
def Everywhere (property : List κ → Prop) (node : Nested κ β) : Prop :=
  ∀ path fields, at? path node = some (.mapping fields) → property (fields.map Prod.fst)

section Everywhere

variable {property : List κ → Prop} {fields : List (κ × Nested κ β)}

theorem Everywhere.here (everywhere : Everywhere property (.mapping fields)) :
    property (fields.map Prod.fst) :=
  everywhere [] fields rfl

theorem Everywhere.child (everywhere : Everywhere property (.mapping fields)) {key : κ}
    {node : Nested κ β} (found : fields.lookup key = some node) : Everywhere property node := by
  intro path inner inside
  refine everywhere (key :: path) inner ?_
  rw [at?_mapping, found, Option.bind_some, inside]

theorem everywhere_leaf (value : β) : Everywhere property (.leaf value : Nested κ β) := by
  intro path inner inside
  cases path with
  | nil => cases inside
  | cons key path => cases inside

theorem everywhere_mapping (here : property (fields.map Prod.fst))
    (below : ∀ key node, fields.lookup key = some node → Everywhere property node) :
    Everywhere property (.mapping fields) := by
  intro path inner inside
  cases path with
  | nil =>
      obtain rfl := Nested.mapping.inj (Option.some.inj inside)
      exact here
  | cons key path =>
      obtain ⟨node, found, deeper⟩ := Option.bind_eq_some_iff.1 inside
      exact below key node found path inner deeper

end Everywhere

end Paths

/-! ## Nodes that agree -/

section Agreement

variable [BEq β]

/-- Equal leaves, or two mappings. -/
inductive Alike : Nested κ β → Nested κ β → Prop where
  | leaf {one other : β} (equal : (one == other) = true) : Alike (.leaf one) (.leaf other)
  | mapping (one other : List (κ × Nested κ β)) : Alike (.mapping one) (.mapping other)

variable [DecidableEq κ]

/-- Wherever two trees both have something, it is alike. -/
def Agree (base overlay : Nested κ β) : Prop :=
  ∀ path one other, at? path base = some one → at? path overlay = some other → Alike one other

/-- The same leaf, an equal one, or two mappings. -/
def Matches (one other : Nested κ β) : Prop :=
  one = other ∨ Alike one other

/-- **Two trees are the same** when the same paths lead to nodes that match. -/
def Same (one other : Nested κ β) : Prop :=
  ∀ path, Option.Rel Matches (at? path one) (at? path other)

theorem Agree.child {one other : List (κ × Nested κ β)} {key : κ} {first second : Nested κ β}
    (agree : Agree (.mapping one) (.mapping other)) (left : one.lookup key = some first)
    (right : other.lookup key = some second) : Agree first second := by
  intro path deep deeper inFirst inSecond
  refine agree (key :: path) deep deeper ?_ ?_
  · rw [at?_mapping, left, Option.bind_some, inFirst]
  · rw [at?_mapping, right, Option.bind_some, inSecond]

end Agreement

/-! ## Merging -/

section Merging

variable [DecidableEq κ] [BEq β] (text : κ → κ)

mutual
/-- What stands under a key that is there already, and the paths of conflicts. -/
def mergeNode (path : List κ) (current : Nested κ β) : Nested κ β → Nested κ β × List (List κ)
  | .leaf value =>
      match current with
      | .leaf old => (current, if old == value then [] else [path])
      | .mapping _ => (current, [path])
  | .mapping fields =>
      match current with
      | .leaf _ => (current, [path])
      | .mapping inner =>
          let (merged, conflicts) := mergeFields path inner fields
          (.mapping merged, conflicts)

/-- The fields of an overlay merged into those of a base, one after the other. -/
def mergeFields (path : List κ) (base : List (κ × Nested κ β)) :
    List (κ × Nested κ β) → List (κ × Nested κ β) × List (List κ)
  | [] => (base, [])
  | (key, value) :: rest =>
      match base.lookup (text key) with
      | none => mergeFields path (put base (text key) value) rest
      | some current =>
          let (node, conflicts) := mergeNode (path ++ [text key]) current value
          let (merged, others) := mergeFields path (put base (text key) node) rest
          (merged, conflicts ++ others)
end

/-- The keys of a mapping: different from each other, and normal. -/
def Normal (keys : List κ) : Prop :=
  keys.Nodup ∧ ∀ key ∈ keys, text key = key

end Merging

section Merged

variable [DecidableEq κ] [BEq β] {text : κ → κ} {path : List κ}
  {base overlay : List (κ × Nested κ β)}

theorem mergeFields_fst_cons (key : κ) (value : Nested κ β) (normal : text key = key) :
    (mergeFields text path base ((key, value) :: overlay)).1 =
      (mergeFields text path (put base key ((base.lookup key).elim value fun current =>
        (mergeNode text (path ++ [key]) current value).1)) overlay).1 := by
  rw [mergeFields, normal]
  cases base.lookup key with
  | none => rfl
  | some current => rfl

theorem mergeFields_snd_cons (key : κ) (value : Nested κ β) (normal : text key = key) :
    (mergeFields text path base ((key, value) :: overlay)).2 =
      ((base.lookup key).elim [] fun current => (mergeNode text (path ++ [key]) current value).2) ++
        (mergeFields text path (put base key ((base.lookup key).elim value fun current =>
          (mergeNode text (path ++ [key]) current value).1)) overlay).2 := by
  rw [mergeFields, normal]
  cases base.lookup key with
  | none => rfl
  | some current => rfl

/-- What the merged fields hold under a key. -/
theorem lookup_mergeFields (normal : Normal text (overlay.map Prod.fst)) (key : κ) :
    (mergeFields text path base overlay).1.lookup key =
      (overlay.lookup key).elim (base.lookup key) fun value =>
        some ((base.lookup key).elim value fun current =>
          (mergeNode text (path ++ [key]) current value).1) := by
  induction overlay generalizing base with
  | nil => rfl
  | cons field overlay ih =>
      obtain ⟨name, value⟩ := field
      obtain ⟨distinct, texts⟩ := normal
      rw [List.map_cons, List.nodup_cons] at distinct
      rw [List.map_cons, List.forall_mem_cons] at texts
      rw [mergeFields_fst_cons name value texts.1, ih ⟨distinct.2, texts.2⟩, lookup_put]
      by_cases same : key = name
      · subst same
        rw [lookup_eq_none.2 distinct.1]
        simp
      · rw [if_neg same, List.lookup_cons, beq_false_of_ne same]

/-- Which fields bring conflicts. -/
theorem mergeFields_conflicts (normal : Normal text (overlay.map Prod.fst)) :
    (mergeFields text path base overlay).2 = [] ↔
      ∀ key value current, overlay.lookup key = some value → base.lookup key = some current →
        (mergeNode text (path ++ [key]) current value).2 = [] := by
  induction overlay generalizing base with
  | nil =>
      refine iff_of_true rfl ?_
      intro key value current found
      cases found
  | cons field overlay ih =>
      obtain ⟨name, first⟩ := field
      obtain ⟨distinct, texts⟩ := normal
      rw [List.map_cons, List.nodup_cons] at distinct
      rw [List.map_cons, List.forall_mem_cons] at texts
      have others := @ih (put base name ((base.lookup name).elim first fun current =>
        (mergeNode text (path ++ [name]) current first).1)) ⟨distinct.2, texts.2⟩
      rw [mergeFields_snd_cons name first texts.1, List.append_eq_nil_iff, others]
      constructor
      · rintro ⟨here, later⟩ key value current found inBase
        by_cases same : key = name
        · subst same
          rw [List.lookup_cons_self] at found
          rw [inBase] at here
          rw [← Option.some.inj found]
          exact here
        · rw [List.lookup_cons, beq_false_of_ne same] at found
          refine later key value current found ?_
          rw [lookup_put, if_neg same, inBase]
      · intro all
        constructor
        · cases inBase : base.lookup name with
          | none => rfl
          | some current => exact all name first current List.lookup_cons_self inBase
        · intro key value current found inBase
          have other : key ≠ name := by
            rintro rfl
            exact distinct.1 (List.mem_map.2 ⟨_, Keyed.mem_of_lookup found, rfl⟩)
          rw [lookup_put, if_neg other] at inBase
          refine all key value current ?_ inBase
          rw [List.lookup_cons, beq_false_of_ne other]
          exact found

end Merged

/-! ## What a merge holds -/

section Contents

variable [DecidableEq κ] [BEq β] {text : κ → κ}

/-- The same node, or a mapping in the place of a mapping. -/
def Kept (before after : Nested κ β) : Prop :=
  before = after ∨ ∃ one other, before = .mapping one ∧ after = .mapping other

omit [DecidableEq κ] [BEq β] in
theorem Kept.leaf {value : β} {after : Nested κ β} (kept : Kept (.leaf value) after) :
    after = .leaf value := by
  rcases kept with same | ⟨one, other, leaf, -⟩
  · exact same.symm
  · cases leaf

/-- **A merge keeps what the base has**: its leaves, and its mappings as mappings. -/
theorem mergeNode_keeps {base overlay node : Nested κ β} (normal : Everywhere (Normal text) overlay)
    {place : List κ} (found : at? place base = some node) (path : List κ) :
    ∃ after, at? place (mergeNode text path base overlay).1 = some after ∧ Kept node after := by
  induction place generalizing base overlay path with
  | nil =>
      obtain rfl := Option.some.inj found
      refine ⟨_, rfl, ?_⟩
      cases overlay with
      | leaf value =>
          cases base with
          | leaf old => exact .inl rfl
          | mapping inner => exact .inl rfl
      | mapping fields =>
          cases base with
          | leaf old => exact .inl rfl
          | mapping inner => exact .inr ⟨_, _, rfl, rfl⟩
  | cons key place ih =>
      cases base with
      | leaf old => cases found
      | mapping inner =>
          obtain ⟨child, inBase, deeper⟩ := Option.bind_eq_some_iff.1 found
          cases overlay with
          | leaf value => exact ⟨node, found, .inl rfl⟩
          | mapping fields =>
              rw [mergeNode, at?_mapping, lookup_mergeFields normal.here]
              cases inOverlay : fields.lookup key with
              | none =>
                  refine ⟨node, ?_, .inl rfl⟩
                  rw [Option.elim_none]
                  exact found
              | some value =>
                  obtain ⟨after, reached, kept⟩ :=
                    ih (normal.child inOverlay) deeper (path ++ [key])
                  refine ⟨after, ?_, kept⟩
                  rw [Option.elim_some, Option.bind_some, show List.lookup key inner = _ from inBase,
                    Option.elim_some]
                  exact reached

/-- **A merge adds what the base has no place for**: a node of the overlay where the base has
nothing, and no leaf on the way. -/
theorem mergeNode_adds {base overlay node : Nested κ β} (normal : Everywhere (Normal text) overlay)
    {place : List κ} (found : at? place overlay = some node) (absent : at? place base = none)
    (free : ∀ before, before <+: place → ∀ value, at? before base ≠ some (.leaf value))
    (path : List κ) : at? place (mergeNode text path base overlay).1 = some node := by
  induction place generalizing base overlay path with
  | nil => cases absent
  | cons key place ih =>
      cases base with
      | leaf old => exact absurd rfl (free [] List.nil_prefix old)
      | mapping inner =>
          cases overlay with
          | leaf value => cases found
          | mapping fields =>
              obtain ⟨value, inOverlay, deeper⟩ := Option.bind_eq_some_iff.1 found
              have here : fields.lookup key = some value := inOverlay
              rw [mergeNode, at?_mapping, lookup_mergeFields normal.here, here, Option.elim_some,
                Option.bind_some]
              cases inBase : inner.lookup key with
              | none =>
                  rw [Option.elim_none]
                  exact deeper
              | some child =>
                  rw [at?_mapping, inBase, Option.bind_some] at absent
                  rw [Option.elim_some]
                  refine ih (normal.child here) deeper absent ?_ (path ++ [key])
                  intro before isPrefix leaf reached
                  refine free (key :: before) (List.cons_prefix_cons.2 ⟨rfl, isPrefix⟩) leaf ?_
                  rw [at?_mapping, inBase, Option.bind_some, reached]

/-- A merge has nothing but what the base and the overlay have. -/
theorem mergeNode_new {base overlay node : Nested κ β} (normal : Everywhere (Normal text) overlay)
    {place : List κ} {path : List κ}
    (found : at? place (mergeNode text path base overlay).1 = some node)
    (absent : at? place base = none) : at? place overlay = some node := by
  induction place generalizing base overlay path with
  | nil => cases absent
  | cons key place ih =>
      cases overlay with
      | leaf value =>
          have unchanged : (mergeNode text path base (.leaf value)).1 = base := by
            cases base <;> rfl
          rw [unchanged, absent] at found
          cases found
      | mapping fields =>
          cases base with
          | leaf old => cases found
          | mapping inner =>
              rw [mergeNode, at?_mapping, lookup_mergeFields normal.here] at found
              rw [at?_mapping] at absent ⊢
              cases inOverlay : fields.lookup key with
              | none =>
                  rw [inOverlay, Option.elim_none, absent] at found
                  cases found
              | some value =>
                  rw [inOverlay, Option.elim_some, Option.bind_some] at found
                  rw [Option.bind_some]
                  cases inBase : inner.lookup key with
                  | none =>
                      rw [inBase, Option.elim_none] at found
                      exact found
                  | some child =>
                      rw [inBase, Option.elim_some] at found
                      rw [inBase, Option.bind_some] at absent
                      exact ih (normal.child inOverlay) found absent

/-! ## Conflicts -/

theorem mergeNode_conflicts_of_mapping {path : List κ} {base overlay : List (κ × Nested κ β)}
    (normal : Normal text (overlay.map Prod.fst)) :
    (mergeNode text path (.mapping base) (.mapping overlay)).2 = [] ↔
      ∀ key value current, overlay.lookup key = some value → base.lookup key = some current →
        (mergeNode text (path ++ [key]) current value).2 = [] :=
  mergeFields_conflicts normal

/-- Where there is no conflict, what both have is alike. -/
theorem agree_of_mergeNode {base overlay : Nested κ β} {path : List κ}
    (normal : Everywhere (Normal text) overlay)
    (quiet : (mergeNode text path base overlay).2 = []) : Agree base overlay := by
  intro place
  induction place generalizing base overlay path with
  | nil =>
      intro one other left right
      obtain rfl := Option.some.inj left
      obtain rfl := Option.some.inj right
      cases base with
      | leaf old =>
          cases overlay with
          | leaf value =>
              rw [mergeNode] at quiet
              by_cases equal : (old == value) = true
              · exact .leaf equal
              · rw [if_neg equal] at quiet
                cases quiet
          | mapping fields => cases quiet
      | mapping inner =>
          cases overlay with
          | leaf value => cases quiet
          | mapping fields => exact .mapping inner fields
  | cons key place ih =>
      intro one other left right
      cases base with
      | leaf old => cases left
      | mapping inner =>
          cases overlay with
          | leaf value => cases right
          | mapping fields =>
              obtain ⟨current, inBase, deep⟩ := Option.bind_eq_some_iff.1 left
              obtain ⟨value, inOverlay, deeper⟩ := Option.bind_eq_some_iff.1 right
              have below := (mergeNode_conflicts_of_mapping normal.here).1 quiet key value current
                inOverlay inBase
              exact ih (normal.child inOverlay) below one other deep deeper

/-- Where all that both have is alike, there is no conflict. -/
theorem mergeNode_of_agree (overlay base : Nested κ β) (path : List κ)
    (normal : Everywhere (Normal text) overlay) (agree : Agree base overlay) :
    (mergeNode text path base overlay).2 = [] := by
  match overlay with
  | .leaf value =>
      have alike := agree [] _ _ rfl rfl
      cases alike with
      | leaf equal => rw [mergeNode, if_pos equal]
  | .mapping fields =>
      have alike := agree [] _ _ rfl rfl
      cases alike with
      | mapping inner =>
          refine (mergeNode_conflicts_of_mapping normal.here).2 ?_
          intro key value current inOverlay inBase
          have smaller : sizeOf value < 1 + sizeOf fields := by
            have listed := List.sizeOf_lt_of_mem (Keyed.mem_of_lookup inOverlay)
            rw [Prod.mk.sizeOf_spec] at listed
            omega
          exact mergeNode_of_agree value current (path ++ [key]) (normal.child inOverlay)
            (agree.child inBase inOverlay)
termination_by sizeOf overlay

/-- **There is no conflict exactly when all that both have is alike.** -/
theorem mergeNode_conflicts_iff {base overlay : Nested κ β} (path : List κ)
    (normal : Everywhere (Normal text) overlay) :
    (mergeNode text path base overlay).2 = [] ↔ Agree base overlay :=
  ⟨agree_of_mergeNode normal, mergeNode_of_agree overlay base path normal⟩

end Contents

/-! ## The order of a merge -/

section Order

variable [DecidableEq κ] [BEq β] {text : κ → κ}

/-- Below a leaf of one of two trees that agree the other has nothing. -/
theorem Agree.free_left {base overlay node : Nested κ β} (agree : Agree base overlay)
    {place : List κ} (found : at? place overlay = some node) (absent : at? place base = none) :
    ∀ before, before <+: place → ∀ value, at? before base ≠ some (.leaf value) := by
  rintro before ⟨rest, rfl⟩ value leaf
  rw [at?_append] at found
  obtain ⟨other, reached, deeper⟩ := Option.bind_eq_some_iff.1 found
  cases agree before _ _ leaf reached with
  | leaf equal =>
      cases rest with
      | nil =>
          rw [List.append_nil, leaf] at absent
          cases absent
      | cons key rest => cases deeper

theorem Agree.free_right {base overlay node : Nested κ β} (agree : Agree base overlay)
    {place : List κ} (found : at? place base = some node) (absent : at? place overlay = none) :
    ∀ before, before <+: place → ∀ value, at? before overlay ≠ some (.leaf value) := by
  rintro before ⟨rest, rfl⟩ value leaf
  rw [at?_append] at found
  obtain ⟨other, reached, deeper⟩ := Option.bind_eq_some_iff.1 found
  cases agree before _ _ reached leaf with
  | leaf equal =>
      cases rest with
      | nil =>
          rw [List.append_nil, leaf] at absent
          cases absent
      | cons key rest => cases deeper

omit [DecidableEq κ] in
theorem Kept.matches_of_alike {one other first second : Nested κ β} (left : Kept one first)
    (right : Kept other second) (alike : Alike one other) : Matches first second := by
  cases alike with
  | leaf equal =>
      obtain rfl := left.leaf
      obtain rfl := right.leaf
      exact .inr (.leaf equal)
  | mapping first second =>
      rcases left with rfl | ⟨-, _, -, rfl⟩
      · rcases right with rfl | ⟨-, _, -, rfl⟩
        · exact .inr (.mapping _ _)
        · exact .inr (.mapping _ _)
      · rcases right with rfl | ⟨-, _, -, rfl⟩
        · exact .inr (.mapping _ _)
        · exact .inr (.mapping _ _)

omit [DecidableEq κ] in
theorem Kept.matches {one first second : Nested κ β} (left : Kept one first)
    (right : Kept one second) : Matches first second := by
  rcases left with rfl | ⟨inner, _, rfl, rfl⟩
  · rcases right with rfl | ⟨_, _, rfl, rfl⟩
    · exact .inl rfl
    · exact .inr (.mapping _ _)
  · rcases right with rfl | ⟨_, _, -, rfl⟩
    · exact .inr (.mapping _ _)
    · exact .inr (.mapping _ _)

/-- **Two trees that agree may be merged in either order.** -/
theorem mergeNode_comm {base overlay : Nested κ β} (normalBase : Everywhere (Normal text) base)
    (normalOverlay : Everywhere (Normal text) overlay) (agree : Agree base overlay)
    (one other : List κ) :
    Same (mergeNode text one base overlay).1 (mergeNode text other overlay base).1 := by
  intro place
  cases inBase : at? place base with
  | some node =>
      obtain ⟨first, reached, kept⟩ := mergeNode_keeps normalOverlay inBase one
      rw [reached]
      cases inOverlay : at? place overlay with
      | some value =>
          obtain ⟨second, arrived, held⟩ := mergeNode_keeps normalBase inOverlay other
          rw [arrived]
          exact .some (kept.matches_of_alike held (agree place node value inBase inOverlay))
      | none =>
          rw [mergeNode_adds normalBase inBase inOverlay (agree.free_right inBase inOverlay) other]
          exact .some (kept.matches (.inl rfl))
  | none =>
      cases inOverlay : at? place overlay with
      | some value =>
          obtain ⟨second, arrived, held⟩ := mergeNode_keeps normalBase inOverlay other
          rw [arrived, mergeNode_adds normalOverlay inOverlay inBase
            (agree.free_left inOverlay inBase) one]
          exact .some (Kept.matches (.inl rfl) held)
      | none =>
          have first : at? place (mergeNode text one base overlay).1 = none := by
            rw [Option.eq_none_iff_forall_ne_some]
            intro node reached
            rw [mergeNode_new normalOverlay reached inBase] at inOverlay
            cases inOverlay
          have second : at? place (mergeNode text other overlay base).1 = none := by
            rw [Option.eq_none_iff_forall_ne_some]
            intro node reached
            rw [mergeNode_new normalBase reached inOverlay] at inBase
            cases inBase
          rw [first, second]
          exact .none

/-! ## Merging many -/

/-- The fields of a merged mapping are normal. -/
theorem mergeFields_normal {path : List κ} {base overlay : List (κ × Nested κ β)}
    (normalBase : Normal text (base.map Prod.fst))
    (normalOverlay : Normal text (overlay.map Prod.fst)) :
    Normal text ((mergeFields text path base overlay).1.map Prod.fst) := by
  constructor
  · clear normalOverlay
    replace normalBase := normalBase.1
    induction overlay generalizing base with
    | nil => exact normalBase
    | cons field overlay ih =>
        obtain ⟨name, value⟩ := field
        rw [mergeFields]
        split
        · exact ih (put_distinct _ _ normalBase)
        · exact ih (put_distinct _ _ normalBase)
  · intro key member
    by_contra strange
    have inBase : base.lookup key = none :=
      lookup_eq_none.2 fun listed => strange (normalBase.2 key listed)
    have inOverlay : overlay.lookup key = none :=
      lookup_eq_none.2 fun listed => strange (normalOverlay.2 key listed)
    refine lookup_eq_none.1 ?_ member
    rw [lookup_mergeFields normalOverlay, inOverlay, Option.elim_none, inBase]

theorem mergeNode_normal {base overlay : Nested κ β} (normalBase : Everywhere (Normal text) base)
    (normalOverlay : Everywhere (Normal text) overlay) (path : List κ) :
    Everywhere (Normal text) (mergeNode text path base overlay).1 := by
  intro place
  induction place generalizing base overlay path with
  | nil =>
      intro fields reached
      cases overlay with
      | leaf value =>
          refine normalBase [] fields ?_
          cases base with
          | leaf old => cases reached
          | mapping inner => exact reached
      | mapping added =>
          cases base with
          | leaf old => cases reached
          | mapping inner =>
              obtain rfl := Nested.mapping.inj (Option.some.inj reached)
              exact mergeFields_normal normalBase.here normalOverlay.here
  | cons key place ih =>
      intro fields reached
      cases base with
      | leaf old =>
          cases overlay with
          | leaf value => cases reached
          | mapping added => cases reached
      | mapping inner =>
          cases overlay with
          | leaf value => exact normalBase (key :: place) fields reached
          | mapping added =>
              rw [mergeNode, at?_mapping, lookup_mergeFields normalOverlay.here] at reached
              cases inOverlay : added.lookup key with
              | none =>
                  rw [inOverlay, Option.elim_none] at reached
                  exact normalBase (key :: place) fields reached
              | some value =>
                  rw [inOverlay, Option.elim_some, Option.bind_some] at reached
                  cases inBase : inner.lookup key with
                  | none =>
                      rw [inBase, Option.elim_none] at reached
                      exact normalOverlay.child inOverlay place fields reached
                  | some child =>
                      rw [inBase, Option.elim_some] at reached
                      exact ih (normalBase.child inBase) (normalOverlay.child inOverlay) _ fields
                        reached

end Order

section Many

variable [DecidableEq κ] [BEq β] {text : κ → κ} {ok : β → Prop}

/-- Overlays merged in their order, and the paths of all conflicts. -/
def mergeAll (text : κ → κ) (base : Nested κ β) (overlays : List (Nested κ β)) :
    Nested κ β × List (List κ) :=
  overlays.foldl (fun result overlay =>
    let merged := mergeNode text [] result.1 overlay
    (merged.1, result.2 ++ merged.2)) (base, [])

/-- Equality of leaves is symmetric and transitive on some leaves. -/
structure PartialEquivalence (ok : β → Prop) : Prop where
  symm : ∀ {one other : β}, ok one → ok other → (one == other) = true → (other == one) = true
  trans : ∀ {one other third : β}, ok one → ok other → ok third → (one == other) = true →
    (other == third) = true → (one == third) = true

/-- A mapping with normal keys, and only such leaves. -/
structure Proper (text : κ → κ) (ok : β → Prop) (node : Nested κ β) : Prop where
  mapping : ∃ fields, node = .mapping fields
  normal : Everywhere (Normal text) node
  leaves : ∀ place value, at? place node = some (.leaf value) → ok value

/-- Two trees agree, whichever is the base. -/
def AgreeBoth (one other : Nested κ β) : Prop :=
  Agree one other ∧ Agree other one

instance : Std.Symm (AgreeBoth : Nested κ β → Nested κ β → Prop) :=
  ⟨fun _ _ agree => ⟨agree.2, agree.1⟩⟩

theorem Agree.symm (equivalence : PartialEquivalence ok) {one other : Nested κ β}
    (properOne : Proper text ok one) (properOther : Proper text ok other)
    (agree : Agree one other) : Agree other one := by
  intro place first second inFirst inSecond
  cases agree place second first inSecond inFirst with
  | leaf equal =>
      exact .leaf (equivalence.symm (properOne.leaves place _ inSecond)
        (properOther.leaves place _ inFirst) equal)
  | mapping fields others => exact .mapping others fields

omit [DecidableEq κ] in
theorem Alike.trans (equivalence : PartialEquivalence ok) {one other third : Nested κ β}
    (first : Alike one other) (okOne : ∀ value, one = .leaf value → ok value)
    (okOther : ∀ value, other = .leaf value → ok value)
    (okThird : ∀ value, third = .leaf value → ok value) (second : Alike other third) :
    Alike one third := by
  cases first with
  | leaf equal =>
      cases second with
      | leaf next =>
          exact .leaf (equivalence.trans (okOne _ rfl) (okOther _ rfl) (okThird _ rfl) equal next)
  | mapping =>
      cases second with
      | mapping => exact .mapping _ _

omit [DecidableEq κ] in
theorem Kept.alike_after {before after other : Nested κ β} (kept : Kept before after)
    (alike : Alike before other) : Alike after other := by
  rcases kept with rfl | ⟨fields, inner, rfl, rfl⟩
  · exact alike
  · cases alike with
    | mapping => exact .mapping _ _

omit [DecidableEq κ] in
theorem Kept.alike_before {before after other : Nested κ β} (kept : Kept before after)
    (alike : Alike after other) : Alike before other := by
  rcases kept with rfl | ⟨fields, inner, rfl, rfl⟩
  · exact alike
  · cases alike with
    | mapping => exact .mapping _ _

/-- A tree holds what some trees have, and nothing else. -/
structure Gathers (text : κ → κ) (ok : β → Prop) (sources : List (Nested κ β))
    (result : Nested κ β) : Prop where
  proper : Proper text ok result
  from_source : ∀ place, place ≠ [] → ∀ node, at? place result = some node →
    ∃ source ∈ sources, ∃ before, at? place source = some before ∧ Kept before node
  complete : ∀ place, ∀ source ∈ sources, (at? place source).isSome → (at? place result).isSome

omit [BEq β] in
theorem Proper.empty : Proper text ok (.mapping [] : Nested κ β) := by
  refine ⟨⟨[], rfl⟩, ?_, ?_⟩
  · refine everywhere_mapping ⟨List.nodup_nil, by simp⟩ ?_
    intro key node found
    cases found
  · intro place value found
    cases place with
    | nil => cases found
    | cons key place => cases found

theorem Proper.merge {base overlay : Nested κ β} (properBase : Proper text ok base)
    (properOverlay : Proper text ok overlay) (path : List κ) :
    Proper text ok (mergeNode text path base overlay).1 := by
  refine ⟨?_, mergeNode_normal properBase.normal properOverlay.normal path, ?_⟩
  · obtain ⟨inner, rfl⟩ := properBase.mapping
    obtain ⟨added, rfl⟩ := properOverlay.mapping
    exact ⟨_, rfl⟩
  · intro place value found
    cases inBase : at? place base with
    | none => exact properOverlay.leaves place value (mergeNode_new properOverlay.normal found inBase)
    | some node =>
        obtain ⟨after, reached, kept⟩ := mergeNode_keeps properOverlay.normal inBase path
        rw [reached] at found
        obtain rfl := Option.some.inj found
        rcases kept with rfl | ⟨-, _, -, mapping⟩
        · exact properBase.leaves place value inBase
        · cases mapping

/-- One more tree is merged without conflict exactly when it agrees with all before. -/
theorem Gathers.quiet_iff (equivalence : PartialEquivalence ok) {sources : List (Nested κ β)}
    {result overlay : Nested κ β} (gathers : Gathers text ok sources result)
    (pairs : sources.Pairwise AgreeBoth) (proper : ∀ source ∈ sources, Proper text ok source)
    (properOverlay : Proper text ok overlay) :
    (mergeNode text [] result overlay).2 = [] ↔ ∀ source ∈ sources, AgreeBoth source overlay := by
  rw [mergeNode_conflicts_iff [] properOverlay.normal]
  constructor
  · intro agree source member
    have forward : Agree source overlay := by
      intro place one other inSource inOverlay
      cases place with
      | nil =>
          obtain ⟨fields, rfl⟩ := (proper source member).mapping
          obtain ⟨others, rfl⟩ := properOverlay.mapping
          obtain rfl := Option.some.inj inSource
          obtain rfl := Option.some.inj inOverlay
          exact .mapping fields others
      | cons key place =>
          have there := gathers.complete (key :: place) source member
            (Option.isSome_iff_exists.2 ⟨one, inSource⟩)
          obtain ⟨node, reached⟩ := Option.isSome_iff_exists.1 there
          obtain ⟨origin, listed, before, arrived, kept⟩ :=
            gathers.from_source _ (List.cons_ne_nil key place) node reached
          have alike := agree _ node other reached inOverlay
          have matched : Matches one before := by
            by_cases same : source = origin
            · subst same
              rw [inSource] at arrived
              exact .inl (Option.some.inj arrived)
            · have both := pairs.forall member listed same
              exact .inr (both.1 _ one before inSource arrived)
          have agreed := kept.alike_before alike
          rcases matched with rfl | first
          · exact agreed
          · exact first.trans equivalence (fun value leaf => (proper source member).leaves _ _
              (leaf ▸ inSource)) (fun value leaf => (proper origin listed).leaves _ _
              (leaf ▸ arrived)) (fun value leaf => properOverlay.leaves _ _ (leaf ▸ inOverlay))
              agreed
    exact ⟨forward, forward.symm equivalence (proper source member) properOverlay⟩
  · intro all place node other reached inOverlay
    cases place with
    | nil =>
        obtain ⟨fields, rfl⟩ := gathers.proper.mapping
        obtain ⟨others, rfl⟩ := properOverlay.mapping
        obtain rfl := Option.some.inj reached
        obtain rfl := Option.some.inj inOverlay
        exact .mapping fields others
    | cons key place =>
        obtain ⟨origin, listed, before, arrived, kept⟩ :=
          gathers.from_source _ (List.cons_ne_nil key place) node reached
        exact kept.alike_after ((all origin listed).1 _ before other arrived inOverlay)

/-- What a tree that agrees with all before adds. -/
theorem Gathers.merge {sources : List (Nested κ β)} {result overlay : Nested κ β}
    (gathers : Gathers text ok sources result) (properOverlay : Proper text ok overlay)
    (quiet : (mergeNode text [] result overlay).2 = []) :
    Gathers text ok (sources ++ [overlay]) (mergeNode text [] result overlay).1 := by
  have agree := agree_of_mergeNode properOverlay.normal quiet
  refine ⟨gathers.proper.merge properOverlay [], ?_, ?_⟩
  · intro place inside node reached
    cases inResult : at? place result with
    | none =>
        exact ⟨overlay, List.mem_append_right _ List.mem_cons_self, node,
          mergeNode_new properOverlay.normal reached inResult, .inl rfl⟩
    | some held =>
        obtain ⟨after, arrived, kept⟩ := mergeNode_keeps properOverlay.normal inResult []
        rw [arrived] at reached
        obtain rfl := Option.some.inj reached
        obtain ⟨source, listed, before, found, first⟩ :=
          gathers.from_source place inside held inResult
        refine ⟨source, List.mem_append_left _ listed, before, found, ?_⟩
        rcases first with rfl | ⟨fields, inner, rfl, rfl⟩
        · exact kept
        · rcases kept with rfl | ⟨_, others, -, rfl⟩
          · exact .inr ⟨_, _, rfl, rfl⟩
          · exact .inr ⟨_, _, rfl, rfl⟩
  · intro place source member there
    rcases List.mem_append.1 member with earlier | last
    · obtain ⟨held, inResult⟩ :=
        Option.isSome_iff_exists.1 (gathers.complete place source earlier there)
      obtain ⟨after, arrived, -⟩ := mergeNode_keeps properOverlay.normal inResult []
      rw [arrived, Option.isSome_some]
    · rw [List.mem_singleton.1 last] at there
      obtain ⟨value, inOverlay⟩ := Option.isSome_iff_exists.1 there
      cases inResult : at? place result with
      | none =>
          rw [mergeNode_adds properOverlay.normal inOverlay inResult
            (agree.free_left inOverlay inResult), Option.isSome_some]
      | some held =>
          obtain ⟨after, arrived, -⟩ := mergeNode_keeps properOverlay.normal inResult []
          rw [arrived, Option.isSome_some]

theorem mergeAll_snoc (base : Nested κ β) (overlays : List (Nested κ β)) (overlay : Nested κ β) :
    mergeAll text base (overlays ++ [overlay]) =
      ((mergeNode text [] (mergeAll text base overlays).1 overlay).1,
        (mergeAll text base overlays).2 ++
          (mergeNode text [] (mergeAll text base overlays).1 overlay).2) := by
  rw [mergeAll, List.foldl_append, List.foldl_cons, List.foldl_nil]
  rfl

/-- **Trees are merged without conflict exactly when any two of them agree**, and then the result
holds what they have. -/
theorem mergeAll_quiet_iff (equivalence : PartialEquivalence ok) {sources : List (Nested κ β)}
    (proper : ∀ source ∈ sources, Proper text ok source) :
    ((mergeAll text (.mapping []) sources).2 = [] ↔ sources.Pairwise AgreeBoth) ∧
      ((mergeAll text (.mapping []) sources).2 = [] →
        Gathers text ok sources (mergeAll text (.mapping []) sources).1) := by
  induction sources using List.reverseRecOn with
  | nil =>
      refine ⟨iff_of_true rfl .nil, fun _ => ⟨.empty, ?_, ?_⟩⟩
      · intro place inside node found
        cases place with
        | nil => exact absurd rfl inside
        | cons key place => cases found
      · intro place source member
        cases member
  | append_singleton sources overlay ih =>
      have properSources : ∀ source ∈ sources, Proper text ok source :=
        fun source member => proper source (List.mem_append_left _ member)
      have properOverlay := proper overlay (List.mem_append_right _ List.mem_cons_self)
      obtain ⟨quiet, gathers⟩ := ih properSources
      rw [mergeAll_snoc, List.append_eq_nil_iff, List.pairwise_append]
      refine ⟨?_, fun both => (gathers both.1).merge properOverlay both.2⟩
      constructor
      · rintro ⟨before, last⟩
        have pairs := quiet.1 before
        have agrees := ((gathers before).quiet_iff equivalence pairs properSources
          properOverlay).1 last
        refine ⟨pairs, List.pairwise_singleton _ _, fun source member other same => ?_⟩
        rw [List.mem_singleton.1 same]
        exact agrees source member
      · rintro ⟨pairs, -, agrees⟩
        have before := quiet.2 pairs
        refine ⟨before, ((gathers before).quiet_iff equivalence pairs properSources
          properOverlay).2 fun source member => ?_⟩
        exact agrees source member overlay List.mem_cons_self

/-- Two trees that hold what the same trees have, which agree, are the same. -/
theorem Gathers.same {sources others : List (Nested κ β)} {one other : Nested κ β}
    (first : Gathers text ok sources one) (second : Gathers text ok others other)
    (sameSources : sources.Perm others) (pairs : sources.Pairwise AgreeBoth) : Same one other := by
  intro place
  cases place with
  | nil =>
      obtain ⟨fields, rfl⟩ := first.proper.mapping
      obtain ⟨inner, rfl⟩ := second.proper.mapping
      exact .some (.inr (.mapping _ _))
  | cons key place =>
      have inside := List.cons_ne_nil key place
      cases inOne : at? (key :: place) one with
      | none =>
          cases inOther : at? (key :: place) other with
          | none => exact .none
          | some node =>
              obtain ⟨source, listed, before, found, -⟩ := second.from_source _ inside node inOther
              have there := first.complete _ source (sameSources.mem_iff.2 listed)
                (Option.isSome_iff_exists.2 ⟨before, found⟩)
              rw [inOne] at there
              cases there
      | some node =>
          obtain ⟨source, listed, before, found, kept⟩ := first.from_source _ inside node inOne
          obtain ⟨held, inOther⟩ := Option.isSome_iff_exists.1 (second.complete _ source
            (sameSources.mem_iff.1 listed) (Option.isSome_iff_exists.2 ⟨before, found⟩))
          obtain ⟨origin, named, earlier, arrived, holds⟩ := second.from_source _ inside held inOther
          rw [inOther]
          refine .some ?_
          by_cases same : source = origin
          · subst same
            rw [found] at arrived
            obtain rfl := Option.some.inj arrived
            exact kept.matches holds
          · have both := pairs.forall listed (sameSources.mem_iff.2 named) same
            exact kept.matches_of_alike holds (both.1 _ before earlier found arrived)

/-- A base may be merged with either of two trees that are the same. -/
theorem mergeNode_same (equivalence : PartialEquivalence ok) {base one other : Nested κ β}
    (properBase : Proper text ok base) (properOne : Proper text ok one)
    (properOther : Proper text ok other) (same : Same one other)
    (agree : Agree base one) (path : List κ) :
    Agree base other ∧ Same (mergeNode text path base one).1 (mergeNode text path base other).1 := by
  have agrees : Agree base other := by
    intro place held node inBase inOther
    have related := same place
    rw [inOther] at related
    generalize inOne : at? place one = found at related
    cases related with
    | some matched =>
        have alike := agree place held _ inBase inOne
        rcases matched with rfl | next
        · exact alike
        · exact alike.trans equivalence
            (fun value leaf => properBase.leaves place value (leaf ▸ inBase))
            (fun value leaf => properOne.leaves place value (leaf ▸ inOne))
            (fun value leaf => properOther.leaves place value (leaf ▸ inOther)) next
  refine ⟨agrees, fun place => ?_⟩
  cases inBase : at? place base with
  | some node =>
      obtain ⟨first, reached, kept⟩ := mergeNode_keeps properOne.normal inBase path
      obtain ⟨second, arrived, holds⟩ := mergeNode_keeps properOther.normal inBase path
      rw [reached, arrived]
      exact .some (kept.matches holds)
  | none =>
      have copied : ∀ overlay, Proper text ok overlay → Agree base overlay →
          at? place (mergeNode text path base overlay).1 = at? place overlay := by
        intro overlay proper agree
        cases inOverlay : at? place overlay with
        | some value =>
            exact mergeNode_adds proper.normal inOverlay inBase (agree.free_left inOverlay inBase)
              path
        | none =>
            rw [Option.eq_none_iff_forall_ne_some]
            intro node reached
            rw [mergeNode_new proper.normal reached inBase] at inOverlay
            cases inOverlay
      rw [copied one properOne agree, copied other properOther agrees]
      exact same place

end Many

end Nested

end HomeclusterInfra
