import Mathlib.Data.List.Infix

/-!
# Paths through mounted filesystems

A filesystem is mounted at a location of another one, the location its path
leads to at that moment. A path is resolved one name after the other: wherever
something is mounted at the present location, resolution goes on in that
filesystem, and in what is mounted over it in turn. So a filesystem hides what
was mounted before it at its location and below.

Resolution ends in the filesystem that was mounted last among all those whose
mount point lies on the path.
-/

set_option autoImplicit false

namespace HomeclusterInfra.MountTree

variable {ν : Type} [DecidableEq ν]

/-! ## Mounting and resolving -/

/-- How a filesystem is attached: the position of the one it is mounted in, none
for the first of all, and the location. -/
structure Attached (ν : Type) where
  parent : Option Nat
  point : List ν

/-- The filesystems in the order they were mounted. -/
abbrev Table (ν : Type) := List (Attached ν)

/-- What is mounted at a location of a filesystem. -/
def child (table : Table ν) (parent : Nat) (location : List ν) : Option Nat :=
  table.findIdx? fun entry => decide (entry.parent = some parent ∧ entry.point = location)

/-- Go into what is mounted at a location, and into what is mounted over that,
at most so many times. -/
def enter (table : Table ν) : Nat → Nat → List ν → Nat
  | 0, mount, _ => mount
  | fuel + 1, mount, location =>
      match child table mount location with
      | none => mount
      | some above => enter table fuel above location

/-- Resolve the rest of a path from a location of a filesystem on. -/
def walk (table : Table ν) : Nat → List ν → List ν → Nat
  | mount, location, [] => enter table table.length mount location
  | mount, location, name :: rest =>
      walk table (enter table table.length mount location) (location ++ [name]) rest

/-- The position of the filesystem that a path leads to. -/
def reached (table : Table ν) (path : List ν) : Nat :=
  walk table 0 [] path

/-- Mount one more filesystem. -/
def attach (table : Table ν) (point : List ν) : Table ν :=
  table ++ [⟨if table.isEmpty then none else some (reached table point), point⟩]

/-- Mount filesystems one after the other. -/
def mountAll (points : List (List ν)) : Table ν :=
  points.foldl attach []

/-- Where a path leads among filesystems that were mounted in their order. -/
def reachedMount {μ : Type} (point : μ → List ν) (mounts : List μ) (path : List ν) : Option μ :=
  mounts[reached (mountAll (mounts.map point)) path]?

/-! ## Going into what is mounted -/

/-- Each filesystem is mounted in an earlier one. -/
def Ordered (table : Table ν) : Prop :=
  ∀ (index : Nat) (entry : Attached ν), table[index]? = some entry →
    ∀ parent, entry.parent = some parent → parent < index

variable {table : Table ν} {mount above fuel : Nat} {location point path : List ν}

theorem child_bounds (ordered : Ordered table) (found : child table mount location = some above) :
    mount < above ∧ above < table.length := by
  rw [child, List.findIdx?_eq_some_iff_getElem] at found
  obtain ⟨inside, holds, -⟩ := found
  refine ⟨ordered above _ (List.getElem?_eq_getElem inside) mount ?_, inside⟩
  exact (of_decide_eq_true holds).1

theorem child_length (ordered : Ordered table) : child table table.length location = none := by
  cases found : child table table.length location with
  | none => rfl
  | some above =>
      have bounds := child_bounds ordered found
      omega

theorem enter_of_none (none : child table mount location = none) :
    enter table fuel mount location = mount := by
  cases fuel with
  | zero => rfl
  | succ fuel => simp only [enter, none]

theorem enter_of_some (found : child table mount location = some above) :
    enter table (fuel + 1) mount location = enter table fuel above location := by
  simp only [enter, found]

theorem enter_lt (ordered : Ordered table) (inside : mount < table.length) :
    enter table fuel mount location < table.length := by
  induction fuel generalizing mount with
  | zero => exact inside
  | succ fuel ih =>
      cases found : child table mount location with
      | none =>
          rw [enter_of_none found]
          exact inside
      | some above =>
          rw [enter_of_some found]
          exact ih (child_bounds ordered found).2

/-- The positions ascend, so as many steps as there are filesystems are enough. -/
theorem enter_enough (ordered : Ordered table) (inside : mount < table.length)
    (enough : table.length ≤ fuel + mount) :
    enter table (fuel + 1) mount location = enter table fuel mount location := by
  induction fuel generalizing mount with
  | zero => omega
  | succ fuel ih =>
      cases found : child table mount location with
      | none => rw [enter_of_none found, enter_of_none found]
      | some above =>
          have bounds := child_bounds ordered found
          rw [enter_of_some found, enter_of_some found, ih bounds.2 (by omega)]

/-! ## One more filesystem -/

theorem length_attach : (attach table point).length = table.length + 1 :=
  List.length_append

theorem enter_congr {other : Table ν} (same : ∀ mount, child other mount location =
    child table mount location) : enter other fuel mount location =
      enter table fuel mount location := by
  induction fuel generalizing mount with
  | zero => rfl
  | succ fuel ih =>
      rw [enter, enter, same]
      cases child table mount location with
      | none => rfl
      | some above => exact ih

theorem walk_lt (ordered : Ordered table) (inside : mount < table.length) :
    walk table mount location path < table.length := by
  induction path generalizing mount location with
  | nil => exact enter_lt ordered inside
  | cons name rest ih => exact ih (enter_lt ordered inside)

theorem Ordered.attach (ordered : Ordered table) : Ordered (attach table point) := by
  intro index entry found parent isParent
  rw [MountTree.attach] at found
  rcases Nat.lt_or_ge index table.length with old | new
  · rw [List.getElem?_append_left old] at found
    exact ordered index entry found parent isParent
  · rw [List.getElem?_append_right new, List.getElem?_singleton] at found
    split at found
    · next last =>
        cases found
        split at isParent
        · cases isParent
        · next nonempty =>
            cases isParent
            have inside : 0 < table.length := by
              rw [List.isEmpty_iff] at nonempty
              exact List.length_pos_of_ne_nil nonempty
            have bound := @walk_lt ν _ table 0 [] point ordered inside
            rw [reached]
            omega
    · cases found

variable (nonempty : table ≠ [])

include nonempty

theorem child_attach : child (attach table point) mount location =
    (child table mount location).or
      (if reached table point = mount ∧ point = location then some table.length else none) := by
  have isEmpty : table.isEmpty = false := List.isEmpty_eq_false_iff.mpr nonempty
  rw [child, attach, isEmpty, List.findIdx?_append]
  congr 1
  rw [List.findIdx?_singleton]
  by_cases same : reached table point = mount ∧ point = location
  · simp [same]
  · simp [same]

/-- Elsewhere nothing changes. -/
theorem enter_attach_of_ne (ordered : Ordered table) (inside : mount < table.length)
    (elsewhere : location ≠ point) :
    enter (attach table point) (attach table point).length mount location =
      enter table table.length mount location := by
  have same : ∀ mount, child (attach table point) mount location = child table mount location := by
    intro mount
    rw [child_attach nonempty, if_neg fun both => elsewhere both.2.symm, Option.or_none]
  rw [enter_congr same, length_attach, enter_enough ordered inside (by omega)]

/-- At its point, resolution goes into the new filesystem. -/
theorem enter_attach_point (ordered : Ordered table) (inside : mount < table.length)
    (enough : table.length ≤ fuel + mount)
    (onTop : enter table fuel mount point = reached table point) :
    enter (attach table point) (fuel + 1) mount point = table.length := by
  induction fuel generalizing mount with
  | zero => omega
  | succ fuel ih =>
      cases found : child table mount point with
      | none =>
          rw [enter_of_none found] at onTop
          have entered : child (attach table point) mount point = some table.length := by
            rw [child_attach nonempty, found, if_pos ⟨onTop.symm, rfl⟩]
            rfl
          have topmost : child (attach table point) table.length point = none := by
            have bound : reached table point < table.length :=
              walk_lt ordered (List.length_pos_of_ne_nil nonempty)
            rw [child_attach nonempty, child_length ordered, if_neg (by omega)]
            rfl
          rw [enter_of_some entered, enter_of_none topmost]
      | some above =>
          have bounds := child_bounds ordered found
          rw [enter_of_some found] at onTop
          have entered : child (attach table point) mount point = some above := by
            rw [child_attach nonempty, found]
            rfl
          rw [enter_of_some entered]
          exact ih bounds.2 (by omega) onTop

/-- A path that does not come past the point leads where it led before. -/
theorem walk_attach_of_not_past (ordered : Ordered table) (inside : mount < table.length)
    (notPast : ∀ first, first <+: path → location ++ first ≠ point) :
    walk (attach table point) mount location path = walk table mount location path := by
  have here : location ≠ point := by
    have first := notPast [] (List.nil_prefix)
    rwa [List.append_nil] at first
  induction path generalizing mount location with
  | nil => exact enter_attach_of_ne nonempty ordered inside here
  | cons name rest ih =>
      have further : ∀ first, first <+: rest → (location ++ [name]) ++ first ≠ point := by
        intro first prefixed
        rw [List.append_assoc]
        exact notPast (name :: first) (List.cons_prefix_cons.mpr ⟨rfl, prefixed⟩)
      have next : location ++ [name] ≠ point := by
        have first := further [] List.nil_prefix
        rwa [List.append_nil] at first
      rw [walk, walk, enter_attach_of_ne nonempty ordered inside here,
        ih (enter_lt ordered inside) further next]

/-- Nothing is mounted in the new filesystem yet. -/
theorem walk_attach_new (ordered : Ordered table) :
    walk (attach table point) table.length location path = table.length := by
  have bound : reached table point < table.length :=
    walk_lt ordered (List.length_pos_of_ne_nil nonempty)
  have nothing : ∀ location, child (attach table point) table.length location = none := by
    intro location
    rw [child_attach nonempty, child_length ordered, if_neg (by omega)]
    rfl
  induction path generalizing location with
  | nil => exact enter_of_none (nothing location)
  | cons name rest ih =>
      rw [walk, enter_of_none (nothing location)]
      exact ih

omit nonempty in
theorem walk_append (table : Table ν) (first : List ν) (name : ν) (rest : List ν) :
    walk table mount location (first ++ name :: rest) =
      walk table (walk table mount location first) (location ++ first ++ [name]) rest := by
  induction first generalizing mount location with
  | nil => rw [List.nil_append, walk, walk, List.append_nil]
  | cons other first ih =>
      rw [List.cons_append, walk, walk, ih, List.append_assoc location, List.singleton_append]

/-- The point of the new filesystem leads to it. -/
theorem reached_attach_point (ordered : Ordered table) :
    reached (attach table point) point = table.length := by
  have positive : 0 < table.length := List.length_pos_of_ne_nil nonempty
  rcases List.eq_nil_or_concat point with rfl | ⟨first, name, split⟩
  · rw [reached, walk, length_attach]
    exact enter_attach_point nonempty ordered positive (by omega) rfl
  · rw [List.concat_eq_append] at split
    subst split
    have before : walk (attach table (first ++ [name])) 0 [] first = walk table 0 [] first := by
      refine walk_attach_of_not_past nonempty ordered positive fun shorter prefixed same => ?_
      have length := prefixed.length_le
      rw [List.nil_append] at same
      rw [same, List.length_append, List.length_singleton] at length
      omega
    have onTop : enter table table.length (walk table 0 [] first) (first ++ [name]) =
        reached table (first ++ [name]) := by
      rw [reached, walk_append, List.nil_append, walk]
    rw [reached, walk_append, before, List.nil_append, walk, length_attach]
    exact enter_attach_point nonempty ordered (walk_lt ordered positive) (by omega) onTop

/-- **A path leads to the new filesystem exactly when its point lies on the
path**, and where it led before otherwise. -/
theorem reached_attach (ordered : Ordered table) :
    reached (attach table point) path =
      if point <+: path then table.length else reached table path := by
  have positive : 0 < table.length := List.length_pos_of_ne_nil nonempty
  split
  · next onPath =>
      obtain ⟨rest, rfl⟩ := onPath
      have arrived : reached (attach table point) point = table.length :=
        reached_attach_point nonempty ordered
      cases rest with
      | nil => rwa [List.append_nil]
      | cons name rest =>
          rw [reached] at arrived
          rw [reached, walk_append, arrived, walk_attach_new nonempty ordered]
  · next apart =>
      refine walk_attach_of_not_past nonempty ordered positive fun first prefixed same => ?_
      rw [List.nil_append] at same
      exact apart (same ▸ prefixed)

omit nonempty

/-! ## All filesystems -/

theorem mountAll_append (points : List (List ν)) :
    mountAll (points ++ [point]) = attach (mountAll points) point :=
  List.foldl_append

theorem length_mountAll (points : List (List ν)) : (mountAll points).length = points.length := by
  induction points using List.reverseRecOn with
  | nil => rfl
  | append_singleton points point ih => rw [mountAll_append, length_attach, ih, List.length_append,
      List.length_singleton]

theorem ordered_mountAll (points : List (List ν)) : Ordered (mountAll points) := by
  induction points using List.reverseRecOn with
  | nil =>
      intro index entry found
      cases found
  | append_singleton points point ih =>
      rw [mountAll_append]
      exact ih.attach

/-- With the root alone, every path stays in it. -/
theorem reached_root : reached (mountAll [([] : List ν)]) path = 0 := by
  have nothing : ∀ location, child (mountAll [([] : List ν)]) 0 location = none :=
    fun location => rfl
  suffices stays : ∀ location, walk (mountAll [([] : List ν)]) 0 location path = 0 from stays []
  induction path with
  | nil => exact fun location => enter_of_none (nothing location)
  | cons name rest ih =>
      intro location
      rw [walk, enter_of_none (nothing location)]
      exact ih _

/-- **A path leads to the filesystem mounted last** among those whose mount
point lies on it, if the first filesystem is the root. -/
theorem reachedMount_eq {μ : Type} {point : μ → List ν} {mounts : List μ}
    (rooted : mounts.head?.map point = some []) (path : List ν) :
    reachedMount point mounts path =
      (mounts.filter fun mount => decide (point mount <+: path)).getLast? := by
  induction mounts using List.reverseRecOn with
  | nil => cases rooted
  | append_singleton mounts mount ih =>
      rw [reachedMount, List.map_append, List.map_singleton, List.filter_append]
      cases mounts with
      | nil =>
          have root : point mount = [] := Option.some.inj rooted
          have onPath : decide (point mount <+: path) = true := by
            rw [root]
            exact decide_eq_true List.nil_prefix
          rw [List.map_nil, List.nil_append, List.nil_append, root, reached_root,
            List.filter_nil, List.filter_singleton, onPath]
          rfl
      | cons first mounts =>
          have nonempty : mountAll ((first :: mounts).map point) ≠ [] := by
            refine List.ne_nil_of_length_pos ?_
            rw [length_mountAll]
            exact Nat.succ_pos _
          have before := ih rooted
          rw [reachedMount] at before
          rw [mountAll_append, reached_attach nonempty (ordered_mountAll _), length_mountAll,
            List.length_map, List.filter_singleton]
          by_cases onPath : point mount <+: path
          · rw [if_pos onPath, List.getElem?_concat_length, decide_eq_true onPath, cond_true,
              List.getLast?_concat]
          · have inside : reached (mountAll ((first :: mounts).map point)) path <
                (first :: mounts).length := by
              have bound := @walk_lt ν _ (mountAll ((first :: mounts).map point)) 0 [] path
                (ordered_mountAll _) (List.length_pos_of_ne_nil nonempty)
              rwa [length_mountAll, List.length_map] at bound
            rw [if_neg onPath, List.getElem?_append_left inside, before, decide_eq_false onPath,
              cond_false, List.append_nil]

end HomeclusterInfra.MountTree
