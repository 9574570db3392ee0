import HomeclusterInfra.PxeReceipt.Fingerprint

/-!
# The budgets of a fingerprint

A walk that ends has visited the listing of the tree, and what it reports is what
the entries of the listing add up to. It ends exactly when the entries fit into
the budgets: the checks that the walk makes early never refuse a tree that fits.
-/

set_option autoImplicit false

namespace HomeclusterInfra.PxeReceipt

open Text JsonText NamedTree

/-! ## Trees of files -/

/-- Only directories have entries. -/
inductive OnlyDirectories : Files → Prop where
  | node {inode : Inode} {children : List (FileName × Files)}
      (leaf : children ≠ [] → inode.kind.isDirectory = true)
      (inside : ∀ entry ∈ children, OnlyDirectories entry.2) :
      OnlyDirectories (.node inode children)

/-- A tree of files below a directory. -/
structure FileTree where
  files : Files
  distinct : files.Distinct
  onlyDirectories : OnlyDirectories files
  /-- The root is a directory. -/
  rooted : ∀ inode, files.Has [] inode → inode.kind.isDirectory = true
  /-- An attribute is listed once. -/
  attributes : ∀ path inode, files.Has path inode → (inode.xattrs.map Prod.fst).Nodup
  /-- A file that has two paths has more than one link. -/
  linked : ∀ path path' inode inode', files.Has path inode → files.Has path' inode' →
    inode.kind.isRegular = true → inode'.kind.isRegular = true → inode.file = inode'.file →
    path ≠ path' → 1 < inode.links

/-- All paths of a tree with their files. -/
def FileTree.entries (tree : FileTree) : List Entry :=
  tree.files.listing

/-- The bytes of the regular files of a list, each link with the size of its file. -/
def totalSize (entries : List Entry) : Nat :=
  (entries.map fun entry => entry.2.kind.size).sum

/-- The extended attributes of a file are within their limits. -/
def AttributesWithin (inode : Inode) : Prop :=
  inode.xattrs.length ≤ 64 ∧ (inode.xattrs.map fun entry => entry.2.length).sum ≤ 262144

/-- A file of a supported type whose attributes are within their limits. -/
structure Measurable (inode : Inode) : Prop where
  supported : inode.kind.isSupported = true
  attributes : AttributesWithin inode

/-! ## Attributes -/

theorem attributesFit_iff (size : Nat) (xattrs : List (List UInt8 × List UInt8))
    (started : size ≤ 262144) : attributesFit size xattrs = true ↔
      size + (xattrs.map fun entry => entry.2.length).sum ≤ 262144 := by
  induction xattrs generalizing size with
  | nil => simp [attributesFit, started]
  | cons entry xattrs ih =>
      obtain ⟨name, value⟩ := entry
      rw [attributesFit, Bool.and_eq_true, decide_eq_true_eq, List.map_cons, List.sum_cons]
      constructor
      · rintro ⟨fits, rest⟩
        have whole := (ih _ fits).mp rest
        simp only
        omega
      · intro whole
        simp only at whole
        exact ⟨by omega, (ih _ (by omega)).mpr (by omega)⟩

/-- The record of the attributes, in the order of their names. -/
def attributeRecord (xattrs : List (List UInt8 × List UInt8)) : Json :=
  .arr ((sortedByKey xattrs).map fun entry => .arr [.str (hexText entry.1), .str (hexText entry.2)])

theorem attributes_eq_some {inode : Inode} {value : Json} :
    attributes inode.xattrs = some value ↔
      AttributesWithin inode ∧ attributeRecord inode.xattrs = value := by
  have total : ((sortedByKey inode.xattrs).map fun entry => entry.2.length).sum =
      (inode.xattrs.map fun entry => entry.2.length).sum :=
    ((sortedByKey_perm inode.xattrs).map _).sum_eq
  unfold attributes AttributesWithin
  simp only [length_sortedByKey, Option.ite_none_left_eq_some, not_lt, Option.ite_none_right_eq_some,
    attributesFit_iff 0 _ (Nat.zero_le _), total, Nat.zero_add, Option.some.injEq, and_assoc]
  rfl

/-! ## What an entry adds -/

section Walk

variable (sha256 : List UInt8 → List Char)

/-- The record of an entry, after the links that were met. -/
def recordAfter (links : List ((Nat × Nat) × List Char)) (entry : Entry) : Json :=
  record sha256 (relativePath entry.1) entry.2 (attributeRecord entry.2.xattrs)
    (links.lookup entry.2.file)

/-- What the visits share after one entry more. -/
def Progress.add (progress : Progress) (entry : Entry) : Progress where
  entries := progress.entries + 1
  regularBytes := progress.regularBytes + entry.2.kind.size
  links := linksAfter progress.links (relativePath entry.1) entry.2
  stream := progress.stream ++ encoded (recordAfter sha256 progress.links entry)

variable {sha256}

@[simp] theorem entries_addAll (progress : Progress) (entries : List Entry) :
    (entries.foldl (Progress.add sha256) progress).entries = progress.entries + entries.length := by
  induction entries generalizing progress with
  | nil => rfl
  | cons entry entries ih =>
      rw [List.foldl_cons, ih, List.length_cons]
      simp only [Progress.add]
      omega

@[simp] theorem regularBytes_addAll (progress : Progress) (entries : List Entry) :
    (entries.foldl (Progress.add sha256) progress).regularBytes =
      progress.regularBytes + totalSize entries := by
  induction entries generalizing progress with
  | nil => rfl
  | cons entry entries ih =>
      rw [List.foldl_cons, ih, totalSize, totalSize, List.map_cons, List.sum_cons]
      simp only [Progress.add]
      omega

/-- What a visit checks of an entry alone. -/
structure Admissible (entry : Entry) : Prop where
  measurable : Measurable entry.2
  depth : entry.1.length ≤ 128
  rooted : entry.1 = [] → entry.2.kind.isDirectory = true

/-- What a visit of a list of entries needs, and what it comes to. -/
structure Visited (sha256 : List UInt8 → List Char) (limits : Limits) (entries : List Entry)
    (progress after : Progress) : Prop where
  admissible : ∀ entry ∈ entries, Admissible entry
  count : progress.entries + entries.length ≤ limits.maxEntries
  bytes : progress.regularBytes + totalSize entries ≤ limits.maxBytes
  after : entries.foldl (Progress.add sha256) progress = after

theorem relativePath_append (path : List FileName) (name : FileName) :
    relativePath (path ++ [name]) = childPath (relativePath path) name := by
  rw [relativePath, List.foldl_append]
  rfl

theorem childPath_ne_nil (relative : List UInt8) (name : FileName) :
    childPath relative name ≠ [] := by
  intro empty
  exact name.nonempty (List.append_eq_nil_iff.mp empty).2

theorem relativePath_eq_nil {path : List FileName} : relativePath path = [] ↔ path = [] := by
  constructor
  · intro empty
    rcases List.eq_nil_or_concat' path with nil | ⟨before, name, rfl⟩
    · exact nil
    · rw [relativePath_append] at empty
      exact absurd empty (childPath_ne_nil _ _)
  · rintro rfl
    rfl

/-- **The spec of `enter`**: it lets an entry through and adds it. -/
theorem enter_eq_some {limits : Limits} {path : List FileName} {inode : Inode}
    {progress after : Progress} (within : progress.regularBytes ≤ limits.maxBytes) :
    enter sha256 limits (relativePath path) path.length inode progress = some after ↔
      Visited sha256 limits [(path, inode)] progress after := by
  have size : totalSize [(path, inode)] = inode.kind.size := Nat.add_zero _
  have empty : (relativePath path).isEmpty = true ↔ path = [] := by
    rw [List.isEmpty_iff, relativePath_eq_nil]
  unfold enter
  simp only [Option.ite_none_left_eq_some, Option.bind_eq_some_iff, attributes_eq_some,
    Bool.or_eq_true, decide_eq_true_eq, not_or, not_lt, Bool.and_eq_true, Bool.not_eq_true',
    Bool.not_eq_false, Option.some.injEq, empty]
  constructor
  · rintro ⟨⟨count, depth⟩, rooted, xattrs, ⟨attributes, rfl⟩, supported, bytes, rfl⟩
    refine ⟨?_, count, ?_, rfl⟩
    · rw [List.forall_mem_singleton]
      refine ⟨⟨supported, attributes⟩, depth, fun root => ?_⟩
      cases directory : inode.kind.isDirectory with
      | true => rfl
      | false => exact absurd ⟨root, directory⟩ rooted
    · rw [size]
      cases regular : inode.kind with
      | regular content =>
          rw [regular] at bytes
          exact Nat.le_of_not_lt fun above => bytes ⟨rfl, above⟩
      | directory | symlink | fifo | character | block | socket => exact within
  · rintro ⟨admissible, count, bytes, rfl⟩
    rw [List.forall_mem_singleton] at admissible
    rw [size] at bytes
    refine ⟨⟨count, admissible.depth⟩, fun both => ?_, _, ⟨admissible.measurable.attributes, rfl⟩,
      admissible.measurable.supported, fun both => absurd both.2 (Nat.not_lt.mpr bytes), rfl⟩
    rw [admissible.rooted both.1] at both
    exact absurd both.2 (by decide)

/-! ## What a visit adds -/

/-- Entries seen from further up. -/
def below (path : List FileName) (entries : List Entry) : List Entry :=
  entries.map fun entry => (path ++ entry.1, entry.2)

theorem totalSize_append (entries later : List Entry) :
    totalSize (entries ++ later) = totalSize entries + totalSize later := by
  rw [totalSize, List.map_append, List.sum_append, totalSize, totalSize]

section Visits

variable {limits : Limits} {progress after : Progress}

theorem visited_nil (count : progress.entries ≤ limits.maxEntries)
    (bytes : progress.regularBytes ≤ limits.maxBytes) :
    Visited sha256 limits [] progress after ↔ progress = after := by
  constructor
  · exact fun visited => visited.after
  · rintro rfl
    exact ⟨fun _ member => absurd member List.not_mem_nil, count, bytes, rfl⟩

theorem visited_append {entries later : List Entry} :
    Visited sha256 limits (entries ++ later) progress after ↔
      ∃ between, Visited sha256 limits entries progress between ∧
        Visited sha256 limits later between after := by
  constructor
  · rintro ⟨admissible, count, bytes, rfl⟩
    rw [List.length_append] at count
    rw [totalSize_append] at bytes
    refine ⟨_, ⟨fun entry member => admissible entry (List.mem_append_left _ member), by omega,
      by omega, rfl⟩, fun entry member => admissible entry (List.mem_append_right _ member), ?_, ?_,
      List.foldl_append.symm⟩
    · rw [entries_addAll]
      omega
    · rw [regularBytes_addAll]
      omega
  · rintro ⟨_, ⟨admissible, count, bytes, rfl⟩, admissible', count', bytes', rfl⟩
    rw [entries_addAll] at count'
    rw [regularBytes_addAll] at bytes'
    refine ⟨fun entry member => ?_, ?_, ?_, List.foldl_append⟩
    · rcases List.mem_append.mp member with first | second
      · exact admissible entry first
      · exact admissible' entry second
    · rw [List.length_append]
      omega
    · rw [totalSize_append]
      omega

theorem visitors_eq (children : List (FileName × Files)) :
    visitors sha256 limits children =
      children.map fun entry => (entry.1, visit sha256 limits entry.2) := by
  induction children with
  | nil => rfl
  | cons entry children ih => rw [visitors, ih, List.map_cons]

theorem below_listing (path : List FileName) (inode : Inode) (children : List (FileName × Files)) :
    below path (listing (.node inode children)) = (path, inode) ::
      (sortedByKey children).flatMap fun entry => below (path ++ [entry.1]) entry.2.listing := by
  rw [listing_node, below, List.map_cons, List.append_nil, List.map_flatMap]
  refine congrArg _ (List.flatMap_congr fun entry _ => ?_)
  rw [below, List.map_map]
  refine List.map_congr_left fun inner _ => ?_
  rw [Function.comp, under, List.append_assoc, List.singleton_append]

/-- A tree has at least one entry. -/
theorem one_le_length_listing (files : Files) : 1 ≤ files.listing.length := by
  cases files
  rw [listing_node, List.length_cons]
  omega

theorem length_le_of_flatMap (path : List FileName) (children : List (FileName × Files)) :
    children.length ≤ (children.flatMap fun entry =>
      below (path ++ [entry.1]) entry.2.listing).length := by
  induction children with
  | nil => exact Nat.zero_le _
  | cons entry children ih =>
      have one := one_le_length_listing entry.2
      rw [List.flatMap_cons, List.length_append, List.length_cons, below, List.length_map]
      omega

/-- The loop over the entries of a directory, where each visit has its spec. -/
theorem visitNames_eq_some {path : List FileName} {children : List (FileName × Files)}
    (spec : ∀ entry ∈ children, ∀ (path : List FileName) (progress after : Progress),
      progress.entries ≤ limits.maxEntries → progress.regularBytes ≤ limits.maxBytes →
        (visit sha256 limits entry.2 (relativePath path) path.length progress = some after ↔
          Visited sha256 limits (below path entry.2.listing) progress after)) :
    ∀ {progress : Progress}, progress.entries ≤ limits.maxEntries →
      progress.regularBytes ≤ limits.maxBytes →
      (visitNames (relativePath path) path.length
          (children.map fun entry => (entry.1, visit sha256 limits entry.2)) progress =
            some after ↔
        Visited sha256 limits (children.flatMap fun entry =>
          below (path ++ [entry.1]) entry.2.listing) progress after) := by
  induction children with
  | nil =>
      intro progress count bytes
      rw [List.flatMap_nil, visited_nil count bytes, List.map_nil, visitNames, Option.some.injEq]
  | cons entry children ih =>
      rw [List.forall_mem_cons] at spec
      intro progress count bytes
      have first := spec.1 (path ++ [entry.1])
      rw [relativePath_append, List.length_append, List.length_singleton] at first
      rw [List.map_cons, visitNames, Option.bind_eq_some_iff, List.flatMap_cons, visited_append]
      refine exists_congr fun between => ?_
      rw [first progress between count bytes]
      refine and_congr_right fun visited => ?_
      have counted := visited.count
      have sized := visited.bytes
      rw [← @entries_addAll sha256, visited.after] at counted
      rw [← @regularBytes_addAll sha256, visited.after] at sized
      exact ih spec.2 counted sized

/-- **The spec of `visit`**: it adds the listing of the tree, or refuses it. -/
theorem visit_eq_some {files : Files} (onlyDirectories : OnlyDirectories files) :
    ∀ (path : List FileName) (progress after : Progress),
      progress.entries ≤ limits.maxEntries → progress.regularBytes ≤ limits.maxBytes →
        (visit sha256 limits files (relativePath path) path.length progress = some after ↔
          Visited sha256 limits (below path files.listing) progress after) := by
  induction onlyDirectories with
  | @node inode children leaf _ ih =>
      intro path progress after count bytes
      rw [below_listing, ← List.singleton_append, visited_append]
      simp only [visit, Option.bind_eq_some_iff]
      refine exists_congr fun between => ?_
      rw [enter_eq_some bytes]
      refine and_congr_right fun visited => ?_
      have counted := visited.count
      have sized := visited.bytes
      rw [← @entries_addAll sha256, visited.after] at counted
      rw [← @regularBytes_addAll sha256, visited.after] at sized
      cases directory : inode.kind.isDirectory with
      | false =>
          have empty : children = [] := by
            by_contra some
            rw [leaf some] at directory
            cases directory
          subst empty
          rw [if_neg Bool.false_ne_true, Option.some.injEq]
          exact (visited_nil counted sized).symm
      | true =>
          rw [if_pos rfl, visitors_eq, sortedByKey_map, List.length_map,
            Option.ite_none_left_eq_some, not_lt,
            visitNames_eq_some (fun entry member => ih entry (mem_sortedByKey.mp member))
              counted sized]
          constructor
          · exact And.right
          · intro rest
            have whole := rest.count
            have more := length_le_of_flatMap path (sortedByKey children)
            exact ⟨by omega, rest⟩

end Visits

/-! ## What a walk reports -/

/-- The progress before a walk. -/
def start : Progress :=
  ⟨0, 0, [], []⟩

/-- **The spec of `_walk`**: the tree fits, and the report is what its entries add up to. -/
theorem walk_eq_some {limits : Limits} {tree : FileTree} {measured : Measured} :
    walk sha256 limits tree.files = some measured ↔
      (∀ entry ∈ tree.entries, Admissible entry) ∧ tree.entries.length ≤ limits.maxEntries ∧
        totalSize tree.entries ≤ limits.maxBytes ∧
        measured = ⟨sha256 (treeDomain ++
          (tree.entries.foldl (Progress.add sha256) start).stream), tree.entries.length,
          totalSize tree.entries⟩ := by
  have spec := fun after => @visit_eq_some sha256 limits _
    tree.onlyDirectories [] start after (Nat.zero_le _) (Nat.zero_le _)
  have same : below [] tree.files.listing = tree.entries := by
    rw [below]
    simp only [List.nil_append, Prod.mk.eta, List.map_id']
    rfl
  rw [same] at spec
  unfold walk
  rw [Option.map_eq_some_iff]
  constructor
  · rintro ⟨after, visited, rfl⟩
    obtain ⟨admissible, count, bytes, rfl⟩ := (spec after).mp visited
    rw [start] at count bytes
    simp only [Nat.zero_add] at count bytes
    refine ⟨admissible, count, bytes, ?_⟩
    rw [entries_addAll, regularBytes_addAll]
    simp only [start, Nat.zero_add]
  · rintro ⟨admissible, count, bytes, rfl⟩
    refine ⟨_, (spec _).mpr ⟨admissible, ?_, ?_, rfl⟩, ?_⟩
    · rw [start]
      simpa using count
    · rw [start]
      simpa using bytes
    · rw [entries_addAll, regularBytes_addAll]
      simp only [start, Nat.zero_add]

/-- **The budgets are exact.** A tree of supported files whose attributes are within
their limits is measured exactly when its entries, their depth and the size of its
regular files are within the budgets. -/
theorem walk_isSome_iff {limits : Limits} {tree : FileTree}
    (measurable : ∀ path inode, tree.files.Has path inode → Measurable inode) :
    (walk sha256 limits tree.files).isSome ↔
      tree.entries.length ≤ limits.maxEntries ∧
        (∀ path inode, tree.files.Has path inode → path.length ≤ 128) ∧
        totalSize tree.entries ≤ limits.maxBytes := by
  rw [Option.isSome_iff_exists]
  constructor
  · rintro ⟨measured, walked⟩
    obtain ⟨admissible, count, bytes, -⟩ := walk_eq_some.mp walked
    exact ⟨count, fun path inode has => (admissible _ (mem_listing.mpr has)).depth, bytes⟩
  · rintro ⟨count, depth, bytes⟩
    refine ⟨_, walk_eq_some.mpr ⟨?_, count, bytes, rfl⟩⟩
    rintro ⟨path, inode⟩ member
    have has := mem_listing.mp member
    refine ⟨measurable path inode has, depth path inode has, ?_⟩
    rintro rfl
    exact tree.rooted inode has

end Walk

end HomeclusterInfra.PxeReceipt
