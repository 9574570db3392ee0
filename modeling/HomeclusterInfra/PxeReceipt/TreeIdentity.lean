import Mathlib.Data.List.Find
import HomeclusterInfra.PxeReceipt.TreeBudgets

/-!
# What a fingerprint identifies

The stream of a walk has one record for each entry, and the record of a regular
file names the first path to the same file. From the stream one can tell the paths
of the tree, what each leads to, and which regular files are links to one file, and
nothing else goes into it. So the digests of two trees are equal exactly when the
trees are the same in this sense (`fingerprint_identifies`).
-/

set_option autoImplicit false

namespace HomeclusterInfra.PxeReceipt

open Text JsonText NamedTree

/-! ## The same tree -/

/-- Files that differ in nothing but their place on the disk, the number of their
links and the order of their attributes. -/
structure Alike (one other : Inode) : Prop where
  mode : one.mode = other.mode
  uid : one.uid = other.uid
  gid : one.gid = other.gid
  mtimeNs : one.mtimeNs = other.mtimeNs
  xattrs : ∀ named, named ∈ one.xattrs ↔ named ∈ other.xattrs
  /-- The type, with the content, the target or the device numbers. -/
  kind : one.kind = other.kind

/-- Two paths lead to one regular file. -/
def Linked (tree : FileTree) (path path' : List FileName) : Prop :=
  ∃ inode inode', tree.files.Has path inode ∧ tree.files.Has path' inode' ∧
    inode.kind.isRegular = true ∧ inode'.kind.isRegular = true ∧ inode.file = inode'.file

/-- Two trees have the same paths to files that are alike, and the same links. -/
structure SameTree (first second : FileTree) : Prop where
  forth : ∀ path inode, first.files.Has path inode →
    ∃ inode', second.files.Has path inode' ∧ Alike inode inode'
  back : ∀ path inode', second.files.Has path inode' → ∃ inode, first.files.Has path inode
  linked : ∀ path path', Linked first path path' ↔ Linked second path path'

/-! ## Paths -/

/-- A list is known up to a mark that is not in its front. -/
theorem append_mark_inj {α : Type} {mark : α} {front front' rest rest' : List α}
    (unmarked : mark ∉ front) (unmarked' : mark ∉ front')
    (same : front ++ mark :: rest = front' ++ mark :: rest') : front = front' ∧ rest = rest' := by
  induction front generalizing front' with
  | nil =>
      cases front' with
      | nil => exact ⟨rfl, (List.cons.inj same).2⟩
      | cons first front' =>
          rw [(List.cons.inj same).1] at unmarked'
          exact absurd List.mem_cons_self unmarked'
  | cons first front ih =>
      cases front' with
      | nil =>
          rw [(List.cons.inj same).1] at unmarked
          exact absurd List.mem_cons_self unmarked
      | cons first' front' =>
          obtain ⟨rfl, further⟩ := List.cons.inj same
          obtain ⟨rfl, rests⟩ := ih (fun inside => unmarked (List.mem_cons_of_mem _ inside))
            (fun inside => unmarked' (List.mem_cons_of_mem _ inside)) further
          exact ⟨rfl, rests⟩

theorem childPath_injective {relative relative' : List UInt8} {name name' : FileName}
    (same : childPath relative name = childPath relative' name') :
    relative = relative' ∧ name = name' := by
  -- The name is what follows the last slash, if there is one.
  have apart : ∀ (relative : List UInt8) (name name' : FileName),
      name.bytes ≠ relative ++ [47] ++ name'.bytes := by
    intro relative name name' same
    refine name.noSlash ?_
    rw [same]
    simp
  unfold childPath at same
  cases relative with
  | nil =>
      cases relative' with
      | nil => exact ⟨rfl, FileName.bytes_injective same⟩
      | cons byte relative' => exact absurd same (apart _ _ _)
  | cons byte relative =>
      cases relative' with
      | nil => exact absurd same.symm (apart _ _ _)
      | cons byte' relative' =>
          have reversed := congrArg List.reverse same
          simp only [List.isEmpty_cons, Bool.false_eq_true, if_false, List.reverse_append,
            List.reverse_singleton, List.singleton_append] at reversed
          obtain ⟨names, rests⟩ := append_mark_inj
            (fun inside => name.noSlash (List.mem_reverse.mp inside))
            (fun inside => name'.noSlash (List.mem_reverse.mp inside)) reversed
          exact ⟨List.reverse_injective rests,
            FileName.bytes_injective (List.reverse_injective names)⟩

theorem relativePath_injective : Function.Injective relativePath := by
  intro path
  induction path using List.reverseRecOn with
  | nil =>
      intro path' same
      exact (relativePath_eq_nil.mp same.symm).symm
  | append_singleton path name ih =>
      intro path' same
      rcases List.eq_nil_or_concat' path' with rfl | ⟨before, name', rfl⟩
      · exact relativePath_eq_nil.mp same
      · rw [relativePath_append, relativePath_append] at same
        obtain ⟨paths, rfl⟩ := childPath_injective same
        rw [ih paths]

/-- The path of an entry as its record has it. -/
def hexPath (path : List FileName) : List Char :=
  hexText (relativePath path)

theorem hexPath_injective : Function.Injective hexPath :=
  hexText_injective.comp relativePath_injective

/-! ## The first link to a file -/

/-- The other entry is a regular file, the same as this one. -/
def sameFile (entry other : Entry) : Bool :=
  other.2.kind.isRegular && other.2.file == entry.2.file

/-- The first path to the file of an entry. -/
def leader (entries : List Entry) (entry : Entry) : Option (List FileName) :=
  (entries.find? (sameFile entry)).map Prod.fst

/-- The first path to the file of an entry, where it is another one. -/
def linkTarget (entries : List Entry) (entry : Entry) : Option (List Char) :=
  match leader entries entry with
  | some path => if path = entry.1 then none else some (hexPath path)
  | none => none

/-- Entries with different paths, and more than one link where two are one file. -/
structure Consistent (entries : List Entry) : Prop where
  distinct : (entries.map Prod.fst).Nodup
  linked : ∀ entry ∈ entries, ∀ other ∈ entries, entry.2.kind.isRegular = true →
    sameFile entry other = true → other.1 ≠ entry.1 → 1 < other.2.links

theorem FileTree.consistent (tree : FileTree) : Consistent tree.entries where
  distinct := by
    rw [List.Nodup, List.pairwise_map]
    refine (listing_pairwise tree.distinct).imp fun less same => ?_
    rw [same] at less
    exact List.lt_irrefl _ less
  linked := by
    rintro ⟨path, inode⟩ member ⟨path', inode'⟩ member' regular same apart
    rw [sameFile, Bool.and_eq_true, beq_iff_eq] at same
    exact tree.linked path' path inode' inode (mem_listing.mp member') (mem_listing.mp member)
      same.1 regular same.2 apart

/-- `links` after entries. -/
def linksOf (entries : List Entry) : List ((Nat × Nat) × List Char) :=
  entries.foldl (fun links entry => linksAfter links (relativePath entry.1) entry.2) []

/-- An entry that `links` keeps for a file. -/
def keepsLink (file : Nat × Nat) (entry : Entry) : Bool :=
  entry.2.kind.isRegular && 1 < entry.2.links && entry.2.file == file

theorem lookup_setDefault (links : List ((Nat × Nat) × List Char)) (file other : Nat × Nat)
    (path : List Char) : (setDefault links file path).lookup other =
      (links.lookup other).or (if file = other then some path else none) := by
  unfold setDefault
  split
  next known =>
      by_cases same : file = other
      · subst same
        obtain ⟨kept, found⟩ := Option.isSome_iff_exists.mp known
        rw [found, Option.some_or]
      · rw [if_neg same, Option.or_none]
  next unknown =>
      rw [List.lookup_append]
      congr 1
      by_cases same : file = other
      · subst same
        rw [List.lookup_cons_self, if_pos rfl]
      · rw [List.lookup_cons, beq_false_of_ne (Ne.symm same), if_neg same]
        rfl

/-- `links` has the first path under which a file with several links was met. -/
theorem lookup_linksOf (entries : List Entry) (file : Nat × Nat) :
    (linksOf entries).lookup file =
      (entries.find? (keepsLink file)).map fun entry => hexPath entry.1 := by
  induction entries using List.reverseRecOn with
  | nil => rfl
  | append_singleton entries entry ih =>
      have last : linksOf (entries ++ [entry]) =
          linksAfter (linksOf entries) (relativePath entry.1) entry.2 := by
        rw [linksOf, List.foldl_append]
        rfl
      rw [last, linksAfter, List.find?_append, Option.map_or, ← ih]
      by_cases several : (entry.2.kind.isRegular && decide (1 < entry.2.links)) = true
      · rw [if_pos several, lookup_setDefault]
        congr 1
        by_cases same : entry.2.file = file
        · rw [if_pos same, List.find?_cons_of_pos (by
            rw [keepsLink, several, Bool.true_and, beq_iff_eq]
            exact same)]
          rfl
        · rw [if_neg same, List.find?_cons_of_neg (by
            rw [keepsLink, several, Bool.true_and, beq_iff_eq]
            exact same)]
          rfl
      · rw [if_neg several, List.find?_cons_of_neg (by
          rw [keepsLink, Bool.not_eq_true] at *
          rw [several, Bool.false_and]), List.find?_nil, Option.map_none, Option.or_none]

theorem sameFile_self {entry : Entry} (regular : entry.2.kind.isRegular = true) :
    sameFile entry entry = true := by
  rw [sameFile, regular, Bool.true_and, beq_self_eq_true]

/-- **The link in a record is the first path to the file**, where that is another one. -/
theorem lookup_linksOf_eq_linkTarget {before after : List Entry} {entry : Entry}
    (consistent : Consistent (before ++ entry :: after))
    (regular : entry.2.kind.isRegular = true) :
    (linksOf before).lookup entry.2.file = linkTarget (before ++ entry :: after) entry := by
  have member : entry ∈ before ++ entry :: after :=
    List.mem_append_right before List.mem_cons_self
  have earlier : ∀ other ∈ before, other.1 ≠ entry.1 := by
    intro other inside same
    have distinct := consistent.distinct
    rw [List.map_append, List.map_cons, List.nodup_append] at distinct
    exact distinct.2.2 _ (List.mem_map_of_mem inside) _ List.mem_cons_self same
  have alike : ∀ other ∈ before, keepsLink entry.2.file other = sameFile entry other := by
    intro other inside
    cases same : sameFile entry other with
    | true =>
        have several := consistent.linked entry member other (List.mem_append_left _ inside)
          regular same (earlier other inside)
        rw [sameFile, Bool.and_eq_true] at same
        rw [keepsLink, same.1, same.2, decide_eq_true several]
        rfl
    | false =>
        rw [sameFile] at same
        rw [keepsLink, Bool.and_right_comm, same, Bool.false_and]
  rw [lookup_linksOf, List.find?_congr alike, linkTarget, leader, List.find?_append,
    List.find?_cons_of_pos (sameFile_self regular)]
  cases found : before.find? (sameFile entry) with
  | some other =>
      have apart := earlier other (List.mem_of_find?_eq_some found)
      simp only [Option.some_or, Option.map_some, if_neg apart]
  | none => simp only [Option.none_or, Option.map_some, Option.map_none, if_true]

/-! ## Records -/

section Records

variable (sha256 : List UInt8 → List Char)

/-- The record of an entry among all entries. -/
def recordIn (entries : List Entry) (entry : Entry) : Json :=
  record sha256 (relativePath entry.1) entry.2 (attributeRecord entry.2.xattrs)
    (linkTarget entries entry)

variable {sha256}

/-- Only the record of a regular file has a link. -/
theorem record_congr {relative : List UInt8} {inode : Inode} {xattrs : Json}
    {link link' : Option (List Char)}
    (same : inode.kind.isRegular = true → link = link') :
    record sha256 relative inode xattrs link = record sha256 relative inode xattrs link' := by
  cases kind : inode.kind with
  | regular content =>
      rw [kind] at same
      rw [same rfl]
  | directory | symlink | fifo | character | block | socket =>
      rw [record, record, kind]
      rfl

/-- The stream of a walk has the records of all entries. -/
theorem stream_addAll {after : List Entry} : ∀ {before : List Entry} {progress : Progress},
    Consistent (before ++ after) → progress.links = linksOf before →
      (after.foldl (Progress.add sha256) progress).stream =
        progress.stream ++ after.flatMap fun entry =>
          encoded (recordIn sha256 (before ++ after) entry) := by
  induction after with
  | nil =>
      intro before progress _ _
      rw [List.foldl_nil, List.flatMap_nil, List.append_nil]
  | cons entry after ih =>
      intro before progress consistent links
      have split : before ++ entry :: after = before ++ [entry] ++ after := by
        rw [List.append_assoc, List.singleton_append]
      have recorded : recordAfter sha256 progress.links entry =
          recordIn sha256 (before ++ entry :: after) entry := by
        rw [recordAfter, recordIn, links]
        exact record_congr (lookup_linksOf_eq_linkTarget consistent)
      have next : (progress.add sha256 entry).links = linksOf (before ++ [entry]) := by
        rw [linksOf, List.foldl_append, ← linksOf, ← links]
        rfl
      rw [List.foldl_cons, ih (split ▸ consistent) next, ← split, List.flatMap_cons,
        ← List.append_assoc, ← recorded]
      rfl

theorem stream_walk {tree : FileTree} :
    (tree.entries.foldl (Progress.add sha256) start).stream =
      tree.entries.flatMap fun entry => encoded (recordIn sha256 tree.entries entry) :=
  @stream_addAll sha256 tree.entries [] start tree.consistent rfl

theorem attributeRecord_readable (xattrs : List (List UInt8 × List UInt8)) :
    (attributeRecord xattrs).Readable := by
  refine readable_arr fun item member => ?_
  obtain ⟨entry, -, rfl⟩ := List.mem_map.mp member
  exact ⟨trivial, trivial, trivial⟩

theorem record_readable {relative : List UInt8} {inode : Inode} {xattrs : Json}
    (readable : xattrs.Readable) {link : Option (List Char)} :
    (record sha256 relative inode xattrs link).Readable := by
  refine readable_object ?_ fun field member => ?_
  · cases inode.kind with
    | directory | regular | symlink | fifo | character | block | socket =>
        simp [typeFields]
  · rcases List.mem_append.mp member with common | own
    · simp only [List.mem_cons, List.not_mem_nil, or_false] at common
      rcases common with rfl | rfl | rfl | rfl | rfl | rfl
      · trivial
      · trivial
      · trivial
      · trivial
      · trivial
      · exact readable
    · revert own
      cases inode.kind with
      | regular content =>
          intro own
          simp only [typeFields, List.mem_cons, List.not_mem_nil, or_false] at own
          rcases own with rfl | rfl | rfl | rfl
          · trivial
          · trivial
          · trivial
          · cases link with
            | none => trivial
            | some path => trivial
      | directory | symlink | fifo =>
          intro own
          simp only [typeFields, List.mem_cons, List.not_mem_nil, or_false] at own
          rcases own with rfl | rfl <;> trivial
      | character | block =>
          intro own
          simp only [typeFields, List.mem_cons, List.not_mem_nil, or_false] at own
          rcases own with rfl | rfl | rfl <;> trivial
      | socket => exact fun own => absurd own List.not_mem_nil

theorem attributeRecord_eq {xattrs xattrs' : List (List UInt8 × List UInt8)}
    (same : (attributeRecord xattrs).sortKeys = (attributeRecord xattrs').sortKeys) :
    sortedByKey xattrs = sortedByKey xattrs' := by
  simp only [attributeRecord, sortKeys_arr, Json.arr.injEq, List.map_map] at same
  refine List.map_injective_iff.mpr ?_ same
  rintro ⟨name, value⟩ ⟨name', value'⟩ alike
  simp only [Function.comp, Json.sortKeys, sortKeysItems, Json.arr.injEq, List.cons.injEq,
    Json.str.injEq, and_true] at alike
  rw [hexText_injective alike.1, hexText_injective alike.2]

/-- The fields of a type tell the type and what belongs to it. -/
theorem typeFields_inj (injective : Function.Injective sha256) {kind kind' : Kind}
    {link link' : Option (List Char)} (supported : kind.isSupported = true)
    (supported' : kind'.isSupported = true)
    (same : ∀ key ∈ ["type", "content_sha256", "hardlink_to", "target_hex", "major", "minor"],
      (Mapping.get (typeFields sha256 link kind) key).map Json.sortKeys =
        (Mapping.get (typeFields sha256 link' kind') key).map Json.sortKeys) :
    kind = kind' ∧ (kind.isRegular = true → link = link') := by
  have type := same "type" (by decide)
  cases kind with
  | directory =>
      cases kind' with
      | directory => exact ⟨rfl, fun other => nomatch other⟩
      | regular | symlink | fifo | character | block | socket =>
          simp [typeFields, Json.text, Json.sortKeys] at type
  | regular content =>
      cases kind' with
      | regular content' =>
          have hash := same "content_sha256" (by decide)
          have target := same "hardlink_to" (by decide)
          simp [typeFields, Json.sortKeys] at hash target
          refine ⟨congrArg Kind.regular (injective hash), fun _ => ?_⟩
          cases link with
          | none =>
              cases link' with
              | none => rfl
              | some path' => simp [Json.sortKeys] at target
          | some path =>
              cases link' with
              | none => simp [Json.sortKeys] at target
              | some path' =>
                  simp [Json.sortKeys] at target
                  rw [target]
      | directory | symlink | fifo | character | block | socket =>
          simp [typeFields, Json.text, Json.sortKeys] at type
  | symlink target =>
      cases kind' with
      | symlink target' =>
          have hex := same "target_hex" (by decide)
          simp [typeFields, Json.sortKeys] at hex
          exact ⟨congrArg Kind.symlink (hexText_injective hex), fun other => nomatch other⟩
      | directory | regular | fifo | character | block | socket =>
          simp [typeFields, Json.text, Json.sortKeys] at type
  | fifo =>
      cases kind' with
      | fifo => exact ⟨rfl, fun other => nomatch other⟩
      | directory | regular | symlink | character | block | socket =>
          simp [typeFields, Json.text, Json.sortKeys] at type
  | character major minor =>
      cases kind' with
      | character major' minor' =>
          have majors := same "major" (by decide)
          have minors := same "minor" (by decide)
          simp [typeFields, Json.sortKeys] at majors minors
          rw [majors, minors]
          exact ⟨rfl, fun other => nomatch other⟩
      | directory | regular | symlink | fifo | block | socket =>
          simp [typeFields, Json.text, Json.sortKeys] at type
  | block major minor =>
      cases kind' with
      | block major' minor' =>
          have majors := same "major" (by decide)
          have minors := same "minor" (by decide)
          simp [typeFields, Json.sortKeys] at majors minors
          rw [majors, minors]
          exact ⟨rfl, fun other => nomatch other⟩
      | directory | regular | symlink | fifo | character | socket =>
          simp [typeFields, Json.text, Json.sortKeys] at type
  | socket => cases supported

/-- **A record tells its path, its file and its link.** -/
theorem record_inj (injective : Function.Injective sha256) {relative relative' : List UInt8}
    {inode inode' : Inode} {xattrs xattrs' : Json} {link link' : Option (List Char)}
    (supported : inode.kind.isSupported = true) (supported' : inode'.kind.isSupported = true)
    (readable : xattrs.Readable) (readable' : xattrs'.Readable)
    (same : (record sha256 relative inode xattrs link).sortKeys =
      (record sha256 relative' inode' xattrs' link').sortKeys) :
    relative = relative' ∧ inode.mode = inode'.mode ∧ inode.uid = inode'.uid ∧
      inode.gid = inode'.gid ∧ inode.mtimeNs = inode'.mtimeNs ∧
      xattrs.sortKeys = xattrs'.sortKeys ∧ inode.kind = inode'.kind ∧
      (inode.kind.isRegular = true → link = link') := by
  have fields := fun key => (field_sortKeys_object (record_readable readable) key).symm.trans
    ((congrArg (fun value => Json.field value key) same).trans
      (field_sortKeys_object (record_readable readable') key))
  have path := fields "path_hex"
  have mode := fields "mode"
  have uid := fields "uid"
  have gid := fields "gid"
  have mtime := fields "mtime_ns"
  have attributes := fields "xattrs"
  simp [Json.sortKeys] at path mode uid gid mtime attributes
  refine ⟨hexText_injective path, mode, uid, gid, mtime, attributes, ?_⟩
  refine typeFields_inj injective supported supported' fun key member => ?_
  have field := fields key
  simp only [List.mem_cons, List.not_mem_nil, or_false] at member
  rcases member with rfl | rfl | rfl | rfl | rfl | rfl <;> simpa using field

/-! ## Streams -/

/-- The text of a stream. -/
theorem flatMap_encoded {α : Type} (value : α → Json) (entries : List α) :
    (entries.flatMap fun entry => encoded (value entry)) =
      utf8Bytes (entries.flatMap fun entry => canonical (value entry) ++ ['\n']) := by
  rw [utf8Bytes, List.flatMap_assoc]
  rfl

/-- **A stream tells its records.** -/
theorem records_of_stream {α β : Type} {value : α → Json} {value' : β → Json} {entries : List α}
    {entries' : List β} (readable : ∀ entry ∈ entries, (value entry).Readable)
    (readable' : ∀ entry ∈ entries', (value' entry).Readable)
    (same : (entries.flatMap fun entry => encoded (value entry)) =
      entries'.flatMap fun entry => encoded (value' entry)) :
    List.Forall₂ (fun entry entry' => (value entry).sortKeys = (value' entry').sortKeys) entries
      entries' := by
  rw [flatMap_encoded, flatMap_encoded] at same
  have texts := utf8Bytes_injective same
  clear same
  induction entries generalizing entries' with
  | nil =>
      cases entries' with
      | nil => exact .nil
      | cons entry' entries' =>
          have lengths := congrArg List.length texts
          simp at lengths
  | cons entry entries ih =>
      cases entries' with
      | nil =>
          have lengths := congrArg List.length texts
          simp at lengths
      | cons entry' entries' =>
          rw [List.forall_mem_cons] at readable readable'
          simp only [List.flatMap_cons, List.append_assoc, List.singleton_append] at texts
          obtain ⟨head, rest⟩ := canonical_line_inj readable.1 readable'.1 texts
          exact .cons head (ih readable.2 readable'.2 rest)

/-! ## Trees and their records -/

/-- An entry of one list and its counterpart in the other. -/
structure Matches (entries entries' : List Entry) (entry entry' : Entry) : Prop where
  path : entry.1 = entry'.1
  alike : Alike entry.2 entry'.2
  link : entry.2.kind.isRegular = true → linkTarget entries entry = linkTarget entries' entry'

theorem Alike.symm {one other : Inode} (alike : Alike one other) : Alike other one where
  mode := alike.mode.symm
  uid := alike.uid.symm
  gid := alike.gid.symm
  mtimeNs := alike.mtimeNs.symm
  xattrs named := (alike.xattrs named).symm
  kind := alike.kind.symm

theorem Matches.symm {entries entries' : List Entry} {entry entry' : Entry}
    (matching : Matches entries entries' entry entry') : Matches entries' entries entry' entry where
  path := matching.path.symm
  alike := matching.alike.symm
  link regular := (matching.link (by rw [matching.alike.kind]; exact regular)).symm

variable {first second : FileTree}

theorem recordIn_eq {entry entry' : Entry}
    (distinct : (entry.2.xattrs.map Prod.fst).Nodup)
    (distinct' : (entry'.2.xattrs.map Prod.fst).Nodup) {entries entries' : List Entry}
    (matching : Matches entries entries' entry entry') :
    recordIn sha256 entries entry = recordIn sha256 entries' entry' := by
  have attributes : attributeRecord entry.2.xattrs = attributeRecord entry'.2.xattrs := by
    rw [attributeRecord, sortedByKey_eq_of_mem_iff distinct distinct' matching.alike.xattrs]
    rfl
  rw [recordIn, record_congr matching.link, recordIn, attributes, record, record, matching.path,
    matching.alike.mode, matching.alike.uid, matching.alike.gid, matching.alike.mtimeNs,
    matching.alike.kind]

/-- Equal records are those of entries that match. -/
theorem matches_of_recordIn (injective : Function.Injective sha256) {entry entry' : Entry}
    {entries entries' : List Entry} (admissible : Admissible entry) (admissible' : Admissible entry')
    (same : (recordIn sha256 entries entry).sortKeys =
      (recordIn sha256 entries' entry').sortKeys) :
    Matches entries entries' entry entry' := by
  obtain ⟨path, mode, uid, gid, mtimeNs, attributes, kind, link⟩ := record_inj injective
    admissible.measurable.supported admissible'.measurable.supported
    (attributeRecord_readable _) (attributeRecord_readable _) same
  refine ⟨relativePath_injective path, ⟨mode, uid, gid, mtimeNs, fun named => ?_, kind⟩, link⟩
  rw [← mem_sortedByKey, attributeRecord_eq attributes, mem_sortedByKey]

/-- The first path to the file of a regular entry is known from its link. -/
theorem leader_eq {entries : List Entry} {entry : Entry} (member : entry ∈ entries)
    (regular : entry.2.kind.isRegular = true) :
    leader entries entry = some (((leader entries entry).getD entry.1)) := by
  have found : (entries.find? (sameFile entry)).isSome = true :=
    List.find?_isSome.mpr ⟨entry, member, sameFile_self regular⟩
  obtain ⟨other, found⟩ := Option.isSome_iff_exists.mp found
  rw [leader, found]
  rfl

theorem leader_eq_of_linkTarget {entries entries' : List Entry} {entry entry' : Entry}
    (member : entry ∈ entries) (member' : entry' ∈ entries')
    (regular : entry.2.kind.isRegular = true) (regular' : entry'.2.kind.isRegular = true)
    (path : entry.1 = entry'.1)
    (same : linkTarget entries entry = linkTarget entries' entry') :
    leader entries entry = leader entries' entry' := by
  have found := leader_eq member regular
  have found' := leader_eq member' regular'
  rw [linkTarget, linkTarget, found, found'] at same
  rw [found, found']
  simp only at same
  split at same
  next own =>
      split at same
      next own' => rw [own, own', path]
      next => cases same
  next =>
      split at same
      next => cases same
      next => rw [hexPath_injective (Option.some.inj same)]

/-- **Entries have the same first path exactly when they are one file.** -/
theorem leader_eq_iff {entries : List Entry} (consistent : Consistent entries)
    {entry other : Entry} (member : entry ∈ entries) (member' : other ∈ entries)
    (regular : entry.2.kind.isRegular = true) (regular' : other.2.kind.isRegular = true) :
    leader entries entry = leader entries other ↔ entry.2.file = other.2.file := by
  constructor
  · intro same
    have found : (entries.find? (sameFile entry)).isSome = true :=
      List.find?_isSome.mpr ⟨entry, member, sameFile_self regular⟩
    have found' : (entries.find? (sameFile other)).isSome = true :=
      List.find?_isSome.mpr ⟨other, member', sameFile_self regular'⟩
    obtain ⟨one, found⟩ := Option.isSome_iff_exists.mp found
    obtain ⟨two, found'⟩ := Option.isSome_iff_exists.mp found'
    rw [leader, leader, found, found'] at same
    have paths : one.1 = two.1 := Option.some.inj same
    obtain rfl : one = two := List.inj_on_of_nodup_map consistent.distinct
      (List.mem_of_find?_eq_some found) (List.mem_of_find?_eq_some found') paths
    have file := List.find?_some found
    have file' := List.find?_some found'
    rw [sameFile, Bool.and_eq_true, beq_iff_eq] at file file'
    rw [← file.2, ← file'.2]
  · intro same
    have alike : sameFile entry = sameFile other := by
      funext third
      rw [sameFile, sameFile, same]
    rw [leader, leader, alike]

/-- A regular entry is one file with another exactly when their paths are linked. -/
theorem sameFile_iff_linked {tree : FileTree} {entry other : Entry} (member : entry ∈ tree.entries)
    (member' : other ∈ tree.entries) (regular : entry.2.kind.isRegular = true) :
    sameFile entry other = true ↔ Linked tree entry.1 other.1 := by
  have has : tree.files.Has entry.1 entry.2 := mem_listing.mp member
  have has' : tree.files.Has other.1 other.2 := mem_listing.mp member'
  rw [sameFile, Bool.and_eq_true, beq_iff_eq]
  constructor
  · rintro ⟨regular', same⟩
    exact ⟨entry.2, other.2, has, has', regular, regular', same.symm⟩
  · rintro ⟨inode, inode', one, two, -, regular', same⟩
    obtain rfl := one.unique tree.distinct has
    obtain rfl := two.unique tree.distinct has'
    exact ⟨regular', same.symm⟩

theorem exists_of_forall₂ {α β : Type} {related : α → β → Prop} {entries : List α}
    {entries' : List β} (all : List.Forall₂ related entries entries') {entry : α}
    (member : entry ∈ entries) : ∃ entry' ∈ entries', related entry entry' := by
  induction all with
  | nil => exact absurd member List.not_mem_nil
  | @cons head head' _ _ first _ ih =>
      rcases List.mem_cons.mp member with rfl | later
      · exact ⟨head', List.mem_cons_self, first⟩
      · obtain ⟨entry', member', related⟩ := ih later
        exact ⟨entry', List.mem_cons_of_mem _ member', related⟩

/-- Searches that agree entry by entry find the same path. -/
theorem find?_path_congr {entries entries' : List Entry} {asks asks' : Entry → Bool}
    (all : List.Forall₂ (fun entry entry' => entry.1 = entry'.1 ∧ asks entry = asks' entry') entries
      entries') :
    (entries.find? asks).map Prod.fst = (entries'.find? asks').map Prod.fst := by
  induction all with
  | nil => rfl
  | @cons head head' _ _ first _ ih =>
      rw [List.find?_cons, List.find?_cons, first.2]
      split
      · exact congrArg some first.1
      · exact ih

theorem linked_of_matches (all : List.Forall₂ (Matches first.entries second.entries) first.entries
      second.entries) {path path' : List FileName} (linked : Linked first path path') :
    Linked second path path' := by
  obtain ⟨inode, inode', has, has', regular, regular', same⟩ := linked
  have member : (path, inode) ∈ first.entries := mem_listing.mpr has
  have member' : (path', inode') ∈ first.entries := mem_listing.mpr has'
  obtain ⟨⟨one, file⟩, inside, matching⟩ := exists_of_forall₂ all member
  obtain ⟨⟨two, file'⟩, inside', matching'⟩ := exists_of_forall₂ all member'
  obtain rfl : path = one := matching.path
  obtain rfl : path' = two := matching'.path
  have regularFile : file.kind.isRegular = true := by
    rw [← matching.alike.kind]
    exact regular
  have regularFile' : file'.kind.isRegular = true := by
    rw [← matching'.alike.kind]
    exact regular'
  have leaders := (leader_eq_iff first.consistent member member' regular regular').mpr same
  rw [leader_eq_of_linkTarget member inside regular regularFile rfl (matching.link regular),
    leader_eq_of_linkTarget member' inside' regular' regularFile' rfl
      (matching'.link regular')] at leaders
  exact ⟨file, file', mem_listing.mp inside, mem_listing.mp inside', regularFile, regularFile',
    (leader_eq_iff second.consistent inside inside' regularFile regularFile').mp leaders⟩

theorem sameTree_of_matches (all : List.Forall₂ (Matches first.entries second.entries)
      first.entries second.entries) : SameTree first second := by
  have back := all.flip.imp fun _ _ matching => Matches.symm matching
  refine ⟨fun path inode has => ?_, fun path inode' has => ?_, fun path path' =>
    ⟨linked_of_matches all, linked_of_matches back⟩⟩
  · obtain ⟨⟨one, file⟩, inside, matching⟩ := exists_of_forall₂ all (mem_listing.mpr has)
    obtain rfl : path = one := matching.path
    exact ⟨file, mem_listing.mp inside, matching.alike⟩
  · obtain ⟨⟨one, file⟩, inside, matching⟩ := exists_of_forall₂ back (mem_listing.mpr has)
    obtain rfl : path = one := matching.path
    exact ⟨file, mem_listing.mp inside⟩

theorem matches_of_sameTree (same : SameTree first second) :
    List.Forall₂ (Matches first.entries second.entries) first.entries second.entries := by
  have alike : List.Forall₂ (fun one other => one.1 = other.1 ∧ Alike one.2 other.2) first.entries
      second.entries :=
    listing_forall₂ first.distinct second.distinct same.forth same.back
  rw [List.forall₂_iff_zip] at alike ⊢
  refine ⟨alike.1, fun {entry entry'} inZip => ?_⟩
  obtain ⟨member, member'⟩ := List.of_mem_zip inZip
  obtain ⟨path, file⟩ := alike.2 inZip
  refine ⟨path, file, fun regular => ?_⟩
  have regular' : entry'.2.kind.isRegular = true := by
    rw [← file.kind]
    exact regular
  have leaders : leader first.entries entry = leader second.entries entry' := by
    refine find?_path_congr (List.forall₂_iff_zip.mpr ⟨alike.1, fun {other other'} inZip' => ?_⟩)
    obtain ⟨inside, inside'⟩ := List.of_mem_zip inZip'
    obtain ⟨path', -⟩ := alike.2 inZip'
    refine ⟨path', Bool.eq_iff_iff.mpr ?_⟩
    rw [sameFile_iff_linked member inside regular, sameFile_iff_linked member' inside' regular',
      same.linked, path, path']
  rw [linkTarget, linkTarget, leaders, path]

/-- **Digests are equal exactly for trees that are the same.** -/
theorem digest_eq_iff (injective : Function.Injective sha256) {limits limits' : Limits}
    {measured measured' : Measured} (walked : walk sha256 limits first.files = some measured)
    (walked' : walk sha256 limits' second.files = some measured') :
    measured.digest = measured'.digest ↔ SameTree first second := by
  obtain ⟨admissible, -, -, rfl⟩ := walk_eq_some.mp walked
  obtain ⟨admissible', -, -, rfl⟩ := walk_eq_some.mp walked'
  rw [injective.eq_iff, List.append_cancel_left_eq, stream_walk, stream_walk]
  constructor
  · intro streams
    have records := records_of_stream
      (fun entry _ => record_readable (attributeRecord_readable _))
      (fun entry _ => record_readable (attributeRecord_readable _)) streams
    rw [List.forall₂_iff_zip] at records
    refine sameTree_of_matches (List.forall₂_iff_zip.mpr ⟨records.1, fun inZip => ?_⟩)
    obtain ⟨member, member'⟩ := List.of_mem_zip inZip
    exact matches_of_recordIn injective (admissible _ member) (admissible' _ member')
      (records.2 inZip)
  · intro same
    have matching := matches_of_sameTree same
    have records : first.entries.map (recordIn sha256 first.entries) =
        second.entries.map (recordIn sha256 second.entries) := by
      rw [← List.forall₂_eq_eq_eq, List.forall₂_map_left_iff, List.forall₂_map_right_iff,
        List.forall₂_iff_zip]
      refine ⟨matching.length_eq, fun inZip => ?_⟩
      obtain ⟨member, member'⟩ := List.of_mem_zip inZip
      exact recordIn_eq (first.attributes _ _ (mem_listing.mp member))
        (second.attributes _ _ (mem_listing.mp member'))
        ((List.forall₂_iff_zip.mp matching).2 inZip)
    calc (first.entries.flatMap fun entry => encoded (recordIn sha256 first.entries entry))
        = (first.entries.map (recordIn sha256 first.entries)).flatMap encoded := by
          rw [List.flatMap_map]
      _ = (second.entries.map (recordIn sha256 second.entries)).flatMap encoded := by rw [records]
      _ = second.entries.flatMap fun entry => encoded (recordIn sha256 second.entries entry) := by
          rw [List.flatMap_map]

end Records

/-- **The fingerprint identifies a tree, and its budgets are exact.** The files of a
tree do not change, and the digest is taken with a hash without collisions. -/
theorem fingerprint_identifies (sha256 : List UInt8 → List Char)
    (injective : Function.Injective sha256) :
    (∀ (first second : FileTree) (limits limits' : Limits) (measured measured' : Measured),
      walk sha256 limits first.files = some measured →
      walk sha256 limits' second.files = some measured' →
        (measured.digest = measured'.digest ↔ SameTree first second)) ∧
    ∀ (tree : FileTree) (limits : Limits),
      (∀ path inode, tree.files.Has path inode → Measurable inode) →
        ((walk sha256 limits tree.files).isSome ↔
          tree.entries.length ≤ limits.maxEntries ∧
            (∀ path inode, tree.files.Has path inode → path.length ≤ 128) ∧
            totalSize tree.entries ≤ limits.maxBytes) :=
  ⟨fun _ _ _ _ _ _ => digest_eq_iff injective, fun _ _ => walk_isSome_iff⟩

section Fixtures

/-- The name of one letter. -/
def fixtureName (letter : UInt8) (other : letter ≠ 47) : FileName :=
  ⟨[letter], List.cons_ne_nil _ _, fun slash => other (List.mem_singleton.mp slash).symm⟩

def fixtureContent : List UInt8 :=
  utf8Bytes "abc".toList

/-- A directory with links to one file. -/
def fixtureFiles (inode : Nat) (names : List FileName) : Files :=
  .node ⟨0o755, 0, 0, 1, [], (1, 2), 2, .directory⟩ (names.map fun name =>
    (name, .node ⟨0o644, 0, 0, 1, [], (1, inode), 2, .regular fixtureContent⟩ []))

def fixtureNames : List FileName :=
  [fixtureName 98 (by decide), fixtureName 97 (by decide)]

/-- The links of one inode, and the same of another one in the other order. -/
def fixtureTree (inode : Nat) (names : List FileName) (distinct : names.Nodup) : FileTree where
  files := fixtureFiles inode names
  distinct := by
    refine .node ?_ fun entry member => ?_
    · rw [List.map_map]
      exact (List.map_id names).symm ▸ distinct
    · obtain ⟨name, -, rfl⟩ := List.mem_map.mp member
      exact .node List.nodup_nil fun _ none => absurd none List.not_mem_nil
  onlyDirectories := by
    refine .node (fun _ => rfl) fun entry member => ?_
    obtain ⟨name, -, rfl⟩ := List.mem_map.mp member
    exact .node (fun some => absurd rfl some) fun _ none => absurd none List.not_mem_nil
  rooted := by
    intro found has
    cases has
    rfl
  attributes := by
    intro path found has
    cases has with
    | here => exact List.nodup_nil
    | into member inside =>
        obtain ⟨name, -, same⟩ := List.mem_map.mp member
        obtain ⟨rfl, rfl⟩ := Prod.mk.inj same
        cases inside with
        | here => exact List.nodup_nil
        | into none => exact absurd none List.not_mem_nil
  linked := by
    intro path path' found found' has _ _ _ _ _
    cases has with
    | here => exact Nat.one_lt_two
    | into member inside =>
        obtain ⟨name, -, same⟩ := List.mem_map.mp member
        obtain ⟨rfl, rfl⟩ := Prod.mk.inj same
        cases inside with
        | here => exact Nat.one_lt_two
        | into none => exact absurd none List.not_mem_nil

/-- The digests of the two texts that are hashed here. -/
def fixtureDigests : List Char × List Char :=
  ("ba7816bf8f01cfea414140de5dae2223b00361a396177a9cb410ff61f20015ad".toList,
    "648b93b1ad67bc44ff9e6020c009320bcd9e56af53ddd52d812357f2dc3c17a9".toList)

def fixtureStream : List UInt8 :=
  treeDomain ++ ((fixtureFiles 7 fixtureNames).listing.foldl
    (Progress.add fun _ => fixtureDigests.1) start).stream

/-- A hash without collisions that is SHA-256 where it is used here. -/
def fixtureSha256 (raw : List UInt8) : List Char :=
  if raw = fixtureContent then fixtureDigests.1
  else if raw = fixtureStream then fixtureDigests.2
  else '-' :: hexText raw

theorem fixtureSha256_injective : Function.Injective fixtureSha256 := by
  have apart : fixtureDigests.1 ≠ fixtureDigests.2 := by decide
  have other : ∀ text, fixtureDigests.1 ≠ '-' :: text ∧ fixtureDigests.2 ≠ '-' :: text := by
    intro text
    exact ⟨fun same => absurd (Option.some.inj (congrArg List.head? same)) (by decide),
      fun same => absurd (Option.some.inj (congrArg List.head? same)) (by decide)⟩
  intro first second same
  unfold fixtureSha256 at same
  split at same
  next one =>
      split at same
      next two => rw [one, two]
      next =>
          split at same
          next => exact absurd same apart
          next => exact absurd same (other _).1
  next =>
      split at same
      next one =>
          split at same
          next => exact absurd same.symm apart
          next =>
              split at same
              next two => rw [one, two]
              next => exact absurd same (other _).2
      next =>
          split at same
          next => exact absurd same.symm (other _).1
          next =>
              split at same
              next => exact absurd same.symm (other _).2
              next => exact hexText_injective (List.cons.inj same).2

/-- Whatever its number and the order of its links, the file gives one digest. -/
theorem fingerprint_identifies_fixture :
    SameTree (fixtureTree 7 fixtureNames (by decide))
      (fixtureTree 9 fixtureNames.reverse (by decide)) := by
  have walks : ∀ files ∈ [fixtureFiles 7 fixtureNames, fixtureFiles 9 fixtureNames.reverse],
      (walk fixtureSha256 ⟨3, 6⟩ files).map Measured.digest = some fixtureDigests.2 := by
    decide +kernel
  obtain ⟨measured, walked, digest⟩ := Option.map_eq_some_iff.mp
    (walks _ List.mem_cons_self)
  obtain ⟨measured', walked', digest'⟩ := Option.map_eq_some_iff.mp
    (walks _ (List.mem_cons_of_mem _ List.mem_cons_self))
  exact ((fingerprint_identifies fixtureSha256 fixtureSha256_injective).1
    (fixtureTree 7 fixtureNames (by decide)) (fixtureTree 9 fixtureNames.reverse (by decide))
    ⟨3, 6⟩ ⟨3, 6⟩ measured measured' walked walked').mp (digest.trans digest'.symm)

end Fixtures

end HomeclusterInfra.PxeReceipt
