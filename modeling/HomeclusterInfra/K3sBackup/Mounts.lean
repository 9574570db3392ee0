import HomeclusterInfra.Library.Checked
import HomeclusterInfra.Library.MountTree
import HomeclusterInfra.Library.Text

/-!
# The mounts a backup relies on

Before a backup of the cluster's database is written, the data directory and
the destination have to be on the filesystems the operator declared. The script
looks them up in the mount table of the kernel and takes, of all the mounts
whose points lie on the path, the one with the longest point, and the last one
of several at the same point.

The kernel resolves the path into the mount that was made last of these
(`MountTree.reachedMount_eq`). The two agree exactly when no mount was made
above a deeper one on the same path without a mount as deep after it. A mount
over a parent directory hides the data directory, and the script still accepts
it.
-/

set_option autoImplicit false

namespace HomeclusterInfra.K3sBackup

open Text Checked MountTree

/-! ## The mount table -/

/-- An absolute path, as its names. -/
abbrev Path := List (List Char)

/-- `Path` of the text of an absolute path. -/
def pathOf (text : List Char) : Path :=
  (text.splitOn '/').filter fun name => name ≠ [] ∧ name ≠ ['.']

/-- The names with the root before them. -/
def Path.parts (path : Path) : List (List Char) :=
  ['/'] :: path

/-- The directories above a path, the nearest one first. -/
def Path.parents (path : Path) : List Path :=
  (List.range path.length).reverse.map path.take

/-- A record of the mount table. -/
structure Mount where
  point : Path
  fstype : List Char
  source : List Char
deriving DecidableEq

def isOctal (char : Char) : Bool :=
  '0' ≤ char && char ≤ '7'

/-- `_unescape_mount_field` -/
def unescapeMountField : List Char → List Char
  | '\\' :: first :: second :: third :: rest =>
      if isOctal first && isOctal second && isOctal third then
        Char.ofNat (64 * (first.toNat - 48) + 8 * (second.toNat - 48) + (third.toNat - 48)) ::
          unescapeMountField rest
      else '\\' :: unescapeMountField (first :: second :: third :: rest)
  | char :: rest => char :: unescapeMountField rest
  | [] => []

/-- The text before and after the first place where a text stands in another. -/
def partition (separator : List Char) : List Char → Option (List Char × List Char)
  | [] => if separator.isEmpty then some ([], []) else none
  | char :: rest =>
      if separator.isPrefixOf (char :: rest) then some ([], (char :: rest).drop separator.length)
      else (partition separator rest).map fun parts => (char :: parts.1, parts.2)

/-- One line of `read_mountinfo`. -/
def readMount (line : List Char) : Except String Mount :=
  match partition " - ".toList line with
  | none => .error "invalid mountinfo record"
  | some (pre, post) =>
      match words pre, words post with
      | _ :: _ :: _ :: _ :: point :: _, fstype :: source :: _ =>
          .ok { point := pathOf (unescapeMountField point)
                fstype := unescapeMountField fstype
                source := unescapeMountField source }
      | _, _ => .error "invalid mountinfo fields"

/-- `read_mountinfo`, on the text of `/proc/self/mountinfo`. -/
def readMountinfo (text : List Char) : Except String (List Mount) := do
  let mounts ← (splitlines text).mapM readMount
  require (!mounts.isEmpty) "mountinfo is empty"
  return mounts

/-! ## The effective mount -/

/-- The mounts whose points lie on a path. -/
def matching (path : Path) (mounts : List Mount) : List Mount :=
  mounts.filter fun mount => path = mount.point ∨ mount.point ∈ path.parents

/-- Comparison of pairs. -/
def less (first second : Nat × Nat) : Bool :=
  first.1 < second.1 || (first.1 = second.1 && first.2 < second.2)

/-- `max` with a key: the first of the largest elements. -/
def maxBy {α : Type} (key : α → Nat × Nat) : List α → Option α
  | [] => none
  | first :: rest =>
      some (rest.foldl (fun best next => if less (key best) (key next) then next else best) first)

/-- `effective_mount` -/
def effectiveMount (path : Path) (mounts : List Mount) : Except String Mount :=
  match maxBy (fun entry => (entry.1.point.parts.length, entry.2)) (matching path mounts).zipIdx with
  | none => .error "no mountinfo entry for path"
  | some entry => .ok entry.1

/-- The mount that a path resolves to. -/
def resolvedMount (path : Path) (mounts : List Mount) : Option Mount :=
  reachedMount Mount.point mounts path

/-- The mount made last on the way of a path is one of the deepest on it. -/
def LastIsDeepest (path : Path) (mounts : List Mount) : Prop :=
  ∀ last ∈ (matching path mounts).getLast?, ∀ mount ∈ matching path mounts,
    mount.point.length ≤ last.point.length

/-! ## The mounts a backup is checked against -/

def persistentFilesystems : List (List Char) :=
  ["ext4".toList, "xfs".toList, "btrfs".toList, "zfs".toList, "nfs".toList, "nfs4".toList]

/-- What the check finds on the host: how paths resolve, the mount table, and
the device of a resolved path. -/
structure Host where
  resolve : List Char → Except String Path
  mountinfo : List Char
  device : Path → Nat

/-- The arguments of `validate_mounts`. -/
structure Expected where
  dataDir : List Char
  destination : List Char
  sourceMount : List Char
  destinationMount : List Char
  destinationFstype : List Char
  destinationSource : List Char
  sourceFstype : List Char
  sourceMountSource : List Char
  requireDistinctDevice : Bool

/-- `validate_mounts` -/
def validateMounts (host : Host) (given : Expected) : Except String Unit := do
  let sourceReal ← host.resolve given.dataDir
  let expectedSource ← host.resolve given.sourceMount
  let destinationReal ← host.resolve given.destination
  let expectedDestination ← host.resolve given.destinationMount
  require (sourceReal == expectedSource) "data-dir must equal its expected source mountpoint"
  require (destinationReal == expectedDestination ||
    destinationReal.parents.contains expectedDestination)
    "destination must reside under its expected mountpoint"
  require (expectedDestination != []) "root filesystem is not a valid backup destination mount"
  require (persistentFilesystems.contains given.sourceFstype &&
    persistentFilesystems.contains given.destinationFstype)
    "expected filesystem must be persistent"
  require (!given.destinationSource.isEmpty && !given.sourceMountSource.isEmpty)
    "both expected mount sources must be specified"
  let mounts ← readMountinfo host.mountinfo
  let src ← effectiveMount sourceReal mounts
  let dst ← effectiveMount destinationReal mounts
  require (src == ⟨expectedSource, given.sourceFstype, given.sourceMountSource⟩)
    "k3s data-dir is not the expected persistent mount"
  require (dst == ⟨expectedDestination, given.destinationFstype, given.destinationSource⟩)
    "backup destination is not the expected mounted filesystem"
  require (!(given.requireDistinctDevice &&
    host.device sourceReal == host.device destinationReal))
    "destination must be on a different filesystem"

/-! ## What is chosen -/

theorem mem_parents {path point : Path} :
    point ∈ path.parents ↔ point <+: path ∧ point ≠ path := by
  rw [Path.parents, List.mem_map]
  constructor
  · rintro ⟨length, inside, rfl⟩
    rw [List.mem_reverse, List.mem_range] at inside
    refine ⟨List.take_prefix _ _, fun whole => ?_⟩
    have shorter := congrArg List.length whole
    rw [List.length_take] at shorter
    omega
  · rintro ⟨onPath, other⟩
    refine ⟨point.length, ?_, (List.prefix_iff_eq_take.mp onPath).symm⟩
    rw [List.mem_reverse, List.mem_range]
    exact lt_of_le_of_ne onPath.length_le fun same => other (onPath.eq_of_length same)

/-- A mount matches when its point lies on the path. -/
theorem matching_eq (path : Path) (mounts : List Mount) :
    matching path mounts = mounts.filter fun mount => decide (mount.point <+: path) := by
  refine List.filter_congr fun mount _ => ?_
  rw [decide_eq_decide, mem_parents]
  constructor
  · rintro (same | above)
    · exact same ▸ List.prefix_refl _
    · exact above.1
  · intro onPath
    by_cases same : mount.point = path
    · exact .inl same.symm
    · exact .inr ⟨onPath, same⟩

/-- The later of two mounts when it is as deep as the earlier one. -/
def deeper (best next : Mount) : Mount :=
  if best.point.length ≤ next.point.length then next else best

/-- The positions only say that a later mount is preferred. -/
theorem foldl_zipIdx (rest : List Mount) (best : Mount) {index start : Nat} (before : index < start) :
    ((rest.zipIdx start).foldl (fun best next =>
      if less (best.1.point.parts.length, best.2) (next.1.point.parts.length, next.2) then next
      else best) (best, index)).1 = rest.foldl deeper best := by
  induction rest generalizing best index start with
  | nil => rfl
  | cons next rest ih =>
      have preferred : less (best.point.parts.length, index) (next.point.parts.length, start) =
          decide (best.point.length ≤ next.point.length) := by
        simp only [less, Path.parts, List.length_cons, Nat.add_lt_add_iff_right,
          Nat.add_right_cancel_iff, before, decide_true, Bool.and_true, Nat.le_iff_lt_or_eq,
          Bool.decide_or]
      rw [List.zipIdx_cons, List.foldl_cons, List.foldl_cons, deeper, preferred]
      by_cases deep : best.point.length ≤ next.point.length
      · rw [decide_eq_true deep, if_pos rfl, if_pos deep]
        exact ih next (Nat.lt_succ_self start)
      · rw [decide_eq_false deep, if_neg Bool.false_ne_true, if_neg deep]
        exact ih best (Nat.lt_succ_of_lt before)

theorem effectiveMount_eq (path : Path) (mounts : List Mount) :
    (effectiveMount path mounts).toOption =
      match matching path mounts with
      | [] => none
      | first :: rest => some (rest.foldl deeper first) := by
  rw [effectiveMount]
  cases matching path mounts with
  | nil => rfl
  | cons first rest =>
      rw [List.zipIdx_cons, maxBy]
      exact congrArg some (foldl_zipIdx rest first (Nat.zero_lt_one))

/-- The chosen mount is as deep as every other one. -/
theorem le_foldl_deeper (rest : List Mount) (best : Mount) :
    ∀ mount ∈ best :: rest, mount.point.length ≤ (rest.foldl deeper best).point.length := by
  induction rest generalizing best with
  | nil =>
      intro mount member
      rw [List.mem_singleton] at member
      exact member ▸ Nat.le_refl _
  | cons next rest ih =>
      have kept : best.point.length ≤ (deeper best next).point.length ∧
          next.point.length ≤ (deeper best next).point.length := by
        unfold deeper
        split <;> omega
      have largest := ih (deeper best next) (deeper best next) (List.mem_cons_self ..)
      intro mount member
      rw [List.foldl_cons]
      simp only [List.mem_cons] at member
      rcases member with rfl | rfl | inRest
      · exact Nat.le_trans kept.1 largest
      · exact Nat.le_trans kept.2 largest
      · exact ih _ mount (List.mem_cons_of_mem _ inRest)

theorem foldl_deeper_mem (rest : List Mount) (best : Mount) :
    rest.foldl deeper best ∈ best :: rest := by
  induction rest generalizing best with
  | nil => exact List.mem_cons_self ..
  | cons next rest ih =>
      rw [List.foldl_cons]
      rcases List.mem_cons.mp (ih (deeper best next)) with same | inRest
      · rw [same, deeper]
        split <;> simp
      · exact List.mem_cons_of_mem _ (List.mem_cons_of_mem _ inRest)

/-- The chosen mount is the last one exactly when that is one of the deepest. -/
theorem foldl_deeper_eq_iff {first last : Mount} {rest : List Mount}
    (isLast : (first :: rest).getLast? = some last) :
    rest.foldl deeper first = last ↔
      ∀ mount ∈ first :: rest, mount.point.length ≤ last.point.length := by
  constructor
  · rintro rfl
    exact le_foldl_deeper rest first
  · intro deepest
    rcases List.eq_nil_or_concat rest with rfl | ⟨init, final, split⟩
    · exact Option.some.inj isLast
    · rw [List.concat_eq_append] at split
      subst split
      have same : final = last := by
        rw [← List.cons_append, List.getLast?_concat] at isLast
        exact Option.some.inj isLast
      subst same
      rw [List.foldl_append, List.foldl_cons, List.foldl_nil, deeper, if_pos]
      refine deepest _ ?_
      rw [← List.cons_append]
      exact List.mem_append_left _ (foldl_deeper_mem init first)

/-! ## The mount a path resolves to -/

variable {mounts : List Mount} {path : Path}

theorem resolvedMount_eq (rooted : mounts.head?.map Mount.point = some []) :
    resolvedMount path mounts = (matching path mounts).getLast? := by
  rw [resolvedMount, reachedMount_eq rooted, matching_eq]

/-- The root is on every path. -/
theorem matching_ne_nil (rooted : mounts.head?.map Mount.point = some []) (path : Path) :
    matching path mounts ≠ [] := by
  cases mounts with
  | nil => cases rooted
  | cons root mounts =>
      have atRoot : root.point = [] := Option.some.inj rooted
      rw [matching_eq]
      refine List.ne_nil_of_mem (a := root) (List.mem_filter.mpr ⟨List.mem_cons_self .., ?_⟩)
      rw [atRoot]
      exact decide_eq_true List.nil_prefix

/-- **The effective mount is the one the path resolves to** exactly when the
mount made last on the way is one of the deepest. -/
theorem effectiveMount_resolves_iff (rooted : mounts.head?.map Mount.point = some []) :
    (effectiveMount path mounts).toOption = resolvedMount path mounts ↔
      LastIsDeepest path mounts := by
  have nonempty := matching_ne_nil rooted path
  rw [resolvedMount_eq rooted, effectiveMount_eq, LastIsDeepest]
  cases found : matching path mounts with
  | nil => exact absurd found nonempty
  | cons first rest =>
      obtain ⟨last, isLast⟩ : ∃ last, (first :: rest).getLast? = some last :=
        ⟨_, List.getLast?_eq_some_getLast (List.cons_ne_nil first rest)⟩
      rw [isLast]
      simp only [Option.some.injEq, Option.mem_def, forall_eq']
      exact foldl_deeper_eq_iff isLast

/-- What holds of the host when the check passes. -/
theorem validateMounts_ok {host : Host} {given : Expected}
    (accepted : validateMounts host given = .ok ()) :
    ∃ source destination destinationMount mounts,
      host.resolve given.dataDir = .ok source ∧ host.resolve given.sourceMount = .ok source ∧
      host.resolve given.destination = .ok destination ∧
      host.resolve given.destinationMount = .ok destinationMount ∧
      readMountinfo host.mountinfo = .ok mounts ∧
      effectiveMount source mounts =
        .ok ⟨source, given.sourceFstype, given.sourceMountSource⟩ ∧
      effectiveMount destination mounts =
        .ok ⟨destinationMount, given.destinationFstype, given.destinationSource⟩ := by
  simp only [validateMounts, bind_eq_ok, require_eq_ok, beq_iff_eq] at accepted
  obtain ⟨source, isSource, expected, isExpected, destination, isDestination, mount, isMount, -,
    rfl, -, -, -, -, -, -, -, -, mounts, read, src, chosen, dst, found, -, rfl, -, rfl, -⟩ := accepted
  exact ⟨source, destination, mount, mounts, isSource, isExpected, isDestination, isMount, read,
    chosen, found⟩

/-- **When the backup checks the mounts its paths are on.** On a table that
begins with the root, the effective mount of a path is the one the path resolves
to exactly when the mount made last on its way is one of the deepest. So the
data directory and the destination of an accepted backup are on the expected
mounts exactly when this holds of both paths. -/
theorem mounts_checked_iff {mounts : List Mount}
    (rooted : mounts.head?.map Mount.point = some []) :
    (∀ path, (effectiveMount path mounts).toOption = resolvedMount path mounts ↔
      LastIsDeepest path mounts) ∧
    ∀ (host : Host) (given : Expected) (source destination destinationMount : Path),
      readMountinfo host.mountinfo = .ok mounts →
      host.resolve given.dataDir = .ok source →
      host.resolve given.destination = .ok destination →
      host.resolve given.destinationMount = .ok destinationMount →
      validateMounts host given = .ok () →
      (resolvedMount source mounts =
          some ⟨source, given.sourceFstype, given.sourceMountSource⟩ ∧
        resolvedMount destination mounts =
          some ⟨destinationMount, given.destinationFstype, given.destinationSource⟩ ↔
        LastIsDeepest source mounts ∧ LastIsDeepest destination mounts) := by
  refine ⟨fun path => effectiveMount_resolves_iff rooted, ?_⟩
  intro host given source destination destinationMount read isSource isDestination isMount accepted
  obtain ⟨source', destination', mount', mounts', isSource', -, isDestination', isMount', read',
    chosen, found⟩ := validateMounts_ok accepted
  rw [isSource] at isSource'
  rw [isDestination] at isDestination'
  rw [isMount] at isMount'
  rw [read] at read'
  cases isSource'
  cases isDestination'
  cases isMount'
  cases read'
  rw [← effectiveMount_resolves_iff rooted, ← effectiveMount_resolves_iff rooted, chosen, found]
  exact and_congr eq_comm eq_comm

/-- A host whose paths have no symbolic links. -/
def plainHost (mountinfo : String) : Host where
  resolve text := .ok (pathOf text)
  mountinfo := mountinfo.toList
  device path := path.length

/-- A backup of the usual data directory to a share. -/
def usualBackup : Expected where
  dataDir := "/var/lib/k3s".toList
  destination := "/mnt/backup".toList
  sourceMount := "/var/lib/k3s".toList
  destinationMount := "/mnt/backup".toList
  destinationFstype := "nfs4".toList
  destinationSource := "nas:/archive".toList
  sourceFstype := "ext4".toList
  sourceMountSource := "/dev/sdb1".toList
  requireDistinctDevice := true

/-- The root, the data directory and the share. -/
def usualMounts : List Mount :=
  [⟨[], "overlay".toList, "overlay".toList⟩,
    ⟨pathOf "/var/lib/k3s".toList, "ext4".toList, "/dev/sdb1".toList⟩,
    ⟨pathOf "/mnt/backup".toList, "nfs4".toList, "nas:/archive".toList⟩]

theorem mounts_checked_iff_usual :
    (effectiveMount (pathOf "/var/lib/k3s".toList) usualMounts).toOption =
      resolvedMount (pathOf "/var/lib/k3s".toList) usualMounts ∧
    resolvedMount (pathOf "/var/lib/k3s".toList) usualMounts =
      some ⟨pathOf "/var/lib/k3s".toList, "ext4".toList, "/dev/sdb1".toList⟩ := by
  have source : LastIsDeepest (pathOf "/var/lib/k3s".toList) usualMounts := by
    intro last isLast mount member
    have found : last = ⟨pathOf "/var/lib/k3s".toList, "ext4".toList, "/dev/sdb1".toList⟩ :=
      (Option.some.inj isLast).symm
    have two : mount = ⟨[], "overlay".toList, "overlay".toList⟩ ∨
        mount = ⟨pathOf "/var/lib/k3s".toList, "ext4".toList, "/dev/sdb1".toList⟩ := by
      simpa using (show mount ∈ [_, _] from member)
    subst found
    rcases two with rfl | rfl <;> decide +kernel
  refine ⟨((mounts_checked_iff rfl).1 _).mpr source, ?_⟩
  decide +kernel

/-- A mount table in which `/var` was mounted after the data directory below it. -/
def coveredMountinfo : String :=
  "20 1 0:2 / / rw - overlay overlay rw\n" ++
    "30 20 8:2 / /var/lib/k3s rw - ext4 /dev/sdb1 rw\n" ++
    "40 20 0:40 / /var rw - tmpfs tmpfs rw\n" ++
    "50 20 0:50 / /mnt/backup rw - nfs4 nas:/archive rw\n"

/-- **A mount over a parent directory is not noticed**: the data directory is
hidden by a later mount, and the backup is accepted. -/
theorem hidden_data_directory :
    ∃ mounts, readMountinfo (plainHost coveredMountinfo).mountinfo = .ok mounts ∧
      mounts.head?.map Mount.point = some [] ∧
      validateMounts (plainHost coveredMountinfo) usualBackup = .ok () ∧
      (effectiveMount (pathOf "/var/lib/k3s".toList) mounts).toOption ≠
        resolvedMount (pathOf "/var/lib/k3s".toList) mounts ∧
      resolvedMount (pathOf "/var/lib/k3s".toList) mounts =
        some ⟨pathOf "/var".toList, "tmpfs".toList, "tmpfs".toList⟩ := by
  refine ⟨[⟨[], "overlay".toList, "overlay".toList⟩,
    ⟨pathOf "/var/lib/k3s".toList, "ext4".toList, "/dev/sdb1".toList⟩,
    ⟨pathOf "/var".toList, "tmpfs".toList, "tmpfs".toList⟩,
    ⟨pathOf "/mnt/backup".toList, "nfs4".toList, "nas:/archive".toList⟩], ?_⟩
  decide +kernel

end HomeclusterInfra.K3sBackup
