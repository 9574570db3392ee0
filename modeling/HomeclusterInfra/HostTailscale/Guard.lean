import HomeclusterInfra.K3sBackup.Mounts
import HomeclusterInfra.Library.Lines

/-!
# The guard of the host's Tailscale state

`host-tailscale.py` keeps the state of the host's Tailscale on a dedicated disk. Its
guard reads the mount table of the kernel, wants exactly one record of the disk's
mount point and checks it. A `prepare` run then makes the state directories and
refuses those that are not on the filesystem found at the mount point.

Each field of a record is a word: the kernel writes blanks, tabs and line feeds as
escapes, and other white space does not occur in it. The source may be empty. A mount
is read-write by its own options.
-/

set_option autoImplicit false

namespace HomeclusterInfra.HostTailscale

open Text Checked MountTree K3sBackup

/-! ## The mount table -/

/-- A record of the mount table. -/
structure Record where
  id : List Char
  parent : List Char
  device : Nat × Nat
  root : List Char
  point : List Char
  options : List Char
  optional : List (List Char)
  fstype : List Char
  source : List Char
  superOptions : List Char
  visible : ∀ field ∈ [id, parent, root, point, options, fstype, superOptions] ++ optional,
    field ≠ []
  solid : ∀ field ∈ [id, parent, root, point, options, fstype, source, superOptions] ++ optional,
    ∀ char ∈ field, isSpace char = false
  /-- No field before the separator is one. -/
  noDash : ∀ field ∈ [id, parent, root, point, options] ++ optional, field ≠ ['-']

/-- `f'{os.major(number)}:{os.minor(number)}'` -/
def deviceText (number : Nat × Nat) : List Char :=
  natText number.1 ++ ':' :: natText number.2

/-- The fields before the separator. -/
def Record.front (record : Record) : List (List Char) :=
  [record.id, record.parent, deviceText record.device, record.root, record.point,
    record.options] ++ record.optional

def Record.fields (record : Record) : List (List Char) :=
  record.front ++ ["-".toList, record.fstype, record.source, record.superOptions]

def Record.line (record : Record) : List Char :=
  [' '].intercalate record.fields

/-- The path of the mount point. -/
def Record.path (record : Record) : Path :=
  pathOf (unescapeMountField record.point)

/-- `/proc/self/mountinfo` -/
def mountinfo (records : List Record) : List Char :=
  unlines (records.map Record.line)

/-! ## `check_mount` -/

/-- `str(MOUNT)` -/
def mountText : List Char :=
  "/var/lib/rancher/k3s".toList

/-- `MOUNT` -/
def mountPath : Path :=
  ["var".toList, "lib".toList, "rancher".toList, "k3s".toList]

structure DeviceStat where
  isBlock : Bool
  number : Nat × Nat

/-- `r[r.index('-') + 1]` -/
def filesystem (row : List (List Char)) : Option (List Char) :=
  ((row.dropWhile (· != ['-'])).drop 1).head?

/-- `check_mount` -/
def checkMount (mountinfo : List Char) (device : DeviceStat) : Except String Unit :=
  if !device.isBlock then .error "expected_device_not_block"
  else
    match ((splitlines mountinfo).map words).filter fun row =>
        9 < row.length && row[4]? == some mountText with
    | [row] =>
        match filesystem row with
        | none => .error "mount_record_invalid"
        | some fs =>
            require (row[2]? == some (deviceText device.number) && row[3]? == some ['/'] &&
                fs == "ext4".toList && ((row.getD 5 []).splitOn ',').contains "rw".toList)
              "dedicated_mount_mismatch"
    | _ => .error "dedicated_mount_missing_or_ambiguous"

/-! ## Reading the records -/

theorem isSpace_of_isLineBreak {char : Char} (isBreak : isLineBreak char = true) :
    isSpace char = true := by
  simp only [isLineBreak, isSpace, Bool.or_eq_true, Bool.and_eq_true, decide_eq_true_eq]
    at isBreak ⊢
  omega

/-- The words of fields with a blank between them are those that are not empty. -/
theorem words_intercalate {fields : List (List Char)}
    (solid : ∀ field ∈ fields, ∀ char ∈ field, isSpace char = false) :
    words ([' '].intercalate fields) = fields.filter fun field => !field.isEmpty := by
  induction fields with
  | nil => rfl
  | cons field fields ih =>
      rw [List.forall_mem_cons] at solid
      cases fields with
      | nil =>
          rw [List.intercalate_singleton, words, List.splitOnP_eq_singleton solid.1]
      | cons next fields =>
          have split := List.splitOnP_append_cons_of_forall_mem solid.1 ' ' (by rfl)
            ([' '].intercalate (next :: fields))
          rw [List.intercalate_cons_cons, List.append_assoc, List.singleton_append, words, split,
            List.filter_cons]
          have rest := ih solid.2
          rw [words] at rest
          rw [rest]
          cases visible : field.isEmpty <;> simp [visible]

theorem notLineBreak_intercalate {fields : List (List Char)}
    (solid : ∀ field ∈ fields, ∀ char ∈ field, isSpace char = false) :
    ∀ char ∈ [' '].intercalate fields, isLineBreak char = false := by
  have inside : ∀ field : List Char, (∀ char ∈ field, isSpace char = false) →
      ∀ char ∈ field, isLineBreak char = false := by
    intro field plain char member
    cases isBreak : isLineBreak char with
    | false => rfl
    | true =>
        have blank := isSpace_of_isLineBreak isBreak
        rw [plain char member] at blank
        cases blank
  induction fields with
  | nil => exact fun _ member => absurd member List.not_mem_nil
  | cons field fields ih =>
      rw [List.forall_mem_cons] at solid
      cases fields with
      | nil =>
          rw [List.intercalate_singleton]
          exact inside field solid.1
      | cons next fields =>
          rw [List.intercalate_cons_cons, List.append_assoc, List.singleton_append,
            List.forall_mem_append, List.forall_mem_cons]
          exact ⟨inside field solid.1, rfl, ih solid.2⟩

/-- The words of a record's line. -/
def Record.row (record : Record) : List (List Char) :=
  record.front ++ ["-".toList, record.fstype] ++
    (if record.source.isEmpty then [] else [record.source]) ++ [record.superOptions]

theorem deviceText_solid (number : Nat × Nat) :
    deviceText number ≠ [] ∧ ∀ char ∈ deviceText number, isSpace char = false := by
  refine ⟨List.append_ne_nil_of_right_ne_nil _ (List.cons_ne_nil _ _), fun char member => ?_⟩
  rcases List.mem_append.mp member with major | rest
  · exact (isVisible_of_isDigit (natText_isDigit major)).notSpace
  · rcases List.mem_cons.mp rest with rfl | minor
    · rfl
    · exact (isVisible_of_isDigit (natText_isDigit minor)).notSpace

theorem deviceText_inj {one other : Nat × Nat} : deviceText one = deviceText other ↔
    one = other := by
  refine ⟨fun same => ?_, fun same => congrArg deviceText same⟩
  obtain ⟨major, minor⟩ := (List.append_cons_inj_of_notMem (notMem_natText (by rfl))
    (notMem_natText (by rfl))).mp same
  refine Prod.ext ?_ ?_
  · rw [← digitsValue_natText one.1, major, digitsValue_natText]
  · rw [← digitsValue_natText one.2, minor.2, digitsValue_natText]

/-- There is no white space in a field. -/
theorem Record.fields_solid (record : Record) :
    ∀ field ∈ record.fields, ∀ char ∈ field, isSpace char = false := by
  obtain ⟨-, device⟩ := deviceText_solid record.device
  have solid := record.solid
  simp only [List.cons_append, List.nil_append, List.forall_mem_cons] at solid
  obtain ⟨id, parent, root, point, options, fstype, source, superOptions, optional⟩ := solid
  simp only [Record.fields, Record.front, List.cons_append, List.nil_append,
    List.forall_mem_cons, List.forall_mem_append]
  have dash : ∀ char ∈ "-".toList, isSpace char = false := List.forall_mem_singleton.mpr rfl
  exact ⟨id, parent, device, root, point, options, optional,
    dash, fstype, source,
    superOptions, fun _ member => absurd member List.not_mem_nil⟩

/-- **The words of a line are its fields**, without an empty source. -/
theorem Record.words_line (record : Record) : words record.line = record.row := by
  obtain ⟨device, -⟩ := deviceText_solid record.device
  have visible := record.visible
  simp only [List.cons_append, List.nil_append, List.forall_mem_cons] at visible
  obtain ⟨id, parent, root, point, mountOptions, fstypeFilled, superFilled, optional⟩ := visible
  have front : ∀ field ∈ record.front, (!field.isEmpty) = true := by
    simp only [Record.front, List.cons_append, List.nil_append, List.forall_mem_cons,
      Bool.not_eq_true', List.isEmpty_eq_false_iff]
    exact ⟨id, parent, device, root, point, mountOptions, optional⟩
  have fstype : record.fstype.isEmpty = false := List.isEmpty_eq_false_iff.mpr fstypeFilled
  have options : record.superOptions.isEmpty = false := List.isEmpty_eq_false_iff.mpr superFilled
  rw [Record.line, words_intercalate record.fields_solid, Record.fields, List.filter_append,
    List.filter_eq_self.mpr front, Record.row, List.append_assoc, List.append_assoc]
  refine congrArg (record.front ++ ·) ?_
  cases source : record.source.isEmpty <;>
    simp [fstype, options, source]

/-- **The rows that the guard reads are those of the records.** -/
theorem rows_mountinfo (records : List Record) :
    (splitlines (mountinfo records)).map words = records.map Record.row := by
  have whole : ∀ line ∈ records.map Record.line, ∀ char ∈ line, isLineBreak char = false := by
    rw [List.forall_mem_map]
    exact fun record _ => notLineBreak_intercalate record.fields_solid
  rw [mountinfo, splitlines_unlines whole, List.map_map]
  exact List.map_congr_left fun record _ => record.words_line

/-! ## What the check accepts -/

/-- The guard counts the record: it is one of the mount point, with ten fields. -/
def Record.isCounted (record : Record) : Bool :=
  record.point == mountText && (!record.optional.isEmpty || !record.source.isEmpty)

/-- The record is that of the root directory of the disk, mounted read-write as `ext4`. -/
structure OfDisk (device : DeviceStat) (record : Record) : Prop where
  number : record.device = device.number
  root : record.root = ['/']
  fstype : record.fstype = "ext4".toList
  readWrite : "rw".toList ∈ record.options.splitOn ','

section Check

variable {records : List Record} {record : Record} {device : DeviceStat}

theorem counts_row (record : Record) :
    (decide (9 < record.row.length) && record.row[4]? == some mountText) = record.isCounted := by
  have point : record.row[4]? = some record.point := rfl
  have filled : decide (9 < record.row.length) =
      (!record.optional.isEmpty || !record.source.isEmpty) := by
    rw [Record.row, Record.front]
    cases source : record.source.isEmpty <;> cases optional : record.optional <;> simp
  rw [point, filled, Record.isCounted, Bool.and_comm]
  rfl

/-- The filesystem type stands behind the separator. -/
theorem filesystem_row (record : Record) : filesystem record.row = some record.fstype := by
  have device : deviceText record.device ≠ ['-'] := by
    intro same
    have colon : ':' ∈ deviceText record.device :=
      List.mem_append_right _ List.mem_cons_self
    rw [same] at colon
    revert colon
    decide
  have front : ∀ field ∈ record.front, (field != ['-']) = true := by
    have noDash := record.noDash
    simp only [List.cons_append, List.nil_append, List.forall_mem_cons] at noDash
    simp only [Record.front, List.cons_append, List.nil_append, List.forall_mem_cons, bne_iff_ne]
    exact ⟨noDash.1, noDash.2.1, device, noDash.2.2⟩
  have dash : "-".toList = ['-'] := by decide
  rw [filesystem, Record.row, List.append_assoc, List.append_assoc,
    List.dropWhile_append_of_pos front, List.cons_append, List.dropWhile_cons_of_neg]
  · rfl
  · rw [dash]
    simp

theorem filter_rows (records : List Record) :
    ((splitlines (mountinfo records)).map words).filter (fun row =>
      9 < row.length && row[4]? == some mountText) =
        (records.filter Record.isCounted).map Record.row := by
  rw [rows_mountinfo, List.filter_map]
  exact congrArg (List.map Record.row) (List.filter_congr fun record _ => counts_row record)

/-- **What the check accepts**: one counted record, which is that of the disk. -/
theorem checkMount_eq_ok : checkMount (mountinfo records) device = .ok () ↔
    device.isBlock = true ∧ ∃ record, records.filter Record.isCounted = [record] ∧
      OfDisk device record := by
  have fields : ∀ record : Record, record.row[2]? = some (deviceText record.device) ∧
      record.row[3]? = some record.root ∧ record.row.getD 5 [] = record.options :=
    fun record => ⟨rfl, rfl, rfl⟩
  rw [checkMount, filter_rows]
  cases isBlock : device.isBlock with
  | false => simp
  | true =>
      rw [Bool.not_true, if_neg Bool.false_ne_true]
      cases records.filter Record.isCounted with
      | nil => simp
      | cons record others =>
          cases others with
          | nil =>
              obtain ⟨number, root, options⟩ := fields record
              simp only [List.map_cons, List.map_nil, filesystem_row, number, root, options,
                require_eq_ok, Bool.and_eq_true, beq_iff_eq, Option.some.injEq,
                deviceText_inj, List.contains_iff_mem, true_and, List.cons.injEq, and_true,
                exists_eq_left']
              constructor
              · rintro ⟨⟨⟨isDevice, isRoot⟩, isFstype⟩, isReadWrite⟩
                exact ⟨isDevice, isRoot, isFstype, isReadWrite⟩
              · rintro ⟨isDevice, isRoot, isFstype, isReadWrite⟩
                exact ⟨⟨⟨isDevice, isRoot⟩, isFstype⟩, isReadWrite⟩
          | cons other others => simp

/-! ## Where the path leads -/

/-- The mount point path leads to the root directory of the disk, mounted read-write as
`ext4`. -/
def ReachesDisk (records : List Record) (device : DeviceStat) : Prop :=
  ∃ record, reachedMount Record.path records mountPath = some record ∧
    record.path = mountPath ∧ OfDisk device record

/-- Where the counted record is that of the disk, the last of the later mounts whose
points lie on the path, if there is one, is the disk at the path again. -/
def NotHidden (records : List Record) (device : DeviceStat) : Prop :=
  ∀ before record after, records = before ++ record :: after →
    records.filter Record.isCounted = [record] → OfDisk device record →
      ∀ last, (after.filter fun later => decide (later.path <+: mountPath)).getLast? = some last →
        last.path = mountPath ∧ OfDisk device last

theorem path_of_isCounted (counted : record.isCounted = true) : record.path = mountPath := by
  rw [Record.isCounted, Bool.and_eq_true, beq_iff_eq] at counted
  rw [Record.path, counted.1]
  decide +kernel

/-- The last mount on the path is a later one, or the record itself. -/
theorem reachedMount_record (rooted : records.head?.map Record.path = some [])
    {before after : List Record} (parts : records = before ++ record :: after)
    (onPath : record.path = mountPath) : reachedMount Record.path records mountPath =
      some (((after.filter fun later => decide (later.path <+: mountPath)).getLast?).getD
        record) := by
  have here : decide (record.path <+: mountPath) = true := by
    rw [onPath]
    exact decide_eq_true (List.prefix_refl _)
  have kept := @List.filter_cons_of_pos _ (fun mount : Record => decide (mount.path <+: mountPath))
    record after here
  rw [reachedMount_eq rooted, parts, List.filter_append, kept, List.getLast?_append,
    List.getLast?_cons, Option.some_or]

/-- **The check finds where the path leads** exactly when no later mount hides it. -/
theorem reachesDisk_iff (rooted : records.head?.map Record.path = some []) :
    (checkMount (mountinfo records) device = .ok () → ReachesDisk records device) ↔
      (device.isBlock = true → NotHidden records device) := by
  constructor
  · intro sound isBlock before record after parts single ofDisk last isLast
    have counted : record.isCounted = true := by
      have member : record ∈ records.filter Record.isCounted := by
        rw [single]
        exact List.mem_cons_self
      exact (List.mem_filter.mp member).2
    obtain ⟨reached, leads, atPath, isDisk⟩ :=
      sound (checkMount_eq_ok.mpr ⟨isBlock, record, single, ofDisk⟩)
    rw [reachedMount_record rooted parts (path_of_isCounted counted), isLast] at leads
    cases leads
    exact ⟨atPath, isDisk⟩
  · intro shown accepted
    obtain ⟨isBlock, record, single, ofDisk⟩ := checkMount_eq_ok.mp accepted
    have member : record ∈ records.filter Record.isCounted := by
      rw [single]
      exact List.mem_cons_self
    obtain ⟨isRecord, counted⟩ := List.mem_filter.mp member
    obtain ⟨before, after, parts⟩ := List.append_of_mem isRecord
    refine ⟨_, reachedMount_record rooted parts (path_of_isCounted counted), ?_⟩
    cases isLast : (after.filter fun later => decide (later.path <+: mountPath)).getLast? with
    | none => exact ⟨path_of_isCounted counted, ofDisk⟩
    | some last => exact shown isBlock before record after parts single ofDisk last isLast

end Check

/-! ## A `prepare` run -/

/-- What `lstat` tells of a path. -/
inductive Kind where
  | directory
  | regular (links : Nat)
  | other
deriving DecidableEq

structure Node where
  kind : Kind
  uid : Nat
  mode : Nat

/-- The files of the host, by their paths. -/
abbrev Nodes := Path → Option Node

/-- `/etc/homecluster/host-tailscale.json` -/
structure Config where
  device : List Char
  hostname : List Char

/-- A host whose mounts do not change. -/
structure Host where
  config : Config
  records : List Record
  rooted : records.head?.map Record.path = some []
  nodes : Nodes
  /-- A mount point exists. -/
  points : ∀ record ∈ records, (nodes record.path).isSome
  /-- `os.stat` of a device, where it succeeds. -/
  statDevice : List Char → Option DeviceStat
  /-- `MOUNT` is no symbolic link and resolves to itself. -/
  plainMount : Bool
  /-- `/dev/net/tun` is a character device. -/
  tun : Bool
  mkdirFails : Path → Bool
  chmodFails : Path → Bool
  umask : Nat

/-- `st_dev` of a directory. -/
def Host.deviceOf (host : Host) (path : Path) : Option (Nat × Nat) :=
  (reachedMount Record.path host.records path).map Record.device

/-- What a caught `OSError` is reported as. -/
def preconditionFailed : String := "host_tailscale_precondition_failed"

/-- `/dev/[A-Za-z0-9_./:+-]+` -/
def isDevicePath (text : List Char) : Bool :=
  "/dev/".toList.isPrefixOf text && !(text.drop 5).isEmpty &&
    (text.drop 5).all fun char => char.isAlphanum || "_./:+-".toList.contains char

/-- `[a-z0-9](?:[a-z0-9-]{0,61}[a-z0-9])?` -/
def isHostname (text : List Char) : Bool :=
  let isEnd := fun char : Char => char.isLower || char.isDigit
  !text.isEmpty && text.length ≤ 63 && text.all (fun char => isEnd char || char == '-') &&
    text.head?.any isEnd && text.getLast?.any isEnd

/-- `guard` -/
def guard (host : Host) : Except String Unit := do
  require (isDevicePath host.config.device) "device_invalid"
  require (isHostname host.config.hostname) "hostname_invalid"
  require host.plainMount "mount_path_symlink"
  let device ← (host.statDevice host.config.device).elim (.error preconditionFailed) .ok
  checkMount (mountinfo host.records) device

/-- What `private_dirs` made and what it accepted so far, and how it ends. -/
structure DirRun where
  nodes : Nodes
  created : List Path
  accepted : List Path
  result : Except String Bool

/-- `p.chmod(mode)` where the mode is another one, and whether it was. -/
def setMode (host : Host) (nodes : Nodes) (path : Path) (node : Node) (mode : Nat) :
    Except String (Nodes × Bool) :=
  if node.mode = mode then .ok (nodes, false)
  else if host.chmodFails path then .error preconditionFailed
  else .ok (Function.update nodes path (some { node with mode := mode }), true)

/-- `p.mkdir(mode=0o700)`, where an existing path is passed over: the files then, and
whether the directory is new. -/
def makeDirectory (host : Host) (nodes : Nodes) (path : Path) : Except String (Nodes × Bool) :=
  if (nodes path).isSome then .ok (nodes, false)
  else if host.mkdirFails path then .error preconditionFailed
  else .ok (Function.update nodes path (some ⟨.directory, 0, 0o700 &&& (0o7777 ^^^ host.umask)⟩),
    true)

/-- `not S_ISDIR or st_uid != 0 or st_dev != root.stat().st_dev` does not hold. -/
def isPrivate (host : Host) (root path : Path) (node : Node) : Bool :=
  node.kind == .directory && node.uid == 0 && host.deviceOf path == host.deviceOf root

/-- The path of a directory that is new. -/
def newPath (isNew : Bool) (path : Path) : List Path :=
  if isNew then [path] else []

/-- The directories of `private_dirs`. -/
def privateDirsFrom (host : Host) (root : Path) : Nodes → List Path → DirRun
  | nodes, [] => ⟨nodes, [], [], .ok false⟩
  | nodes, path :: rest =>
      match makeDirectory host nodes path with
      | .error failure => ⟨nodes, [], [], .error failure⟩
      | .ok (made, isNew) =>
          match made path with
          | none => ⟨made, newPath isNew path, [], .error preconditionFailed⟩
          | some node =>
              if !isPrivate host root path node then
                ⟨made, newPath isNew path, [], .error "state_directory_unsafe"⟩
              else
                match setMode host made path node 0o700 with
                | .error failure => ⟨made, newPath isNew path, [path], .error failure⟩
                | .ok (set, changed) =>
                    let run := privateDirsFrom host root set rest
                    ⟨run.nodes, newPath isNew path ++ run.created, path :: run.accepted,
                      run.result.map fun later => isNew || changed || later⟩

/-- The check of the state file, and whether its mode was changed. -/
def stateFile (host : Host) (nodes : Nodes) (path : Path) : Except String Bool :=
  match nodes path with
  | none => .ok false
  | some node =>
      if node.kind == .regular 1 && node.uid == 0 then
        (setMode host nodes path node 0o600).map Prod.snd
      else .error "state_file_unsafe"

/-- `private_dirs` -/
def privateDirs (host : Host) (root : Path) (paths : List Path) : DirRun :=
  let run := privateDirsFrom host root host.nodes paths
  { run with
    result := do
      let changed ← run.result
      let file ← stateFile host run.nodes (paths.getLastD [] ++ ["tailscaled.state".toList])
      return changed || file }

/-- `STATE.parent` -/
def stateParent : Path := mountPath ++ [".homecluster-host-state".toList]

/-- `STATE` -/
def statePath : Path := stateParent ++ ["tailscale".toList]

/-- `main` for `prepare` -/
def prepare (host : Host) : DirRun :=
  match guard host with
  | .error failure => ⟨host.nodes, [], [], .error failure⟩
  | .ok () =>
      if !host.tun then ⟨host.nodes, [], [], .error "tun_unavailable"⟩
      else
        let run := privateDirs host mountPath [stateParent, statePath]
        { run with
          result := do
            let changed ← run.result
            guard host
            return changed }

/-! ## Where the directories are -/

section Directories

variable {host : Host} {nodes : Nodes} {root path : Path} {paths : List Path}

/-- A path without a mount on it is on the device of its parent. -/
theorem deviceOf_of_missing (host : Host) {name : List Char}
    (missing : host.nodes (path ++ [name]) = none) :
    host.deviceOf (path ++ [name]) = host.deviceOf path := by
  rw [Host.deviceOf, Host.deviceOf, reachedMount_eq host.rooted, reachedMount_eq host.rooted]
  have same : ∀ record ∈ host.records, decide (record.path <+: path ++ [name]) =
      decide (record.path <+: path) := by
    intro record member
    have other : record.path ≠ path ++ [name] := by
      intro here
      have present := host.points record member
      rw [here, missing] at present
      exact Bool.false_ne_true present
    rw [decide_eq_decide, List.prefix_concat_iff]
    exact or_iff_right other
  rw [List.filter_congr same]

/-- Files are only added to those of the host. -/
def Extends (host : Host) (nodes : Nodes) : Prop :=
  ∀ path, nodes path = none → host.nodes path = none

theorem Extends.update (more : Extends host nodes) (path : Path) (node : Node) :
    Extends host (Function.update nodes path (some node)) := by
  intro other absent
  by_cases same : other = path
  · rw [same, Function.update_self] at absent
    cases absent
  · rw [Function.update_of_ne same] at absent
    exact more other absent

theorem extends_makeDirectory (more : Extends host nodes) {made : Nodes} {isNew : Bool}
    (done : makeDirectory host nodes path = .ok (made, isNew)) :
    Extends host made ∧ (isNew = true → host.nodes path = none) := by
  unfold makeDirectory at done
  split at done
  next =>
    cases done
    exact ⟨more, nofun⟩
  next missing =>
    split at done
    next => cases done
    next =>
      cases done
      refine ⟨more.update path _, fun _ => more path ?_⟩
      rwa [Bool.not_eq_true, Option.isSome_eq_false_iff, Option.isNone_iff_eq_none] at missing

theorem extends_setMode (more : Extends host nodes) {node : Node} {mode : Nat} {set : Nodes}
    {changed : Bool} (done : setMode host nodes path node mode = .ok (set, changed)) :
    Extends host set := by
  unfold setMode at done
  split at done
  next =>
    cases done
    exact more
  next =>
    split at done
    next => cases done
    next =>
      cases done
      exact more.update path _

/-- Each path lies in the one before it, the first in a given directory. -/
def Nested : Path → List Path → Prop
  | _, [] => True
  | parent, path :: rest => (∃ name, path = parent ++ [name]) ∧ Nested path rest

/-- **What is made or accepted is on the device of the root**, step by step: the
directory above has been found there before. -/
theorem deviceOf_of_mem_privateDirsFrom {parent : Path} (nested : Nested parent paths)
    (more : Extends host nodes) (above : host.deviceOf parent = host.deviceOf root) :
    ∀ path ∈ (privateDirsFrom host root nodes paths).created ++
      (privateDirsFrom host root nodes paths).accepted, host.deviceOf path = host.deviceOf root := by
  induction paths generalizing nodes parent with
  | nil => exact fun _ member => absurd member List.not_mem_nil
  | cons path rest ih =>
      obtain ⟨⟨name, inside⟩, further⟩ := nested
      rw [privateDirsFrom]
      split
      next => exact fun _ member => absurd member List.not_mem_nil
      next made isNew done =>
        obtain ⟨more', wasMissing⟩ := extends_makeDirectory more done
        have isCreated : ∀ other ∈ newPath isNew path,
            host.deviceOf other = host.deviceOf root := by
          intro other member
          unfold newPath at member
          split at member
          next new =>
            rw [List.mem_singleton.mp member, ← above, inside]
            rw [inside] at wasMissing
            exact deviceOf_of_missing host (wasMissing new)
          next => cases member
        have onlyCreated : ∀ other ∈ newPath isNew path ++ [],
            host.deviceOf other = host.deviceOf root := by
          rw [List.append_nil]
          exact isCreated
        split
        next => exact onlyCreated
        next node isNode =>
          split
          next => exact onlyCreated
          next isPrivate' =>
            have own : host.deviceOf path = host.deviceOf root := by
              rw [Bool.not_eq_true', Bool.not_eq_false, isPrivate, Bool.and_eq_true,
                beq_iff_eq] at isPrivate'
              exact isPrivate'.2
            have onlyThis : ∀ other ∈ newPath isNew path ++ [path],
                host.deviceOf other = host.deviceOf root := by
              rw [List.forall_mem_append, List.forall_mem_singleton]
              exact ⟨isCreated, own⟩
            split
            next => exact onlyThis
            next set changed isSet =>
              have later := ih further (extends_setMode more' isSet) own
              rw [List.forall_mem_append] at later ⊢
              rw [List.forall_mem_append, List.forall_mem_cons]
              exact ⟨⟨isCreated, later.1⟩, own, later.2⟩

theorem checkMount_of_guard (accepted : guard host = .ok ()) : ∃ device,
    host.statDevice host.config.device = some device ∧
      checkMount (mountinfo host.records) device = .ok () := by
  unfold guard at accepted
  simp only [bind_eq_ok, require_eq_ok, exists_const] at accepted
  obtain ⟨-, -, -, device, isDevice, checked⟩ := accepted
  refine ⟨device, ?_, checked⟩
  cases stat : host.statDevice host.config.device with
  | none =>
      rw [stat] at isDevice
      cases isDevice
  | some other =>
      rw [stat] at isDevice
      cases isDevice
      rfl

/-- A run that makes or accepts a directory has passed the guard. -/
theorem deviceOf_of_mem_prepare (member : path ∈ (prepare host).created ++ (prepare host).accepted) :
    guard host = .ok () ∧ host.deviceOf path = host.deviceOf mountPath := by
  unfold prepare at member
  split at member
  next => cases member
  next accepted =>
    refine ⟨accepted, ?_⟩
    split at member
    next => cases member
    next =>
      have nested : Nested mountPath [stateParent, statePath] :=
        ⟨⟨_, rfl⟩, ⟨_, rfl⟩, trivial⟩
      exact deviceOf_of_mem_privateDirsFrom nested (fun _ absent => absent) rfl path member

/-- **Tailscale state is only placed on the dedicated disk, exactly where no later mount
hides it**: what the check accepts is where the path leads, and each directory that a
`prepare` run makes or accepts is on that device. -/
theorem dedicatedDisk_iff (host : Host) (device : DeviceStat) :
    ((checkMount (mountinfo host.records) device = .ok () → ReachesDisk host.records device) ∧
      (host.statDevice host.config.device = some device →
        ∀ path ∈ (prepare host).created ++ (prepare host).accepted,
          host.deviceOf path = some device.number)) ↔
      (device.isBlock = true → NotHidden host.records device) := by
  rw [← reachesDisk_iff host.rooted]
  refine ⟨And.left, fun sound => ⟨sound, fun isDevice path member => ?_⟩⟩
  obtain ⟨accepted, same⟩ := deviceOf_of_mem_prepare member
  obtain ⟨other, isOther, checked⟩ := checkMount_of_guard accepted
  rw [isDevice] at isOther
  cases isOther
  obtain ⟨record, leads, -, ofDisk⟩ := sound checked
  rw [same, Host.deviceOf, leads, Option.map_some, ofDisk.number]

end Directories

/-! A file system in memory over `/var`, mounted after the disk. -/

/-- A record with usual fields. -/
def plainRecord (device : Nat × Nat) (point fstype : List Char)
    (pointFilled : (!point.isEmpty && point.all (fun char => !isSpace char) && point != ['-']) =
      true)
    (fstypeFilled : (!fstype.isEmpty && fstype.all fun char => !isSpace char) = true) : Record where
  id := ['1']
  parent := ['1']
  device := device
  root := ['/']
  point := point
  options := ['r', 'w']
  optional := []
  fstype := fstype
  source := ['d']
  superOptions := ['r', 'w']
  visible := by
    rw [Bool.and_eq_true, Bool.and_eq_true, Bool.not_eq_true', List.isEmpty_eq_false_iff]
      at pointFilled
    rw [Bool.and_eq_true, Bool.not_eq_true', List.isEmpty_eq_false_iff] at fstypeFilled
    simp [pointFilled.1.1, fstypeFilled.1]
  solid := by
    simp only [Bool.and_eq_true, List.all_eq_true, Bool.not_eq_true'] at pointFilled fstypeFilled
    have nothing : ∀ char ∈ ([] : List Char), isSpace char = false := List.forall_mem_nil _
    simp only [List.append_nil, List.forall_mem_cons]
    exact ⟨⟨rfl, nothing⟩, ⟨rfl, nothing⟩, ⟨rfl, nothing⟩, pointFilled.1.2, ⟨rfl, rfl, nothing⟩,
      fstypeFilled.2, ⟨rfl, nothing⟩, ⟨rfl, rfl, nothing⟩,
      fun _ member => absurd member List.not_mem_nil⟩
  noDash := by
    simp only [Bool.and_eq_true, bne_iff_ne] at pointFilled
    simp [pointFilled.2]

/-- The root, the disk and a file system over `/var`. -/
def coveredRecords : List Record :=
  [plainRecord (0, 1) ['/'] "overlay".toList (by decide) (by decide),
    plainRecord (8, 1) mountText "ext4".toList (by decide +kernel) (by decide),
    plainRecord (0, 40) "/var".toList "tmpfs".toList (by decide) (by decide)]

theorem rooted_coveredRecords : coveredRecords.head?.map Record.path = some [] := by
  decide +kernel

/-- A host with these mounts, on which only the directories down to the disk exist. -/
def coveredHost : Host where
  config := ⟨"/dev/sda1".toList, "rpi5".toList⟩
  records := coveredRecords
  rooted := rooted_coveredRecords
  nodes path := if path <+: mountPath then some ⟨.directory, 0, 0o755⟩ else none
  points := by decide +kernel
  statDevice name := if name = "/dev/sda1".toList then some ⟨true, (8, 1)⟩ else none
  plainMount := true
  tun := true
  mkdirFails _ := false
  chmodFails _ := false
  umask := 0o022

/-- **A mount over a parent directory is not noticed**: the check accepts the record of
the disk, and the path leads into the file system over `/var`, in which a run makes the
directories of the state. -/
theorem hidden_disk_accepted :
    checkMount (mountinfo coveredRecords) ⟨true, (8, 1)⟩ = .ok () ∧
      coveredRecords.head?.map Record.path = some [] ∧
        ¬ReachesDisk coveredRecords ⟨true, (8, 1)⟩ ∧
          (prepare coveredHost).created = [stateParent, statePath] ∧
            coveredHost.deviceOf statePath = some (0, 40) := by
  refine ⟨?_, rooted_coveredRecords, ?_, ?_, ?_⟩
  · refine checkMount_eq_ok.mpr ⟨rfl, coveredRecords[1], ?_, rfl, rfl, rfl, by decide⟩
    rfl
  · rintro ⟨record, leads, -, ofDisk⟩
    rw [reachedMount_eq rooted_coveredRecords] at leads
    have device : (coveredRecords.filter fun record =>
        decide (record.path <+: mountPath)).getLast?.map Record.device = some (0, 40) := by
      decide +kernel
    rw [leads, Option.map_some, ofDisk.number] at device
    cases device
  · decide +kernel
  · decide +kernel

end HomeclusterInfra.HostTailscale
