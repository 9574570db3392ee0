import Mathlib.Data.List.Basic
import HomeclusterInfra.Library.Text
import HomeclusterInfra.Library.Writes

/-!
# Board directories

A board boots from the path in the TFTP root that its hash names. In directory
mode this is a directory of links into `dates/<release>`, with a `config.txt`
and a `cmdline.txt` of its own. Where device trees are stripped of
`cgroup_disable=memory`, the directory holds copies of them instead.

File names are plain names. A file's content is a list of characters, one for
each byte.
-/

set_option autoImplicit false

namespace HomeclusterInfra.Tftp

open Text Checked Writes

/-! ## Releases and boards -/

abbrev Content := List Char

/-- The releases below `/srv/gentoo`. -/
structure Releases where
  /-- `tftp-root/dates/<release>/<path>` -/
  file : String → String → Option Content
  /-- `tftp-root/dates/<release>` is a directory. -/
  tftpDirectory : String → Bool
  /-- `<release>/nfs` is a directory. -/
  rootfsDirectory : String → Bool

/-- A file of a board directory: a link `../dates/<release>/<path>` or a regular file. -/
inductive Served where
  | link (release path : String)
  | copy (content : Content)
deriving DecidableEq

/-- `[ -e dest ] && [ ! -L dest ]` -/
def Served.isCopy : Served → Bool
  | .link _ _ => false
  | .copy _ => true

abbrev BoardFiles := String × String → Option Served

/-- The paths of the boards in the TFTP root. -/
structure Boards where
  /-- A path that is a link `dates/<release>`. -/
  symlink : String → Option String
  /-- The files of a path that is a directory. -/
  file : BoardFiles

/-- The content that a board is served under a name in its directory. -/
def served (releases : Releases) (file : BoardFiles) (boardHash path : String) : Option Content :=
  match file (boardHash, path) with
  | some (.link release target) => releases.file release target
  | some (.copy content) => some content
  | none => none

/-! ## Hosts -/

/-- The variables of the role. -/
structure Vars where
  /-- `openwrt_gentoo_tftp_strip_dtb_cgroup_disable_memory` -/
  stripDtb : Bool
  /-- `openwrt_gentoo_initramfs_enabled` -/
  initramfsEnabled : Bool
  /-- `openwrt_gentoo_initramfs_tftp_paths` -/
  initramfsPaths : List String
  /-- `openwrt_gentoo_tftp_config_enabled` -/
  configEnabled : Bool
  /-- `openwrt_gentoo_tftp_cmdline_enabled` -/
  cmdlineEnabled : Bool
  /-- `openwrt_gentoo_server_host` -/
  serverHost : List Char
  /-- `openwrt_gentoo_cmdline_nfs_options` -/
  nfsOptions : List Char
  /-- `openwrt_gentoo_cmdline_ip` -/
  cmdlineIp : List Char
  /-- `openwrt_gentoo_cmdline_extra_args` -/
  cmdlineExtraArgs : List Char
  /-- `openwrt_gentoo_rootfs_target_stages` -/
  targetStages : List String
  /-- What `config.txt.j2` makes of the name of a host and its release. -/
  configText : String → String → Content

/-- An item of `openwrt_pxe_hosts_effective`. Its texts are trimmed ones. -/
structure PxeHost where
  name : String
  boardHash : String
  tftpStage : String
  tftpRelease : String
  rootfsRelease : String
  cmdlineRootArg : List Char
  cmdlineIp : List Char
  cmdlineExtraArgs : List Char
  /-- `rpi_kernel_image`, `rpi_initramfs` and `rpi_device_tree`, and the same for
  `rpi4` and `rpi5`. -/
  bootPaths : List String

/-- An item of `openwrt_gentoo_tftp_host_entries`. -/
structure HostEntry where
  name : String
  boardHash : String
  release : String
  rootfsRelease : String
  stage : String
  cmdlineRootArg : List Char
  cmdlineIp : List Char
  cmdlineExtraArgs : List Char
  symlinks : List String

/-- `host_symlinks` before the paths of the host. -/
def commonSymlinks : List String :=
  ["start4.elf", "start.elf", "fixup4.dat", "fixup.dat", "bootcode.bin", "kernel8.img",
    "kernel8_rt.img", "kernel_2712.img", "bcm2711-rpi-4-b.dtb", "bcm2712-rpi-5-b.dtb"]

/-- `host_symlinks` -/
def hostSymlinks (bootPaths : List String) : List String :=
  bootPaths.foldl
    (fun symlinks path =>
      if path != "" && !symlinks.contains path then symlinks ++ [path] else symlinks)
    commonSymlinks

/-- The entry of a host with a board hash. -/
def hostEntry (item : PxeHost) : Option HostEntry :=
  if item.boardHash = "" then none
  else some {
    name := item.name
    boardHash := item.boardHash
    release := item.tftpRelease
    rootfsRelease := if item.rootfsRelease = "" then item.tftpRelease else item.rootfsRelease
    stage := item.tftpStage
    cmdlineRootArg := item.cmdlineRootArg
    cmdlineIp := item.cmdlineIp
    cmdlineExtraArgs := item.cmdlineExtraArgs
    symlinks := hostSymlinks item.bootPaths }

theorem mem_hostSymlinks {path : String} (member : path ∈ commonSymlinks) :
    ∀ bootPaths, path ∈ hostSymlinks bootPaths := by
  have further : ∀ (bootPaths symlinks : List String), path ∈ symlinks →
      path ∈ bootPaths.foldl
        (fun symlinks path =>
          if path != "" && !symlinks.contains path then symlinks ++ [path] else symlinks)
        symlinks := by
    intro bootPaths
    induction bootPaths with
    | nil => exact fun _ here => here
    | cons next bootPaths ih =>
        intro symlinks here
        rw [List.foldl_cons]
        apply ih
        split
        · exact List.mem_append_left _ here
        · exact here
  exact fun bootPaths => further bootPaths _ member

/-! ## `cmdline.txt` -/

/-- `str.split()` -/
def splitWords (text : List Char) : List (List Char) :=
  (text.splitOnP isSpace).filter fun word => !word.isEmpty

theorem splitWords_append_blank {before after : List Char} {blank : Char}
    (isBlank : isSpace blank = true) :
    splitWords (before ++ blank :: after) = splitWords before ++ splitWords after := by
  rw [splitWords, List.splitOnP_append_cons _ _ isBlank, List.filter_append, splitWords, splitWords]

/-- The words of texts with a blank between them. -/
theorem splitWords_intercalate (texts : List (List Char)) :
    splitWords ([' '].intercalate texts) = texts.flatMap splitWords := by
  induction texts with
  | nil => rfl
  | cons text texts ih =>
      cases texts with
      | nil => rw [List.intercalate_singleton, List.flatMap_singleton]
      | cons next rest =>
          rw [List.intercalate_cons_cons, List.append_assoc, List.singleton_append,
            splitWords_append_blank (by decide), ih]
          rfl

/-- The root argument of a release, up to the NFS options. -/
def rootPrefix (vars : Vars) (rootfsRelease : String) : List Char :=
  "root=nfs4:".toList ++ vars.serverHost ++ ":/gentoo/".toList ++ rootfsRelease.toList ++
    "/nfs,".toList

/-- `value | default(other, true)` -/
def orDefault (value other : List Char) : List Char :=
  if value.isEmpty then other else value

/-- The arguments that the entry and the variables have a say in. -/
def hostArguments (vars : Vars) (entry : HostEntry) : List (List Char) :=
  let ip := strip (orDefault entry.cmdlineIp vars.cmdlineIp)
  [strip (orDefault entry.cmdlineRootArg (rootPrefix vars entry.rootfsRelease ++ vars.nfsOptions)),
    if ip.isEmpty then [] else "ip=".toList ++ ip,
    "rw".toList,
    "rpi_tftp_board_hash=".toList ++ entry.boardHash.toList,
    "rpi_tftp_host=".toList ++ entry.name.toList] ++
  splitWords (strip (orDefault entry.cmdlineExtraArgs vars.cmdlineExtraArgs))

/-- `cmdline.txt.j2` -/
def cmdlineText (vars : Vars) (entry : HostEntry) : Content :=
  [' '].intercalate
    ((["console=serial0,115200".toList, "console=tty1".toList] ++ hostArguments vars entry ++
      ["rd.info".toList, "rd.debug".toList, "rd.overlayfs=1".toList, "rd.shell".toList]).filter
        fun argument => !argument.isEmpty) ++ ['\n']

/-! ## The tasks of `tftp_hosts.yml` -/

/-- Where a play stops. -/
inductive Stop where
  | releaseUnset
  | sourceMissing
  | nonSymlink
  | dtbRefused
  | inputRefused
  | liveSelectorUnresolved
  | plannedSelectorRefused
  | selectorSourceMissing
  | acceptedChanged
  | hostReleaseRefused
  | appliedSelectorRefused
  | postCheckFailed
deriving DecidableEq

/-- `is match('.*\.dtb$')` -/
def isDtb (path : String) : Bool :=
  path.toList.all (· != '\n') && ".dtb".toList.isSuffixOf path.toList

/-- The entries with each of their boot files. -/
def symlinkPairs (entries : List HostEntry) : List (HostEntry × String) :=
  entries.flatMap fun entry => entry.symlinks.map fun path => (entry, path)

theorem mem_symlinkPairs {entries : List HostEntry} {entry : HostEntry} {path : String} :
    (entry, path) ∈ symlinkPairs entries ↔ entry ∈ entries ∧ path ∈ entry.symlinks := by
  unfold symlinkPairs
  simp only [List.mem_flatMap, List.mem_map, Prod.mk.injEq]
  constructor
  · rintro ⟨found, member, name, listed, rfl, rfl⟩
    exact ⟨member, listed⟩
  · rintro ⟨member, listed⟩
    exact ⟨entry, member, path, listed, rfl, rfl⟩

/-- The link of a release that an entry is to have under a name. -/
def linkOf (target : HostEntry × String) : (String × String) × Served :=
  ((target.1.boardHash, target.2), .link target.1.release target.2)

/-- The shell command that makes a link. -/
def linkFile (file : BoardFiles) (target : HostEntry × String) : Except Stop BoardFiles :=
  if file (linkOf target).1 = some (linkOf target).2 then .ok file
  else if (file (linkOf target).1).any Served.isCopy then .error .nonSymlink
  else .ok (write file (linkOf target))

/-- The boot files that are linked; device trees are not where they are stripped. -/
def linkedPairs (vars : Vars) (entries : List HostEntry) : List (HostEntry × String) :=
  (symlinkPairs entries).filter fun target => !(vars.stripDtb && isDtb target.2)

/-- The directories that are linked. -/
def directoryPairs (entries : List HostEntry) : List (HostEntry × String) :=
  entries.map fun entry => (entry, "overlays")

/-- The initramfs files that are linked, whatever is there. -/
def initramfsPairs (vars : Vars) (entries : List HostEntry) : List (HostEntry × String) :=
  if vars.initramfsEnabled then
    entries.flatMap fun entry =>
      (vars.initramfsPaths.filter fun path => path != "").map fun path => (entry, path)
  else []

/-- The `config.txt` files. -/
def configWrites (vars : Vars) (entries : List HostEntry) :
    List ((String × String) × Served) :=
  if vars.configEnabled then
    entries.map fun entry =>
      ((entry.boardHash, "config.txt"), .copy (vars.configText entry.name entry.release))
  else []

/-- The `cmdline.txt` files. -/
def cmdlineWrites (vars : Vars) (entries : List HostEntry) :
    List ((String × String) × Served) :=
  if vars.cmdlineEnabled then
    entries.map fun entry =>
      ((entry.boardHash, "cmdline.txt"), .copy (cmdlineText vars entry))
  else []

/-- A board path that is a link becomes an empty directory. -/
def openBoard (boards : Boards) (entry : HostEntry) : Boards :=
  match boards.symlink entry.boardHash with
  | none => boards
  | some _ =>
      { symlink := Function.update boards.symlink entry.boardHash none
        file := fun key => if key.1 = entry.boardHash then none else boards.file key }

/-- `tftp_hosts.yml` in directory mode. -/
def tftpHosts (vars : Vars) (releases : Releases) (entries : List HostEntry) (boards : Boards) :
    Except Stop Boards := do
  require (entries.all fun entry => entry.release != "") .releaseUnset
  require ((symlinkPairs entries).all fun target =>
    (releases.file target.1.release target.2).isSome) .sourceMissing
  let opened := entries.foldl openBoard boards
  let linked ← (linkedPairs vars entries).foldlM linkFile opened.file
  let linked ← (directoryPairs entries).foldlM linkFile linked
  return { opened with
    file := writeAll linked ((initramfsPairs vars entries).map linkOf ++ configWrites vars entries ++
      cmdlineWrites vars entries) }

/-! ## Device trees -/

/-- `NEEDLE` -/
def needle : List Char :=
  "cgroup_disable=memory".toList

/-- `data.replace(NEEDLE, b" " * len(NEEDLE))`, where so many characters are yet
to be blanked. -/
def blankFrom : Nat → Content → Content
  | _, [] => []
  | left + 1, _ :: rest => ' ' :: blankFrom left rest
  | 0, char :: rest =>
      if needle.isPrefixOf (char :: rest) then ' ' :: blankFrom (needle.length - 1) rest
      else char :: blankFrom 0 rest

/-- A device tree without `cgroup_disable=memory`. -/
def blanked (data : Content) : Content :=
  blankFrom 0 data

/-- `\d{8}(?:-[0-9A-Za-z._-]+)?` -/
def isDatedRelease [UnicodeData] (text : String) : Bool :=
  let chars := text.toList
  (chars.take 8).length == 8 && (chars.take 8).all UnicodeData.isDecimal &&
    match chars.drop 8 with
    | [] => true
    | dash :: rest => dash == '-' && !rest.isEmpty &&
        rest.all fun char => char.isAlphanum || char == '.' || char == '_' || char == '-'

/-- `patch` -/
def patch [UnicodeData] (releases : Releases) (file : BoardFiles) (target : HostEntry × String) :
    Except Stop BoardFiles :=
  let expected : Bool := match file (target.1.boardHash, target.2) with
    | some (.link release path) => isDatedRelease release && path == target.2
    | _ => true
  match releases.file target.1.release target.2 with
  | some data =>
      if expected then
        .ok (write file ((target.1.boardHash, target.2), .copy (blanked data)))
      else .error .dtbRefused
  | none => .error .dtbRefused

/-- `tftp_dtb_patch.yml` -/
def tftpDtbPatch [UnicodeData] (vars : Vars) (releases : Releases) (entries : List HostEntry)
    (boards : Boards) : Except Stop Boards := do
  let targets := (symlinkPairs entries).filter fun target => vars.stripDtb && isDtb target.2 &&
    (vars.targetStages.isEmpty || vars.targetStages.contains target.1.stage)
  let file ← targets.foldlM (patch releases) boards.file
  return { boards with file }

/-! ## What the tasks do -/

/-- The links that are refused where a regular file is. -/
def linkWrites (vars : Vars) (entries : List HostEntry) : List ((String × String) × Served) :=
  (linkedPairs vars entries ++ directoryPairs entries).map linkOf

/-- Everything the tasks write, in order. -/
def hostWrites (vars : Vars) (entries : List HostEntry) : List ((String × String) × Served) :=
  linkWrites vars entries ++ (initramfsPairs vars entries).map linkOf ++
    configWrites vars entries ++ cmdlineWrites vars entries

theorem linkFile_eq (file : BoardFiles) (target : HostEntry × String) :
    linkFile file target = guardedWrite Served.isCopy Stop.nonSymlink file (linkOf target) := by
  unfold linkFile guardedWrite
  by_cases same : file (linkOf target).1 = some (linkOf target).2
  · have kept : write file (linkOf target) = file := by
      rw [write, ← same]
      exact Function.update_eq_self _ _
    rw [if_pos same, kept, same]
    rfl
  · rw [if_neg same]

theorem foldlM_linkFile_eq_ok {targets : List (HostEntry × String)} {file result : BoardFiles} :
    targets.foldlM linkFile file = .ok result ↔
      (∀ target ∈ targets, (file (linkOf target).1).any Served.isCopy = false) ∧
        writeAll file (targets.map linkOf) = result := by
  have guarded : targets.foldlM linkFile file =
      (targets.map linkOf).foldlM (guardedWrite Served.isCopy Stop.nonSymlink) file := by
    rw [List.foldlM_map]
    congr 1
    funext file target
    exact linkFile_eq file target
  have harmless : ∀ entry ∈ targets.map linkOf, Served.isCopy entry.2 = false := by
    intro entry member
    obtain ⟨target, -, rfl⟩ := List.mem_map.mp member
    rfl
  rw [guarded, foldlM_guardedWrite_eq_ok harmless, List.forall_mem_map]

/-- What `tftp_hosts.yml` asks of the releases and of the boards it opens. -/
structure HostsReady (vars : Vars) (releases : Releases) (entries : List HostEntry)
    (opened : BoardFiles) : Prop where
  released : ∀ entry ∈ entries, entry.release ≠ ""
  sources : ∀ entry ∈ entries, ∀ path ∈ entry.symlinks,
    (releases.file entry.release path).isSome = true
  replaceable : ∀ written ∈ linkWrites vars entries,
    (opened written.1).any Served.isCopy = false

/-- **`tftp_hosts.yml` writes all or stops before it writes.** -/
theorem tftpHosts_eq_ok {vars : Vars} {releases : Releases} {entries : List HostEntry}
    {boards result : Boards} :
    tftpHosts vars releases entries boards = .ok result ↔
      HostsReady vars releases entries (entries.foldl openBoard boards).file ∧
        { entries.foldl openBoard boards with
          file := writeAll (entries.foldl openBoard boards).file (hostWrites vars entries) } =
            result := by
  have joined : ∀ file final : BoardFiles,
      (linkedPairs vars entries ++ directoryPairs entries).foldlM linkFile file = .ok final ↔
        ∃ linked, (linkedPairs vars entries).foldlM linkFile file = .ok linked ∧
          (directoryPairs entries).foldlM linkFile linked = .ok final := by
    intro file final
    rw [List.foldlM_append, bind_eq_ok]
  have written : ∀ file : BoardFiles, writeAll file (hostWrites vars entries) =
      writeAll (writeAll file (linkWrites vars entries))
        ((initramfsPairs vars entries).map linkOf ++ configWrites vars entries ++
          cmdlineWrites vars entries) := by
    intro file
    rw [← writeAll_append, hostWrites, List.append_assoc, List.append_assoc, List.append_assoc]
  unfold tftpHosts
  rw [require_bind_eq_ok, require_bind_eq_ok, written]
  simp only [bind_eq_ok, pure_eq_ok]
  constructor
  · rintro ⟨released, sources, middle, links, final, directories, rfl⟩
    obtain ⟨free, rfl⟩ := foldlM_linkFile_eq_ok.mp ((joined _ _).mpr ⟨middle, links, directories⟩)
    refine ⟨⟨?_, ?_, ?_⟩, rfl⟩
    · simpa using released
    · intro entry member path listed
      exact List.all_eq_true.mp sources (entry, path) (mem_symlinkPairs.mpr ⟨member, listed⟩)
    · exact List.forall_mem_map.mpr free
  · rintro ⟨ready, rfl⟩
    obtain ⟨middle, links, directories⟩ := (joined _ _).mp
      (foldlM_linkFile_eq_ok.mpr ⟨List.forall_mem_map.mp ready.replaceable, rfl⟩)
    refine ⟨by simpa using ready.released, ?_, middle, links, _, directories, rfl⟩
    rw [List.all_eq_true]
    rintro ⟨entry, path⟩ pair
    obtain ⟨member, listed⟩ := mem_symlinkPairs.mp pair
    exact ready.sources entry member path listed

/-! ## What a board holds afterwards -/

/-- The last entry of a board. -/
def lastEntry (entries : List HostEntry) (boardHash : String) : Option HostEntry :=
  (entries.filter fun entry => entry.boardHash = boardHash).getLast?

/-- The text that is rendered for a board under a name. -/
def rendered (vars : Vars) (entries : List HostEntry) (boardHash path : String) :
    Option Content :=
  if vars.cmdlineEnabled && path == "cmdline.txt" then
    (lastEntry entries boardHash).map (cmdlineText vars)
  else if vars.configEnabled && path == "config.txt" then
    (lastEntry entries boardHash).map fun entry => vars.configText entry.name entry.release
  else none

/-- All links that are made. -/
def allLinks (vars : Vars) (entries : List HostEntry) : List ((String × String) × Served) :=
  linkWrites vars entries ++ (initramfsPairs vars entries).map linkOf

/-- The name is linked for the entry. -/
def Linked (vars : Vars) (entry : HostEntry) (path : String) : Prop :=
  (path ∈ entry.symlinks ∧ (vars.stripDtb && isDtb path) = false) ∨ path = "overlays" ∨
    (vars.initramfsEnabled = true ∧ path ∈ vars.initramfsPaths ∧ path ≠ "")

theorem mem_allLinks {vars : Vars} {entries : List HostEntry}
    {written : (String × String) × Served} :
    written ∈ allLinks vars entries ↔
      ∃ entry ∈ entries, ∃ path, Linked vars entry path ∧ linkOf (entry, path) = written := by
  have initramfs : ∀ target, target ∈ initramfsPairs vars entries ↔ target.1 ∈ entries ∧
      vars.initramfsEnabled = true ∧ target.2 ∈ vars.initramfsPaths ∧ target.2 ≠ "" := by
    rintro ⟨entry, path⟩
    unfold initramfsPairs
    split
    next enabled => simp [enabled]
    next disabled => simp [disabled]
  have links : ∀ target, target ∈ linkedPairs vars entries ∨ target ∈ directoryPairs entries ↔
      target.1 ∈ entries ∧ (target.2 ∈ target.1.symlinks ∧
        (vars.stripDtb && isDtb target.2) = false ∨ target.2 = "overlays") := by
    rintro ⟨entry, path⟩
    simp only [linkedPairs, List.mem_filter, mem_symlinkPairs, directoryPairs,
      List.mem_map, Prod.mk.injEq, Bool.not_eq_true']
    constructor
    · rintro (⟨⟨member, listed⟩, kept⟩ | ⟨found, member, rfl, rfl⟩)
      · exact ⟨member, .inl ⟨listed, kept⟩⟩
      · exact ⟨member, .inr rfl⟩
    · rintro ⟨member, ⟨listed, kept⟩ | rfl⟩
      · exact .inl ⟨⟨member, listed⟩, kept⟩
      · exact .inr ⟨entry, member, rfl, rfl⟩
  simp only [allLinks, linkWrites, List.mem_append, List.mem_map, links, initramfs]
  constructor
  · rintro (⟨target, ⟨member, listed⟩, rfl⟩ | ⟨target, ⟨member, listed⟩, rfl⟩)
    · exact ⟨target.1, member, target.2, listed.imp_right Or.inl, rfl⟩
    · exact ⟨target.1, member, target.2, .inr (.inr listed), rfl⟩
  · rintro ⟨entry, member, path, listed | same | listed, rfl⟩
    · exact .inl ⟨(entry, path), ⟨member, .inl listed⟩, rfl⟩
    · exact .inl ⟨(entry, path), ⟨member, .inr same⟩, rfl⟩
    · exact .inr ⟨(entry, path), ⟨member, listed⟩, rfl⟩

/-- One file is written for each entry: a board has the last entry's. -/
theorem writeAll_perEntry {file : BoardFiles} {entries : List HostEntry} {name : String}
    {value : HostEntry → Served} {boardHash path : String} :
    writeAll file (entries.map fun entry => ((entry.boardHash, name), value entry))
        (boardHash, path) =
      if path = name then ((lastEntry entries boardHash).map value).or (file (boardHash, path))
      else file (boardHash, path) := by
  by_cases same : path = name
  · subst same
    have own : entries.filter ((fun written => decide (written.1 = (boardHash, path))) ∘
        fun entry => ((entry.boardHash, path), value entry)) =
        entries.filter fun entry => entry.boardHash = boardHash := by
      apply List.filter_congr
      intro entry _
      simp
    rw [if_pos rfl, writeAll_apply, List.filter_map, own, List.getLast?_map, Option.map_map]
    rfl
  · rw [if_neg same]
    apply writeAll_of_notMem
    intro written member
    obtain ⟨entry, -, rfl⟩ := List.mem_map.mp member
    exact fun equal => same (congrArg Prod.snd equal).symm

/-- **A name holds what was rendered for it last**, else what was linked there. -/
theorem writeAll_hostWrites (vars : Vars) (entries : List HostEntry) (file : BoardFiles)
    (boardHash path : String) :
    writeAll file (hostWrites vars entries) (boardHash, path) =
      match rendered vars entries boardHash path with
      | some text => some (.copy text)
      | none => writeAll file (allLinks vars entries) (boardHash, path) := by
  have config : ∀ before : BoardFiles, writeAll before (configWrites vars entries)
      (boardHash, path) =
        if vars.configEnabled && path == "config.txt" then
          ((lastEntry entries boardHash).map fun entry =>
            Served.copy (vars.configText entry.name entry.release)).or (before (boardHash, path))
        else before (boardHash, path) := by
    intro before
    unfold configWrites
    cases vars.configEnabled with
    | false => rfl
    | true =>
        rw [if_pos rfl, writeAll_perEntry]
        simp
  have cmdline : ∀ before : BoardFiles, writeAll before (cmdlineWrites vars entries)
      (boardHash, path) =
        if vars.cmdlineEnabled && path == "cmdline.txt" then
          ((lastEntry entries boardHash).map fun entry =>
            Served.copy (cmdlineText vars entry)).or (before (boardHash, path))
        else before (boardHash, path) := by
    intro before
    unfold cmdlineWrites
    cases vars.cmdlineEnabled with
    | false => rfl
    | true =>
        rw [if_pos rfl, writeAll_perEntry]
        simp
  rw [show hostWrites vars entries = allLinks vars entries ++ configWrites vars entries ++
    cmdlineWrites vars entries from rfl, writeAll_append, writeAll_append, cmdline, config, rendered]
  by_cases isCmdline : (vars.cmdlineEnabled && path == "cmdline.txt") = true
  · have other : (vars.configEnabled && path == "config.txt") = false := by
      rw [Bool.and_eq_true, beq_iff_eq] at isCmdline
      rw [isCmdline.2, Bool.and_eq_false_iff]
      exact .inr (by decide)
    rw [if_pos isCmdline, if_pos isCmdline, if_neg (by simp [other])]
    cases lastEntry entries boardHash <;> rfl
  · rw [if_neg isCmdline, if_neg isCmdline]
    by_cases isConfig : (vars.configEnabled && path == "config.txt") = true
    · rw [if_pos isConfig, if_pos isConfig]
      cases lastEntry entries boardHash <;> rfl
    · rw [if_neg isConfig, if_neg isConfig]

/-- Entries of one board have one release. -/
def OneRelease (entries : List HostEntry) : Prop :=
  ∀ first ∈ entries, ∀ second ∈ entries, first.boardHash = second.boardHash →
    first.release = second.release

theorem writeAll_allLinks_of_linked {vars : Vars} {entries : List HostEntry} {file : BoardFiles}
    {entry : HostEntry} {path : String} (one : OneRelease entries) (member : entry ∈ entries)
    (linked : ∃ other ∈ entries, other.boardHash = entry.boardHash ∧ Linked vars other path) :
    writeAll file (allLinks vars entries) (entry.boardHash, path) =
      some (.link entry.release path) := by
  apply writeAll_of_agree
  · obtain ⟨other, inside, board, named⟩ := linked
    exact ⟨linkOf (other, path), mem_allLinks.mpr ⟨other, inside, path, named, rfl⟩,
      Prod.ext board rfl⟩
  · intro written member' same
    obtain ⟨other, inside, name, -, rfl⟩ := mem_allLinks.mp member'
    obtain ⟨board, rfl⟩ := Prod.mk.inj same
    exact congrArg (fun release => Served.link release _) (one other inside entry member board)

theorem writeAll_allLinks_of_not_linked {vars : Vars} {entries : List HostEntry}
    {file : BoardFiles} {boardHash path : String}
    (other : ∀ entry ∈ entries, entry.boardHash = boardHash → ¬ Linked vars entry path) :
    writeAll file (allLinks vars entries) (boardHash, path) = file (boardHash, path) := by
  apply writeAll_of_notMem
  intro written member same
  obtain ⟨entry, inside, name, linked, rfl⟩ := mem_allLinks.mp member
  obtain ⟨board, rfl⟩ := Prod.mk.inj same
  exact other entry inside board linked

end HomeclusterInfra.Tftp
