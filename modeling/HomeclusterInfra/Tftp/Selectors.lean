import HomeclusterInfra.Library.Mapping
import HomeclusterInfra.Rollout.Main
import HomeclusterInfra.Tftp.Boards
import Mathlib.Data.List.Infix

/-!
# The selector playbook

The playbook reads the live selectors of its targets from their board
directories, decides which ones to apply, and where these differ lets
`pxe_host_releases.yml` and `tftp_hosts.yml` switch the boards. It then looks at
two links and one argument of each target, and reports the selectors before and
after.

What the forward phases check about the content of the accepted release is one
condition of the request.
-/

set_option autoImplicit false

namespace HomeclusterInfra.Tftp

open Text Python Checked Rollout

/-! ## Live selectors -/

/-- What is found in the shortest end of a text that has it at its beginning. -/
def lastSuffix {α : Type} (find : List Char → Option α) : List Char → Option α
  | [] => find []
  | char :: rest =>
      match lastSuffix find rest with
      | some found => some found
      | none => find (char :: rest)

/-- The release of `:/gentoo/<release>/nfs,` at the beginning of a text. -/
def releaseAt (text : List Char) : Option (List Char) :=
  if ":/gentoo/".toList.isPrefixOf text then
    let name := (text.drop 9).takeWhile (· != '/')
    if "/nfs,".toList.isPrefixOf ((text.drop 9).drop name.length) then some name else none
  else none

/-- The release of a root argument at the beginning of a text. -/
def rootAt (text : List Char) : Option (List Char) :=
  if "root=nfs4:".toList.isPrefixOf text then
    lastSuffix releaseAt ((text.drop 10).takeWhile (· != ' '))
  else none

/-- `sed -n 's#.*root=nfs4:[^ ]*:/gentoo/\([^/ ]*\)/nfs,[^ ]*.*#\1#p' | sed -n '1p'` -/
def rootfsOf (text : Content) : Option (List Char) :=
  (text.splitOn '\n').findSome? (lastSuffix rootAt)

/-- The release that the path of a board leads to. -/
def liveRelease (boards : Boards) (boardHash : String) : Option String :=
  match boards.symlink boardHash with
  | some release => some release
  | none =>
      match boards.file (boardHash, "kernel8.img") with
      | some (.link release _) => some release
      | _ => none

/-- `$host_dir/cmdline.txt` -/
def liveCmdline (releases : Releases) (boards : Boards) (boardHash : String) : Option Content :=
  match boards.symlink boardHash with
  | some release => releases.file release "cmdline.txt"
  | none => served releases boards.file boardHash "cmdline.txt"

/-- A printed selector, as the play splits it. -/
def parseProbe (stdout : List Char) : Option Selector :=
  match (strip stdout).splitOn '\t' with
  | [tftpRelease, rootfsRelease] => some ⟨String.ofList tftpRelease, String.ofList rootfsRelease⟩
  | _ => none

/-- The selector that is read where the board is at a release and has this `cmdline.txt`. -/
def probeSelector (release : String) (text : Content) : Option Selector :=
  match rootfsOf text with
  | some rootfs =>
      if release = "" || rootfs.isEmpty then none
      else parseProbe (release.toList ++ '\t' :: rootfs ++ ['\n'])
  | none => none

/-- The live selector of a board. -/
def readSelector (releases : Releases) (boards : Boards) (boardHash : String) : Option Selector :=
  match liveRelease boards boardHash, liveCmdline releases boards boardHash with
  | some release, some text => probeSelector release text
  | _, _ => none

/-- The map has a well-formed selector for each target. -/
def holdsSelectors (selectors : Mapping Selector) (targets : List String) : Bool :=
  targets.all fun target => (selectors.get target).any Selector.wellFormed

/-- The hosts of the targets. -/
def targetHosts (hosts : List PxeHost) (targets : List String) : List PxeHost :=
  hosts.filter fun host => targets.contains host.name

/-- The names of hosts and what is read from their boards. -/
def probes (releases : Releases) (boards : Boards) (hosts : List PxeHost) :
    Option (Mapping Selector) :=
  hosts.mapM fun host =>
    (readSelector releases boards host.boardHash).map fun selector => (host.name, selector)

/-- `rpi5_common_kernel_live_selectors.yml` -/
def liveSelectors (releases : Releases) (hosts : List PxeHost) (boards : Boards)
    (targets : List String) : Except Stop (Mapping Selector) :=
  match probes releases boards (targetHosts hosts targets) with
  | none => .error .liveSelectorUnresolved
  | some found => do
      let selectors := Mapping.update [] found
      require (found.length == targets.length &&
        (targetHosts hosts targets).all (fun host => host.boardHash != "") &&
        selectors.length == targets.length && holdsSelectors selectors targets)
        .liveSelectorUnresolved
      return selectors

/-! ## Applied selectors -/

/-- The inventory groups that the play looks at. -/
structure Groups where
  envStg : List String
  envProd : List String
  k3sStgServer : List String
  k3sStgAgents : List String

/-- The extra variables of the play, and what it finds of the accepted release. -/
structure Request where
  phase : Phase
  targets : List String
  acceptedGenerationRunId : List Char
  exactRelease : List Char
  acceptedSelector : String
  acceptedKernelArtifactId : List Char
  acceptedManifestSha256 : List Char
  acceptedPayloadSha256 : List Char
  acceptedReleaseManifestSha256 : List Char
  rollbackSelectors : Dict
  /-- The three variables of the expected record are all empty, or fit together. -/
  expectedRecordConsistent : Bool
  /-- The accepted release has the content that was accepted. -/
  acceptedContent : Bool
  /-- The expected record is the latest one and unchanged. -/
  expectedRecordCurrent : Bool

/-- `phase == 'rollback_last_phase'` -/
def Request.isRollback (request : Request) : Bool :=
  request.phase == .rollbackLastPhase

/-- `^[0-9]{8}-rpi5$` -/
def isAcceptedSelector (text : String) : Bool :=
  isSelector text.toList && text.toList.drop 8 == "-rpi5".toList

/-- `^sha256:[0-9a-f]{64}$` -/
def isArtifactId (text : List Char) : Bool :=
  text.take 7 == "sha256:".toList && isSha256 (text.drop 7)

/-- The input of the play is accepted. -/
def inputAccepted (groups : Groups) (request : Request) : Bool :=
  !request.targets.isEmpty && request.targets.all groups.envStg.contains &&
    request.targets.all (fun target => !groups.envProd.contains target) &&
    (request.phase != .forward .fullFleet ||
      sortedNames request.targets == sortedNames (groups.k3sStgServer ++ groups.k3sStgAgents) &&
        request.targets.length == 4) &&
    isSafeRunId request.acceptedGenerationRunId && isKernelRelease request.exactRelease &&
    isAcceptedSelector request.acceptedSelector &&
    (request.isRollback || isArtifactId request.acceptedKernelArtifactId &&
      isSha256 request.acceptedManifestSha256 && isSha256 request.acceptedPayloadSha256 &&
      isSha256 request.acceptedReleaseManifestSha256) &&
    request.expectedRecordConsistent

/-- `regex_replace('-rpi5$', '-rpi4')` -/
def rpi4Selector (selector : String) : String :=
  if "-rpi5".toList.isSuffixOf selector.toList then
    String.ofList (selector.toList.take (selector.toList.length - 5) ++ "-rpi4".toList)
  else selector

section Playbook

variable [UnicodeData]

/-- `previous.<field> | default('', true) | string | trim` -/
def rollbackField (selectors : Dict) (name field : String) : String :=
  match selectors.get name with
  | some (.dict previous) =>
      match Mapping.get previous field with
      | some value => if value.truthy then String.ofList (strip value.text) else ""
      | none => ""
  | _ => ""

/-- The selector that is to be applied to a target. -/
def appliedSelector (groups : Groups) (request : Request) (name : String) : Selector :=
  if request.isRollback then
    ⟨rollbackField request.rollbackSelectors name "tftp_release",
      rollbackField request.rollbackSelectors name "rootfs_release"⟩
  else
    let selector := if groups.k3sStgServer.contains name then rpi4Selector request.acceptedSelector
      else request.acceptedSelector
    ⟨selector, selector⟩

/-- `homecluster_common_kernel_applied_selectors` -/
def appliedSelectors (groups : Groups) (request : Request) : Mapping Selector :=
  Mapping.update [] (request.targets.map fun name => (name, appliedSelector groups request name))

/-- `homecluster_common_kernel_selector_change_required` -/
def changeRequired (targets : List String) (current applied : Mapping Selector) : Bool :=
  targets.any fun target => current.get target != applied.get target

/-- The directories of a selector are there. -/
def sourcesPresent (releases : Releases) (applied : Mapping Selector) : Bool :=
  applied.all fun entry => releases.tftpDirectory entry.2.tftpRelease &&
    releases.rootfsDirectory entry.2.rootfsRelease

/-- A host with the releases of a selector. -/
def PxeHost.withSelector (host : PxeHost) (selector : Selector) : PxeHost :=
  { host with tftpRelease := selector.tftpRelease, rootfsRelease := selector.rootfsRelease }

/-- `openwrt_pxe_hosts_effective_override` -/
def hostsOverride (hosts : List PxeHost) (targets : List String) (applied : Mapping Selector) :
    List PxeHost :=
  (targetHosts hosts targets).map fun host =>
    host.withSelector ((applied.get host.name).getD ⟨"", ""⟩)

/-! ## Switching the boards -/

/-- `^[0-9]{8}-[0-9A-Za-z._-]+$` -/
def isReleaseName (text : String) : Bool :=
  let chars := text.toList
  (chars.take 8).length == 8 && (chars.take 8).all Char.isDigit && chars.getD 8 ' ' == '-' &&
    !(chars.drop 9).isEmpty &&
    (chars.drop 9).all fun char => char.isAlphanum || char == '.' || char == '_' || char == '-'

/-- A host with an explicit TFTP release, as `pxe_host_releases.yml` resolves it. -/
def resolvedHost (host : PxeHost) : PxeHost :=
  { host with
    rootfsRelease := if host.rootfsRelease = "" then host.tftpRelease else host.rootfsRelease }

/-- What `pxe_host_releases.yml` asks of a host. -/
def releaseAccepted (host : PxeHost) : Bool :=
  host.tftpRelease != "" && isReleaseName host.tftpRelease &&
    host.rootfsRelease == host.tftpRelease

/-- `pxe_host_releases.yml` -/
def pxeHostReleases (hosts : List PxeHost) : Except Stop (List PxeHost) := do
  let resolved := hosts.map resolvedHost
  require (resolved.all releaseAccepted) .hostReleaseRefused
  return resolved

/-- The first host of the name has the selector that is to be applied. -/
def overrideApplied (override : List PxeHost) (applied : Mapping Selector) (target : String) :
    Bool :=
  match override.find? fun host => host.name == target with
  | some host => applied.get target == some ⟨host.tftpRelease, host.rootfsRelease⟩
  | none => false

/-- The entry has the selector that is to be applied. -/
def entryApplied (applied : Mapping Selector) (entry : HostEntry) : Bool :=
  applied.get entry.name == some ⟨entry.release, entry.rootfsRelease⟩

/-- The links and the argument that the play looks at after the switch. -/
def postCheck (vars : Vars) (releases : Releases) (file : BoardFiles) (entry : HostEntry) : Bool :=
  file (entry.boardHash, "kernel8.img") == some (.link entry.release "kernel8.img") &&
    file (entry.boardHash, "initramfs-pxe-v8.img") ==
      some (.link entry.release "initramfs-pxe-v8.img") &&
    (served releases file entry.boardHash "cmdline.txt").any fun text =>
      decide (rootPrefix vars entry.rootfsRelease <:+: text)

/-- `openwrt_gentoo_tftp_host_entries` for the targets. -/
def targetEntries (hosts : List PxeHost) (targets : List String) (applied : Mapping Selector) :
    List HostEntry :=
  ((hostsOverride hosts targets applied).map resolvedHost).filterMap hostEntry

/-- The tasks that run where a selector changes. -/
def switchBoards (vars : Vars) (releases : Releases) (hosts : List PxeHost)
    (targets : List String) (applied : Mapping Selector) (boards : Boards) :
    Except Stop Boards := do
  let resolved ← pxeHostReleases (hostsOverride hosts targets applied)
  let entries := resolved.filterMap hostEntry
  let switched ← tftpHosts vars releases entries boards
  require (targets.all (overrideApplied (hostsOverride hosts targets applied) applied))
    .appliedSelectorRefused
  require (entries.length == targets.length && entries.all (entryApplied applied))
    .appliedSelectorRefused
  require (entries.all (postCheck vars releases switched.file)) .postCheckFailed
  return switched

/-- What the play reports with the status `applied`. -/
structure Report where
  previous : Mapping Selector
  applied : Mapping Selector
  changed : Bool

/-- `rpi5-common-kernel-rollout.yml` -/
def rollout (vars : Vars) (releases : Releases) (groups : Groups) (hosts : List PxeHost)
    (request : Request) (boards : Boards) : Except Stop (Boards × Report) := do
  require (inputAccepted groups request) .inputRefused
  require (request.isRollback || request.acceptedContent) .acceptedChanged
  let current ← liveSelectors releases hosts boards request.targets
  let applied := appliedSelectors groups request
  require (holdsSelectors applied request.targets) .plannedSelectorRefused
  require (sourcesPresent releases applied) .selectorSourceMissing
  require (request.isRollback || request.expectedRecordCurrent) .acceptedChanged
  if changeRequired request.targets current applied then do
    let switched ← switchBoards vars releases hosts request.targets applied boards
    return (switched, ⟨current, applied, true⟩)
  else return (boards, ⟨current, applied, false⟩)

end Playbook

end HomeclusterInfra.Tftp
