import HomeclusterInfra.Tftp.Selectors

/-!
# Applied selectors

Where the playbook reports a changed selector as applied, every link it made
leads into the applied release. Device trees that are stripped are not linked,
and the playbook does not copy them either: a board keeps the one that an
earlier task made for it.
-/

set_option autoImplicit false

namespace HomeclusterInfra.Tftp

open Text Checked Writes

/-! ## Complete devices -/

/-- The content is that of the file; a device tree may have been blanked. -/
def SameBootFile (path : String) (content source : Content) : Prop :=
  content = source ∨ isDtb path = true ∧ content = blanked source

/-- The last `root=` argument of a command line. -/
def rootArgument (text : Content) : Option (List Char) :=
  ((splitWords text).filter fun word => "root=".toList.isPrefixOf word).getLast?

/-- The root argument names a release of the server. -/
def NamesRoot (vars : Vars) (rootfsRelease : String) (text : Content) : Prop :=
  ∃ argument, rootArgument text = some argument ∧ rootPrefix vars rootfsRelease <+: argument

/-- The entry's release has a file of this name with this content. -/
def FromRelease (releases : Releases) (entry : HostEntry) (path : String) (content : Content) :
    Prop :=
  ∃ source, releases.file entry.release path = some source ∧ SameBootFile path content source

/-- Every boot file that is served comes from the entry's release, and the root
argument names its root file system. -/
structure AppliedCompletely (vars : Vars) (releases : Releases) (entries : List HostEntry)
    (file : BoardFiles) : Prop where
  bootFiles : ∀ entry ∈ entries, ∀ path ∈ entry.symlinks, ∀ content,
    served releases file entry.boardHash path = some content →
      FromRelease releases entry path content
  root : ∀ entry ∈ entries, ∃ text,
    served releases file entry.boardHash "cmdline.txt" = some text ∧
      NamesRoot vars entry.rootfsRelease text

/-- The last `root=` word of the arguments that the entry and the variables have a say in. -/
def rootWord (vars : Vars) (entry : HostEntry) : Option (List Char) :=
  (((hostArguments vars entry).flatMap splitWords).filter fun word =>
    "root=".toList.isPrefixOf word).getLast?

/-- The arguments leave the root argument to the root file system of an entry: those of the last
entry of its board, or where no `cmdline.txt` is rendered the text that the links and the board
directory have. -/
def RootLeft (vars : Vars) (releases : Releases) (entries : List HostEntry) (before : BoardFiles)
    (entry : HostEntry) : Prop :=
  if vars.cmdlineEnabled then ∃ last word, lastEntry entries entry.boardHash = some last ∧
    rootWord vars last = some word ∧ rootPrefix vars entry.rootfsRelease <+: word
  else ∃ text, served releases (writeAll before (allLinks vars entries)) entry.boardHash
    "cmdline.txt" = some text ∧ NamesRoot vars entry.rootfsRelease text

/-- The `cmdline.txt` that a switch leaves: the rendered one, or what the links
and the board directory have. -/
def cmdlineLeft (vars : Vars) (releases : Releases) (entries : List HostEntry)
    (before : BoardFiles) (boardHash : String) : Option Content :=
  if vars.cmdlineEnabled then (lastEntry entries boardHash).map (cmdlineText vars)
  else served releases (writeAll before (allLinks vars entries)) boardHash "cmdline.txt"

/-- What the tasks themselves do not see to. Before the switch each stripped device
tree comes from the release already; no boot file has the name of a rendered
text, unless with the same content; and the arguments of the entry leave the root
argument to its root file system. -/
structure CompleteBefore (vars : Vars) (releases : Releases) (entries : List HostEntry)
    (before : BoardFiles) : Prop where
  deviceTrees : vars.stripDtb = true → ∀ entry ∈ entries, ∀ path ∈ entry.symlinks,
    isDtb path = true →
      (vars.initramfsEnabled = true → path ∉ vars.initramfsPaths) →
        ∀ content, served releases before entry.boardHash path = some content →
          FromRelease releases entry path content
  texts : ∀ entry ∈ entries, ∀ path ∈ entry.symlinks, ∀ text,
    rendered vars entries entry.boardHash path = some text → FromRelease releases entry path text
  root : ∀ entry ∈ entries, RootLeft vars releases entries before entry

/-- The root argument of a rendered text is one of the words of its arguments. -/
theorem rootArgument_cmdlineText (vars : Vars) (entry : HostEntry) :
    rootArgument (cmdlineText vars entry) = rootWord vars entry := by
  -- Only blank arguments are dropped, and they have no words.
  have kept : ∀ arguments : List (List Char),
      (arguments.filter fun argument => !argument.isEmpty).flatMap splitWords =
        arguments.flatMap splitWords := by
    intro arguments
    induction arguments with
    | nil => rfl
    | cons argument arguments ih =>
        cases argument with
        | nil => exact ih
        | cons char rest =>
            rw [List.filter_cons_of_pos rfl, List.flatMap_cons, List.flatMap_cons, ih]
  have words : splitWords (cmdlineText vars entry) =
      ["console=serial0,115200".toList, "console=tty1".toList].flatMap splitWords ++
        (hostArguments vars entry).flatMap splitWords ++
          ["rd.info".toList, "rd.debug".toList, "rd.overlayfs=1".toList,
            "rd.shell".toList].flatMap splitWords := by
    have none : splitWords [] = [] := rfl
    rw [cmdlineText, splitWords_append_blank (by decide), none, List.append_nil,
      splitWords_intercalate, kept, List.flatMap_append, List.flatMap_append]
  have front : (["console=serial0,115200".toList, "console=tty1".toList].flatMap
      splitWords).filter (fun word => "root=".toList.isPrefixOf word) = [] := by
    decide +kernel
  have back : (["rd.info".toList, "rd.debug".toList, "rd.overlayfs=1".toList,
      "rd.shell".toList].flatMap splitWords).filter
        (fun word => "root=".toList.isPrefixOf word) = [] := by
    decide +kernel
  rw [rootArgument, words, List.filter_append, List.filter_append, front, back, List.append_nil,
    List.nil_append, rootWord]

theorem rootLeft_iff {vars : Vars} {releases : Releases} {entries : List HostEntry}
    {before : BoardFiles} {entry : HostEntry} : RootLeft vars releases entries before entry ↔
      ∃ text, cmdlineLeft vars releases entries before entry.boardHash = some text ∧
        NamesRoot vars entry.rootfsRelease text := by
  unfold RootLeft cmdlineLeft
  split
  next =>
    constructor
    · rintro ⟨last, word, isLast, isWord, names⟩
      refine ⟨cmdlineText vars last, by rw [isLast]; rfl, word, ?_, names⟩
      rw [rootArgument_cmdlineText, isWord]
    · rintro ⟨text, left, word, isWord, names⟩
      obtain ⟨last, isLast, rfl⟩ := Option.map_eq_some_iff.mp left
      exact ⟨last, word, isLast, (rootArgument_cmdlineText vars last).symm.trans isWord, names⟩
  next => exact Iff.rfl

/-! ## The switch -/

/-- The board files as a switch finds them; a path that was a link is empty. -/
def boardFilesBefore (entries : List HostEntry) (boards : Boards) : BoardFiles :=
  (entries.foldl openBoard boards).file

/-- A switch that went through. -/
structure Switched (vars : Vars) (releases : Releases) (hosts : List PxeHost)
    (targets : List String) (applied : Mapping Rollout.Selector) (boards switched : Boards) :
    Prop where
  accepted : ∀ host ∈ hostsOverride hosts targets applied,
    releaseAccepted (resolvedHost host) = true
  ready : HostsReady vars releases (targetEntries hosts targets applied)
    (boardFilesBefore (targetEntries hosts targets applied) boards)
  result : switched = { (targetEntries hosts targets applied).foldl openBoard boards with
    file := writeAll (boardFilesBefore (targetEntries hosts targets applied) boards)
      (hostWrites vars (targetEntries hosts targets applied)) }
  overrides : ∀ target ∈ targets,
    overrideApplied (hostsOverride hosts targets applied) applied target = true
  entries : (targetEntries hosts targets applied).length = targets.length ∧
    ∀ entry ∈ targetEntries hosts targets applied, entryApplied applied entry = true
  checked : ∀ entry ∈ targetEntries hosts targets applied,
    postCheck vars releases switched.file entry = true

theorem switchBoards_eq_ok {vars : Vars} {releases : Releases} {hosts : List PxeHost}
    {targets : List String} {applied : Mapping Rollout.Selector} {boards switched : Boards} :
    switchBoards vars releases hosts targets applied boards = .ok switched ↔
      Switched vars releases hosts targets applied boards switched := by
  unfold switchBoards pxeHostReleases
  simp only [bind_eq_ok, pure_eq_ok, require_eq_ok, exists_const, List.all_eq_true,
    List.forall_mem_map, Bool.and_eq_true, beq_iff_eq, tftpHosts_eq_ok]
  constructor
  · rintro ⟨resolved, ⟨accepted, rfl⟩, final, ⟨ready, rfl⟩, overrides, entries, checked, rfl⟩
    exact ⟨accepted, ready, rfl, overrides, entries, checked⟩
  · rintro ⟨accepted, ready, rfl, overrides, entries, checked⟩
    exact ⟨_, ⟨accepted, rfl⟩, _, ⟨ready, rfl⟩, overrides, entries, checked, rfl⟩

theorem rendered_bootFile {vars : Vars} {entries : List HostEntry} {boardHash path : String}
    (first : path ≠ "cmdline.txt") (second : path ≠ "config.txt") :
    rendered vars entries boardHash path = none := by
  unfold rendered
  rw [if_neg (by simp [first]), if_neg (by simp [second])]

/-- The post-check finds one release on each board. -/
theorem Switched.oneRelease {vars : Vars} {releases : Releases} {hosts : List PxeHost}
    {targets : List String} {applied : Mapping Rollout.Selector} {boards switched : Boards}
    (done : Switched vars releases hosts targets applied boards switched) :
    OneRelease (targetEntries hosts targets applied) := by
  have kernel : ∀ entry ∈ targetEntries hosts targets applied,
      switched.file (entry.boardHash, "kernel8.img") =
        some (.link entry.release "kernel8.img") := by
    intro entry member
    have checked := done.checked entry member
    simp only [postCheck, Bool.and_eq_true, beq_iff_eq] at checked
    exact checked.1.1
  intro first member second member' same
  have one := kernel first member
  rw [same, kernel second member'] at one
  exact (Served.link.inj (Option.some.inj one)).1.symm

/-! ## What is served afterwards -/

section After

variable {vars : Vars} {releases : Releases} {entries : List HostEntry} {before : BoardFiles}

/-- A device tree's name is not that of a rendered text. -/
theorem rendered_of_isDtb {boardHash path : String} (dtb : isDtb path = true) :
    rendered vars entries boardHash path = none := by
  apply rendered_bootFile
  · rintro rfl
    exact absurd dtb (by decide)
  · rintro rfl
    exact absurd dtb (by decide)

theorem served_rendered {boardHash path : String} {text : Content}
    (texts : rendered vars entries boardHash path = some text) :
    served releases (writeAll before (hostWrites vars entries)) boardHash path = some text := by
  rw [served, writeAll_hostWrites, texts]

theorem served_linked (one : OneRelease entries) {entry : HostEntry} {path : String}
    (member : entry ∈ entries) (texts : rendered vars entries entry.boardHash path = none)
    (linked : ∃ other ∈ entries, other.boardHash = entry.boardHash ∧ Linked vars other path) :
    served releases (writeAll before (hostWrites vars entries)) entry.boardHash path =
      releases.file entry.release path := by
  rw [served, writeAll_hostWrites, texts]
  simp only
  rw [writeAll_allLinks_of_linked one member linked]

theorem served_left {boardHash path : String}
    (texts : rendered vars entries boardHash path = none)
    (left : ∀ entry ∈ entries, entry.boardHash = boardHash → ¬ Linked vars entry path) :
    served releases (writeAll before (hostWrites vars entries)) boardHash path =
      served releases before boardHash path := by
  rw [served, writeAll_hostWrites, texts]
  simp only
  rw [writeAll_allLinks_of_not_linked left, served]

theorem served_cmdline {boardHash : String} (own : ∃ entry ∈ entries, entry.boardHash = boardHash) :
    served releases (writeAll before (hostWrites vars entries)) boardHash "cmdline.txt" =
      cmdlineLeft vars releases entries before boardHash := by
  unfold cmdlineLeft
  cases enabled : vars.cmdlineEnabled with
  | true =>
      obtain ⟨entry, member, same⟩ := own
      have present : entry ∈ entries.filter fun entry => entry.boardHash = boardHash :=
        List.mem_filter.mpr ⟨member, by simpa using same⟩
      obtain ⟨last, found⟩ := Option.isSome_iff_exists.mp
        (List.getLast?_isSome.mpr (List.ne_nil_of_mem present))
      rw [if_pos rfl, lastEntry, found]
      apply served_rendered
      rw [rendered, enabled, lastEntry, found]
      rfl
  | false =>
      have texts : rendered vars entries boardHash "cmdline.txt" = none := by
        rw [rendered, enabled, if_neg (by decide), if_neg (by simp)]
      rw [if_neg (by decide), served, writeAll_hostWrites, texts, served]

/-- **What is served after a switch** comes from the release exactly when what the
tasks do not see to does. -/
theorem appliedCompletely_iff (one : OneRelease entries) :
    AppliedCompletely vars releases entries (writeAll before (hostWrites vars entries)) ↔
      CompleteBefore vars releases entries before := by
  have root : ∀ entry ∈ entries, ∀ text,
      served releases (writeAll before (hostWrites vars entries)) entry.boardHash "cmdline.txt" =
        some text ↔ cmdlineLeft vars releases entries before entry.boardHash = some text := by
    intro entry member text
    rw [served_cmdline ⟨entry, member, rfl⟩]
  -- a stripped device tree that no initramfs task links is left as it was
  have kept : ∀ entry ∈ entries, ∀ path, vars.stripDtb = true → isDtb path = true →
      (vars.initramfsEnabled = true → path ∉ vars.initramfsPaths) →
        served releases (writeAll before (hostWrites vars entries)) entry.boardHash path =
          served releases before entry.boardHash path := by
    intro entry _ path strip dtb other
    apply served_left (rendered_of_isDtb dtb)
    rintro linking - _ (⟨-, unskipped⟩ | rfl | ⟨enabled, listed, -⟩)
    · rw [strip, dtb] at unskipped
      cases unskipped
    · exact absurd dtb (by decide)
    · exact other enabled listed
  constructor
  · rintro ⟨bootFiles, cmdline⟩
    refine ⟨?_, ?_, ?_⟩
    · intro strip entry member path listed dtb other content holds
      apply bootFiles entry member path listed
      rw [kept entry member path strip dtb other]
      exact holds
    · intro entry member path listed text texts
      exact bootFiles entry member path listed text (served_rendered texts)
    · intro entry member
      obtain ⟨text, holds, names⟩ := cmdline entry member
      exact rootLeft_iff.mpr ⟨text, (root entry member text).mp holds, names⟩
  · rintro ⟨deviceTrees, texts, cmdline⟩
    refine ⟨?_, ?_⟩
    · intro entry member path listed content holds
      cases text : rendered vars entries entry.boardHash path with
      | some rendered =>
          rw [served_rendered text] at holds
          obtain rfl := Option.some.inj holds
          exact texts entry member path listed rendered text
      | none =>
          by_cases linked : Linked vars entry path
          · rw [served_linked one member text ⟨entry, member, rfl, linked⟩] at holds
            exact ⟨content, holds, .inl rfl⟩
          · have skipped : (vars.stripDtb && isDtb path) = true := by
              by_contra unskipped
              exact linked (.inl ⟨listed, by simpa using unskipped⟩)
            rw [Bool.and_eq_true] at skipped
            have other : vars.initramfsEnabled = true → path ∉ vars.initramfsPaths := by
              intro enabled inside
              refine linked (.inr (.inr ⟨enabled, inside, ?_⟩))
              rintro rfl
              exact absurd skipped.2 (by decide)
            rw [kept entry member path skipped.1 skipped.2 other] at holds
            exact deviceTrees skipped.1 entry member path listed skipped.2 other content holds
    · intro entry member
      obtain ⟨text, holds, names⟩ := rootLeft_iff.mp (cmdline entry member)
      exact ⟨text, (root entry member text).mpr holds, names⟩

end After

/-! ## The playbook -/

section Playbook

variable [UnicodeData]

/-- A playbook run that reports its selectors as applied. -/
structure RolledOut (vars : Vars) (releases : Releases) (groups : Groups) (hosts : List PxeHost)
    (request : Request) (boards final : Boards) (report : Report) : Prop where
  input : inputAccepted groups request = true
  content : (request.isRollback || request.acceptedContent) = true
  live : liveSelectors releases hosts boards request.targets = .ok report.previous
  applied : report.applied = appliedSelectors groups request
  planned : holdsSelectors report.applied request.targets = true
  sources : sourcesPresent releases report.applied = true
  current : (request.isRollback || request.expectedRecordCurrent) = true
  changed : report.changed = changeRequired request.targets report.previous report.applied
  switched : report.changed = true →
    Switched vars releases hosts request.targets report.applied boards final
  kept : report.changed = false → final = boards

theorem rollout_eq_ok {vars : Vars} {releases : Releases} {groups : Groups}
    {hosts : List PxeHost} {request : Request} {boards final : Boards} {report : Report} :
    rollout vars releases groups hosts request boards = .ok (final, report) ↔
      RolledOut vars releases groups hosts request boards final report := by
  simp only [rollout, bind_eq_ok, require_eq_ok, exists_const]
  constructor
  · rintro ⟨input, content, current, live, planned, sources, latest, ends⟩
    split at ends
    next differs =>
        simp only [bind_eq_ok, pure_eq_ok, Prod.mk.injEq, switchBoards_eq_ok] at ends
        obtain ⟨switched, done, rfl, rfl⟩ := ends
        exact ⟨input, content, live, rfl, planned, sources, latest, differs.symm, fun _ => done,
          fun unchanged => absurd unchanged (by simp)⟩
    next same =>
        simp only [pure_eq_ok, Prod.mk.injEq] at ends
        obtain ⟨rfl, rfl⟩ := ends
        exact ⟨input, content, live, rfl, planned, sources, latest,
          (Bool.not_eq_true _ ▸ same).symm, fun changed => absurd changed (by simp), fun _ => rfl⟩
  · rintro ⟨input, content, live, applied, planned, sources, latest, changed, switched, kept⟩
    obtain ⟨previous, selectors, flag⟩ := report
    simp only at live applied planned sources changed switched kept
    subst applied
    refine ⟨input, content, previous, live, planned, sources, latest, ?_⟩
    rw [← changed]
    cases flag with
    | true =>
        rw [if_pos rfl]
        simp only [bind_eq_ok, pure_eq_ok, switchBoards_eq_ok]
        exact ⟨final, switched rfl, rfl⟩
    | false =>
        rw [if_neg Bool.false_ne_true, kept rfl]
        rfl

/-- **A selector that is reported as applied is applied completely exactly when
the device trees that are not linked come from its release already**, and nothing
else on the board gets in the way. -/
theorem applied_completely_iff (vars : Vars) (releases : Releases) (groups : Groups)
    (hosts : List PxeHost) (request : Request) (boards switched : Boards) (report : Report)
    (applied : rollout vars releases groups hosts request boards = .ok (switched, report))
    (changed : report.changed = true) :
    AppliedCompletely vars releases (targetEntries hosts request.targets report.applied)
        switched.file ↔
      CompleteBefore vars releases (targetEntries hosts request.targets report.applied)
        (boardFilesBefore (targetEntries hosts request.targets report.applied) boards) := by
  have done := (rollout_eq_ok.mp applied).switched changed
  rw [done.result]
  exact appliedCompletely_iff done.oneRelease

/-- The states of the board directories that the tasks and the playbook lead to. -/
inductive Reachable (vars : Vars) (releases : Releases) (groups : Groups) (hosts : List PxeHost) :
    Boards → Prop
  | start : Reachable vars releases groups hosts ⟨fun _ => none, fun _ => none⟩
  | tftpHosts {entries : List HostEntry} {boards next : Boards} :
      Reachable vars releases groups hosts boards →
        tftpHosts vars releases entries boards = .ok next →
          Reachable vars releases groups hosts next
  | dtbPatch {entries : List HostEntry} {boards next : Boards} :
      Reachable vars releases groups hosts boards →
        tftpDtbPatch vars releases entries boards = .ok next →
          Reachable vars releases groups hosts next
  | rollout {request : Request} {boards next : Boards} {report : Report} :
      Reachable vars releases groups hosts boards →
        rollout vars releases groups hosts request boards = .ok (next, report) →
          Reachable vars releases groups hosts next

section Fixtures

omit [UnicodeData]

def fixtureVars : Vars where
  stripDtb := true
  initramfsEnabled := false
  initramfsPaths := []
  configEnabled := true
  cmdlineEnabled := true
  serverHost := "192.0.2.1".toList
  nfsOptions := "vers=4.2,proto=tcp".toList
  cmdlineIp := "dhcp".toList
  cmdlineExtraArgs := "rootwait".toList
  targetStages := []
  configText _ _ := []

/-- Two releases, in which every file holds its own path. -/
def fixtureReleases : Releases where
  file release path :=
    if release = "20260701-rpi5" || release = "20260801-rpi5" then
      some (release.toList ++ path.toList)
    else none
  tftpDirectory _ := true
  rootfsDirectory _ := true

def fixtureGroups : Groups where
  envStg := ["agent-a"]
  envProd := []
  k3sStgServer := []
  k3sStgAgents := ["agent-a"]

def fixtureHost : PxeHost where
  name := "agent-a"
  boardHash := "0a1b2c3d"
  tftpStage := "stg"
  tftpRelease := "20260701-rpi5"
  rootfsRelease := "20260701-rpi5"
  cmdlineRootArg := []
  cmdlineIp := []
  cmdlineExtraArgs := []
  bootPaths := ["initramfs-pxe-v8.img"]

/-- A canary that applies the accepted release to its target. -/
def fixtureRequest : Request where
  phase := .forward .genericCanary
  targets := ["agent-a"]
  acceptedGenerationRunId := "20260801T000000Z-a".toList
  exactRelease := "6.18.0-v8-homecluster+".toList
  acceptedSelector := "20260801-rpi5"
  acceptedKernelArtifactId := "sha256:".toList ++ List.replicate 64 'a'
  acceptedManifestSha256 := List.replicate 64 'a'
  acceptedPayloadSha256 := List.replicate 64 'b'
  acceptedReleaseManifestSha256 := List.replicate 64 'c'
  rollbackSelectors := []
  expectedRecordConsistent := true
  acceptedContent := true
  expectedRecordCurrent := true

/-- The board is set up for the old release, and the canary moves it to the new one. -/
theorem fixture_applied : ∃ (boards switched : Boards) (report : Report),
    @Reachable asciiData fixtureVars fixtureReleases fixtureGroups [fixtureHost] boards ∧
      @rollout asciiData fixtureVars fixtureReleases fixtureGroups [fixtureHost] fixtureRequest
        boards = .ok (switched, report) ∧
      report.changed = true ∧
      report.applied = [("agent-a", ⟨"20260801-rpi5", "20260801-rpi5"⟩)] ∧
      served fixtureReleases switched.file "0a1b2c3d" "bcm2712-rpi-5-b.dtb" =
        some "20260701-rpi5bcm2712-rpi-5-b.dtb".toList := by
  let _ : UnicodeData := asciiData
  let entries := (hostEntry fixtureHost).toList
  have runs : (((tftpHosts fixtureVars fixtureReleases entries
      ⟨fun _ => none, fun _ => none⟩).toOption.bind fun linked =>
        (tftpDtbPatch fixtureVars fixtureReleases entries linked).toOption).bind fun boards =>
          (rollout fixtureVars fixtureReleases fixtureGroups [fixtureHost] fixtureRequest
            boards).toOption.map fun outcome => (outcome.2.changed, outcome.2.applied,
              served fixtureReleases outcome.1.file "0a1b2c3d" "bcm2712-rpi-5-b.dtb")) =
      some (true, [("agent-a", ⟨"20260801-rpi5", "20260801-rpi5"⟩)],
        some "20260701-rpi5bcm2712-rpi-5-b.dtb".toList) := by
    decide +kernel
  obtain ⟨boards, before, runs⟩ := Option.bind_eq_some_iff.mp runs
  obtain ⟨linked, first, second⟩ := Option.bind_eq_some_iff.mp before
  obtain ⟨⟨switched, report⟩, third, outcome⟩ := Option.map_eq_some_iff.mp runs
  rw [toOption_eq_some] at first second third
  simp only [Prod.mk.injEq] at outcome
  exact ⟨boards, switched, report, .dtbPatch (.tftpHosts .start first) second, third,
    outcome.1, outcome.2.1, outcome.2.2⟩

theorem applied_completely_iff_fixture :
    ∃ (_ : UnicodeData) (boards switched : Boards) (report : Report),
      AppliedCompletely fixtureVars fixtureReleases
          (targetEntries [fixtureHost] fixtureRequest.targets report.applied) switched.file ↔
        CompleteBefore fixtureVars fixtureReleases
          (targetEntries [fixtureHost] fixtureRequest.targets report.applied)
          (boardFilesBefore
            (targetEntries [fixtureHost] fixtureRequest.targets report.applied) boards) := by
  let _ : UnicodeData := asciiData
  obtain ⟨boards, switched, report, -, applied, changed, -⟩ := fixture_applied
  exact ⟨asciiData, boards, switched, report, applied_completely_iff fixtureVars fixtureReleases
    fixtureGroups [fixtureHost] fixtureRequest boards switched report applied changed⟩

/-- **A board keeps the device tree of the release it was set up for** after
another one is reported as applied. -/
theorem stale_device_tree_after_applied :
    ∃ (_ : UnicodeData) (vars : Vars) (releases : Releases) (groups : Groups)
      (hosts : List PxeHost) (request : Request) (boards switched : Boards) (report : Report),
      Reachable vars releases groups hosts boards ∧
        rollout vars releases groups hosts request boards = .ok (switched, report) ∧
        report.changed = true ∧
        ¬ AppliedCompletely vars releases (targetEntries hosts request.targets report.applied)
          switched.file := by
  let _ : UnicodeData := asciiData
  obtain ⟨boards, switched, report, reachable, applied, changed, selectors, stale⟩ :=
    fixture_applied
  refine ⟨asciiData, fixtureVars, fixtureReleases, fixtureGroups, [fixtureHost], fixtureRequest,
    boards, switched, report, reachable, applied, changed, fun complete => ?_⟩
  obtain ⟨entry, member, about⟩ := List.any_eq_true.mp (show
    (targetEntries [fixtureHost] fixtureRequest.targets
      [("agent-a", ⟨"20260801-rpi5", "20260801-rpi5"⟩)]).any (fun entry =>
        entry.boardHash == "0a1b2c3d" && entry.release == "20260801-rpi5" &&
          entry.symlinks.contains "bcm2712-rpi-5-b.dtb") = true by decide +kernel)
  simp only [Bool.and_eq_true, beq_iff_eq, List.contains_iff_mem] at about
  obtain ⟨⟨board, release⟩, listed⟩ := about
  obtain ⟨source, found, same⟩ := complete.bootFiles entry (selectors ▸ member) _ listed _
    (board ▸ stale)
  rw [release] at found
  obtain rfl := Option.some.inj found
  rcases same with same | ⟨-, same⟩
  · exact absurd same (by decide)
  · exact absurd same (by decide)

end Fixtures

end Playbook

end HomeclusterInfra.Tftp
