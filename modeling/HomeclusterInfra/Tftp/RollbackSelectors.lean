import HomeclusterInfra.Library.Lines
import HomeclusterInfra.Rollout.Recommendation
import HomeclusterInfra.Tftp.AppliedSelector

/-!
# Putting selectors back

A rollback is the same playbook, given the selectors that a forward run
reported as previous. The forward run read these from the boards and asked only
for their form. The tasks that install them ask for more: one release for the
kernel and the root file system, and a file in it for every boot file of the
host.
-/

set_option autoImplicit false

namespace HomeclusterInfra.Tftp

open Text Python Checked Writes Rollout

/-! ## Reading the live selectors -/

/-- The selectors are those of the boards of the targets. -/
structure LiveAt (releases : Releases) (hosts : List PxeHost) (boards : Boards)
    (targets : List String) (selectors : Mapping Selector) : Prop where
  names : ((targetHosts hosts targets).map PxeHost.name).Nodup
  count : (targetHosts hosts targets).length = targets.length
  hashed : ∀ host ∈ targetHosts hosts targets, host.boardHash ≠ ""
  read : ∀ host ∈ targetHosts hosts targets, ∃ selector,
    readSelector releases boards host.boardHash = some selector ∧
      selectors.get host.name = some selector
  covers : ∀ target ∈ targets, ∃ host ∈ targetHosts hosts targets, host.name = target
  holds : holdsSelectors selectors targets = true

theorem name_mem_targets {hosts : List PxeHost} {targets : List String} {host : PxeHost}
    (member : host ∈ targetHosts hosts targets) : host.name ∈ targets := by
  simpa using (List.mem_filter.mp member).2

theorem mapM_probe_eq_some {releases : Releases} {boards : Boards} {hosts : List PxeHost}
    {found : Mapping Selector} (read : probes releases boards hosts = some found) :
    found.map Prod.fst = hosts.map PxeHost.name ∧
      ∀ host ∈ hosts, ∃ selector, readSelector releases boards host.boardHash = some selector ∧
        (host.name, selector) ∈ found := by
  unfold probes at read
  induction hosts generalizing found with
  | nil =>
      obtain rfl := Option.some.inj read
      exact ⟨rfl, fun _ member => absurd member List.not_mem_nil⟩
  | cons host hosts ih =>
      rw [List.mapM_cons] at read
      simp only [Option.bind_eq_bind, Option.bind_eq_some_iff, Option.map_eq_some_iff,
        Option.pure_def, Option.some.injEq] at read
      obtain ⟨-, ⟨selector, own, rfl⟩, rest, others, rfl⟩ := read
      obtain ⟨names, members⟩ := ih others
      refine ⟨by rw [List.map_cons, names, List.map_cons], ?_⟩
      rw [List.forall_mem_cons]
      refine ⟨⟨selector, own, List.mem_cons_self⟩, fun other member => ?_⟩
      obtain ⟨selector', own', inside⟩ := members other member
      exact ⟨selector', own', List.mem_cons_of_mem _ inside⟩

theorem mapM_probe_isSome {releases : Releases} {boards : Boards} {hosts : List PxeHost}
    (read : ∀ host ∈ hosts, (readSelector releases boards host.boardHash).isSome = true) :
    ∃ found, probes releases boards hosts = some found := by
  unfold probes
  induction hosts with
  | nil => exact ⟨[], rfl⟩
  | cons host hosts ih =>
      rw [List.forall_mem_cons] at read
      obtain ⟨selector, own⟩ := Option.isSome_iff_exists.mp read.1
      obtain ⟨found, others⟩ := ih read.2
      refine ⟨(host.name, selector) :: found, ?_⟩
      rw [List.mapM_cons, own, others]
      rfl

/-- **The live selectors are read from the boards**, one for each target. -/
theorem liveAt_of_liveSelectors {releases : Releases} {hosts : List PxeHost} {boards : Boards}
    {targets : List String} {selectors : Mapping Selector}
    (live : liveSelectors releases hosts boards targets = .ok selectors) :
    LiveAt releases hosts boards targets selectors := by
  unfold liveSelectors at live
  split at live
  · cases live
  next found read =>
      simp only [require_bind_eq_ok, pure_eq_ok, Bool.and_eq_true, beq_iff_eq, List.all_eq_true,
        bne_iff_ne] at live
      obtain ⟨⟨⟨⟨count, hashed⟩, full⟩, holds⟩, rfl⟩ := live
      obtain ⟨names, members⟩ := mapM_probe_eq_some read
      have nodup := ((Mapping.length_update_iff [] found).mp (by
        rw [full, List.length_nil, Nat.zero_add, count])).1
      have get : ∀ key, Mapping.get (Mapping.update [] found) key = found.get key := by
        intro key
        rw [Mapping.get_update_of_nodup _ _ nodup, Mapping.get_nil, Option.or_none]
      refine ⟨names ▸ nodup, ?_, hashed, ?_, ?_, holds⟩
      · have same := congrArg List.length names
        rw [List.length_map, List.length_map] at same
        rw [← same, count]
      · intro host member
        obtain ⟨selector, own, inside⟩ := members host member
        exact ⟨selector, own, (get host.name).trans (Mapping.get_of_mem nodup inside)⟩
      · intro target member
        have present := List.all_eq_true.mp holds target member
        cases held : Mapping.get (Mapping.update [] found) target with
        | none =>
            rw [held] at present
            cases present
        | some selector =>
            rw [get] at held
            have inside : target ∈ found.map Prod.fst :=
              List.mem_map.mpr ⟨_, Mapping.mem_of_get held, rfl⟩
            rw [names] at inside
            exact List.mem_map.mp inside

/-- Boards that are at given selectors are read so. -/
theorem liveSelectors_of_reads {releases : Releases} {hosts : List PxeHost}
    {before boards : Boards} {targets : List String} {releases' : Releases}
    {selectors : Mapping Selector} (at_ : LiveAt releases' hosts before targets selectors)
    (read : ∀ host ∈ targetHosts hosts targets,
      readSelector releases boards host.boardHash = selectors.get host.name) :
    ∃ live, liveSelectors releases hosts boards targets = .ok live ∧
      ∀ target ∈ targets, live.get target = selectors.get target := by
  have some : ∀ host ∈ targetHosts hosts targets,
      (readSelector releases boards host.boardHash).isSome = true := by
    intro host member
    obtain ⟨selector, -, held⟩ := at_.read host member
    rw [read host member, held]
    rfl
  obtain ⟨found, probed⟩ := mapM_probe_isSome some
  obtain ⟨names, members⟩ := mapM_probe_eq_some probed
  have nodup : (found.map Prod.fst).Nodup := names ▸ at_.names
  have count : found.length = targets.length := by
    have same := congrArg List.length names
    rw [List.length_map, List.length_map] at same
    rw [same, at_.count]
  have full : (Mapping.update [] found).length = targets.length := by
    rw [(Mapping.length_update_iff [] found).mpr ⟨nodup, fun _ _ => rfl⟩, List.length_nil,
      Nat.zero_add, count]
  have get : ∀ target ∈ targets, Mapping.get (Mapping.update [] found) target =
      selectors.get target := by
    intro target member
    obtain ⟨host, inside, rfl⟩ := at_.covers target member
    obtain ⟨selector, own, listed⟩ := members host inside
    rw [Mapping.get_update_of_nodup _ _ nodup, Mapping.get_nil, Option.or_none,
      Mapping.get_of_mem nodup listed, ← read host inside, own]
  have holds : holdsSelectors (Mapping.update [] found) targets = true := by
    have before := List.all_eq_true.mp at_.holds
    refine List.all_eq_true.mpr fun target member => ?_
    rw [get target member]
    exact before target member
  refine ⟨Mapping.update [] found, ?_, get⟩
  unfold liveSelectors
  rw [probed]
  simp only [require_bind_eq_ok, pure_eq_ok, and_true]
  simpa [count, full, holds] using at_.hashed

/-! ## Well-formed selectors -/

/-- A date and a board generation. -/
theorem isSelector_parts {text : List Char} (form : isSelector text = true) :
    ∃ date generation, text = date ++ generation ∧ date.length = 8 ∧
      (∀ char ∈ date, char.isDigit = true) ∧
      (generation = "-rpi4".toList ∨ generation = "-rpi5".toList) := by
  simp only [isSelector, Bool.and_eq_true, beq_iff_eq, List.all_eq_true, Bool.or_eq_true] at form
  obtain ⟨⟨length, digits⟩, generation⟩ := form
  exact ⟨text.take 8, text.drop 8, (List.take_append_drop 8 text).symm, by simp [length], digits,
    generation⟩

theorem isSpace_of_isSelector {text : List Char} (form : isSelector text = true) :
    ∀ char ∈ text, isSpace char = false := by
  obtain ⟨date, generation, rfl, -, digits, known⟩ := isSelector_parts form
  intro char member
  rcases List.mem_append.mp member with inside | inside
  · exact (isVisible_of_isDigit (digits char inside)).notSpace
  · have none : generation.any isSpace = false := by
      rcases known with rfl | rfl <;> decide
    exact Bool.eq_false_of_not_eq_true (List.any_eq_false.mp none char inside)

theorem strip_of_isSelector {text : List Char} (form : isSelector text = true) :
    strip text = text :=
  strip_of_solid (isSpace_of_isSelector form)

theorem ne_empty_of_isSelector {text : String} (form : isSelector text.toList = true) :
    text ≠ "" := by
  rintro rfl
  exact absurd form (by decide)

theorem isReleaseName_of_isSelector {text : String} (form : isSelector text.toList = true) :
    isReleaseName text = true := by
  obtain ⟨date, generation, parts, length, digits, known⟩ := isSelector_parts form
  have front : (date ++ generation).take 8 = date := by rw [← length, List.take_left]
  have back : ∀ count, (date ++ generation).drop (8 + count) = generation.drop count := by
    intro count
    rw [← length, List.drop_append, List.drop_eq_nil_of_le (Nat.le_add_right _ _),
      List.nil_append, Nat.add_sub_cancel_left]
  have dash : (date ++ generation).getD 8 ' ' = generation.getD 0 ' ' := by
    rw [List.getD_eq_getElem?_getD, List.getElem?_append_right (Nat.le_of_eq length), length,
      List.getD_eq_getElem?_getD]
  have all : date.all Char.isDigit = true := List.all_eq_true.mpr digits
  simp only [isReleaseName, parts, front, dash, back 1, length, all]
  rcases known with rfl | rfl <;> decide

/-! ## The entries of the targets -/

/-- The entry is that of the host, with the selector of the map. -/
structure EntryFor (applied : Mapping Selector) (host : PxeHost) (entry : HostEntry) : Prop where
  name : entry.name = host.name
  board : entry.boardHash = host.boardHash
  selector : applied.get host.name = some ⟨entry.release, entry.rootfsRelease⟩
  kernel : "kernel8.img" ∈ entry.symlinks

section Entries

variable {hosts : List PxeHost} {targets : List String} {applied : Mapping Selector}

theorem exists_selector (holds : holdsSelectors applied targets = true) {target : String}
    (member : target ∈ targets) :
    ∃ selector, applied.get target = some selector ∧ selector.wellFormed = true := by
  obtain ⟨selector, held, form⟩ :=
    (Option.any_eq_true _ _).mp (List.all_eq_true.mp holds target member)
  exact ⟨selector, held, form⟩

theorem hostEntry_withSelector {host : PxeHost} {selector : Selector}
    (hashed : host.boardHash ≠ "") (rootfs : selector.rootfsRelease ≠ "")
    (held : applied.get host.name = some selector) :
    ∃ entry, hostEntry (resolvedHost (host.withSelector ((applied.get host.name).getD ⟨"", ""⟩))) =
      some entry ∧ EntryFor applied host entry := by
  refine ⟨_, if_neg hashed, rfl, rfl, ?_, mem_hostSymlinks (by decide) _⟩
  simp [resolvedHost, PxeHost.withSelector, rootfs, held]

theorem entries_of_hosts (hashed : ∀ host ∈ targetHosts hosts targets, host.boardHash ≠ "")
    (holds : holdsSelectors applied targets = true) :
    List.Forall₂ (EntryFor applied) (targetHosts hosts targets)
      (targetEntries hosts targets applied) := by
  have names : ∀ host ∈ targetHosts hosts targets, host.name ∈ targets :=
    fun host member => name_mem_targets member
  unfold targetEntries hostsOverride
  generalize targetHosts hosts targets = chosen at *
  induction chosen with
  | nil => exact .nil
  | cons host chosen ih =>
      rw [List.forall_mem_cons] at hashed names
      obtain ⟨selector, held, form⟩ := exists_selector holds names.1
      have rootfs : selector.rootfsRelease ≠ "" :=
        ne_empty_of_isSelector (Bool.and_eq_true _ _ ▸ form).2
      obtain ⟨entry, made, about⟩ := hostEntry_withSelector hashed.1 rootfs held
      rw [List.map_cons, List.map_cons, List.filterMap_cons_some made]
      exact .cons about (ih hashed.2 names.2)

theorem host_of_entry {chosen : List PxeHost} {entries : List HostEntry}
    (all : List.Forall₂ (EntryFor applied) chosen entries) :
    ∀ entry ∈ entries, ∃ host ∈ chosen, EntryFor applied host entry := by
  induction all with
  | nil => exact fun _ member => absurd member List.not_mem_nil
  | cons about _ ih =>
      rw [List.forall_mem_cons]
      refine ⟨⟨_, List.mem_cons_self, about⟩, fun entry member => ?_⟩
      obtain ⟨host, inside, rest⟩ := ih entry member
      exact ⟨host, List.mem_cons_of_mem _ inside, rest⟩

theorem entry_of_host {chosen : List PxeHost} {entries : List HostEntry}
    (all : List.Forall₂ (EntryFor applied) chosen entries) :
    ∀ host ∈ chosen, ∃ entry ∈ entries, EntryFor applied host entry := by
  induction all with
  | nil => exact fun _ member => absurd member List.not_mem_nil
  | cons about _ ih =>
      rw [List.forall_mem_cons]
      refine ⟨⟨_, List.mem_cons_self, about⟩, fun host member => ?_⟩
      obtain ⟨entry, inside, rest⟩ := ih host member
      exact ⟨entry, List.mem_cons_of_mem _ inside, rest⟩

/-- A map that agrees on the targets makes the same entries. -/
theorem targetEntries_congr {other : Mapping Selector}
    (same : ∀ target ∈ targets, applied.get target = other.get target) :
    targetEntries hosts targets applied = targetEntries hosts targets other := by
  have overrides : hostsOverride hosts targets applied = hostsOverride hosts targets other := by
    apply List.map_congr_left
    intro host member
    rw [same host.name (name_mem_targets member)]
  rw [targetEntries, targetEntries, overrides]

end Entries

/-! ## A switch to given selectors -/

/-- What the boards are to be like for a switch to the selectors of the entries,
and for these to be read afterwards. -/
structure Switchable (vars : Vars) (releases : Releases) (entries : List HostEntry)
    (before : BoardFiles) : Prop where
  paired : ∀ entry ∈ entries, entry.rootfsRelease = entry.release
  sources : ∀ entry ∈ entries, ∀ path ∈ entry.symlinks,
    (releases.file entry.release path).isSome = true
  replaceable : ∀ written ∈ linkWrites vars entries,
    (before written.1).any Served.isCopy = false
  initramfs : ∀ entry ∈ entries,
    (∃ other ∈ entries, other.boardHash = entry.boardHash ∧
      Linked vars other "initramfs-pxe-v8.img") ∨
    before (entry.boardHash, "initramfs-pxe-v8.img") =
      some (.link entry.release "initramfs-pxe-v8.img")
  cmdline : ∀ entry ∈ entries, ∃ text,
    cmdlineLeft vars releases entries before entry.boardHash = some text ∧
      rootPrefix vars entry.rootfsRelease <:+: text ∧
      probeSelector entry.release text = some ⟨entry.release, entry.rootfsRelease⟩

section Switch

variable {vars : Vars} {releases : Releases} {entries : List HostEntry} {before : BoardFiles}

theorem kernel_linked {entry : HostEntry} (listed : "kernel8.img" ∈ entry.symlinks) :
    Linked vars entry "kernel8.img" := by
  refine .inl ⟨listed, ?_⟩
  rw [show isDtb "kernel8.img" = false by decide, Bool.and_false]

theorem kernel_after (one : OneRelease entries) {entry : HostEntry} (member : entry ∈ entries)
    (listed : "kernel8.img" ∈ entry.symlinks) :
    writeAll before (hostWrites vars entries) (entry.boardHash, "kernel8.img") =
      some (.link entry.release "kernel8.img") := by
  rw [writeAll_hostWrites, rendered_bootFile (by decide) (by decide)]
  exact writeAll_allLinks_of_linked one member ⟨entry, member, rfl, kernel_linked listed⟩

theorem initramfs_after (one : OneRelease entries) {entry : HostEntry} (member : entry ∈ entries) :
    writeAll before (hostWrites vars entries) (entry.boardHash, "initramfs-pxe-v8.img") =
        some (.link entry.release "initramfs-pxe-v8.img") ↔
      (∃ other ∈ entries, other.boardHash = entry.boardHash ∧
        Linked vars other "initramfs-pxe-v8.img") ∨
      before (entry.boardHash, "initramfs-pxe-v8.img") =
        some (.link entry.release "initramfs-pxe-v8.img") := by
  rw [writeAll_hostWrites, rendered_bootFile (by decide) (by decide)]
  simp only
  by_cases linked : ∃ other ∈ entries, other.boardHash = entry.boardHash ∧
      Linked vars other "initramfs-pxe-v8.img"
  · rw [writeAll_allLinks_of_linked one member linked]
    exact iff_of_true rfl (.inl linked)
  · rw [writeAll_allLinks_of_not_linked fun other inside board named =>
      linked ⟨other, inside, board, named⟩]
    exact (or_iff_right linked).symm

/-- What the post-check looks at. -/
theorem postCheck_iff (one : OneRelease entries) {entry : HostEntry} (member : entry ∈ entries)
    (listed : "kernel8.img" ∈ entry.symlinks) :
    postCheck vars releases (writeAll before (hostWrites vars entries)) entry = true ↔
      ((∃ other ∈ entries, other.boardHash = entry.boardHash ∧
        Linked vars other "initramfs-pxe-v8.img") ∨
      before (entry.boardHash, "initramfs-pxe-v8.img") =
        some (.link entry.release "initramfs-pxe-v8.img")) ∧
      ∃ text, cmdlineLeft vars releases entries before entry.boardHash = some text ∧
        rootPrefix vars entry.rootfsRelease <:+: text := by
  rw [postCheck, kernel_after one member listed, served_cmdline ⟨entry, member, rfl⟩,
    Bool.and_eq_true, Bool.and_eq_true, beq_iff_eq, beq_iff_eq, initramfs_after one member,
    Option.any_eq_true]
  simp

/-- A board path is a directory after the tasks. -/
theorem symlink_openBoards (boards : Boards) {entry : HostEntry} :
    ∀ {entries : List HostEntry}, entry ∈ entries →
      (entries.foldl openBoard boards).symlink entry.boardHash = none := by
  have opened : ∀ (boards : Boards) (first : HostEntry),
      (openBoard boards first).symlink first.boardHash = none := by
    intro boards first
    unfold openBoard
    split
    · assumption
    · exact Function.update_self _ _ _
  have kept : ∀ (boards : Boards) (first : HostEntry) (boardHash : String),
      boards.symlink boardHash = none → (openBoard boards first).symlink boardHash = none := by
    intro boards first boardHash absent
    unfold openBoard
    split
    · exact absent
    · by_cases same : boardHash = first.boardHash
      · subst same
        exact Function.update_self _ _ _
      · exact (Function.update_of_ne same _ _).trans absent
  have further : ∀ (entries : List HostEntry) (boards : Boards),
      boards.symlink entry.boardHash = none →
        (entries.foldl openBoard boards).symlink entry.boardHash = none := by
    intro entries
    induction entries with
    | nil => exact fun _ absent => absent
    | cons first entries ih => exact fun boards absent => ih _ (kept boards first _ absent)
  intro entries member
  induction entries generalizing boards with
  | nil => cases member
  | cons first entries ih =>
      rcases List.mem_cons.mp member with rfl | inside
      · exact further entries _ (opened boards entry)
      · exact ih _ inside

/-- What is read from a board after the tasks. -/
theorem readSelector_after (boards : Boards) (one : OneRelease entries) {entry : HostEntry}
    (member : entry ∈ entries) (listed : "kernel8.img" ∈ entry.symlinks) :
    readSelector releases { entries.foldl openBoard boards with
        file := writeAll before (hostWrites vars entries) } entry.boardHash =
      (cmdlineLeft vars releases entries before entry.boardHash).bind
        (probeSelector entry.release) := by
  rw [readSelector, liveRelease, liveCmdline]
  simp only [symlink_openBoards boards member, kernel_after one member listed,
    served_cmdline ⟨entry, member, rfl⟩]
  cases cmdlineLeft vars releases entries before entry.boardHash <;> rfl

end Switch

/-! ## The rollback -/

/-- A selector as the records hold it. -/
def selectorValue (selector : Selector) : Value :=
  .dict [("tftp_release", .str selector.tftpRelease), ("rootfs_release", .str selector.rootfsRelease)]

/-- `previous_selector_by_node` -/
def selectorDict (selectors : Mapping Selector) : Dict :=
  selectors.map fun entry => (entry.1, selectorValue entry.2)

theorem get_selectorDict (selectors : Mapping Selector) (target : String) :
    Mapping.get (selectorDict selectors) target = (selectors.get target).map selectorValue := by
  unfold selectorDict
  induction selectors with
  | nil => rfl
  | cons entry rest ih =>
      obtain ⟨name, selector⟩ := entry
      rw [List.map_cons, Mapping.get_cons, Mapping.get_cons, ih]
      split <;> rfl

/-- The same request for a rollback to the previous selectors. -/
def rollbackRequest (request : Request) (previous : Mapping Selector) : Request :=
  { request with
    phase := .rollbackLastPhase
    rollbackSelectors := selectorDict previous }

section Rollback

variable [UnicodeData]

/-- A rollback to recorded selectors goes through: `target_policy` takes them from
the record, and the playbook applies them. -/
structure PutBack (vars : Vars) (releases : Releases) (groups : Groups) (hosts : List PxeHost)
    (request : Request) (boards : Boards) (previous : Mapping Selector) : Prop where
  policy : ∀ (record : Dict) (phase : RuntimePhase) (fleet : List String),
    record.get "phase" = some (.str phase.text) →
      record.get "targets" = some (.list (request.targets.map .str)) →
        record.get "previous_selector_by_node" = some (.dict (selectorDict previous)) →
          (∀ target ∈ request.targets, target ∈ fleet) →
            rollbackPolicy record fleet = .ok ⟨request.targets, selectorDict previous, phase⟩
  playbook : ∃ final report live,
    rollout vars releases groups hosts (rollbackRequest request previous) boards =
      .ok (final, report) ∧
    liveSelectors releases hosts final request.targets = .ok live ∧
    ∀ target ∈ request.targets, live.get target = previous.get target

/-- The live selectors can be read, and they are the previous ones already or the
boards can be switched to these. -/
def Restorable (vars : Vars) (releases : Releases) (hosts : List PxeHost) (targets : List String)
    (boards : Boards) (previous : Mapping Selector) : Prop :=
  ∃ live, liveSelectors releases hosts boards targets = .ok live ∧
    ((∀ target ∈ targets, live.get target = previous.get target) ∨
      Switchable vars releases (targetEntries hosts targets previous)
        (boardFilesBefore (targetEntries hosts targets previous) boards))

theorem rollbackField_selectorDict {previous : Mapping Selector} {target : String}
    {selector : Selector} (held : previous.get target = some selector)
    (form : selector.wellFormed = true) :
    rollbackField (selectorDict previous) target "tftp_release" = selector.tftpRelease ∧
      rollbackField (selectorDict previous) target "rootfs_release" = selector.rootfsRelease := by
  obtain ⟨tftp, rootfs⟩ : isSelector selector.tftpRelease.toList = true ∧
      isSelector selector.rootfsRelease.toList = true := Bool.and_eq_true _ _ ▸ form
  have kept : ∀ text : String, isSelector text.toList = true →
      (if (Value.str text).truthy then String.ofList (strip (Value.str text).text) else "") =
        text := by
    intro text clean
    have truthy : (Value.str text).truthy = true := by
      simpa [Value.truthy] using ne_empty_of_isSelector clean
    rw [if_pos truthy, Value.text, strip_of_isSelector clean, String.ofList_toList]
  have present : Mapping.get (selectorDict previous) target = some (selectorValue selector) := by
    rw [get_selectorDict, held]
    rfl
  constructor
  · rw [rollbackField, present]
    exact kept _ tftp
  · rw [rollbackField, present]
    exact kept _ rootfs

/-- A rollback applies exactly the recorded selectors. -/
theorem appliedSelectors_rollback {groups : Groups} {request : Request}
    {previous : Mapping Selector} (holds : holdsSelectors previous request.targets = true) :
    ∀ target ∈ request.targets,
      (appliedSelectors groups (rollbackRequest request previous)).get target =
        previous.get target := by
  intro target member
  obtain ⟨selector, held, form⟩ := exists_selector holds member
  obtain ⟨tftp, rootfs⟩ := rollbackField_selectorDict held form
  have own : appliedSelector groups (rollbackRequest request previous) target = selector := by
    have back : (rollbackRequest request previous).isRollback = true := rfl
    rw [appliedSelector, if_pos back]
    simp only [rollbackRequest, tftp, rootfs]
  have got := Mapping.get_update_map [] (rollbackRequest request previous).targets
    (appliedSelector groups (rollbackRequest request previous)) target
  rw [if_pos (show target ∈ (rollbackRequest request previous).targets from member), own] at got
  rw [appliedSelectors, got, held]

/-- `target_policy` takes recorded selectors as they are. -/
theorem rollbackPolicy_of_holds {targets : List String} {previous : Mapping Selector}
    (nonempty : targets ≠ []) (holds : holdsSelectors previous targets = true) {record : Dict}
    {phase : RuntimePhase} {fleet : List String}
    (named : record.get "phase" = some (.str phase.text))
    (listed : record.get "targets" = some (.list (targets.map .str)))
    (before : record.get "previous_selector_by_node" = some (.dict (selectorDict previous)))
    (known : ∀ target ∈ targets, target ∈ fleet) :
    rollbackPolicy record fleet = .ok ⟨targets, selectorDict previous, phase⟩ := by
  refine rollbackPolicy_eq_ok.mpr ⟨⟨⟨_, named, RuntimePhase.ofText_text phase⟩, before, listed,
    fun target member => ?_⟩, nonempty, known⟩
  obtain ⟨selector, held, form⟩ := exists_selector holds member
  have present : Mapping.get (selectorDict previous) target = some (selectorValue selector) := by
    rw [get_selectorDict, held]
    rfl
  simp only [selectorUsable, present, selectorValue]
  exact form

omit [UnicodeData] in
/-- The input of a rollback is accepted where that of the forward run is. -/
theorem inputAccepted_rollback {groups : Groups} {request : Request} {previous : Mapping Selector}
    (accepted : inputAccepted groups request = true) :
    inputAccepted groups (rollbackRequest request previous) = true := by
  simp only [inputAccepted, Bool.and_eq_true] at accepted ⊢
  obtain ⟨⟨⟨⟨⟨⟨⟨⟨nonempty, staged⟩, unproductive⟩, -⟩, run⟩, kernel⟩, selector⟩, -⟩, consistent⟩ :=
    accepted
  exact ⟨⟨⟨⟨⟨⟨⟨⟨nonempty, staged⟩, unproductive⟩, rfl⟩, run⟩, kernel⟩, selector⟩, rfl⟩, consistent⟩

/-- The source directories of the selectors are there. -/
def SourcesPresent (releases : Releases) (targets : List String) (selectors : Mapping Selector) :
    Prop :=
  ∀ target ∈ targets, ∀ selector, selectors.get target = some selector →
    releases.tftpDirectory selector.tftpRelease = true ∧
      releases.rootfsDirectory selector.rootfsRelease = true

theorem sourcesPresent_rollback {releases : Releases} {groups : Groups} {request : Request}
    {previous : Mapping Selector} (holds : holdsSelectors previous request.targets = true)
    (present : SourcesPresent releases request.targets previous) :
    sourcesPresent releases (appliedSelectors groups (rollbackRequest request previous)) = true := by
  refine List.all_eq_true.mpr ?_
  rintro ⟨name, selector⟩ member
  have got : (appliedSelectors groups (rollbackRequest request previous)).get name =
      some selector :=
    Mapping.get_of_mem (Mapping.keys_update_nodup _ List.nodup_nil) member
  have target : name ∈ request.targets := by
    by_contra other
    have absent := Mapping.get_update_map [] (rollbackRequest request previous).targets
      (appliedSelector groups (rollbackRequest request previous)) name
    rw [if_neg (show name ∉ (rollbackRequest request previous).targets from other)] at absent
    exact absurd (got.symm.trans absent) (by simp)
  rw [appliedSelectors_rollback holds name target] at got
  exact Bool.and_eq_true _ _ ▸ present name target selector got

omit [UnicodeData] in
/-- One board has one recorded selector. -/
theorem oneRelease_of_liveAt {releases : Releases} {hosts : List PxeHost} {boards : Boards}
    {targets : List String} {previous : Mapping Selector}
    (live : LiveAt releases hosts boards targets previous) :
    OneRelease (targetEntries hosts targets previous) := by
  have all := entries_of_hosts live.hashed live.holds
  intro first member second member' same
  obtain ⟨one, inside, about⟩ := host_of_entry all first member
  obtain ⟨other, inside', about'⟩ := host_of_entry all second member'
  obtain ⟨selector, read, held⟩ := live.read one inside
  obtain ⟨selector', read', held'⟩ := live.read other inside'
  rw [← about.board, same, about'.board, read'] at read
  obtain rfl := Option.some.inj read
  have equal := (about.selector.symm.trans held).trans (held'.symm.trans about'.selector)
  exact congrArg Selector.tftpRelease (Option.some.inj equal)

omit [UnicodeData] in
/-- `pxe_host_releases.yml` accepts a host exactly when its selector is a pair. -/
theorem releaseAccepted_iff {applied : Mapping Selector} {host : PxeHost} {entry : HostEntry}
    (about : EntryFor applied host entry)
    (form : (⟨entry.release, entry.rootfsRelease⟩ : Selector).wellFormed = true) :
    releaseAccepted (resolvedHost (host.withSelector
        ((applied.get host.name).getD ⟨"", ""⟩))) = true ↔
      entry.rootfsRelease = entry.release := by
  obtain ⟨tftp, rootfs⟩ : isSelector entry.release.toList = true ∧
      isSelector entry.rootfsRelease.toList = true := Bool.and_eq_true _ _ ▸ form
  have named := isReleaseName_of_isSelector tftp
  have filled := ne_empty_of_isSelector tftp
  rw [about.selector]
  simp [releaseAccepted, resolvedHost, PxeHost.withSelector, ne_empty_of_isSelector rootfs, named,
    filled]

omit [UnicodeData] in
/-- Every target is overridden with its selector. -/
theorem overrideApplied_of_live {releases : Releases} {hosts : List PxeHost} {before : Boards}
    {targets : List String} {previous applied : Mapping Selector}
    (live : LiveAt releases hosts before targets previous)
    (same : ∀ target ∈ targets, applied.get target = previous.get target) :
    ∀ target ∈ targets,
      overrideApplied (hostsOverride hosts targets applied) applied target = true := by
  intro target member
  obtain ⟨selector, held, -⟩ := exists_selector live.holds member
  have own : applied.get target = some selector := (same target member).trans held
  have present : ((hostsOverride hosts targets applied).find? fun host =>
      host.name == target).isSome = true := by
    obtain ⟨host, inside, named⟩ := live.covers target member
    rw [List.find?_isSome]
    exact ⟨_, List.mem_map.mpr ⟨host, inside, rfl⟩, by simpa [PxeHost.withSelector] using named⟩
  obtain ⟨found, first⟩ := Option.isSome_iff_exists.mp present
  obtain ⟨host, -, made⟩ := List.mem_map.mp (List.mem_of_find?_eq_some first)
  have named : host.name = target := by
    have asked := List.find?_some first
    rw [← made] at asked
    simpa [PxeHost.withSelector] using asked
  rw [overrideApplied, first]
  simp only [← made, named, own, PxeHost.withSelector, Option.getD_some, BEq.rfl]

omit [UnicodeData] in
/-- **A switch to recorded selectors** goes through and can be read afterwards
exactly when the boards are switchable to them. -/
theorem switched_iff {vars : Vars} {releases releases' : Releases} {hosts : List PxeHost}
    {boards before : Boards} {targets : List String} {previous applied : Mapping Selector}
    (live : LiveAt releases' hosts before targets previous)
    (same : ∀ target ∈ targets, applied.get target = previous.get target) :
    (∃ switched, Switched vars releases hosts targets applied boards switched ∧
      ∀ host ∈ targetHosts hosts targets,
        readSelector releases switched host.boardHash = previous.get host.name) ↔
    Switchable vars releases (targetEntries hosts targets previous)
      (boardFilesBefore (targetEntries hosts targets previous) boards) := by
  have made : targetEntries hosts targets applied = targetEntries hosts targets previous :=
    targetEntries_congr same
  have all := entries_of_hosts live.hashed live.holds
  have one := oneRelease_of_liveAt live
  have names : ∀ entry ∈ targetEntries hosts targets previous, entry.name ∈ targets := by
    intro entry member
    obtain ⟨host, inside, about⟩ := host_of_entry all entry member
    rw [about.name]
    exact name_mem_targets inside
  have kernel : ∀ entry ∈ targetEntries hosts targets previous,
      "kernel8.img" ∈ entry.symlinks := by
    intro entry member
    obtain ⟨host, -, about⟩ := host_of_entry all entry member
    exact about.kernel
  have form : ∀ entry ∈ targetEntries hosts targets previous,
      (⟨entry.release, entry.rootfsRelease⟩ : Selector).wellFormed = true := by
    intro entry member
    obtain ⟨host, inside, about⟩ := host_of_entry all entry member
    obtain ⟨selector, held, clean⟩ := exists_selector live.holds (name_mem_targets inside)
    rw [about.selector] at held
    rw [Option.some.inj held]
    exact clean
  have accepts : (∀ host ∈ hostsOverride hosts targets applied,
      releaseAccepted (resolvedHost host) = true) ↔
        ∀ entry ∈ targetEntries hosts targets previous, entry.rootfsRelease = entry.release := by
    have applies : ∀ host ∈ targetHosts hosts targets,
        applied.get host.name = previous.get host.name :=
      fun host member => same host.name (name_mem_targets member)
    rw [hostsOverride, List.forall_mem_map]
    constructor
    · intro accepted entry member
      obtain ⟨host, inside, about⟩ := host_of_entry all entry member
      have own := accepted host inside
      rw [applies host inside] at own
      exact (releaseAccepted_iff about (form entry member)).mp own
    · intro paired host inside
      obtain ⟨entry, member, about⟩ := entry_of_host all host inside
      rw [applies host inside]
      exact (releaseAccepted_iff about (form entry member)).mpr (paired entry member)
  constructor
  · rintro ⟨switched, done, read⟩
    have ready := made ▸ done.ready
    have result := made ▸ done.result
    have checked : ∀ entry ∈ targetEntries hosts targets previous,
        postCheck vars releases switched.file entry = true := made ▸ done.checked
    rw [result] at checked read
    refine ⟨accepts.mp done.accepted, ready.sources, ready.replaceable, ?_, ?_⟩
    · intro entry member
      exact ((postCheck_iff one member (kernel entry member)).mp (checked entry member)).1
    · intro entry member
      obtain ⟨-, text, left, contains⟩ :=
        (postCheck_iff one member (kernel entry member)).mp (checked entry member)
      obtain ⟨host, inside, about⟩ := host_of_entry all entry member
      have own := read host inside
      rw [← about.board, readSelector_after boards one member (kernel entry member), left,
        about.selector] at own
      exact ⟨text, left, contains, own⟩
  · intro ready
    refine ⟨{ (targetEntries hosts targets previous).foldl openBoard boards with
      file := writeAll (boardFilesBefore (targetEntries hosts targets previous) boards)
        (hostWrites vars (targetEntries hosts targets previous)) },
      ⟨accepts.mpr ready.paired, ?_, ?_, ?_, ?_, ?_⟩, ?_⟩
    · rw [made]
      exact ⟨fun entry member => ne_empty_of_isSelector (Bool.and_eq_true _ _ ▸ form entry member).1,
        ready.sources, ready.replaceable⟩
    · rw [made]
    · exact overrideApplied_of_live live same
    · rw [made]
      refine ⟨all.length_eq.symm.trans live.count, fun entry member => ?_⟩
      obtain ⟨host, inside, about⟩ := host_of_entry all entry member
      rw [entryApplied, beq_iff_eq, about.name, same host.name (name_mem_targets inside),
        about.selector]
    · rw [made]
      intro entry member
      obtain ⟨text, left, contains, -⟩ := ready.cmdline entry member
      exact (postCheck_iff one member (kernel entry member)).mpr
        ⟨ready.initramfs entry member, text, left, contains⟩
    · intro host inside
      obtain ⟨entry, member, about⟩ := entry_of_host all host inside
      obtain ⟨text, left, -, own⟩ := ready.cmdline entry member
      rw [← about.board, readSelector_after boards one member (kernel entry member), left,
        about.selector]
      exact own

/-- **A forward run's selectors can be put back exactly when the boards are at
them still or can be switched to them.** -/
theorem rollback_restores_iff (vars : Vars) (releases later : Releases) (groups : Groups)
    (hosts : List PxeHost) (request : Request) (boards after : Boards) (report : Report)
    (applied : rollout vars releases groups hosts request boards = .ok (after, report))
    (present : SourcesPresent later request.targets report.previous) :
    PutBack vars later groups hosts request after report.previous ↔
      Restorable vars later hosts request.targets after report.previous := by
  have forward := rollout_eq_ok.mp applied
  have recorded := liveAt_of_liveSelectors forward.live
  have restored : ∀ target ∈ request.targets,
      (appliedSelectors groups (rollbackRequest request report.previous)).get target =
        report.previous.get target := appliedSelectors_rollback recorded.holds
  have nonempty : request.targets ≠ [] := by
    rintro empty
    have input := forward.input
    rw [inputAccepted, empty] at input
    cases input
  constructor
  · rintro ⟨-, final, report', live, back, read, same⟩
    have rolled := rollout_eq_ok.mp back
    refine ⟨report'.previous, rolled.live, ?_⟩
    cases changed : report'.changed with
    | false =>
        obtain rfl := rolled.kept changed
        obtain rfl := Except.ok.inj (read.symm.trans rolled.live)
        exact .inl same
    | true =>
        have done := rolled.switched changed
        rw [rolled.applied] at done
        refine .inr ((switched_iff recorded restored).mp ⟨final, done, fun host member => ?_⟩)
        obtain ⟨selector, own, held⟩ := (liveAt_of_liveSelectors read).read host member
        rw [own, ← held, same host.name (name_mem_targets member)]
  · rintro ⟨live, read, ends⟩
    refine ⟨fun record phase fleet named listed before known =>
      rollbackPolicy_of_holds nonempty recorded.holds named listed before known, ?_⟩
    have planned : holdsSelectors (appliedSelectors groups
        (rollbackRequest request report.previous)) request.targets = true := by
      refine List.all_eq_true.mpr fun target member => ?_
      rw [restored target member]
      exact List.all_eq_true.mp recorded.holds target member
    cases changed : changeRequired request.targets live
        (appliedSelectors groups (rollbackRequest request report.previous)) with
    | false =>
        refine ⟨after, ⟨live, _, false⟩, live, rollout_eq_ok.mpr
          ⟨inputAccepted_rollback forward.input, rfl, read, rfl, planned,
            sourcesPresent_rollback recorded.holds present, rfl, changed.symm,
            fun flag => absurd flag Bool.false_ne_true, fun _ => rfl⟩, read, ?_⟩
        intro target member
        rw [← restored target member]
        by_contra differs
        have any := List.any_eq_false.mp changed target member
        exact any (bne_iff_ne.mpr differs)
    | true =>
        have moved : ¬ ∀ target ∈ request.targets,
            live.get target = report.previous.get target := by
          intro same
          obtain ⟨target, member, differs⟩ := List.any_eq_true.mp changed
          rw [restored target member, same target member] at differs
          simp at differs
        obtain ⟨switched, done, reads⟩ :=
          (switched_iff recorded restored).mpr (ends.resolve_left moved)
        obtain ⟨live', read', same⟩ := liveSelectors_of_reads recorded reads
        exact ⟨switched, ⟨live, _, true⟩, live', rollout_eq_ok.mpr
          ⟨inputAccepted_rollback forward.input, rfl, read, rfl, planned,
            sourcesPresent_rollback recorded.holds present, rfl, changed.symm,
            fun _ => done, fun flag => absurd flag (by simp)⟩, read', same⟩

section Fixtures

omit [UnicodeData]

theorem rollback_restores_iff_fixture :
    ∃ (_ : UnicodeData) (after : Boards) (report : Report),
      PutBack fixtureVars fixtureReleases fixtureGroups [fixtureHost] fixtureRequest after
          report.previous ↔
        Restorable fixtureVars fixtureReleases [fixtureHost] fixtureRequest.targets after
          report.previous := by
  let _ : UnicodeData := asciiData
  obtain ⟨boards, after, report, -, applied, -⟩ := fixture_applied
  exact ⟨asciiData, after, report, rollback_restores_iff fixtureVars fixtureReleases
    fixtureReleases fixtureGroups [fixtureHost] fixtureRequest boards after report applied
    fun _ _ _ _ => ⟨rfl, rfl⟩⟩

/-- A board with the kernel of one release and the root file system of another. -/
def fixtureUnpaired : Boards where
  symlink _ := none
  file key :=
    if key = ("0a1b2c3d", "kernel8.img") then some (.link "20260701-rpi5" "kernel8.img")
    else if key = ("0a1b2c3d", "cmdline.txt") then
      some (.copy "root=nfs4:192.0.2.1:/gentoo/20260601-rpi5/nfs,vers=4.2 rw\n".toList)
    else none

/-- **An unpaired selector is replaced and cannot be put back.** -/
theorem unpaired_selector_not_put_back :
    ∃ (_ : UnicodeData) (vars : Vars) (releases : Releases) (groups : Groups)
      (hosts : List PxeHost) (request : Request) (boards after : Boards) (report : Report),
      request.isRollback = false ∧
        rollout vars releases groups hosts request boards = .ok (after, report) ∧
        SourcesPresent releases request.targets report.previous ∧
        ¬ PutBack vars releases groups hosts request after report.previous := by
  let _ : UnicodeData := asciiData
  have runs : ((rollout fixtureVars fixtureReleases fixtureGroups [fixtureHost] fixtureRequest
      fixtureUnpaired).toOption.map fun outcome =>
        (rollout fixtureVars fixtureReleases fixtureGroups [fixtureHost]
          (rollbackRequest fixtureRequest outcome.2.previous) outcome.1).toOption.isSome) =
      some false := by
    decide +kernel
  obtain ⟨⟨after, report⟩, applied, fails⟩ := Option.map_eq_some_iff.mp runs
  refine ⟨asciiData, fixtureVars, fixtureReleases, fixtureGroups, [fixtureHost], fixtureRequest,
    fixtureUnpaired, after, report, rfl, toOption_eq_some.mp applied,
    fun _ _ _ _ => ⟨rfl, rfl⟩, ?_⟩
  rintro ⟨-, final, report', live, back, -⟩
  rw [back] at fails
  cases fails

end Fixtures

end Rollback

end HomeclusterInfra.Tftp
