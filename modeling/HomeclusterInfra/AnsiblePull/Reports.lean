import HomeclusterInfra.AnsiblePull.Evidence
import Mathlib.Data.List.Forall2

/-!
# What is read of a run

The reader of a file finds what the run has written, as a whole or not at all. The two files of a
role that are accepted together are those of its last run.
-/

set_option autoImplicit false

namespace HomeclusterInfra.AnsiblePull

open Text Shell Checked Assignments PxeReceipt
open Binary64 (minus)

variable {run : Run} {outcome : Outcome} {station : Station} {role : List Char} {kind : Kind}
  {boot : Boot}

/-! ## The state of a run -/

/-- What is read of the file of a run. -/
structure ReadsAs (run : Run) (outcome : Outcome) (parsed : List Entry) : Prop where
  role : IsReadAs run.role (value parsed "ROLE")
  stage : IsReadAs (orUnknown run.stage) (value parsed "STAGE")
  branch : IsReadAs (orUnknown outcome.branch) (value parsed "BRANCH")
  rc : IsReadAs (natText outcome.rc) (value parsed "RC")
  step : IsReadAs outcome.step.toList (value parsed "STEP")

theorem readsAs_of_read {accepts : List Char → Bool} {parsed : List Entry}
    (accepted : read stateFields accepts (print (statusEntries run outcome)) = some parsed) :
    ReadsAs run outcome parsed := by
  have keys : ((statusEntries run outcome).map Prod.fst).Perm stateFields :=
    List.Perm.refl _
  have plain : ∀ entry ∈ statusEntries run outcome, '=' ∉ entry.1 := by
    intro entry member
    have key : entry.1 ∈ stateFields := keys.subset (List.mem_map_of_mem member)
    have all : ∀ key ∈ stateFields, '=' ∉ key := by decide
    exact all entry.1 key
  have each := printed_of_read keys (by decide) plain accepted
  have found : ∀ (key : String) (text : List Char),
      (key.toList, text) ∈ statusEntries run outcome → IsReadAs text (value parsed key) := by
    intro key text member
    obtain ⟨found, there, readAs⟩ := each _ member
    rw [value, there]
    exact readAs
  refine ⟨found _ _ ?_, found _ _ ?_, found _ _ ?_, found _ _ ?_, found _ _ ?_⟩ <;>
    simp [statusEntries]

/-- A state that is read was written. -/
theorem statusFile_of_read {accepts : List Char → Bool} {file : File} {parsed : List Entry}
    (status : IsStatusOf run outcome file)
    (accepted : read stateFields accepts file.text = some parsed) :
    file = statusFile run outcome := by
  rcases status with empty | whole
  · rw [empty] at accepted
    obtain ⟨lines, -, all⟩ := read_eq_some.mp accepted
    have none_left : parsed = [] := List.map_eq_nil_iff.mp lines.symm
    rw [none_left] at all
    exact absurd (all "RC".toList (by decide)) List.not_mem_nil
  · exact whole

/-! ## Values of receipts -/

/-- A value whose characters are all visible. -/
def IsSolid (text : List Char) : Prop :=
  ∀ char ∈ text, IsVisible char

theorem isSolid_of_isHex {width : Nat} {text : List Char} (hex : isHex width text = true) :
    IsSolid text := by
  rw [isHex, Bool.and_eq_true, List.all_eq_true] at hex
  exact fun char member => HexGroups.isHex_visible (hex.2 char member)

theorem isSolid_of_all {text : List Char}
    (all : (text.all fun char => 33 ≤ char.toNat && char.toNat < 127) = true) : IsSolid text := by
  intro char member
  have bounds := List.all_eq_true.mp all char member
  rw [Bool.and_eq_true, decide_eq_true_eq, decide_eq_true_eq] at bounds
  exact bounds

theorem isSolid_of_isBuildId {text : List Char} (build : isBuildId text = true) :
    IsSolid text := by
  cases text with
  | nil => exact fun _ member => absurd member List.not_mem_nil
  | cons first rest =>
      rw [isBuildId, Bool.and_eq_true, Bool.and_eq_true, List.all_eq_true] at build
      refine List.forall_mem_cons.mpr ⟨isVisible_of_isAlphanum build.1.1, fun char member => ?_⟩
      have name := build.2 char member
      rw [isNameChar, Bool.or_eq_true, Bool.or_eq_true, Bool.or_eq_true, decide_eq_true_eq,
        decide_eq_true_eq, decide_eq_true_eq] at name
      rcases name with ((letter | rfl) | rfl) | rfl
      · exact isVisible_of_isAlphanum letter
      · exact ⟨by decide, by decide⟩
      · exact ⟨by decide, by decide⟩
      · exact ⟨by decide, by decide⟩

theorem isSolid_of_isFileChar {text : List Char} (plain : text.all isFileChar = true) :
    IsSolid text := by
  intro char member
  have file := List.all_eq_true.mp plain char member
  rw [isFileChar, Bool.or_eq_true, List.contains_iff_mem] at file
  rcases file with letter | mark
  · exact isVisible_of_isAlphanum letter
  · exact @isSolid_of_all ['_', '.', '@', '-'] (by decide) char mark

theorem isSolid_of_isEpoch {text : List Char} (epoch : isEpoch text = true) : IsSolid text := by
  rw [isEpoch, Bool.and_eq_true, List.all_eq_true] at epoch
  exact fun char member => isVisible_of_isDigit (epoch.2 char member)

theorem isStaging_iff {stage : List Char} :
    isStaging stage = true ↔ stage = "stg".toList ∨ stage = "staging".toList := by
  rw [isStaging, Bool.or_eq_true, decide_eq_true_eq, decide_eq_true_eq]

theorem isSolid_of_isStaging {stage : List Char} (staging : isStaging stage = true) :
    IsSolid stage := by
  rcases isStaging_iff.mp staging with rfl | rfl
  · exact isSolid_of_all (by decide)
  · exact isSolid_of_all (by decide)

theorem isSolid_of_isBootId {text : List Char} (bootId : isBootId text = true) : IsSolid text :=
  HexGroups.groups_visible bootId

/-! ## What is read of a receipt -/

/-- The fields that the reader of a receipt knows. -/
def Kind.fields : Kind → List (List Char)
  | .postPull => postPullFields
  | .execution => executionFields

/-- The keys of a receipt, as they are written. -/
def Kind.keys : Kind → List (List Char)
  | .postPull =>
      ["SCHEMA", "ROLE", "STAGE", "BRANCH", "BOOT_ID", "CHECKOUT_HEAD_AFTER_SUCCESS",
        "RECORDED_AT_EPOCH"].map String.toList
  | .execution =>
      ["SCHEMA", "ROLE", "STAGE", "BRANCH", "BOOT_ID", "EVIDENCE_SCOPE", "BUILD_ID",
        "PIN_REVISION", "DECLARATION_SHA256", "CHECKOUT_HEAD_AFTER_SUCCESS",
        "RECORDED_AT_EPOCH"].map String.toList

theorem solid_postPull (writes : observesCheckout run outcome = true) :
    ∀ entry ∈ postPullEntries run outcome, IsSolid entry.2 := by
  simp only [observesCheckout, Bool.and_eq_true, decide_eq_true_eq] at writes
  obtain ⟨⟨⟨⟨⟨⟨⟨⟨⟨-, -⟩, staging⟩, branch⟩, -⟩, -⟩, name⟩, bootId⟩, head⟩, epoch⟩ := writes
  simp only [postPullEntries, List.forall_mem_cons]
  refine ⟨isSolid_of_all (by decide), isSolid_of_isFileChar name, isSolid_of_isStaging staging,
    ?_, isSolid_of_isBootId bootId, isSolid_of_isHex head, isSolid_of_isEpoch epoch, ?_⟩
  · rw [branch]
    exact isSolid_of_all (by decide)
  · exact fun _ member => absurd member List.not_mem_nil

theorem solid_execution {completed : Completed} (writes : executesPin run outcome completed = true) :
    ∀ entry ∈ executionEntries run outcome completed.pin, IsSolid entry.2 := by
  simp only [executesPin, Bool.and_eq_true, decide_eq_true_eq] at writes
  obtain ⟨⟨⟨⟨⟨⟨⟨⟨⟨⟨⟨⟨⟨⟨⟨-, -⟩, -⟩, -⟩, staging⟩, branch⟩, -⟩, name⟩, revision⟩, build⟩, digest⟩, -⟩,
    head⟩, -⟩, bootId⟩, epoch⟩ := writes
  simp only [executionEntries, List.forall_mem_cons]
  refine ⟨isSolid_of_all (by decide), isSolid_of_isFileChar name, isSolid_of_isStaging staging,
    ?_, isSolid_of_isBootId bootId, isSolid_of_all (by decide), isSolid_of_isBuildId build,
    isSolid_of_isHex revision, isSolid_of_isHex digest, ?_, isSolid_of_isEpoch epoch, ?_⟩
  · rw [branch]
    exact isSolid_of_all (by decide)
  · rw [head]
    exact isSolid_of_isHex revision
  · exact fun _ member => absurd member List.not_mem_nil

/-- The lines of a receipt are whole, and their keys are those of the kind. -/
theorem entries_solid {entries : List Entry} (writes : kind.entries run outcome = some entries) :
    entries.map Prod.fst = kind.keys ∧ ∀ entry ∈ entries, IsSolid entry.2 := by
  cases kind with
  | postPull =>
      rw [Kind.entries, Option.ite_none_right_eq_some] at writes
      obtain ⟨holds, same⟩ := writes
      cases same
      exact ⟨rfl, solid_postPull holds⟩
  | execution =>
      obtain ⟨completed, -, same⟩ := Option.bind_eq_some_iff.mp writes
      rw [Option.ite_none_right_eq_some] at same
      obtain ⟨holds, same⟩ := same
      cases same
      exact ⟨rfl, solid_execution holds⟩

/-- **A receipt is read as a whole or not at all.** -/
theorem entries_of_read {file : File} {parsed : List Entry} {accepts : List Char → Bool}
    (receipt : IsReceiptOf run outcome kind (some file))
    (accepted : read kind.fields accepts file.text = some parsed) :
    kind.entries run outcome = some parsed ∧ file.mtime = kind.time run := by
  obtain ⟨entries, written, writes, sublist, rfl⟩ := receipt
  obtain ⟨keys, solid⟩ := entries_solid writes
  have keyOf : ∀ entry ∈ entries, entry.1 ∈ kind.keys := fun entry member =>
    keys ▸ List.mem_map_of_mem member
  have plainKeys : ∀ key ∈ kind.keys, '=' ∉ key ∧
      (key.all fun char => 33 ≤ char.toNat && char.toNat < 127) = true := by
    cases kind <;> decide
  have whole : ∀ entry ∈ entries, ∀ char ∈ assignment entry, isLineBreak char = false := by
    intro entry member char inside
    rcases List.mem_append.mp inside with key | rest
    · have visible := isSolid_of_all (plainKeys entry.1 (keyOf entry member)).2
      exact (visible char key).notLineBreak
    · rcases List.mem_cons.mp rest with rfl | value
      · rfl
      · exact (solid entry member char value).notLineBreak
  have count : entries.length ≤ kind.fields.length := by
    rw [← @List.length_map _ _ entries Prod.fst, keys]
    cases kind <;> decide
  have distinct : kind.fields.Nodup := by cases kind <;> decide
  obtain ⟨-, rfl⟩ := eq_of_read_sublist sublist
    (fun entry member => (plainKeys entry.1 (keyOf entry member)).1) whole distinct count accepted
  exact ⟨writes, rfl⟩

/-- The state of a run is no receipt. -/
theorem not_read_status {file : File} {parsed : List Entry} {accepts : List Char → Bool}
    (status : IsStatusOf run outcome file) :
    read kind.fields accepts file.text ≠ some parsed := by
  intro accepted
  obtain ⟨lines, admitted, all⟩ := read_eq_some.mp accepted
  rcases status with empty | rfl
  · rw [empty] at lines
    have none_left : parsed = [] := List.map_eq_nil_iff.mp lines.symm
    have key : "SCHEMA".toList ∈ kind.fields := by cases kind <;> decide
    rw [none_left] at all
    exact absurd (all _ key) List.not_mem_nil
  · -- The line of `RC` is there, whatever the values are.
    let entry : Entry := ("RC".toList, natText outcome.rc)
    have solid : ∀ char ∈ assignment entry, isLineBreak char = false := by
      intro char member
      rcases List.mem_append.mp member with key | rest
      · have visible : IsSolid "RC".toList := isSolid_of_all (by decide)
        exact (visible char key).notLineBreak
      · rcases List.mem_cons.mp rest with rfl | digit
        · rfl
        · exact (isVisible_of_isDigit (natText_isDigit digit)).notLineBreak
    have single : splitlines (assignment entry ++ ['\n']) = [assignment entry] := by
      have one := splitlines_unlines (List.forall_mem_singleton.mpr solid)
      rw [unlines, List.flatMap_singleton] at one
      exact one
    have written : entry ∈ statusEntries run outcome := by simp [statusEntries, entry]
    rw [statusFile, print, splitlines_unlines_flatMap] at lines
    have line : assignment entry ∈ parsed.map assignment := by
      rw [← lines]
      exact List.mem_flatMap.mpr ⟨_, List.mem_map_of_mem written, single ▸ List.mem_singleton.mpr rfl⟩
    obtain ⟨found, member, same⟩ := List.mem_map.mp line
    have splits := congrArg split same
    rw [split_assignment (admitted.plain found member),
      @split_assignment entry (show '=' ∉ "RC".toList by decide)] at splits
    have known := admitted.known found member
    rw [splits] at known
    have unknown : "RC".toList ∉ kind.fields := by cases kind <;> decide
    exact unknown known

/-! ## Successful runs -/

/-- The reader's view of the two files of a role. -/
theorem accepted_of_readEnv {fields : List (List Char)} {refusesEmpty : Bool} {content : Option File}
    {parsed : List Entry} {time : Rat}
    (accepted : readEnv refusesEmpty fields content = .ok (parsed, time)) :
    ∃ file, content = some file ∧ read fields isShort file.text = some parsed ∧
      file.mtime = time := by
  cases content with
  | none => cases accepted
  | some file =>
      rw [readEnv] at accepted
      split at accepted
      next => cases accepted
      next =>
        split at accepted
        next => cases accepted
        next entries found =>
          cases accepted
          exact ⟨file, rfl, found, rfl⟩

/-- A value that is read as itself. -/
theorem eq_of_isReadAs {text found : List Char} (readAs : IsReadAs text found)
    (plain : '\r' ∉ text) : text = found := by
  rcases readAs with same | same
  · exact same
  · exact absurd (same ▸ List.mem_append_right _ List.mem_cons_self) plain

/-- A run whose state is read as successful has come to its end. -/
theorem completed_of_readsAs {parsed : List Entry} (settled : Settled run outcome)
    (reads : ReadsAs run outcome parsed) (rc : value parsed "RC" = ['0']) :
    ∃ completed, outcome = ⟨0, "complete", completed.branch, some completed⟩ ∧
      Verified run completed := by
  cases settled with
  | @completed completed verified same => exact ⟨completed, same, verified⟩
  | stopped failed =>
      have digits : '\r' ∉ natText outcome.rc := notMem_natText rfl
      have zero := eq_of_isReadAs reads.rc digits
      rw [rc] at zero
      have back := congrArg digitsValue zero
      rw [digitsValue_natText] at back
      exact absurd back failed

/-- **The two files of a role that are read together are those of its last run**, where the
receipt is not older than the state. -/
theorem lastRun_of_read (evidence : Evidence station) (plain : '.' ∉ role)
    (other : role ≠ "last".toList) {oneRefuses otherRefuses : Bool} {receipt status : List Entry × Rat}
    (readReceipt : readEnv oneRefuses kind.fields (station.files (role ++ kind.ending)) =
      .ok receipt)
    (readStatus : readEnv otherRefuses stateFields (station.files (role ++ env)) = .ok status)
    (order : status.2 ≤ receipt.2) :
    ∃ run outcome, lastOf role station = some (run, outcome) ∧ Settled run outcome ∧
      kind.entries run outcome = some receipt.1 ∧ ReadsAs run outcome status.1 := by
  obtain ⟨file, there, accepted, time⟩ := accepted_of_readEnv readReceipt
  obtain ⟨state, found, acceptedState, stateTime⟩ := accepted_of_readEnv readStatus
  obtain ⟨entry, last, isStatus⟩ := evidence.status role state plain other found
  have written := statusFile_of_read isStatus acceptedState
  rcases evidence.receipts kind role file there with ⟨_, isState⟩ | ⟨maker, later, made⟩
  · exact absurd accepted (not_read_status isState)
  · obtain ⟨writes, madeAt⟩ := entries_of_read made.receipt accepted
    have same : later = entry := Option.some.inj (made.last.symm.trans last)
    have own : maker = entry := by
      rcases made.order with own | older
      · exact own.symm.trans same
      · rw [same] at older
        rw [← time, ← stateTime, madeAt, written] at order
        exact absurd order (not_le_of_gt older)
    rw [own] at writes
    have member := made.logged
    rw [own] at member
    rw [written] at acceptedState
    exact ⟨entry.1, entry.2, last, evidence.settled entry member, writes,
      readsAs_of_read acceptedState⟩

/-- What the reader compares. -/
theorem identity_of_rolesAgree {receipt status : List Entry}
    (agree : rolesAgree role boot receipt status = true) :
    value receipt "ROLE" = role ∧ isStaging (value receipt "STAGE") = true ∧
      value receipt "BRANCH" = "stg".toList ∧ value receipt "BOOT_ID" = boot.bootId ∧
        value status "RC" = ['0'] := by
  simp only [rolesAgree, Bool.and_eq_true, decide_eq_true_eq] at agree
  obtain ⟨⟨⟨⟨⟨⟨⟨⟨⟨⟨⟨-, name⟩, -⟩, staging⟩, -⟩, branch⟩, -⟩, bootId⟩, -⟩, rc⟩, -⟩, -⟩ := agree
  exact ⟨name, staging, branch, bootId, rc⟩

theorem pinned_of_executesPin {completed : Completed}
    (executes : executesPin run outcome completed = true) :
    run.pinned = true ∧ run.headAfter = completed.pin.revision := by
  simp only [executesPin, Bool.and_eq_true, decide_eq_true_eq] at executes
  obtain ⟨⟨⟨⟨⟨⟨⟨⟨⟨⟨⟨⟨⟨⟨⟨-, -⟩, pinned⟩, -⟩, -⟩, -⟩, -⟩, -⟩, -⟩, -⟩, -⟩, -⟩, head⟩, -⟩, -⟩, -⟩ := executes
  exact ⟨pinned, head⟩

theorem roles_plain : ∀ role ∈ roles, '.' ∉ role ∧ role ≠ "last".toList := by
  decide

theorem order_of_recordedAt {statusTime receiptTime : Rat} {epoch text : List Char}
    (accepted : recordedAt boot statusTime receiptTime epoch = .ok text) :
    statusTime ≤ receiptTime := by
  rw [recordedAt, require_bind_eq_ok, require_bind_eq_ok] at accepted
  have agree := accepted.2.1
  simp only [timesAgree, Bool.and_eq_true, decide_eq_true_eq] at agree
  exact agree.1.1.1.1.1.2

theorem ok_of_mapError {α : Type} {outcome : Except String α} {value : α} {change : String → String}
    (accepted : outcome.mapError change = .ok value) : outcome = .ok value := by
  cases outcome with
  | ok other => exact accepted
  | error failure => cases accepted

/-! ## Snapshots -/

/-- What a node reads of its boot, where a snapshot is taken. -/
structure IsBootOf (readings : Readings) (boot : Boot) : Prop where
  first : readings.firstBoot = some boot.bootId
  second : readings.secondBoot = some boot.bootId
  isBootId : isBootId boot.bootId = true
  epoch : ∃ uptime, readings.uptime = some uptime ∧ 0 ≤ uptime ∧ uptime ≤ 5 * 365 * 86400 ∧
    uptime < readings.now ∧ boot.epoch = minus readings.now uptime
  now : boot.now = readings.now
  text : (timeText readings.now).isSome = true

theorem snapshot_eq_ok {α : Type} {readings : Readings}
    {readRole : Boot → List Char → Except String α} {reports : List (List Char × Except String α)} :
    snapshot readings readRole = .ok reports ↔
      ∃ boot, IsBootOf readings boot ∧ reports = roles.map fun role => (role, readRole boot role) := by
  constructor
  · intro taken
    rw [snapshot] at taken
    split at taken
    next first uptime foundFirst foundUptime =>
      split at taken
      next => cases taken
      next valid =>
        dsimp only at taken
        split at taken
        next => cases taken
        next again =>
          split at taken
          next => cases taken
          next written =>
            cases taken
            rw [Bool.or_eq_true, Bool.or_eq_true, Bool.or_eq_true, not_or, not_or, not_or,
              decide_eq_true_eq, decide_eq_true_eq, decide_eq_true_eq, Bool.not_eq_true',
              Bool.not_eq_false, not_lt, not_lt, not_le] at valid
            rw [not_not] at again
            rw [Bool.not_eq_true, Option.isNone_eq_false_iff] at written
            exact ⟨⟨first, minus readings.now uptime, readings.now⟩, ⟨foundFirst, again,
              valid.1.1.1, ⟨uptime, foundUptime, valid.1.1.2, valid.1.2, valid.2, rfl⟩, rfl,
              written⟩, rfl⟩
    next => cases taken
  · rintro ⟨⟨bootId, epoch, now⟩, ⟨first, again, form, ⟨uptime, foundUptime, low, high, before,
      rfl⟩, rfl, written⟩, rfl⟩
    rw [snapshot, first, foundUptime]
    dsimp only
    rw [again, ← Option.not_isSome, written, form]
    simp only [not_lt.mpr low, not_lt.mpr high, not_le.mpr before, decide_false, Bool.not_true,
      Bool.or_self, Bool.false_eq_true, ne_eq, not_true_eq_false, if_false]

/-! ## The last run of all -/

theorem stage_of_verified {completed : Completed} (verified : Verified run completed) :
    run.stage ∈ ["stg", "staging", "prod", "prd", "production"].map String.toList := by
  have resolved := verified.branch
  rw [resolveBranch] at resolved
  split at resolved
  next => cases resolved
  next stageBranch known =>
    rw [branchFromStage] at known
    split at known
    next staging =>
      rw [Bool.or_eq_true, decide_eq_true_eq, decide_eq_true_eq] at staging
      rcases staging with same | same
      · simp [same]
      · simp [same]
    next =>
      split at known
      next production =>
        simp only [Bool.or_eq_true, decide_eq_true_eq] at production
        rcases production with (same | same) | same
        · simp [same]
        · simp [same]
        · simp [same]
      next => cases known

/-- The stage of a verified run is read as it is. -/
theorem stage_eq_of_reads {completed : Completed} (verified : Verified run completed)
    {parsed : List Entry} (reads : ReadsAs run outcome parsed) : run.stage = value parsed "STAGE" := by
  have known := stage_of_verified verified
  have plain : ∀ stage ∈ ["stg", "staging", "prod", "prd", "production"].map String.toList,
      '\r' ∉ orUnknown stage ∧ orUnknown stage = stage := by decide
  obtain ⟨noReturn, same⟩ := plain run.stage known
  exact same.symm.trans (eq_of_isReadAs reads.stage noReturn)

end HomeclusterInfra.AnsiblePull
