import HomeclusterInfra.AnsiblePull.SuccessfulRun

/-!
# A successful run is accepted

What a successful run leaves is read as it was written. All three readers accept it where the
receipts were written soon after the state, and report what the run has found.
-/

set_option autoImplicit false

namespace HomeclusterInfra.AnsiblePull

open Text Shell Interruption Checked Assignments PxeReceipt Binary64

variable {run : Run} {station : Station} {role : List Char} {kind : Kind} {boot : Boot}

/-! ## The files -/

/-- A value that is read as it was written. -/
structure IsPlain (text : List Char) : Prop where
  solid : IsSolid text
  short : isShort text = true

theorem isShort_of_length {text : List Char} (positive : 0 < text.length)
    (bound : text.length ≤ 128) : isShort text = true := by
  rw [isShort, Bool.and_eq_true, decide_eq_true_eq, decide_eq_true_eq]
  exact ⟨List.ne_nil_of_length_pos positive, bound⟩

theorem isPlain_of_all {text : List Char}
    (all : (text.all fun char => 33 ≤ char.toNat && char.toNat < 127) = true)
    (short : isShort text = true) : IsPlain text :=
  ⟨isSolid_of_all all, short⟩

theorem isPlain_of_isHex {width : Nat} {text : List Char} (hex : isHex width text = true)
    (positive : 0 < width) (bound : width ≤ 128) : IsPlain text := by
  have length := hex
  rw [isHex, Bool.and_eq_true, decide_eq_true_eq] at length
  exact ⟨isSolid_of_isHex hex, isShort_of_length (length.1 ▸ positive) (length.1 ▸ bound)⟩

theorem isPlain_of_isBuildId {text : List Char} (build : isBuildId text = true) :
    IsPlain text := by
  refine ⟨isSolid_of_isBuildId build, ?_⟩
  cases text with
  | nil => cases build
  | cons first rest =>
      rw [isBuildId, Bool.and_eq_true, Bool.and_eq_true, decide_eq_true_eq] at build
      exact isShort_of_length (Nat.succ_pos _) (Nat.succ_le_succ build.1.2)

theorem isPlain_of_isBootId {text : List Char} (bootId : isBootId text = true) :
    IsPlain text := by
  have length := HexGroups.length_groups bootId
  have same : [8, 4, 4, 4, 12].sum + [8, 4, 4, 4, 12].length = 37 := rfl
  exact ⟨isSolid_of_isBootId bootId, isShort_of_length (by omega) (by omega)⟩

theorem isPlain_of_isStaging {stage : List Char} (staging : isStaging stage = true) :
    IsPlain stage := by
  rcases isStaging_iff.mp staging with rfl | rfl
  · exact isPlain_of_all (by decide) (by decide)
  · exact isPlain_of_all (by decide) (by decide)

theorem isPlain_of_isEpoch {text : List Char} (epoch : isEpoch text = true)
    (bound : text.length ≤ 16) : IsPlain text := by
  have some_digit := epoch
  rw [isEpoch, Bool.and_eq_true, decide_eq_true_eq] at some_digit
  exact ⟨isSolid_of_isEpoch epoch,
    isShort_of_length (List.length_pos_of_ne_nil some_digit.1) (bound.trans (by decide))⟩

theorem isPlain_role (known : role ∈ roles) : IsPlain role := by
  have all : ∀ role ∈ roles, (role.all fun char => 33 ≤ char.toNat && char.toNat < 127) = true ∧
      isShort role = true := by decide
  exact isPlain_of_all (all role known).1 (all role known).2

/-- Plain values under the keys of a file. -/
structure Plain (fields : List (List Char)) (entries : List Entry) : Prop where
  keys : (entries.map Prod.fst).Perm fields
  distinct : fields.Nodup
  named : ∀ key ∈ fields, '=' ∉ key ∧ key.length ≤ 40 ∧ IsSolid key
  some_field : fields ≠ []
  few : fields.length ≤ 11
  values : ∀ entry ∈ entries, IsPlain entry.2

section Plain

variable {fields : List (List Char)} {entries : List Entry}

theorem Plain.known (plain : Plain fields entries) : ∀ entry ∈ entries, entry.1 ∈ fields :=
  fun _ member => plain.keys.subset (List.mem_map_of_mem member)

theorem Plain.visible (plain : Plain fields entries) :
    ∀ entry ∈ entries, ∀ char ∈ assignment entry, IsVisible char := by
  intro entry member char inside
  rcases List.mem_append.mp inside with key | rest
  · exact (plain.named entry.1 (plain.known entry member)).2.2 char key
  · rcases List.mem_cons.mp rest with rfl | value
    · exact ⟨by decide, by decide⟩
    · exact (plain.values entry member).solid char value

theorem Plain.read_print (plain : Plain fields entries) {accepts : List Char → Bool}
    (accepted : ∀ entry ∈ entries, accepts entry.2 = true) :
    read fields accepts (print entries) = some entries :=
  Assignments.read_print
    ⟨fun entry member => (plain.named entry.1 (plain.known entry member)).1, plain.known,
      plain.keys.symm.nodup plain.distinct, accepted⟩
    (fun _ member => plain.keys.symm.subset member)
    fun entry member char inside => (plain.visible entry member char inside).notLineBreak

theorem Plain.length_le (plain : Plain fields entries) : (print entries).length ≤ 2048 := by
  have bound := @length_print_le entries 40 128 fun entry member => by
    have short := (plain.values entry member).short
    rw [isShort, Bool.and_eq_true, decide_eq_true_eq, decide_eq_true_eq] at short
    exact ⟨(plain.named entry.1 (plain.known entry member)).2.1, short.2⟩
  have count : entries.length ≤ 11 := by
    rw [← @List.length_map _ _ entries Prod.fst, plain.keys.length_eq]
    exact plain.few
  exact bound.trans ((Nat.mul_le_mul_right _ count).trans (by decide))

theorem Plain.ascii (plain : Plain fields entries) :
    (print entries).any (128 ≤ ·.toNat) = false := by
  rw [List.any_eq_false]
  intro char member
  obtain ⟨line, written, inside⟩ := List.mem_flatMap.mp member
  obtain ⟨entry, among, rfl⟩ := List.mem_map.mp written
  rw [decide_eq_true_eq, not_le]
  rcases List.mem_append.mp inside with part | feed
  · exact (plain.visible entry among char part).2.trans (by decide)
  · rw [List.mem_singleton.mp feed]
    decide

/-- A file of plain values is read as it was written. -/
theorem Plain.readEnv (plain : Plain fields entries) (refusesEmpty : Bool) (time : Rat) :
    readEnv refusesEmpty fields (some ⟨print entries, time⟩) = .ok (entries, time) := by
  have accepted : read fields isShort (print entries) = some entries :=
    plain.read_print fun entry member => (plain.values entry member).short
  have nonempty : print entries ≠ [] := by
    intro empty
    rw [empty] at accepted
    obtain ⟨lines, -, all⟩ := read_eq_some.mp accepted
    obtain ⟨key, member⟩ := List.exists_mem_of_ne_nil fields plain.some_field
    rw [List.map_eq_nil_iff.mp lines.symm] at all
    exact absurd (all key member) List.not_mem_nil
  rw [AnsiblePull.readEnv, accepted, plain.ascii]
  simp only [nonempty, decide_false, Bool.and_false, Bool.or_false, not_lt.mpr plain.length_le,
    Bool.false_eq_true, if_false]

end Plain

/-! ## What the successful run leaves -/

section Left

variable {pin : Pin} {completed : Completed}

theorem orUnknown_of_isStaging {stage : List Char} (staging : isStaging stage = true) :
    orUnknown stage = stage := by
  rcases isStaging_iff.mp staging with same | same
  · rw [same]
    rfl
  · rw [same]
    rfl

theorem plain_status (successful : Successful run pin) (branch : completed.branch = "stg".toList) :
    ∀ entry ∈ statusEntries run (successfulEnd completed), IsPlain entry.2 := by
  obtain ⟨seconds, elapsed, short⟩ := successful.elapsed
  have stage := orUnknown_of_isStaging successful.staging
  have digits : IsSolid (natText seconds) := fun char member =>
    isVisible_of_isDigit (natText_isDigit member)
  simp only [statusEntries, successfulEnd, branch, stage, elapsed, List.forall_mem_cons]
  refine ⟨isPlain_role successful.known, isPlain_of_isStaging successful.staging,
    isPlain_of_all (by decide) (by decide), isPlain_of_all (by decide) (by decide),
    ⟨digits, isShort_of_length (List.length_pos_of_ne_nil (natText_ne_nil seconds)) short⟩,
    isPlain_of_all (by decide) (by decide), fun _ member => absurd member List.not_mem_nil⟩

theorem plain_postPull (successful : Successful run pin)
    (branch : completed.branch = "stg".toList) :
    ∀ entry ∈ postPullEntries run (successfulEnd completed), IsPlain entry.2 := by
  have head : IsPlain run.headAfter :=
    successful.heads.2 ▸ isPlain_of_isHex successful.form.2.1 (by decide) (by decide)
  simp only [postPullEntries, successfulEnd, branch, List.forall_mem_cons]
  exact ⟨isPlain_of_all (by decide) (by decide), isPlain_role successful.known,
    isPlain_of_isStaging successful.staging, isPlain_of_all (by decide) (by decide),
    isPlain_of_isBootId successful.bootId, head,
    isPlain_of_isEpoch successful.postPull.1 successful.postPull.2,
    fun _ member => absurd member List.not_mem_nil⟩

theorem plain_execution (successful : Successful run pin)
    (branch : completed.branch = "stg".toList) :
    ∀ entry ∈ executionEntries run (successfulEnd completed) pin, IsPlain entry.2 := by
  obtain ⟨-, revision, build, digest⟩ := successful.form
  have hex : IsPlain pin.revision := isPlain_of_isHex revision (by decide) (by decide)
  simp only [executionEntries, successfulEnd, branch, List.forall_mem_cons]
  exact ⟨isPlain_of_all (by decide) (by decide), isPlain_role successful.known,
    isPlain_of_isStaging successful.staging, isPlain_of_all (by decide) (by decide),
    isPlain_of_isBootId successful.bootId, isPlain_of_all (by decide) (by decide),
    isPlain_of_isBuildId build, hex, isPlain_of_isHex digest (by decide) (by decide),
    successful.heads.2 ▸ hex, isPlain_of_isEpoch successful.execution.1 successful.execution.2,
    fun _ member => absurd member List.not_mem_nil⟩

theorem named_stateFields : ∀ key ∈ stateFields, '=' ∉ key ∧ key.length ≤ 40 ∧ IsSolid key := by
  have all : ∀ key ∈ stateFields, '=' ∉ key ∧ key.length ≤ 40 ∧
      (key.all fun char => 33 ≤ char.toNat && char.toNat < 127) = true := by decide
  exact fun key member => ⟨(all key member).1, (all key member).2.1,
    isSolid_of_all (all key member).2.2⟩

theorem Kind.named_fields (kind : Kind) :
    ∀ key ∈ kind.fields, '=' ∉ key ∧ key.length ≤ 40 ∧ IsSolid key := by
  have all : ∀ key ∈ kind.fields, '=' ∉ key ∧ key.length ≤ 40 ∧
      (key.all fun char => 33 ≤ char.toNat && char.toNat < 127) = true := by
    cases kind <;> decide
  exact fun key member => ⟨(all key member).1, (all key member).2.1,
    isSolid_of_all (all key member).2.2⟩

theorem Successful.status (successful : Successful run pin)
    (branch : completed.branch = "stg".toList) :
    Plain stateFields (statusEntries run (successfulEnd completed)) := by
  have keys : ((statusEntries run (successfulEnd completed)).map Prod.fst).Perm stateFields :=
    List.Perm.refl _
  exact ⟨keys, by decide, named_stateFields, by decide, by decide, plain_status successful branch⟩

theorem Successful.postPullReceipt (successful : Successful run pin)
    (branch : completed.branch = "stg".toList) :
    Plain postPullFields (postPullEntries run (successfulEnd completed)) := by
  have keys : ((postPullEntries run (successfulEnd completed)).map Prod.fst).Perm postPullFields :=
    List.Perm.refl _
  exact ⟨keys, by decide, Kind.named_fields .postPull, by decide, by decide,
    plain_postPull successful branch⟩

theorem Successful.executionReceipt (successful : Successful run pin)
    (branch : completed.branch = "stg".toList) :
    Plain executionFields (executionEntries run (successfulEnd completed) pin) := by
  have own : (Kind.execution.keys).Perm executionFields := by decide
  have keys : ((executionEntries run (successfulEnd completed) pin).map Prod.fst).Perm
      executionFields := own
  exact ⟨keys, by decide, Kind.named_fields .execution, by decide, by decide,
    plain_execution successful branch⟩

theorem putReceipt_files (entries : List Entry) :
    (station.putReceipt run kind entries).files =
      Function.update station.files (kind.file run.role) (some ⟨print entries, kind.time run⟩) :=
  Function.update_idem _ _ _

theorem safeName_role (known : role ∈ roles) : safeName role = role := by
  have all : ∀ role ∈ roles, safeName role = role := by decide
  exact all role known

theorem leftBy_files_status (known : run.role ∈ roles) :
    (leftBy run completed station).files (run.role ++ env) =
      some (statusFile run (successfulEnd completed)) := by
  have plain := (roles_plain run.role known).1
  rw [leftBy, putReceipt_files, Function.update_of_ne (file_ne_env plain run.role).symm,
    putReceipt_files, Function.update_of_ne (file_ne_env plain run.role).symm,
    ← (stateFile_eq_iff run.role run.role).mpr (safeName_role known)]
  exact Function.update_self _ _ _

theorem leftBy_files_last (known : run.role ∈ roles) :
    (leftBy run completed station).files lastFile =
      some (statusFile run (successfulEnd completed)) := by
  have other := lastFile_ne_env (roles_plain run.role known).2
  rw [← (stateFile_eq_iff run.role run.role).mpr (safeName_role known)] at other
  have apart : ∀ kind : Kind, lastFile ≠ kind.file run.role := fun kind => lastFile_ne_file kind _
  rw [leftBy, putReceipt_files, Function.update_of_ne (apart .execution), putReceipt_files,
    Function.update_of_ne (apart .postPull)]
  calc (loggedBy run (successfulEnd completed) station
          (statusFile run (successfulEnd completed))).files lastFile
      = (openedBy run (successfulEnd completed) station
          (statusFile run (successfulEnd completed))).files lastFile :=
        Function.update_of_ne other _ _
    _ = some (statusFile run (successfulEnd completed)) :=
        @Function.update_self _ _ _ lastFile _ station.files

theorem leftBy_files_execution (known : run.role ∈ roles) :
    (leftBy run completed station).files (run.role ++ Kind.execution.ending) =
      some ⟨print (executionEntries run (successfulEnd completed) completed.pin),
        run.executionTime⟩ := by
  have own : Kind.execution.file run.role = run.role ++ Kind.execution.ending :=
    file_eq_iff.mpr ⟨rfl, safeName_role known⟩
  rw [leftBy, putReceipt_files, own]
  exact Function.update_self _ _ _

theorem leftBy_files_postPull (known : run.role ∈ roles) :
    (leftBy run completed station).files (run.role ++ Kind.postPull.ending) =
      some ⟨print (postPullEntries run (successfulEnd completed)), run.postPullTime⟩ := by
  have own : Kind.postPull.file run.role = run.role ++ Kind.postPull.ending :=
    file_eq_iff.mpr ⟨rfl, safeName_role known⟩
  have other : run.role ++ Kind.postPull.ending ≠ Kind.execution.file run.role := fun same =>
    absurd (file_eq_iff.mp same.symm).1 (by decide)
  rw [leftBy, putReceipt_files, Function.update_of_ne other, putReceipt_files, own]
  exact Function.update_self _ _ _

end Left

/-! ## Times -/

/-- The times of a run, with a receipt that was written soon after its state. -/
structure Prompt (boot : Boot) (statusTime receiptTime : Rat) (recorded : Nat) : Prop where
  epochDouble : IsDouble boot.epoch
  statusDouble : IsDouble statusTime
  receiptDouble : IsDouble receiptTime
  started : boot.epoch ≤ statusTime
  order : statusTime ≤ receiptTime
  soon : receiptTime - statusTime ≤ 30
  past : receiptTime ≤ boot.now
  recordedSmall : recorded ≤ 2 ^ 53
  recordedStarted : boot.epoch - 2 ≤ recorded
  recordedPast : (recorded : Rat) ≤ boot.now + 2
  recordedNear : |(recorded : Rat) - receiptTime| ≤ 30
  recordedText : (timeText recorded).isSome = true

theorem Prompt.timesAgree {statusTime receiptTime : Rat} {recorded : Nat}
    (prompt : Prompt boot statusTime receiptTime recorded) :
    timesAgree boot statusTime receiptTime recorded = true := by
  have recordedDouble := isDouble_natCast prompt.recordedSmall
  have thirty : IsDouble 30 := @isDouble_natCast 30 (by norm_num)
  have started : minus boot.epoch 2 ≤ statusTime :=
    (minus_le prompt.epochDouble (by norm_num)).trans prompt.started
  have past : receiptTime ≤ nearest (boot.now + 2) := by
    have le : receiptTime ≤ boot.now + 2 := prompt.past.trans (by norm_num)
    exact prompt.receiptDouble.symm.trans_le (nearest_mono le)
  have recordedPast : (recorded : Rat) ≤ nearest (boot.now + 2) :=
    recordedDouble.symm.trans_le (nearest_mono prompt.recordedPast)
  have near : |minus (nearest recorded) receiptTime| ≤ 30 := by
    rw [recordedDouble]
    exact abs_minus_le thirty prompt.recordedNear
  simp only [AnsiblePull.timesAgree, Bool.and_eq_true, decide_eq_true_eq]
  exact ⟨⟨⟨⟨⟨⟨started, prompt.order⟩, past⟩, minus_le_of recordedDouble prompt.recordedStarted⟩,
    recordedPast⟩, near⟩, minus_le_of thirty prompt.soon⟩

theorem Prompt.recordedAt {statusTime receiptTime : Rat} {epoch : List Char}
    (prompt : Prompt boot statusTime receiptTime (digitsValue epoch))
    (digits : isEpoch epoch = true) (short : epoch.length ≤ 16) :
    ∃ text, recordedAt boot statusTime receiptTime epoch = .ok text := by
  obtain ⟨text, made⟩ := Option.isSome_iff_exists.mp prompt.recordedText
  refine ⟨text, ?_⟩
  rw [AnsiblePull.recordedAt, require_bind_eq_ok, require_bind_eq_ok, Bool.and_eq_true,
    decide_eq_true_eq, made]
  exact ⟨⟨digits, short⟩, prompt.timesAgree, rfl⟩

/-! ## Acceptance -/

section Acceptance

variable {pin : Pin} {completed : Completed}

/-- What both receipts of a run have in common. -/
structure Identifies (receipt : List Entry) (run : Run) : Prop where
  schema : value receipt "SCHEMA" = ['1']
  role : value receipt "ROLE" = run.role
  stage : value receipt "STAGE" = run.stage
  branch : value receipt "BRANCH" = "stg".toList
  bootId : value receipt "BOOT_ID" = run.bootId
  head : value receipt "CHECKOUT_HEAD_AFTER_SUCCESS" = run.headAfter

/-- The values of the state of a successful run. -/
structure Succeeded (status : List Entry) (run : Run) : Prop where
  role : value status "ROLE" = run.role
  stage : value status "STAGE" = run.stage
  branch : value status "BRANCH" = "stg".toList
  rc : value status "RC" = ['0']
  step : value status "STEP" = "complete".toList
  elapsed : isEpoch (value status "ELAPSED_SECS") = true

theorem Successful.succeeded (successful : Successful run pin)
    (branch : completed.branch = "stg".toList) :
    Succeeded (statusEntries run (successfulEnd completed)) run := by
  obtain ⟨seconds, elapsed, -⟩ := successful.elapsed
  have zero : natText 0 = ['0'] := by decide
  have stage : orUnknown run.stage = run.stage := orUnknown_of_isStaging successful.staging
  have digits : isEpoch (intText run.elapsed) = true := by
    rw [elapsed, isEpoch, Bool.and_eq_true, decide_eq_true_eq, List.all_eq_true]
    exact ⟨natText_ne_nil seconds, fun _ member => natText_isDigit member⟩
  have rc : value (statusEntries run (successfulEnd completed)) "RC" =
    natText (successfulEnd completed).rc := rfl
  exact ⟨rfl, stage, (congrArg orUnknown branch).trans rfl, rc.trans zero, rfl, digits⟩

theorem Successful.rolesAgree (successful : Successful run pin)
    (branch : completed.branch = "stg".toList) (same : boot.bootId = run.bootId)
    {receipt : List Entry} (identifies : Identifies receipt run) :
    rolesAgree run.role boot receipt (statusEntries run (successfulEnd completed)) = true := by
  have status := successful.succeeded branch
  have head : isHex 40 run.headAfter = true := successful.heads.2 ▸ successful.form.2.1
  simp only [AnsiblePull.rolesAgree, identifies.schema, identifies.role, identifies.stage,
    identifies.branch, identifies.bootId, identifies.head, status.role, status.stage,
    status.branch, status.rc, status.step, status.elapsed, successful.staging, head, same,
    decide_true, Bool.and_self]

theorem identifies_execution (branch : completed.branch = "stg".toList) :
    Identifies (executionEntries run (successfulEnd completed) pin) run :=
  ⟨rfl, rfl, rfl, branch, rfl, rfl⟩

theorem identifies_postPull (branch : completed.branch = "stg".toList) :
    Identifies (postPullEntries run (successfulEnd completed)) run :=
  ⟨rfl, rfl, rfl, branch, rfl, rfl⟩

theorem Successful.pinAgrees (successful : Successful run pin) :
    pinAgrees (executionEntries run (successfulEnd completed) pin) = true := by
  obtain ⟨-, revision, build, digest⟩ := successful.form
  simp only [AnsiblePull.pinAgrees, Bool.and_eq_true, decide_eq_true_eq]
  exact ⟨⟨⟨⟨rfl, build⟩, revision⟩, digest⟩, successful.heads.2.symm⟩

section Readers

variable {files : Directory} {receipt status : List Entry} {receiptTime statusTime : Rat}
  {text : List Char}

theorem readExecution_of
    (readReceipt : readEnv true executionFields (files (role ++ Kind.execution.ending)) =
      .ok (receipt, receiptTime))
    (readStatus : readEnv true stateFields (files (role ++ env)) = .ok (status, statusTime))
    (agree : rolesAgree role boot receipt status = true) (pinned : pinAgrees receipt = true)
    (recorded : recordedAt boot statusTime receiptTime (value receipt "RECORDED_AT_EPOCH") =
      .ok text) :
    readExecution files boot role = .ok ⟨value receipt "BUILD_ID", value receipt "PIN_REVISION",
      value receipt "DECLARATION_SHA256", text⟩ := by
  refine bind_eq_ok.mpr ⟨(receipt, receiptTime), readReceipt,
    bind_eq_ok.mpr ⟨(status, statusTime), ?_, require_bind_eq_ok.mpr ⟨?_,
      bind_eq_ok.mpr ⟨text, recorded, rfl⟩⟩⟩⟩
  · exact congrArg (Except.mapError ("role_state_" ++ ·)) readStatus
  · rw [agree, pinned]
    rfl

theorem readCheckout_of
    (readReceipt : readEnv false postPullFields (files (role ++ Kind.postPull.ending)) =
      .ok (receipt, receiptTime))
    (readStatus : readEnv false stateFields (files (role ++ env)) = .ok (status, statusTime))
    (agree : rolesAgree role boot receipt status = true)
    (recorded : recordedAt boot statusTime receiptTime (value receipt "RECORDED_AT_EPOCH") =
      .ok text) :
    readCheckout files boot role =
      .ok ⟨value receipt "CHECKOUT_HEAD_AFTER_SUCCESS", text⟩ := by
  refine bind_eq_ok.mpr ⟨(receipt, receiptTime), readReceipt,
    bind_eq_ok.mpr ⟨(status, statusTime), ?_, require_bind_eq_ok.mpr ⟨agree,
      bind_eq_ok.mpr ⟨text, recorded, rfl⟩⟩⟩⟩
  exact congrArg (Except.mapError ("role_state_" ++ ·)) readStatus

end Readers

theorem isPlainValue_of_isPlain {value : List Char} (plain : IsPlain value) :
    isPlainValue value = true := by
  have short := plain.short
  rw [isShort, Bool.and_eq_true, decide_eq_true_eq, decide_eq_true_eq] at short
  rw [isPlainValue, Bool.and_eq_true, decide_eq_true_eq, Bool.not_eq_true',
    List.contains_eq_mem, decide_eq_false_iff_not]
  exact ⟨fun null => absurd (plain.solid _ null).1 (by decide), short.2⟩

theorem pullState_statusFile (successful : Successful run pin)
    (branch : completed.branch = "stg".toList) {receiptTime : Rat} {recorded : Nat}
    (prompt : Prompt boot run.statusTime receiptTime recorded) :
    pullState boot (some (statusFile run (successfulEnd completed))) = .completed := by
  have plain := successful.status branch
  have started : ¬ run.statusTime < minus boot.epoch 2 :=
    not_lt.mpr ((minus_le prompt.epochDouble (by norm_num)).trans prompt.started)
  have past : ¬ nearest (boot.now + 2) < run.statusTime := by
    have le : run.statusTime ≤ boot.now + 2 :=
      (prompt.order.trans prompt.past).trans (by norm_num)
    exact not_lt.mpr (prompt.statusDouble.symm.trans_le (nearest_mono le))
  have accepted : read stateFields isPlainValue
      (print (statusEntries run (successfulEnd completed))) =
        some (statusEntries run (successfulEnd completed)) :=
    plain.read_print fun entry member => isPlainValue_of_isPlain (plain.values entry member)
  rw [pullState, statusFile]
  dsimp only
  rw [accepted, plain.ascii]
  simp only [not_lt.mpr plain.length_le, started, past, decide_false, Bool.or_false,
    Bool.false_eq_true, if_false]
  have status := successful.succeeded branch
  have digit : isEpoch ['0'] = true := by decide
  simp only [status.stage, status.branch, status.rc, status.step, status.elapsed,
    successful.staging, digit, ne_eq, not_true_eq_false, decide_false, Bool.not_true, Bool.or_self,
    Bool.false_eq_true, and_self, if_true, if_false]

/-- What a successful run leaves when nothing interrupts it. -/
theorem Successful.files (successful : Successful run pin) (station : Station) :
    ∃ completed, ((wrapper run).state station []).files = (leftBy run completed station).files ∧
      completed.branch = "stg".toList ∧ completed.pin = pin := by
  obtain ⟨completed, runs, branch, same⟩ := successful.runs_wrapper station
  exact ⟨completed, congrArg Station.files runs.state_eq, branch, same⟩

theorem Successful.readExecution (successful : Successful run pin) (station : Station)
    (same : boot.bootId = run.bootId)
    (prompt : Prompt boot run.statusTime run.executionTime (digitsValue run.executionEpoch)) :
    ∃ text, readExecution ((wrapper run).state station []).files boot run.role =
      .ok ⟨pin.buildId, pin.revision, pin.digest, text⟩ := by
  obtain ⟨completed, left, branch, rfl⟩ := successful.files station
  obtain ⟨text, recorded⟩ := prompt.recordedAt successful.execution.1 successful.execution.2
  refine ⟨text, readExecution_of ?_ ?_ (successful.rolesAgree branch same
    (identifies_execution branch)) successful.pinAgrees recorded⟩
  · rw [left, leftBy_files_execution successful.known, (successful.executionReceipt branch).readEnv]
  · rw [left, leftBy_files_status successful.known, statusFile, (successful.status branch).readEnv]

theorem Successful.readCheckout (successful : Successful run pin) (station : Station)
    (same : boot.bootId = run.bootId)
    (prompt : Prompt boot run.statusTime run.postPullTime (digitsValue run.postPullEpoch)) :
    ∃ text, readCheckout ((wrapper run).state station []).files boot run.role =
      .ok ⟨pin.revision, text⟩ := by
  obtain ⟨completed, left, branch, rfl⟩ := successful.files station
  obtain ⟨text, recorded⟩ := prompt.recordedAt successful.postPull.1 successful.postPull.2
  rw [← successful.heads.2]
  refine ⟨text, readCheckout_of ?_ ?_ (successful.rolesAgree branch same
    (identifies_postPull branch)) recorded⟩
  · rw [left, leftBy_files_postPull successful.known, (successful.postPullReceipt branch).readEnv]
  · rw [left, leftBy_files_status successful.known, statusFile, (successful.status branch).readEnv]

theorem Successful.pullState (successful : Successful run pin) (station : Station)
    {receiptTime : Rat} {recorded : Nat}
    (prompt : Prompt boot run.statusTime receiptTime recorded) :
    pullState boot (((wrapper run).state station []).files lastFile) = .completed := by
  obtain ⟨completed, left, branch, rfl⟩ := successful.files station
  rw [left, leftBy_files_last successful.known]
  exact pullState_statusFile successful branch prompt

/-- **A successful run is accepted by all three readers.** -/
theorem successful_accepted (run : Run) (pin : Pin) (successful : Successful run pin)
    (station : Station) (readings : Readings) (boot : Boot) (isBoot : IsBootOf readings boot)
    (same : boot.bootId = run.bootId)
    (execution : Prompt boot run.statusTime run.executionTime (digitsValue run.executionEpoch))
    (postPull : Prompt boot run.statusTime run.postPullTime (digitsValue run.postPullEpoch)) :
    let files := ((wrapper run).state station []).files
    (∃ reports text, snapshot readings (AnsiblePull.readExecution files) = .ok reports ∧
      (run.role, .ok ⟨pin.buildId, pin.revision, pin.digest, text⟩) ∈ reports) ∧
    (∃ reports text, snapshot readings (AnsiblePull.readCheckout files) = .ok reports ∧
      (run.role, .ok ⟨pin.revision, text⟩) ∈ reports) ∧
    AnsiblePull.pullState boot (files lastFile) = .completed := by
  obtain ⟨text, accepted⟩ := successful.readExecution station same execution
  obtain ⟨other, acceptedCheckout⟩ := successful.readCheckout station same postPull
  refine ⟨⟨_, text, snapshot_eq_ok.mpr ⟨boot, isBoot, rfl⟩, ?_⟩,
    ⟨_, other, snapshot_eq_ok.mpr ⟨boot, isBoot, rfl⟩, ?_⟩,
    successful.pullState station execution⟩
  · exact List.mem_map.mpr ⟨run.role, successful.known, by rw [accepted]⟩
  · exact List.mem_map.mpr ⟨run.role, successful.known, by rw [acceptedCheckout]⟩

end Acceptance

/-! ## A run of a node -/

def samplePin : Pin :=
  ⟨"pinned".toList, List.replicate 40 'a', "b".toList, List.replicate 64 'c'⟩

def sampleBootId : List Char :=
  "00000000-0000-0000-0000-000000000000".toList

/-- The line of the pin. -/
def sampleOutput : List Char :=
  "pinned ".toList ++ List.replicate 40 'a' ++ " b ".toList ++ List.replicate 64 'c'

def sampleRun : Run where
  role := "base".toList
  roles := "base,k3s_stg_agent".toList
  stage := "stg".toList
  branch := []
  allowedBranches := []
  sourceMode := "pinned".toList
  failureCode := 1
  failureCode_pos := Nat.one_pos
  pinOutput := some (sampleOutput ++ ['\n'])
  prepared := false
  installed := false
  hasCheckout := true
  hasOldGalaxyRole := false
  fetchedClean := true
  installedClean := true
  galaxyIsCurrent := true
  headBefore := List.replicate 40 'a' ++ ['\n']
  elapsed := 4
  statusTime := 11
  headAfter := List.replicate 40 'a'
  headAfter_line := by decide
  checkoutAfter := true
  cleanAfter := true
  pinOutputAfter := sampleOutput ++ ['\n']
  bootId := sampleBootId
  bootId_line := by decide
  postPullEpoch := "11".toList
  postPullTime := 12
  executionEpoch := "12".toList
  executionTime := 13

theorem successful_sampleRun : Successful sampleRun samplePin where
  known := by decide
  selected := Or.inr ⟨[], ",k3s_stg_agent,".toList.drop 1, rfl⟩
  staging := by decide
  branch := Or.inl rfl
  allowed := by decide
  pinned := by decide
  printed := ⟨sampleOutput ++ ['\n'], rfl, by decide, rfl⟩
  clean := ⟨rfl, rfl, rfl, rfl⟩
  checkout := rfl
  heads := by decide
  bootId := by decide
  postPull := by decide
  execution := by decide
  elapsed := ⟨4, rfl, by decide⟩

def sampleReadings : Readings :=
  ⟨some sampleBootId, some sampleBootId, some 15, 20⟩

def sampleBoot : Boot :=
  ⟨sampleBootId, minus 20 15, 20⟩

theorem isBootOf_sampleReadings : IsBootOf sampleReadings sampleBoot where
  first := rfl
  second := rfl
  isBootId := by decide
  epoch := ⟨15, rfl, by norm_num, by norm_num, by norm_num [sampleReadings], rfl⟩
  now := rfl
  text := by decide +kernel

theorem sampleBoot_epoch : sampleBoot.epoch = 5 := by
  have five : IsDouble 5 := @isDouble_natCast 5 (by norm_num)
  have difference : (20 : Rat) - 15 = 5 := by norm_num
  rw [sampleBoot, minus, if_pos (by norm_num), difference]
  exact five

theorem prompt_sampleRun {receiptTime recorded : Nat} (late : 11 ≤ receiptTime)
    (past : receiptTime ≤ 20) (earlier : recorded ≤ receiptTime) (near : receiptTime ≤ recorded + 1)
    (text : (timeText recorded).isSome = true) :
    Prompt sampleBoot sampleRun.statusTime receiptTime recorded := by
  have lateRat : (11 : Rat) ≤ receiptTime := by exact_mod_cast late
  have pastRat : (receiptTime : Rat) ≤ 20 := by exact_mod_cast past
  have earlierRat : (recorded : Rat) ≤ receiptTime := by exact_mod_cast earlier
  have nearRat : (receiptTime : Rat) ≤ recorded + 1 := by exact_mod_cast near
  have status : sampleRun.statusTime = 11 := rfl
  have now : sampleBoot.now = 20 := rfl
  refine ⟨sampleBoot_epoch ▸ @isDouble_natCast 5 (by norm_num),
    @isDouble_natCast 11 (by norm_num), isDouble_natCast (by omega), ?_, ?_, ?_, ?_, by omega, ?_,
    ?_, ?_, text⟩
  · rw [sampleBoot_epoch, status]
    norm_num
  · exact lateRat
  · rw [status]
    linarith
  · exact pastRat
  · rw [sampleBoot_epoch]
    linarith
  · rw [now]
    linarith
  · exact abs_le.mpr ⟨by linarith, by linarith⟩

theorem successful_accepted_sampleRun :
    let files := ((wrapper sampleRun).state booted []).files
    (∃ reports text, snapshot sampleReadings (readExecution files) = .ok reports ∧
      ("base".toList, .ok ⟨samplePin.buildId, samplePin.revision, samplePin.digest, text⟩) ∈
        reports) ∧
    (∃ reports text, snapshot sampleReadings (readCheckout files) = .ok reports ∧
      ("base".toList, .ok ⟨samplePin.revision, text⟩) ∈ reports) ∧
    pullState sampleBoot (files lastFile) = .completed :=
  successful_accepted sampleRun samplePin successful_sampleRun booted sampleReadings sampleBoot
    isBootOf_sampleReadings rfl
    (@prompt_sampleRun 13 12 (by decide) (by decide) (by decide) (by decide) (by decide +kernel))
    (@prompt_sampleRun 12 11 (by decide) (by decide) (by decide) (by decide) (by decide +kernel))

end HomeclusterInfra.AnsiblePull
