import HomeclusterInfra.AnsiblePull.LastRun
import HomeclusterInfra.Library.Formats
import HomeclusterInfra.PxeReceipt.Reader

/-!
# The pin of a declaration

A pinned node carries the declaration of the source it was built from, and the wrapper asks
`pxe-source-pin.py` for the pin in this file. What the readers report of a pinned success is what
the file of the last run declares. If the producer of receipts accepted that file for a build and
a revision, they are the reported ones.

A regular file is read in one piece. A character of the printed line stands for a byte.
-/

set_option autoImplicit false

namespace HomeclusterInfra.AnsiblePull

open Text Shell PxeReceipt

/-! ## `pxe-source-pin.py` -/

/-- What is found at `SOURCE_PATH`. -/
inductive SourceFile where
  | absent
  /-- A link, a file of another type, or one that cannot be read. -/
  | refused
  | regular (content : List UInt8)

/-- What `resolve` answers. -/
inductive Resolved where
  | legacy
  | pinned (declared : PxeReceipt.Pin)

/-- `_KNOWN_STAGES` -/
def knownStages : List (List Char) :=
  ["stg", "staging", "prod", "prd", "production"].map String.toList

section Tool

variable (sha256 : List UInt8 → List Char) (mode stage : List Char) (file : SourceFile)

/-- `resolve`. A legacy node must not have a declaration. -/
def resolve : Option Resolved :=
  if mode ≠ "legacy".toList && mode ≠ "pinned".toList then none
  else if !knownStages.contains stage then none
  else if mode = "legacy".toList then
    match file with
    | .absent => some .legacy
    | .refused | .regular _ => none
  else if !isStaging stage then none
  else
    match file with
    | .absent | .refused => none
    | .regular content => (decodeDeclaration sha256 (content.take 4097) stage).map .pinned

/-- The four words of a pin. -/
def wordsOf (declared : PxeReceipt.Pin) : List (List Char) :=
  [declared.mode.toList, declared.infraRevision, declared.buildId, declared.declarationSha256]

/-- The line that `main` prints. -/
def Resolved.line : Resolved → List Char
  | .legacy => "legacy - - -".toList ++ ['\n']
  | .pinned declared => [' '].intercalate (wordsOf declared) ++ ['\n']

/-- The output of `pxe-source-pin.py`, unless it fails. -/
def sourcePin : Option (List Char) :=
  (resolve sha256 mode stage file).map Resolved.line

/-- The pin of a run is that of a file. -/
def Run.PinnedBy (run : Run) : Prop :=
  run.pinOutput = sourcePin sha256 run.sourceMode run.stage file

end Tool

section Reading

variable {sha256 : List UInt8 → List Char} {mode stage output : List Char} {file : SourceFile}
  {content : List UInt8} {declared : PxeReceipt.Pin}

/-! ## The wrapper reads what is printed -/

/-- The form of a pin that was decoded. -/
theorem form_of_decoded (hexadecimal : Hexadecimal sha256)
    (decoded : decodeDeclaration sha256 content stage = some declared) :
    declared.mode.toList = "pinned".toList ∧ isHex 40 declared.infraRevision = true ∧
      isBuildId declared.buildId = true ∧ isHex 64 declared.declarationSha256 = true := by
  obtain ⟨-, -, -, -, -, build, revision, -, same⟩ := decodeDeclaration_eq_some decoded
  refine ⟨by rw [same], revision, build, ?_⟩
  rw [same]
  exact hexadecimal content

theorem IsPlain.ne_nil {text : List Char} (plain : IsPlain text) : text ≠ [] := by
  have short := plain.short
  rw [isShort, Bool.and_eq_true, decide_eq_true_eq] at short
  exact short.1

/-- The words of a pin that was decoded have no blanks in them. -/
theorem wordsOf_solid (hexadecimal : Hexadecimal sha256)
    (decoded : decodeDeclaration sha256 content stage = some declared) :
    ∀ word ∈ wordsOf declared, IsSolid word ∧ word ≠ [] := by
  obtain ⟨mode, revision, build, digest⟩ := form_of_decoded hexadecimal decoded
  have plainRevision := isPlain_of_isHex revision (by decide) (by decide)
  have plainDigest := isPlain_of_isHex digest (by decide) (by decide)
  have plainBuild := isPlain_of_isBuildId build
  rw [wordsOf, mode]
  simp only [List.forall_mem_cons]
  exact ⟨⟨isSolid_of_all (by decide), by decide⟩, ⟨plainRevision.solid, plainRevision.ne_nil⟩,
    ⟨plainBuild.solid, plainBuild.ne_nil⟩, ⟨plainDigest.solid, plainDigest.ne_nil⟩,
    fun _ member => absurd member List.not_mem_nil⟩

/-- The line of a pin is captured without the newline at its end. -/
theorem captured_pinned (solid : ∀ word ∈ wordsOf declared, IsSolid word ∧ word ≠ []) :
    captured (Resolved.pinned declared).line = [' '].intercalate (wordsOf declared) ∧
      '\n' ∉ captured (Resolved.pinned declared).line := by
  have missing : ∀ mark : Char, mark ≠ ' ' → mark.toNat < 33 →
      mark ∉ [' '].intercalate (wordsOf declared) := fun mark other low =>
    Formats.notMem_intercalate other fun word among inside =>
      absurd ((solid word among).1 mark inside).1 (not_le.mpr low)
  have newline := missing '\n' (by decide) (by decide)
  have line : captured (Resolved.pinned declared).line =
      [' '].intercalate (wordsOf declared) :=
    (captured_line _).trans (captured_eq_self (missing '\x00' (by decide) (by decide)) newline)
  exact ⟨line, line ▸ newline⟩

/-- The words of the line are those that were printed. -/
theorem words_of_line (solid : ∀ word ∈ wordsOf declared, IsSolid word ∧ word ≠ []) :
    (([' '].intercalate (wordsOf declared)).splitOn ' ').filter (· ≠ []) = wordsOf declared := by
  have pieces : ([' '].intercalate (wordsOf declared)).splitOn ' ' = wordsOf declared :=
    List.splitOn_intercalate ' '
      (fun word among inside => absurd ((solid word among).1 ' ' inside).1 (by decide))
      (List.cons_ne_nil _ _)
  rw [pieces, List.filter_eq_self]
  exact fun word among => decide_eq_true (solid word among).2

/-- **The wrapper reads the pin that was decoded.** -/
theorem readPin_line (hexadecimal : Hexadecimal sha256)
    (decoded : decodeDeclaration sha256 content stage = some declared) :
    readPin "pinned".toList (captured (Resolved.pinned declared).line) =
      some ⟨"pinned".toList, declared.infraRevision, declared.buildId,
        declared.declarationSha256⟩ := by
  have solid := wordsOf_solid hexadecimal decoded
  obtain ⟨line, newline⟩ := captured_pinned solid
  obtain ⟨mode, revision, build, digest⟩ := form_of_decoded hexadecimal decoded
  have other : ("pinned".toList : List Char) ≠ "legacy".toList := by decide
  rw [readPin, if_neg newline, line, words_of_line solid]
  simp only [wordsOf, mode, List.length_cons, List.length_nil, List.getD_cons_zero,
    List.getD_cons_succ, build, revision, digest, other, ne_eq, not_true_eq_false, decide_false,
    Nat.reduceAdd, lt_self_iff_false, Bool.or_self, Bool.and_self, Bool.false_eq_true, if_false,
    if_true]

/-- What a pinned node prints was decoded from its file. -/
theorem sourcePin_pinned (pinned : mode = "pinned".toList)
    (printed : sourcePin sha256 mode stage file = some output) :
    ∃ content declared, file = .regular content ∧
      decodeDeclaration sha256 content stage = some declared ∧
        output = (Resolved.pinned declared).line := by
  have other : ("pinned".toList : List Char) ≠ "legacy".toList := by decide
  obtain ⟨resolved, answer, rfl⟩ := Option.map_eq_some_iff.mp printed
  simp only [resolve, pinned, other, ne_eq, not_true_eq_false, not_false_eq_true, decide_true,
    decide_false, Bool.and_false, Bool.false_eq_true, if_false,
    Option.ite_none_left_eq_some] at answer
  obtain ⟨-, -, answer⟩ := answer
  cases file with
  | absent => cases answer
  | refused => cases answer
  | regular content =>
      obtain ⟨declared, decoded, rfl⟩ := Option.map_eq_some_iff.mp answer
      obtain ⟨-, -, -, -, -, -, -, size, -⟩ := decodeDeclaration_eq_some decoded
      rw [List.length_take] at size
      rw [List.take_of_length_le (by omega)] at decoded
      exact ⟨content, declared, rfl, decoded, rfl⟩

/-- The pin that a pinned run has read is that of its file. -/
theorem decoded_of_readPin (hexadecimal : Hexadecimal sha256) (pinned : mode = "pinned".toList)
    (printed : sourcePin sha256 mode stage file = some output) {pin : Pin}
    (taken : readPin mode (captured output) = some pin) :
    ∃ content, file = .regular content ∧ decodeDeclaration sha256 content stage =
      some ⟨"pinned", pin.revision, pin.buildId, pin.digest⟩ := by
  obtain ⟨content, declared, rfl, decoded, rfl⟩ := sourcePin_pinned pinned printed
  obtain ⟨-, -, -, -, -, -, -, -, same⟩ := decodeDeclaration_eq_some decoded
  rw [pinned, readPin_line hexadecimal decoded] at taken
  refine ⟨content, rfl, decoded.trans (congrArg some ?_)⟩
  rw [← Option.some.inj taken, same]

end Reading

/-! ## A node with a declaration -/

/-- What the sample declares. -/
def sampleDeclared : PxeReceipt.Pin :=
  ⟨"pinned", sampleRevision, "20260701-a".toList, sampleDigest (utf8Bytes sampleDeclaration)⟩

def declaredPin : Pin :=
  ⟨"pinned".toList, sampleRevision, "20260701-a".toList,
    sampleDigest (utf8Bytes sampleDeclaration)⟩

/-- The run of a node that carries the sample. -/
def declaredRun : Run :=
  { sampleRun with
    pinOutput := some (Resolved.pinned sampleDeclared).line
    pinOutputAfter := (Resolved.pinned sampleDeclared).line
    headBefore := sampleRevision ++ ['\n']
    headAfter := sampleRevision
    headAfter_line := by decide }

theorem hexadecimal_sampleDigest : Hexadecimal sampleDigest := by
  intro raw
  rw [sampleDigest]
  split
  next => decide
  next => decide

theorem decoded_sample : decodeDeclaration sampleDigest (utf8Bytes sampleDeclaration) "stg".toList =
    some sampleDeclared := by
  obtain ⟨value, load, declares⟩ := sample_read
  exact decodeDeclaration_of_declares (by decide +kernel) (.inl rfl) (utf8Decode_utf8Bytes _) load
    declares (by decide) (by decide)

theorem pinnedBy_declaredRun :
    declaredRun.PinnedBy sampleDigest (.regular (utf8Bytes sampleDeclaration)) := by
  have size : (utf8Bytes sampleDeclaration).take 4097 = utf8Bytes sampleDeclaration :=
    List.take_of_length_le (by decide +kernel)
  have answer : resolve sampleDigest "pinned".toList "stg".toList
      (.regular (utf8Bytes sampleDeclaration)) =
        (decodeDeclaration sampleDigest ((utf8Bytes sampleDeclaration).take 4097)
          "stg".toList).map .pinned := rfl
  rw [size, decoded_sample] at answer
  exact (congrArg (Option.map Resolved.line) answer).symm

theorem successful_declaredRun : Successful declaredRun declaredPin :=
  { successful_sampleRun with
    printed := ⟨_, rfl, readPin_line hexadecimal_sampleDigest decoded_sample, rfl⟩
    heads := by decide }

theorem ordered_declaredEvents : Ordered (eventsOf declaredRun) :=
  ordered_eventsOf (show (8 : Rat) < 11 by norm_num)

theorem sourced_declaredEvents : ∀ run faults, Event.run run faults ∈ eventsOf declaredRun →
    ∃ file, run.PinnedBy sampleDigest file := by
  intro run faults among
  simp only [eventsOf, earlierEvents, List.cons_append, List.nil_append, List.mem_cons,
    List.not_mem_nil, or_false, Event.run.injEq, reduceCtorEq, false_or] at among
  rcases among with ⟨rfl, -⟩ | ⟨rfl, -⟩ | ⟨rfl, -⟩
  · exact ⟨_, pinnedBy_declaredRun⟩
  · exact ⟨_, pinnedBy_declaredRun⟩
  · exact ⟨_, pinnedBy_declaredRun⟩

/-! ## What is reported was declared -/

theorem mem_of_lastOf {role : List Char} {station : Station} {entry : Run × Outcome}
    (last : lastOf role station = some entry) : entry ∈ station.logged :=
  List.mem_of_mem_filter (List.mem_of_getLast? last)

/-- The runs since the last boot are among all events. -/
theorem mem_of_sinceBoot {events : List Event} {run : Run} (member : run ∈ sinceBoot events) :
    ∃ faults, Event.run run faults ∈ events := by
  induction events using List.reverseRecOn with
  | nil => cases member
  | append_singleton events event ih =>
      rw [sinceBoot_concat] at member
      cases event with
      | boot => cases member
      | run given faults =>
          rcases List.mem_append.mp member with before | last
          · obtain ⟨faults, among⟩ := ih before
            exact ⟨faults, List.mem_append_left _ among⟩
          · rw [List.mem_singleton.mp last]
            exact ⟨faults, List.mem_append_right _ List.mem_cons_self⟩

/-- **A pinned success that is reported is what the file of the last run declares.** If the
producer accepted this file, it is what the file was accepted for. -/
theorem execution_declared (sha256 : List UInt8 → List Char) (hexadecimal : Hexadecimal sha256)
    (events : List Event) (ordered : Ordered events)
    (sourced : ∀ run faults, Event.run run faults ∈ events → ∃ file, run.PinnedBy sha256 file)
    (readings : Readings) (reports : List (List Char × Except String ExecutionReport))
    (taken : snapshot readings (readExecution (afterAll booted events).files) = .ok reports)
    (role : List Char) (report : ExecutionReport) (among : (role, .ok report) ∈ reports) :
    ∃ run completed content, lastOf role (afterAll booted events) =
        some (run, ⟨0, "complete", completed.branch, some completed⟩) ∧
      run.PinnedBy sha256 (.regular content) ∧
      decodeDeclaration sha256 content run.stage =
        some ⟨"pinned", report.pinRevision, report.buildId, report.declarationSha256⟩ ∧
      ∀ buildId revision digest, declaration sha256 content buildId revision = some digest →
        report.buildId = buildId ∧ report.pinRevision = revision ∧
          report.declarationSha256 = digest := by
  obtain ⟨boot, isBoot, known, accepted⟩ := reported_of_snapshot taken among
  obtain ⟨run, completed, last, -, pinned, -, -, verified, -, -, build, revision, digest⟩ :=
    lastRun_of_readExecution ordered isBoot known accepted
  obtain ⟨faults, ran⟩ := mem_of_sinceBoot (logged_subset events _ (mem_of_lastOf last))
  obtain ⟨file, pinnedBy⟩ := sourced run faults ran
  obtain ⟨output, printed, -, read⟩ := verified.pin
  obtain ⟨content, rfl, decoded⟩ := decoded_of_readPin hexadecimal (of_decide_eq_true pinned)
    (pinnedBy.symm.trans printed) read
  rw [← build, ← revision, ← digest] at decoded
  refine ⟨run, completed, content, last, pinnedBy, decoded, fun _ _ _ certified => ?_⟩
  have same := pin_of_declaration decoded certified
  exact ⟨congrArg PxeReceipt.Pin.buildId same, congrArg PxeReceipt.Pin.infraRevision same,
    congrArg PxeReceipt.Pin.declarationSha256 same⟩

theorem execution_declared_sample :
    ∃ run completed content, lastOf "base".toList (afterAll booted (eventsOf declaredRun)) =
        some (run, ⟨0, "complete", completed.branch, some completed⟩) ∧
      decodeDeclaration sampleDigest content run.stage = some sampleDeclared := by
  obtain ⟨text, accepted⟩ := successful_declaredRun.readExecution
    (afterAll booted (earlierEvents declaredRun))
    (show sampleBoot.bootId = declaredRun.bootId from rfl)
    (@prompt_sampleRun 13 12 (by decide) (by decide) (by decide) (by decide) (by decide +kernel))
  have among := List.mem_map_of_mem (f := fun role =>
    (role, readExecution (afterAll booted (eventsOf declaredRun)).files sampleBoot role))
      successful_declaredRun.known
  obtain ⟨run, completed, content, last, -, decoded, -⟩ :=
    execution_declared sampleDigest hexadecimal_sampleDigest (eventsOf declaredRun)
      ordered_declaredEvents sourced_declaredEvents sampleReadings _
      (snapshot_eq_ok.mpr ⟨sampleBoot, isBootOf_sampleReadings, rfl⟩) "base".toList _
      (accepted ▸ among)
  exact ⟨run, completed, content, last, decoded⟩

/-- **A successful run of a node whose file the producer accepted is reported with the build, the
revision and the digest of the acceptance.** -/
theorem certified_reported (sha256 : List UInt8 → List Char) (hexadecimal : Hexadecimal sha256)
    (content : List UInt8) (buildId revision digest : List Char)
    (certified : declaration sha256 content buildId revision = some digest) (run : Run) (pin : Pin)
    (successful : Successful run pin) (pinnedBy : run.PinnedBy sha256 (.regular content))
    (station : Station) (readings : Readings) (boot : Boot) (isBoot : IsBootOf readings boot)
    (same : boot.bootId = run.bootId)
    (execution : Prompt boot run.statusTime run.executionTime (digitsValue run.executionEpoch)) :
    ∃ reports text, snapshot readings (readExecution ((wrapper run).state station []).files) =
        .ok reports ∧
      (run.role, .ok ⟨buildId, revision, digest, text⟩) ∈ reports := by
  obtain ⟨output, printed, read, -⟩ := successful.printed
  obtain ⟨found, regular, decoded⟩ := decoded_of_readPin hexadecimal
    (of_decide_eq_true successful.pinned) (pinnedBy.symm.trans printed) read
  cases regular
  obtain ⟨-, rfl, rfl, rfl⟩ := PxeReceipt.Pin.mk.inj (pin_of_declaration decoded certified)
  obtain ⟨text, accepted⟩ := successful.readExecution station same execution
  refine ⟨_, text, snapshot_eq_ok.mpr ⟨boot, isBoot, rfl⟩, ?_⟩
  exact List.mem_map.mpr ⟨run.role, successful.known, by rw [accepted]⟩

theorem certified_reported_sample :
    ∃ reports text, snapshot sampleReadings
        (readExecution ((wrapper declaredRun).state booted []).files) = .ok reports ∧
      ("base".toList, .ok ⟨"20260701-a".toList, sampleRevision,
        sampleDigest (utf8Bytes sampleDeclaration), text⟩) ∈ reports :=
  certified_reported sampleDigest hexadecimal_sampleDigest (utf8Bytes sampleDeclaration)
    "20260701-a".toList sampleRevision _ sample_accepted declaredRun declaredPin
    successful_declaredRun pinnedBy_declaredRun booted sampleReadings sampleBoot
    isBootOf_sampleReadings rfl
    (@prompt_sampleRun 13 12 (by decide) (by decide) (by decide) (by decide) (by decide +kernel))

end HomeclusterInfra.AnsiblePull
