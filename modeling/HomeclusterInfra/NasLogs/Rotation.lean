import HomeclusterInfra.NasLogs.Accounting
import HomeclusterInfra.NasLogs.LogFiles

/-!
# Reading across rotations

A poll takes the cursors of an earlier one and reads what was written since.
What it reads is always a stretch of the log that ends at the new cursor. It
begins at the old cursor exactly when the file that the code recognises as the
cursor's begins where the cursor's file began. The identity and the digest of
the text before the cursor do not decide that: an empty text is the beginning
of every file, and a file truncated in place keeps its identity.
-/

set_option autoImplicit false

namespace HomeclusterInfra.NasLogs

open Text Checked Pieces SegmentedLog LogFiles

variable (digest : List UInt8 → String)

/-! ## What is read of the files of a kind -/

section Reading

variable (state : State) (snapshot : Snapshot) (kind : Kind)

/-- The records of a kind that are read, put together. -/
def readText : List UInt8 :=
  (kindRecords digest state snapshot kind).flatMap Handled.raw

/-- The records of one file, put together, and what the reading leaves of it. -/
theorem fileRecords_append_drop (cursor : Cursor) (gen : Gen) (file : LogFile) (offset : Nat) :
    (fileRecords kind (some cursor) (gen, file, offset)).1.flatten ++
      (if gen = .current then
        file.data.drop (fileRecords kind (some cursor) (gen, file, offset)).2 else []) =
      file.data.drop offset := by
  by_cases current : gen = .current
  · rw [if_pos current]
    exact (reads_completedRecords file.data offset kind cursor.sizeSeen _).text_append_drop
  · rw [if_neg current, List.append_nil]
    have rotated : decide (gen ≠ .current) = true := decide_eq_true current
    simp only [fileRecords, rotated]
    exact text_completedRecords_rotated file.data offset kind cursor.sizeSeen

/-- **What is read of a kind, and what is left of its current file, are the
files to read from their offsets on.** -/
theorem readText_append_drop {cursor : Cursor} (resumed : state.cursors kind = some cursor) :
    readText digest state snapshot kind ++
        (snapshot.current kind).data.drop (currentStop digest state snapshot kind) =
      (work digest snapshot kind (some cursor)).2.flatMap fun item =>
        item.2.1.data.drop item.2.2 := by
  obtain ⟨older, offset, items, others, -⟩ := work_last digest snapshot kind (some cursor)
  have whole : readText digest state snapshot kind =
      (work digest snapshot kind (some cursor)).2.flatMap fun item =>
        (fileRecords kind (some cursor) item).1.flatten := by
    rw [readText, kindRecords, resumed, List.flatMap_assoc]
    refine List.flatMap_congr fun item _ => ?_
    rw [itemRecords, List.flatMap_map, List.flatMap_id']
  have rotated : older.flatMap (fun item => (fileRecords kind (some cursor) item).1.flatten) =
      older.flatMap fun item => item.2.1.data.drop item.2.2 := by
    refine List.flatMap_congr fun item member => ?_
    have file := fileRecords_append_drop kind cursor item.1 item.2.1 item.2.2
    rwa [if_neg (others item member), List.append_nil] at file
  have current := fileRecords_append_drop kind cursor .current (snapshot.current kind) offset
  rw [if_pos rfl] at current
  rw [whole, currentStop, resumed, items, List.flatMap_append, List.flatMap_append, rotated,
    List.append_assoc]
  simpa using current

/-- The reading stops inside the current file. -/
theorem currentStop_le :
    currentStop digest state snapshot kind ≤ (snapshot.current kind).data.length := by
  obtain ⟨older, offset, items, -, inside⟩ :=
    work_last digest snapshot kind (state.cursors kind)
  rw [currentStop, items]
  simp only [List.getLast?_append, List.getLast?_singleton, Option.some_or, Option.map_some,
    Option.getD_some]
  exact (reads_completedRecords _ offset kind _ _).stop_le inside

end Reading

/-! ## Two polls -/

/-- Two polls, any history of the files of a kind between them, and the cursor
of the kind that the first commits and the second takes up. -/
structure Resumption [UnicodeData] (kind : Kind) where
  first : Poll digest
  second : Poll digest
  before : LogFiles kind
  after : LogFiles kind
  history : History before after
  shownBefore : Shows before first.snapshot
  shownAfter : Shows after second.snapshot
  cursor : Cursor
  committed : first.outbox.next.cursors kind = some cursor
  resumed : second.state.cursors kind = some cursor

/-- The code recognises the file of a cursor as one that begins where the log
had reached when the cursor's file was begun: the file with the identity and the
prefix of the cursor, or when there is none the oldest with the prefix. -/
structure Recognised {kind : Kind} (files : LogFiles kind) (cursor : Cursor) (start : Nat) :
    Prop where
  byIdentity : ∀ stored ∈ files.all, stored.id = cursor.id →
    matchesPrefix digest stored.file cursor = true → stored.start = start
  byPrefix : (∀ stored ∈ files.all, stored.id = cursor.id →
      matchesPrefix digest stored.file cursor = false) →
    ∀ stored, files.all.find? (fun other => matchesPrefix digest other.file cursor) = some stored →
      stored.start = start

/-- The cursor of a kind fits none of the generations in the snapshot. -/
def Unmatched (state : State) (snapshot : Snapshot) (kind : Kind) : Prop :=
  ∃ cursor, state.cursors kind = some cursor ∧
    ∀ item ∈ chronological snapshot kind, matchesPrefix digest item.2 cursor = false

theorem isGap_iff (state : State) (snapshot : Snapshot) (kind : Kind) :
    isGap digest state snapshot kind = true ↔ Unmatched digest state snapshot kind := by
  unfold isGap Unmatched
  cases previous : state.cursors kind with
  | none => simp [work]
  | some cursor =>
      rcases work_some digest snapshot kind cursor with
        ⟨gap, unmatched⟩ | ⟨older, item, newer, whole, resumes, reading⟩
      · rw [gap]
        exact iff_of_true rfl ⟨cursor, rfl, unmatched⟩
      · rw [reading]
        refine iff_of_false (by simp) ?_
        rintro ⟨other, same, unmatched⟩
        obtain rfl := Option.some.inj same
        have here := unmatched item (by simp [whole])
        rw [resumes.prefixed] at here
        cases here

theorem map_chronological {kind : Kind} {files : LogFiles kind} {snapshot : Snapshot}
    (shown : Shows files snapshot) :
    (chronological snapshot kind).map Prod.snd = files.all.map Stored.file := by
  have rotated : kind.rotatedGens.filterMap (snapshot.file kind) =
      files.rotated.map Stored.file := by
    calc kind.rotatedGens.filterMap (snapshot.file kind)
        = (kind.rotatedGens.map (snapshot.file kind)).filterMap id := by
          rw [List.filterMap_map, Function.id_comp]
      _ = files.rotated.map Stored.file := by
          rw [shown.rotated, List.filterMap_append, List.filterMap_map]
          simp
  rw [chronological_eq, List.map_append, LogFiles.all, List.map_append, List.map_singleton,
    List.map_singleton, shown.current, rotatedFiles, List.map_filterMap, List.filterMap_reverse,
    List.map_reverse, ← rotated]
  congr 2
  refine List.filterMap_congr fun gen _ => ?_
  cases snapshot.file kind gen <;> rfl

namespace Resumption

variable {digest} [UnicodeData] {kind : Kind} (run : Resumption digest kind)

/-- The position of the log at which the first poll left its cursor. -/
def oldPosition : Nat :=
  run.before.current.start + run.cursor.offset

/-- The position of the log up to which the second poll reads. -/
def newPosition : Nat :=
  run.after.current.start + currentStop digest run.second.state run.second.snapshot kind

/-- The second poll counts a gap, or what it reads is the log from the old
cursor up to the new one. -/
def NothingLost : Prop :=
  run.second.state.gaps < run.second.outbox.next.gaps ∨
    readText digest run.second.state run.second.snapshot kind =
      between run.after.log run.oldPosition run.newPosition

/-- The committed cursor describes the current file of the first snapshot. -/
theorem cursor_spec :
    run.cursor.id = run.before.current.id ∧
      run.cursor.offset ≤ run.before.current.file.data.length ∧
      run.cursor.sha256 = digest (run.before.current.file.data.take run.cursor.offset) := by
  have taken := run.first.spec.cursors kind
  rw [run.committed, run.shownBefore.current] at taken
  have inside := currentStop_le digest run.first.state run.first.snapshot kind
  rw [run.shownBefore.current] at inside
  rw [Option.some.inj taken]
  exact ⟨rfl, inside, rfl⟩

/-- A file that goes on as the cursor's file did fits the cursor. -/
theorem matchesPrefix_of_prefix {file : LogFile}
    (longer : run.before.current.file.data <+: file.data) :
    matchesPrefix digest file run.cursor = true := by
  obtain ⟨-, inside, sha⟩ := run.cursor_spec
  obtain ⟨more, whole⟩ := longer
  have length := congrArg List.length whole
  rw [List.length_append] at length
  rw [matchesPrefix, sha, ← whole, List.take_append_of_le_length inside]
  simp
  omega

/-- Without a gap the reading goes on in one of the files. -/
theorem resumes_or_unmatched :
    Unmatched digest run.second.state run.second.snapshot kind ∨
      ∃ older stored newer, run.after.all = older ++ stored :: newer ∧
        Resumes digest run.cursor (run.after.all.map Stored.file) (older.map Stored.file)
          stored.file ∧
        ((work digest run.second.snapshot kind (some run.cursor)).2.flatMap fun item =>
            item.2.1.data.drop item.2.2) =
          stored.file.data.drop run.cursor.offset ++ contents (newer.map Stored.segment) := by
  rcases work_some digest run.second.snapshot kind run.cursor with
    ⟨-, unmatched⟩ | ⟨older, item, newer, whole, resumes, reading⟩
  · exact .inl ⟨run.cursor, run.resumed, unmatched⟩
  · have files := map_chronological run.shownAfter
    rw [files] at resumes
    rw [whole, List.map_append, List.map_cons, eq_comm, List.map_eq_append_iff] at files
    obtain ⟨olderStored, rest, split, olderSame, restSame⟩ := files
    obtain ⟨stored, newerStored, rfl, storedSame, newerSame⟩ := List.map_eq_cons_iff.1 restSame
    refine .inr ⟨olderStored, stored, newerStored, split, ?_, ?_⟩
    · rwa [olderSame, storedSame]
    · rw [reading, List.flatMap_cons, storedSame, contents, List.map_map]
      have newerData : newerStored.map (Segment.data ∘ Stored.segment) =
          (newerStored.map Stored.file).map LogFile.data := by
        rw [List.map_map]
        rfl
      rw [newerData, newerSame, List.flatMap_map, List.map_map, List.flatMap_def]
      rfl

section Resumed

variable {older newer : List Stored} {stored : Stored}
  (split : run.after.all = older ++ stored :: newer)
  (resumes : Resumes digest run.cursor (run.after.all.map Stored.file) (older.map Stored.file)
    stored.file)

include split

theorem covers_split : Covers run.after.log
    (older.map Stored.segment ++ stored.segment :: newer.map Stored.segment) := by
  have covers := run.after.covers_all
  rwa [split, List.map_append, List.map_cons] at covers

theorem stored_mem : stored ∈ run.after.all := by
  rw [split]
  exact List.mem_append_right _ List.mem_cons_self

include resumes

/-- The text read is a stretch of the log up to the new position. -/
theorem readText_eq_between
    (reading : ((work digest run.second.snapshot kind (some run.cursor)).2.flatMap fun item =>
        item.2.1.data.drop item.2.2) =
      stored.file.data.drop run.cursor.offset ++ contents (newer.map Stored.segment)) :
    stored.start + run.cursor.offset ≤ run.newPosition ∧ run.newPosition ≤ run.after.log.length ∧
      readText digest run.second.state run.second.snapshot kind =
        between run.after.log (stored.start + run.cursor.offset) run.newPosition := by
  have covers := run.covers_split split
  have inside : run.cursor.offset ≤ stored.segment.data.length :=
    offset_le_of_matchesPrefix digest resumes.prefixed
  have current : Covers run.after.log
      (run.after.rotated.reverse.map Stored.segment ++ run.after.current.segment :: []) := by
    have covers := run.after.covers
    rwa [List.map_append] at covers
  have stop : currentStop digest run.second.state run.second.snapshot kind ≤
      run.after.current.segment.data.length := by
    have stop := currentStop_le digest run.second.state run.second.snapshot kind
    rwa [run.shownAfter.current] at stop
  have whole := readText_append_drop digest run.second.state run.second.snapshot kind run.resumed
  have rest := current.drop_offset stop
  rw [contents_nil, List.append_nil] at rest
  rw [reading, run.shownAfter.current] at whole
  have log : readText digest run.second.state run.second.snapshot kind ++
      run.after.log.drop run.newPosition =
        run.after.log.drop (stored.start + run.cursor.offset) := by
    rw [newPosition]
    exact (congrArg _ rest).trans (whole.trans (covers.drop_offset inside).symm)
  have last := current.offset_le stop
  obtain ⟨before, text⟩ := eq_between_of_append_drop log (covers.offset_le inside) last
  exact ⟨before, last, text⟩

/-- The file with the identity and the prefix is the one where the reading goes on. -/
theorem eq_stored_of_identity {other : Stored} (member : other ∈ run.after.all)
    (same : other.id = run.cursor.id)
    (prefixed : matchesPrefix digest other.file run.cursor = true) : other = stored := by
  cases resumes with
  | byIdentity identity _ =>
      refine run.after.id_injective member (run.stored_mem split) ?_
      rw [same]
      exact identity.symm
  | byPrefix unidentified _ _ =>
      have not := unidentified other.file (List.mem_map_of_mem member) same
      rw [prefixed] at not
      cases not

/-- The old position is not after the new one. -/
theorem oldPosition_le (reached : stored.start + run.cursor.offset ≤ run.newPosition) :
    run.oldPosition ≤ run.newPosition := by
  obtain ⟨identity, inside, -⟩ := run.cursor_spec
  rcases (Later.of_history run.history).current with ⟨start, same, longer⟩ | past
  · have here := run.eq_stored_of_identity split resumes run.after.current_mem
      (same.trans identity.symm) (run.matchesPrefix_of_prefix longer)
    rw [← here, start] at reached
    exact reached
  · have covers := run.before.covers
    rw [List.map_append] at covers
    have old : run.oldPosition ≤ run.before.log.length :=
      Covers.offset_le (show Covers _ (_ ++ run.before.current.segment :: []) from covers) inside
    rw [newPosition]
    omega

/-- The recognition is right exactly when the reading goes on in a file that
begins where the cursor's file began. -/
theorem recognised_iff (start : Nat) :
    Recognised digest run.after run.cursor start ↔ stored.start = start := by
  constructor
  · intro recognised
    cases resumes with
    | byIdentity same prefixed =>
        exact recognised.byIdentity stored (run.stored_mem split) same prefixed
    | byPrefix unidentified oldest prefixed =>
        refine recognised.byPrefix ?_ stored ?_
        · intro other member same
          exact unidentified other.file (List.mem_map_of_mem member) same
        · refine List.find?_eq_some_iff_append.2 ⟨prefixed, older, newer, split, ?_⟩
          intro other member
          rw [oldest other.file (List.mem_map_of_mem member)]
          rfl
  · intro begins
    refine ⟨?_, ?_⟩
    · intro other member same prefixed
      rw [run.eq_stored_of_identity split resumes member same prefixed]
      exact begins
    · intro unidentified other found
      cases resumes with
      | byIdentity same prefixed =>
          have not := unidentified stored (run.stored_mem split) same
          rw [prefixed] at not
          cases not
      | byPrefix _ oldest prefixed =>
          have here : run.after.all.find? (fun other =>
              matchesPrefix digest other.file run.cursor) = some stored := by
            refine List.find?_eq_some_iff_append.2 ⟨prefixed, older, newer, split, ?_⟩
            intro other member
            rw [oldest other.file (List.mem_map_of_mem member)]
            rfl
          rw [found] at here
          rw [Option.some.inj here]
          exact begins

end Resumed

/-- **When rotation loses nothing.** Every record read is accounted for, and
without a gap the text read is the log from the old cursor to the new one
exactly when the code recognises a file that begins where the cursor's did. -/
theorem nothingLost_iff :
    Accounts run.second.filterNormal run.second.state.toLedger
        (allRecords digest run.second.state run.second.snapshot)
        run.second.outbox.batches.flatten run.second.outbox.next ∧
      (run.NothingLost ↔
        (∃ other, Unmatched digest run.second.state run.second.snapshot other) ∨
          Recognised digest run.after run.cursor run.before.current.start) := by
  have spec := run.second.spec
  refine ⟨spec.accounts, ?_⟩
  have gaps : run.second.state.gaps < run.second.outbox.next.gaps ↔
      ∃ other, Unmatched digest run.second.state run.second.snapshot other := by
    rw [spec.gaps, Nat.lt_add_right_iff_pos, List.countP_pos_iff]
    simp only [isGap_iff, Kind.mem_all, true_and]
  rw [NothingLost, gaps]
  rcases run.resumes_or_unmatched with unmatched | ⟨older, stored, newer, split, resumes, reading⟩
  · exact iff_of_true (.inl ⟨kind, unmatched⟩) (.inl ⟨kind, unmatched⟩)
  · obtain ⟨reached, inside, text⟩ := run.readText_eq_between split resumes reading
    have old := run.oldPosition_le split resumes reached
    rw [text, run.recognised_iff split resumes, between_left_injective inside reached old,
      oldPosition, Nat.add_right_cancel_iff]

end Resumption

/-! ## A line lost without a gap -/

/-- A digest that agrees with SHA-256 on the texts below and tells all texts apart. -/
def sampleDigest : List UInt8 → String
  | [] => "e3b0c44298fc1c149afbf4c8996fb92427ae41e4649b934ca495991b7852b855"
  | [97, 10] => "87428fc522803d31065e7bce3cf03fe475096631e5e07bbd7a0fde60c4cf25c7"
  | bytes => String.ofList ('x' :: bytes.map fun byte => Char.ofNat byte.toNat)

theorem sampleDigest_injective : Function.Injective sampleDigest := by
  intro first second same
  have headOther : ∀ (bytes : List UInt8) (text : String), text.toList.head? ≠ some 'x' →
      String.ofList ('x' :: bytes.map fun byte => Char.ofNat byte.toNat) ≠ text := by
    intro bytes text other equal
    rw [← equal, String.toList_ofList] at other
    exact other rfl
  unfold sampleDigest at same
  split at same <;> split at same
  · rfl
  · exact absurd same (by decide)
  · exact absurd same.symm (headOther _ _ (by decide))
  · exact absurd same (by decide)
  · rfl
  · exact absurd same.symm (headOther _ _ (by decide))
  · exact absurd same (headOther _ _ (by decide))
  · exact absurd same (headOther _ _ (by decide))
  · have texts := String.ofList_injective same
    exact List.map_injective_iff.2 charOfByte_injective (List.cons.inj texts).2

/-- A preparation that succeeds makes an outbox. -/
theorem exists_outbox [UnicodeData] {digest : List UInt8 → String} {state : State}
    {snapshot : Snapshot} {nowNs : Int} {filterNormal : Bool} (idle : state.pending = none)
    (succeeds : (prepare digest state snapshot nowNs filterNormal).toBool = true) :
    ∃ outbox, prepare digest state snapshot nowNs filterNormal =
      .ok { state with pending := some outbox } := by
  cases result : prepare digest state snapshot nowNs filterNormal with
  | error failure => simp [result, Except.toBool] at succeeds
  | ok out =>
      obtain ⟨outbox, rfl, -⟩ := prepare_ok digest idle result
      exact ⟨outbox, rfl⟩

/-- Every kind has an empty current file. -/
def emptySnapshot : Snapshot where
  file _ gen := if gen = .current then some ⟨1, 1, 0, []⟩ else none
  currentPresent _ := rfl

/-- The same, and the kernel log has a saved copy with one line. -/
def copiedSnapshot : Snapshot where
  file kind gen :=
    if gen = .current then some ⟨1, 1, 0, []⟩
    else if kind = .kernel ∧ gen = .one then some ⟨1, 2, 0, [97, 10]⟩
    else none
  currentPresent _ := rfl

/-- The state that a first poll of empty files commits. -/
def committedState : State where
  cursors _ := some ⟨1, 1, 0, sampleDigest [], 0⟩
  lastNs := 0
  lastSuccess := some 0
  sent := 0
  gaps := 0
  normal := []
  pending := none

/-- An empty kernel log. -/
def emptyKernelLog : LogFiles .kernel where
  log := []
  rotated := []
  current := ⟨0, ⟨1, 1, 0, []⟩⟩
  covers := ⟨Nat.le_refl _, rfl, trivial⟩
  distinct := by decide
  room := Nat.zero_le _

/-- The kernel log after one line and a copytruncate rotation. -/
def rotatedKernelLog : LogFiles .kernel :=
  (emptyKernelLog.append [97, 10] 0).copytruncate ⟨1, 2, 0, [97, 10]⟩ 0 rfl (by decide)

theorem prepare_empty_succeeds :
    (@prepare asciiData sampleDigest initialState emptySnapshot 0 true).toBool = true := by
  decide +kernel

theorem prepare_copied_succeeds :
    (@prepare asciiData sampleDigest committedState copiedSnapshot 0 true).toBool = true := by
  decide +kernel

/-- **A line written to an empty file and saved by copytruncate is lost without a
gap**: the emptied file has the identity of the cursor and its empty prefix. -/
theorem copytruncate_of_empty_file_loses :
    ∃ (_ : UnicodeData) (digest : List UInt8 → String) (kind : Kind)
      (run : Resumption digest kind), Function.Injective digest ∧ ¬ run.NothingLost := by
  let _ : UnicodeData := asciiData
  obtain ⟨firstOutbox, first⟩ := exists_outbox rfl prepare_empty_succeeds
  obtain ⟨secondOutbox, second⟩ := exists_outbox rfl prepare_copied_succeeds
  let firstPoll : Poll sampleDigest := ⟨_, rfl, _, _, _, _, first⟩
  let secondPoll : Poll sampleDigest := ⟨_, rfl, _, _, _, _, second⟩
  refine ⟨asciiData, sampleDigest, .kernel,
    { first := firstPoll
      second := secondPoll
      before := emptyKernelLog
      after := rotatedKernelLog
      history := .tail (.tail .refl (.append emptyKernelLog [97, 10] 0))
        (.copytruncate _ ⟨1, 2, 0, [97, 10]⟩ 0 rfl (by decide))
      shownBefore := ⟨rfl, rfl⟩
      shownAfter := ⟨rfl, rfl⟩
      cursor := ⟨1, 1, 0, sampleDigest [], 0⟩
      committed := firstPoll.spec.cursors .kernel
      resumed := rfl }, sampleDigest_injective, ?_⟩
  have gaps : Kind.all.countP (isGap sampleDigest committedState copiedSnapshot) = 0 := by
    decide
  have read : readText sampleDigest committedState copiedSnapshot .kernel = [] := by
    decide
  rintro (gap | same)
  · have counted := secondPoll.spec.gaps
    rw [gaps] at counted
    exact absurd gap (Nat.lt_irrefl _ <| counted ▸ ·)
  · rw [read] at same
    have written : ([] : List UInt8) = [97, 10] := same
    cases written

end HomeclusterInfra.NasLogs
