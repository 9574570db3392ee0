import Mathlib.Data.List.Forall2
import HomeclusterInfra.NasLogs.Records

/-!
# What `prepare` does with the records it reads

Every record that the loop comes to is either counted under the name of its
normal pattern or carried by one stream of the outbox, in order. Beyond that a
successful `prepare` moves the cursor of every kind to the end of what was read
of the current file, and counts one gap for each kind whose cursor fits none of
its generations.
-/

set_option autoImplicit false

namespace HomeclusterInfra.NasLogs

open Text JsonText Checked Pieces

/-! ## Records and streams -/

section

variable [UnicodeData]

/-- A record that the loop of `prepare` comes to. -/
structure Handled where
  kind : Kind
  bootstrap : Bool
  raw : List UInt8

/-- The counter a record is counted under when it is normal. -/
def Handled.counter (filterNormal : Bool) (record : Handled) : Option String :=
  (recordPattern filterNormal record.kind record.raw).map fun pattern =>
    record.kind.name ++ "/" ++ pattern

/-- The stream holds the entry of the record. -/
def CarriedBy (record : Handled) (stream : Stream) : Prop :=
  ∃ nowNs level line, entry record.kind record.raw record.bootstrap nowNs = .ok (level, line) ∧
    stream = entryStream record.kind level nowNs line

end

/-- All streams collected so far. -/
def Progress.streams (progress : Progress) : List Stream :=
  progress.batches.flatten ++ progress.batch

@[simp] theorem Progress.streams_setNext (progress : Progress) (next : Ledger) :
    ({ progress with next := next } : Progress).streams = progress.streams :=
  rfl

/-- The batches that are left when the loops have ended, the last one with them. -/
def Progress.allBatches (progress : Progress) : List Batch :=
  progress.batches ++ if progress.batch.isEmpty then [] else [progress.batch]

theorem Progress.flatten_allBatches (progress : Progress) :
    progress.allBatches.flatten = progress.streams := by
  rw [allBatches, List.flatten_append, Progress.streams]
  cases progress.batch <;> simp

/-- The records handled since a ledger are all accounted for: the normal ones
are counted, the others are carried, in order. -/
structure Accounts [UnicodeData] (filterNormal : Bool) (base : Ledger) (records : List Handled)
    (streams : List Stream) (next : Ledger) : Prop where
  carried : List.Forall₂ CarriedBy
    (records.filter fun record => (record.counter filterNormal).isNone) streams
  sent : next.sent = base.sent + streams.length
  normal : next.normal = (records.filterMap (Handled.counter filterNormal)).foldl
    (fun counts key => bump key counts) base.normal

/-- What the loops leave alone while they read one file. -/
structure SameReading (before after : Ledger) : Prop where
  cursors : after.cursors = before.cursors
  gaps : after.gaps = before.gaps

theorem SameReading.trans {first second third : Ledger} (one : SameReading first second)
    (two : SameReading second third) : SameReading first third :=
  ⟨two.cursors.trans one.cursors, two.gaps.trans one.gaps⟩

@[simp] theorem Progress.streams_push (progress : Progress) (stream : Stream) :
    (progress.push stream).streams = progress.streams ++ [stream] := by
  simp only [push, streams]
  split <;> simp

@[simp] theorem Progress.next_push (progress : Progress) (stream : Stream) :
    (progress.push stream).next = progress.next := by
  simp only [push]
  split <;> rfl

variable [UnicodeData]

/-! ## One record -/

section Record

variable {filterNormal bootstrap : Bool} {nowNs : Int} {kind : Kind} {progress after : Progress}
  {raw : List UInt8}

/-- What handling a record can do. -/
theorem handleRecord_cases
    (step : handleRecord filterNormal nowNs kind bootstrap progress raw = .ok after) :
    (∃ key, Handled.counter filterNormal ⟨kind, bootstrap, raw⟩ = some key ∧
        after = { progress with
          next := { progress.next with normal := bump key progress.next.normal } }) ∨
      (Handled.counter filterNormal ⟨kind, bootstrap, raw⟩ = none ∧
        ∃ stream, CarriedBy ⟨kind, bootstrap, raw⟩ stream ∧
          after.streams = progress.streams ++ [stream] ∧
          after.next.sent = progress.next.sent + 1 ∧
          after.next.normal = progress.next.normal ∧ SameReading progress.next after.next) := by
  unfold handleRecord at step
  obtain ⟨-, -, step⟩ := bind_eq_ok.1 step
  cases pattern : recordPattern filterNormal kind raw with
  | some name =>
      simp only [pattern, pure_eq_ok] at step
      exact .inl ⟨kind.name ++ "/" ++ name, by simp [Handled.counter, pattern], step.symm⟩
  | none =>
      simp only [pattern, bind_eq_ok, pure_eq_ok] at step
      obtain ⟨⟨level, line⟩, made, done⟩ := step
      refine .inr ⟨by simp [Handled.counter, pattern], entryStream kind level _ line,
        ⟨_, level, line, made, rfl⟩, ?_⟩
      have streams := Progress.streams_push { progress with
        next := { progress.next with lastNs := (max nowNs (progress.next.lastNs + 1)).toNat } }
        (entryStream kind level (max nowNs (progress.next.lastNs + 1)).toNat line)
      have next := Progress.next_push { progress with
        next := { progress.next with lastNs := (max nowNs (progress.next.lastNs + 1)).toNat } }
        (entryStream kind level (max nowNs (progress.next.lastNs + 1)).toNat line)
      generalize Progress.push _ _ = pushed at streams next done
      subst done
      refine ⟨streams, ?_, ?_, ?_, ?_⟩
      · rw [next]
      · rw [next]
      · rw [next]
      · rw [next]

theorem handleRecord_sameReading
    (step : handleRecord filterNormal nowNs kind bootstrap progress raw = .ok after) :
    SameReading progress.next after.next := by
  rcases handleRecord_cases step with ⟨key, -, same⟩ | ⟨-, stream, -, -, -, -, same⟩
  · subst same
    exact ⟨rfl, rfl⟩
  · exact same

theorem handleRecord_accounts {base : Ledger} {done : List Handled}
    (accounts : Accounts filterNormal base done progress.streams progress.next)
    (step : handleRecord filterNormal nowNs kind bootstrap progress raw = .ok after) :
    Accounts filterNormal base (done ++ [⟨kind, bootstrap, raw⟩]) after.streams after.next := by
  rcases handleRecord_cases step with
    ⟨key, counted, same⟩ | ⟨uncounted, stream, carried, streams, sent, normal, -⟩
  · subst same
    refine ⟨?_, accounts.sent, ?_⟩
    · rw [Progress.streams_setNext, List.filter_append]
      simpa [counted] using accounts.carried
    · simp [List.filterMap_append, counted, accounts.normal]
  · refine ⟨?_, ?_, ?_⟩
    · rw [streams, List.filter_append]
      refine List.rel_append accounts.carried ?_
      simpa [uncounted] using carried
    · rw [sent, accounts.sent, streams, List.length_append, List.length_singleton, Nat.add_assoc]
    · rw [normal, accounts.normal, List.filterMap_append]
      simp [uncounted]

end Record

/-! ## One file -/

variable (digest : List UInt8 → String)

section File

variable {filterNormal : Bool} {nowNs : Int} {kind : Kind} {previous : Option Cursor}
  {progress after : Progress}

/-- Handling the records of a list accounts for them and leaves the reading alone. -/
theorem handleRecords {base : Ledger} {done : List Handled} {bootstrap : Bool}
    {records : List (List UInt8)}
    (accounts : Accounts filterNormal base done progress.streams progress.next)
    (run : records.foldlM (handleRecord filterNormal nowNs kind bootstrap) progress = .ok after) :
    Accounts filterNormal base (done ++ records.map (Handled.mk kind bootstrap)) after.streams
      after.next ∧ SameReading progress.next after.next := by
  have both := foldlM_invariant
    (fun consumed (state : Progress) =>
      Accounts filterNormal base (done ++ consumed.map (Handled.mk kind bootstrap)) state.streams
        state.next ∧ SameReading progress.next state.next)
    (fun consumed state raw next kept step => by
      refine ⟨?_, kept.2.trans (handleRecord_sameReading step)⟩
      have more := handleRecord_accounts kept.1 step
      have single : [Handled.mk kind bootstrap raw] = [raw].map (Handled.mk kind bootstrap) :=
        rfl
      rwa [List.append_assoc, single, ← List.map_append] at more)
    records [] progress after (by simpa using ⟨accounts, ⟨rfl, rfl⟩⟩) run
  simpa using both

/-- The records of a file as the loop comes to them. -/
def itemRecords (kind : Kind) (previous : Option Cursor) (item : Gen × LogFile × Nat) :
    List Handled :=
  (fileRecords kind previous item).1.map (Handled.mk kind previous.isNone)

/-- Handling a file accounts for its records. Only the current file moves the
cursor of its kind. -/
theorem handleFile_ok {base : Ledger} {done : List Handled} {item : Gen × LogFile × Nat}
    (accounts : Accounts filterNormal base done progress.streams progress.next)
    (step : handleFile digest filterNormal nowNs kind previous progress item = .ok after) :
    Accounts filterNormal base (done ++ itemRecords kind previous item) after.streams after.next ∧
      after.next.gaps = progress.next.gaps ∧
      after.next.cursors = if item.1 = .current then
          Function.update progress.next.cursors kind
            (some (cursorAt digest item.2.1 (fileRecords kind previous item).2))
        else progress.next.cursors := by
  unfold handleFile at step
  simp only [bind_eq_ok] at step
  obtain ⟨middle, run, done⟩ := step
  obtain ⟨records, same⟩ := handleRecords accounts run
  split at done
  case isTrue current =>
      rw [pure_eq_ok] at done
      subst done
      refine ⟨⟨records.carried, records.sent, records.normal⟩, same.gaps, ?_⟩
      rw [if_pos current, ← same.cursors]
  case isFalse older =>
      rw [pure_eq_ok] at done
      subst done
      refine ⟨records, same.gaps, ?_⟩
      rw [if_neg older, same.cursors]

end File

/-! ## One kind -/

section KindLoop

variable {filterNormal : Bool} {nowNs : Int} {kind : Kind} {previous : Option Cursor}
  {progress after : Progress}

/-- Files before the current one leave the cursors alone. -/
theorem handleFiles {base : Ledger} {done : List Handled} {items : List (Gen × LogFile × Nat)}
    (accounts : Accounts filterNormal base done progress.streams progress.next)
    (older : ∀ item ∈ items, item.1 ≠ .current)
    (run : items.foldlM (handleFile digest filterNormal nowNs kind previous) progress =
      .ok after) :
    Accounts filterNormal base (done ++ items.flatMap (itemRecords kind previous)) after.streams
      after.next ∧ SameReading progress.next after.next := by
  induction items generalizing progress done with
  | nil =>
      rw [List.foldlM_nil, pure_eq_ok] at run
      subst run
      exact ⟨by simpa using accounts, rfl, rfl⟩
  | cons item items ih =>
      rw [List.foldlM_cons, bind_eq_ok] at run
      obtain ⟨middle, step, rest⟩ := run
      obtain ⟨more, gaps, cursors⟩ := handleFile_ok digest accounts step
      rw [if_neg (older item List.mem_cons_self)] at cursors
      obtain ⟨all, same⟩ := ih more (fun other member => older other (.tail item member)) rest
      refine ⟨?_, SameReading.trans ⟨cursors, gaps⟩ same⟩
      rwa [List.append_assoc] at all

end KindLoop

/-! ### Invariants of the loops -/

section LoopInvariant

variable {filterNormal : Bool} {nowNs : Int} {progress after : Progress}

/-- **What handling a record keeps, whatever is noted of the reading, holds when the loops end.** -/
theorem loops_keep (invariant : Progress → Prop) {state : State} {snapshot : Snapshot}
    {kinds : List Kind}
    (records : ∀ (kind : Kind) (bootstrap : Bool) (before : Progress) (raw : List UInt8)
      (next : Progress), invariant before →
        handleRecord filterNormal nowNs kind bootstrap before raw = .ok next → invariant next)
    (reading : ∀ (before : Progress) (cursors : Kind → Option Cursor) (gaps : Nat),
      invariant before →
        invariant { before with next := { before.next with cursors := cursors, gaps := gaps } })
    (start : invariant progress)
    (loop : kinds.foldlM (handleKind digest state snapshot filterNormal nowNs) progress =
      .ok after) : invariant after := by
  have file : ∀ (kind : Kind) (previous : Option Cursor) (before : Progress)
      (item : Gen × LogFile × Nat) (next : Progress), invariant before →
        handleFile digest filterNormal nowNs kind previous before item = .ok next →
          invariant next := by
    intro kind previous before item next kept step
    unfold handleFile at step
    simp only [bind_eq_ok] at step
    obtain ⟨middle, run, done⟩ := step
    have read := foldlM_invariant (fun _ current => invariant current)
      (fun _ current raw next kept step => records kind _ current raw next kept step)
      _ [] before middle kept run
    split at done
    · rw [pure_eq_ok] at done
      subst done
      exact reading middle _ middle.next.gaps read
    · rw [pure_eq_ok] at done
      subst done
      exact read
  refine foldlM_invariant (fun _ current => invariant current) ?_ kinds [] progress after start loop
  intro _ before kind next kept step
  simp only [handleKind] at step
  refine foldlM_invariant (fun _ current => invariant current)
    (fun _ current item next kept step => file kind _ current item next kept step) _ [] _ next ?_ step
  split
  · exact reading before before.next.cursors _ kept
  · exact kept

end LoopInvariant

/-! ### The files to read -/

section Work

omit [UnicodeData]

variable (snapshot : Snapshot) (kind : Kind) (cursor : Cursor)

/-- The rotated generations that exist, the oldest first. -/
def rotatedFiles : List (Gen × LogFile) :=
  kind.rotatedGens.reverse.filterMap fun gen =>
    (snapshot.file kind gen).map fun file => (gen, file)

theorem chronological_eq :
    chronological snapshot kind =
      rotatedFiles snapshot kind ++ [(.current, snapshot.current kind)] := by
  rw [chronological, kind.gens_eq, List.reverse_cons, List.filterMap_append]
  simp [rotatedFiles, snapshot.file_current]

theorem rotatedFiles_ne_current {item : Gen × LogFile} (member : item ∈ rotatedFiles snapshot kind) :
    item.1 ≠ .current := by
  rw [rotatedFiles, List.mem_filterMap] at member
  obtain ⟨gen, rotated, found⟩ := member
  obtain ⟨file, -, same⟩ := Option.map_eq_some_iff.1 found
  intro current
  rw [← same] at current
  simp only at current
  rw [current] at rotated
  exact kind.current_notMem_rotatedGens (List.mem_reverse.1 rotated)

/-- A found index splits the list at the first element with the property. -/
theorem split_of_findIdx {α : Type} {holds : α → Bool} {list : List α} {index : Nat}
    (found : list.findIdx? holds = some index) :
    ∃ before element after, list = before ++ element :: after ∧ before.length = index ∧
      holds element = true ∧ ∀ other ∈ before, holds other = false := by
  obtain ⟨inside, here, first⟩ := List.findIdx?_eq_some_iff_getElem.1 found
  refine ⟨list.take index, list[index], list.drop (index + 1), ?_, ?_, here, ?_⟩
  · rw [← List.drop_eq_getElem_cons inside, List.take_append_drop]
  · rw [List.length_take, Nat.min_eq_left inside.le]
  · intro other member
    obtain ⟨position, before, same⟩ := List.mem_take_iff_getElem.1 member
    rw [← same]
    exact Bool.eq_false_iff.2 (first position (by omega))

/-- How the file where the reading goes on is recognised: it has the identity
and the prefix of the cursor, or none has both and it is the oldest with the
prefix. -/
inductive Resumes (files older : List LogFile) (file : LogFile) : Prop where
  | byIdentity (same : file.id = cursor.id) (prefixed : matchesPrefix digest file cursor = true)
  | byPrefix
      (unidentified : ∀ other ∈ files, other.id = cursor.id →
        matchesPrefix digest other cursor = false)
      (oldest : ∀ other ∈ older, matchesPrefix digest other cursor = false)
      (prefixed : matchesPrefix digest file cursor = true)

/-- The reading goes on where the cursor fits. -/
theorem Resumes.prefixed {files older : List LogFile} {file : LogFile}
    (resumes : Resumes digest cursor files older file) :
    matchesPrefix digest file cursor = true := by
  cases resumes with
  | byIdentity _ prefixed => exact prefixed
  | byPrefix _ _ prefixed => exact prefixed

theorem offset_le_of_matchesPrefix {file : LogFile} {cursor : Cursor}
    (prefixed : matchesPrefix digest file cursor = true) : cursor.offset ≤ file.data.length := by
  simp only [matchesPrefix, Bool.and_eq_true, decide_eq_true_eq] at prefixed
  exact prefixed.1

theorem findCursor_none {files : List (Gen × LogFile)}
    (missing : findCursor digest files cursor = none) :
    ∀ item ∈ files, matchesPrefix digest item.2 cursor = false := by
  unfold findCursor at missing
  split at missing
  · cases missing
  · exact List.findIdx?_eq_none_iff.1 missing

theorem findCursor_some {files : List (Gen × LogFile)} {index : Nat}
    (found : findCursor digest files cursor = some index) :
    ∃ older item newer, files = older ++ item :: newer ∧ older.length = index ∧
      Resumes digest cursor (files.map Prod.snd) (older.map Prod.snd) item.2 := by
  unfold findCursor at found
  split at found
  next position identified =>
      cases found
      obtain ⟨older, item, newer, whole, length, here, -⟩ := split_of_findIdx identified
      simp only [Bool.and_eq_true, beq_iff_eq] at here
      exact ⟨older, item, newer, whole, length, .byIdentity here.1 here.2⟩
  next unidentified =>
      obtain ⟨older, item, newer, whole, length, here, first⟩ := split_of_findIdx found
      refine ⟨older, item, newer, whole, length, .byPrefix ?_ ?_ here⟩
      · intro other member same
        obtain ⟨entry, among, rfl⟩ := List.mem_map.1 member
        have neither := List.findIdx?_eq_none_iff.1 unidentified entry among
        simpa [same] using neither
      · intro other member
        obtain ⟨entry, among, rfl⟩ := List.mem_map.1 member
        exact first entry among

/-- What is read of a kind that has a cursor: after a gap the whole current
file, and else what follows the cursor in the file where the reading goes on
and everything newer. -/
theorem work_some :
    (work digest snapshot kind (some cursor) = (true, [(.current, snapshot.current kind, 0)]) ∧
        ∀ item ∈ chronological snapshot kind, matchesPrefix digest item.2 cursor = false) ∨
      ∃ older item newer, chronological snapshot kind = older ++ item :: newer ∧
        Resumes digest cursor ((chronological snapshot kind).map Prod.snd) (older.map Prod.snd)
          item.2 ∧
        work digest snapshot kind (some cursor) = (false,
          (item.1, item.2, cursor.offset) :: newer.map fun next => (next.1, next.2, 0)) := by
  cases found : findCursor digest (chronological snapshot kind) cursor with
  | none =>
      exact .inl ⟨by simp [work, found], findCursor_none digest cursor found⟩
  | some index =>
      obtain ⟨older, item, newer, whole, length, resumes⟩ := findCursor_some digest cursor found
      refine .inr ⟨older, item, newer, whole, resumes, ?_⟩
      have rest : (chronological snapshot kind).drop index = item :: newer := by
        rw [whole, ← length, List.drop_left]
      simp [work, found, rest]

/-- The current file is read, after all others. -/
theorem work_last (previous : Option Cursor) :
    ∃ older offset, (work digest snapshot kind previous).2 =
        older ++ [(Gen.current, snapshot.current kind, offset)] ∧
      (∀ item ∈ older, item.1 ≠ .current) ∧ offset ≤ (snapshot.current kind).data.length := by
  cases previous with
  | none => exact ⟨[], 0, rfl, by simp, Nat.zero_le _⟩
  | some cursor =>
      rcases work_some digest snapshot kind cursor with
        ⟨gap, -⟩ | ⟨older, item, newer, whole, resumes, reading⟩
      · exact ⟨[], 0, by rw [gap]; rfl, by simp, Nat.zero_le _⟩
      · rw [chronological_eq] at whole
        rcases List.eq_nil_or_concat newer with rfl | ⟨middle, last, rfl⟩
        · obtain ⟨-, last⟩ := List.append_inj' whole rfl
          obtain ⟨rfl⟩ : item = (Gen.current, snapshot.current kind) := by
            simpa using last.symm
          exact ⟨[], cursor.offset, by rw [reading]; rfl, by simp,
            offset_le_of_matchesPrefix digest resumes.prefixed⟩
        · rw [List.concat_eq_append, ← List.cons_append, ← List.append_assoc] at whole
          obtain ⟨rotated, last⟩ := List.append_inj' whole rfl
          obtain ⟨rfl⟩ := List.singleton_inj.1 last
          refine ⟨(item.1, item.2, cursor.offset) :: middle.map fun next => (next.1, next.2, 0), 0,
            ?_, ?_, Nat.zero_le _⟩
          · rw [reading]
            simp
          · intro other member
            have among : ∃ file, (other.1, file) ∈ rotatedFiles snapshot kind := by
              rw [rotated]
              rcases List.mem_cons.1 member with rfl | later
              · exact ⟨item.2, by simp⟩
              · obtain ⟨next, inside, rfl⟩ := List.mem_map.1 later
                exact ⟨next.2, by simp [inside]⟩
            obtain ⟨file, rotatedMember⟩ := among
            exact rotatedFiles_ne_current snapshot kind rotatedMember

end Work

/-! ## The whole snapshot -/

section Prepare

variable (state : State) (snapshot : Snapshot)

/-- The records of a kind in the order in which they are read. -/
def kindRecords (kind : Kind) : List Handled :=
  (work digest snapshot kind (state.cursors kind)).2.flatMap
    (itemRecords kind (state.cursors kind))

/-- All records that are read. -/
def allRecords : List Handled :=
  Kind.all.flatMap (kindRecords digest state snapshot)

/-- Whether a gap is counted for a kind. -/
def isGap (kind : Kind) : Bool :=
  (work digest snapshot kind (state.cursors kind)).1

/-- The offset after what was read of the current file of a kind. -/
def currentStop (kind : Kind) : Nat :=
  ((work digest snapshot kind (state.cursors kind)).2.getLast?.map fun item =>
    (fileRecords kind (state.cursors kind) item).2).getD 0

variable {state snapshot} {filterNormal : Bool} {nowNs : Int}

/-- One round of the loop over the kinds. -/
theorem handleKind_ok {base : Ledger} {done : List Handled} {kind : Kind}
    {progress after : Progress}
    (accounts : Accounts filterNormal base done progress.streams progress.next)
    (step : handleKind digest state snapshot filterNormal nowNs progress kind = .ok after) :
    Accounts filterNormal base (done ++ kindRecords digest state snapshot kind) after.streams
        after.next ∧
      after.next.gaps = progress.next.gaps + (if isGap digest state snapshot kind then 1 else 0) ∧
      after.next.cursors = Function.update progress.next.cursors kind
        (some (cursorAt digest (snapshot.current kind)
          (currentStop digest state snapshot kind))) := by
  obtain ⟨older, offset, items, others, -⟩ :=
    work_last digest snapshot kind (state.cursors kind)
  simp only [handleKind] at step
  rw [items, List.foldlM_append, bind_eq_ok] at step
  obtain ⟨middle, earlier, last⟩ := step
  rw [List.foldlM_cons, bind_eq_ok] at last
  obtain ⟨final, current, ended⟩ := last
  rw [List.foldlM_nil, pure_eq_ok] at ended
  subst ended
  have counted : ∀ counted : Progress, counted = (if isGap digest state snapshot kind then
      { progress with next := { progress.next with gaps := progress.next.gaps + 1 } }
      else progress) →
      Accounts filterNormal base done counted.streams counted.next ∧
        counted.next.cursors = progress.next.cursors ∧
        counted.next.gaps =
          progress.next.gaps + (if isGap digest state snapshot kind then 1 else 0) := by
    intro counted same
    subst same
    split
    · exact ⟨⟨accounts.carried, accounts.sent, accounts.normal⟩, rfl, rfl⟩
    · exact ⟨accounts, rfl, rfl⟩
  obtain ⟨start, startCursors, startGaps⟩ := counted _ rfl
  obtain ⟨more, same⟩ := handleFiles digest start others earlier
  obtain ⟨all, gaps, cursors⟩ := handleFile_ok digest more current
  refine ⟨?_, ?_, ?_⟩
  · rw [List.append_assoc] at all
    simpa [kindRecords, items] using all
  · rw [gaps, same.gaps, startGaps]
  · rw [cursors, if_pos rfl, same.cursors, startCursors]
    simp [currentStop, items]

/-- What a successful `prepare` of an idle state did: its loops ended, and its
checks passed. -/
theorem prepare_steps {out : State} (idle : state.pending = none)
    (prepared : prepare digest state snapshot nowNs filterNormal = .ok out) :
    ∃ progress, Kind.all.foldlM (handleKind digest state snapshot filterNormal nowNs)
        ⟨state.toLedger, [], [], 32⟩ = .ok progress ∧
      out = { state with pending := some ⟨progress.allBatches,
        { progress.next with lastSuccess := some (seconds nowNs.toNat) }⟩ } ∧
      validateState state = .ok ⟨⟩ ∧ validateState out = .ok ⟨⟩ ∧
      encodedLength {} out.toJson ≤ maxState := by
  simp only [prepare, idle, bind_eq_ok] at prepared
  obtain ⟨_, valid, progress, loop, _, -, _, -, _, accepted, _, fits, done⟩ := prepared
  rw [pure_eq_ok] at done
  subst done
  exact ⟨progress, loop, rfl, valid, accepted, by simpa [check] using fits⟩

/-- What a successful `prepare` puts into the outbox of an idle state. -/
structure Prepared (filterNormal : Bool) (state : State) (snapshot : Snapshot) (outbox : Outbox) :
    Prop where
  accounts : Accounts filterNormal state.toLedger (allRecords digest state snapshot)
    outbox.batches.flatten outbox.next
  cursors : ∀ kind, outbox.next.cursors kind =
    some (cursorAt digest (snapshot.current kind) (currentStop digest state snapshot kind))
  gaps : outbox.next.gaps = state.gaps + Kind.all.countP (isGap digest state snapshot)

/-- What the loops have done when they end. -/
theorem loops_ok {progress : Progress}
    (loop : Kind.all.foldlM (handleKind digest state snapshot filterNormal nowNs)
      ⟨state.toLedger, [], [], 32⟩ = .ok progress) :
    Accounts filterNormal state.toLedger (allRecords digest state snapshot) progress.streams
        progress.next ∧
      progress.next.gaps = state.gaps + Kind.all.countP (isGap digest state snapshot) ∧
      ∀ kind, progress.next.cursors kind =
        some (cursorAt digest (snapshot.current kind) (currentStop digest state snapshot kind)) := by
  obtain ⟨accounts, gaps, cursors⟩ := foldlM_invariant
    (fun consumed (current : Progress) =>
      Accounts filterNormal state.toLedger
          (consumed.flatMap (kindRecords digest state snapshot)) current.streams current.next ∧
        current.next.gaps = state.gaps + consumed.countP (isGap digest state snapshot) ∧
        ∀ kind, current.next.cursors kind = if kind ∈ consumed then
            some (cursorAt digest (snapshot.current kind) (currentStop digest state snapshot kind))
          else state.cursors kind)
    (fun consumed current kind next kept step => by
      obtain ⟨accounts, gaps, cursors⟩ := handleKind_ok digest kept.1 step
      refine ⟨?_, ?_, ?_⟩
      · simpa using accounts
      · rw [gaps, kept.2.1, List.countP_append, List.countP_singleton, Nat.add_assoc]
      · intro other
        rw [cursors]
        by_cases same : other = kind
        · subst same
          simp
        · rw [Function.update_of_ne same, kept.2.2]
          simp [same])
    Kind.all [] _ progress ⟨⟨.nil, rfl, rfl⟩, rfl, by simp⟩ loop
  refine ⟨accounts, gaps, fun kind => ?_⟩
  have here := cursors kind
  rwa [if_pos (by simpa using kind.mem_all)] at here

/-- **A successful `prepare` on an idle state accounts for every record it reads.** -/
theorem prepare_ok {out : State} (idle : state.pending = none)
    (prepared : prepare digest state snapshot nowNs filterNormal = .ok out) :
    ∃ outbox, out = { state with pending := some outbox } ∧
      Prepared digest filterNormal state snapshot outbox := by
  obtain ⟨progress, loop, rfl, -⟩ := prepare_steps digest idle prepared
  obtain ⟨accounts, gaps, cursors⟩ := loops_ok digest loop
  refine ⟨_, rfl, ?_, cursors, gaps⟩
  simp only
  rw [progress.flatten_allBatches]
  exact ⟨accounts.carried, accounts.sent, accounts.normal⟩

end Prepare

/-! ## Polls -/

/-- A poll that has nothing pending and prepares an outbox. -/
structure Poll where
  state : State
  idle : state.pending = none
  snapshot : Snapshot
  nowNs : Int
  filterNormal : Bool
  outbox : Outbox
  prepared : prepare digest state snapshot nowNs filterNormal =
    .ok { state with pending := some outbox }

/-- What the outbox of a poll holds. -/
theorem Poll.spec (poll : Poll digest) :
    Prepared digest poll.filterNormal poll.state poll.snapshot poll.outbox := by
  obtain ⟨outbox, same, spec⟩ := prepare_ok digest poll.idle poll.prepared
  have pending := congrArg State.pending same
  rw [Option.some.inj pending]
  exact spec

end HomeclusterInfra.NasLogs
