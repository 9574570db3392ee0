import Mathlib.Data.Fintype.Pi
import HomeclusterInfra.Library.Ascending
import HomeclusterInfra.NasLogs.Delivery

/-!
# The time stamps of the entries

The counter `last_ns` lives in the ledger. `prepare` stamps every entry with
the next value of the counter or with the clock, whichever is later, and the
outbox carries the advanced counter in its next ledger. A failed save, a
restart or a clock that goes backwards can repeat the preparation from the same
counter, but the counter in the file moves only by a commit. So the entries of
the outboxes that were committed bear strictly increasing time stamps, from the
first poll on.
-/

set_option autoImplicit false

namespace HomeclusterInfra.NasLogs

open Text Checked Runs Ascending

/-! ## One outbox -/

/-- The streams bear time stamps that ascend from above one counter value up to
another. -/
def Stamped (low : Nat) (streams : List Stream) (high : Nat) : Prop :=
  ∃ times, streams.map Stream.timestamp = times.map natText ∧ Ascends low times high

theorem Stamped.append {low middle high : Nat} {first second : List Stream}
    (one : Stamped low first middle) (two : Stamped middle second high) :
    Stamped low (first ++ second) high := by
  obtain ⟨firstTimes, firstSame, firstAscends⟩ := one
  obtain ⟨secondTimes, secondSame, secondAscends⟩ := two
  refine ⟨firstTimes ++ secondTimes, ?_, firstAscends.append secondAscends⟩
  rw [List.map_append, List.map_append, firstSame, secondSame]

theorem natText_injective : Function.Injective natText := by
  intro one other same
  rw [← @Nat.ofDigitChars_ten_toDigits one, ← @Nat.ofDigitChars_ten_toDigits other]
  exact congrArg (fun digits => Nat.ofDigitChars 10 digits 0) same

variable [UnicodeData]

section Loops

variable {filterNormal bootstrap : Bool} {nowNs : Int} {kind : Kind} {progress after : Progress}
  {low : Nat}

/-- A record gets no stamp, or one above the counter, which moves there. -/
theorem handleRecord_stamped {raw : List UInt8}
    (stamped : Stamped low progress.streams progress.next.lastNs)
    (step : handleRecord filterNormal nowNs kind bootstrap progress raw = .ok after) :
    Stamped low after.streams after.next.lastNs := by
  unfold handleRecord at step
  obtain ⟨-, -, step⟩ := bind_eq_ok.1 step
  cases pattern : recordPattern filterNormal kind raw with
  | some name =>
      simp only [pattern, pure_eq_ok] at step
      subst step
      exact stamped
  | none =>
      simp only [pattern, bind_eq_ok, pure_eq_ok] at step
      obtain ⟨⟨level, line⟩, -, done⟩ := step
      subst done
      have advanced : progress.next.lastNs < (max nowNs (progress.next.lastNs + 1)).toNat := by
        omega
      have one : Stamped progress.next.lastNs
          [entryStream kind level (max nowNs (progress.next.lastNs + 1)).toNat line]
          (max nowNs (progress.next.lastNs + 1)).toNat :=
        ⟨_, rfl, .single advanced⟩
      have both := stamped.append one
      simpa only [Progress.streams_setNext, Progress.streams_push, Progress.next_push] using both

end Loops

variable {digest : List UInt8 → String}

/-- The entries of an outbox are stamped from above the counter of the ledger it
was prepared from up to the counter of its next ledger. -/
theorem PreparedFrom.stamped {ledger : Ledger} {outbox : Outbox}
    (genuine : PreparedFrom digest ledger outbox) :
    Stamped ledger.lastNs outbox.batches.flatten outbox.next.lastNs := by
  obtain ⟨⟨state, idle, snapshot, nowNs, filterNormal, outbox, prepared⟩, rfl, rfl⟩ := genuine
  obtain ⟨progress, loop, out, -⟩ := prepare_steps digest idle prepared
  have same := Option.some.inj (congrArg State.pending out)
  have streams : outbox.batches.flatten = progress.streams := by
    rw [same, progress.flatten_allBatches]
  have counter : outbox.next.lastNs = progress.next.lastNs := by
    rw [same]
  show Stamped state.lastNs outbox.batches.flatten outbox.next.lastNs
  rw [streams, counter]
  exact loops_keep digest
    (fun current => Stamped state.lastNs current.streams current.next.lastNs)
    (fun _ _ _ _ _ kept step => handleRecord_stamped kept step)
    (fun _ _ _ kept => kept) ⟨[], rfl, .nil le_rfl⟩ loop

/-! ## Commits -/

instance : Fintype Kind where
  elems := ⟨Kind.all, Kind.all_nodup⟩
  complete := Kind.mem_all

deriving instance DecidableEq for Ledger, Outbox, State

/-- The entries of an outbox in batch order. -/
def Outbox.entries (outbox : Outbox) : List Stream :=
  outbox.batches.flatten

/-- The outbox that a poll commits: the one it delivered, when the poll puts its
next ledger into the file. A commit whose save raised after it took place is
delivered and saved once more by the next poll; it counts once. -/
def commitOf (before after : StateFile) (log : PollLog) : Option Outbox :=
  log.pending.filter fun outbox =>
    loadState after = some outbox.next.toState ∧ loadState before ≠ some outbox.next.toState

variable (digest)

/-- The outbox an event commits. -/
def committedBy (world : World) (event : Event) : Option Outbox :=
  commitOf world.file (step digest world event).1.file (step digest world event).2

/-- One event, answered with its log and the outbox it commits. -/
def commitStep (world : World) (event : Event) : World × PollLog × Option Outbox :=
  ((step digest world event).1, (step digest world event).2, committedBy digest world event)

/-- The outboxes that are committed in a run, in commit order. -/
def committedOutboxes (world : World) (events : List Event) : List Outbox :=
  (run (commitStep digest) world events).2.filterMap Prod.snd

/-- The entries that are committed in a run, in commit order. -/
def committedEntries (world : World) (events : List Event) : List Stream :=
  (committedOutboxes digest world events).flatMap Outbox.entries

/-- The entries are stamped up to the counter in the file. -/
def StampedTo (entries : List Stream) (file : StateFile) : Prop :=
  ∃ ledger, persisted file = some ledger ∧ Stamped 0 entries ledger.lastNs

variable {digest} {logs : List PollLog} {world : World} {entries : List Stream}

/-- From a missing file on, the outbox a poll delivers was prepared from the
ledger it stands beside. -/
theorem Consistent.preparedFrom {file : StateFile} {state : State} {outbox : Outbox}
    (consistent : Consistent digest .missing logs world)
    (ready : Ready digest world file state outbox) : PreparedFrom digest state.toLedger outbox := by
  rcases (consistent.ready ready).2 with genuine | ⟨first, loaded, pending, -⟩
  · exact genuine
  · rw [← Option.some.inj (loaded : some initialState = some first)] at pending
    cases pending

/-- The outbox that a successful commit takes out of the file continues the time
stamps. -/
theorem StampedTo.commit {file after : StateFile} {state : State} {outbox : Outbox}
    (consistent : Consistent digest .missing logs world) (stamped : StampedTo entries world.file)
    (ready : Ready digest world file state outbox)
    (changed : loadState world.file ≠ some outbox.next.toState)
    (saved : loadState after = some outbox.next.toState) :
    StampedTo (entries ++ outbox.entries) after := by
  obtain ⟨ledger, held, stamps⟩ := stamped
  have before : loadState file = some state := by
    rcases consistent.ready_file ready with here | ⟨same, -, already, -⟩
    · exact here
    · exact absurd (same ▸ already) changed
  have ledgers : state.toLedger = ledger := by
    rw [← consistent.ready_persisted ready, persisted, before] at held
    exact Option.some.inj held
  subst ledgers
  exact ⟨outbox.next, by rw [persisted, saved]; rfl,
    stamps.append (consistent.preparedFrom ready).stamped⟩

/-- An event commits nothing and keeps the ledger in the file, or it commits the
outbox it was ready to deliver. -/
theorem Consistent.commit_cases {origin : StateFile}
    (consistent : Consistent digest origin logs world) (event : Event) :
    (committedBy digest world event = none ∧
        persisted (NasLogs.step digest world event).1.file = persisted world.file) ∨
      ∃ file state outbox, Ready digest world file state outbox ∧
        committedBy digest world event = some outbox ∧
        loadState world.file ≠ some outbox.next.toState ∧
        loadState (NasLogs.step digest world event).1.file = some outbox.next.toState := by
  cases event with
  | restart filterNormal => exact .inl ⟨rfl, rfl⟩
  | poll env =>
      have polled := @pollOnce_polled _ digest env world
      simp only [committedBy, NasLogs.step]
      generalize pollOnce digest env world = result at polled
      obtain ⟨⟨file, _, memory, _, _, _, _⟩, log⟩ := result
      simp only at polled ⊢
      cases polled with
      | unread => exact .inl ⟨rfl, rfl⟩
      | unprepared state finds => exact .inl ⟨rfl, rfl⟩
      | halfSaved state outbox _ finds empty _ saved =>
          refine .inl ⟨rfl, ?_⟩
          obtain ⟨filed, loaded, ledger, -⟩ := consistent.finds finds
          simp only [persisted, saved, loaded, Option.map_some, ledger empty]
      | delivered state outbox _ offered accepted ready =>
          refine .inl ⟨?_, consistent.ready_persisted ready⟩
          -- The file still holds the outbox, or held its next ledger before.
          rw [commitOf, Option.filter_some, if_neg]
          intro both
          obtain ⟨after, before⟩ := of_decide_eq_true both
          rcases consistent.ready_file ready with here | ⟨same, -⟩
          · have busy := ready.pending
            rw [Option.some.inj (here.symm.trans after)] at busy
            cases busy
          · exact before (same ▸ after)
      | committed state outbox before _ memory offered ready _ saved _ =>
          by_cases already : loadState world.file = some outbox.next.toState
          · refine .inl ⟨?_, by rw [persisted, persisted, saved, already]⟩
            rw [commitOf, Option.filter_some, if_neg]
            intro both
            exact (of_decide_eq_true both).2 already
          · refine .inr ⟨before, state, outbox, ready, ?_, already, saved⟩
            rw [commitOf, Option.filter_some, if_pos (decide_eq_true ⟨saved, already⟩)]

/-- **Every event continues the time stamps.** -/
theorem StampedTo.step (consistent : Consistent digest .missing logs world)
    (stamped : StampedTo entries world.file) (event : Event) :
    StampedTo (entries ++ (committedBy digest world event).toList.flatMap Outbox.entries)
      (NasLogs.step digest world event).1.file := by
  rcases consistent.commit_cases event with
    ⟨nothing, same⟩ | ⟨file, state, outbox, ready, commits, changed, saved⟩
  · rw [nothing]
    obtain ⟨ledger, held, stamps⟩ := stamped
    exact ⟨ledger, same.trans held, by simpa using stamps⟩
  · rw [commits]
    simpa using stamped.commit consistent ready changed saved

/-! ## Every run -/

/-- **Time stamps strictly increase over the whole life of a state file.** In
every run of polls and restarts that begins without a file, whatever the clock
shows and whatever fails, the entries of the committed outboxes bear strictly
increasing integers, and no two of them bear the same. -/
theorem timestamps_increase (digest : List UInt8 → String) (filterNormal : Bool)
    (events : List Event) :
    let entries := committedEntries digest ⟨.missing, .start filterNormal⟩ events
    (∃ times : List Nat, entries.map Stream.timestamp = times.map natText ∧
        times.Pairwise (· < ·)) ∧
      (entries.map Stream.timestamp).Nodup := by
  intro entries
  have kept := @run_invariant _ _ _ (commitStep digest)
    (fun answers (world : World) => Consistent digest .missing (answers.map Prod.fst) world ∧
      StampedTo ((answers.filterMap Prod.snd).flatMap Outbox.entries) world.file)
    (fun answers world event here => by
      refine ⟨?_, ?_⟩
      · simpa [commitStep] using here.1.step event
      · have more := here.2.step here.1 event
        rw [List.filterMap_append, List.flatMap_append]
        cases commits : committedBy digest world event <;>
          simpa [commitStep, commits] using more)
    ⟨.missing, .start filterNormal⟩
    ⟨.start filterNormal, initialState.toLedger, rfl, [], rfl, .nil (Nat.zero_le _)⟩ events
  obtain ⟨-, _, -, times, same, ascends⟩ := kept
  have texts : entries.map Stream.timestamp = times.map natText := same
  refine ⟨⟨times, texts, ascends.increasing⟩, ?_⟩
  rw [texts]
  have distinct : times.Nodup := ascends.increasing.imp fun below => below.ne
  exact distinct.map natText_injective

end HomeclusterInfra.NasLogs
