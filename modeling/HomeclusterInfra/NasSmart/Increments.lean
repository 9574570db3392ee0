import HomeclusterInfra.Library.Increases
import HomeclusterInfra.Library.Runs
import HomeclusterInfra.NasSmart.Collector

/-!
# Every positive change counts once

The history of a run is the list of the snapshots that its polls put into the
file. The increments in the file are, for every bay, the sum of the positive
changes over the last stay of its disk in that history: what a poll adds is
computed from the state it reads back, so a save that failed, before or after
the replacement, neither repeats nor loses a change.
-/

set_option autoImplicit false

namespace HomeclusterInfra.NasSmart

open Runs Increases

/-! ## The history of a file -/

/-- The snapshots that were put into the file. -/
def history (logs : List PollLog) : List Snapshot :=
  logs.filterMap PollLog.persisted

/-- The positive changes of an attribute since the disk in the bay came there. -/
def counted (snapshots : List Snapshot) (bay : Bay) (fault : Attribute) : Nat :=
  increases ((lastStay (fun snapshot => (snapshot bay).diskId) snapshots).map fun snapshot =>
    (snapshot bay).raw fault)

/-- The state counts the history that ends with its own snapshot. -/
structure Counts (snapshots : List Snapshot) (state : State) : Prop where
  last : snapshots.getLast? = some state.snapshot
  exact : ∀ bay fault, (state.disks bay).increments fault = counted snapshots bay fault

/-- What a file holds after a history: nothing before the first snapshot, and
then a state that counts it. -/
def Exact (snapshots : List Snapshot) (file : StateFile) : Prop :=
  match loadState file with
  | .fails => False
  | .absent => snapshots = []
  | .found state => Counts snapshots state

/-- The state that a poll advances. -/
def loaded (file : StateFile) : Option State :=
  match loadState file with
  | .found state => some state
  | _ => none

theorem valid_of_advance {previous : Option State} {disks : Snapshot} {now : Rat}
    {candidate : State} (advanced : advance previous disks now = some candidate) :
    candidate.valid = true ∧
      candidate.disks = fun bay =>
        advanceDisk (previous.map fun state => state.disks bay) (disks bay) := by
  simp only [advance] at advanced
  split at advanced
  next valid =>
      obtain rfl := Option.some.inj advanced
      exact ⟨valid, rfl⟩
  next => cases advanced

theorem loadState_document {state : State} (valid : state.valid = true) :
    loadState (.document state) = .found state := by
  rw [loadState, if_pos valid]

/-- The increments of a disk that stays grow by its positive change, and those of
another begin at zero. -/
theorem advanceDisk_increments (old : Disk) (reading : Reading) (fault : Attribute) :
    (advanceDisk (some old) reading).increments fault =
      if old.diskId = reading.diskId then
        old.increments fault + (reading.raw fault - old.raw fault)
      else 0 :=
  rfl

/-- **Advancing a state that counts the history counts the next snapshot.** -/
theorem Exact.advance {snapshots : List Snapshot} {file : StateFile} {disks : Snapshot}
    {now : Rat} {candidate : State} (exact : Exact snapshots file)
    (advanced : NasSmart.advance (loaded file) disks now = some candidate) :
    Exact (snapshots ++ [disks]) (.document candidate) := by
  obtain ⟨valid, made⟩ := valid_of_advance advanced
  have readings : candidate.snapshot = disks := by
    funext bay
    rw [State.snapshot, made]
    rfl
  unfold Exact at exact ⊢
  rw [loadState_document valid]
  refine ⟨by rw [List.getLast?_concat, readings], ?_⟩
  intro bay fault
  rw [made]
  unfold loaded
  cases found : loadState file with
  | fails => simp only [found] at exact
  | absent =>
      simp only [found] at exact
      subst exact
      exact (increases_first _ (disks) _).symm
  | found state =>
      simp only [found] at exact
      obtain ⟨earlier, whole⟩ := List.getLast?_eq_some_iff.1 exact.last
      subst whole
      have before := exact.exact bay fault
      simp only [Option.map_some, advanceDisk_increments]
      by_cases same : (state.disks bay).diskId = (disks bay).diskId
      · rw [if_pos same, before]
        exact (increases_prolonged (fun snapshot : Snapshot => (snapshot bay).diskId) earlier
          state.snapshot disks (fun snapshot => (snapshot bay).raw fault) same).symm
      · rw [if_neg same]
        exact (increases_changed (fun snapshot : Snapshot => (snapshot bay).diskId) earlier
          state.snapshot disks (fun snapshot => (snapshot bay).raw fault) same).symm

/-! ## What one event can do -/

/-- An event leaves the file alone, or puts an advanced state of a snapshot into it. -/
inductive Stepped (world : World) (event : Event) : World → PollLog → Prop where
  | kept (next : World) (log : PollLog) (same : next.file = world.file)
      (nothing : log.persisted = none) (silent : log.failed = true → next.collector.success = false) :
      Stepped world event next log
  | replaced (env : PollEnv) (next : World) (log : PollLog) (disks : Snapshot) (candidate : State)
      (poll : event = .poll env) (read : env.read = some disks)
      (advanced : advance (loaded world.file) disks env.clock = some candidate)
      (file : next.file = .document candidate) (persisted : log.persisted = some disks)
      (silent : log.failed = true → next.collector.success = false) :
      Stepped world event next log

theorem collect_stepped (env : PollEnv) (world : World) :
    Stepped world (.poll env)
      (collect env world.file world.collector (loaded world.file)).1
      (collect env world.file world.collector (loaded world.file)).2 := by
  unfold collect
  split
  next => exact .kept _ _ rfl rfl fun _ => rfl
  next disks candidate made =>
      obtain ⟨reading, read, mapped⟩ := Option.bind_eq_some_iff.1 made
      obtain ⟨state, advanced, pair⟩ := Option.map_eq_some_iff.1 mapped
      obtain ⟨rfl, rfl⟩ := Prod.mk.inj pair
      have valid := (valid_of_advance advanced).1
      simp only [saveState, if_pos valid]
      cases env.save with
      | none => exact .replaced env _ _ _ _ rfl read advanced rfl rfl fun above => nomatch above
      | beforeReplace => exact .kept _ _ rfl rfl fun _ => rfl
      | afterReplace => exact .replaced env _ _ _ _ rfl read advanced rfl rfl fun _ => rfl

theorem step_stepped (world : World) (event : Event) :
    Stepped world event (step world event).1 (step world event).2 := by
  cases event with
  | restart => exact .kept _ _ rfl rfl fun above => nomatch above
  | poll env =>
      have collected := collect_stepped env world
      unfold loaded at collected
      simp only [step, pollOnce]
      cases fails : env.loadFails with
      | true =>
          rw [if_pos rfl]
          exact .kept _ _ rfl rfl fun _ => rfl
      | false =>
          rw [if_neg Bool.false_ne_true]
          cases found : loadState world.file with
          | fails => exact .kept _ _ rfl rfl fun _ => rfl
          | absent => simpa only [found] using collected
          | found state => simpa only [found] using collected

/-! ## Every run -/

/-- Every event keeps the file exact. -/
theorem Exact.step {logs : List PollLog} {world : World} (exact : Exact (history logs) world.file)
    (event : Event) :
    Exact (history (logs ++ [(NasSmart.step world event).2])) (NasSmart.step world event).1.file := by
  have stepped := step_stepped world event
  generalize NasSmart.step world event = result at stepped
  obtain ⟨next, log⟩ := result
  have grown : history (logs ++ [log]) = history logs ++ log.persisted.toList := by
    cases persisted : log.persisted <;> simp [history, persisted]
  simp only [grown]
  cases stepped with
  | kept _ _ same nothing =>
      rw [same, nothing, Option.toList_none, List.append_nil]
      exact exact
  | replaced env _ _ disks candidate _ _ advanced file persisted =>
      rw [file, persisted]
      exact exact.advance advanced

/-- The counter of a disk that stays in its bay does not decrease. -/
theorem increments_le_of_stepped {world next : World} {event : Event} {log : PollLog}
    {before after : State} (stepped : Stepped world event next log)
    (held : loadState world.file = .found before) (holds : loadState next.file = .found after)
    {bay : Bay} (stays : (before.disks bay).diskId = (after.disks bay).diskId) (fault : Attribute) :
    (before.disks bay).increments fault ≤ (after.disks bay).increments fault := by
  cases stepped with
  | kept _ _ same =>
      rw [same, held] at holds
      rw [Loaded.found.inj holds]
  | replaced env _ _ disks candidate _ _ advanced file =>
      obtain ⟨valid, made⟩ := valid_of_advance advanced
      rw [file, loadState_document valid] at holds
      obtain rfl := Loaded.found.inj holds
      rw [made] at stays ⊢
      simp only [loaded, held, Option.map_some, advanceDisk_increments] at stays ⊢
      have same : (before.disks bay).diskId = (disks bay).diskId := stays
      rw [if_pos same]
      exact Nat.le_add_right _ _

/-- Without success no line is about a disk. -/
theorem metrics_perDisk {collector : Collector} (unsuccessful : collector.success = false) :
    ∀ line ∈ collector.metrics, line.perDisk = false := by
  unfold Collector.metrics
  rw [unsuccessful]
  simp [MetricLine.perDisk]

/-- What is promised of an event after a run with its history: `world` is the
world of the run, `next` and `log` those of the event. -/
structure Faithful (snapshots : List Snapshot) (world : World) (event : Event) (next : World)
    (log : PollLog) : Prop where
  /-- The file was never spoilt: it is missing or holds a state. -/
  present : loadState world.file = .absent ∨ ∃ state, loadState world.file = .found state
  /-- The increments in the file are those of the history, which ends with the
  snapshot in the file. -/
  exact : ∀ state, loadState world.file = .found state →
    snapshots.getLast? = some state.snapshot ∧
      ∀ bay fault, (state.disks bay).increments fault = counted snapshots bay fault
  /-- While a disk stays in its bay, its counters do not decrease. -/
  monotone : ∀ before after, loadState world.file = .found before →
    loadState next.file = .found after → ∀ bay,
      (before.disks bay).diskId = (after.disks bay).diskId → ∀ fault,
        (before.disks bay).increments fault ≤ (after.disks bay).increments fault
  /-- A failed read leaves the file unchanged. -/
  unread : ∀ env, event = .poll env → env.read = none → next.file = world.file
  /-- After a failed poll nothing is printed about a disk. -/
  silent : log.failed = true → ∀ line ∈ next.collector.metrics, line.perDisk = false

/-- **Every positive change counts once.** After any run of polls and restarts
that begins without a file, whatever reads or saves fail and whichever disks
change places, the increments in the file are the positive changes of the
history, and every further event is faithful to it. -/
theorem increments_faithful (events : List Event) (event : Event) :
    let reached := run step ⟨.missing, .start⟩ events
    Faithful (history reached.2) reached.1 event (step reached.1 event).1
      (step reached.1 event).2 := by
  intro reached
  have exact : Exact (history reached.2) reached.1.file :=
    @run_invariant _ _ _ step (fun logs (world : World) => Exact (history logs) world.file)
      (fun _ _ event here => here.step event) ⟨.missing, .start⟩ (rfl : history [] = []) events
  have stepped := step_stepped reached.1 event
  unfold Exact at exact
  refine ⟨?_, ?_, ?_, ?_, ?_⟩
  · cases found : loadState reached.1.file with
    | fails => simp only [found] at exact
    | absent => exact .inl rfl
    | found state => exact .inr ⟨state, rfl⟩
  · intro state found
    simp only [found] at exact
    exact ⟨exact.last, exact.exact⟩
  · intro before after held holds bay stays fault
    exact increments_le_of_stepped stepped held holds stays fault
  · intro env poll unread
    cases stepped with
    | kept _ _ same => exact same
    | replaced other _ _ _ _ poll' read =>
        obtain rfl := Event.poll.inj (poll.symm.trans poll')
        rw [unread] at read
        cases read
  · intro failed
    refine metrics_perDisk ?_
    cases stepped with
    | kept _ _ _ _ silent => exact silent failed
    | replaced _ _ _ _ _ _ _ _ _ _ silent => exact silent failed

end HomeclusterInfra.NasSmart
