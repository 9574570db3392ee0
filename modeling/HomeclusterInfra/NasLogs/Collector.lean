import HomeclusterInfra.NasLogs.Core

/-!
# The collector

`poll_once` reads the state, prepares an outbox when none is pending, delivers
its batches and commits. Every call it makes to the outside may fail; which
ones do is the environment of a poll. A save can fail before or after the new
file has taken the place of the old one.

A poll is logged with the outbox it set out to deliver, the batches it offered
and those that were accepted.
-/

set_option autoImplicit false

namespace HomeclusterInfra.NasLogs

open JsonText Checked

/-! ## The state file -/

/-- What is found at the path of the state: nothing, something that holds no
state (a symlink, an unreadable file, text of another form), or a state written
in a number of bytes. -/
inductive StateFile where
  | missing
  | foreign
  | document (state : State) (bytes : Nat)

/-- `load_state`; nothing when it raises. -/
def loadState : StateFile → Option State
  | .missing => some initialState
  | .foreign => none
  | .document state bytes =>
      if bytes ≤ maxState ∧ (validateState state).isOk then some state else none

/-- How a call of `atomic_save` is disturbed. -/
inductive SaveFault where
  | none | beforeReplace | afterReplace
  deriving DecidableEq

/-- The length of `json.dumps(state, ensure_ascii=False, separators=(',', ':'))`. -/
def savedLength (state : State) : Nat :=
  encodedLength (.compact false) state.toJson

/-- `atomic_save`: the file afterwards, and whether the call returns. -/
def atomicSave (file : StateFile) (state : State) (fault : SaveFault) : StateFile × Bool :=
  if (validateState state).isOk ∧ savedLength state ≤ maxState then
    match fault with
    | .none => (.document state (savedLength state), true)
    | .beforeReplace => (file, false)
    | .afterReplace => (.document state (savedLength state), false)
  else (file, false)

/-! ## Polls -/

/-- The fields of a `Collector` that a poll reads or writes. -/
structure Collector where
  filterNormal : Bool
  state : Option State
  success : Bool
  stateValid : Bool
  pushFailures : Nat
  collectionFailures : Nat

/-- `Collector.__init__` -/
def Collector.start (filterNormal : Bool) : Collector :=
  ⟨filterNormal, none, false, false, 0, 0⟩

/-- What the calls of a poll meet: whether reading the file fails by itself, the
snapshot and the time if they can be had, the disturbance of the two saves, and
for each batch whether the delivery budget is used up before it and whether the
sender returns. -/
structure PollEnv where
  loadFails : Bool
  fetch : Option Snapshot
  clock : Option Int
  saveOutbox : SaveFault
  saveCommit : SaveFault
  late : Nat → Bool
  accepts : Nat → Bool

/-- What a poll set out to deliver, offered to the sender, and saw accepted. -/
structure PollLog where
  pending : Option Outbox
  offered : List Batch
  accepted : List Batch

/-- The log of a poll that offers nothing. -/
def PollLog.quiet : PollLog :=
  ⟨none, [], []⟩

/-- The collector and the state file. -/
structure World where
  file : StateFile
  collector : Collector

/-- The `except` clause of a poll. -/
def Collector.fail (collector : Collector) : Collector :=
  { collector with
    success := false
    stateValid := collector.stateValid && collector.state.isSome
    collectionFailures := collector.collectionFailures + 1 }

/-- The loop over the batches from an index on: those offered, those accepted,
and whether the loop ends without an exception. -/
def deliver (env : PollEnv) : Nat → List Batch → List Batch × List Batch × Bool
  | _, [] => ([], [], true)
  | index, batch :: batches =>
      if env.late index then ([], [], false)
      else if env.accepts index then
        let (offered, accepted, done) := deliver env (index + 1) batches
        (batch :: offered, batch :: accepted, done)
      else ([batch], [], false)

/-- The state a poll begins with: the one in memory, or else the one in the file. -/
def readState (env : PollEnv) (world : World) : Option State :=
  match world.collector.state with
  | some state => some state
  | none => if env.loadFails then none else loadState world.file

variable [Text.UnicodeData] (digest : List UInt8 → String)

/-- The file after the step that makes sure that an outbox is pending, and the
state with the outbox unless the step raises. -/
def ensureOutbox (env : PollEnv) (file : StateFile) (filterNormal : Bool) (state : State) :
    StateFile × Option State :=
  match state.pending with
  | some _ => (file, some state)
  | none =>
      match env.fetch, env.clock with
      | some snapshot, some nowNs =>
          match prepare digest state snapshot nowNs filterNormal with
          | .error _ => (file, none)
          | .ok candidate =>
              match atomicSave file candidate env.saveOutbox with
              | (file, true) => (file, some candidate)
              | (file, false) => (file, none)
      | _, _ => (file, none)

/-- Deliver the batches of an outbox and commit its ledger. -/
def deliverAndCommit (env : PollEnv) (world : World) (outbox : Outbox) : World × PollLog :=
  let (offered, accepted, done) := deliver env 0 outbox.batches
  let log : PollLog := ⟨some outbox, offered, accepted⟩
  if done then
    match atomicSave world.file outbox.next.toState env.saveCommit with
    | (file, true) =>
        (⟨file, { world.collector with state := some outbox.next.toState, success := true }⟩, log)
    | (file, false) => (⟨file, world.collector.fail⟩, log)
  else
    ({ world with collector :=
      { world.collector with pushFailures := world.collector.pushFailures + 1 }.fail }, log)

/-- `Collector.poll_once` -/
def pollOnce (env : PollEnv) (world : World) : World × PollLog :=
  match readState env world with
  | none => ({ world with collector := world.collector.fail }, .quiet)
  | some state =>
      let collector := { world.collector with state := some state, stateValid := true }
      match ensureOutbox digest env world.file collector.filterNormal state with
      | (file, none) => (⟨file, collector.fail⟩, .quiet)
      | (file, some prepared) =>
          let collector := { collector with state := some prepared }
          match prepared.pending with
          | none => (⟨file, collector.fail⟩, .quiet)
          | some outbox => deliverAndCommit env ⟨file, collector⟩ outbox

/-- What happens to the collector: a poll, or a restart of the process. -/
inductive Event where
  | poll (env : PollEnv)
  | restart (filterNormal : Bool)

/-- One event and its log. -/
def step (world : World) : Event → World × PollLog
  | .poll env => pollOnce digest env world
  | .restart filterNormal => ({ world with collector := .start filterNormal }, .quiet)

end HomeclusterInfra.NasLogs
