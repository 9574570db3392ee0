import HomeclusterInfra.Library.Binary64

/-!
# SMART snapshots with durable increments

Every poll reads the persisted state again, takes a snapshot of the four disks
and advances the increments: a disk that is still in its bay adds its positive
changes, another disk begins at zero. A save can fail before or after the new
file has taken the place of the old one, and the next poll finds out which from
the file.

A poll is logged with the snapshot it put into the file, if it did, and with
whether it failed.
-/

set_option autoImplicit false

namespace HomeclusterInfra.NasSmart

open Text

/-! ## Disks -/

/-- The bays of the enclosure. -/
inductive Bay where
  | one | two | three | four
  deriving DecidableEq

namespace Bay

/-- The bays in sorted order. -/
def all : List Bay :=
  [one, two, three, four]

theorem mem_all (bay : Bay) : bay ∈ all := by
  cases bay <;> decide

def name : Bay → String
  | one => "1"
  | two => "2"
  | three => "3"
  | four => "4"

end Bay

/-- `FAULT_ATTRIBUTES` -/
inductive Attribute where
  | id5 | id10 | id184 | id187 | id188 | id191 | id197 | id198 | id199
  deriving DecidableEq

namespace Attribute

/-- The attributes in order. -/
def all : List Attribute :=
  [id5, id10, id184, id187, id188, id191, id197, id198, id199]

theorem mem_all (fault : Attribute) : fault ∈ all := by
  cases fault <;> decide

/-- The number of the attribute. -/
def code : Attribute → Nat
  | id5 => 5
  | id10 => 10
  | id184 => 184
  | id187 => 187
  | id188 => 188
  | id191 => 191
  | id197 => 197
  | id198 => 198
  | id199 => 199

end Attribute

/-- What a snapshot says about one disk. -/
structure Reading where
  diskId : String
  healthy : Bool
  temperature : Nat
  raw : Attribute → Nat

/-- The readings of all bays. -/
abbrev Snapshot := Bay → Reading

/-- A disk of the persisted state. -/
structure Disk extends Reading where
  increments : Attribute → Nat

structure State where
  lastSuccess : Rat
  disks : Bay → Disk

/-- The snapshot in a state. -/
def State.snapshot (state : State) : Snapshot :=
  fun bay => (state.disks bay).toReading

/-- The largest integer a double holds exactly, with all below it. -/
def maxInteger : Nat := 2 ^ 53 - 1

/-- `HEX64` -/
def isHex64 (text : String) : Bool :=
  text.toList.length = 64 && text.toList.all fun char =>
    char.isDigit || ('a' ≤ char && char ≤ 'f')

/-- The bounds of one disk. -/
def Disk.valid (disk : Disk) : Bool :=
  isHex64 disk.diskId && disk.temperature ≤ 150 &&
    Attribute.all.all fun fault =>
      disk.raw fault ≤ maxInteger && disk.increments fault ≤ maxInteger

/-- `validate_state`, of a state with its four bays. -/
def State.valid (state : State) : Bool :=
  0 ≤ state.lastSuccess && (Bay.all.all fun bay => (state.disks bay).valid) &&
    (Bay.all.map fun bay => (state.disks bay).diskId).Nodup

/-- The increments of a disk after a new reading. -/
def advanceDisk (old : Option Disk) (reading : Reading) : Disk where
  toReading := reading
  increments fault :=
    match old with
    | none => 0
    | some old =>
        if old.diskId = reading.diskId then
          old.increments fault + (reading.raw fault - old.raw fault)
        else 0

/-- `advance`; nothing when the new state does not pass its validation. -/
def advance (previous : Option State) (disks : Snapshot) (now : Rat) : Option State :=
  let state : State := ⟨now, fun bay =>
    advanceDisk (previous.map fun state => state.disks bay) (disks bay)⟩
  if state.valid then some state else none

/-! ## The state file -/

/-- What is found at the path of the state: nothing, something that holds no
state (a symlink, an unreadable file, text of another form), or a state. -/
inductive StateFile where
  | missing
  | foreign
  | document (state : State)

/-- What `load_state` returns: an exception, no state, or a state. -/
inductive Loaded where
  | fails
  | absent
  | found (state : State)

/-- `load_state` -/
def loadState : StateFile → Loaded
  | .missing => .absent
  | .foreign => .fails
  | .document state => if state.valid then .found state else .fails

/-- How a call of `save_state` is disturbed. -/
inductive SaveFault where
  | none | beforeReplace | afterReplace
  deriving DecidableEq

/-- Where a call of `save_state` of a valid state ends. -/
structure Saved where
  replaced : Bool
  returned : Bool

/-- `save_state`. A state that is not valid is refused; that the destination is
refused is one more disturbance before the replacement. -/
def saveState (state : State) (fault : SaveFault) : Saved :=
  if state.valid then
    match fault with
    | .none => ⟨true, true⟩
    | .beforeReplace => ⟨false, false⟩
    | .afterReplace => ⟨true, false⟩
  else ⟨false, false⟩

/-! ## Polls -/

/-- The fields of a `Collector` that a poll writes. -/
structure Collector where
  state : Option State
  success : Bool
  stateValid : Bool

/-- `Collector.__init__` -/
def Collector.start : Collector :=
  ⟨none, false, false⟩

/-- What the calls of a poll meet: whether reading the file fails by itself, the
snapshot if it can be had, the time, and the disturbance of the save. -/
structure PollEnv where
  loadFails : Bool
  read : Option Snapshot
  clock : Rat
  save : SaveFault

/-- The snapshot a poll put into the file, and whether the poll failed. -/
structure PollLog where
  persisted : Option Snapshot
  failed : Bool

/-- The collector and the state file. -/
structure World where
  file : StateFile
  collector : Collector

/-- The part of a poll after the state was read. -/
def collect (env : PollEnv) (file : StateFile) (collector : Collector) (previous : Option State) :
    World × PollLog :=
  let reading : Collector := { collector with state := previous, stateValid := true }
  match env.read.bind fun disks => (advance previous disks env.clock).map (disks, ·) with
  | none => (⟨file, { reading with success := false }⟩, ⟨none, true⟩)
  | some (disks, candidate) =>
      let saved := saveState candidate env.save
      let file := if saved.replaced then .document candidate else file
      let persisted := if saved.replaced then some disks else none
      if saved.returned then (⟨file, ⟨some candidate, true, true⟩⟩, ⟨persisted, false⟩)
      else (⟨file, { reading with success := false, stateValid := false }⟩, ⟨persisted, true⟩)

/-- `Collector.poll_once` -/
def pollOnce (env : PollEnv) (world : World) : World × PollLog :=
  -- Re-read persisted state even after a failed save. Never double count a retry.
  match if env.loadFails then .fails else loadState world.file with
  | .fails =>
      ({ world with collector := { world.collector with success := false, stateValid := false } },
        ⟨none, true⟩)
  | .absent => collect env world.file world.collector none
  | .found state => collect env world.file world.collector (some state)

/-- What happens to the collector: a poll, or a restart of the process. -/
inductive Event where
  | poll (env : PollEnv)
  | restart

/-- One event and its log. -/
def step (world : World) : Event → World × PollLog
  | .poll env => pollOnce env world
  | .restart => ({ world with collector := .start }, ⟨none, false⟩)

/-! ## Metrics -/

/-- A line of the metrics: a name with its labels and value, or a comment. -/
inductive MetricLine where
  | sample (name : String) (labels : List (String × String)) (value : List Char)
  | comment (text : String)

/-- Whether a line gives a value of one disk. -/
def MetricLine.perDisk : MetricLine → Bool
  | .sample _ labels _ => labels.any fun label => label.1 = "disk_id"
  | .comment _ => false

/-- An integer that a Boolean stands for. -/
def flagText (flag : Bool) : List Char :=
  if flag then ['1'] else ['0']

/-- The lines of one disk. -/
def diskMetrics (bay : Bay) (disk : Disk) : List MetricLine :=
  let labels := [("bay", bay.name), ("disk_id", disk.diskId)]
  [.sample "nas_smart_disk_healthy" labels (flagText disk.healthy),
    .sample "nas_smart_temperature_celsius" labels (natText disk.temperature)] ++
  Attribute.all.flatMap fun fault =>
    let tag := labels ++ [("attribute_id", String.ofList (natText fault.code))]
    [.sample "nas_smart_attribute_raw" tag (natText (disk.raw fault)),
      .sample "nas_smart_attribute_increments_total" tag (natText (disk.increments fault))]

/-- `Collector.metrics` -/
def Collector.metrics (collector : Collector) : List MetricLine :=
  let lastSuccess := match collector.state with
    | none => ['0']
    | some state => Binary64.reprText state.lastSuccess
  let head : List MetricLine := [
    .sample "nas_smart_collection_success" [] (flagText collector.success),
    .sample "nas_smart_state_valid" [] (flagText collector.stateValid),
    .sample "nas_smart_last_success_timestamp_seconds" [] lastSuccess]
  match collector.success, collector.state with
  | true, some state =>
      head ++ .comment "# TYPE nas_smart_attribute_increments_total counter" ::
        Bay.all.flatMap fun bay => diskMetrics bay (state.disks bay)
  | _, _ => head

end HomeclusterInfra.NasSmart
