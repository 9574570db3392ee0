import HomeclusterInfra.K3sBackup.Mounts
import HomeclusterInfra.Library.CanonicalJson
import HomeclusterInfra.Library.Raising
import Mathlib.Algebra.Order.BigOperators.Group.List
import Mathlib.Data.UInt

/-!
# Publication of a backup

A backup is encrypted into a temporary file of the destination and renamed to
its final name as the last step of the work. The work is done inside the scope
of a staging directory for the plaintext, and that scope inside one that
removes the temporary file whenever it still has its temporary name.

Any call may fail. The destination is then as it was before, except in two
cases. The staging directory is removed after the rename, and when that fails
the backup raises although it has been published. The temporary file stays
where its removal fails. A name drawn twice replaces the older backup. These
are all exceptions.
-/

set_option autoImplicit false

namespace HomeclusterInfra.K3sBackup

open Text JsonText Raising

/-! ## What a backup meets -/

/-- The calls of a backup that can raise by themselves. -/
inductive Step where
  | dataDirRead | destinationRead | firstValidation | sourcesRead | ageFound | tokenRead | named
  | stagingMade | snapshotCopied | integrityRead | tokenReread | snapshotHashed | secondValidation
  | temporaryMade | streamOpened | ageStarted | archiveOpened | databaseAdded | tokenAdded
  | manifestAdded | archiveClosed | inputClosed | ageWaited | ageKilled | ageReaped | flushed
  | synced | streamClosed | thirdValidation | renamed | stagingRemoved | temporaryRemoved
deriving DecidableEq

/-- What a backup raises: an error of its own, or that of a call. -/
inductive Failure where
  | raised (text : String)
  | failed (step : Step)
deriving DecidableEq

/-- What an age process has written by its end, and its exit status. -/
structure AgeRun where
  output : List UInt8
  exitCode : Int
deriving DecidableEq

/-- Everything outside the script that a backup meets. -/
structure Environment where
  fails : Step → Bool
  dataDirIsDir : Bool
  dataDirIsSymlink : Bool
  destinationIsDir : Bool
  destinationIsSymlink : Bool
  atStart : Host
  beforeWriting : Host
  beforePublishing : Host
  dbIsFile : Bool
  dbIsSymlink : Bool
  tokenIsFile : Bool
  tokenIsSymlink : Bool
  which : List Char → Option (List Char)
  tokenBefore : List UInt8
  tokenAfter : List UInt8
  /-- The copy of the database. -/
  snapshot : List UInt8
  integrity : List (List String)
  sha256 : List UInt8 → List Char
  /-- The time as `strftime` writes it. -/
  created : List Char
  uuid4Hex : List Char
  /-- The random parts of the names that `mkstemp` tries. -/
  randoms : List (List Char)
  tar : List (String × List UInt8) → List UInt8
  age : List Char → List Char → List UInt8 → AgeRun
  /-- What age had written when it was stopped. -/
  stoppedOutput : List UInt8

/-- A file of the destination. -/
structure Entry where
  name : List Char
  inode : Nat
  content : List UInt8
  synced : Bool
deriving DecidableEq

inductive Event where
  | validated
  | ageExited (code : Int)
  | synced
  | renamed
deriving DecidableEq

/-- The destination, what else the backup has open, and what has happened. -/
structure World where
  destination : List Entry
  partialPath : Option (List Char)
  staging : Bool
  ageRunning : Bool
  events : List Event
deriving DecidableEq

abbrev Action (α : Type) :=
  EStateM Failure World α

def World.names (world : World) : List (List Char) :=
  world.destination.map Entry.name

/-- Whether an entry is the temporary file. -/
def World.IsPartial (world : World) (entry : Entry) : Prop :=
  some entry.name = world.partialPath

instance (world : World) : DecidablePred world.IsPartial := fun entry =>
  inferInstanceAs (Decidable (some entry.name = world.partialPath))

def World.log (event : Event) (world : World) : World :=
  { world with events := world.events ++ [event] }

/-- A change of the temporary file. -/
def World.changePartial (change : Entry → Entry) (world : World) : World :=
  { world with
    destination := world.destination.map fun entry =>
      if world.IsPartial entry then { change entry with name := entry.name } else entry }

/-- `open` with `O_EXCL`: a new, empty file. -/
def World.createPartial (name : List Char) (world : World) : World :=
  { world with
    destination := world.destination ++
      [⟨name, (world.destination.map Entry.inode).sum + 1, [], false⟩]
    partialPath := some name }

def World.removePartial (world : World) : World :=
  { world with destination := world.destination.filter fun entry => ¬world.IsPartial entry }

/-! ## The steps -/

namespace Environment

variable (env : Environment)

/-- A call that raises or does nothing to the destination. -/
def call (step : Step) : Action Unit :=
  if env.fails step then throw (.failed step) else pure ()

end Environment

/-- `raise` unless a condition holds. -/
def demand (holds : Bool) (text : String) : Action Unit :=
  if holds then pure () else throw (.raised text)

/-- What a function that only raises does in a backup. -/
def lift (outcome : Except String Unit) : Action Unit :=
  match outcome with
  | .ok _ => pure ()
  | .error text => throw (.raised text)

section Steps

variable (env : Environment) (given : Expected) (recipient ageBin : List Char)

def validate (step : Step) (host : Host) : Action Unit := do
  env.call step
  lift (validateMounts host given)
  modify (World.log .validated)

def isRecipient : Bool :=
  "age1".toList.isPrefixOf recipient && !recipient.any isSpace

def backupName : List Char :=
  "k3s-sqlite-".toList ++ env.created ++ "-".toList ++ env.uuid4Hex.take 12 ++ ".tar.age".toList

def partialName (random : List Char) : List Char :=
  ".k3s-sqlite-".toList ++ random ++ ".partial".toList

/-- What `backup` checks and reads before it writes anything; the result is the
path of age. -/
def checkArguments : Action (List Char) := do
  demand (isRecipient recipient) "expected an age X25519 public recipient"
  env.call .dataDirRead
  demand (env.dataDirIsDir && !env.dataDirIsSymlink) "k3s data directory missing or symlinked"
  env.call .destinationRead
  demand (env.destinationIsDir && !env.destinationIsSymlink)
    "destination directory must exist and must not be a symlink"
  validate env given .firstValidation env.atStart
  env.call .sourcesRead
  demand (env.dbIsFile && env.tokenIsFile && !env.dbIsSymlink && !env.tokenIsSymlink)
    "state.db and server/token must be regular files"
  env.call .ageFound
  demand (env.which ageBin).isSome "age executable unavailable"
  env.call .tokenRead
  demand (!env.tokenBefore.isEmpty) "server token is empty"
  env.call .named
  pure ((env.which ageBin).getD [])

/-- `snapshot_sqlite` -/
def snapshotSqlite : Action Unit := do
  env.call .snapshotCopied
  env.call .integrityRead
  demand (env.integrity == [["ok"]]) "SQLite snapshot integrity_check failed"

/-- What `backup` does in the staging directory before it writes to the destination. -/
def takeSnapshot : Action Unit := do
  snapshotSqlite env
  env.call .tokenReread
  demand (env.tokenAfter == env.tokenBefore) "server token changed during snapshot"
  env.call .snapshotHashed
  validate env given .secondValidation env.beforeWriting

/-- `mkstemp` in the destination. -/
def mkstemp : Action Unit := do
  env.call .temporaryMade
  let world ← get
  match (env.randoms.map partialName).find? fun name => !world.names.contains name with
  | none => throw (.raised "No usable temporary file name found")
  | some name => set (world.createPartial name)

def metadata : Json :=
  .object
    [("schema", .text "k3s-sqlite-backup-v1"),
      ("created_utc", .str env.created),
      ("database", .text "server/db/state.db"),
      ("sqlite_integrity", .text "ok"),
      ("state_db_sha256", .str (env.sha256 env.snapshot)),
      ("server_token_sha256", .str (env.sha256 env.tokenBefore))]

/-- The members of the archive. -/
def members : List (String × List UInt8) :=
  [("state.db", env.snapshot),
    ("token", env.tokenBefore),
    ("manifest.json", asciiBytes (dumps {} (metadata env).sortKeys ++ ['\n']))]

/-- The age process of a backup, on the whole archive. -/
def ageRun (executable : List Char) : AgeRun :=
  env.age executable recipient (env.tar (members env))

/-- What is done with the age process where the writing of the archive raised. -/
def stopAge : Action Unit := do
  let world ← get
  if world.ageRunning then do
    env.call .ageKilled
    modify (World.changePartial fun entry => { entry with content := env.stoppedOutput })
    env.call .ageReaped
  else env.call .ageReaped

/-- The end of the age process. -/
def World.ageEnds (run : AgeRun) (world : World) : World :=
  { (world.changePartial fun entry => { entry with content := run.output }).log
      (.ageExited run.exitCode) with ageRunning := false }

/-- The archive is written to age, which writes to the temporary file. -/
def encrypt (executable : List Char) : Action Unit := do
  env.call .ageStarted
  modify fun world => { world with ageRunning := true }
  onFailure
    (do
      env.call .archiveOpened
      env.call .databaseAdded
      env.call .tokenAdded
      env.call .manifestAdded
      env.call .archiveClosed
      env.call .inputClosed
      env.call .ageWaited
      modify (World.ageEnds (ageRun env recipient executable))
      demand ((ageRun env recipient executable).exitCode == 0) "age encryption failed")
    (stopAge env)
  env.call .flushed
  env.call .synced
  modify fun world => (world.changePartial fun entry => { entry with synced := true }).log .synced

/-- The temporary file is written and closed. -/
def writePartial (executable : List Char) : Action Unit := do
  env.call .streamOpened
  withFinally (encrypt env recipient executable) (env.call .streamClosed)

/-- `rename` of the temporary file to the name of the backup. -/
def rename : Action Unit := do
  env.call .renamed
  let world ← get
  match world.destination.find? fun entry => world.IsPartial entry with
  | none => throw (.raised "No such file or directory")
  | some entry =>
      set { world with
        destination := (world.destination.filter fun other =>
            ¬world.IsPartial other ∧ other.name ≠ backupName env) ++
          [{ entry with name := backupName env }]
        partialPath := none
        events := world.events ++ [Event.renamed] }

/-- The scope of the staging directory. -/
def inStaging {α : Type} (body : Action α) : Action α := do
  env.call .stagingMade
  modify fun world => { world with staging := true }
  withFinally body do
    env.call .stagingRemoved
    modify fun world => { world with staging := false }

/-- `partial.unlink` where there still is a temporary file. -/
def discardPartial : Action Unit := do
  let world ← get
  if world.partialPath.isSome then do
    env.call .temporaryRemoved
    modify World.removePartial
  else pure ()

/-- `backup` -/
def backup : Action (List Char) := do
  modify fun world => { world with partialPath := none }
  let executable ← checkArguments env given recipient ageBin
  withFinally
    (inStaging env do
      takeSnapshot env given
      mkstemp env
      writePartial env recipient executable
      validate env given .thirdValidation env.beforePublishing
      rename env
      pure (backupName env))
    (discardPartial env)

end Steps

/-! ## What the steps leave alone -/

/-- The entries other than the temporary file. -/
def World.others (world : World) : List Entry :=
  world.destination.filter fun entry => ¬world.IsPartial entry

/-- The same temporary file among the same other files. -/
structure SameEntries (before after : World) : Prop where
  partialPath : after.partialPath = before.partialPath
  others : after.others = before.others
  names : after.names = before.names

instance : IsPreorder World SameEntries where
  refl _ := ⟨rfl, rfl, rfl⟩
  trans _ _ _ first second :=
    ⟨second.partialPath.trans first.partialPath, second.others.trans first.others,
      second.names.trans first.names⟩

/-- The files are the same where the directory is. -/
theorem SameEntries.of_eq {before after : World} (partialPath : after.partialPath = before.partialPath)
    (destination : after.destination = before.destination) : SameEntries before after := by
  refine ⟨partialPath, ?_, ?_⟩
  · rw [World.others, World.others, destination]
    refine List.filter_congr fun entry _ => ?_
    refine decide_eq_decide.mpr (not_congr ?_)
    show some entry.name = after.partialPath ↔ some entry.name = before.partialPath
    rw [partialPath]
  · rw [World.names, World.names, destination]

theorem SameEntries.after {before between after : World} (same : SameEntries before between)
    (partialPath : after.partialPath = between.partialPath)
    (destination : after.destination = between.destination) : SameEntries before after :=
  trans_of SameEntries same (SameEntries.of_eq partialPath destination)

theorem sameEntries_changePartial (change : Entry → Entry) (world : World) :
    SameEntries world (world.changePartial change) := by
  refine ⟨rfl, ?_, ?_⟩
  · show (world.destination.map fun entry =>
      if world.IsPartial entry then { change entry with name := entry.name } else entry).filter
        (fun entry => ¬world.IsPartial entry) = world.destination.filter fun entry =>
          ¬world.IsPartial entry
    induction world.destination with
    | nil => rfl
    | cons entry rest ih =>
        rw [List.map_cons, List.filter_cons, List.filter_cons, ih]
        by_cases isPartial : world.IsPartial entry
        · have still : world.IsPartial { change entry with name := entry.name } := isPartial
          simp only [isPartial, still, if_true, not_true_eq_false, decide_false,
            Bool.false_eq_true, if_false]
        · simp only [isPartial, if_false, not_false_eq_true, decide_true, if_true]
  · show (world.destination.map fun entry =>
      if world.IsPartial entry then { change entry with name := entry.name } else entry).map
        Entry.name = world.destination.map Entry.name
    rw [List.map_map]
    refine List.map_congr_left fun entry _ => ?_
    show Entry.name (if _ then _ else _) = _
    split <;> rfl

section Advances

variable (env : Environment) (given : Expected) (recipient ageBin : List Char)

theorem advances_call (step : Step) :
    Advances SameEntries (env.call step) (fun _ => env.fails step = false) () id :=
  (Raising.advances_refuse _).congr (fun _ => Iff.of_eq (Bool.not_eq_true _).symm) fun _ => rfl

theorem advances_demand (holds : Bool) (text : String) :
    Advances SameEntries (demand holds text) (fun _ => holds = true) () id :=
  Raising.advances_demand _

theorem advances_lift (outcome : Except String Unit) :
    Advances SameEntries (lift outcome) (fun _ => outcome = .ok ()) () id where
  returns world works := by
    rw [works]
    rfl
  raises world fails := by
    cases outcome with
    | ok done => exact absurd rfl fails
    | error text => exact ⟨.raised text, world, rfl, refl_of SameEntries world⟩
  moves world _ := refl_of SameEntries world

theorem advances_log (event : Event) :
    Advances SameEntries (modify (World.log event) : Action Unit) (fun _ => True) ()
      (World.log event) :=
  advances_modify fun _ => SameEntries.of_eq rfl rfl

theorem advances_changePartial (change : Entry → Entry) :
    Advances SameEntries (modify (World.changePartial change) : Action Unit) (fun _ => True) ()
      (World.changePartial change) :=
  advances_modify (sameEntries_changePartial change)

theorem advances_validate (step : Step) (host : Host) :
    Advances SameEntries (validate env given step host)
      (fun _ => env.fails step = false ∧ validateMounts host given = .ok ()) ()
      (World.log .validated) := by
  refine Advances.congr ((advances_call env step).bind
    ((advances_lift _).bind (advances_log .validated))) (fun world => ?_) fun world => rfl
  rw [and_true]

/-- The checks before anything is written succeed. -/
structure ArgumentsPass : Prop where
  calls : ∀ step ∈ [Step.dataDirRead, .destinationRead, .firstValidation, .sourcesRead, .ageFound,
    .tokenRead, .named], env.fails step = false
  recipient : isRecipient recipient = true
  dataDir : (env.dataDirIsDir && !env.dataDirIsSymlink) = true
  destination : (env.destinationIsDir && !env.destinationIsSymlink) = true
  mounts : validateMounts env.atStart given = .ok ()
  sources : (env.dbIsFile && env.tokenIsFile && !env.dbIsSymlink && !env.tokenIsSymlink) = true
  age : (env.which ageBin).isSome = true
  token : (!env.tokenBefore.isEmpty) = true

theorem advances_checkArguments :
    Advances SameEntries (checkArguments env given recipient ageBin)
      (fun _ => ArgumentsPass env given recipient ageBin) ((env.which ageBin).getD [])
      (World.log .validated) := by
  refine Advances.congr ((advances_demand _ _).bind ((advances_call env _).bind
    ((advances_demand _ _).bind ((advances_call env _).bind ((advances_demand _ _).bind
    ((advances_validate env given _ _).bind ((advances_call env _).bind
    ((advances_demand _ _).bind ((advances_call env _).bind ((advances_demand _ _).bind
    ((advances_call env _).bind ((advances_demand _ _).bind ((advances_call env _).bind
    (advances_pure _)))))))))))))) (fun world => ?_) fun world => rfl
  constructor
  · intro pass
    have calls := pass.calls
    simp only [List.forall_mem_cons] at calls
    obtain ⟨dataDirRead, destinationRead, firstValidation, sourcesRead, ageFound, tokenRead, named,
      -⟩ := calls
    exact ⟨pass.recipient, dataDirRead, pass.dataDir, destinationRead, pass.destination,
      ⟨firstValidation, pass.mounts⟩, sourcesRead, pass.sources, ageFound, pass.age, tokenRead,
      pass.token, named, trivial⟩
  · rintro ⟨recipient, dataDirRead, dataDir, destinationRead, destination,
      ⟨firstValidation, mounts⟩, sourcesRead, sources, ageFound, age, tokenRead, token, named, -⟩
    refine ⟨?_, recipient, dataDir, destination, mounts, sources, age, token⟩
    simp only [List.forall_mem_cons]
    exact ⟨dataDirRead, destinationRead, firstValidation, sourcesRead, ageFound, tokenRead, named,
      List.forall_mem_nil _⟩

/-- The snapshot is taken and the mounts are still there. -/
structure SnapshotPasses : Prop where
  calls : ∀ step ∈ [Step.snapshotCopied, .integrityRead, .tokenReread, .snapshotHashed,
    .secondValidation], env.fails step = false
  integrity : (env.integrity == [["ok"]]) = true
  token : (env.tokenAfter == env.tokenBefore) = true
  mounts : validateMounts env.beforeWriting given = .ok ()

theorem advances_takeSnapshot :
    Advances SameEntries (takeSnapshot env given) (fun _ => SnapshotPasses env given) ()
      (World.log .validated) := by
  have copies : Advances SameEntries (snapshotSqlite env) (fun _ =>
      env.fails .snapshotCopied = false ∧ env.fails .integrityRead = false ∧
        (env.integrity == [["ok"]]) = true) () id :=
    Advances.congr ((advances_call env _).bind ((advances_call env _).bind (advances_demand _ _)))
      (fun _ => Iff.rfl) fun _ => rfl
  refine Advances.congr (copies.bind ((advances_call env _).bind ((advances_demand _ _).bind
    ((advances_call env _).bind (advances_validate env given _ _))))) (fun world => ?_)
    fun world => rfl
  constructor
  · intro pass
    have calls := pass.calls
    simp only [List.forall_mem_cons] at calls
    obtain ⟨snapshotCopied, integrityRead, tokenReread, snapshotHashed, secondValidation, -⟩ := calls
    exact ⟨⟨snapshotCopied, integrityRead, pass.integrity⟩, tokenReread, pass.token, snapshotHashed,
      secondValidation, pass.mounts⟩
  · rintro ⟨⟨snapshotCopied, integrityRead, integrity⟩, tokenReread, token, snapshotHashed,
      secondValidation, mounts⟩
    refine ⟨?_, integrity, token, mounts⟩
    simp only [List.forall_mem_cons]
    exact ⟨snapshotCopied, integrityRead, tokenReread, snapshotHashed, secondValidation,
      List.forall_mem_nil _⟩

theorem keeps_stopAge : Keeps SameEntries (stopAge env) := by
  intro world
  have stopped : Advances SameEntries (do
      env.call .ageKilled
      modify (World.changePartial fun entry => { entry with content := env.stoppedOutput })
      env.call .ageReaped) (fun _ => env.fails .ageKilled = false ∧ True ∧
        env.fails .ageReaped = false) ()
      (World.changePartial fun entry => { entry with content := env.stoppedOutput }) :=
    Advances.congr ((advances_call env _).bind ((advances_changePartial _).bind
      (advances_call env _))) (fun _ => Iff.rfl) fun _ => rfl
  cases running : world.ageRunning with
  | true =>
      have same : stopAge env world = (do
          env.call .ageKilled
          modify (World.changePartial fun entry => { entry with content := env.stoppedOutput })
          env.call .ageReaped) world := by
        show (if world.ageRunning then _ else _ : Action Unit) world = _
        rw [running, if_pos rfl]
      rw [same]
      exact stopped.cleans world
  | false =>
      have same : stopAge env world = env.call .ageReaped world := by
        show (if world.ageRunning then _ else _ : Action Unit) world = _
        rw [running, if_neg Bool.false_ne_true]
      rw [same]
      exact (advances_call env .ageReaped).cleans world

/-- The archive is written, age ends with status 0 and its output is on the disk. -/
structure Encrypts (executable : List Char) : Prop where
  calls : ∀ step ∈ [Step.streamOpened, .ageStarted, .archiveOpened, .databaseAdded, .tokenAdded,
    .manifestAdded, .archiveClosed, .inputClosed, .ageWaited, .flushed, .synced, .streamClosed],
    env.fails step = false
  exit : ((ageRun env recipient executable).exitCode == 0) = true

/-- The world with the whole output of age in the temporary file. -/
def World.encrypted (run : AgeRun) (world : World) : World :=
  ((World.ageEnds run { world with ageRunning := true }).changePartial fun entry =>
    { entry with synced := true }).log .synced

theorem advances_writePartial (executable : List Char) :
    Advances SameEntries (writePartial env recipient executable)
      (fun _ => Encrypts env recipient executable) ()
      (World.encrypted (ageRun env recipient executable)) := by
  have runs : Advances SameEntries (modify fun world => { world with ageRunning := true } :
      Action Unit) (fun _ => True) () (fun world => { world with ageRunning := true }) :=
    advances_modify fun _ => SameEntries.of_eq rfl rfl
  have ends : Advances SameEntries (modify (World.ageEnds (ageRun env recipient executable)) :
      Action Unit) (fun _ => True) () (World.ageEnds (ageRun env recipient executable)) :=
    advances_modify fun world =>
      (sameEntries_changePartial (fun entry =>
        { entry with content := (ageRun env recipient executable).output }) world).after rfl rfl
  have syncs : Advances SameEntries (modify fun world =>
        (world.changePartial fun entry => { entry with synced := true }).log .synced : Action Unit)
      (fun _ => True) () (fun world =>
        (world.changePartial fun entry => { entry with synced := true }).log .synced) :=
    advances_modify fun world =>
      (sameEntries_changePartial (fun entry => { entry with synced := true }) world).after rfl rfl
  refine Advances.congr ((advances_call env _).bind (Advances.withFinally
    ((advances_call env _).bind (runs.bind ((Advances.onFailure
      ((advances_call env _).bind ((advances_call env _).bind ((advances_call env _).bind
        ((advances_call env _).bind ((advances_call env _).bind ((advances_call env _).bind
        ((advances_call env _).bind (ends.bind (advances_demand _ _)))))))))
      (keeps_stopAge env)).bind ((advances_call env _).bind ((advances_call env _).bind syncs)))))
    (advances_call env _))) (fun world => ?_) fun world => rfl
  constructor
  · intro pass
    have calls := pass.calls
    simp only [List.forall_mem_cons] at calls
    obtain ⟨streamOpened, ageStarted, archiveOpened, databaseAdded, tokenAdded, manifestAdded,
      archiveClosed, inputClosed, ageWaited, flushed, synced, streamClosed, -⟩ := calls
    exact ⟨streamOpened, ⟨ageStarted, trivial, ⟨archiveOpened, databaseAdded, tokenAdded,
      manifestAdded, archiveClosed, inputClosed, ageWaited, trivial, pass.exit⟩, flushed, synced,
      trivial⟩, streamClosed⟩
  · rintro ⟨streamOpened, ⟨ageStarted, -, ⟨archiveOpened, databaseAdded, tokenAdded,
      manifestAdded, archiveClosed, inputClosed, ageWaited, -, exit⟩, flushed, synced, -⟩,
      streamClosed⟩
    refine ⟨?_, exit⟩
    simp only [List.forall_mem_cons]
    exact ⟨streamOpened, ageStarted, archiveOpened, databaseAdded, tokenAdded, manifestAdded,
      archiveClosed, inputClosed, ageWaited, flushed, synced, streamClosed, List.forall_mem_nil _⟩

end Advances

/-! ## The temporary file -/

/-- The temporary file is the last entry, and the only one of its name. -/
structure EndsInPartial (before : List Entry) (entry : Entry) (world : World) : Prop where
  destination : world.destination = before ++ [entry]
  partialPath : world.partialPath = some entry.name
  fresh : entry.name ∉ before.map Entry.name

section Partial

variable {before : List Entry} {entry : Entry} {world : World}

theorem EndsInPartial.isPartial_iff (ends : EndsInPartial before entry world) (other : Entry) :
    world.IsPartial other ↔ other.name = entry.name := by
  show some other.name = world.partialPath ↔ _
  rw [ends.partialPath, Option.some.injEq]

theorem EndsInPartial.not_isPartial (ends : EndsInPartial before entry world) {other : Entry}
    (member : other ∈ before) : ¬world.IsPartial other := fun isPartial =>
  ends.fresh ((ends.isPartial_iff other).mp isPartial ▸ List.mem_map_of_mem member)

theorem EndsInPartial.isPartial (ends : EndsInPartial before entry world) : world.IsPartial entry :=
  (ends.isPartial_iff entry).mpr rfl

theorem EndsInPartial.others (ends : EndsInPartial before entry world) : world.others = before := by
  rw [World.others, ends.destination, List.filter_append,
    List.filter_eq_self.mpr fun other member => decide_eq_true (ends.not_isPartial member),
    List.filter_cons_of_neg (by simp [ends.isPartial]), List.filter_nil, List.append_nil]

/-- Only the temporary file changes. -/
theorem EndsInPartial.changePartial (ends : EndsInPartial before entry world)
    (change : Entry → Entry) : EndsInPartial before { change entry with name := entry.name }
      (world.changePartial change) := by
  refine ⟨?_, ends.partialPath, ends.fresh⟩
  show world.destination.map _ = _
  rw [ends.destination, List.map_append, List.map_singleton, if_pos ends.isPartial]
  refine congrArg (· ++ _) ?_
  refine (List.map_congr_left fun other member => ?_).trans (List.map_id before)
  exact if_neg (ends.not_isPartial member)

theorem EndsInPartial.of_eq (ends : EndsInPartial before entry world) {after : World}
    (destination : after.destination = world.destination)
    (partialPath : after.partialPath = world.partialPath) : EndsInPartial before entry after :=
  ⟨destination.trans ends.destination, partialPath.trans ends.partialPath, ends.fresh⟩

/-- The file that a new temporary file is. -/
def newEntry (name : List Char) (entries : List Entry) : Entry :=
  ⟨name, (entries.map Entry.inode).sum + 1, [], false⟩

theorem endsInPartial_createPartial {name : List Char} (fresh : name ∉ world.names) :
    EndsInPartial world.destination (newEntry name world.destination)
      (world.createPartial name) :=
  ⟨rfl, rfl, fresh⟩

/-- No other file is a new one. -/
theorem newEntry_inode_ne {entries : List Entry} {other : Entry} (member : other ∈ entries)
    (name : List Char) : other.inode ≠ (newEntry name entries).inode := by
  have bounded : other.inode ≤ (entries.map Entry.inode).sum :=
    List.single_le_sum (fun _ _ => Nat.zero_le _) _ (List.mem_map_of_mem member)
  show other.inode ≠ (entries.map Entry.inode).sum + 1
  omega

/-- The output of age is in the temporary file and on the disk. -/
theorem EndsInPartial.encrypted (ends : EndsInPartial before entry world) (run : AgeRun) :
    EndsInPartial before { entry with content := run.output, synced := true }
      (world.encrypted run) := by
  have running : EndsInPartial before entry { world with ageRunning := true } :=
    ends.of_eq rfl rfl
  have written : EndsInPartial before { entry with content := run.output }
      (World.ageEnds run { world with ageRunning := true }) :=
    (running.changePartial fun entry => { entry with content := run.output }).of_eq rfl rfl
  exact (written.changePartial fun entry => { entry with synced := true }).of_eq rfl rfl

end Partial

/-! ## The last steps -/

section Outcome

variable (env : Environment) (given : Expected) (recipient ageBin : List Char)

/-- The archive is encrypted, the mounts are still there, and the rename succeeds. -/
structure Completes (executable : List Char) : Prop where
  encrypts : Encrypts env recipient executable
  validated : env.fails .thirdValidation = false
  mounts : validateMounts env.beforePublishing given = .ok ()
  renamed : env.fails .renamed = false

/-- The destination with a backup in the place of every file of its name. -/
def published (before : List Entry) (inode : Nat) (executable : List Char) : List Entry :=
  (before.filter fun other => other.name ≠ backupName env) ++
    [⟨backupName env, inode, (ageRun env recipient executable).output, true⟩]

theorem rename_of_endsInPartial {before : List Entry} {entry : Entry} {world : World}
    (ends : EndsInPartial before entry world) (works : env.fails .renamed = false) :
    ∃ after, rename env world = .ok () after ∧ after.partialPath = none ∧
      after.destination = (before.filter fun other => other.name ≠ backupName env) ++
        [{ entry with name := backupName env }] ∧
      after.events = world.events ++ [.renamed] := by
  have found : world.destination.find? (fun other => world.IsPartial other) = some entry := by
    rw [ends.destination, List.find?_append, List.find?_eq_none.mpr fun other member isPartial =>
        ends.not_isPartial member (of_decide_eq_true isPartial), Option.none_or]
    exact List.find?_cons_of_pos (decide_eq_true ends.isPartial)
  have others : (world.destination.filter fun other =>
      ¬world.IsPartial other ∧ other.name ≠ backupName env) =
        before.filter fun other => other.name ≠ backupName env := by
    rw [ends.destination, List.filter_append, List.filter_cons_of_neg (by simp [ends.isPartial]),
      List.filter_nil, List.append_nil]
    refine List.filter_congr fun other member => ?_
    rw [decide_eq_decide, and_iff_right (ends.not_isPartial member)]
  rw [rename, bind_of_ok ((advances_call env .renamed).returns world works)]
  refine ⟨{ world with
    destination := (world.destination.filter fun other =>
        ¬world.IsPartial other ∧ other.name ≠ backupName env) ++
      [{ entry with name := backupName env }]
    partialPath := none
    events := world.events ++ [.renamed] }, ?_, rfl, congrArg (· ++ _) others, rfl⟩
  show (match world.destination.find? (fun other => world.IsPartial other) with
    | none => throw (.raised "No such file or directory")
    | some entry => set { world with
        destination := (world.destination.filter fun other =>
            ¬world.IsPartial other ∧ other.name ≠ backupName env) ++
          [{ entry with name := backupName env }]
        partialPath := none
        events := world.events ++ [Event.renamed] } : Action Unit) world = _
  rw [found]
  rfl

/-- What `backup` does once there is a temporary file. -/
def finish (executable : List Char) : Action (List Char) := do
  writePartial env recipient executable
  validate env given .thirdValidation env.beforePublishing
  rename env
  pure (backupName env)

theorem finish_of_completes {executable : List Char}
    (completes : Completes env given recipient executable) {before : List Entry} {entry : Entry}
    {world : World} (ends : EndsInPartial before entry world) :
    ∃ after, finish env given recipient executable world = .ok (backupName env) after ∧
      after.partialPath = none ∧
      after.destination = published env recipient before entry.inode executable ∧
      after.events = world.events ++
        [.ageExited (ageRun env recipient executable).exitCode, .synced, .validated, .renamed] := by
  have encrypted := ends.encrypted (ageRun env recipient executable)
  have logged : EndsInPartial before
      { entry with content := (ageRun env recipient executable).output, synced := true }
      ((world.encrypted (ageRun env recipient executable)).log .validated) :=
    encrypted.of_eq rfl rfl
  obtain ⟨after, run, partialPath, destination, events⟩ :=
    rename_of_endsInPartial env logged completes.renamed
  refine ⟨after, ?_, partialPath, destination, ?_⟩
  · rw [finish, bind_of_ok ((advances_writePartial env recipient executable).returns world
      completes.encrypts), bind_of_ok ((advances_validate env given _ _).returns _
      ⟨completes.validated, completes.mounts⟩), bind_of_ok run]
    rfl
  · rw [events]
    show (((world.events ++ _) ++ _) ++ _) ++ _ = _
    simp only [List.append_assoc, List.cons_append, List.nil_append]

theorem finish_of_not_completes {executable : List Char}
    (fails : ¬Completes env given recipient executable) (world : World) :
    Raised SameEntries world (finish env given recipient executable world) := by
  have writes := advances_writePartial env recipient executable
  have checks := advances_validate env given .thirdValidation env.beforePublishing
  by_cases encrypts : Encrypts env recipient executable
  · rw [finish, bind_of_ok (writes.returns world encrypts)]
    refine Raised.before (writes.moves world encrypts) ?_
    by_cases valid : env.fails .thirdValidation = false ∧
        validateMounts env.beforePublishing given = .ok ()
    · rw [bind_of_ok (checks.returns _ valid)]
      refine Raised.before (checks.moves _ valid) ?_
      have refused := (advances_call env .renamed).raises
        ((world.encrypted (ageRun env recipient executable)).log .validated)
        fun works => fails ⟨encrypts, valid.1, valid.2, works⟩
      exact refused.bind.bind
    · exact (checks.raises _ valid).bind
  · exact (writes.raises world encrypts).bind

/-! ## The first steps -/

/-- One of the names that `mkstemp` tries is free. -/
def NameIsFree (world : World) : Prop :=
  ∃ random ∈ env.randoms, partialName random ∉ world.names

theorem mkstemp_of_free {world : World} (works : env.fails .temporaryMade = false)
    (free : NameIsFree env world) :
    ∃ name, name ∉ world.names ∧ mkstemp env world = .ok () (world.createPartial name) := by
  obtain ⟨random, tried, unused⟩ := free
  have some_free : ((env.randoms.map partialName).find? fun name =>
      !world.names.contains name).isSome = true :=
    List.find?_isSome.mpr ⟨partialName random, List.mem_map_of_mem tried, by simp [unused]⟩
  obtain ⟨name, found⟩ := Option.isSome_iff_exists.mp some_free
  have fresh := List.find?_some found
  refine ⟨name, by simpa using fresh, ?_⟩
  rw [mkstemp, bind_of_ok ((advances_call env .temporaryMade).returns world works)]
  show (match (env.randoms.map partialName).find? fun name => !world.names.contains name with
    | none => throw (.raised "No usable temporary file name found")
    | some name => set (world.createPartial name) : Action Unit) world = _
  rw [found]
  rfl

theorem mkstemp_of_not {world : World}
    (fails : ¬(env.fails .temporaryMade = false ∧ NameIsFree env world)) :
    Raised SameEntries world (mkstemp env world) := by
  by_cases works : env.fails .temporaryMade = false
  · have taken : ((env.randoms.map partialName).find? fun name =>
        !world.names.contains name) = none := by
      refine List.find?_eq_none.mpr fun name tried free => ?_
      obtain ⟨random, member, rfl⟩ := List.mem_map.mp tried
      exact fails ⟨works, random, member, by simpa using free⟩
    rw [mkstemp, bind_of_ok ((advances_call env .temporaryMade).returns world works)]
    refine ⟨.raised "No usable temporary file name found", world, ?_, refl_of SameEntries world⟩
    show (match (env.randoms.map partialName).find? fun name => !world.names.contains name with
      | none => throw (.raised "No usable temporary file name found")
      | some name => set (world.createPartial name) : Action Unit) world = _
    rw [taken]
    rfl
  · exact ((advances_call env .temporaryMade).raises world works).bind

/-- There is a temporary file at some moment. -/
structure Opens (world : World) : Prop where
  arguments : ArgumentsPass env given recipient ageBin
  staging : env.fails .stagingMade = false
  snapshot : SnapshotPasses env given
  temporary : env.fails .temporaryMade = false
  free : NameIsFree env world

/-- What `backup` does in the staging directory. -/
def work (executable : List Char) : Action (List Char) := do
  takeSnapshot env given
  mkstemp env
  finish env given recipient executable

/-- The world in which a backup begins: it has no temporary file. -/
def World.begun (world : World) : World :=
  { world with partialPath := none }

theorem backup_eq (world : World) : backup env given recipient ageBin world =
    (checkArguments env given recipient ageBin >>= fun executable =>
      withFinally (inStaging env (work env given recipient executable)) (discardPartial env))
        world.begun :=
  rfl

/-- The removal of the staging directory. -/
def removeStaging : Action Unit := do
  env.call .stagingRemoved
  modify fun world => { world with staging := false }

theorem advances_removeStaging :
    Advances SameEntries (removeStaging env) (fun _ => env.fails .stagingRemoved = false) ()
      (fun world => { world with staging := false }) := by
  have removed : Advances SameEntries (modify fun world => { world with staging := false } :
      Action Unit) (fun _ => True) () (fun world => { world with staging := false }) :=
    advances_modify fun _ => SameEntries.of_eq rfl rfl
  refine Advances.congr ((advances_call env .stagingRemoved).bind removed) (fun world => ?_)
    fun _ => rfl
  rw [and_true]

theorem inStaging_of_made {α : Type} {body : Action α} (made : env.fails .stagingMade = false)
    (world : World) : inStaging env body world =
      withFinally body (removeStaging env) { world with staging := true } := by
  rw [inStaging, bind_of_ok ((advances_call env .stagingMade).returns world made)]
  rfl

theorem discardPartial_of_none {world : World} (absent : world.partialPath = none) :
    discardPartial env world = .ok () world := by
  show (if world.partialPath.isSome then _ else _ : Action Unit) world = _
  rw [absent]
  rfl

theorem discardPartial_of_some {world : World} {name : List Char}
    (present : world.partialPath = some name) :
    discardPartial env world = if env.fails .temporaryRemoved
      then .error (.failed .temporaryRemoved) world else .ok () world.removePartial := by
  show (if world.partialPath.isSome then (do
    env.call .temporaryRemoved
    modify World.removePartial) else pure () : Action Unit) world = _
  rw [present, Option.isSome_some, if_pos rfl]
  cases fails : env.fails .temporaryRemoved with
  | false =>
      rw [bind_of_ok ((advances_call env .temporaryRemoved).returns world fails)]
      rfl
  | true =>
      show EStateM.bind (env.call .temporaryRemoved) _ world = _
      rw [EStateM.bind, Environment.call, fails]
      rfl

/-- Without a temporary file the other files are all there are. -/
theorem others_of_none {world : World} (absent : world.partialPath = none) :
    world.others = world.destination := by
  refine List.filter_eq_self.mpr fun entry _ => decide_eq_true fun isPartial => ?_
  rw [World.IsPartial, absent] at isPartial
  exact Option.some_ne_none _ isPartial

/-- The world in which the work begins. -/
def World.atWork (world : World) : World :=
  { world.begun.log .validated with staging := true }

theorem backup_of_arguments (arguments : ArgumentsPass env given recipient ageBin) (world : World) :
    backup env given recipient ageBin world =
      withFinally (inStaging env (work env given recipient ((env.which ageBin).getD [])))
        (discardPartial env) (world.begun.log .validated) := by
  rw [backup_eq, bind_of_ok
    ((advances_checkArguments env given recipient ageBin).returns world.begun arguments)]

/-- Before there is a temporary file nothing changes in the destination. -/
theorem backup_of_not_opens {world : World} (fails : ¬Opens env given recipient ageBin world) :
    ∃ failure after, backup env given recipient ageBin world = .error failure after ∧
      after.destination = world.destination := by
  have untouched : ∀ after, SameEntries world.begun after →
      after.partialPath = none ∧ after.destination = world.destination := by
    intro after same
    have absent : after.partialPath = none := same.partialPath
    refine ⟨absent, ?_⟩
    rw [← others_of_none absent, same.others, others_of_none rfl]
    rfl
  by_cases arguments : ArgumentsPass env given recipient ageBin
  · have raised : Raised SameEntries world.begun (inStaging env
        (work env given recipient ((env.which ageBin).getD [])) (world.begun.log .validated)) := by
      by_cases made : env.fails .stagingMade = false
      · rw [inStaging_of_made env made]
        refine Raised.withFinally ?_ (advances_removeStaging env).cleans
        have snapshots := advances_takeSnapshot env given
        refine Raised.before
          (show SameEntries world.begun world.atWork from SameEntries.of_eq rfl rfl) ?_
        by_cases snapshot : SnapshotPasses env given
        · refine Raised.before (snapshots.moves world.atWork snapshot) ?_
          show Raised SameEntries _ (work env given recipient _ world.atWork)
          rw [work, bind_of_ok (snapshots.returns world.atWork snapshot)]
          refine Raised.bind (mkstemp_of_not env ?_)
          rintro ⟨temporary, free⟩
          exact fails ⟨arguments, made, snapshot, temporary, free⟩
        · exact (snapshots.raises world.atWork snapshot).bind
      · refine Raised.before (show SameEntries world.begun (world.begun.log .validated) from
          SameEntries.of_eq rfl rfl) ?_
        exact ((advances_call env .stagingMade).raises _ made).bind
    obtain ⟨failure, after, run, same⟩ := raised
    obtain ⟨absent, destination⟩ := untouched after same
    refine ⟨failure, after, ?_, destination⟩
    rw [backup_of_arguments env given recipient ageBin arguments, withFinally_of_error run,
      discardPartial_of_none env absent]
  · obtain ⟨failure, after, run, same⟩ :=
      (advances_checkArguments env given recipient ageBin).raises world.begun arguments
    refine ⟨failure, after, ?_, (untouched after same).2⟩
    rw [backup_eq, bind_of_error run]

/-- The work once there is a temporary file. -/
theorem work_of_opens {world : World} (opens : Opens env given recipient ageBin world)
    (executable : List Char) :
    ∃ name, name ∉ world.names ∧ work env given recipient executable world.atWork =
      finish env given recipient executable ((world.atWork.log .validated).createPartial name) := by
  obtain ⟨name, fresh, made⟩ := mkstemp_of_free env opens.temporary
    (show NameIsFree env (world.atWork.log .validated) from opens.free)
  refine ⟨name, fresh, ?_⟩
  rw [work, bind_of_ok ((advances_takeSnapshot env given).returns world.atWork opens.snapshot),
    bind_of_ok made]

/-- Before the rename the temporary file is all there is to remove. -/
theorem backup_of_not_completes {world : World} (opens : Opens env given recipient ageBin world)
    (fails : ¬Completes env given recipient ((env.which ageBin).getD [])) :
    ∃ failure after, backup env given recipient ageBin world = .error failure after ∧
      if env.fails .temporaryRemoved
      then after.destination.length = world.destination.length + 1
      else after.destination = world.destination := by
  obtain ⟨name, fresh, run⟩ := work_of_opens env given recipient ageBin opens
    ((env.which ageBin).getD [])
  have begins : EndsInPartial world.destination (newEntry name world.destination)
      ((world.atWork.log .validated).createPartial name) :=
    endsInPartial_createPartial (show name ∉ (world.atWork.log .validated).names from fresh)
  have raised : Raised SameEntries ((world.atWork.log .validated).createPartial name)
      (inStaging env (work env given recipient ((env.which ageBin).getD []))
        (world.begun.log .validated)) := by
    rw [inStaging_of_made env opens.staging]
    refine Raised.withFinally ?_ (advances_removeStaging env).cleans
    show Raised SameEntries _ (work env given recipient _ world.atWork)
    rw [run]
    exact finish_of_not_completes env given recipient fails _
  obtain ⟨failure, after, ends, same⟩ := raised
  have present : after.partialPath = some name := same.partialPath
  have discards := discardPartial_of_some env present
  cases refused : env.fails .temporaryRemoved with
  | true =>
      rw [refused, if_pos rfl] at discards
      refine ⟨.failed .temporaryRemoved, after, ?_, ?_⟩
      · rw [backup_of_arguments env given recipient ageBin opens.arguments,
          withFinally_of_error ends, discards]
      · have names := congrArg List.length same.names
        rw [World.names, World.names, List.length_map, List.length_map, begins.destination,
          List.length_append] at names
        rw [if_pos rfl]
        exact names
  | false =>
      rw [refused, if_neg Bool.false_ne_true] at discards
      refine ⟨failure, after.removePartial, ?_, ?_⟩
      · rw [backup_of_arguments env given recipient ageBin opens.arguments,
          withFinally_of_error ends, discards]
      · rw [if_neg Bool.false_ne_true]
        exact same.others.trans begins.others

/-- After the rename nothing is left to remove but the staging directory. -/
theorem backup_of_completes {world : World} (opens : Opens env given recipient ageBin world)
    (completes : Completes env given recipient ((env.which ageBin).getD [])) :
    ∃ name after, after.destination = published env recipient world.destination
        (newEntry name world.destination).inode ((env.which ageBin).getD []) ∧
      (∃ earlier, after.events = earlier ++ [.ageExited
        (ageRun env recipient ((env.which ageBin).getD [])).exitCode, .synced, .validated,
        .renamed]) ∧
      if env.fails .stagingRemoved
      then backup env given recipient ageBin world = .error (.failed .stagingRemoved) after
      else backup env given recipient ageBin world = .ok (backupName env) after := by
  obtain ⟨name, fresh, run⟩ := work_of_opens env given recipient ageBin opens
    ((env.which ageBin).getD [])
  have begins : EndsInPartial world.destination (newEntry name world.destination)
      ((world.atWork.log .validated).createPartial name) :=
    endsInPartial_createPartial (show name ∉ (world.atWork.log .validated).names from fresh)
  obtain ⟨after, ends, absent, destination, events⟩ :=
    finish_of_completes env given recipient completes begins
  have worked : work env given recipient ((env.which ageBin).getD [])
      { world.begun.log .validated with staging := true } = .ok (backupName env) after :=
    run.trans ends
  rw [backup_of_arguments env given recipient ageBin opens.arguments]
  cases refused : env.fails .stagingRemoved with
  | true =>
      have removal : removeStaging env after = .error (.failed .stagingRemoved) after := by
        refine bind_of_error ?_
        rw [Environment.call, refused]
        rfl
      have staged : inStaging env (work env given recipient ((env.which ageBin).getD []))
          (world.begun.log .validated) = .error (.failed .stagingRemoved) after := by
        rw [inStaging_of_made env opens.staging, withFinally_of_ok worked, removal]
      refine ⟨name, after, destination, ⟨_, events⟩, ?_⟩
      rw [if_pos rfl, withFinally_of_error staged, discardPartial_of_none env absent]
  | false =>
      have removal := (advances_removeStaging env).returns after refused
      have staged : inStaging env (work env given recipient ((env.which ageBin).getD []))
          (world.begun.log .validated) = .ok (backupName env) { after with staging := false } := by
        rw [inStaging_of_made env opens.staging, withFinally_of_ok worked, removal]
      refine ⟨name, { after with staging := false }, destination, ⟨_, events⟩, ?_⟩
      rw [if_neg Bool.false_ne_true, withFinally_of_ok staged]
      have kept : discardPartial env { after with staging := false } =
          .ok () { after with staging := false } := discardPartial_of_none env absent
      rw [kept]

/-! ## Complete or not at all -/

/-- A backup that raises leaves the files of the destination; one that returns
adds a single file, the complete output of an age process that ended with
status 0, and renamed it after it was on the disk and the mounts were checked. -/
def CompleteOrNotAtAll (world : World) : Prop :=
  match backup env given recipient ageBin world with
  | .error _ after => after.destination = world.destination
  | .ok name after =>
      (∃ inode, ∃ executable ∈ env.which ageBin, after.destination = world.destination ++
          [⟨name, inode, (ageRun env recipient executable).output, true⟩] ∧
        (ageRun env recipient executable).exitCode = 0) ∧
      validateMounts env.beforePublishing given = .ok () ∧
      ∃ earlier, after.events = earlier ++ [.ageExited 0, .synced, .validated, .renamed]

/-- The cleanup that is needed succeeds, and a backup that is renamed gets a name of its own. -/
def CleansUp (world : World) : Prop :=
  Opens env given recipient ageBin world →
    (Completes env given recipient ((env.which ageBin).getD []) →
      env.fails .stagingRemoved = false ∧ backupName env ∉ world.names) ∧
    (¬Completes env given recipient ((env.which ageBin).getD []) →
      env.fails .temporaryRemoved = false)

variable {env given recipient ageBin}

theorem published_of_fresh {before : List Entry}
    (fresh : backupName env ∉ before.map Entry.name) (inode : Nat) (executable : List Char) :
    published env recipient before inode executable = before ++
      [⟨backupName env, inode, (ageRun env recipient executable).output, true⟩] := by
  rw [published, List.filter_eq_self.mpr]
  exact fun other member => decide_eq_true fun same => fresh (same ▸ List.mem_map_of_mem member)

/-- A backup that replaces another one adds no file. -/
theorem length_published_le {before : List Entry}
    (taken : backupName env ∈ before.map Entry.name) (inode : Nat) (executable : List Char) :
    (published env recipient before inode executable).length ≤ before.length := by
  obtain ⟨other, member, same⟩ := List.mem_map.mp taken
  have fewer : (before.filter fun other => other.name ≠ backupName env).length < before.length :=
    List.length_filter_lt_length_iff_exists.mpr ⟨other, member, by simp [same]⟩
  rw [published, List.length_append, List.length_singleton]
  omega

/-- A published backup is a file that was not there. -/
theorem published_ne (before : List Entry) (name : List Char) (executable : List Char) :
    published env recipient before (newEntry name before).inode executable ≠ before := by
  intro same
  have member : (⟨backupName env, (newEntry name before).inode,
      (ageRun env recipient executable).output, true⟩ : Entry) ∈
        published env recipient before (newEntry name before).inode executable :=
    List.mem_append_right _ (List.mem_singleton.mpr rfl)
  rw [same] at member
  exact newEntry_inode_ne member name rfl

/-- **A backup is published completely or not at all exactly when its cleanup
succeeds**: the removal of the staging directory after a rename, or else that
of the temporary file. -/
theorem completeOrNotAtAll_iff (env : Environment) (given : Expected)
    (recipient ageBin : List Char) (world : World) :
    CompleteOrNotAtAll env given recipient ageBin world ↔
      CleansUp env given recipient ageBin world := by
  by_cases opens : Opens env given recipient ageBin world
  · by_cases completes : Completes env given recipient ((env.which ageBin).getD [])
    · obtain ⟨name, after, destination, ⟨earlier, events⟩, outcome⟩ :=
        backup_of_completes env given recipient ageBin opens completes
      have exit := beq_iff_eq.mp completes.encrypts.exit
      cases refused : env.fails .stagingRemoved with
      | true =>
          rw [refused, if_pos rfl] at outcome
          rw [CompleteOrNotAtAll, outcome, CleansUp, refused]
          constructor
          · intro same
            exact absurd (destination.symm.trans same) (published_ne _ _ _)
          · intro cleans
            exact absurd (cleans opens).1 fun needs => Bool.noConfusion (needs completes).1
      | false =>
          rw [refused, if_neg Bool.false_ne_true] at outcome
          rw [CompleteOrNotAtAll, outcome, CleansUp, refused]
          constructor
          · rintro ⟨⟨inode, executable, -, added, -⟩, -, -⟩ -
            refine ⟨fun _ => ⟨rfl, fun taken => ?_⟩, fun fails => absurd completes fails⟩
            have shorter : after.destination.length ≤ world.destination.length := by
              rw [destination]
              exact length_published_le taken _ _
            rw [added, List.length_append, List.length_singleton] at shorter
            omega
          · intro cleans
            have found : (env.which ageBin).getD [] ∈ env.which ageBin := by
              obtain ⟨executable, isFound⟩ := Option.isSome_iff_exists.mp opens.arguments.age
              rw [isFound]
              rfl
            have added := destination.trans
              (published_of_fresh ((cleans opens).1 completes).2 _ _)
            refine ⟨⟨_, _, found, added, exit⟩, completes.mounts, earlier, ?_⟩
            rw [events, exit]
    · obtain ⟨failure, after, outcome, destination⟩ :=
        backup_of_not_completes env given recipient ageBin opens completes
      rw [CompleteOrNotAtAll, outcome, CleansUp]
      cases refused : env.fails .temporaryRemoved with
      | true =>
          rw [refused, if_pos rfl] at destination
          constructor
          · intro same
            rw [same] at destination
            omega
          · intro cleans
            exact Bool.noConfusion ((cleans opens).2 completes)
      | false =>
          rw [refused, if_neg Bool.false_ne_true] at destination
          exact iff_of_true destination fun _ =>
            ⟨fun done => absurd done completes, fun _ => rfl⟩
  · obtain ⟨failure, after, outcome, destination⟩ :=
      backup_of_not_opens env given recipient ageBin opens
    rw [CompleteOrNotAtAll, outcome]
    exact iff_of_true destination fun here => absurd here opens

end Outcome

/-! ## A staging directory that stays -/

/-- The mount table of `usualMounts`. -/
def usualMountinfo : String :=
  "20 1 0:2 / / rw - overlay overlay rw\n" ++
    "30 20 8:2 / /var/lib/k3s rw - ext4 /dev/sdb1 rw\n" ++
    "50 20 0:50 / /mnt/backup rw - nfs4 nas:/archive rw\n"

/-- A host on which only the removal of the staging directory fails. -/
def stagingStays : Environment where
  fails step := step == .stagingRemoved
  dataDirIsDir := true
  dataDirIsSymlink := false
  destinationIsDir := true
  destinationIsSymlink := false
  atStart := plainHost usualMountinfo
  beforeWriting := plainHost usualMountinfo
  beforePublishing := plainHost usualMountinfo
  dbIsFile := true
  dbIsSymlink := false
  tokenIsFile := true
  tokenIsSymlink := false
  which name := some ("/usr/bin/".toList ++ name)
  tokenBefore := [75, 49, 48]
  tokenAfter := [75, 49, 48]
  snapshot := [83, 81, 76]
  integrity := [["ok"]]
  sha256 bytes := natText bytes.sum.toNat
  created := "20260701T000000Z".toList
  uuid4Hex := "0123456789abcdef".toList
  randoms := ["a1b2c3d4".toList]
  tar members := (members.map Prod.snd).flatten
  age _ _ input := ⟨input.reverse, 0⟩
  stoppedOutput := []

def emptyDestination : World where
  destination := []
  partialPath := none
  staging := false
  ageRunning := false
  events := []

/-- The files of the destination after a backup that raised. -/
def leftBehind (outcome : EStateM.Result Failure World (List Char)) : List Entry :=
  match outcome with
  | .error _ after => after.destination
  | .ok _ _ => []

theorem CompleteOrNotAtAll.leftBehind_eq {env : Environment} {given : Expected}
    {recipient ageBin : List Char} {world : World} (empty : world.destination = [])
    (complete : CompleteOrNotAtAll env given recipient ageBin world) :
    leftBehind (backup env given recipient ageBin world) = [] := by
  rw [CompleteOrNotAtAll] at complete
  cases run : backup env given recipient ageBin world with
  | error failure after =>
      rw [run] at complete
      exact complete.trans empty
  | ok name after => rfl

theorem leftBehind_stagingStays :
    (leftBehind (backup stagingStays usualBackup "age1qyqszqgp".toList "age".toList
      emptyDestination)).map Entry.synced = [true] := by
  decide +kernel

/-- **A backup that raises may have been published**: the staging directory is
removed after the rename. -/
theorem published_though_raised :
    ¬CompleteOrNotAtAll stagingStays usualBackup "age1qyqszqgp".toList "age".toList
      emptyDestination := by
  refine mt (CompleteOrNotAtAll.leftBehind_eq rfl) fun nothing => ?_
  have entries := leftBehind_stagingStays
  rw [nothing] at entries
  exact absurd entries (by decide)

end HomeclusterInfra.K3sBackup
