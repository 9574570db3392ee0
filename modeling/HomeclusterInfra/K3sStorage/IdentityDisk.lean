import HomeclusterInfra.K3sBackup.Mounts
import HomeclusterInfra.Library.Raising
import HomeclusterInfra.Library.Runs

/-!
# The disk with the node identity

The data directory of k3s stands on a disk of its own, where the node password
survives the reboots of a root filesystem in memory. The role that mounts the
disk formats it where that is allowed and the filesystem is another one, and
copies the password to it.

Two probes of the role may fail without an error, and their answer is then
empty. Where the one for the filesystem type fails, a disk that already has the
identity is formatted. And where the disk is listed at its mount point, the
role does not look at what was mounted over it.
-/

set_option autoImplicit false

namespace HomeclusterInfra.K3sStorage

open K3sBackup MountTree Raising

/-! ## Mount tables -/

/-- A mount table that begins with the root. -/
structure Table where
  mounts : List Mount
  rooted : mounts.head?.map Mount.point = some []

namespace Table

variable (table : Table) (path : Path)

/-- The mount that a path leads to. -/
def reached : Option Mount :=
  resolvedMount path table.mounts

/-- The position of the mount that a path leads to. -/
def index : Nat :=
  MountTree.reached (mountAll (table.mounts.map Mount.point)) path

/-- `os.path.ismount` -/
def isMount : Bool :=
  (table.reached path).any fun mount => mount.point == path

/-- Whether something was mounted on or below the mount that a path leads to. -/
def isBusy : Bool :=
  (table.mounts.drop (table.index path + 1)).any fun mount => path.isPrefixOf mount.point

def mount (mount : Mount) : Table :=
  ⟨table.mounts ++ [mount], by
    have rooted := table.rooted
    cases mounts : table.mounts with
    | nil =>
        rw [mounts] at rooted
        cases rooted
    | cons root rest =>
        rw [mounts] at rooted
        exact rooted⟩

/-- `umount`; the root stays. -/
def unmount : Table :=
  match position : table.index path with
  | 0 => table
  | place + 1 => ⟨table.mounts.eraseIdx (place + 1), by
      have rooted := table.rooted
      cases mounts : table.mounts with
      | nil =>
          rw [mounts] at rooted
          cases rooted
      | cons root rest =>
          rw [mounts] at rooted
          exact rooted⟩

/-- A path leads to what is mounted on it last. -/
theorem reached_mount {mount : Mount} (onPath : mount.point <+: path) :
    (table.mount mount).reached path = some mount := by
  have rooted := (table.mount mount).rooted
  rw [reached, resolvedMount, reachedMount_eq rooted]
  show ((table.mounts ++ [mount]).filter _).getLast? = _
  have kept : [mount].filter (fun mount => decide (mount.point <+: path)) = [mount] :=
    List.filter_cons_of_pos (decide_eq_true onPath)
  rw [List.filter_append, kept, List.getLast?_append, List.getLast?_singleton, Option.some_or]

end Table

/-! ## The role -/

/-- The tasks that can fail by themselves. -/
inductive Task where
  | tools | blockDevice | deviceType | killallStat | killall | unmount | wipefs | mkfs | mountpoint
  | syncScript | dropinDirectory | dependencyDropin | syncDropin | uuid | mount | mountedDataDir
  | scrub | daemonReload | stateDirectory | passwordStat | passwordCopy
deriving DecidableEq

/-- What a run ends with where it does not succeed. -/
inductive Failure where
  | failed (task : Task)
  | asserted (message : List Char)
deriving DecidableEq

/-- What is on the device: the type and the UUID of its filesystem, and the node password. -/
structure Device where
  fstype : Option (List Char)
  uuid : Option (List Char)
  password : Option (List Char)
deriving DecidableEq

/-- The commands that destroy what is on the device. -/
inductive Command where
  | wipefs
  | mkfs
deriving DecidableEq

structure World where
  device : Device
  table : Table
  /-- `/etc/rancher/node/password` -/
  localPassword : Option (List Char)
  executed : List Command

abbrev Action (α : Type) :=
  EStateM Failure World α

def World.changeMounts (change : Table → Table) (world : World) : World :=
  { world with table := change world.table }

/-- The local password on the device. -/
def World.storePassword (world : World) : World :=
  { world with device := { world.device with password := world.localPassword } }

/-- The variables of the role, less the `k3s_local_storage_` of their names. -/
structure Variables where
  enabled : Bool
  /-- As `findmnt` prints it, which follows a link such as one of `/dev/disk/by-id`. -/
  device : List Char
  mountpoint : List Char
  filesystemType : List Char
  mountOptions : List Char
  allowFormat : Bool
  forceFormat : Bool
  ephemeralAgentData : Bool
  wipeSignatures : Bool
  requirePartition : Bool
  killallOnMountChange : Bool
  scrubContainerdOnBoot : Bool
  scrubContainerdConfirm : List Char
  scrubContainerdRequiredConfirm : List Char
  containerdDir : List Char
  nodePasswordSyncEnabled : Bool
  /-- `k3s_agent is defined` -/
  isAgent : Bool

/-- What a run of the role meets on the host. -/
structure Input where
  fails : Task → Bool
  /-- Whether `findmnt -S` lists the mounts of the device; else its output is empty. -/
  findmntAnswers : Bool
  /-- Whether `blkid -s TYPE` tells the type; else its output is empty. -/
  blkidAnswers : Bool
  deviceType : List Char
  killallExists : Bool
  killall : Table → Table
  /-- What a formatting command that failed has left on the device. -/
  damaged : Device
  newUuid : List Char
  /-- The device that a UUID leads to. -/
  byUuid : List Char → List Char
  k3sIsActive : Bool

section Role

variable (vars : Variables) (input : Input)

def call (task : Task) : Action Unit :=
  if input.fails task then throw (.failed task) else pure ()

/-- `assert` -/
def demand (holds : Bool) (message : List Char) : Action Unit :=
  if holds then pure () else throw (.asserted message)

/-- `when` -/
def onlyWhen (condition : Bool) (tasks : Action Unit) : Action Unit :=
  if condition then tasks else pure ()

def dataPath : Path :=
  pathOf vars.mountpoint

/-- `k3s_local_storage_state_dir` -/
def stateDir : Path :=
  dataPath vars ++ [".state".toList]

/-- `k3s_local_storage_existing_mounts` -/
def existingMounts (table : Table) : List Path :=
  if input.findmntAnswers
  then (table.mounts.filter fun mount => mount.source == vars.device).map Mount.point else []

def mountedAtTarget (table : Table) : Bool :=
  (existingMounts vars input table).contains (dataPath vars)

/-- The pattern `^/run/k3s/containerd/`. -/
def isRuntimeMount (path : Path) : Bool :=
  ["run".toList, "k3s".toList, "containerd".toList].isPrefixOf path && path.length > 3

/-- `k3s_local_storage_unexpected_mounts` -/
def unexpectedMounts (table : Table) : List Path :=
  (existingMounts vars input table).filter fun path =>
    path != dataPath vars && !(mountedAtTarget vars input table && isRuntimeMount path)

/-- `k3s_local_storage_blkid_type.stdout | trim` -/
def blkidType (device : Device) : List Char :=
  if input.blkidAnswers then device.fstype.getD [] else []

def effectiveForceFormat : Bool :=
  vars.forceFormat || vars.ephemeralAgentData

def needsFormat (device : Device) : Bool :=
  vars.allowFormat &&
    (effectiveForceFormat vars || blkidType input device != vars.filesystemType)

def needsMountChange (world : World) : Bool :=
  !mountedAtTarget vars input world.table || needsFormat vars input world.device

/-- The required variables. -/
def requiredVariables : Bool :=
  !vars.device.isEmpty && !vars.mountpoint.isEmpty &&
    vars.mountpoint == "/var/lib/rancher/k3s".toList &&
    ["ext4".toList, "f2fs".toList].contains vars.filesystemType && !vars.mountOptions.isEmpty

/-- A path as `findmnt` prints it. -/
def pathText (path : Path) : List Char :=
  if path.isEmpty then ['/'] else (path.map fun name => '/' :: name).flatten

/-- The tasks up to the decision on a format. -/
def checkDevice : Action Unit := do
  demand (requiredVariables vars)
    ("k3s_local_storage_device / mountpoint / filesystem_type / mount_options を" ++
      "定義してください").toList
  demand (!(vars.nodePasswordSyncEnabled && (vars.forceFormat || vars.ephemeralAgentData)))
    ("node password 同期が有効な状態では k3s data-dir の毎回 format を許可しません。" ++
      "identity を保持する設定に変更してください").toList
  demand (!vars.ephemeralAgentData ||
      (vars.isAgent && vars.mountpoint == "/var/lib/rancher/k3s".toList))
    ("k3s_local_storage_ephemeral_agent_data=true は k3s agent の " ++
      "/var/lib/rancher/k3s 専用です").toList
  demand (!vars.scrubContainerdOnBoot ||
      (vars.scrubContainerdConfirm == vars.scrubContainerdRequiredConfirm &&
        vars.containerdDir == vars.mountpoint ++ "/agent/containerd".toList))
    ("containerd scrub には k3s_local_storage_scrub_containerd_confirm=scrub-containerd-state と" ++
      "固定 containerd path が必要です").toList
  call input .tools
  call input .blockDevice
  call input .deviceType
  demand (!vars.requirePartition || input.deviceType == "part".toList)
    (vars.device ++ " は ".toList ++ input.deviceType ++ (" です。kubelet/cAdvisor の " ++
      "imagefs stats が壊れやすいため partition device を指定してください").toList)
  let world ← get
  demand (unexpectedMounts vars input world.table).isEmpty
    (vars.device ++ " は想定外の mountpoint で使用中です: ".toList ++ (", ".toList).intercalate
      ((unexpectedMounts vars input world.table).map pathText))
  demand (blkidType input world.device == vars.filesystemType || vars.allowFormat)
    (vars.device ++ " は ".toList ++ blkidType input world.device ++ " です。".toList ++
      vars.filesystemType ++ " 化するには k3s_local_storage_allow_format=true が必要です".toList)

/-- `k3s-killall.sh`, where it is wanted and exists. -/
def runKillall : Action Unit :=
  onlyWhen vars.killallOnMountChange do
    call input .killallStat
    onlyWhen input.killallExists do
      modify (World.changeMounts input.killall)
      call input .killall

/-- `mount` with `state: unmounted`. -/
def unmountDataDir : Action Unit := do
  call input .unmount
  let world ← get
  onlyWhen (world.table.isMount (dataPath vars)) do
    demand (!world.table.isBusy (dataPath vars)) "target is busy".toList
    modify (World.changeMounts fun table => table.unmount (dataPath vars))

/-- The tasks before the format. -/
def freeDataDir : Action Unit := do
  runKillall vars input
  unmountDataDir vars input

/-- A command that destroys what is on the device and leaves something else there. -/
def destroy (task : Task) (command : Command) (left : Device) : Action Unit := fun world =>
  if input.fails task then
    .error (.failed task)
      { world with executed := world.executed ++ [command], device := input.damaged }
  else .ok () { world with executed := world.executed ++ [command], device := left }

def formatDevice : Action Unit := do
  onlyWhen vars.wipeSignatures (destroy input .wipefs .wipefs ⟨none, none, none⟩)
  destroy input .mkfs .mkfs ⟨some vars.filesystemType, some input.newUuid, none⟩

/-- The tasks between the format and the mount. -/
def prepareService : Action Unit := do
  call input .mountpoint
  onlyWhen vars.nodePasswordSyncEnabled (call input .syncScript)
  call input .dropinDirectory
  call input .dependencyDropin
  call input .syncDropin

/-- The UUID of the filesystem on the device. -/
def readUuid : Action (List Char) := do
  call input .uuid
  let world ← get
  match world.device.uuid with
  | none => throw (.failed .uuid)
  | some uuid => pure uuid

/-- `mount` with `state: ephemeral`: another source at the mount point is an error,
the same one is mounted again. -/
def mountDataDir (uuid : List Char) : Action Unit := do
  call input .mount
  let world ← get
  if world.table.isMount (dataPath vars) then
    demand ((world.table.reached (dataPath vars)).any fun mount =>
      mount.source == input.byUuid uuid) "mounted with a different source".toList
  else modify (World.changeMounts fun table =>
    table.mount ⟨dataPath vars, vars.filesystemType, input.byUuid uuid⟩)

/-- Whether a path leads to the device. -/
def leadsToDevice (table : Table) (path : Path) : Bool :=
  (table.reached path).any fun mount => mount.source == vars.device

/-- The node password is copied to the state directory, wherever that is. -/
def copyPassword : Action Unit := do
  call input .stateDirectory
  call input .passwordStat
  let world ← get
  onlyWhen world.localPassword.isSome do
    call input .passwordCopy
    onlyWhen (leadsToDevice vars world.table (stateDir vars))
      (modify World.storePassword)

/-- The tasks after the mount. -/
def finish : Action Unit := do
  call input .mountedDataDir
  onlyWhen vars.scrubContainerdOnBoot do
    demand (!input.k3sIsActive) "service が active のため containerd scrub を中止します".toList
    call input .scrub
  call input .daemonReload
  onlyWhen vars.nodePasswordSyncEnabled (copyPassword vars input)

/-- The tasks of the role; what it decides it decides on the probes of its start. -/
def role : Action Unit :=
  onlyWhen vars.enabled do
    checkDevice vars input
    let start ← get
    onlyWhen (needsMountChange vars input start) (freeDataDir vars input)
    onlyWhen (needsFormat vars input start.device) (formatDevice vars input)
    prepareService vars input
    let uuid ← readUuid input
    onlyWhen (needsMountChange vars input start) (mountDataDir vars input uuid)
    finish vars input

end Role

/-! ## What the tasks leave alone -/

/-- Nothing was formatted. -/
structure Preserves (before after : World) : Prop where
  executed : after.executed = before.executed
  fstype : after.device.fstype = before.device.fstype
  localPassword : after.localPassword = before.localPassword

instance : IsPreorder World Preserves where
  refl _ := ⟨rfl, rfl, rfl⟩
  trans _ _ _ first second :=
    ⟨second.executed.trans first.executed, second.fstype.trans first.fstype,
      second.localPassword.trans first.localPassword⟩

section Advances

variable (vars : Variables) (input : Input)

theorem advances_call (task : Task) :
    Advances Preserves (call input task) (fun _ => input.fails task = false) () id :=
  (Raising.advances_refuse _).congr (fun _ => Iff.of_eq (Bool.not_eq_true _).symm) fun _ => rfl

theorem advances_demand (holds : Bool) (message : List Char) :
    Advances Preserves (demand holds message) (fun _ => holds = true) () id :=
  Raising.advances_demand _

/-- Tasks that are left out succeed and change nothing. -/
theorem advances_onlyWhen (condition : Bool) {tasks : Action Unit} {holds : World → Prop}
    {update : World → World} (advances : Advances Preserves tasks holds () update) :
    Advances Preserves (onlyWhen condition tasks) (fun world => condition = true → holds world) ()
      (fun world => if condition then update world else world) := by
  cases condition with
  | true =>
      exact advances.congr (fun world => ⟨fun here => here rfl, fun here _ => here⟩) fun _ => rfl
  | false =>
      exact (advances_pure ()).congr
        (fun world => iff_of_true (fun never => Bool.noConfusion never) trivial) fun _ => rfl

/-- The tasks up to the decision on a format succeed. -/
structure ChecksPass (world : World) : Prop where
  calls : ∀ task ∈ [Task.tools, .blockDevice, .deviceType], input.fails task = false
  required : requiredVariables vars = true
  identity : (!(vars.nodePasswordSyncEnabled &&
    (vars.forceFormat || vars.ephemeralAgentData))) = true
  agent : (!vars.ephemeralAgentData ||
    (vars.isAgent && vars.mountpoint == "/var/lib/rancher/k3s".toList)) = true
  scrub : (!vars.scrubContainerdOnBoot ||
    (vars.scrubContainerdConfirm == vars.scrubContainerdRequiredConfirm &&
      vars.containerdDir == vars.mountpoint ++ "/agent/containerd".toList)) = true
  partition : (!vars.requirePartition || input.deviceType == "part".toList) = true
  expected : (unexpectedMounts vars input world.table).isEmpty = true
  allowed : (blkidType input world.device == vars.filesystemType || vars.allowFormat) = true

theorem advances_changeMounts (change : Table → Table) :
    Advances Preserves (modify (World.changeMounts change) : Action Unit) (fun _ => True) ()
      (World.changeMounts change) :=
  advances_modify fun _ => ⟨rfl, rfl, rfl⟩

theorem advances_checkDevice :
    Advances Preserves (checkDevice vars input) (ChecksPass vars input) () id := by
  refine Advances.congr ((advances_demand _ _).bind ((advances_demand _ _).bind
    ((advances_demand _ _).bind ((advances_demand _ _).bind ((advances_call input _).bind
    ((advances_call input _).bind ((advances_call input _).bind ((advances_demand _ _).bind
    (Advances.get fun world => (advances_demand _ _).bind (advances_demand _ _))))))))))
    (fun world => ?_) fun _ => rfl
  constructor
  · intro pass
    have calls := pass.calls
    simp only [List.forall_mem_cons] at calls
    obtain ⟨tools, blockDevice, deviceType, -⟩ := calls
    exact ⟨pass.required, pass.identity, pass.agent, pass.scrub, tools, blockDevice, deviceType,
      pass.partition, pass.expected, pass.allowed⟩
  · rintro ⟨required, identity, agent, scrub, tools, blockDevice, deviceType, part, expected,
      allowed⟩
    refine ⟨?_, required, identity, agent, scrub, part, expected, allowed⟩
    simp only [List.forall_mem_cons]
    exact ⟨tools, blockDevice, deviceType, List.forall_mem_nil _⟩

/-- The mounts when the containers are stopped. -/
def killed (table : Table) : Table :=
  if vars.killallOnMountChange then if input.killallExists then input.killall table else table
  else table

/-- The mounts when the data directory has been unmounted once. -/
def freed (table : Table) : Table :=
  if (killed vars input table).isMount (dataPath vars)
  then (killed vars input table).unmount (dataPath vars) else killed vars input table

/-- The tasks before the format succeed. -/
structure Frees (world : World) : Prop where
  killallStat : vars.killallOnMountChange = true → input.fails .killallStat = false
  killall : vars.killallOnMountChange = true → input.killallExists = true →
    input.fails .killall = false
  unmount : input.fails .unmount = false
  idle : (killed vars input world.table).isMount (dataPath vars) = true →
    (!(killed vars input world.table).isBusy (dataPath vars)) = true

theorem advances_freeDataDir :
    Advances Preserves (freeDataDir vars input) (Frees vars input) ()
      (World.changeMounts (freed vars input)) := by
  have stops : Advances Preserves (runKillall vars input) (fun _ =>
      vars.killallOnMountChange = true → input.fails .killallStat = false ∧
        (input.killallExists = true → input.fails .killall = false)) ()
      (World.changeMounts (killed vars input)) := by
    refine Advances.congr (advances_onlyWhen _ ((advances_call input _).bind
      (advances_onlyWhen _ ((advances_changeMounts input.killall).bind (advances_call input _)))))
      (fun world => ?_) fun world => ?_
    · simp only [true_and]
    · show World.changeMounts _ world = _
      rw [World.changeMounts, killed]
      split
      · split <;> rfl
      · rfl
  refine Advances.congr (stops.bind ((advances_call input _).bind (Advances.get fun world =>
    advances_onlyWhen _ ((advances_demand _ _).bind
      (advances_changeMounts fun table => table.unmount (dataPath vars))))))
    (fun world => ?_) fun world => ?_
  · constructor
    · intro frees
      exact ⟨fun wanted => ⟨frees.killallStat wanted, frees.killall wanted⟩, frees.unmount,
        fun mounted => ⟨frees.idle mounted, trivial⟩⟩
    · rintro ⟨stop, unmount, idle⟩
      exact ⟨fun wanted => (stop wanted).1, fun wanted => (stop wanted).2, unmount,
        fun mounted => (idle mounted).1⟩
  · show _ = if (killed vars input world.table).isMount (dataPath vars) then _ else _
    rw [World.changeMounts, freed]
    split <;> rfl

/-- The tasks from the format to the mount succeed. -/
structure Prepares : Prop where
  calls : ∀ task ∈ [Task.mountpoint, .dropinDirectory, .dependencyDropin, .syncDropin],
    input.fails task = false
  syncScript : vars.nodePasswordSyncEnabled = true → input.fails .syncScript = false

theorem advances_prepareService :
    Advances Preserves (prepareService vars input) (fun _ => Prepares vars input) () id := by
  refine Advances.congr ((advances_call input _).bind ((advances_onlyWhen _
    (advances_call input _)).bind ((advances_call input _).bind ((advances_call input _).bind
    (advances_call input _))))) (fun world => ?_) fun world => ?_
  · constructor
    · intro prepares
      have calls := prepares.calls
      simp only [List.forall_mem_cons] at calls
      obtain ⟨mountpoint, dropinDirectory, dependencyDropin, syncDropin, -⟩ := calls
      exact ⟨mountpoint, prepares.syncScript, dropinDirectory, dependencyDropin, syncDropin⟩
    · rintro ⟨mountpoint, syncScript, dropinDirectory, dependencyDropin, syncDropin⟩
      refine ⟨?_, syncScript⟩
      simp only [List.forall_mem_cons]
      exact ⟨mountpoint, dropinDirectory, dependencyDropin, syncDropin, List.forall_mem_nil _⟩
  · show world = if vars.nodePasswordSyncEnabled then world else world
    rw [ite_self]

/-- The mount succeeds, or what is already mounted has the same source. -/
structure Mounts (uuid : List Char) (table : Table) : Prop where
  call : input.fails .mount = false
  same : table.isMount (dataPath vars) = true →
    ((table.reached (dataPath vars)).any fun mount => mount.source == input.byUuid uuid) = true

/-- The mounts when the data directory has been mounted. -/
def mounted (uuid : List Char) (table : Table) : Table :=
  if table.isMount (dataPath vars) then table
  else table.mount ⟨dataPath vars, vars.filesystemType, input.byUuid uuid⟩

theorem advances_mountDataDir (uuid : List Char) :
    Advances Preserves (mountDataDir vars input uuid)
      (fun world => Mounts vars input uuid world.table) ()
      (World.changeMounts (mounted vars input uuid)) := by
  have chooses : ∀ start : World, Advances Preserves
      (if start.table.isMount (dataPath vars) then
        demand ((start.table.reached (dataPath vars)).any fun mount =>
          mount.source == input.byUuid uuid) "mounted with a different source".toList
      else modify (World.changeMounts fun table =>
        table.mount ⟨dataPath vars, vars.filesystemType, input.byUuid uuid⟩) : Action Unit)
      (fun _ => start.table.isMount (dataPath vars) = true →
        ((start.table.reached (dataPath vars)).any fun mount =>
          mount.source == input.byUuid uuid) = true) ()
      (fun world => if start.table.isMount (dataPath vars) then world else
        world.changeMounts fun table =>
          table.mount ⟨dataPath vars, vars.filesystemType, input.byUuid uuid⟩) := by
    intro start
    cases start.table.isMount (dataPath vars) with
    | true =>
        exact (advances_demand _ _).congr
          (fun world => ⟨fun here => here rfl, fun here _ => here⟩) fun _ => rfl
    | false =>
        exact (advances_changeMounts _).congr
          (fun world => iff_of_true (fun never => Bool.noConfusion never) trivial) fun _ => rfl
  refine Advances.congr ((advances_call input .mount).bind (Advances.get chooses))
    (fun world => ?_) fun world => ?_
  · exact ⟨fun mounts => ⟨mounts.call, mounts.same⟩, fun both => ⟨both.1, both.2⟩⟩
  · show _ = if world.table.isMount (dataPath vars) then world else _
    rw [World.changeMounts, mounted]
    split <;> rfl

/-- The password when it has been copied. -/
def copied (world : World) : World :=
  if world.localPassword.isSome then
    if leadsToDevice vars world.table (stateDir vars) then world.storePassword else world
  else world

/-- The tasks after the mount succeed. -/
structure Finishes (world : World) : Prop where
  calls : ∀ task ∈ [Task.mountedDataDir, .daemonReload], input.fails task = false
  scrub : vars.scrubContainerdOnBoot = true →
    (!input.k3sIsActive) = true ∧ input.fails .scrub = false
  copies : vars.nodePasswordSyncEnabled = true → input.fails .stateDirectory = false ∧
    input.fails .passwordStat = false ∧
      (world.localPassword.isSome = true → input.fails .passwordCopy = false)

theorem advances_finish :
    Advances Preserves (finish vars input) (Finishes vars input) ()
      (fun world => if vars.nodePasswordSyncEnabled then copied vars world else world) := by
  have stores : Advances Preserves (modify World.storePassword : Action Unit) (fun _ => True) ()
      World.storePassword :=
    advances_modify fun _ => ⟨rfl, rfl, rfl⟩
  have copies : Advances Preserves (copyPassword vars input) (fun world =>
      input.fails .stateDirectory = false ∧ input.fails .passwordStat = false ∧
        (world.localPassword.isSome = true → input.fails .passwordCopy = false)) ()
      (copied vars) := by
    refine Advances.congr ((advances_call input _).bind ((advances_call input _).bind
      (Advances.get fun start => advances_onlyWhen _ ((advances_call input _).bind
        (advances_onlyWhen _ stores))))) (fun world => ?_) fun world => rfl
    simp only [implies_true, and_true, id_eq]
  refine Advances.congr ((advances_call input _).bind ((advances_onlyWhen _
    ((advances_demand _ _).bind (advances_call input _))).bind ((advances_call input _).bind
    (advances_onlyWhen _ copies)))) (fun world => ?_) fun world => ?_
  · constructor
    · intro finishes
      have calls := finishes.calls
      simp only [List.forall_mem_cons] at calls
      obtain ⟨mountedDataDir, daemonReload, -⟩ := calls
      refine ⟨mountedDataDir, finishes.scrub, daemonReload, fun sync => ?_⟩
      show _ ∧ _ ∧ ((if vars.scrubContainerdOnBoot then world else world).localPassword.isSome =
        true → _)
      rw [ite_self]
      exact finishes.copies sync
    · rintro ⟨mountedDataDir, scrub, daemonReload, copies⟩
      refine ⟨?_, scrub, fun sync => ?_⟩
      · simp only [List.forall_mem_cons]
        exact ⟨mountedDataDir, daemonReload, List.forall_mem_nil _⟩
      · have copies : _ ∧ _ ∧ ((if vars.scrubContainerdOnBoot then world else
          world).localPassword.isSome = true → _) := copies sync
        rw [ite_self] at copies
        exact copies
  · show _ = if vars.nodePasswordSyncEnabled then
      copied vars (if vars.scrubContainerdOnBoot then world else world) else
        (if vars.scrubContainerdOnBoot then world else world)
    rw [ite_self]

/-- What follows the reading of the UUID. -/
theorem advances_readUuid {next : List Char → Action Unit} {holds : List Char → World → Prop}
    {update : List Char → World → World}
    (advances : ∀ uuid, Advances Preserves (next uuid) (holds uuid) () (update uuid)) :
    Advances Preserves (readUuid input >>= next) (fun world => input.fails .uuid = false ∧
      ∃ uuid, world.device.uuid = some uuid ∧ holds uuid world) ()
      (fun world => update (world.device.uuid.getD []) world) := by
  have reads : ∀ world, input.fails .uuid = false → ∀ uuid, world.device.uuid = some uuid →
      readUuid input world = .ok uuid world := by
    intro world works uuid present
    rw [readUuid, bind_of_ok ((advances_call input .uuid).returns world works)]
    show (match world.device.uuid with
      | none => throw (.failed .uuid)
      | some uuid => pure uuid : Action (List Char)) world = _
    rw [present]
    rfl
  refine ⟨?_, ?_, ?_⟩
  · rintro world ⟨works, uuid, present, here⟩
    rw [bind_of_ok (reads world works uuid present), (advances uuid).returns world here, present]
    rfl
  · intro world fails
    by_cases works : input.fails .uuid = false
    · cases present : world.device.uuid with
      | none =>
          refine Raised.bind ⟨.failed .uuid, world, ?_, refl_of Preserves world⟩
          rw [readUuid, bind_of_ok ((advances_call input .uuid).returns world works)]
          show (match world.device.uuid with
            | none => throw (.failed .uuid)
            | some uuid => pure uuid : Action (List Char)) world = _
          rw [present]
          rfl
      | some uuid =>
          rw [bind_of_ok (reads world works uuid present)]
          exact (advances uuid).raises world fun here => fails ⟨works, uuid, present, here⟩
    · exact (((advances_call input .uuid).raises world works).bind).bind
  · rintro world ⟨works, uuid, present, here⟩
    rw [present]
    exact (advances uuid).moves world here

/-- The tasks after the format. -/
def mountAndFinish (change : Bool) : Action Unit := do
  prepareService vars input
  let uuid ← readUuid input
  onlyWhen change (mountDataDir vars input uuid)
  finish vars input

/-- The tasks after the format succeed. -/
structure Succeeds (change : Bool) (world : World) : Prop where
  prepares : Prepares vars input
  reads : input.fails .uuid = false
  mounts : ∃ uuid, world.device.uuid = some uuid ∧
    (change = true → Mounts vars input uuid world.table)
  finishes : Finishes vars input world

/-- The world after a run, from the one after the format. -/
def World.finished (change : Bool) (world : World) : World :=
  let mounted := if change
    then world.changeMounts (mounted vars input (world.device.uuid.getD [])) else world
  if vars.nodePasswordSyncEnabled then copied vars mounted else mounted

theorem advances_mountAndFinish (change : Bool) :
    Advances Preserves (mountAndFinish vars input change) (Succeeds vars input change) ()
      (World.finished vars input change) := by
  have ends : ∀ uuid, Advances Preserves (onlyWhen change (mountDataDir vars input uuid) >>=
      fun _ => finish vars input) (fun world =>
        (change = true → Mounts vars input uuid world.table) ∧ Finishes vars input world) ()
      (fun world => if vars.nodePasswordSyncEnabled
        then copied vars (if change then world.changeMounts (mounted vars input uuid) else world)
        else if change then world.changeMounts (mounted vars input uuid) else world) := by
    intro uuid
    refine Advances.congr ((advances_onlyWhen change (advances_mountDataDir vars input uuid)).bind
      (advances_finish vars input)) (fun world => and_congr_right fun _ => ?_) fun world => rfl
    cases change with
    | true => exact ⟨fun here => ⟨here.calls, here.scrub, here.copies⟩,
        fun here => ⟨here.calls, here.scrub, here.copies⟩⟩
    | false => exact Iff.rfl
  refine Advances.congr ((advances_prepareService vars input).bind (advances_readUuid input ends))
    (fun world => ?_) fun world => rfl
  constructor
  · rintro ⟨prepares, reads, ⟨uuid, present, mounts⟩, finishes⟩
    exact ⟨prepares, reads, uuid, present, mounts, finishes⟩
  · rintro ⟨prepares, reads, uuid, present, mounts, finishes⟩
    exact ⟨prepares, reads, ⟨uuid, present, mounts⟩, finishes⟩

end Advances

/-! ## One run -/

section Runs

variable (vars : Variables) (input : Input)

/-- The world that a run leaves behind. -/
def left (outcome : EStateM.Result Failure World Unit) : World :=
  match outcome with
  | .ok _ after => after
  | .error _ after => after

/-- The run gets as far as the format. -/
def Formats (world : World) : Prop :=
  ChecksPass vars input world ∧ Frees vars input world ∧
    needsFormat vars input world.device = true

/-- The commands of the format succeed. -/
structure FormatSucceeds : Prop where
  wipefs : vars.wipeSignatures = true → input.fails .wipefs = false
  mkfs : input.fails .mkfs = false

/-- The world after the format. -/
def World.formatted (world : World) : World :=
  { world with
    executed := (if vars.wipeSignatures then world.executed ++ [Command.wipefs]
      else world.executed) ++ [.mkfs]
    device := ⟨some vars.filesystemType, some input.newUuid, none⟩ }

theorem destroy_of_works {task : Task} (works : input.fails task = false) (command : Command)
    (left : Device) (world : World) : destroy input task command left world =
      .ok () { world with executed := world.executed ++ [command], device := left } := by
  rw [destroy, works]
  rfl

/-- A command that fails was executed all the same. -/
theorem destroy_of_fails {task : Task} (fails : input.fails task = true) (command : Command)
    (left : Device) (world : World) :
    ∃ after, destroy input task command left world = .error (.failed task) after ∧
      after.executed ≠ [] := by
  rw [destroy, fails]
  exact ⟨_, rfl, List.append_ne_nil_of_right_ne_nil _ (List.cons_ne_nil _ _)⟩

theorem onlyWhen_true (tasks : Action Unit) : onlyWhen true tasks = tasks :=
  rfl

theorem onlyWhen_false (tasks : Action Unit) : onlyWhen false tasks = pure () :=
  rfl

theorem formatDevice_of_succeeds (succeeds : FormatSucceeds vars input) (world : World) :
    formatDevice vars input world = .ok () (world.formatted vars input) := by
  rw [formatDevice, World.formatted]
  cases wiped : vars.wipeSignatures with
  | true =>
      rw [onlyWhen_true, bind_of_ok (destroy_of_works input (succeeds.wipefs wiped) _ _ world),
        destroy_of_works input succeeds.mkfs]
      rfl
  | false =>
      rw [onlyWhen_false, pure_bind, destroy_of_works input succeeds.mkfs]
      rfl

theorem formatDevice_of_fails (fails : ¬FormatSucceeds vars input) (world : World) :
    ∃ failure after, formatDevice vars input world = .error failure after ∧
      after.executed ≠ [] := by
  rw [formatDevice]
  have mkfs_of : (vars.wipeSignatures = true → input.fails .wipefs = false) →
      input.fails .mkfs = true := fun wipefs =>
    (Bool.not_eq_false _).mp fun works => fails ⟨wipefs, works⟩
  cases wanted : vars.wipeSignatures with
  | true =>
      rw [onlyWhen_true]
      cases wipefs : input.fails .wipefs with
      | true =>
          obtain ⟨after, run, executed⟩ := destroy_of_fails input wipefs .wipefs
            ⟨none, none, none⟩ world
          exact ⟨_, after, bind_of_error run, executed⟩
      | false =>
          rw [bind_of_ok (destroy_of_works input wipefs _ _ world)]
          obtain ⟨after, run, executed⟩ := destroy_of_fails input (mkfs_of fun _ => wipefs) .mkfs
            ⟨some vars.filesystemType, some input.newUuid, none⟩ _
          exact ⟨_, after, run, executed⟩
  | false =>
      rw [onlyWhen_false, pure_bind]
      have never : vars.wipeSignatures = true → input.fails .wipefs = false := by
        rw [wanted]
        exact fun wrong => Bool.noConfusion wrong
      obtain ⟨after, run, executed⟩ := destroy_of_fails input (mkfs_of never) .mkfs
        ⟨some vars.filesystemType, some input.newUuid, none⟩ world
      exact ⟨_, after, run, executed⟩

/-! ## The whole run -/

/-- The mounts before the last mount, if there is one. -/
def settled (world : World) : Table :=
  if needsMountChange vars input world then freed vars input world.table else world.table

/-- The world before the tasks after the format. -/
def World.prepared (world : World) : World :=
  let settles := { world with table := settled vars input world }
  if needsFormat vars input world.device then settles.formatted vars input else settles

/-- All tasks succeed. -/
structure RunsToEnd (world : World) : Prop where
  checks : ChecksPass vars input world
  frees : needsMountChange vars input world = true → Frees vars input world
  formats : needsFormat vars input world.device = true → FormatSucceeds vars input
  succeeds : Succeeds vars input (needsMountChange vars input world) (world.prepared vars input)

/-- The world after a run that succeeds. -/
def World.ended (world : World) : World :=
  (world.prepared vars input).finished vars input (needsMountChange vars input world)

/-- The tasks after the first probes. -/
def changeDevice (start : World) : Action Unit := do
  onlyWhen (needsMountChange vars input start) (freeDataDir vars input)
  onlyWhen (needsFormat vars input start.device) (formatDevice vars input)
  mountAndFinish vars input (needsMountChange vars input start)

theorem role_eq (enabled : vars.enabled = true) : role vars input =
    checkDevice vars input >>= fun _ => get >>= fun start => changeDevice vars input start := by
  rw [role, enabled]
  rfl

theorem role_of_checks (enabled : vars.enabled = true) {world : World}
    (checks : ChecksPass vars input world) :
    role vars input world = changeDevice vars input world world := by
  rw [role_eq vars input enabled, bind_of_ok ((advances_checkDevice vars input).returns world
    checks)]
  rfl

theorem needsMountChange_of_needsFormat {world : World}
    (format : needsFormat vars input world.device = true) :
    needsMountChange vars input world = true := by
  rw [needsMountChange, format, Bool.or_true]

/-- The step that frees the data directory, where that is needed. -/
theorem changeDevice_of_frees {world : World}
    (frees : needsMountChange vars input world = true → Frees vars input world) :
    changeDevice vars input world world =
      (onlyWhen (needsFormat vars input world.device) (formatDevice vars input) >>= fun _ =>
        mountAndFinish vars input (needsMountChange vars input world))
          { world with table := settled vars input world } := by
  have advances := advances_onlyWhen (needsMountChange vars input world)
    (advances_freeDataDir vars input)
  rw [changeDevice, bind_of_ok (advances.returns world frees), settled]
  split <;> rfl

theorem role_of_runsToEnd (enabled : vars.enabled = true) {world : World}
    (runs : RunsToEnd vars input world) :
    role vars input world = .ok () (world.ended vars input) := by
  have succeeds := (advances_mountAndFinish vars input (needsMountChange vars input world)).returns
    (world.prepared vars input) runs.succeeds
  rw [role_of_checks vars input enabled runs.checks, changeDevice_of_frees vars input runs.frees]
  cases format : needsFormat vars input world.device with
  | true =>
      have prepared : world.prepared vars input =
          World.formatted vars input { world with table := settled vars input world } := by
        rw [World.prepared, format]
        rfl
      rw [onlyWhen_true, bind_of_ok (formatDevice_of_succeeds vars input (runs.formats format) _),
        ← prepared, succeeds]
      rfl
  | false =>
      have prepared : world.prepared vars input =
          { world with table := settled vars input world } := by
        rw [World.prepared, format]
        rfl
      rw [onlyWhen_false, pure_bind, ← prepared, succeeds]
      rfl

/-- A run that fails has executed a command exactly where it gets to the format. -/
theorem role_of_not_runsToEnd (enabled : vars.enabled = true) {world : World}
    (fails : ¬RunsToEnd vars input world) :
    ∃ failure after, role vars input world = .error failure after ∧
      (Formats vars input world → after.executed ≠ []) ∧
      (¬Formats vars input world → Preserves world after) := by
  by_cases checks : ChecksPass vars input world
  · rw [role_of_checks vars input enabled checks]
    by_cases frees : needsMountChange vars input world = true → Frees vars input world
    · rw [changeDevice_of_frees vars input frees]
      have finishes := advances_mountAndFinish vars input (needsMountChange vars input world)
      cases format : needsFormat vars input world.device with
      | true =>
          have formats : Formats vars input world :=
            ⟨checks, frees (needsMountChange_of_needsFormat vars input format), format⟩
          rw [onlyWhen_true]
          by_cases works : FormatSucceeds vars input
          · have prepared : world.prepared vars input =
                World.formatted vars input { world with table := settled vars input world } := by
              rw [World.prepared, format]
              rfl
            rw [bind_of_ok (formatDevice_of_succeeds vars input works _), ← prepared]
            obtain ⟨failure, after, run, same⟩ := finishes.raises (world.prepared vars input)
              fun succeeds => fails ⟨checks, frees, fun _ => works, succeeds⟩
            refine ⟨failure, after, run, fun _ => ?_, fun never => absurd formats never⟩
            rw [same.executed, prepared]
            exact List.append_ne_nil_of_right_ne_nil _ (List.cons_ne_nil _ _)
          · obtain ⟨failure, after, run, executed⟩ := formatDevice_of_fails vars input works
              { world with table := settled vars input world }
            exact ⟨failure, after, bind_of_error run, fun _ => executed,
              fun never => absurd formats never⟩
      | false =>
          have prepared : world.prepared vars input =
              { world with table := settled vars input world } := by
            rw [World.prepared, format]
            rfl
          rw [onlyWhen_false, pure_bind, ← prepared]
          obtain ⟨failure, after, run, same⟩ := finishes.raises (world.prepared vars input)
            fun succeeds => fails
              ⟨checks, frees, fun needed => Bool.noConfusion (format.symm.trans needed), succeeds⟩
          rw [prepared] at same
          exact ⟨failure, after, run, fun formats => Bool.noConfusion (format.symm.trans formats.2.2),
            fun _ => ⟨same.executed, same.fstype, same.localPassword⟩⟩
    · obtain ⟨failure, after, run, same⟩ := (advances_onlyWhen (needsMountChange vars input world)
        (advances_freeDataDir vars input)).raises world frees
      refine ⟨failure, after, bind_of_error run, fun formats => absurd (fun _ => formats.2.1) frees,
        fun _ => same⟩
  · obtain ⟨failure, after, run, same⟩ :=
      (advances_checkDevice vars input).raises world checks
    refine ⟨failure, after, ?_, fun formats => absurd formats.1 checks, fun _ => same⟩
    rw [role_eq vars input enabled, bind_of_error run]

/-- Commands are executed exactly by a run that gets to the format. -/
theorem executed_eq_nil_iff (enabled : vars.enabled = true) {world : World}
    (fresh : world.executed = []) :
    (left (role vars input world)).executed = [] ↔ ¬Formats vars input world := by
  by_cases runs : RunsToEnd vars input world
  · have same := ((advances_mountAndFinish vars input
      (needsMountChange vars input world)).moves (world.prepared vars input) runs.succeeds).executed
    rw [role_of_runsToEnd vars input enabled runs]
    show (world.ended vars input).executed = [] ↔ _
    rw [World.ended, same, World.prepared]
    cases format : needsFormat vars input world.device with
    | true =>
        refine iff_of_false (List.append_ne_nil_of_right_ne_nil _ (List.cons_ne_nil _ _)) ?_
        exact not_not_intro ⟨runs.checks,
          runs.frees (needsMountChange_of_needsFormat vars input format), format⟩
    | false =>
        exact iff_of_true fresh fun formats => Bool.noConfusion (format.symm.trans formats.2.2)
  · obtain ⟨failure, after, run, executed, same⟩ := role_of_not_runsToEnd vars input enabled runs
    rw [run]
    show after.executed = [] ↔ _
    by_cases formats : Formats vars input world
    · exact iff_of_false (executed formats) (not_not_intro formats)
    · exact iff_of_true ((same formats).executed.trans fresh) formats

/-! ## What a run leaves behind -/

theorem filesystemType_ne_nil {world : World} (checks : ChecksPass vars input world) :
    vars.filesystemType ≠ [] := by
  intro empty
  have required := checks.required
  rw [requiredVariables, empty] at required
  simp at required

/-- The probe tells the type of the device only where it answers. -/
theorem fstype_of_blkidType {world : World} (checks : ChecksPass vars input world)
    (told : blkidType input world.device = vars.filesystemType) :
    input.blkidAnswers = true ∧ world.device.fstype = some vars.filesystemType := by
  have named := filesystemType_ne_nil vars input checks
  rw [blkidType] at told
  cases answers : input.blkidAnswers with
  | false =>
      rw [answers] at told
      exact absurd told.symm named
  | true =>
      rw [answers, if_pos rfl] at told
      cases fstype : world.device.fstype with
      | none =>
          rw [fstype] at told
          exact absurd told.symm named
      | some name =>
          rw [fstype] at told
          exact ⟨rfl, congrArg some told⟩

/-- With the password synchronised, the format is never forced. -/
theorem effectiveForceFormat_eq_false (sync : vars.nodePasswordSyncEnabled = true) {world : World}
    (checks : ChecksPass vars input world) : effectiveForceFormat vars = false := by
  have identity := checks.identity
  rw [sync, Bool.true_and] at identity
  exact Bool.not_eq_true' _ ▸ identity

theorem needsFormat_eq (sync : vars.nodePasswordSyncEnabled = true) {world : World}
    (checks : ChecksPass vars input world) : needsFormat vars input world.device =
      (vars.allowFormat && blkidType input world.device != vars.filesystemType) := by
  rw [needsFormat, effectiveForceFormat_eq_false vars input sync checks, Bool.false_or]

/-- A run that succeeds leaves the configured filesystem on the device. -/
theorem fstype_ended (sync : vars.nodePasswordSyncEnabled = true) {world : World}
    (runs : RunsToEnd vars input world) :
    (world.ended vars input).device.fstype = some vars.filesystemType := by
  have same := ((advances_mountAndFinish vars input
    (needsMountChange vars input world)).moves (world.prepared vars input) runs.succeeds).fstype
  rw [World.ended, same, World.prepared]
  cases format : needsFormat vars input world.device with
  | true => rfl
  | false =>
      have allowed := runs.checks.allowed
      rw [needsFormat_eq vars input sync runs.checks] at format
      refine (fstype_of_blkidType vars input runs.checks ?_).2
      cases allow : vars.allowFormat with
      | true =>
          rw [allow, Bool.true_and, bne_eq_false_iff_eq] at format
          exact format
      | false =>
          rw [allow, Bool.or_false, beq_iff_eq] at allowed
          exact allowed

/-- Whether the data directory is on the device, with the configured filesystem. -/
def isOnDevice (table : Table) : Bool :=
  (table.reached (dataPath vars)).any fun mount =>
    mount.source == vars.device && mount.fstype == vars.filesystemType

/-- The UUID that the role mounts. -/
def mountedUuid (world : World) : List Char :=
  (world.prepared vars input).device.uuid.getD []

/-- Where the role mounts the data directory, the UUID leads to the device; where it
does not, the path leads to the device already, and so does that of a password. -/
def KeepsDisk (world : World) : Prop :=
  if needsMountChange vars input world && !(settled vars input world).isMount (dataPath vars)
  then input.byUuid (mountedUuid vars input world) = vars.device
  else isOnDevice vars (settled vars input world) = true ∧
    (world.localPassword.isSome = true →
      leadsToDevice vars (settled vars input world) (stateDir vars) = true)

theorem table_prepared (world : World) :
    (world.prepared vars input).table = settled vars input world := by
  rw [World.prepared]
  show (if needsFormat vars input world.device then World.formatted vars input _ else _).table = _
  split <;> rfl

theorem table_copied (world : World) : (copied vars world).table = world.table := by
  rw [copied]
  split
  · split <;> rfl
  · rfl

theorem table_ended (world : World) : (world.ended vars input).table =
    if needsMountChange vars input world
    then mounted vars input (mountedUuid vars input world) (settled vars input world)
    else settled vars input world := by
  have finishes : (world.ended vars input).table =
      (if needsMountChange vars input world then (world.prepared vars input).changeMounts
        (mounted vars input (mountedUuid vars input world)) else world.prepared vars input).table := by
    rw [World.ended, World.finished, mountedUuid]
    show (if vars.nodePasswordSyncEnabled then copied vars _ else _).table = _
    split
    · exact table_copied vars _
    · rfl
  rw [finishes, ← table_prepared]
  split <;> rfl

/-- What is mounted on the data directory is above the state directory. -/
theorem dataPath_prefix_stateDir : dataPath vars <+: stateDir vars :=
  List.prefix_append _ _

theorem localPassword_ended {world : World} (runs : RunsToEnd vars input world) :
    (world.ended vars input).localPassword = world.localPassword := by
  have same := ((advances_mountAndFinish vars input
    (needsMountChange vars input world)).moves (world.prepared vars input)
      runs.succeeds).localPassword
  rw [World.ended, same, World.prepared]
  show (if needsFormat vars input world.device then World.formatted vars input _
    else _).localPassword = _
  split <;> rfl

/-- The mounts that a run leaves are right exactly where it kept the disk. -/
theorem isOnDevice_ended_iff (world : World) :
    (isOnDevice vars (world.ended vars input).table = true ∧ (world.localPassword.isSome = true →
      leadsToDevice vars (world.ended vars input).table (stateDir vars) = true)) ↔
        KeepsDisk vars input world := by
  rw [table_ended, KeepsDisk]
  cases needsMountChange vars input world with
  | false => exact Iff.rfl
  | true =>
      rw [if_pos rfl, mounted]
      cases (settled vars input world).isMount (dataPath vars) with
      | true => exact Iff.rfl
      | false =>
          show (isOnDevice vars (Table.mount _ _) = true ∧
            (_ → leadsToDevice vars (Table.mount _ _) _ = true)) ↔ _ = _
          rw [isOnDevice, leadsToDevice, Table.reached_mount _ _ (List.prefix_refl _),
            Table.reached_mount _ _ (dataPath_prefix_stateDir vars)]
          simp only [Option.any_some, beq_self_eq_true, Bool.and_true, beq_iff_eq]
          exact ⟨fun both => both.1, fun same => ⟨same, fun _ => same⟩⟩

/-- The password is on the device when its path leads there. -/
theorem password_ended (sync : vars.nodePasswordSyncEnabled = true) {world : World}
    (runs : RunsToEnd vars input world) (present : world.localPassword.isSome = true)
    (leads : leadsToDevice vars (world.ended vars input).table (stateDir vars) = true) :
    (world.ended vars input).device.password = world.localPassword := by
  have ends : ∃ before, world.ended vars input = copied vars before := by
    rw [World.ended, World.finished, sync]
    exact ⟨_, rfl⟩
  obtain ⟨before, ended⟩ := ends
  have same := localPassword_ended vars input runs
  have kept : (copied vars before).localPassword = before.localPassword := by
    rw [copied]
    split
    · split <;> rfl
    · rfl
  rw [ended, kept] at same
  rw [ended, table_copied] at leads
  rw [ended, copied, if_pos (same ▸ present), if_pos leads]
  exact same

/-! ## Histories -/

/-- The device and the host between two runs. -/
structure State where
  device : Device
  table : Table
  localPassword : Option (List Char)
  /-- Whether a run has succeeded that stored the node password on the device. -/
  kept : Bool

/-- A boot with its mounts, k3s at work, or a run of the role. -/
inductive Event where
  | boot (table : Table) (localPassword : Option (List Char))
  | k3s (password localPassword : Option (List Char))
  | run (input : Input)

/-- The host at the start of a run. -/
def State.world (state : State) : World :=
  ⟨state.device, state.table, state.localPassword, []⟩

/-- Whether a run succeeded and stored the node password on the device. -/
def stores (outcome : EStateM.Result Failure World Unit) : Bool :=
  match outcome with
  | .ok _ after => after.localPassword.isSome && leadsToDevice vars after.table (stateDir vars)
  | .error _ _ => false

def advance (state : State) : Event → State
  | .boot table localPassword => { state with table := table, localPassword := localPassword }
  | .k3s password localPassword =>
      { state with
        device := { state.device with password := password }
        localPassword := localPassword }
  | .run input =>
      { device := (left (role vars input state.world)).device
        table := (left (role vars input state.world)).table
        localPassword := (left (role vars input state.world)).localPassword
        kept := state.kept || stores vars (role vars input state.world) }

/-- Once the password has been kept no run executes a command that destroys it;
a run succeeds only with the data directory on the device, and the password there. -/
def Safe (state : State) : Event → Prop
  | .run input =>
      (state.kept = true → (left (role vars input state.world)).executed = []) ∧
      ∀ after, role vars input state.world = .ok () after →
        isOnDevice vars after.table = true ∧ (after.localPassword.isSome = true →
          leadsToDevice vars after.table (stateDir vars) = true ∧
            after.device.password = after.localPassword)
  | _ => True

/-- Once the password has been kept, a run that may format and gets that far is
told the type of the device; and a run that succeeds keeps the disk. -/
def Meets (state : State) : Event → Prop
  | .run input =>
      (state.kept = true → ChecksPass vars input state.world → Frees vars input state.world →
        vars.allowFormat = true → input.blkidAnswers = true) ∧
      (RunsToEnd vars input state.world → KeepsDisk vars input state.world)
  | _ => True

/-- A disk that keeps the password has the configured filesystem. -/
def Formatted (state : State) : Prop :=
  state.kept = true → state.device.fstype = some vars.filesystemType

/-- A run gets to the format of a formatted disk exactly where the probe is silent. -/
theorem formats_iff (sync : vars.nodePasswordSyncEnabled = true) {world : World}
    (formatted : world.device.fstype = some vars.filesystemType) :
    Formats vars input world ↔ ChecksPass vars input world ∧ Frees vars input world ∧
      vars.allowFormat = true ∧ input.blkidAnswers = false := by
  refine and_congr_right fun checks => and_congr_right fun _ => ?_
  rw [needsFormat_eq vars input sync checks, Bool.and_eq_true]
  refine and_congr_right fun _ => ?_
  rw [blkidType, formatted, bne_iff_ne]
  cases input.blkidAnswers with
  | true => exact iff_of_false (fun differs => differs rfl) Bool.noConfusion
  | false => exact iff_of_true (filesystemType_ne_nil vars input checks).symm rfl

theorem safe_iff (enabled : vars.enabled = true) (sync : vars.nodePasswordSyncEnabled = true)
    {state : State} (formatted : Formatted vars state) (event : Event) :
    Safe vars state event ↔ Meets vars state event := by
  cases event with
  | boot => exact Iff.rfl
  | k3s => exact Iff.rfl
  | run input =>
      refine and_congr ?_ ?_
      · refine forall_congr' fun kept => ?_
        rw [executed_eq_nil_iff vars input enabled rfl, formats_iff vars input sync (formatted kept)]
        constructor
        · intro never checks frees allow
          exact (Bool.not_eq_false _).mp fun silent => never ⟨checks, frees, allow, silent⟩
        · rintro told ⟨checks, frees, allow, silent⟩
          exact Bool.noConfusion (silent.symm.trans (told checks frees allow))
      · constructor
        · intro right runs
          have ends := role_of_runsToEnd vars input enabled runs
          obtain ⟨onDevice, stored⟩ := right _ ends
          rw [← isOnDevice_ended_iff, ← localPassword_ended vars input runs]
          exact ⟨onDevice, fun present => (stored present).1⟩
        · intro keeps after ends
          have runs : RunsToEnd vars input state.world := by
            refine Classical.byContradiction fun fails => ?_
            obtain ⟨failure, other, run, -⟩ := role_of_not_runsToEnd vars input enabled fails
            rw [ends] at run
            cases run
          have same := role_of_runsToEnd vars input enabled runs
          rw [ends] at same
          cases same
          obtain ⟨onDevice, leads⟩ := (isOnDevice_ended_iff vars input state.world).mpr (keeps runs)
          rw [localPassword_ended vars input runs]
          exact ⟨onDevice, fun present => ⟨leads present,
            password_ended vars input sync runs present (leads present)⟩⟩

/-- A safe step leaves the disk formatted. -/
theorem formatted_advance (enabled : vars.enabled = true)
    (sync : vars.nodePasswordSyncEnabled = true) {state : State} {event : Event}
    (formatted : Formatted vars state) (safe : Safe vars state event) :
    Formatted vars (advance vars state event) := by
  cases event with
  | boot => exact formatted
  | k3s => exact formatted
  | run input =>
      intro kept
      by_cases runs : RunsToEnd vars input state.world
      · show (left (role vars input state.world)).device.fstype = _
        rw [role_of_runsToEnd vars input enabled runs]
        exact fstype_ended vars input sync runs
      · obtain ⟨failure, after, run, -, same⟩ := role_of_not_runsToEnd vars input enabled runs
        have before : state.kept = true := by
          have either : (state.kept || stores vars (role vars input state.world)) = true := kept
          rw [run] at either
          exact (Bool.or_false _).symm.trans either
        have never := (executed_eq_nil_iff vars input enabled rfl).mp (safe.1 before)
        show (left (role vars input state.world)).device.fstype = _
        rw [run]
        exact (same never).fstype.trans (formatted before)

/-- **The disk keeps the identity over a history** exactly where no silent probe
meets the permission to format once the password is there, and each run that
succeeds without a mount finds the data directory on the disk. -/
theorem identity_kept_iff (enabled : vars.enabled = true)
    (sync : vars.nodePasswordSyncEnabled = true) (device : Device) (table : Table)
    (localPassword : Option (List Char)) (history : List Event) :
    Runs.EachStep (advance vars) (Safe vars) ⟨device, table, localPassword, false⟩ history ↔
      Runs.EachStep (advance vars) (Meets vars) ⟨device, table, localPassword, false⟩ history := by
  have begins : Formatted vars ⟨device, table, localPassword, false⟩ := fun wrong =>
    Bool.noConfusion wrong
  have agrees : ∀ state event, Formatted vars state → (Safe vars state event ↔
      Meets vars state event) := fun state event formatted =>
    safe_iff vars enabled sync formatted event
  constructor
  · intro safe
    refine (Runs.eachStep_congr (Formatted vars) (fun state event formatted admitted => ?_)
      (fun state event formatted _ => agrees state event formatted) begins safe).mp safe
    exact formatted_advance vars enabled sync formatted admitted
  · intro meets
    refine (Runs.eachStep_congr (Formatted vars) (fun state event formatted admitted => ?_)
      (fun state event formatted _ => agrees state event formatted) begins meets).mpr meets
    exact formatted_advance vars enabled sync formatted ((agrees state event formatted).mpr admitted)

end Runs

/-! ## Two histories -/

/-- A disk that may be formatted. -/
def usualVariables : Variables where
  enabled := true
  device := "/dev/sda1".toList
  mountpoint := "/var/lib/rancher/k3s".toList
  filesystemType := "ext4".toList
  mountOptions := "defaults".toList
  allowFormat := true
  forceFormat := false
  ephemeralAgentData := false
  wipeSignatures := true
  requirePartition := true
  killallOnMountChange := true
  scrubContainerdOnBoot := false
  scrubContainerdConfirm := []
  scrubContainerdRequiredConfirm := "scrub-containerd-state".toList
  containerdDir := "/var/lib/rancher/k3s/agent/containerd".toList
  nodePasswordSyncEnabled := true
  isAgent := true

/-- A host on which everything works. -/
def answering : Input where
  fails _ := false
  findmntAnswers := true
  blkidAnswers := true
  deviceType := "part".toList
  killallExists := false
  killall := id
  damaged := ⟨none, none, none⟩
  newUuid := "5678".toList
  byUuid _ := "/dev/sda1".toList
  k3sIsActive := false

def formattedDisk : Device :=
  ⟨some "ext4".toList, some "1234".toList, none⟩

def rootMount : Mount :=
  ⟨[], "overlay".toList, "overlay".toList⟩

/-- A run keeps the password, k3s writes another one, and two boots follow with a run each. -/
def usualHistory : List Event :=
  [.run answering, .k3s (some ['L']) (some ['L']), .boot ⟨[rootMount], rfl⟩ none, .run answering,
    .boot ⟨[rootMount], rfl⟩ (some ['L']), .run answering]

theorem identity_kept_iff_usual :
    Runs.EachStep (advance usualVariables) (Safe usualVariables)
        ⟨formattedDisk, ⟨[rootMount], rfl⟩, some ['K'], false⟩ usualHistory ∧
      (usualHistory.foldl (advance usualVariables)
        ⟨formattedDisk, ⟨[rootMount], rfl⟩, some ['K'], false⟩).device.password = some ['L'] := by
  refine ⟨(identity_kept_iff usualVariables rfl rfl _ _ _ _).mpr ⟨⟨?_, fun _ => ?_⟩, trivial,
    trivial, ⟨fun _ _ _ _ => rfl, fun _ => ?_⟩, trivial, ⟨fun _ _ _ _ => rfl, fun _ => ?_⟩,
    trivial⟩, by decide +kernel⟩
  · exact fun wrong => Bool.noConfusion wrong
  · rw [KeepsDisk, if_pos (by decide +kernel)]
    rfl
  · rw [KeepsDisk, if_pos (by decide +kernel)]
    rfl
  · rw [KeepsDisk, if_pos (by decide +kernel)]
    rfl

/-- The state after a run on a host on which everything works. -/
def keptState : State :=
  advance usualVariables ⟨formattedDisk, ⟨[rootMount], rfl⟩, some ['K'], false⟩ (.run answering)

/-- The disk is mounted, and a filesystem in memory over it. -/
def stackedTable : Table :=
  ⟨[rootMount, ⟨pathOf "/var/lib/rancher/k3s".toList, "ext4".toList, "/dev/sda1".toList⟩,
    ⟨pathOf "/var/lib/rancher/k3s".toList, "tmpfs".toList, "tmpfs".toList⟩], rfl⟩

/-- The run succeeds, and the data directory is elsewhere. -/
def succeedsElsewhere (outcome : EStateM.Result Failure World Unit) : Bool :=
  match outcome with
  | .ok _ after => !isOnDevice usualVariables after.table
  | .error _ _ => false

theorem Safe.not_succeedsElsewhere {state : State} {input : Input}
    (safe : Safe usualVariables state (.run input)) :
    succeedsElsewhere (role usualVariables input state.world) = false := by
  cases run : role usualVariables input state.world with
  | error failure after => rfl
  | ok done after =>
      show (!isOnDevice usualVariables after.table) = false
      rw [(safe.2 after run).1]
      rfl

/-- **A silent probe formats the disk with the identity, and a mount over the data
directory is not noticed.** -/
theorem identity_not_kept :
    ¬Runs.EachStep (advance usualVariables) (Safe usualVariables)
      ⟨formattedDisk, ⟨[rootMount], rfl⟩, some ['K'], false⟩
      [.run answering, .run { answering with blkidAnswers := false }] ∧
    ¬Runs.EachStep (advance usualVariables) (Safe usualVariables)
      ⟨formattedDisk, stackedTable, some ['K'], false⟩ [.run answering] := by
  constructor
  · have kept : keptState.kept = true := by decide +kernel
    have destroyed : (left (role usualVariables { answering with blkidAnswers := false }
        keptState.world)).executed = [.wipefs, .mkfs] := by
      decide +kernel
    rintro ⟨-, ⟨never, -⟩, -⟩
    exact absurd (destroyed.symm.trans (never kept)) (List.cons_ne_nil _ _)
  · have elsewhere : succeedsElsewhere (role usualVariables answering
        (State.world ⟨formattedDisk, stackedTable, some ['K'], false⟩)) = true := by
      decide +kernel
    rintro ⟨safe, -⟩
    exact Bool.noConfusion (elsewhere.symm.trans safe.not_succeedsElsewhere)

end HomeclusterInfra.K3sStorage
