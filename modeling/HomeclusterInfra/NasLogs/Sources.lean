import HomeclusterInfra.Library.Text

/-!
# The log files of the NAS

The fixed list of log kinds, the path and the generations of each, and the
decoded snapshot the collector reads. A snapshot holds for every kind the
current file and those rotated generations that exist.
-/

set_option autoImplicit false

namespace HomeclusterInfra.NasLogs

/-- `MAX_FILE` -/
def maxFile : Nat := 2 * 1024 * 1024

/-- `MAX_STATE` -/
def maxState : Nat := 64 * 1024 * 1024

/-- The keys of `SOURCES`. -/
inductive Kind where
  | kernel | samba | smbd | nmbd | winbindd | storage | hal | halDaemon | sdmd
  | storageUtil | iscsi
  deriving DecidableEq

/-- The generations of a log file. -/
inductive Gen where
  | current | one | two | old
  deriving DecidableEq

namespace Kind

/-- The keys of `SOURCES` in order. -/
def all : List Kind :=
  [kernel, samba, smbd, nmbd, winbindd, storage, hal, halDaemon, sdmd, storageUtil, iscsi]

theorem mem_all (kind : Kind) : kind ∈ all := by
  cases kind <;> decide

theorem all_nodup : all.Nodup := by
  decide

def name : Kind → String
  | kernel => "kernel"
  | samba => "samba"
  | smbd => "smbd"
  | nmbd => "nmbd"
  | winbindd => "winbindd"
  | storage => "storage"
  | hal => "hal"
  | halDaemon => "hal_daemon"
  | sdmd => "sdmd"
  | storageUtil => "storage_util"
  | iscsi => "iscsi"

/-- `SOURCES[kind][0]` -/
def path : Kind → String
  | kernel => "/mnt/HDA_ROOT/.logs/kmsg"
  | samba => "/usr/local/samba/var/log.samba"
  | smbd => "/usr/local/samba/var/log.smbd"
  | nmbd => "/var/log/log.nmbd"
  | winbindd => "/usr/local/samba/var/log.winbindd-idmap"
  | storage => "/var/log/storage_lib.log"
  | hal => "/var/log/hal_lib.log"
  | halDaemon => "/var/log/hal_daemon.log"
  | sdmd => "/var/log/SDMD.log"
  | storageUtil => "/var/log/storage_util.log"
  | iscsi => "/var/log/iscsi_util.log"

/-- `SOURCES[kind][1]`: the generations of a kind, the newest first. -/
def gens : Kind → List Gen
  | kernel | samba => [.current, .one, .two]
  | smbd | nmbd | winbindd | storage | hal | halDaemon | sdmd => [.current, .old]
  | storageUtil | iscsi => [.current]

/-- The rotated generations of a kind, the newest first. -/
def rotatedGens (kind : Kind) : List Gen :=
  kind.gens.tail

theorem gens_eq (kind : Kind) : kind.gens = .current :: kind.rotatedGens := by
  cases kind <;> rfl

theorem current_notMem_rotatedGens (kind : Kind) : Gen.current ∉ kind.rotatedGens := by
  cases kind <;> decide

/-- `SAMBA_KINDS` -/
def isSamba : Kind → Bool
  | samba | smbd | nmbd | winbindd => true
  | _ => false

end Kind

/-- One file record of a snapshot. -/
structure LogFile where
  dev : Nat
  inode : Nat
  mtime : Nat
  data : List UInt8
  deriving DecidableEq

/-- The device and inode of a file. -/
def LogFile.id (file : LogFile) : Nat × Nat :=
  (file.dev, file.inode)

/-- A decoded snapshot. The parser refuses one without every current file. -/
structure Snapshot where
  file : Kind → Gen → Option LogFile
  currentPresent : ∀ kind, (file kind .current).isSome

/-- `snapshot[(kind, 'current')]` -/
def Snapshot.current (snapshot : Snapshot) (kind : Kind) : LogFile :=
  (snapshot.file kind .current).get (snapshot.currentPresent kind)

theorem Snapshot.file_current (snapshot : Snapshot) (kind : Kind) :
    snapshot.file kind .current = some (snapshot.current kind) :=
  (Option.some_get (snapshot.currentPresent kind)).symm

end HomeclusterInfra.NasLogs
