import HomeclusterInfra.PxeReceipt.Comparison
import HomeclusterInfra.PxeReceipt.Producer

/-!
# Runs that publish

A run writes its receipt under a temporary name, links it to the name of the date and
removes the temporary name. Runs of one date take their steps in any order; every step
may fail, and a run may be killed before any of its steps.

A file is an inode that names refer to, so that two names may stand for one file. The
bytes of an inode change while the run that made it writes.
-/

set_option autoImplicit false

namespace HomeclusterInfra.PxeReceipt

open Text JsonText

/-! ## The directory -/

/-- The directory of receipts, and the files that its names refer to. -/
structure Disk where
  names : List Char → Option Nat
  content : Nat → List UInt8
  /-- The next inode that is free. -/
  next : Nat

/-- The name of the receipt of a date. -/
def receiptName (date : List Char) : List Char :=
  date ++ ".json".toList

/-- `".producer-" + uuid.uuid4().hex` -/
def temporaryName (hex : List Char) : List Char :=
  ".producer-".toList ++ hex

namespace Disk

variable (disk : Disk)

/-- The bytes of the file with a name. -/
def read (name : List Char) : Option (List UInt8) :=
  (disk.names name).map disk.content

/-- An empty file under a new name. -/
def create (name : List Char) : Disk where
  names := Function.update disk.names name (some disk.next)
  content := Function.update disk.content disk.next []
  next := disk.next + 1

/-- Bytes at the end of a file. -/
def append (inode : Nat) (chunk : List UInt8) : Disk :=
  { disk with content := Function.update disk.content inode (disk.content inode ++ chunk) }

/-- Another name for a file. -/
def link (name : List Char) (inode : Nat) : Disk :=
  { disk with names := Function.update disk.names name (some inode) }

/-- A name removed. -/
def unlink (name : List Char) : Disk :=
  { disk with names := Function.update disk.names name none }

section Lookups

variable (name other : List Char) (inode number : Nat) (chunk : List UInt8)

@[simp] theorem names_create :
    (disk.create name).names other = if other = name then some disk.next else disk.names other :=
  Function.update_apply _ _ _ _

@[simp] theorem content_create : (disk.create name).content inode =
    if inode = disk.next then [] else disk.content inode :=
  Function.update_apply _ _ _ _

@[simp] theorem names_append : (disk.append inode chunk).names name = disk.names name :=
  rfl

@[simp] theorem content_append : (disk.append inode chunk).content number =
    if number = inode then disk.content inode ++ chunk else disk.content number :=
  Function.update_apply _ _ _ _

@[simp] theorem names_link :
    (disk.link name inode).names other = if other = name then some inode else disk.names other :=
  Function.update_apply _ _ _ _

@[simp] theorem content_link : (disk.link name inode).content number = disk.content number :=
  rfl

@[simp] theorem names_unlink :
    (disk.unlink name).names other = if other = name then none else disk.names other :=
  Function.update_apply _ _ _ _

@[simp] theorem content_unlink : (disk.unlink name).content number = disk.content number :=
  rfl

end Lookups

end Disk

/-! ## One run -/

/-- How a run ends. -/
inductive Outcome where
  | returned (status : String) (receiptId receiptSha256 : List Char)
  | raised
  | killed

/-- Where a run is, and the receipt it built. -/
inductive Stage where
  | idle
  /-- The build was not measured, or its receipt is not valid. -/
  | refused
  | looking (value : Json)
  | comparing (value : Json) (inode : Nat)
  | creating (value : Json)
  | writing (value : Json) (temporary : List Char) (inode : Nat) (rest : List UInt8)
  | linking (value : Json) (temporary : List Char)
  | unlinking (value : Json) (temporary : List Char) (published : Bool)
  | ended (value : Json) (outcome : Outcome)

/-- The next step of a run, with what its surroundings add. -/
inductive Action where
  | begin (request : Request) (build : Build)
  | look
  | compare
  | create (hex : List Char)
  | write (count : Nat)
  | link
  | unlink
  /-- An operation of the system fails, or finds that a file or a directory changed. -/
  | fail
  | kill

section Runs

variable (sha256 : List UInt8 → List Char)

/-- The receipt of a run, after its own validation. -/
def validated (request : Request) (build : Build) : Option Json :=
  (measure sha256 request build).bind fun value =>
    if checkField value "capture_window" validateWindow && validateReceipt sha256 value then
      some value
    else none

/-- The identity that a receipt has. -/
def identityOf (value : Json) : List Char :=
  (fieldText value "receipt_id").getD []

/-- The answer of a run that found a receipt. -/
def compared (value : Json) (content : List UInt8) : Outcome :=
  match (fileBytes maxReceipt content).bind (compareReceipt sha256 value) with
  | some existing => .returned "unchanged" (identityOf existing) (sha256 content)
  | none => .raised

/-- Where a run is after an operation failed. -/
def Stage.failed : Stage → Option Stage
  | .idle => some .refused
  | .looking value | .comparing value _ | .creating value => some (.ended value .raised)
  | .writing value temporary _ _ | .linking value temporary | .unlinking value temporary true =>
      some (.unlinking value temporary false)
  | .unlinking value _ false => some (.ended value .raised)
  | .refused | .ended _ _ => none

/-- Where a run is after it was killed. -/
def Stage.killed : Stage → Option Stage
  | .idle => some .refused
  | .looking value | .comparing value _ | .creating value | .writing value _ _ _
  | .linking value _ | .unlinking value _ _ => some (.ended value .killed)
  | .refused | .ended _ _ => none

/-- A step of `produce` and `_publish`. -/
def act (date : List Char) (disk : Disk) : Stage → Action → Option (Disk × Stage)
  | .idle, .begin request build =>
      if request.bundleDate = date then
        some (disk, ((validated sha256 request build).map Stage.looking).getD .refused)
      else none
  | .looking value, .look =>
      match disk.names (receiptName date) with
      | some inode => some (disk, .comparing value inode)
      | none => some (disk, .creating value)
  | .comparing value inode, .compare =>
      some (disk, .ended value (compared sha256 value (disk.content inode)))
  | .creating value, .create hex =>
      if (encoded value).length ≤ maxReceipt && (disk.names (temporaryName hex)).isNone then
        some (disk.create (temporaryName hex),
          .writing value (temporaryName hex) disk.next (encoded value))
      else some (disk, .ended value .raised)
  | .writing value temporary inode rest, .write count =>
      if rest.isEmpty then some (disk, .linking value temporary)
      else some (disk.append inode (rest.take count),
        .writing value temporary inode (rest.drop count))
  | .linking value temporary, .link =>
      -- `link` fails where the name is there already
      match disk.names temporary, disk.names (receiptName date) with
      | some inode, none =>
          some (disk.link (receiptName date) inode, .unlinking value temporary true)
      | _, _ => some (disk, .unlinking value temporary false)
  | .unlinking value temporary published, .unlink =>
      some (disk.unlink temporary, .ended value
        (if published then .returned "written" (identityOf value) (sha256 (encoded value))
          else .raised))
  | stage, .fail => stage.failed.map fun stage => (disk, stage)
  | stage, .kill => stage.killed.map fun stage => (disk, stage)
  | _, _ => none

/-! ## All runs -/

/-- The runs of a date on one directory. -/
structure World where
  disk : Disk
  runs : Nat → Stage
  /-- The runs that made the receipt, for the statements alone. -/
  creators : List Nat

/-- A step of one of the runs. -/
def step (date : List Char) (world : World) (event : Nat × Action) : Option World :=
  (act sha256 date world.disk (world.runs event.1) event.2).map fun (disk, stage) =>
    { disk := disk
      runs := Function.update world.runs event.1 stage
      creators :=
        if (world.disk.names (receiptName date)).isNone &&
            (disk.names (receiptName date)).isSome then
          event.1 :: world.creators
        else world.creators }

/-- Steps of the runs, one after another. -/
def run (date : List Char) (world : World) (events : List (Nat × Action)) : Option World :=
  events.foldlM (step sha256 date) world

end Runs

end HomeclusterInfra.PxeReceipt
