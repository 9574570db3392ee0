import HomeclusterInfra.Library.Interruption
import HomeclusterInfra.Library.Mapping
import HomeclusterInfra.SecurityCapture.Pcap
import Mathlib.Data.Rat.Defs

/-!
# The capture spool

A capture is requested, taken into a directory of the spool, delivered and acknowledged. The
calls take a lock one after another. Each call goes in steps, any of which may fail, and a
call may be killed before any step.

A file is written under a temporary name and then moved. What an interrupted call leaves under
a temporary name stays there.
-/

set_option autoImplicit false

namespace HomeclusterInfra.SecurityCapture

open Interruption

/-! ## Names -/

def isIdentifier (text : List Char) : Bool :=
  let lower := fun char : Char => char.isDigit || ('a' ≤ char && char ≤ 'f')
  text.length = 33 && (text.take 8).all Char.isDigit && (text.drop 8).take 1 == ['T'] &&
    ((text.drop 9).take 6).all Char.isDigit && (text.drop 15).take 2 == ['Z', '-'] &&
    (text.drop 17).all lower

/-- `ID` -/
abbrev CaptureId : Type :=
  {text : List Char // isIdentifier text = true}

/-- `[0-9a-f]{64}` -/
def isDigest (text : List Char) : Bool :=
  text.length = 64 && text.all fun char => char.isDigit || ('a' ≤ char && char ≤ 'f')

/-- The files that `publish` writes into the directory of a capture. -/
inductive Published where
  | started
  | manifest
  | failed
deriving DecidableEq

inductive FileName where
  | filter
  | part
  | pcap
  | published (name : Published)
  /-- `.name-hex` -/
  | temporary (name : Published) (hex : List Char)
deriving DecidableEq

/-! ## Files -/

structure Request where
  captureId : CaptureId
  profile : List Char
  createdEpoch : Rat
  configurationSha256 : List Char
deriving DecidableEq

/-- What readers take from a manifest. -/
structure Manifest where
  captureId : CaptureId
  report : PcapReport
deriving DecidableEq

inductive Item where
  | filter (text : List Char)
  | part (content : List UInt8)
  | pcap (content : List UInt8)
  | started (request : Request)
  | manifest (manifest : Manifest)
  | failed (reason : String)
  | temporary (name : Published) (hex : List Char)
deriving DecidableEq

def Item.name : Item → FileName
  | .filter _ => .filter
  | .part _ => .part
  | .pcap _ => .pcap
  | .started _ => .published .started
  | .manifest _ => .published .manifest
  | .failed _ => .published .failed
  | .temporary name hex => .temporary name hex

structure Receipt where
  captureId : CaptureId
  pcapSha256 : List Char
  epoch : Rat
deriving DecidableEq

/-- An entry of the directory of acknowledgements. -/
inductive Acknowledgement where
  | receipt (receipt : Receipt)
  | temporary (captureId : CaptureId) (hex : List Char)
deriving DecidableEq

/-- The requests, the spool and the acknowledgements. -/
structure World where
  request : Option Request
  runs : List (CaptureId × List Item)
  acknowledged : List Acknowledgement

/-! ## Directories -/

/-- A file put into a directory, in place of one of its name. -/
def put (item : Item) (items : List Item) : List Item :=
  items.filter (fun other => other.name ≠ item.name) ++ [item]

def remove (name : FileName) (items : List Item) : List Item :=
  items.filter fun other => other.name ≠ name

def holds (name : FileName) (items : List Item) : Bool :=
  items.any fun other => other.name = name

def manifestOf (items : List Item) : Option Manifest :=
  items.findSome? fun item =>
    match item with
    | .manifest manifest => some manifest
    | _ => none

def pcapOf (items : List Item) : Option (List UInt8) :=
  items.findSome? fun item =>
    match item with
    | .pcap content => some content
    | _ => none

namespace World

def runOf (world : World) (captureId : CaptureId) : Option (List Item) :=
  world.runs.lookup captureId

/-- A change of the directory of a capture. -/
def changeRun (captureId : CaptureId) (act : List Item → List Item) (world : World) : World :=
  { world with
    runs := world.runs.map fun run => if run.1 = captureId then (run.1, act run.2) else run }

def receiptOf (world : World) (captureId : CaptureId) : Option Receipt :=
  world.acknowledged.findSome? fun entry =>
    match entry with
    | .receipt receipt => if receipt.captureId = captureId then some receipt else none
    | .temporary _ _ => none

end World

/-! ## What a call meets -/

structure Profile where
  filter : List Char
deriving DecidableEq

/-- Why tcpdump came to its end. -/
inductive StopReason where
  | packetLimit
  | durationLimit
deriving DecidableEq

/-- Everything outside the program that a call meets. -/
structure Surroundings where
  now : Rat
  mounted : Bool
  /-- An entry of the spool is older than a day. -/
  expired : Bool
  /-- The reserves of storage and memory, and the load. -/
  resources : Except String Unit
  profiles : Except String (List (List Char × Profile))
  configurationSha256 : List Char
  /-- `uuid.uuid4().hex`, for the temporary names of a call. -/
  hex : List Char
  compiles : Bool
  /-- What tcpdump wrote. -/
  written : List UInt8
  stop : Except String StopReason
  /-- The orders in which the directories are listed. -/
  listed : List Item → List Item
  listed_perm : ∀ items, (listed items).Perm items
  listedReceipts : List Acknowledgement → List Acknowledgement
  listedReceipts_perm : ∀ entries, (listedReceipts entries).Perm entries

/-- A program of the capture tool. -/
abbrev Call (α : Type) : Type :=
  Program String World α

/-- A call of the system that changes nothing here. -/
def call : Call Unit :=
  change "OSError" id

/-! ## Writing -/

/-- `publish`, into the directory of a capture. -/
def publishInto (env : Surroundings) (captureId : CaptureId) (name : Published) (item : Item) :
    Call Unit := do
  change "OSError" (World.changeRun captureId (put (.temporary name env.hex)))
  call
  change "OSError" (World.changeRun captureId fun items =>
    put item (remove (.temporary name env.hex) items))
  call

/-- `publish` of the last result, which no other call reads. -/
def publishResult : Call Unit := do
  call
  call

def publishReceipt (env : Surroundings) (receipt : Receipt) : Call Unit := do
  change "OSError" fun world =>
    { world with
      acknowledged := world.acknowledged ++ [.temporary receipt.captureId env.hex] }
  call
  change "OSError" fun world =>
    { world with
      acknowledged := world.acknowledged.filter
        (fun entry => entry ≠ .temporary receipt.captureId env.hex) ++ [.receipt receipt] }
  call

/-! ## Requests -/

/-- `guards` -/
def guards (env : Surroundings) : Call Unit := do
  demand env.mounted "srv_not_mounted"
  call
  let world ← look id
  demand (world.runs.length < 2) "spool_count_limit"
  demand (!env.expired) "spool_expired_requires_review"
  lift env.resources

/-- `request`, as far as the lock is held, with the identifier that it draws. -/
def request (env : Surroundings) (captureId : CaptureId) (profile : List Char) : Call Unit := do
  let profiles ← lift env.profiles
  demand (profiles.lookup profile).isSome "profile_not_allowed"
  call
  let world ← look id
  demand world.request.isNone "request_pending_requires_review"
  guards env
  call
  change "OSError" fun world =>
    { world with request := some ⟨captureId, profile, env.now, env.configurationSha256⟩ }
  call
  publishResult

/-! ## Captures -/

section Served

variable (sha256 : List UInt8 → List Char)

/-- What `serve` does after it took a request, but for its failures. -/
def capture (env : Surroundings) (captureId : CaptureId) (profile : Profile) : Call Unit := do
  change "OSError" (World.changeRun captureId (put (.filter (profile.filter ++ ['\n']))))
  call
  demand env.compiles "filter_compile_failed"
  change "OSError" (World.changeRun captureId (put (.part env.written)))
  let stopReason ← lift env.stop
  call
  let report ← lift (pcap sha256 env.written)
  demand (!(stopReason = .packetLimit && report.packetCount ≠ 1000)) "unexpected_early_exit"
  call
  change "OSError" (World.changeRun captureId fun items =>
    put (.pcap env.written) (remove .part items))
  publishInto env captureId .manifest (.manifest ⟨captureId, report⟩)
  publishResult

/-- `serve` -/
def serve (env : Surroundings) : Call Unit := do
  call
  let world ← look id
  match world.request with
  | none => raise "FileNotFoundError"
  | some item => do
      demand (0 ≤ env.now - item.createdEpoch && env.now - item.createdEpoch ≤ 120)
        "request_expired"
      let profiles ← lift env.profiles
      match profiles.lookup item.profile with
      | none => raise "configuration_changed"
      | some profile => do
          demand (item.configurationSha256 == env.configurationSha256) "configuration_changed"
          guards env
          step "OSError" fun world =>
            if (world.runOf item.captureId).isSome then .error "FileExistsError"
            else .ok ((), { world with runs := world.runs ++ [(item.captureId, [])] })
          publishInto env item.captureId .started (.started item)
          publishResult
          change "OSError" fun world => { world with request := none }
          catching (capture sha256 env item.captureId profile) fun reason => do
            publishInto env item.captureId .failed (.failed reason)
            publishResult
            raise reason

/-! ## Readers -/

/-- The checks of `artifact` on the files of a capture. -/
def accepts (captureId : CaptureId) (items : List Item) : Except String Manifest :=
  match manifestOf items, pcapOf items with
  | some manifest, some content =>
      if manifest.captureId ≠ captureId ∨ holds .part items then .error "artifact_incomplete"
      else
        match pcap sha256 content with
        | .error reason => .error reason
        | .ok report =>
            if report = manifest.report then .ok manifest
            else .error "artifact_hash_or_summary_mismatch"
  | _, _ => .error "FileNotFoundError"

/-- `artifact` -/
def artifact (env : Surroundings) (captureId : CaptureId) : Call Manifest := do
  demand env.mounted "srv_not_mounted"
  call
  let world ← look id
  match world.runOf captureId with
  | none => raise "FileNotFoundError"
  | some items => lift (accepts sha256 captureId items)

/-- `ssh_export` of the packets. -/
def sshExport (env : Surroundings) (captureId : CaptureId) : Call (List UInt8) := do
  call
  let _manifest ← artifact sha256 env captureId
  call
  let world ← look id
  lift ((((world.runOf captureId).bind pcapOf).map Except.ok).getD (.error "FileNotFoundError"))

/-! ## Acknowledgements -/

/-- What an acknowledgement may find in the directory of a capture. -/
def isAllowed (item : Item) : Bool :=
  match item with
  | .filter _ | .pcap _ | .started _ | .manifest _ => true
  | .part _ | .failed _ | .temporary _ _ => false

/-- One round of the loop of `acknowledged_receipts`. -/
def reviewReceipt (env : Surroundings) : Acknowledgement → Call Unit
  | .temporary _ _ => raise "unexpected_acknowledgement_entry"
  | .receipt receipt => do
      call
      demand (receipt.epoch ≤ env.now + 300) "acknowledgement_schema"
      if env.now - receipt.epoch > 72 * 3600 then
        change "OSError" fun world =>
          { world with
            acknowledged := world.acknowledged.filter fun entry => entry ≠ .receipt receipt }
      else pure ()

/-- `acknowledged_receipts` -/
def acknowledgedReceipts (env : Surroundings) : Call Nat := do
  call
  let world ← look id
  forEach (reviewReceipt env) (env.listedReceipts world.acknowledged)
  let after ← look id
  pure after.acknowledged.length

/-- The directory of a capture is removed, after its receipt is written. -/
def removeRun (env : Surroundings) (receipt : Receipt) (published : Bool) : Call Receipt := do
  let world ← look id
  match world.runOf receipt.captureId with
  | none => raise "FileNotFoundError"
  | some items => do
      call
      demand (items.all isAllowed) "unexpected_capture_entry"
      if published then pure () else publishReceipt env receipt
      forEach (fun item => change "OSError"
        (World.changeRun receipt.captureId (remove item.name))) (env.listed items)
      step "OSError" fun world =>
        if world.runOf receipt.captureId = some [] then
          .ok ((), { world with
            runs := world.runs.filter fun run => run.1 ≠ receipt.captureId })
        else .error "OSError"
      pure receipt

/-- `acknowledge`, from the receipts that its review left. -/
def acknowledgeReviewed (env : Surroundings) (captureId : CaptureId) (expected : List Char)
    (count : Nat) : Call Receipt := do
  let world ← look id
  match world.receiptOf captureId with
  | some receipt => do
      demand (receipt.pcapSha256 == expected) "acknowledgement_hash_mismatch"
      if (world.runOf captureId).isNone then pure receipt else removeRun env receipt true
  | none => do
      demand (count < 64) "acknowledgement_count_limit"
      let manifest ← artifact sha256 env captureId
      demand (manifest.report.pcapSha256 == expected) "acknowledgement_hash_mismatch"
      removeRun env ⟨captureId, expected, env.now⟩ false

/-- `acknowledge` -/
def acknowledge (env : Surroundings) (captureId : CaptureId) (expected : List Char) :
    Call Receipt := do
  demand (isDigest expected) "acknowledgement_input"
  call
  demand env.mounted "srv_not_mounted"
  let count ← acknowledgedReceipts env
  acknowledgeReviewed sha256 env captureId expected count

/-! ## Runs of calls -/

/-- A call of the tool, with what it meets. -/
inductive Invocation where
  | request (env : Surroundings) (captureId : CaptureId) (profile : List Char)
  | serve (env : Surroundings)
  | sshExport (env : Surroundings) (captureId : CaptureId)
  | acknowledge (env : Surroundings) (captureId : CaptureId) (expected : List Char)

/-- The world after a call. -/
def Invocation.after (world : World) (invocation : Invocation) (faults : List Fault) : World :=
  match invocation with
  | .request env captureId profile =>
      (SecurityCapture.request env captureId profile).state world faults
  | .serve env => (SecurityCapture.serve sha256 env).state world faults
  | .sshExport env captureId => (SecurityCapture.sshExport sha256 env captureId).state world faults
  | .acknowledge env captureId expected =>
      (SecurityCapture.acknowledge sha256 env captureId expected).state world faults

/-- The world after calls, each of which is interrupted in its own way. -/
def runAll (world : World) (calls : List (Invocation × List Fault)) : World :=
  calls.foldl (fun world entry => entry.1.after sha256 world entry.2) world

end Served

end HomeclusterInfra.SecurityCapture
