import HomeclusterInfra.BanipProof.Snapshot
import HomeclusterInfra.Library.Interruption
import HomeclusterInfra.Library.Rounding

/-!
# The store of feed proofs

The program keeps, for each configured feed, how its last check ended and what was verified last.
A call checks all feeds between two snapshots of the kernel sets and replaces the file, or it only
reports. Calls that write hold a lock; each may fail or be killed before any step.

The file is read and written as text. Of its objects the fields count that the program reads.
-/

set_option autoImplicit false

namespace HomeclusterInfra.BanipProof

open Text JsonText Binary64 Interruption

section Digest

variable (sha256 : List UInt8 → String)

/-! ## Proofs -/

/-- A time of the file: a JSON number. -/
inductive Stamp where
  | int (value : Int)
  | float (value : Rat)
deriving DecidableEq

namespace Stamp

def value : Stamp → Rat
  | .int value => value
  | .float value => value

def toJson : Stamp → Json
  | .int value => .int value
  | .float value => .float value

end Stamp

/-- `epoch` -/
def isEpoch (time now : Rat) : Bool :=
  1600000000 ≤ time && time ≤ nearest (now + 300)

/-- From here on no float is near to an integer. -/
def floatLimit : Nat := 2 ^ 1024 - 2 ^ 970

def overflows (value : Int) : Bool :=
  floatLimit ≤ value.natAbs

/-- A time that `epoch` accepts. Of an integer without a float it cannot be said. -/
def stampOf (refused : Raised) (now : Rat) (value : Json) : Except Raised Stamp :=
  match value with
  | .int time =>
      if overflows time then .error .other
      else if isEpoch time now then .ok (.int time) else .error refused
  | .float time => if isEpoch time now then .ok (.float time) else .error refused
  | _ => .error refused

inductive CheckStatus where
  | verified | error | unknown
deriving DecidableEq

def CheckStatus.text : CheckStatus → String
  | .verified => "verified"
  | .error => "error"
  | .unknown => "unknown"

def checkStatuses : List CheckStatus :=
  [.verified, .error, .unknown]

/-- `last_check` -/
structure Check where
  status : CheckStatus
  reason : Reason
  time : Stamp

/-- `last_verified`. The number of records is not looked at. -/
structure Verified where
  sourceSha256 : String
  canonicalSha256 : String
  count : Nat
  sourceRecords : Option Json
  time : Stamp

structure Record where
  lastCheck : Check
  lastVerified : Option Verified

/-- The records of the feeds. -/
abbrev Proof : Type :=
  Feed → Option Record

def Proof.empty : Proof :=
  fun _ => none

/-- `SCOPE` -/
def scope : String :=
  "independent_https_content_equals_active_nft_set"

/-! ## The file -/

def Check.toJson (check : Check) : Json :=
  .object [("at", check.time.toJson), ("reason", .text check.reason.text),
    ("status", .text check.status.text)]

def Verified.toJson (good : Verified) : Json :=
  .object ([("at", good.time.toJson), ("canonical_sha256", .text good.canonicalSha256),
    ("count", .int good.count), ("scope", .text scope)] ++
    (good.sourceRecords.map fun records => ("source_records", records)).toList ++
    [("source_sha256", .text good.sourceSha256)])

def Record.toJson (record : Record) : Json :=
  .object (("last_check", record.lastCheck.toJson) ::
    (record.lastVerified.map fun good => ("last_verified", good.toJson)).toList)

/-- What is saved: with sorted keys. -/
def proofJson (hash : List Char) (proof : Proof) : Json :=
  .object [("definition_sha256", .str hash),
    ("feeds", .object (registry.filterMap fun feed =>
      (proof feed).map fun record => (feed.name, record.toJson))),
    ("schema", .int 1)]

def proofText (hash : List Char) (proof : Proof) : List Char :=
  JsonText.canonical (proofJson hash proof)

/-- `[a-z_]{1,64}` -/
def reasonOf (value : Json) : Option Reason :=
  match value with
  | .str text =>
      if form : isReason (String.ofList text) = true then some ⟨String.ofList text, form⟩ else none
  | _ => none

def invalidState : Raised :=
  .proof ⟨"invalid_proof_state", by decide⟩

/-- `[a-f0-9]{64}` -/
def isDigest (text : List Char) : Bool :=
  text.length = 64 && text.all fun char => char.isDigit || 'a' ≤ char && char ≤ 'f'

section State

variable (now : Rat)

/-- `record["last_check"]`, as `state` accepts it. -/
def readCheck (value : Json) : Except Raised Check := do
  let named ← item value "status"
  let status ← orRaise (checkStatuses.find? fun known => isText named known.text) invalidState
  let written ← item value "at"
  let time ← stampOf invalidState now written
  let given ← item value "reason"
  let reason ← orRaise (reasonOf given) invalidState
  pure ⟨status, reason, time⟩

/-- A digest of `last_verified`. -/
def digestOf : Json → Option String
  | .str text => if isDigest text then some (String.ofList text) else none
  | _ => none

/-- A number of networks. -/
def countOf : Json → Option Nat
  | .int count => if 1 ≤ count && count ≤ maxRecords then some count.toNat else none
  | _ => none

/-- `record["last_verified"]`, as `state` accepts it. -/
def readVerified (value : Json) : Except Raised Verified := do
  let written ← item value "at"
  let time ← stampOf invalidState now written
  let named ← item value "scope"
  require (isText named scope) ⟨"invalid_proof_state", by decide⟩
  let source ← item value "source_sha256"
  let source ← orRaise (digestOf source) invalidState
  let canonical ← item value "canonical_sha256"
  let canonical ← orRaise (digestOf canonical) invalidState
  let counted ← item value "count"
  let count ← orRaise (countOf counted) invalidState
  pure ⟨source, canonical, count, value.field "source_records", time⟩

/-- A record, as `state` accepts it. -/
def readRecord (value : Json) : Except Raised Record := do
  match value with
  | .obj fields =>
      require (Fields.within fields ["last_check", "last_verified"])
        ⟨"invalid_proof_state", by decide⟩
      let check ← readCheck now (← item value "last_check")
      match Fields.get fields "last_verified" with
      | none => pure ⟨check, none⟩
      | some good =>
          let good ← readVerified now good
          pure ⟨check, some good⟩
  | _ => .error invalidState

/-- A record of a configured feed. -/
def readEntry (config : Config) (field : List Char × Json) : Except Raised (Feed × Record) := do
  let feed ← orRaise (config.feeds.find? fun feed => feed.name.toList = field.1) invalidState
  let record ← readRecord now field.2
  pure (feed, record)

end State

/-- The value of the file, as `state` accepts it. -/
def readProof (config : Config) (now : Rat) (value : Json) : Except Raised Proof := do
  require ((match value.field "schema" with
    | some (.int schema) => schema = 1
    | _ => false) && (value.field "definition_sha256").any fun hash =>
      isText hash (String.ofList (definitionHash sha256 config))) ⟨"invalid_proof_state", by decide⟩
  match value.field "feeds" with
  | some (.obj fields) => do
      require (fields.all fun field => config.feeds.any fun feed => feed.name.toList = field.1)
        ⟨"invalid_proof_state", by decide⟩
      let entries ← fields.mapM (readEntry now config)
      pure fun feed => entries.lookup feed
  | _ => .error invalidState

/-! ## A check of all feeds -/

/-- What a check meets. -/
structure Surroundings where
  started : Rat
  finished : Rat
  before : Readings
  after : Readings
  download : Feed → Except Raised (List UInt8)

/-- The content of a download, or why there is none. -/
def contentOf (feed : Feed) (download : Except Raised (List UInt8)) :
    Except Raised (Except Reason FeedContent) :=
  match download >>= parseFeed sha256 feed with
  | .ok content => .ok (.ok content)
  | .error (.proof reason) => .ok (.error reason)
  | .error .valueOrOs => .ok (.error ⟨"feed_download_failed", by decide⟩)
  | .error raised => .error raised

/-- What a check finds of one feed. -/
inductive Finding where
  | failed (reason : Reason)
  | changed
  | mismatch
  | verified (content : FeedContent)
deriving DecidableEq

/-- The comparison of a download with the two snapshots around it. -/
def compare (before after : Snapshot) (feed : Feed) : Except Reason FeedContent → Finding
  | .error reason => .failed reason
  | .ok content =>
      if before ≠ after then .changed
      else if after.digest feed ≠ some content.canonicalSha256 then .mismatch
      else .verified content

/-- What is found where all feeds fail for one reason. -/
def failing (config : Config) (reason : Reason) : List (Feed × Finding) :=
  config.feeds.map fun feed => (feed, .failed reason)

/-- What is found between the two snapshots. -/
def compareAll (config : Config) (env : Surroundings) :
    Except Raised (List (Feed × Finding)) := do
  let before ← snapshot sha256 config env.before
  let contents ← config.feeds.mapM fun feed => do
    let content ← contentOf sha256 feed (env.download feed)
    pure (feed, content)
  let after ← snapshot sha256 config env.after
  pure (contents.map fun (feed, content) => (feed, compare before after feed content))

/-- What `verify` finds. A failure of a snapshot is one of all feeds. -/
def findings (config : Config) (env : Surroundings) : Except Raised (List (Feed × Finding)) :=
  match compareAll sha256 config env with
  | .ok found => .ok found
  | .error (.proof reason) => .ok (failing config reason)
  | .error .other => .error .other
  | .error _ => .ok (failing config ⟨"snapshot_unavailable", by decide⟩)

/-- The difference of two clock readings. -/
def clockAgrees (started finished : Rat) : Bool :=
  isEpoch finished finished && -1 ≤ minus finished started && minus finished started ≤ 90

/-- `last_check` after a finding. -/
def Finding.check (time : Rat) : Finding → Check
  | .failed reason => ⟨.error, reason, .float time⟩
  | .changed => ⟨.unknown, ⟨"concurrent_set_or_runtime_change", by decide⟩, .float time⟩
  | .mismatch => ⟨.error, ⟨"active_set_content_mismatch", by decide⟩, .float time⟩
  | .verified _ => ⟨.verified, ⟨"verified", by decide⟩, .float time⟩

/-- `last_verified` after a verified check. -/
def verifiedAt (time : Rat) (content : FeedContent) : Verified :=
  ⟨content.sourceSha256, content.canonicalSha256, content.count,
    some (.int content.sourceRecords), .float time⟩

/-- The record of a feed after a finding. -/
def Finding.record (time : Rat) (finding : Finding) (prior : Option Record) : Record where
  lastCheck := finding.check time
  lastVerified := match finding with
    | .verified content => some (verifiedAt time content)
    | _ => prior.bind Record.lastVerified

/-- The proof after a check. -/
def recordAll (prior : Proof) (time : Rat) (found : List (Feed × Finding)) : Proof := fun feed =>
  match found.lookup feed with
  | some finding => some (finding.record time (prior feed))
  | none => prior feed

/-! ## The summary -/

inductive Status where
  | verified | error | unknown | stale
deriving DecidableEq

def CheckStatus.status : CheckStatus → Status
  | .verified => .verified
  | .error => .error
  | .unknown => .unknown

/-- The summary of one feed. -/
structure Row where
  feed : Feed
  status : Status
  reason : Reason
  verifiedAt : Option Stamp
  ageSeconds : Option Nat
  lastVerifiedCount : Option Nat

/-- `MAX_AGE` -/
def maxAge : Nat := 48 * 3600

/-- `max(0, int(now - at))` -/
def ageAt (now : Rat) (time : Stamp) : Nat :=
  (minus now (nearest time.value)).floor.toNat

def judge (record : Option Record) (current : Option Snapshot) (feed : Feed) (now : Rat) :
    Status × Reason :=
  match current with
  | none => (.unknown, ⟨"current_snapshot_unavailable", by decide⟩)
  | some current =>
      match record with
      | none => (.unknown, ⟨"proof_missing", by decide⟩)
      | some record =>
          if record.lastCheck.status ≠ .verified then
            (record.lastCheck.status.status, record.lastCheck.reason)
          else
            match record.lastVerified with
            | none => (.unknown, ⟨"current_set_changed", by decide⟩)
            | some good =>
                if current.digest feed ≠ some good.canonicalSha256 then
                  (.unknown, ⟨"current_set_changed", by decide⟩)
                else if maxAge < ageAt now good.time then (.stale, ⟨"proof_expired", by decide⟩)
                else (.verified, ⟨"verified", by decide⟩)

def rowOf (proof : Proof) (current : Option Snapshot) (now : Rat) (feed : Feed) : Row :=
  let judged := judge (proof feed) current feed now
  let good := (proof feed).bind Record.lastVerified
  ⟨feed, judged.1, judged.2, good.map (·.time), good.map fun good => ageAt now good.time,
    good.map (·.count)⟩

structure Summary where
  status : Status
  ageSeconds : Option Nat
  feeds : List Row

/-- The worst of some statuses. -/
def combined (statuses : List Status) : Status :=
  ([.error, .unknown, .stale].find? statuses.contains).getD .verified

/-- The greatest of the ages, where none is missing. -/
def greatestAge (ages : List (Option Nat)) : Option Nat :=
  (ages.mapM id).bind List.max?

/-- `summary` -/
def summary (config : Config) (proof : Proof) (current : Option Snapshot) (now : Rat) : Summary :=
  let rows := config.feeds.map (rowOf proof current now)
  ⟨combined (rows.map (·.status)), greatestAge (rows.map (·.ageSeconds)), rows⟩

/-! ## Calls -/

inductive Action where
  | verify | refresh | status
deriving DecidableEq

/-- What a reload of banIP meets: a snapshot before, the command, and snapshots after it. A process
that cannot be waited for ends the polls. -/
structure Reload where
  before : Readings
  command : Except Raised Unit
  polls : List (Option Readings)

/-- The polls until the generation is another. -/
def awaitGeneration (config : Config) (generation : List Char) :
    List (Option Readings) → Except Raised Unit
  | [] => .error (.proof ⟨"banip_reload_deadline", by decide⟩)
  | none :: _ => .error .lookupOrProcess
  | some readings :: polls =>
      match snapshot sha256 config readings with
      | .ok current =>
          if current.generation ≠ generation then .ok ()
          else awaitGeneration config generation polls
      | .error .other => .error .other
      | .error _ => awaitGeneration config generation polls

/-- The reload of a refresh. -/
def refresh (config : Config) (reload : Reload) : Except Raised Unit := do
  let before ← snapshot sha256 config reload.before
  reload.command
  awaitGeneration sha256 config before.generation reload.polls

/-- What a call is given, and what it meets. -/
structure Call where
  action : Action
  configFile : Except Raised Fields
  resources : Except Raised Unit
  /-- The clock when the file is read, before and under the lock. -/
  read : Rat
  readLocked : Rat
  lock : Except Raised Unit
  reload : Reload
  check : Surroundings
  /-- The clock of a check that failed as a whole. -/
  failed : Rat
  current : Readings
  summarized : Rat

/-- What was saved, and by which call. -/
structure Saved where
  call : Call
  config : Config
  time : Rat
  found : List (Feed × Finding)

/-- The file, whether one that is being written is beside it, and what was saved. -/
structure Store where
  file : Option (List Char)
  part : Bool
  saved : List Saved

def emptyStore : Store :=
  ⟨none, false, []⟩

/-- A part of the program. -/
abbrev Task (α : Type) : Type :=
  Program Raised Store α

/-- `state` -/
def state (config : Config) (now : Rat) (store : Store) : Except Raised Proof := do
  require (isEpoch now now) ⟨"clock_untrusted", by decide⟩
  require (!store.part) ⟨"partial_proof_requires_reconciliation", by decide⟩
  match store.file with
  | none => pure Proof.empty
  | some text => do
      require (utf8Length text ≤ 16384) ⟨"json_size_limit", by decide⟩
      let value ← orRaise (loads text) .valueOrOs
      readProof sha256 config now value

/-- `save` -/
def save (saved : Saved) (proof : Proof) : Task Unit := do
  change (.proof ⟨"unsafe_state_directory", by decide⟩) id
  step .valueOrOs fun store =>
    if store.part then .error .valueOrOs else .ok ((), { store with part := true })
  change .valueOrOs id
  change .valueOrOs fun store =>
    ⟨some (proofText (definitionHash sha256 saved.config) proof), false, store.saved ++ [saved]⟩
  change .valueOrOs id

/-- The current snapshot of a summary, or none. -/
def currentOf (config : Config) (readings : Readings) : Except Raised (Option Snapshot) :=
  match snapshot sha256 config readings with
  | .ok current => .ok (some current)
  | .error .other => .error .other
  | .error _ => .ok none

/-- What comes before `verify`. -/
def prepare (config : Config) (call : Call) : Except Raised Unit :=
  if call.action = .refresh then refresh sha256 config call.reload else .ok ()

/-- `verify`, after the reload of a refresh. Returned are the time and what was found. -/
def verify (config : Config) (call : Call) : Except Raised (Rat × List (Feed × Finding)) := do
  prepare sha256 config call
  require (isEpoch call.check.started call.check.started) ⟨"clock_untrusted", by decide⟩
  let found ← findings sha256 config call.check
  require (clockAgrees call.check.started call.check.finished)
    ⟨"clock_shift_during_verification", by decide⟩
  pure (call.check.finished, found)

/-- What is saved: `verify`, or `failed_check` where it fails. -/
def checked (config : Config) (call : Call) : Except Raised (Rat × List (Feed × Finding)) :=
  match verify sha256 config call with
  | .ok found => .ok found
  | .error .other => .error .other
  | .error _ => do
      require (isEpoch call.failed call.failed) ⟨"clock_untrusted", by decide⟩
      pure (call.failed, failing config ⟨"refresh_or_verification_failed", by decide⟩)

/-- The state that a task reads. -/
def loadState (config : Config) (now : Rat) : Task Proof := do
  let store ← look id
  lift (state sha256 config now store)

/-- `main` -/
def main (call : Call) : Task Summary := do
  let fields ← lift call.configFile
  let config ← lift (configuration fields)
  lift call.resources
  let prior ← loadState sha256 config call.read
  if call.action = .status then do
    let current ← lift (currentOf sha256 config call.current)
    pure (summary config prior current call.summarized)
  else do
    lift call.lock
    let prior ← loadState sha256 config call.readLocked
    let (time, found) ← lift (checked sha256 config call)
    let proof := recordAll prior time found
    save sha256 ⟨call, config, time, found⟩ proof
    let current ← lift (currentOf sha256 config call.current)
    pure (summary config proof current call.summarized)

/-- The store after some calls, each with what interrupts it. -/
def afterCalls (store : Store) (calls : List (Call × List Fault)) : Store :=
  calls.foldl (fun store entry => (main sha256 entry.1).state store entry.2) store

end Digest

end HomeclusterInfra.BanipProof
