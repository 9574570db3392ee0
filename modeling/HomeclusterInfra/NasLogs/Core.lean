import HomeclusterInfra.Library.Checked
import HomeclusterInfra.Library.JsonText
import HomeclusterInfra.NasLogs.NormalPatterns

/-!
# Snapshots, cursors and the durable outbox

`prepare` turns a snapshot of the log files into an outbox: it finds the file
each cursor was taken from among the generations of its kind, cuts what
follows the cursor into records, counts the normal ones, puts the others into
batches and moves the cursors to the end of what it read. The result holds the
old ledger and, as `pending`, the batches with the ledger that is to replace
it once they are delivered.

The SHA-256 digest is a parameter.
-/

set_option autoImplicit false

namespace HomeclusterInfra.NasLogs

open Text JsonText Checked
open Regex (Rx)
open Regex.Rx

/-! ## State -/

/-- Where the reading of a kind's current file stopped. -/
structure Cursor where
  dev : Nat
  inode : Nat
  offset : Nat
  sha256 : String
  sizeSeen : Nat
  deriving DecidableEq

def Cursor.id (cursor : Cursor) : Nat × Nat :=
  (cursor.dev, cursor.inode)

/-- One Loki stream with one entry. -/
structure Stream where
  environment : String
  source : String
  serviceName : String
  logKind : Kind
  level : String
  timestamp : List Char
  line : List Char
  deriving DecidableEq

/-- The streams of one push. -/
abbrev Batch := List Stream

/-- A state without its outbox. `lastSuccess` is absent until the first poll;
the initial state writes an integer zero for it. The numbers are those that the program saves:
`validate_state` accepts floats for `last_ns`, `sent` and `gaps`, and other integers for
`last_success`. -/
structure Ledger where
  cursors : Kind → Option Cursor
  lastNs : Nat
  lastSuccess : Option Rat
  sent : Nat
  gaps : Nat
  normal : List (String × Nat)

/-- The batches to deliver and the ledger to install after that. -/
structure Outbox where
  batches : List Batch
  next : Ledger

/-- A persisted state. The ledger inside an outbox has no outbox of its own. -/
structure State extends Ledger where
  pending : Option Outbox

/-- A ledger as a state with nothing pending. -/
def Ledger.toState (ledger : Ledger) : State :=
  { ledger with pending := none }

/-- `initial_state` -/
def initialState : State where
  cursors _ := none
  lastNs := 0
  lastSuccess := none
  sent := 0
  gaps := 0
  normal := []
  pending := none

/-! ### The state as JSON -/

def Cursor.toJson (cursor : Cursor) : Json :=
  .object [("dev", .int cursor.dev), ("inode", .int cursor.inode),
    ("offset", .int cursor.offset), ("sha256", .text cursor.sha256),
    ("size_seen", .int cursor.sizeSeen)]

def Stream.toJson (stream : Stream) : Json :=
  .object [
    ("stream", .object [("environment", .text stream.environment),
      ("source", .text stream.source), ("service_name", .text stream.serviceName),
      ("log_kind", .text stream.logKind.name), ("level", .text stream.level)]),
    ("values", .arr [.arr [.str stream.timestamp, .str stream.line]])]

def batchJson (batch : Batch) : Json :=
  .object [("streams", .arr (batch.map Stream.toJson))]

/-- A ledger with its pending field. -/
def Ledger.toJson (ledger : Ledger) (pending : Json) : Json :=
  .object [("version", .int 1),
    ("cursors", .object (Kind.all.filterMap fun kind =>
      (ledger.cursors kind).map fun cursor => (kind.name, cursor.toJson))),
    ("last_ns", .int ledger.lastNs),
    ("last_success", (ledger.lastSuccess.map Json.float).getD (.int 0)),
    ("sent", .int ledger.sent), ("gaps", .int ledger.gaps),
    ("normal", .object (ledger.normal.map fun entry => (entry.1, .int entry.2))),
    ("pending", pending)]

def Outbox.toJson (outbox : Outbox) : Json :=
  .object [("batches", .arr (outbox.batches.map batchJson)),
    ("next", outbox.next.toJson .null)]

def State.toJson (state : State) : Json :=
  state.toLedger.toJson ((state.pending.map Outbox.toJson).getD .null)

/-! ### Validation -/

/-- How a call ends without a result: an exception, or a loop that never ends. -/
inductive Failure where
  | valueError (message : String)
  | diverges
  deriving DecidableEq

/-- Raise a `ValueError` unless a condition holds. -/
def check (holds : Bool) (message : String) : Except Failure Unit :=
  require holds (.valueError message)

/-- `[a-f0-9]{64}` -/
def isSha256 (text : String) : Bool :=
  ((exactly 64 (among "abcdef0123456789")).fullmatch text.toList).isSome

/-- `[a-z_]+/[a-z_]+` -/
def isCounterKey (text : String) : Bool :=
  let name : Rx Char := .plus (.symbol fun char => char.isLower || char = '_')
  ((cat [name, lit "/", name]).fullmatch text.toList).isSome

/-- The bounds of a cursor. -/
def Cursor.valid (cursor : Cursor) : Bool :=
  cursor.offset ≤ maxFile && cursor.sizeSeen ≤ maxFile && isSha256 cursor.sha256

/-- The labels of a stream of this collector. -/
def Stream.labelsValid (stream : Stream) : Bool :=
  stream.source == "qnap-filelog" && stream.environment == "production"

/-- `timestamp.isascii() and timestamp.isdecimal()` -/
def Stream.entryValid (stream : Stream) : Bool :=
  !stream.timestamp.isEmpty && stream.timestamp.all Char.isDigit

/-- The part of `validate_state` about the ledger. -/
def Ledger.validate (ledger : Ledger) : Except Failure Unit := do
  check (ledger.lastSuccess.all (0 ≤ ·)) "invalid state number"
  check (Kind.all.all fun kind => (ledger.cursors kind).all Cursor.valid) "invalid cursor bounds"
  check (ledger.normal.length ≤ 256 && ledger.normal.all fun entry => isCounterKey entry.1)
    "invalid normal counters"

/-- The checks of one pending batch. -/
def validateBatch (batch : Batch) : Except Failure Unit := do
  check (encodedLength {} (batchJson batch) ≤ 262144) "invalid pending batch"
  check (batch.all Stream.labelsValid) "invalid pending stream"
  check (batch.all Stream.entryValid) "invalid pending entry"

/-- The checks of the outbox. -/
def Outbox.validate (outbox : Outbox) : Except Failure Unit := do
  check (outbox.batches.length ≤ 512) "invalid outbox"
  outbox.next.validate
  outbox.batches.forM validateBatch

/-- `validate_state` -/
def validateState (state : State) : Except Failure Unit := do
  state.toLedger.validate
  match state.pending with
  | none => pure ()
  | some outbox => outbox.validate

/-! ## Records -/

/-- The line feed byte. -/
def lineFeed : UInt8 := 10

/-- The line feed terminated lines of a text, with the offset after each. -/
def terminatedLines : Nat → List (List UInt8) → List (List UInt8 × Nat)
  | _, [] => []
  | position, part :: parts =>
      let raw := part ++ [lineFeed]
      (raw, position + raw.length) :: terminatedLines (position + raw.length) parts

/-- The lines after an offset; the unterminated last one only of a rotated file. -/
def linesAfter (data : List UInt8) (offset : Nat) (rotated : Bool) : List (List UInt8 × Nat) :=
  let lines := terminatedLines offset ((data.drop offset).splitOn lineFeed).dropLast
  let position := offset + (lines.map fun line => line.1.length).sum
  if rotated && position < data.length then lines ++ [(data.drop position, data.length)] else lines

/-- A record under construction: its bytes, the offset after it, whether it
begins with a header, and its number of lines. -/
structure Group where
  raw : List UInt8
  stop : Nat
  header : Bool
  lines : Nat

/-- A byte of an ASCII class. -/
def byteClass (accepts : Char → Bool) : Rx UInt8 :=
  .symbol fun byte => byte.toNat < 128 && accepts (Char.ofNat byte.toNat)

def byteLit (text : String) : Rx UInt8 :=
  .word (asciiBytes text.toList)

def byteDigits (count : Nat) : Rx UInt8 :=
  exactly count (byteClass Char.isDigit)

/-- `SAMBA_HEADER` -/
def sambaHeader : Rx UInt8 :=
  cat [bol, byteLit "[", byteDigits 4, byteLit "/", byteDigits 2, byteLit "/", byteDigits 2,
    byteLit " ", byteDigits 2, byteLit ":", byteDigits 2, byteLit ":", byteDigits 2]

/-- `HAL_DATE` -/
def halDate : Rx UInt8 :=
  let names (texts : List String) := oneOf (texts.map byteLit)
  cat [bol, group 1 (names ["Mon", "Tue", "Wed", "Thu", "Fri", "Sat", "Sun"]), byteLit " ",
    group 2 (names ["Jan", "Feb", "Mar", "Apr", "May", "Jun", "Jul", "Aug", "Sep", "Oct", "Nov",
      "Dec"]),
    plus (byteLit " "), plus (byteClass Char.isDigit), byteLit " ",
    plus (byteClass fun char => char.isDigit || char = ':'), byteLit " ", byteDigits 4,
    star (.symbol fun byte => (9 ≤ byte.toNat && byte.toNat ≤ 13) || byte.toNat = 32),
    .look fun _ rest => rest.isEmpty || rest == [lineFeed]]

/-- Whether the lines of a kind are grouped under header lines. -/
def Kind.grouped (kind : Kind) : Bool :=
  kind.isSamba || kind = .halDaemon

/-- Whether a line is a header of its kind. -/
def isHeader (kind : Kind) (raw : List UInt8) : Bool :=
  if kind.isSamba then (sambaHeader.matchPrefix raw).isSome
  else if kind = .halDaemon then (halDate.matchPrefix raw).isSome
  else false

/-- Add a line to the groups, the last group first. -/
def addLine (kind : Kind) (groups : List Group) (line : List UInt8 × Nat) : List Group :=
  match kind.grouped, isHeader kind line.1, groups with
  | true, false, last :: earlier =>
      { last with raw := last.raw ++ line.1, stop := line.2, lines := last.lines + 1 } :: earlier
  | _, header, groups => ⟨line.1, line.2, header, 1⟩ :: groups

/-- Header and body can straddle a snapshot: a lone header waits one quiet poll. -/
def dropLoneHeader (waits : Bool) : List Group → List Group
  | [] => []
  | last :: earlier => if last.header && last.lines = 1 && waits then earlier else last :: earlier

/-- `completed_records` -/
def completedRecords (data : List UInt8) (offset : Nat) (kind : Kind) (seenSize : Int)
    (rotated : Bool) : List (List UInt8 × Nat) :=
  let groups := (linesAfter data offset rotated).foldl (addLine kind) []
  let kept := dropLoneHeader (!rotated && seenSize ≠ data.length) groups
  kept.reverse.map fun group => (group.raw, group.stop)

/-! ## Severity and entries -/

section Entries

variable [UnicodeData]

/-- A letter of a case-insensitive pattern. -/
def sameLetter (letter char : Char) : Bool :=
  char = letter || char = letter.toUpper || (letter = 'k' && char.toNat = 0x212a) ||
    (letter = 's' && char.toNat = 0x17f) ||
    (letter = 'i' && (char.toNat = 0x130 || char.toNat = 0x131))

/-- A literal under `(?i)`. -/
def litIgnoringCase (text : String) : Rx Char :=
  cat (text.toList.map fun letter => .symbol (sameLetter letter))

def isWordChar (char : Char) : Bool :=
  UnicodeData.isAlnum char || char = '_'

/-- `\b` -/
def wordBoundary : Rx Char :=
  .look fun past rest => (past.head?.any isWordChar) != (rest.head?.any isWordChar)

/-- The words that make a message an error. -/
def errorPattern : Rx Char :=
  cat [wordBoundary,
    group 1 (oneOf (["failed", "failure", "error", "unable", "not clean",
      "not shut down properly", "not compatible"].map litIgnoringCase)),
    wordBoundary]

/-- The severities of the kernel levels. -/
def kernelLevels : List String :=
  ["emerg", "alert", "critical", "error", "warn", "info", "info", "debug"]

/-- `severity` -/
def severity (kind : Kind) (message : List Char) : String :=
  let native := if kind = .kernel then
      (cat [lit "<", group 1 (among "01234567"), lit ">"]).matchPrefix message
    else none
  match native with
  | some found => kernelLevels.getD (capturedNat found 1) ""
  | none =>
      if (errorPattern.search message).isSome then "error"
      else if kind = .hal && ((lit "Command_Timeout").search message).isSome &&
          ((cat [lit "raw = 0", star space, eol]).search message).isNone then
        "warn"
      else "unknown"

/-- `raw.decode('utf-8', 'replace').rstrip('\r\n')` -/
def recordText (raw : List UInt8) : List Char :=
  rstripWhile (fun char => char = '\r' || char = '\n') (decodeUtf8 raw)

/-- The time stamp a message carries. -/
def sourceTime (message : List Char) : Option (List Char) :=
  (cat [timeStamp (among "-/"), optional (seq (lit ".") digits)]).searchText message

/-- The JSON object of an entry. -/
def entryJson (kind : Kind) (bootstrap : Bool) (observedAt : List Char)
    (source : Option (List Char)) (message : List Char) (truncated : Bool) : Json :=
  .obj ((([("message", Json.str message), ("source_file", .text kind.path),
      ("bootstrap", .bool bootstrap), ("observed_at", .str observedAt),
      ("source_time", (source.map fun time => Json.str (time ++ " JST".toList)).getD .null),
      ("filter_version", .text ruleVersion)] : List (String × Json)) ++
      (if truncated then [("truncated", Json.bool true)] else [])).map fun field =>
    (field.1.toList, field.2))

/-- The largest encoding of an entry. -/
def maxEntry : Nat := 16384

/-- Halve the message until the entry fits. A message of at most one character
is its own half, so an entry that does not fit with it is never left. -/
def shorten (build : List Char → Bool → Json) :
    Nat → List Char → Bool → Except Failure (List Char × Bool)
  | 0, _, _ => .error .diverges
  | fuel + 1, message, truncated =>
      if encodedLength ⟨false, ", ".toList, ": ".toList⟩ (build message truncated) ≤ maxEntry then
        .ok (message, truncated)
      else if truncated && message.length ≤ 1 then .error .diverges
      else shorten build fuel (message.take (max 1 (message.length / 2))) true

/-- `now_ns / 1e9` -/
def seconds (nowNs : Nat) : Rat :=
  Binary64.nearest (Binary64.nearest nowNs / 1000000000)

/-- `entry`, at a time from 1970 on; `prepare` passes no earlier one. -/
def entry (kind : Kind) (raw : List UInt8) (bootstrap : Bool) (nowNs : Nat) :
    Except Failure (String × List Char) := do
  let message := recordText raw
  let observedAt ← match Binary64.isoFormat (seconds nowNs) with
    | some text => pure text
    | none => .error (.valueError "year is out of range")
  let build := entryJson kind bootstrap observedAt (sourceTime message)
  let (message, truncated) ← shorten build (message.length + 2) message false
  pure (severity kind (recordText raw), dumps (.compact false) (build message truncated))

/-- The normal pattern of a record, as `prepare` asks for it. -/
def recordPattern (filterNormal : Bool) (kind : Kind) (raw : List UInt8) : Option String :=
  let text := recordText raw
  -- Native severity is authoritative; words inside SMART attribute names are not.
  let level := if kind = .kernel then severity kind text else "unknown"
  if filterNormal then normalPattern kind text level else none

/-- The call of `normal_pattern` returns. -/
def recordReads (filterNormal : Bool) (kind : Kind) (raw : List UInt8) : Bool :=
  let text := recordText raw
  let level := if kind = .kernel then severity kind text else "unknown"
  !filterNormal || patternReads kind text level

/-! ## The outbox -/

variable (digest : List UInt8 → String)

/-- `matches_prefix`, of a record that exists. -/
def matchesPrefix (file : LogFile) (cursor : Cursor) : Bool :=
  cursor.offset ≤ file.data.length && digest (file.data.take cursor.offset) == cursor.sha256

/-- The generations of a kind that exist, the oldest first. -/
def chronological (snapshot : Snapshot) (kind : Kind) : List (Gen × LogFile) :=
  kind.gens.reverse.filterMap fun gen => (snapshot.file kind gen).map fun file => (gen, file)

/-- The generation the cursor was taken from: the first with its identity and
prefix, or else the first with its prefix. QTS copytruncate gives the saved
generation a different inode. -/
def findCursor (files : List (Gen × LogFile)) (cursor : Cursor) : Option Nat :=
  match files.findIdx? fun file => file.2.id == cursor.id && matchesPrefix digest file.2 cursor with
  | some index => some index
  | none => files.findIdx? fun file => matchesPrefix digest file.2 cursor

/-- The files to read and from where, and whether a gap is counted. -/
def work (snapshot : Snapshot) (kind : Kind) :
    Option Cursor → Bool × List (Gen × LogFile × Nat)
  | none => (false, [(.current, snapshot.current kind, 0)])
  | some previous =>
      match findCursor digest (chronological snapshot kind) previous with
      | none => (true, [(.current, snapshot.current kind, 0)])
      | some index =>
          match (chronological snapshot kind).drop index with
          | [] => (false, [])
          | (gen, file) :: later =>
              (false, (gen, file, previous.offset) :: later.map fun next => (next.1, next.2, 0))

/-- The records of one file to read, and the offset after them. -/
def fileRecords (kind : Kind) (previous : Option Cursor) (item : Gen × LogFile × Nat) :
    List (List UInt8) × Nat :=
  let (gen, file, offset) := item
  let records := completedRecords file.data offset kind
    ((previous.map fun cursor => (cursor.sizeSeen : Int)).getD (-1)) (gen ≠ .current)
  let stop := (records.getLast?.map Prod.snd).getD offset
  let kept := if previous.isNone then records.drop (records.length - 50) else records
  (kept.map Prod.fst, stop)

/-- The variables of the loop of `prepare`. -/
structure Progress where
  next : Ledger
  batches : List Batch
  batch : Batch
  batchSize : Nat

/-- `normal[key] = normal.get(key, 0) + 1` -/
def bump (key : String) : List (String × Nat) → List (String × Nat)
  | [] => [(key, 1)]
  | (name, count) :: rest =>
      if name = key then (name, count + 1) :: rest else (name, count) :: bump key rest

/-- The stream of an entry. -/
def entryStream (kind : Kind) (level : String) (timestamp : Nat) (line : List Char) : Stream where
  environment := "production"
  source := "qnap-filelog"
  serviceName := "qnap-nas"
  logKind := kind
  level := level
  timestamp := natText timestamp
  line := line

/-- Put a stream into the current batch, or begin the next one with it. -/
def Progress.push (progress : Progress) (stream : Stream) : Progress :=
  let size := encodedLength {} stream.toJson + 2
  if 128 * 1024 < progress.batchSize + size then
    { progress with
      batches := progress.batches ++ [progress.batch], batch := [stream], batchSize := 32 + size }
  else
    { progress with
      batch := progress.batch ++ [stream], batchSize := progress.batchSize + size }

/-- The body of the loop over the records. -/
def handleRecord (filterNormal : Bool) (nowNs : Int) (kind : Kind) (bootstrap : Bool)
    (progress : Progress) (raw : List UInt8) : Except Failure Progress := do
  check (recordReads filterNormal kind raw) "Exceeds the limit for integer string conversion"
  match recordPattern filterNormal kind raw with
  | some pattern =>
      pure { progress with
        next := { progress.next with
          normal := bump (kind.name ++ "/" ++ pattern) progress.next.normal } }
  | none =>
      let lastNs := (max nowNs (progress.next.lastNs + 1)).toNat
      let (level, line) ← entry kind raw bootstrap lastNs
      let stamped := { progress with next := { progress.next with lastNs := lastNs } }
      let pushed := stamped.push (entryStream kind level lastNs line)
      pure { pushed with next := { pushed.next with sent := pushed.next.sent + 1 } }

/-- The cursor after reading the current file up to an offset. -/
def cursorAt (file : LogFile) (stop : Nat) : Cursor :=
  ⟨file.dev, file.inode, stop, digest (file.data.take stop), file.data.length⟩

/-- The body of the loop over the files to read. -/
def handleFile (filterNormal : Bool) (nowNs : Int) (kind : Kind) (previous : Option Cursor)
    (progress : Progress) (item : Gen × LogFile × Nat) : Except Failure Progress := do
  let (records, stop) := fileRecords kind previous item
  let progress ← records.foldlM (handleRecord filterNormal nowNs kind previous.isNone) progress
  if item.1 = .current then
    pure { progress with next := { progress.next with
      cursors := Function.update progress.next.cursors kind (some (cursorAt digest item.2.1 stop)) } }
  else
    pure progress

/-- The body of the loop over the kinds. -/
def handleKind (state : State) (snapshot : Snapshot) (filterNormal : Bool) (nowNs : Int)
    (progress : Progress) (kind : Kind) : Except Failure Progress := do
  let previous := state.cursors kind
  let (gap, items) := work digest snapshot kind previous
  let counted := if gap then
      { progress with next := { progress.next with gaps := progress.next.gaps + 1 } }
    else progress
  items.foldlM (handleFile digest filterNormal nowNs kind previous) counted

/-- `prepare` -/
def prepare (state : State) (snapshot : Snapshot) (nowNs : Int) (filterNormal : Bool) :
    Except Failure State := do
  validateState state
  match state.pending with
  | some _ => pure state
  | none =>
      let progress ← Kind.all.foldlM (handleKind digest state snapshot filterNormal nowNs)
        ⟨state.toLedger, [], [], 32⟩
      let batches := progress.batches ++ (if progress.batch.isEmpty then [] else [progress.batch])
      check (batches.length ≤ 512) "outbox limit exceeded"
      -- A negative clock reading is refused by the validation of the new ledger.
      check (0 ≤ nowNs) "invalid state number"
      let next := { progress.next with lastSuccess := some (seconds nowNs.toNat) }
      let out := { state with pending := some ⟨batches, next⟩ }
      validateState out
      check (encodedLength {} out.toJson ≤ maxState) "state limit exceeded"
      pure out

end Entries

end HomeclusterInfra.NasLogs
