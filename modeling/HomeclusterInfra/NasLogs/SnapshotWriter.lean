import HomeclusterInfra.Library.Mapping
import HomeclusterInfra.NasLogs.SnapshotFormat

/-!
# The writer of snapshots

The script on the NAS lists its log files by kind, generation and path, and
emits one after the other. It gives up, so that no complete stream comes to be,
when a file cannot be read, a number has more than 18 digits, or a file or the
sum of all files is too large.

What the script emits within these limits is what the collector reads back, and
what the collector accepts is a stream of the snapshot it reads.
-/

set_option autoImplicit false

namespace HomeclusterInfra.NasLogs

open Text Checked Formats Numerals

/-! ## The script -/

/-- `MAX_FILE_BYTES` -/
def maxFileBytes : Nat := 2097152

/-- `MAX_TOTAL_BYTES` -/
def maxTotalBytes : Nat := 25165824

/-- The arguments of one call of `emit_file`. -/
structure EmitCall where
  kind : String
  generation : String
  path : String
  deriving DecidableEq

/-- The calls of `emit_file` in order. -/
def emitCalls : List EmitCall := [
  ⟨"kernel", "current", "/mnt/HDA_ROOT/.logs/kmsg"⟩,
  ⟨"kernel", "1", "/mnt/HDA_ROOT/.logs/kmsg.1"⟩,
  ⟨"kernel", "2", "/mnt/HDA_ROOT/.logs/kmsg.2"⟩,
  ⟨"samba", "current", "/usr/local/samba/var/log.samba"⟩,
  ⟨"samba", "1", "/usr/local/samba/var/log.samba.1"⟩,
  ⟨"samba", "2", "/usr/local/samba/var/log.samba.2"⟩,
  ⟨"smbd", "current", "/usr/local/samba/var/log.smbd"⟩,
  ⟨"smbd", "old", "/usr/local/samba/var/log.smbd.old"⟩,
  ⟨"nmbd", "current", "/var/log/log.nmbd"⟩,
  ⟨"nmbd", "old", "/var/log/log.nmbd.old"⟩,
  ⟨"winbindd", "current", "/usr/local/samba/var/log.winbindd-idmap"⟩,
  ⟨"winbindd", "old", "/usr/local/samba/var/log.winbindd-idmap.old"⟩,
  ⟨"storage", "current", "/var/log/storage_lib.log"⟩,
  ⟨"storage", "old", "/var/log/storage_lib.log.bak"⟩,
  ⟨"hal", "current", "/var/log/hal_lib.log"⟩,
  ⟨"hal", "old", "/var/log/hal_lib.log.bak"⟩,
  ⟨"hal_daemon", "current", "/var/log/hal_daemon.log"⟩,
  ⟨"hal_daemon", "old", "/var/log/hal_daemon.log.bak"⟩,
  ⟨"sdmd", "current", "/var/log/SDMD.log"⟩,
  ⟨"sdmd", "old", "/var/log/SDMD.log.bak"⟩,
  ⟨"storage_util", "current", "/var/log/storage_util.log"⟩,
  ⟨"iscsi", "current", "/var/log/iscsi_util.log"⟩]

/-- What the script finds at a path: nothing, something that is no readable
regular file, or a file. -/
inductive Found where
  | missing
  | unusable
  | regular (file : LogFile)

/-- What a record of a snapshot is found as. -/
def Found.ofRecord : Option LogFile → Found
  | none => .missing
  | some file => .regular file

/-- `emit_file`: the total of bytes afterwards and what is printed, unless the
script gives up. -/
def emitFile (files : String → Found) (total : Nat) (call : EmitCall) :
    Option (Nat × List UInt8) :=
  match files call.path with
  | .missing => some (total, fieldLine [word "M", word call.kind, word call.generation])
  | .unusable => none
  | .regular file =>
      let size := file.data.length
      if [file.dev, file.inode, size, file.mtime].all (fun n => (printed n).length ≤ 18) ∧
          size ≤ maxFileBytes ∧ total + size ≤ maxTotalBytes then
        some (total + size, fieldLine [word "F", word call.kind, word call.generation,
          printed file.dev, printed file.inode, printed size, printed file.mtime] ++ file.data)
      else none

/-- Some calls of `emit_file`. -/
def emitFiles (files : String → Found) : Nat → List EmitCall → Option (List UInt8)
  | _, [] => some []
  | total, call :: calls => do
      let (total, text) ← emitFile files total call
      let more ← emitFiles files total calls
      pure (text ++ more)

/-- The script. -/
def emitSnapshot (files : String → Found) : Option (List UInt8) :=
  (emitFiles files 0 emitCalls).map fun body => magic ++ body ++ trailer

/-! ## Snapshots and files -/

/-- The records of a snapshot in slot order. -/
def Snapshot.records (snapshot : Snapshot) : List (Slot × Option LogFile) :=
  slots.map fun slot => (slot, snapshot.file slot.1 slot.2)

/-- The files at the paths of the script are the records of the snapshot. -/
def Shows (files : String → Found) (snapshot : Snapshot) : Prop :=
  ∀ pair ∈ slots.zip emitCalls,
    files pair.2.path = Found.ofRecord (snapshot.file pair.1.1 pair.1.2)

/-- The number of bytes of the files in some slots. -/
def totalBytes (snapshot : Snapshot) (within : List Slot) : Nat :=
  (within.map fun slot => ((snapshot.file slot.1 slot.2).map fun file => file.data.length).getD 0).sum

/-- The limits of one file. -/
structure LogFile.Fits (file : LogFile) : Prop where
  dev : file.dev < 10 ^ 18
  inode : file.inode < 10 ^ 18
  mtime : file.mtime < 10 ^ 18
  size : file.data.length ≤ 2 * 1024 * 1024

/-- The limits of the script. -/
structure Snapshot.Emittable (snapshot : Snapshot) : Prop where
  files : ∀ slot ∈ slots, ∀ file, snapshot.file slot.1 slot.2 = some file → file.Fits
  total : totalBytes snapshot slots ≤ 24 * 1024 * 1024

theorem mem_slots {kind : Kind} {gen : Gen} : (kind, gen) ∈ slots ↔ gen ∈ kind.gens := by
  simp [slots, kind.mem_all]

theorem current_mem_slots (kind : Kind) : (kind, Gen.current) ∈ slots := by
  rw [mem_slots, kind.gens_eq]
  exact List.mem_cons_self

/-- Every snapshot is shown by some files. -/
theorem exists_shows (snapshot : Snapshot) : ∃ files, Shows files snapshot := by
  refine ⟨fun path => match (slots.zip emitCalls).find? (fun pair => pair.2.path = path) with
    | some pair => Found.ofRecord (snapshot.file pair.1.1 pair.1.2)
    | none => .missing, ?_⟩
  have distinct : ∀ pair ∈ slots.zip emitCalls,
      (slots.zip emitCalls).find? (fun other => other.2.path = pair.2.path) = some pair := by
    decide
  intro pair member
  simp only [distinct pair member]

/-! ## What the script emits -/

section Emit

variable {files : String → Found} {snapshot : Snapshot}

/-- The number of bytes of the file in a slot. -/
def slotBytes (snapshot : Snapshot) (slot : Slot) : Nat :=
  totalBytes snapshot [slot]

theorem totalBytes_cons (slot : Slot) (within : List Slot) :
    totalBytes snapshot (slot :: within) = slotBytes snapshot slot + totalBytes snapshot within := by
  simp [totalBytes, slotBytes]

/-- A call within the limits prints an encoding of its record. -/
theorem emitFile_encodes {slot : Slot} {call : EmitCall} {total : Nat}
    (kind : call.kind = slot.1.name) (generation : call.generation = slot.2.name)
    (shows : files call.path = Found.ofRecord (snapshot.file slot.1 slot.2))
    (fits : ∀ file, snapshot.file slot.1 slot.2 = some file → file.Fits)
    (room : total + slotBytes snapshot slot ≤ maxTotalBytes) :
    ∃ text, emitFile files total call = some (total + slotBytes snapshot slot, text) ∧
      Encodes slot (snapshot.file slot.1 slot.2) text ∧
      text.length ≤ 256 + slotBytes snapshot slot := by
  unfold emitFile
  rw [shows, kind, generation]
  cases held : snapshot.file slot.1 slot.2 with
  | none =>
      have rotated : slot.2 ≠ .current := by
        intro current
        have present := snapshot.currentPresent slot.1
        rw [← current, held] at present
        cases present
      have short := @short_missingFields slot
      have size : slotBytes snapshot slot = 0 := by
        simp [slotBytes, totalBytes, held]
      refine ⟨fieldLine (missingFields slot), by rw [size]; rfl, .missing rotated, ?_⟩
      rw [fieldLine, List.length_append, List.length_singleton]
      omega
  | some file =>
      have limits := fits file held
      have size : slotBytes snapshot slot = file.data.length := by
        simp [slotBytes, totalBytes, held]
      rw [size] at room ⊢
      have ofDev := numeralOf_printed limits.dev
      have ofInode := numeralOf_printed limits.inode
      have ofMtime := numeralOf_printed limits.mtime
      have bound : file.data.length ≤ maxFileBytes := limits.size
      have ofSize : NumeralOf file.data.length (printed file.data.length) :=
        numeralOf_printed (lt_of_le_of_lt limits.size (by decide))
      have short := @short_fileFields slot _ _ _ _ _ ofDev ofInode ofSize ofMtime
      refine ⟨_, if_pos ⟨?_, bound, room⟩, .file file ofDev ofInode ofSize ofMtime limits.size, ?_⟩
      · rw [List.length_append, fieldLine, List.length_append, List.length_singleton]
        simp only [fileFields] at short
        omega
      · simp [ofDev.1, ofInode.1, ofSize.1, ofMtime.1]

/-- Some calls within the limits print encodings of their records. -/
theorem emitFiles_encodes {pairs : List (Slot × EmitCall)} {total : Nat}
    (named : ∀ pair ∈ pairs, pair.2.kind = pair.1.1.name ∧ pair.2.generation = pair.1.2.name)
    (shows : ∀ pair ∈ pairs,
      files pair.2.path = Found.ofRecord (snapshot.file pair.1.1 pair.1.2))
    (fits : ∀ pair ∈ pairs, ∀ file, snapshot.file pair.1.1 pair.1.2 = some file → file.Fits)
    (room : total + totalBytes snapshot (pairs.map Prod.fst) ≤ maxTotalBytes) :
    ∃ body, emitFiles files total (pairs.map Prod.snd) = some body ∧
      EncodesEach Encodes (pairs.map fun pair => (pair.1, snapshot.file pair.1.1 pair.1.2)) body ∧
      body.length ≤ 256 * pairs.length + totalBytes snapshot (pairs.map Prod.fst) := by
  induction pairs generalizing total with
  | nil => exact ⟨[], rfl, .nil, Nat.zero_le _⟩
  | cons pair pairs ih =>
      rw [List.forall_mem_cons] at named shows fits
      rw [List.map_cons, totalBytes_cons] at room
      obtain ⟨text, emitted, encodes, length⟩ := emitFile_encodes named.1.1 named.1.2 shows.1 fits.1
        (by omega : total + slotBytes snapshot pair.1 ≤ maxTotalBytes)
      have rest : total + slotBytes snapshot pair.1 + totalBytes snapshot (pairs.map Prod.fst) ≤
          maxTotalBytes := by omega
      obtain ⟨body, others, encodesMore, lengths⟩ := ih named.2 shows.2 fits.2 rest
      refine ⟨text ++ body, ?_, .cons encodes encodesMore, ?_⟩
      · rw [List.map_cons, emitFiles, emitted]
        simp only [Option.bind_eq_bind, Option.bind_some, others]
        rfl
      · rw [List.map_cons, totalBytes_cons, List.length_append, List.length_cons]
        omega

/-- What the script emits of a snapshot within its limits is read back. -/
theorem emitSnapshot_parses (shows : Shows files snapshot) (emittable : snapshot.Emittable) :
    ∃ bytes, emitSnapshot files = some bytes ∧ parseSnapshot bytes = .ok snapshot.records := by
  have slotSide : (slots.zip emitCalls).map Prod.fst = slots := by decide
  have callSide : (slots.zip emitCalls).map Prod.snd = emitCalls := by decide
  have named : ∀ pair ∈ slots.zip emitCalls,
      pair.2.kind = pair.1.1.name ∧ pair.2.generation = pair.1.2.name := by
    decide
  have room := emittable.total
  rw [← slotSide] at room
  obtain ⟨body, emitted, encodes, length⟩ := emitFiles_encodes named shows
    (fun pair member => emittable.files pair.1 (slotSide ▸ List.mem_map_of_mem member))
    (by rw [Nat.zero_add]; exact room : 0 + _ ≤ maxTotalBytes)
  rw [callSide] at emitted
  have records : (slots.zip emitCalls).map
      (fun pair => (pair.1, snapshot.file pair.1.1 pair.1.2)) = snapshot.records := by
    conv_rhs => rw [Snapshot.records, ← slotSide, List.map_map]
    rfl
  rw [records] at encodes
  refine ⟨magic ++ body ++ trailer, by rw [emitSnapshot, emitted]; rfl, parseSnapshot_eq_ok.2
    ⟨?_, ?_, body, encodes, rfl⟩⟩
  · have count : (slots.zip emitCalls).length = 22 := by decide
    have first : magic.length = 8 := rfl
    have last : trailer.length = 4 := rfl
    rw [List.length_append, List.length_append, first, last]
    rw [count] at length
    unfold maxSnapshot
    omega
  · rw [Snapshot.records, List.map_map]
    exact List.map_id _

end Emit

/-! ## The protocol -/

/-- The text is refused. -/
def Refused (data : List UInt8) : Prop :=
  ∃ failure, parseSnapshot data = .error failure

theorem refused_of_not_accepted {data : List UInt8}
    (never : ∀ records, parseSnapshot data ≠ .ok records) : Refused data := by
  cases parsed : parseSnapshot data with
  | error failure => exact ⟨failure, parsed⟩
  | ok records => exact absurd parsed (never records)

theorem slots_nodup : slots.Nodup := by
  decide

/-- The record of a current file is a file. -/
theorem isSome_of_encodesEach {records : List (Slot × Option LogFile)} {body : List UInt8}
    (encodes : EncodesEach Encodes records body) :
    ∀ record ∈ records, record.1.2 = .current → record.2.isSome := by
  induction encodes with
  | nil => simp
  | cons first _ ih =>
      intro record member current
      rcases List.mem_cons.1 member with rfl | later
      · cases first with
        | missing rotated => exact absurd current rotated
        | file => rfl
      · exact ih record later current

/-- Accepted records are those of a snapshot: the current files are present. -/
theorem exists_snapshot {records : List (Slot × Option LogFile)} {body : List UInt8}
    (keys : records.map Prod.fst = slots) (encodes : EncodesEach Encodes records body) :
    ∃ snapshot : Snapshot, records = snapshot.records := by
  have distinct : (records.map Prod.fst).Nodup := keys ▸ slots_nodup
  have found : ∀ record ∈ records, records.lookup record.1 = some record.2 := fun record member =>
    Keyed.lookup_of_mem distinct member
  refine ⟨⟨fun kind gen => (records.lookup (kind, gen)).join, ?_⟩, ?_⟩
  · intro kind
    have listed : (kind, Gen.current) ∈ records.map Prod.fst := keys ▸ current_mem_slots kind
    obtain ⟨record, member, same⟩ := List.mem_map.1 listed
    have present := isSome_of_encodesEach encodes record member (by rw [same])
    rw [← same, found record member]
    exact present
  · have read : records = slots.map fun slot => (slot, (records.lookup slot).join) := by
      conv_rhs => rw [← keys, List.map_map]
      refine (List.map_id records).symm.trans (List.map_congr_left ?_)
      intro record member
      simp only [Function.comp, found record member, Option.join_some, id]
    exact read

/-- **The snapshot protocol round-trips.** What the script emits of a snapshot
within its limits is read back as that snapshot, no proper beginning and no
continuation of it is accepted, and every text that is accepted is the stream of
a snapshot, up to leading zeros in the numbers. -/
theorem snapshot_roundTrip :
    (∀ (snapshot : Snapshot) (files : String → Found), Shows files snapshot →
      snapshot.Emittable → ∃ bytes, emitSnapshot files = some bytes ∧
        parseSnapshot bytes = .ok snapshot.records ∧
        (∀ part, part <+: bytes → part ≠ bytes → Refused part) ∧
        ∀ more, more ≠ [] → Refused (bytes ++ more)) ∧
      ∀ data records, parseSnapshot data = .ok records →
        ∃ snapshot : Snapshot, records = snapshot.records ∧
          ∃ body, EncodesEach Encodes snapshot.records body ∧ data = magic ++ body ++ trailer := by
  constructor
  · intro snapshot files shows emittable
    obtain ⟨bytes, emitted, parsed⟩ := emitSnapshot_parses shows emittable
    refine ⟨bytes, emitted, parsed, ?_, ?_⟩
    · rintro part ⟨more, rfl⟩ proper
      refine refused_of_not_accepted fun records accepted => proper ?_
      rw [eq_nil_of_accepted accepted parsed, List.append_nil]
    · intro more nonempty
      exact refused_of_not_accepted fun records accepted =>
        nonempty (eq_nil_of_accepted parsed accepted)
  · intro data records accepted
    obtain ⟨-, keys, body, encodes, shape⟩ := parseSnapshot_eq_ok.1 accepted
    obtain ⟨snapshot, rfl⟩ := exists_snapshot keys encodes
    exact ⟨snapshot, rfl, body, encodes, shape⟩

/-- The kernel log has some bytes, the other files are empty. -/
def kernelSnapshot (data : List UInt8) : Snapshot where
  file kind gen := if gen = .current then some ⟨1, 1, 0, if kind = .kernel then data else []⟩
    else none
  currentPresent _ := rfl

theorem emittable_kernelSnapshot {data : List UInt8} (small : data.length ≤ 2 * 1024 * 1024) :
    (kernelSnapshot data).Emittable := by
  constructor
  · intro slot _ file found
    simp only [kernelSnapshot] at found
    split at found
    · cases found
      refine ⟨by simp, by simp, by simp, ?_⟩
      split
      · simpa using small
      · exact Nat.zero_le _
    · cases found
  · simp [totalBytes, slots, Kind.all, Kind.gens, kernelSnapshot]
    omega

/-- A snapshot of one line is read back, but not without its last byte, and not with one more. -/
theorem snapshot_roundTrip_line : ∃ files bytes,
    Shows files (kernelSnapshot [0x6f, 0x6b, 0x0a]) ∧ emitSnapshot files = some bytes ∧
      parseSnapshot bytes = .ok (kernelSnapshot [0x6f, 0x6b, 0x0a]).records ∧
        Refused bytes.dropLast ∧ Refused (bytes ++ [0x0a]) := by
  obtain ⟨files, shows⟩ := exists_shows (kernelSnapshot [0x6f, 0x6b, 0x0a])
  obtain ⟨bytes, emitted, parsed, part, more⟩ :=
    snapshot_roundTrip.1 _ files shows (emittable_kernelSnapshot (by decide))
  refine ⟨files, bytes, shows, emitted, parsed, part _ bytes.dropLast_prefix fun same => ?_,
    more _ (List.cons_ne_nil _ _)⟩
  -- Nothing accepted is empty, so there is a last byte.
  have lengths := congrArg List.length same
  obtain ⟨-, _, body, -, shape⟩ := parseSnapshot_eq_ok.1 parsed
  rw [shape, List.length_dropLast, List.length_append, List.length_append] at lengths
  have large : 0 < magic.length := by decide
  omega

end HomeclusterInfra.NasLogs
