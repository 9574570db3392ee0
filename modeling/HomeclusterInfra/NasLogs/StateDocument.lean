import HomeclusterInfra.Library.JsonLengths
import HomeclusterInfra.Library.JsonObject
import HomeclusterInfra.NasLogs.Collector

/-!
# The state as a document

`atomic_save` writes the state as compact JSON in UTF-8 and `load_state` reads
it back. A document of another form holds no state here. What was written of a
state is read as the same state when the counters of the state are a dictionary
and its numbers are doubles.
-/

set_option autoImplicit false

namespace HomeclusterInfra.NasLogs

open Text JsonText Checked Binary64

/-! ## Reading -/

def Cursor.ofJson (value : Json) : Option Cursor :=
  if value.keysAre ["dev", "inode", "offset", "sha256", "size_seen"] then do
    let dev ← (← value.field "dev").asNat
    let inode ← (← value.field "inode").asNat
    let offset ← (← value.field "offset").asNat
    let sha256 ← (← value.field "sha256").asText
    let sizeSeen ← (← value.field "size_seen").asNat
    pure ⟨dev, inode, offset, sha256, sizeSeen⟩
  else none

/-- The kind of a name. -/
def Kind.ofName (name : String) : Option Kind :=
  Kind.all.find? fun kind => kind.name == name

/-- A stream with one entry. -/
def Stream.ofJson (value : Json) : Option Stream := do
  let labels ← value.field "stream"
  let environment ← (← labels.field "environment").asText
  let source ← (← labels.field "source").asText
  let serviceName ← (← labels.field "service_name").asText
  let logKind ← Kind.ofName (← (← labels.field "log_kind").asText)
  let level ← (← labels.field "level").asText
  match (← value.field "values") with
  | .arr [.arr [.str timestamp, .str line]] =>
      some ⟨environment, source, serviceName, logKind, level, timestamp, line⟩
  | _ => none

def batchOfJson (value : Json) : Option Batch :=
  if value.keysAre ["streams"] then do
    (← (← value.field "streams").asList).mapM Stream.ofJson
  else none

/-- The cursors of the kinds; no other key is allowed. -/
def cursorsOfJson (value : Json) : Option (Kind → Option Cursor) :=
  match value with
  | .obj fields =>
      if (fields.all fun field => Kind.all.any fun kind => kind.name.toList == field.1) &&
          fields.all fun field => (Cursor.ofJson field.2).isSome then
        some fun kind => (value.field kind.name).bind Cursor.ofJson
      else none
  | _ => none

/-- A counter of a normal pattern. -/
def counterOfJson (field : List Char × Json) : Option (String × Nat) :=
  field.2.asNat.map fun count => (String.ofList field.1, count)

def countersOfJson : Json → Option (List (String × Nat))
  | .obj fields => fields.mapM counterOfJson
  | _ => none

/-- The time of the last success, absent when it is the integer zero. -/
def lastSuccessOfJson : Json → Option (Option Rat)
  | .int 0 => some none
  | .float value => some (some value)
  | _ => none

/-- The keys of a state. -/
def stateKeys : List String :=
  ["version", "cursors", "last_ns", "last_success", "sent", "gaps", "normal", "pending"]

def Ledger.ofJson (value : Json) : Option Ledger :=
  if value.keysAre stateKeys && ((value.field "version").bind Json.asNat) == some 1 then do
    let cursors ← cursorsOfJson (← value.field "cursors")
    let lastNs ← (← value.field "last_ns").asNat
    let lastSuccess ← lastSuccessOfJson (← value.field "last_success")
    let sent ← (← value.field "sent").asNat
    let gaps ← (← value.field "gaps").asNat
    let normal ← countersOfJson (← value.field "normal")
    pure ⟨cursors, lastNs, lastSuccess, sent, gaps, normal⟩
  else none

def Outbox.ofJson (value : Json) : Option Outbox :=
  if value.keysAre ["batches", "next"] then do
    let batches ← (← (← value.field "batches").asList).mapM batchOfJson
    let next ← value.field "next"
    match (← next.field "pending") with
    | .null => pure ⟨batches, ← Ledger.ofJson next⟩
    | _ => none
  else none

def State.ofJson (value : Json) : Option State := do
  let ledger ← Ledger.ofJson value
  match (← value.field "pending") with
  | .null => some { ledger with pending := none }
  | outbox => (Outbox.ofJson outbox).map fun outbox => { ledger with pending := some outbox }

/-- The bytes that `atomic_save` writes. -/
def savedBytes (state : State) : List UInt8 :=
  utf8Bytes (dumps (.compact false) state.toJson)

/-- `load_state`, of the bytes of a file. -/
def loadBytes (data : List UInt8) : Option State :=
  if maxState < data.length then none
  else do
    let text ← utf8Decode data
    let document ← loads text
    let state ← State.ofJson document
    if (validateState state).isOk then some state else none

/-! ## Reading back -/

section ReadingBack

theorem Cursor.ofJson_toJson (cursor : Cursor) : Cursor.ofJson cursor.toJson = some cursor := by
  simp [Cursor.ofJson, Cursor.toJson, Mapping.has]

theorem Kind.ofName_name (kind : Kind) : Kind.ofName kind.name = some kind := by
  cases kind <;> decide

theorem Stream.ofJson_toJson (stream : Stream) : Stream.ofJson stream.toJson = some stream := by
  simp [Stream.ofJson, Stream.toJson, Kind.ofName_name]

theorem batchOfJson_batchJson (batch : Batch) : batchOfJson (batchJson batch) = some batch := by
  have streams : (batch.map Stream.toJson).mapM Stream.ofJson = some batch := by
    rw [mapM_eq_some, List.forall₂_map_left_iff]
    exact List.forall₂_same.2 fun stream _ => Stream.ofJson_toJson stream
  simp [batchOfJson, batchJson, Mapping.has, Json.asList, streams]

theorem countersOfJson_counters (normal : List (String × Nat)) :
    countersOfJson (.object (normal.map fun entry => (entry.1, .int entry.2))) = some normal := by
  rw [Json.object, countersOfJson, mapM_eq_some, List.map_map, List.forall₂_map_left_iff]
  refine List.forall₂_same.2 fun entry _ => ?_
  simp [counterOfJson]

theorem lastSuccessOfJson_value (lastSuccess : Option Rat) :
    lastSuccessOfJson ((lastSuccess.map Json.float).getD (.int 0)) = some lastSuccess := by
  cases lastSuccess with
  | none => rfl
  | some value => rfl

theorem Kind.name_inj {kind other : Kind} (same : kind.name = other.name) : kind = other := by
  have back := Kind.ofName_name kind
  rw [same, Kind.ofName_name other] at back
  exact (Option.some.inj back).symm

/-- The fields of some cursors. -/
def cursorFields (cursors : Kind → Option Cursor) (kinds : List Kind) : List (String × Json) :=
  kinds.filterMap fun kind => (cursors kind).map fun cursor => (kind.name, cursor.toJson)

theorem get_cursorFields (cursors : Kind → Option Cursor) (kinds : List Kind) (kind : Kind) :
    Mapping.get (cursorFields cursors kinds) kind.name =
      if kind ∈ kinds then (cursors kind).map Cursor.toJson else none := by
  induction kinds with
  | nil => rfl
  | cons first kinds ih =>
      rw [cursorFields] at ih ⊢
      by_cases same : first = kind
      · subst same
        rw [if_pos List.mem_cons_self]
        cases found : cursors first with
        | none =>
            rw [found, Option.map_none] at ih
            rw [List.filterMap_cons_none (by rw [found]; rfl), ih]
            split_ifs <;> rfl
        | some cursor =>
            rw [List.filterMap_cons_some (by rw [found]; rfl), Mapping.get_cons, if_pos rfl]
            rfl
      · have others : (kind ∈ first :: kinds) = (kind ∈ kinds) := by
          rw [List.mem_cons, eq_iff_iff, or_iff_right (Ne.symm same)]
        have names : first.name ≠ kind.name := fun equal => same (Kind.name_inj equal)
        cases found : cursors first with
        | none =>
            rw [List.filterMap_cons_none (by rw [found]; rfl), ih]
            simp only [others]
        | some cursor =>
            rw [List.filterMap_cons_some (by rw [found]; rfl), Mapping.get_cons, if_neg names, ih]
            simp only [others]

theorem mem_cursorFields {cursors : Kind → Option Cursor} {kinds : List Kind}
    {field : String × Json} (member : field ∈ cursorFields cursors kinds) :
    ∃ kind cursor, kind ∈ kinds ∧ field = (kind.name, Cursor.toJson cursor) := by
  obtain ⟨kind, among, made⟩ := List.mem_filterMap.1 member
  obtain ⟨cursor, -, rfl⟩ := Option.map_eq_some_iff.1 made
  exact ⟨kind, cursor, among, rfl⟩

theorem cursorsOfJson_cursors (cursors : Kind → Option Cursor) :
    cursorsOfJson (.object (cursorFields cursors Kind.all)) = some cursors := by
  have named : ((cursorFields cursors Kind.all).map fun field =>
      (field.1.toList, field.2)).all
        (fun field => Kind.all.any fun kind => kind.name.toList == field.1) = true := by
    rw [List.all_eq_true]
    intro field member
    obtain ⟨plain, among, rfl⟩ := List.mem_map.1 member
    obtain ⟨kind, cursor, isKind, rfl⟩ := mem_cursorFields among
    rw [List.any_eq_true]
    exact ⟨kind, isKind, by simp⟩
  have formed : ((cursorFields cursors Kind.all).map fun field =>
      (field.1.toList, field.2)).all (fun field => (Cursor.ofJson field.2).isSome) = true := by
    rw [List.all_eq_true]
    intro field member
    obtain ⟨plain, among, rfl⟩ := List.mem_map.1 member
    obtain ⟨kind, cursor, -, rfl⟩ := mem_cursorFields among
    simp only [Cursor.ofJson_toJson, Option.isSome_some]
  rw [Json.object, cursorsOfJson, named, formed, Bool.and_self, if_pos rfl, Option.some.injEq]
  funext kind
  rw [← Json.object, Json.field_object, get_cursorFields, if_pos (Kind.mem_all kind)]
  cases cursors kind with
  | none => rfl
  | some cursor => exact Cursor.ofJson_toJson cursor

/-- A ledger reads back, whatever is pending. -/
theorem Ledger.ofJson_toJson (ledger : Ledger) (pending : Json) :
    Ledger.ofJson (ledger.toJson pending) = some ledger := by
  have cursors := cursorsOfJson_cursors ledger.cursors
  have normal := countersOfJson_counters ledger.normal
  have lastSuccess := lastSuccessOfJson_value ledger.lastSuccess
  rw [cursorFields] at cursors
  have version : (Json.int 1).asNat = some 1 := rfl
  simp [Ledger.ofJson, Ledger.toJson, stateKeys, Mapping.has, cursors, normal, lastSuccess, version]

theorem Ledger.field_pending (ledger : Ledger) (pending : Json) :
    (ledger.toJson pending).field "pending" = some pending := by
  simp [Ledger.toJson]

theorem Outbox.ofJson_toJson (outbox : Outbox) : Outbox.ofJson outbox.toJson = some outbox := by
  have batches : (outbox.batches.map batchJson).mapM batchOfJson = some outbox.batches := by
    rw [mapM_eq_some, List.forall₂_map_left_iff]
    exact List.forall₂_same.2 fun batch _ => batchOfJson_batchJson batch
  simp [Outbox.ofJson, Outbox.toJson, Mapping.has, Json.asList, batches, Ledger.field_pending,
    Ledger.ofJson_toJson]

/-- **A state reads back from its document.** -/
theorem State.ofJson_toJson (state : State) : State.ofJson state.toJson = some state := by
  obtain ⟨ledger, pending⟩ := state
  cases pending with
  | none =>
      simp [State.ofJson, State.toJson, Ledger.ofJson_toJson, Ledger.field_pending]
  | some outbox =>
      obtain ⟨fields, document⟩ : ∃ fields, Outbox.toJson outbox = .obj fields := ⟨_, rfl⟩
      have back := Outbox.ofJson_toJson outbox
      rw [document] at back
      simp [State.ofJson, State.toJson, Ledger.ofJson_toJson, Ledger.field_pending, document, back]

end ReadingBack

/-! ## Readable states -/

/-- A ledger as the program can hold it: the counters are a dictionary, and the
time of the last success is a double. -/
structure Ledger.Proper (ledger : Ledger) : Prop where
  counters : (ledger.normal.map Prod.fst).Nodup
  lastSuccess : ∀ value, ledger.lastSuccess = some value → (Json.float value).Readable

section Readable

theorem Cursor.readable (cursor : Cursor) : cursor.toJson.Readable :=
  readable_object (by simp) (by simp [Json.Readable, Json.text])

theorem Stream.readable (stream : Stream) : stream.toJson.Readable := by
  have labels := @readable_object [("environment", .text stream.environment),
    ("source", .text stream.source), ("service_name", .text stream.serviceName),
    ("log_kind", .text stream.logKind.name), ("level", .text stream.level)] (by simp)
    (by simp [Json.Readable, Json.text])
  have values : (Json.arr [.arr [.str stream.timestamp, .str stream.line]]).Readable :=
    readable_arr (by simp [Json.Readable, AllReadable])
  exact readable_object (by simp) (by simpa using ⟨labels, values⟩)

theorem batch_readable (batch : Batch) : (batchJson batch).Readable := by
  have streams : (Json.arr (batch.map Stream.toJson)).Readable := readable_arr fun item member => by
    obtain ⟨stream, -, rfl⟩ := List.mem_map.1 member
    exact stream.readable
  exact readable_object (by simp) (by simpa using streams)

theorem cursorFields_readable (cursors : Kind → Option Cursor) :
    (Json.object (cursorFields cursors Kind.all)).Readable := by
  have names : ((cursorFields cursors Kind.all).map Prod.fst).Sublist (Kind.all.map Kind.name) := by
    rw [cursorFields]
    induction Kind.all with
    | nil => exact List.Sublist.slnil
    | cons kind kinds ih =>
        cases found : cursors kind with
        | none =>
            rw [List.filterMap_cons_none (by rw [found]; rfl), List.map_cons]
            exact ih.cons _
        | some cursor =>
            rw [List.filterMap_cons_some (by rw [found]; rfl), List.map_cons, List.map_cons]
            exact ih.cons_cons _
  have distinct : (Kind.all.map Kind.name).Nodup :=
    List.Nodup.map (fun _ _ same => Kind.name_inj same) Kind.all_nodup
  refine readable_object (names.nodup distinct) fun field member => ?_
  obtain ⟨kind, cursor, -, rfl⟩ := mem_cursorFields member
  exact cursor.readable

theorem Ledger.readable {ledger : Ledger} (proper : ledger.Proper) {pending : Json}
    (outbox : pending.Readable) : (ledger.toJson pending).Readable := by
  have cursors := cursorFields_readable ledger.cursors
  rw [cursorFields] at cursors
  have normal : (Json.object (ledger.normal.map fun entry => (entry.1, .int entry.2))).Readable := by
    refine readable_object ?_ fun field member => ?_
    · rw [List.map_map]
      exact proper.counters
    · obtain ⟨entry, -, rfl⟩ := List.mem_map.1 member
      exact trivial
  have lastSuccess : ((ledger.lastSuccess.map Json.float).getD (.int 0)).Readable := by
    cases found : ledger.lastSuccess with
    | none => exact trivial
    | some value => exact proper.lastSuccess value found
  refine readable_object (by simp) ?_
  simp only [List.forall_mem_cons, List.not_mem_nil, false_implies, implies_true, and_true]
  exact ⟨trivial, cursors, trivial, lastSuccess, trivial, trivial, normal, outbox⟩

/-- A state whose ledgers the program can hold. -/
structure State.Proper (state : State) : Prop where
  ledger : state.toLedger.Proper
  next : ∀ outbox, state.pending = some outbox → outbox.next.Proper

theorem State.readable {state : State} (proper : state.Proper) : state.toJson.Readable := by
  refine Ledger.readable proper.ledger ?_
  cases found : state.pending with
  | none => exact trivial
  | some outbox =>
      have batches : (Json.arr (outbox.batches.map batchJson)).Readable :=
        readable_arr fun item member => by
          obtain ⟨batch, -, rfl⟩ := List.mem_map.1 member
          exact batch_readable batch
      have next : (outbox.next.toJson .null).Readable :=
        Ledger.readable (proper.next outbox found) trivial
      exact readable_object (by simp) (by simpa using ⟨batches, next⟩)

end Readable

/-- **A saved state is loaded as it was.** -/
theorem loadBytes_savedBytes {state : State} (proper : state.Proper)
    (valid : (validateState state).isOk) (fits : savedLength state ≤ maxState) :
    loadBytes (savedBytes state) = some state := by
  have size : (savedBytes state).length = savedLength state := length_utf8Bytes _
  rw [loadBytes, if_neg (not_lt.2 (size.trans_le fits)), savedBytes, utf8Decode_utf8Bytes]
  have document := loads_dumps (compact_standard false) (State.readable proper)
  simp only [Option.bind_eq_bind, Option.bind_some, document, State.ofJson_toJson, valid, if_true]

end HomeclusterInfra.NasLogs
