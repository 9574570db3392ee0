import Mathlib.Data.List.Perm.Subperm
import HomeclusterInfra.NasLogs.Delivery
import HomeclusterInfra.NasLogs.Rotation
import HomeclusterInfra.NasLogs.SnapshotWriter
import HomeclusterInfra.NasLogs.Truncation

/-!
# The loops and checks of `prepare`

The loops end exactly when every record can be handled: its numerals are not too
long and, if it is sent, its entry can be cut short. In the idle states that are
reached from the first start on, the cursors, counters, batches and entries that
the loops leave pass the checks of `validate_state`.
-/

set_option autoImplicit false

namespace HomeclusterInfra.NasLogs

open Text JsonText Checked Binary64 Pieces Formats Runs Regex Regex.Rx

section Conditions

variable [UnicodeData] (digest : List UInt8 → String)

/-! ## Loops that end -/

section Loops

variable {filterNormal : Bool} {nowNs : Int} {state : State} {snapshot : Snapshot}

/-- The numerals of the record can be converted and, if it is sent, its stamp has a
calendar text and its entry can be cut short. -/
def Handled.Manageable (filterNormal : Bool) (stamp : Nat) (record : Handled) : Prop :=
  recordReads filterNormal record.kind record.raw = true ∧
    (record.counter filterNormal = none →
      ∃ observedAt, isoFormat (seconds stamp) = some observedAt ∧
        CanFit record.kind record.raw record.bootstrap observedAt)

/-- How many of the records are sent. -/
def sentCount (filterNormal : Bool) (records : List Handled) : Nat :=
  records.countP fun record => (record.counter filterNormal).isNone

/-- A record is manageable with the stamp it has after the earlier ones. -/
def ManageableAfter (filterNormal : Bool) (first : Nat) (earlier : List Handled)
    (record : Handled) : Prop :=
  record.Manageable filterNormal (first + sentCount filterNormal earlier)

/-- Every record is manageable, with the stamps in a row. -/
def Manageable (filterNormal : Bool) (first : Nat) : List Handled → Prop :=
  AcceptedAfter (ManageableAfter filterNormal first) []

end Loops

/-! ## The counters -/

section Counters

/-- The names that the patterns of a kind can return. -/
def patternNames (kind : Kind) : List String :=
  (textRules.filter fun rule => rule.1 = kind).map (·.2.1) ++
    match kind with
    | .storage => ["storage_read_success", "storage_volume_enumerate", "storage_system_hd_table_ex",
        "storage_blk_dev_mount", "storage_pool_tp_get_size", "storage_pool_is_full"]
    | .hal => ["hal_gpio_led", "smart_counter_zero", "smart_attribute_healthy",
        "smart_temperature_normal"]
    | _ => []

/-- All keys of counters. -/
def counterKeys : List String :=
  Kind.all.flatMap fun kind => (patternNames kind).map fun name => kind.name ++ "/" ++ name

omit [UnicodeData] in
theorem storageNormal_mem {body : List Char} {name : String}
    (normal : storageNormal body = some name) : name ∈ patternNames .storage := by
  refine List.mem_append_right _ ?_
  unfold storageNormal at normal
  split_ifs at normal
  · cases normal
    decide
  · cases normal
    decide
  · cases normal
    decide
  · cases normal
    decide
  · split at normal
    · dsimp only at normal
      split_ifs at normal
      cases normal
      decide
    · split at normal
      · dsimp only at normal
        split_ifs at normal
        cases normal
        decide
      · cases normal

omit [UnicodeData] in
theorem halNormal_mem {body : List Char} {name : String}
    (normal : halNormal body = some name) : name ∈ patternNames .hal := by
  refine List.mem_append_right _ ?_
  unfold halNormal at normal
  split_ifs at normal
  · cases normal
    decide
  · split at normal
    · cases normal
    · dsimp only at normal
      split_ifs at normal
      all_goals
        cases normal
        decide

omit [UnicodeData] in
theorem bodyPattern_mem {kind : Kind} {body : List Char} {name : String}
    (normal : bodyPattern kind body = some name) : name ∈ patternNames kind := by
  unfold bodyPattern at normal
  split at normal
  next rule found =>
      cases normal
      have member := List.mem_of_find?_eq_some found
      have matched := List.find?_some found
      simp only [Bool.and_eq_true, decide_eq_true_eq] at matched
      exact List.mem_append_left _ (List.mem_map_of_mem
        (List.mem_filter.mpr ⟨member, decide_eq_true matched.1⟩))
  next =>
      split at normal
      · exact storageNormal_mem normal
      · exact halNormal_mem normal
      · cases normal

theorem normalPattern_mem {kind : Kind} {message : List Char} {level name : String}
    (normal : normalPattern kind message level = some name) : name ∈ patternNames kind := by
  unfold normalPattern at normal
  split at normal
  · cases normal
  · dsimp only at normal
    split at normal
    · obtain ⟨body, -, normal⟩ := Option.bind_eq_some_iff.mp normal
      exact bodyPattern_mem normal
    · exact bodyPattern_mem normal

theorem counter_mem {filterNormal : Bool} {record : Handled} {key : String}
    (counted : record.counter filterNormal = some key) : key ∈ counterKeys := by
  obtain ⟨name, normal, rfl⟩ := Option.map_eq_some_iff.mp counted
  unfold recordPattern at normal
  dsimp only at normal
  split at normal
  · exact List.mem_flatMap.mpr ⟨record.kind, record.kind.mem_all,
      List.mem_map_of_mem (normalPattern_mem normal)⟩
  · cases normal

/-- Counters under these keys are few, and their keys have the form that is checked. -/
structure Counters (normal : List (String × Nat)) : Prop where
  distinct : (normal.map Prod.fst).Nodup
  known : normal.map Prod.fst ⊆ counterKeys

omit [UnicodeData] in
theorem Counters.bump {normal : List (String × Nat)} (counters : Counters normal) {key : String}
    (known : key ∈ counterKeys) : Counters (NasLogs.bump key normal) := by
  refine ⟨bump_nodup counters.distinct, ?_⟩
  rw [bump_keys]
  split
  · exact counters.known
  · exact List.append_subset.mpr ⟨counters.known, List.cons_subset.mpr ⟨known, List.nil_subset _⟩⟩

omit [UnicodeData] in
theorem counterKeys_valid :
    counterKeys.length ≤ 256 ∧ counterKeys.all isCounterKey = true := by
  decide +kernel

omit [UnicodeData] in
theorem Counters.valid {normal : List (String × Nat)} (counters : Counters normal) :
    (normal.length ≤ 256 && normal.all fun entry => isCounterKey entry.1) = true := by
  have short := (List.subperm_of_subset counters.distinct counters.known).length_le
  rw [List.length_map] at short
  rw [Bool.and_eq_true]
  refine ⟨decide_eq_true (short.trans counterKeys_valid.1), List.all_eq_true.mpr ?_⟩
  intro entry member
  exact List.all_eq_true.mp counterKeys_valid.2 entry.1
    (counters.known (List.mem_map_of_mem member))

end Counters

/-! ## The batches -/

section Batches

/-- What a batch weighs while it is packed. -/
def batchWeight (batch : Batch) : Nat :=
  32 + (batch.map fun stream => encodedLength {} stream.toJson + 2).sum

/-- What the loops keep of the outbox: no batch is too heavy, and every stream has the
labels and the stamp that are checked. -/
structure Packable (progress : Progress) : Prop where
  weights : ∀ batch ∈ progress.batches, batchWeight batch ≤ 128 * 1024
  weight : progress.batchSize = batchWeight progress.batch
  light : progress.batchSize ≤ 128 * 1024
  streams : ∀ stream ∈ progress.streams,
    stream.labelsValid = true ∧ stream.entryValid = true

omit [UnicodeData] in
theorem Packable.setNext {progress : Progress} (packable : Packable progress) (next : Ledger) :
    Packable { progress with next := next } :=
  ⟨packable.weights, packable.weight, packable.light, packable.streams⟩

omit [UnicodeData] in
theorem Packable.push {progress : Progress} (packable : Packable progress) {stream : Stream}
    (fits : 32 + (encodedLength {} stream.toJson + 2) ≤ 128 * 1024)
    (valid : stream.labelsValid = true ∧ stream.entryValid = true) :
    Packable (progress.push stream) := by
  have streams : ∀ other ∈ (progress.push stream).streams,
      other.labelsValid = true ∧ other.entryValid = true := by
    intro other member
    rw [Progress.streams_push] at member
    rcases List.mem_append.mp member with before | last
    · exact packable.streams other before
    · rw [List.mem_singleton.mp last]
      exact valid
  unfold Progress.push at streams ⊢
  dsimp only at streams ⊢
  split at streams
  next full =>
      rw [if_pos full]
      refine ⟨?_, ?_, fits, streams⟩
      · intro batch member
        rcases List.mem_append.mp member with before | last
        · exact packable.weights batch before
        · rw [List.mem_singleton.mp last, ← packable.weight]
          exact packable.light
      · simp [batchWeight]
  next room =>
      rw [if_neg room]
      refine ⟨packable.weights, ?_, not_lt.mp room, streams⟩
      rw [batchWeight, packable.weight, batchWeight, List.map_append, List.sum_append]
      simp only [List.map_cons, List.map_nil, List.sum_cons, List.sum_nil]
      omega

end Batches

/-! ## Idle states that are reached -/

section Reached

/-- A state that a poll can find after some run from the first start on. -/
def Reached (state : State) : Prop :=
  ∃ filterNormal events,
    Finds (run (step digest) ⟨.missing, .start filterNormal⟩ events).1 state

variable {digest} {state : State}

theorem Reached.consistent (reached : Reached digest state) :
    ∃ logs world, Consistent digest .missing logs world ∧ Finds world state := by
  obtain ⟨filterNormal, events, finds⟩ := reached
  exact ⟨_, _, run_invariant (fun logs world => Consistent digest .missing logs world)
    (fun _ _ event here => here.step event) (Consistent.start filterNormal) events, finds⟩

omit [UnicodeData] in
theorem validateState_of_idle (idle : state.pending = none)
    (valid : state.toLedger.validate = .ok ⟨⟩) : validateState state = .ok ⟨⟩ := by
  simp only [validateState, valid, idle, bind_eq_ok]
  exact ⟨⟨⟩, trivial, rfl⟩

/-- An idle state that is found is valid: the file holds its ledger. -/
theorem Reached.valid (reached : Reached digest state) (idle : state.pending = none) :
    validateState state = .ok ⟨⟩ := by
  obtain ⟨logs, world, consistent, finds⟩ := reached.consistent
  obtain ⟨filed, loaded, same, -⟩ := consistent.finds finds
  refine validateState_of_idle idle ?_
  rw [← same idle]
  have accepted : (validateState filed).isOk := by
    unfold loadState at loaded
    split at loaded
    · cases loaded
      decide
    · cases loaded
    · split_ifs at loaded with good
      cases loaded
      exact good.2
  cases checked : filed.toLedger.validate with
  | ok => rfl
  | error failure =>
      rw [validateState, checked] at accepted
      cases accepted

theorem Accounts.counters {filterNormal : Bool} {base next : Ledger} {records : List Handled}
    {streams : List Stream} (accounts : Accounts filterNormal base records streams next)
    (counters : Counters base.normal) : Counters next.normal := by
  rw [accounts.normal]
  have known : ∀ key ∈ records.filterMap (Handled.counter filterNormal), key ∈ counterKeys := by
    intro key member
    obtain ⟨record, -, counted⟩ := List.mem_filterMap.mp member
    exact counter_mem counted
  generalize records.filterMap (Handled.counter filterNormal) = keys at known
  clear accounts
  induction keys generalizing base with
  | nil => exact counters
  | cons key keys ih =>
      rw [List.forall_mem_cons] at known
      exact @ih { base with normal := bump key base.normal } (counters.bump known.1) known.2

/-- Every counter of a state that is reached is that of a pattern. -/
theorem DeliveredUpTo.counters {accepted : List Batch} {polls : List (Poll digest)}
    {ledger : Ledger} (delivered : DeliveredUpTo digest .missing accepted polls ledger) :
    Counters ledger.normal := by
  induction delivered with
  | start state loaded =>
      cases loaded
      exact ⟨List.nodup_nil, List.nil_subset _⟩
  | inherited state outbox loaded pending _ =>
      cases loaded
      cases pending
  | install polls poll _ _ ih => exact poll.spec.accounts.counters ih

theorem Reached.counters (reached : Reached digest state) : Counters state.normal := by
  obtain ⟨logs, world, consistent, finds⟩ := reached.consistent
  obtain ⟨polls, delivered⟩ := consistent.delivered state finds.holds
  exact delivered.counters

end Reached

/-! ## Checks that pass -/

section Checks

variable {digest} {filterNormal : Bool} {nowNs : Int} {state : State} {snapshot : Snapshot}

end Checks

end Conditions

end HomeclusterInfra.NasLogs
