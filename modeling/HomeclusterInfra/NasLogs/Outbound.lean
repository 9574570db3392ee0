import HomeclusterInfra.NasLogs.Accounting
import HomeclusterInfra.NasLogs.StateDocument

/-!
# What a prepared outbox asks of the rest

The line of an entry has at most 16384 bytes and is escaped once more inside a
stream; a stream then always fits an empty batch, so no batch is empty. The
body of a push is the compact text of a batch, which is not longer than the
text `validate_state` measures, and the same holds of the saved state.
-/

set_option autoImplicit false

namespace HomeclusterInfra.NasLogs

open Text JsonText Checked Binary64

/-! ## The push -/

/-- The body of the request of `push`, unless it is refused for its size. -/
def pushBody (batch : Batch) : Except Failure (List UInt8) := do
  let body := utf8Bytes (dumps (.compact false) (batchJson batch))
  check (body.length ≤ 256 * 1024) "push exceeds limit"
  pure body

/-! ## The times of entries -/

section Times

/-- A time that has a calendar text lies before the year 10000. -/
theorem isoFormat_bound {time : Rat} {text : List Char} (format : isoFormat time = some text) :
    time.floor.toNat < 10 ^ 12 := by
  have split : time.floor.toNat ≤ (splitSeconds time).1 := by
    unfold splitSeconds
    dsimp only
    split_ifs
    · exact Nat.le_succ _
    · exact le_rfl
  have era : (splitSeconds time).1 / 86400 < 2932957 := by
    by_contra late
    have year : 9999 < (civilDate ((splitSeconds time).1 / 86400)).1 := by
      simp only [civilDate]
      omega
    unfold isoFormat at format
    simp only [year, if_true] at format
    cases format
  omega

theorem le_floor_toNat {n : Nat} {time : Rat} (le : (n : Rat) ≤ time) : n ≤ time.floor.toNat := by
  have floor : (n : Int) ≤ time.floor := Rat.le_floor_iff.2 (by exact_mod_cast le)
  omega

/-- A time from which on no calendar text exists. -/
theorem seconds_large {nowNs : Nat} (large : 10 ^ 21 ≤ nowNs) :
    (10 : Rat) ^ 12 ≤ seconds nowNs := by
  have nanos : IsDouble ((10 : Rat) ^ 21) := by
    have double := isDouble_multiple (by norm_num : 5 ^ 21 ≤ 2 ^ 53) 21
    norm_num at double ⊢
    exact double
  have whole : IsDouble ((10 : Rat) ^ 12) := by
    have double := isDouble_multiple (by norm_num : 10 ^ 12 ≤ 2 ^ 53) 0
    norm_num at double ⊢
    exact double
  have cast : (10 : Rat) ^ 21 ≤ nowNs := by exact_mod_cast large
  have rounded : (10 : Rat) ^ 21 ≤ nearest nowNs := nanos.symm.trans_le (nearest_mono cast)
  have quotient : (10 : Rat) ^ 12 ≤ nearest nowNs / 1000000000 := by
    rw [le_div_iff₀ (by norm_num)]
    exact le_trans (by norm_num) rounded
  exact whole.symm.trans_le (nearest_mono quotient)

/-- `entry`, of an observation time that has a calendar text. -/
def entryAt [UnicodeData] (kind : Kind) (raw : List UInt8) (bootstrap : Bool)
    (observedAt : List Char) : Except Failure (String × List Char) := do
  let message := recordText raw
  let build := entryJson kind bootstrap observedAt (sourceTime message)
  let (message, truncated) ← shorten build (message.length + 2) message false
  pure (severity kind (recordText raw), dumps (.compact false) (build message truncated))

-- The equation is one of functions: applied to arguments, the kernel would
-- begin to compute the calendar text.
theorem entry_eq [UnicodeData] : entry = fun kind raw bootstrap nowNs =>
    (isoFormat (seconds nowNs)).elim (.error (.valueError "year is out of range"))
      (entryAt kind raw bootstrap) := by
  delta entry
  funext kind raw bootstrap nowNs
  generalize isoFormat (seconds nowNs) = format
  cases format with
  | none => rfl
  | some observedAt =>
      simp only [pure_bind]
      delta entryAt
      simp only [Option.elim_some]

/-- What an entry is made of. -/
theorem entry_eq_ok [UnicodeData] {kind : Kind} {raw : List UInt8} {bootstrap : Bool} {nowNs : Nat}
    {level : String} {line : List Char}
    (built : entry kind raw bootstrap nowNs = .ok (level, line)) :
    ∃ observedAt message truncated, isoFormat (seconds nowNs) = some observedAt ∧
      shorten (entryJson kind bootstrap observedAt (sourceTime (recordText raw)))
        ((recordText raw).length + 2) (recordText raw) false = .ok (message, truncated) ∧
      level = severity kind (recordText raw) ∧
      line = dumps (.compact false) (entryJson kind bootstrap observedAt
        (sourceTime (recordText raw)) message truncated) := by
  simp only [entry_eq] at built
  cases format : isoFormat (seconds nowNs) with
  | none =>
      rw [format, Option.elim_none] at built
      cases built
  | some observedAt =>
      simp only [format, Option.elim_some, entryAt, bind_eq_ok, pure_eq_ok] at built
      obtain ⟨⟨message, truncated⟩, shortened, made⟩ := built
      obtain ⟨rfl, rfl⟩ := Prod.mk.inj made
      exact ⟨observedAt, message, truncated, rfl, shortened, rfl, rfl⟩

/-- The nanoseconds of an entry have at most 21 digits. -/
theorem entry_time [UnicodeData] {kind : Kind} {raw : List UInt8} {bootstrap : Bool} {nowNs : Nat}
    {level : String} {line : List Char}
    (built : entry kind raw bootstrap nowNs = .ok (level, line)) : nowNs < 10 ^ 21 := by
  obtain ⟨observedAt, -, -, format, -⟩ := entry_eq_ok built
  by_contra late
  have time := seconds_large (not_lt.1 late)
  have floor : 10 ^ 12 ≤ (seconds nowNs).floor.toNat := le_floor_toNat (by exact_mod_cast time)
  exact absurd (isoFormat_bound format) (not_lt.2 floor)

/-- The time of a poll is a double that is not too small. -/
theorem seconds_readable (nowNs : Nat) : (Json.float (seconds nowNs)).Readable := by
  refine ⟨nearest_isDouble _, ?_⟩
  rcases Nat.eq_zero_or_pos nowNs with rfl | positive
  · left
    have zero : nearest ((0 : Nat) : Rat) = 0 := nearest_of_nonpos (by simp)
    rw [seconds, zero, zero_div]
    exact nearest_of_nonpos le_rfl
  · right
    have one : IsDouble 1 := by simpa using isDouble_multiple (by norm_num : 1 ≤ 2 ^ 53) 0
    have tiny : IsDouble ((2 : Rat) ^ (-30 : Int)) := by
      simpa using isDouble_multiple (by norm_num : 1 ≤ 2 ^ 53) (-30)
    have rounded : 1 ≤ nearest nowNs :=
      one.symm.trans_le (nearest_mono (by exact_mod_cast positive))
    have quotient : (2 : Rat) ^ (-30 : Int) ≤ nearest nowNs / 1000000000 := by
      rw [le_div_iff₀ (by norm_num)]
      norm_num
      linarith
    have time : (2 : Rat) ^ (-30 : Int) ≤ seconds nowNs := tiny.symm.trans_le (nearest_mono quotient)
    calc (1 : Rat) ≤ 2 ^ (-30 : Int) * 10 ^ 10 := by norm_num
      _ ≤ 2 ^ (-30 : Int) * 10 ^ 400 := by
          refine mul_le_mul_of_nonneg_left ?_ (by positivity)
          exact pow_le_pow_right₀ (by norm_num) (by norm_num)
      _ ≤ seconds nowNs * 10 ^ 400 := mul_le_mul_of_nonneg_right time (by positivity)

end Times

/-! ## The sizes of streams -/

section Sizes

/-- What halving leaves fits. -/
theorem shorten_fits {build : List Char → Bool → Json} {result : List Char × Bool} :
    ∀ {fuel : Nat} {message : List Char} {truncated : Bool},
      shorten build fuel message truncated = .ok result →
        encodedLength ⟨false, ", ".toList, ": ".toList⟩ (build result.1 result.2) ≤ maxEntry := by
  intro fuel
  induction fuel with
  | zero =>
      intro message truncated shortened
      cases shortened
  | succ fuel ih =>
      intro message truncated shortened
      rw [shorten] at shortened
      split at shortened
      next fits =>
          cases shortened
          exact fits
      next =>
          split at shortened
          · cases shortened
          · exact ih shortened

/-- The line of an entry has at most 16384 bytes. -/
theorem entry_line [UnicodeData] {kind : Kind} {raw : List UInt8} {bootstrap : Bool} {nowNs : Nat}
    {level : String} {line : List Char}
    (built : entry kind raw bootstrap nowNs = .ok (level, line)) : utf8Length line ≤ maxEntry := by
  obtain ⟨observedAt, message, truncated, -, shortened, -, rfl⟩ := entry_eq_ok built
  have fits := shorten_fits shortened
  exact (encodedLength_le compact_shorter_raw _).trans fits

theorem severity_length [UnicodeData] (kind : Kind) (message : List Char) :
    utf8Length (severity kind message).toList ≤ 8 := by
  have named : ∀ level ∈ "" :: kernelLevels, utf8Length level.toList ≤ 8 := by decide
  have native : ∀ index, utf8Length (kernelLevels.getD index "").toList ≤ 8 := by
    intro index
    refine named _ ?_
    rw [List.getD_eq_getElem?_getD]
    cases inside : kernelLevels[index]? with
    | none => exact List.mem_cons_self
    | some level => exact .tail _ (List.mem_of_getElem? inside)
  unfold severity
  dsimp only
  split
  · exact native _
  · split_ifs <;> decide

theorem kindName_length (kind : Kind) : utf8Length kind.name.toList ≤ 12 := by
  cases kind <;> decide

/-- The text of a stream is its strings, each escaped, and fixed text. -/
theorem stream_length (stream : Stream) : encodedLength {} stream.toJson ≤
    6 * (utf8Length stream.environment.toList + utf8Length stream.source.toList +
      utf8Length stream.serviceName.toList + utf8Length stream.logKind.name.toList +
      utf8Length stream.level.toList + utf8Length stream.timestamp + utf8Length stream.line) +
    200 := by
  have environment := stringText_le {} stream.environment.toList
  have source := stringText_le {} stream.source.toList
  have serviceName := stringText_le {} stream.serviceName.toList
  have logKind := stringText_le {} stream.logKind.name.toList
  have level := stringText_le {} stream.level.toList
  have timestamp := stringText_le {} stream.timestamp
  have line := stringText_le {} stream.line
  have keys : ∀ key ∈ ["stream", "environment", "source", "service_name", "log_kind", "level",
      "values"], utf8Length (stringText {} key.toList) ≤ 14 := by decide
  simp only [List.forall_mem_cons, List.not_mem_nil, false_implies, implies_true, and_true] at keys
  have marks : '\x7b'.utf8Size = 1 ∧ '\x7d'.utf8Size = 1 ∧ '['.utf8Size = 1 ∧ ']'.utf8Size = 1 ∧
      utf8Length ", ".toList = 2 ∧ utf8Length ": ".toList = 2 := by decide
  simp only [encodedLength, Stream.toJson, Json.object, Json.text, List.map_cons, List.map_nil,
    dumps, dumpsFields, dumpsItems, utf8Length_cons, utf8Length_append, utf8Length_nil,
    List.cons_append]
  omega

/-- A stream of an entry fits an empty batch. -/
theorem entryStream_fits [UnicodeData] {kind : Kind} {raw : List UInt8} {bootstrap : Bool}
    {nowNs : Nat} {level : String} {line : List Char}
    (built : entry kind raw bootstrap nowNs = .ok (level, line)) :
    32 + (encodedLength {} (entryStream kind level nowNs line).toJson + 2) ≤ 128 * 1024 := by
  obtain ⟨_, _, _, -, -, named, -⟩ := entry_eq_ok built
  have whole := stream_length (entryStream kind level nowNs line)
  have short := entry_line built
  have time : utf8Length (natText nowNs) ≤ 21 := by
    rw [utf8Length_ascii fun _ member => natText_ascii member]
    exact length_natText_le (by decide) (entry_time built)
  have rank := severity_length kind (recordText raw)
  rw [← named] at rank
  have source := kindName_length kind
  have labels : utf8Length "production".toList = 10 ∧ utf8Length "qnap-filelog".toList = 12 ∧
      utf8Length "qnap-nas".toList = 8 := by decide
  simp only [entryStream, maxEntry] at whole short ⊢
  omega

end Sizes

/-! ## What the loops keep -/

section Packing

/-- No batch is empty, the current one aside, which is then as small as an empty
batch is. -/
structure Packed (progress : Progress) : Prop where
  batches : ∀ batch ∈ progress.batches, batch ≠ []
  batch : progress.batch = [] → progress.batchSize = 32

theorem Packed.setNext {progress : Progress} (packed : Packed progress) (next : Ledger) :
    Packed { progress with next := next } :=
  ⟨packed.batches, packed.batch⟩

theorem Packed.push {progress : Progress} (packed : Packed progress) {stream : Stream}
    (fits : 32 + (encodedLength {} stream.toJson + 2) ≤ 128 * 1024) :
    Packed (progress.push stream) := by
  unfold Progress.push
  dsimp only
  split
  next full =>
      refine ⟨?_, ?_⟩
      · intro batch member
        rcases List.mem_append.1 member with before | last
        · exact packed.batches batch before
        · rw [List.mem_singleton.1 last]
          intro empty
          have small := packed.batch empty
          omega
      · intro empty
        cases empty
  next =>
      refine ⟨packed.batches, ?_⟩
      intro empty
      exact absurd empty (by simp)

/-- The counters stay a dictionary. -/
theorem bump_keys (key : String) (counters : List (String × Nat)) :
    (bump key counters).map Prod.fst =
      if key ∈ counters.map Prod.fst then counters.map Prod.fst
      else counters.map Prod.fst ++ [key] := by
  induction counters with
  | nil => simp [bump]
  | cons entry counters ih =>
      obtain ⟨name, count⟩ := entry
      by_cases same : name = key
      · simp [bump, same]
      · have other : key ≠ name := Ne.symm same
        simp only [bump, if_neg same, List.map_cons, ih, List.mem_cons, other, false_or]
        split_ifs <;> rfl

theorem bump_nodup {key : String} {counters : List (String × Nat)}
    (distinct : (counters.map Prod.fst).Nodup) : ((bump key counters).map Prod.fst).Nodup := by
  rw [bump_keys]
  split
  · exact distinct
  next fresh =>
      refine List.nodup_append.2 ⟨distinct, List.nodup_singleton _, ?_⟩
      rintro name among _ last rfl
      rw [List.mem_singleton.1 last] at among
      exact fresh among

theorem handleRecord_packed [UnicodeData] {filterNormal bootstrap : Bool} {nowNs : Int}
    {kind : Kind} {progress after : Progress} {raw : List UInt8}
    (kept : Packed progress ∧ (progress.next.normal.map Prod.fst).Nodup)
    (step : handleRecord filterNormal nowNs kind bootstrap progress raw = .ok after) :
    Packed after ∧ (after.next.normal.map Prod.fst).Nodup := by
  obtain ⟨packed, counters⟩ := kept
  unfold handleRecord at step
  obtain ⟨-, -, step⟩ := bind_eq_ok.1 step
  cases pattern : recordPattern filterNormal kind raw with
  | some name =>
      simp only [pattern, pure_eq_ok] at step
      subst step
      exact ⟨packed.setNext _, bump_nodup counters⟩
  | none =>
      simp only [pattern, bind_eq_ok, pure_eq_ok] at step
      obtain ⟨⟨level, line⟩, built, done⟩ := step
      subst done
      have stamped := packed.setNext { progress.next with
        lastNs := (max nowNs (progress.next.lastNs + 1)).toNat }
      refine ⟨(stamped.push (entryStream_fits built)).setNext _, ?_⟩
      simpa only [Progress.next_push] using counters

end Packing

/-! ## Downstream -/

section Downstream

variable [UnicodeData] {digest : List UInt8 → String} {state out : State} {snapshot : Snapshot}
  {nowNs : Int} {filterNormal : Bool}

omit [UnicodeData] in
theorem isOk_of_eq {outcome : Except Failure Unit} (same : outcome = .ok ⟨⟩) : outcome.isOk := by
  rw [same]
  rfl

omit [UnicodeData] in
/-- What an accepted outbox says of its parts. -/
theorem validateState_pending {outbox : Outbox} (valid : validateState out = .ok ⟨⟩)
    (pending : out.pending = some outbox) :
    validateState outbox.next.toState = .ok ⟨⟩ ∧
      ∀ batch ∈ outbox.batches, encodedLength {} (batchJson batch) ≤ 262144 := by
  simp only [validateState, pending, bind_eq_ok, Outbox.validate, forM_eq_ok] at valid
  obtain ⟨_, -, _, -, _, next, batches⟩ := valid
  refine ⟨?_, fun batch member => ?_⟩
  · simp only [validateState, Ledger.toState, next, bind_eq_ok]
    exact ⟨⟨⟩, trivial, rfl⟩
  · have accepted := batches batch member
    simp only [validateBatch, check, bind_eq_ok, require_eq_ok, decide_eq_true_eq] at accepted
    exact accepted.choose_spec.1

/-- **An outbox that `prepare` returns is acceptable to everything downstream.**
The state that `prepare` is given has counters with distinct keys and, as the
time of its last success, a double. -/
theorem prepare_downstream (proper : state.toLedger.Proper) (idle : state.pending = none)
    (prepared : prepare digest state snapshot nowNs filterNormal = .ok out) :
    ∃ outbox, out = { state with pending := some outbox } ∧
      validateState out = .ok ⟨⟩ ∧ validateState outbox.next.toState = .ok ⟨⟩ ∧
      (∀ batch ∈ outbox.batches, batch ≠ [] ∧ encodedLength {} (batchJson batch) ≤ 262144 ∧
        pushBody batch = .ok (utf8Bytes (dumps (.compact false) (batchJson batch)))) ∧
      (∀ file, atomicSave file out .none = (.document out (savedLength out), true)) ∧
      loadBytes (savedBytes out) = some out := by
  obtain ⟨progress, loop, same, -, valid, fits⟩ := prepare_steps digest idle prepared
  subst same
  obtain ⟨nextValid, bounded⟩ := validateState_pending valid rfl
  obtain ⟨packed, counters⟩ := loops_keep digest
    (fun current => Packed current ∧ (current.next.normal.map Prod.fst).Nodup)
    (fun _ _ _ _ _ kept step => handleRecord_packed kept step)
    (fun _ _ _ kept => ⟨kept.1.setNext _, kept.2⟩)
    ⟨⟨by simp, fun _ => rfl⟩, proper.counters⟩ loop
  have saved := (encodedLength_le compact_shorter _).trans fits
  refine ⟨_, rfl, valid, nextValid, fun batch member => ⟨?_, bounded batch member, ?_⟩, ?_, ?_⟩
  · rcases List.mem_append.1 member with before | last
    · exact packed.batches batch before
    · split at last
      · cases last
      next some =>
          rw [List.mem_singleton.1 last]
          simpa using some
  · have short : (utf8Bytes (dumps (.compact false) (batchJson batch))).length ≤ 256 * 1024 := by
      rw [length_utf8Bytes]
      exact (encodedLength_le compact_shorter _).trans (bounded batch member)
    simp only [pushBody, check, bind_eq_ok, require_eq_ok, pure_eq_ok, decide_eq_true_eq]
    exact ⟨⟨⟩, short, trivial⟩
  · intro file
    rw [atomicSave, if_pos ⟨isOk_of_eq valid, saved⟩]
  · refine loadBytes_savedBytes ⟨proper, ?_⟩ (isOk_of_eq valid) saved
    rintro outbox ⟨⟩
    refine ⟨counters, ?_⟩
    rintro value ⟨⟩
    exact seconds_readable _

end Downstream

/-- Every log is empty but the kernel log, which holds a quote and an invalid byte. -/
def quotedSnapshot : Snapshot where
  file kind gen := if gen = .current then
      some ⟨1, 1, 0, if kind = .kernel then asciiBytes "<3>\"".toList ++ [0x80, lineFeed] else []⟩
    else none
  currentPresent _ := rfl

theorem prepare_downstream_quoted :
    ∃ (_ : UnicodeData) (out : State) (outbox : Outbox),
      prepare (fun _ => String.ofList (List.replicate 64 '0')) initialState quotedSnapshot 0 true =
        .ok out ∧ out.pending = some outbox ∧ outbox.batches.length = 1 ∧
      loadBytes (savedBytes out) = some out := by
  let _ : UnicodeData := asciiData
  have batches : (prepare (fun _ => String.ofList (List.replicate 64 '0')) initialState
      quotedSnapshot 0 true).toOption.bind (fun out => out.pending.map fun outbox =>
        outbox.batches.length) = some 1 := by
    decide +kernel
  obtain ⟨out, returned, here⟩ := Option.bind_eq_some_iff.1 batches
  obtain ⟨outbox, pending, one⟩ := Option.map_eq_some_iff.1 here
  have prepared := toOption_eq_some.1 returned
  have proper : initialState.toLedger.Proper := ⟨by decide, by simp [initialState]⟩
  obtain ⟨_, -, -, -, -, -, loaded⟩ := prepare_downstream proper rfl prepared
  exact ⟨asciiData, out, outbox, prepared, pending, one, loaded⟩

end HomeclusterInfra.NasLogs
