import HomeclusterInfra.BanipProof.StoreBounds

/-!
# A store that is frozen

A save creates a file beside the store and lets it take the place of the store. Where something
interrupts it between the two, the file stays, and every later call refuses to read. Nothing
else that interrupts a call does this: without such a file there is a call that returns.
-/

set_option autoImplicit false

namespace HomeclusterInfra.BanipProof

open Text JsonText Binary64 Interruption

/-- No call returns, and none changes the store. -/
def Frozen (sha256 : List UInt8 → String) (store : Store) : Prop :=
  ∀ call faults, (main sha256 call).state store faults = store ∧
    ∀ report, (main sha256 call).ended store faults ≠ .returned report

/-- What interrupts a save after the file beside was created, and before it took its place. The
steps are the look at the directory, the creation, the write, the replacement and the last
`fsync`. -/
def leavesPart (faults : List Fault) : Bool :=
  faults.getD 0 .fine = .fine && faults.getD 1 .fine = .fine &&
    (faults.getD 2 .fine ≠ .fine || faults.getD 3 .fine ≠ .fine)

/-- A call that comes to its save. -/
structure ComesToSave (sha256 : List UInt8 → String) (call : Call) (store : Store)
    (config : Config) : Prop where
  configured : call.configFile >>= configuration = .ok config
  resources : call.resources = .ok ()
  acts : call.action ≠ .status
  read : ∃ prior, state sha256 config call.read store = .ok prior
  lock : call.lock = .ok ()
  readLocked : ∃ prior, state sha256 config call.readLocked store = .ok prior
  isChecked : ∃ outcome, checked sha256 config call = .ok outcome

section Steps

variable {sha256 : List UInt8 → String} {call : Call} {store : Store} {config : Config}
  {faults : List Fault}

/-! ## What a call leaves -/

/-- **What a save leaves.** -/
theorem save_state (saved : Saved) (proof : Proof) (whole : store.part = false) :
    (save sha256 saved proof).state store faults =
      if leavesPart faults then { store with part := true }
      else if faults.getD 0 .fine = .fine ∧ faults.getD 1 .fine = .fine then
        ⟨some (proofText (definitionHash sha256 saved.config) proof), false, store.saved ++ [saved]⟩
      else store := by
  have opened : (if store.part then .error .valueOrOs
      else .ok ((), { store with part := true }) : Except Raised (Unit × Store)) =
        .ok ((), { store with part := true }) := by
    rw [whole]
    rfl
  rw [save, state_change_bind, state_step_bind opened, state_change_bind, state_change_bind,
    state_change]
  simp only [leavesPart, List.headD_eq_getD, List.getD_eq_getElem?_getD, List.getElem?_tail]
  by_cases looked : faults[0]?.getD .fine = .fine
  · by_cases created : faults[1]?.getD .fine = .fine
    · by_cases written : faults[2]?.getD .fine = .fine
      · by_cases replaced : faults[3]?.getD .fine = .fine
        · simp [looked, created, written, replaced]
        · simp [looked, created, written, replaced]
      · simp [looked, created, written]
    · simp [looked, created]
  · simp [looked]

/-- **A call that comes to its save leaves what the save leaves.** -/
theorem ComesToSave.state_eq (comes : ComesToSave sha256 call store config)
    (faults : List Fault) :
    ∃ saved proof, (main sha256 call).state store faults =
      (save sha256 saved proof).state store faults := by
  obtain ⟨fields, file, isConfig⟩ := Checked.bind_eq_ok.mp comes.configured
  obtain ⟨_, read⟩ := comes.read
  obtain ⟨prior, readLocked⟩ := comes.readLocked
  obtain ⟨⟨time, found⟩, isChecked⟩ := comes.isChecked
  refine ⟨⟨call, config, time, found⟩, recordAll prior time found, ?_⟩
  have loads : ∀ {now} {found : Proof} {next : Proof → Task Summary},
      state sha256 config now store = .ok found →
        (loadState sha256 config now >>= next).state store faults =
          (next found).state store faults := by
    intro now found next accepted
    show (lift (state sha256 config now store) >>= next).state store faults = _
    rw [lift_bind accepted]
  rw [main, lift_bind file, lift_bind isConfig, lift_bind comes.resources, loads read,
    if_neg comes.acts, lift_bind comes.lock, loads readLocked, lift_bind isChecked]
  refine state_bind_of_still fun _ after rest => ?_
  exact (always_lift_bind (fun _ _ => always_pure rfl) fun _ _ => rfl : Always _
    (fun _ last => last = after) after) rest

/-- A call that does not come to its save leaves the store as it is. -/
theorem state_of_not_comes (never : ∀ config, ¬ ComesToSave sha256 call store config) :
    (main sha256 call).state store faults = store := by
  have still : Always (main sha256 call) (fun _ after => after = store) store := by
    refine always_lift_bind (fun fields file => ?_) fun _ _ => rfl
    refine always_lift_bind (fun config isConfig => ?_) fun _ _ => rfl
    refine always_lift_bind (fun _ resources => ?_) fun _ _ => rfl
    refine always_loadState_bind (fun _ read => ?_) fun _ => rfl
    split
    next => exact always_lift_bind (fun _ _ => always_pure rfl) fun _ _ => rfl
    next acts =>
      refine always_lift_bind (fun _ lock => ?_) fun _ _ => rfl
      refine always_loadState_bind (fun _ readLocked => ?_) fun _ => rfl
      refine always_lift_bind (fun _ isChecked => ?_) fun _ _ => rfl
      exact absurd ⟨Checked.bind_eq_ok.mpr ⟨fields, file, isConfig⟩, resources, acts, ⟨_, read⟩,
        lock, ⟨_, readLocked⟩, ⟨_, isChecked⟩⟩ (never config)
  exact still faults

theorem whole_of_state {now : Rat} {prior : Proof}
    (read : state sha256 config now store = .ok prior) : store.part = false := by
  obtain ⟨_, _, rest⟩ := Checked.bind_eq_ok.mp read
  obtain ⟨_, whole, _⟩ := Checked.bind_eq_ok.mp rest
  rw [require_eq_ok, Bool.not_eq_true'] at whole
  exact whole

/-- **A file beside the store stops every call.** -/
theorem frozen_of_part (left : store.part = true) : Frozen sha256 store := by
  intro call faults
  have unread : ∀ {config now prior}, state sha256 config now store ≠ .ok prior := by
    intro config now prior read
    rw [whole_of_state read] at left
    cases left
  refine ⟨state_of_not_comes fun config comes => ?_, ?_⟩
  · obtain ⟨prior, read⟩ := comes.read
    exact unread read
  · have raised : ∀ (failure : Raised) report,
        (.raised failure : Ended Raised Summary) ≠ .returned report :=
      fun _ _ same => of_raised_eq same
    have never : Always (main sha256 call) (fun ended _ => ∀ report, ended ≠ .returned report)
        store := by
      refine always_lift_bind (fun fields _ => ?_) fun failure _ => raised failure
      refine always_lift_bind (fun config _ => ?_) fun failure _ => raised failure
      refine always_lift_bind (fun _ _ => ?_) fun failure _ => raised failure
      exact always_loadState_bind (fun prior read => absurd read unread) raised
    exact never faults

/-- **Which calls leave a file beside the store**, and what else they leave. -/
theorem part_of_call (whole : store.part = false) :
    ((main sha256 call).state store faults).part = true ↔
      (∃ config, ComesToSave sha256 call store config) ∧ leavesPart faults = true := by
  by_cases comes : ∃ config, ComesToSave sha256 call store config
  · obtain ⟨config, comes⟩ := comes
    obtain ⟨saved, proof, same⟩ := comes.state_eq faults
    have here : ∃ config, ComesToSave sha256 call store config := ⟨config, comes⟩
    rw [same, save_state saved proof whole, iff_true_intro here, true_and]
    split
    next left => exact iff_of_true rfl left
    next not_left =>
      split
      next => exact iff_of_false Bool.false_ne_true not_left
      next => exact iff_of_false (by rw [whole]; exact Bool.false_ne_true) not_left
  · rw [state_of_not_comes (not_exists.mp comes), whole]
    exact iff_of_false Bool.false_ne_true fun both => comes both.1

theorem state_of_left (whole : store.part = false) (comes : ComesToSave sha256 call store config)
    (left : leavesPart faults = true) :
    (main sha256 call).state store faults = { store with part := true } := by
  obtain ⟨saved, proof, same⟩ := comes.state_eq faults
  rw [same, save_state saved proof whole, if_pos left]

end Steps

section Runs

variable {sha256 : List UInt8 → String} {call : Call} {calls earlier : List (Call × List Fault)}
  {faults : List Fault}

/-! ## What calls leave -/

theorem Frozen.afterCalls_eq {store : Store} (frozen : Frozen sha256 store) :
    afterCalls sha256 store calls = store := by
  induction calls with
  | nil => rfl
  | cons entry calls ih =>
      rw [afterCalls, List.foldl_cons, (frozen entry.1 entry.2).1]
      exact ih

/-- A call that leaves a file beside the store, after the calls before it. -/
structure LeavesPart (sha256 : List UInt8 → String) (earlier : List (Call × List Fault))
    (call : Call) (faults : List Fault) : Prop where
  comes : ∃ config, ComesToSave sha256 call (afterCalls sha256 emptyStore earlier) config
  interrupted : leavesPart faults = true

/-- What is left by such a call, and by all calls after it. -/
theorem LeavesPart.afterCalls_eq (leaves : LeavesPart sha256 earlier call faults)
    (later : List (Call × List Fault)) :
    afterCalls sha256 emptyStore (earlier ++ (call, faults) :: later) =
      { afterCalls sha256 emptyStore earlier with part := true } := by
  obtain ⟨config, comes⟩ := leaves.comes
  obtain ⟨prior, read⟩ := comes.read
  have left := state_of_left (whole_of_state read) comes leaves.interrupted
  rw [List.append_cons, afterCalls_append, afterCalls_append]
  show afterCalls sha256 ((main sha256 call).state _ faults) later = _
  rw [left]
  exact (frozen_of_part rfl).afterCalls_eq

/-- **A file is beside the store exactly where one of the calls left it.** -/
theorem part_afterCalls (sha256 : List UInt8 → String) (calls : List (Call × List Fault)) :
    (afterCalls sha256 emptyStore calls).part = true ↔
      ∃ earlier call faults later, calls = earlier ++ (call, faults) :: later ∧
        LeavesPart sha256 earlier call faults := by
  constructor
  · induction calls using List.reverseRecOn with
    | nil => exact fun left => Bool.noConfusion left
    | append_singleton calls entry ih =>
        intro left
        rw [afterCalls_append] at left
        cases before : (afterCalls sha256 emptyStore calls).part with
        | true =>
            obtain ⟨earlier, call, faults, later, rfl, leaves⟩ := ih before
            exact ⟨earlier, call, faults, later ++ [entry], by simp, leaves⟩
        | false =>
            obtain ⟨comes, interrupted⟩ := (part_of_call before).mp left
            exact ⟨calls, entry.1, entry.2, [], rfl, comes, interrupted⟩
  · rintro ⟨earlier, call, faults, later, rfl, leaves⟩
    rw [leaves.afterCalls_eq]

/-! ## Where none is left -/

/-- A call that asks for the summary while banIP cannot be read. -/
def askFor (configFile : Except Raised Fields) (now : Rat) : Call where
  action := .status
  configFile := configFile
  resources := .ok ()
  read := now
  readLocked := now
  lock := .ok ()
  reload := ⟨unreadable, .ok (), []⟩
  check := ⟨now, now, unreadable, unreadable, fun _ => .error .valueOrOs⟩
  failed := now
  current := unreadable
  summarized := now
where
  unreadable : Readings :=
    { sampleReadings with runtime := .error .valueOrOs }

/-- **Where no file is beside the store, it is not frozen.** -/
theorem Kept.not_frozen {store : Store} (kept : Kept sha256 store)
    (digests : ∀ data, isDigest (sha256 data).toList = true) (whole : store.part = false)
    (soon : ∀ entry ∈ store.saved, entry.time ≤ (10 ^ 12 : Nat)) : ¬ Frozen sha256 store := by
  intro frozen
  obtain ⟨config, file, configured, isLast⟩ : ∃ config file, file >>= configuration = .ok config ∧
      ∀ last ∈ store.saved.getLast?, last.config = config := by
    cases last : store.saved.getLast? with
    | none => exact ⟨sampleConfig, _, sampleConfig_eq_ok, fun _ member => by cases member⟩
    | some entry =>
        have file := kept.files entry (List.mem_of_getLast? last)
        refine ⟨entry.config, _, file, fun other member => ?_⟩
        cases member
        rfl
  -- At this clock every time that was saved is trusted.
  have double : IsDouble (10 ^ 12 : Nat) := isDouble_natCast (by norm_num)
  have near : ((10 ^ 12 : Nat) : Rat) ≤ nearest ((10 ^ 12 : Nat) + 300) := by
    have above : ((10 ^ 12 : Nat) : Rat) ≤ (10 ^ 12 : Nat) + 300 := by norm_num
    exact double.symm.trans_le (nearest_mono above)
  have readable : IsReadable store config (10 ^ 12 : Nat) :=
    ⟨by decide +kernel, by norm_num, whole, isLast,
      fun entry member => (soon entry member).trans near⟩
  have runs := runs_status (show (askFor file (10 ^ 12 : Nat)).configFile >>= configuration = _ from
    configured) rfl rfl (kept.state_readable digests readable) rfl
  exact (frozen _ []).2 _ runs.ended_eq

end Runs

/-- **The store is frozen exactly where one of the calls was interrupted after it had created the
file beside the store, and before that took its place**; then the store keeps what was saved
before this call. -/
theorem frozen_iff (sha256 : List UInt8 → String)
    (digests : ∀ data, isDigest (sha256 data).toList = true) (calls : List (Call × List Fault))
    (clocked : ∀ entry ∈ calls, Clocked entry.1)
    (soon : ∀ entry ∈ calls,
      entry.1.check.finished ≤ (10 ^ 12 : Nat) ∧ entry.1.failed ≤ (10 ^ 12 : Nat)) :
    (Frozen sha256 (afterCalls sha256 emptyStore calls) ↔
      ∃ earlier call faults later, calls = earlier ++ (call, faults) :: later ∧
        LeavesPart sha256 earlier call faults) ∧
    ∀ earlier call faults later, calls = earlier ++ (call, faults) :: later →
      LeavesPart sha256 earlier call faults →
        afterCalls sha256 emptyStore calls =
          { afterCalls sha256 emptyStore earlier with part := true } := by
  obtain ⟨kept, made⟩ := kept_afterCalls sha256 calls clocked
  have times : ∀ entry ∈ (afterCalls sha256 emptyStore calls).saved,
      entry.time ≤ (10 ^ 12 : Nat) := by
    intro entry member
    obtain ⟨faults, among⟩ := made entry member
    rcases (isEpoch_checked (kept.checks entry member)).2 with finished | failed
    · exact finished ▸ (soon _ among).1
    · exact failed ▸ (soon _ among).2
  rw [← part_afterCalls]
  refine ⟨⟨fun frozen => ?_, frozen_of_part⟩, ?_⟩
  · by_contra whole
    exact kept.not_frozen digests (Bool.not_eq_true _ ▸ whole) times frozen
  · rintro earlier call faults later rfl leaves
    exact leaves.afterCalls_eq later

/-- After a check was saved, a call is killed while it replaces the file. -/
def interruptedCalls : List (Call × List Fault) :=
  [(sampleCall 1770000000, []), (sampleCall 1770000100, [.fine, .fine, .fine, .dies])]

theorem frozen_iff_interrupted :
    Frozen sampleSha256 (afterCalls sampleSha256 emptyStore interruptedCalls) ∧
      (afterCalls sampleSha256 emptyStore interruptedCalls).saved = [sampleSaved] := by
  have clocked : ∀ entry ∈ interruptedCalls, Clocked entry.1 := by
    refine List.forall_mem_cons.mpr ⟨sampleCall_clocked _ (by norm_num), ?_⟩
    exact List.forall_mem_singleton.mpr (sampleCall_clocked _ (by norm_num))
  have soon : ∀ entry ∈ interruptedCalls,
      entry.1.check.finished ≤ (10 ^ 12 : Nat) ∧ entry.1.failed ≤ (10 ^ 12 : Nat) := by
    refine List.forall_mem_cons.mpr ⟨?_, List.forall_mem_singleton.mpr ?_⟩ <;>
      exact ⟨by norm_num [sampleCall], by norm_num [sampleCall]⟩
  obtain ⟨file, runs⟩ := sampleCall_runs
  have before : afterCalls sampleSha256 emptyStore [(sampleCall 1770000000, [])] =
      ⟨some file, false, [sampleSaved]⟩ := runs.state_eq
  obtain ⟨kept, -⟩ := kept_afterCalls sampleSha256 [(sampleCall 1770000000, [])]
    (List.forall_mem_singleton.mpr (sampleCall_clocked _ (by norm_num)))
  have read := kept.state_readable sampleSha256_digests sampleReadable
  have leaves : LeavesPart sampleSha256 [(sampleCall 1770000000, [])] (sampleCall 1770000100)
      [.fine, .fine, .fine, .dies] :=
    ⟨⟨sampleConfig, sampleConfig_eq_ok, rfl, by decide, ⟨_, read⟩, rfl, ⟨_, read⟩,
      ⟨_, sampleChecked_eq_ok 1770000100 (by decide +kernel) (by decide +kernel)⟩⟩, rfl⟩
  obtain ⟨frozen, left⟩ :=
    frozen_iff sampleSha256 sampleSha256_digests interruptedCalls clocked soon
  refine ⟨frozen.mpr ⟨_, _, _, [], rfl, leaves⟩, ?_⟩
  rw [left _ _ _ [] rfl leaves, before]

end HomeclusterInfra.BanipProof
