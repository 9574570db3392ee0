import HomeclusterInfra.BanipProof.Checks
import HomeclusterInfra.BanipProof.StoreText

/-!
# Runs of the store

However calls are interrupted, the file holds what the saved checks made of it. A feed is reported
as verified exactly when the last check of all verified it and the set did not change since, and
its last success is that of the last check that verified it.
-/

set_option autoImplicit false

namespace HomeclusterInfra.BanipProof

open Text JsonText Binary64 Interruption Checked

variable {now : Rat} {config : Config}

/-! ## What was saved -/

/-- The proof after all that was saved. -/
def proofOf (saved : List Saved) : Proof :=
  saved.foldl (fun proof entry => recordAll proof entry.time entry.found) Proof.empty

theorem proofOf_concat (saved : List Saved) (entry : Saved) :
    proofOf (saved ++ [entry]) = recordAll (proofOf saved) entry.time entry.found := by
  rw [proofOf, List.foldl_append]
  rfl

/-- The content that verified a feed in a check. -/
def Saved.contentOf (saved : Saved) (feed : Feed) : Option FeedContent :=
  match saved.found.lookup feed with
  | some (.verified content) => some content
  | _ => none

/-- The last check that verified a feed. -/
def lastVerifiedIn (saved : List Saved) (feed : Feed) : Option (Rat × FeedContent) :=
  (saved.filterMap fun entry => (entry.contentOf feed).map (entry.time, ·)).getLast?

/-- **Only a verified check changes what was verified last.** -/
theorem lastVerified_proofOf (saved : List Saved) (feed : Feed) :
    (proofOf saved feed).bind Record.lastVerified =
      (lastVerifiedIn saved feed).map fun entry => verifiedAt entry.1 entry.2 := by
  induction saved using List.reverseRecOn with
  | nil => rfl
  | append_singleton saved entry ih =>
      rw [lastVerifiedIn] at ih
      rw [proofOf_concat, lastVerifiedIn, List.filterMap_append, recordAll]
      cases found : entry.found.lookup feed with
      | none =>
          rw [List.filterMap_cons_none (by rw [Saved.contentOf, found]; rfl), List.filterMap_nil,
            List.append_nil]
          exact ih
      | some finding =>
          cases finding with
          | verified content =>
              rw [List.filterMap_cons_some (by rw [Saved.contentOf, found]; rfl),
                List.filterMap_nil, List.getLast?_concat]
              rfl
          | failed reason | changed | mismatch =>
              rw [List.filterMap_cons_none (by rw [Saved.contentOf, found]; rfl),
                List.filterMap_nil, List.append_nil]
              exact ih

section Runs

variable {sha256 : List UInt8 → String} {call : Call} {store after : Store} {faults : List Fault}

/-- What was saved by calls of one clock. -/
structure Kept (sha256 : List UInt8 → String) (store : Store) : Prop where
  file : store.file = store.saved.getLast?.map fun last =>
    proofText (definitionHash sha256 last.config) (proofOf store.saved)
  files : ∀ entry ∈ store.saved, entry.call.configFile >>= configuration = .ok entry.config
  checks : ∀ entry ∈ store.saved,
    checked sha256 entry.config entry.call = .ok (entry.time, entry.found)
  doubles : ∀ entry ∈ store.saved, IsDouble entry.time
  configured : ∀ last ∈ store.saved.getLast?, ∀ feed record,
    proofOf store.saved feed = some record → feed ∈ last.config.feeds

theorem kept_emptyStore (sha256 : List UInt8 → String) : Kept sha256 emptyStore :=
  ⟨rfl, fun _ member => absurd member List.not_mem_nil,
    fun _ member => absurd member List.not_mem_nil, fun _ member => absurd member List.not_mem_nil,
    fun _ member => absurd member (by simp [emptyStore])⟩

theorem one_le_of_isEpoch {time other : Rat} (epoch : isEpoch time other = true) : 1 ≤ time := by
  rw [isEpoch, Bool.and_eq_true, decide_eq_true_eq] at epoch
  exact le_trans (by norm_num) epoch.1

theorem Proof.Exact.recordAll {prior : Proof} {time : Rat} {found : List (Feed × Finding)}
    (exact : prior.Exact) (double : IsDouble time) (large : 1 ≤ time) :
    (recordAll prior time found).Exact := by
  intro feed record made
  rw [BanipProof.recordAll] at made
  split at made
  next finding _ =>
    cases made
    have check : (finding.record time (prior feed)).lastCheck.time = .float time := by
      cases finding <;> rfl
    refine ⟨check ▸ ⟨double, large⟩, fun good member => ?_⟩
    cases finding with
    | verified content =>
        cases member
        exact ⟨⟨double, large⟩, fun records same => by cases same; exact ⟨trivial, rfl⟩⟩
    | failed reason | changed | mismatch =>
        obtain ⟨old, here, isGood⟩ := Option.bind_eq_some_iff.mp member
        exact (exact feed old here).verified good isGood
  next => exact exact feed record made

theorem exact_proofOf {saved : List Saved} (doubles : ∀ entry ∈ saved, IsDouble entry.time)
    (large : ∀ entry ∈ saved, 1 ≤ entry.time) : (proofOf saved).Exact := by
  induction saved using List.reverseRecOn with
  | nil =>
      intro _ _ found
      cases found
  | append_singleton saved entry ih =>
      rw [List.forall_mem_append, List.forall_mem_singleton] at doubles large
      rw [proofOf_concat]
      exact (ih doubles.1 large.1).recordAll doubles.2 large.2

theorem Kept.exact (kept : Kept sha256 store) : (proofOf store.saved).Exact :=
  exact_proofOf kept.doubles fun entry member =>
    one_le_of_isEpoch (isEpoch_checked (kept.checks entry member)).1

/-- The clocks of a call are doubles. -/
structure Clocked (call : Call) : Prop where
  finished : IsDouble call.check.finished
  failed : IsDouble call.failed

/-- What a call reads is the proof of what was saved, and all of it is configured. -/
theorem Kept.state_eq (kept : Kept sha256 store) {config : Config} {now : Rat} {found : Proof}
    (read : state sha256 config now store = .ok found) :
    proofOf store.saved = found ∧
      ∀ feed record, found feed = some record → feed ∈ config.feeds := by
  cases last : store.saved.getLast? with
  | none =>
      have none_saved := List.getLast?_eq_none_iff.mp last
      have file := kept.file
      rw [last, Option.map_none] at file
      rw [state, file] at read
      obtain ⟨_, _, rest⟩ := Checked.bind_eq_ok.mp read
      obtain ⟨_, _, same⟩ := Checked.bind_eq_ok.mp rest
      cases same
      rw [none_saved]
      exact ⟨rfl, fun _ _ here => by cases here⟩
  | some entry =>
      have file := kept.file
      rw [last, Option.map_some] at file
      obtain ⟨-, -, -, ⟨-, accepted⟩, rfl⟩ := (state_proofText kept.exact file).mp read
      exact ⟨rfl, accepted.configured⟩

/-- The store after a check was saved. -/
def Store.with (store : Store) (sha256 : List UInt8 → String) (entry : Saved) : Store :=
  ⟨some (proofText (definitionHash sha256 entry.config)
    (proofOf (store.saved ++ [entry]))), false, store.saved ++ [entry]⟩

theorem Kept.part (kept : Kept sha256 store) (part : Bool) :
    Kept sha256 { store with part := part } :=
  ⟨kept.file, kept.files, kept.checks, kept.doubles, kept.configured⟩

theorem Kept.with {entry : Saved} (kept : Kept sha256 store)
    (file : entry.call.configFile >>= configuration = .ok entry.config)
    (isChecked : checked sha256 entry.config entry.call = .ok (entry.time, entry.found))
    (double : IsDouble entry.time)
    (configured : ∀ feed record, proofOf store.saved feed = some record →
      feed ∈ entry.config.feeds) : Kept sha256 (store.with sha256 entry) := by
  refine ⟨?_, List.forall_mem_append.mpr ⟨kept.files, List.forall_mem_singleton.mpr file⟩,
    List.forall_mem_append.mpr ⟨kept.checks, List.forall_mem_singleton.mpr isChecked⟩,
    List.forall_mem_append.mpr ⟨kept.doubles, List.forall_mem_singleton.mpr double⟩, ?_⟩
  · rw [Store.with, List.getLast?_concat]
    rfl
  · intro last member feed record found
    rw [Store.with, List.getLast?_concat] at member
    cases member
    rw [Store.with, proofOf_concat, recordAll] at found
    split at found
    next finding here =>
      rw [← keys_checked isChecked]
      exact List.mem_map_of_mem (Keyed.mem_of_lookup here)
    next => exact configured feed record found

/-- What a call does to the store, and what it returns. -/
structure Follows (sha256 : List UInt8 → String) (call : Call) (store : Store)
    (ended : Ended Raised Summary) (after : Store) : Prop where
  kept : Kept sha256 after
  saved : after.saved = store.saved ∨
    ∃ entry : Saved, entry.call = call ∧ after.saved = store.saved ++ [entry]
  returned : ∀ report, ended = .returned report → ∃ config current,
    call.configFile >>= configuration = .ok config ∧
    currentOf sha256 config call.current = .ok current ∧
      report = summary config (proofOf after.saved) current call.summarized ∧
        ∀ feed record, proofOf after.saved feed = some record → feed ∈ config.feeds

theorem Kept.follows_raised (kept : Kept sha256 store) (failure : Raised) :
    Follows sha256 call store (.raised failure) store :=
  ⟨kept, Or.inl rfl, fun _ same => of_raised_eq same⟩

/-- What is saved is the whole proof, or nothing is. -/
theorem always_save {entry : Saved} (kept : Kept sha256 store)
    (keptWith : Kept sha256 (store.with sha256 entry)) :
    Always (save sha256 entry (proofOf (store.saved ++ [entry]))) (fun ended after =>
      Kept sha256 after ∧ (ended ≠ .returned () ∧ after.saved = store.saved ∨
        after.saved = store.saved ++ [entry])) store := by
  have raised : ∀ (failure : Raised) (part : Bool), Kept sha256 { store with part := part } ∧
      ((.raised failure : Ended Raised Unit) ≠ .returned () ∧ store.saved = store.saved ∨
        store.saved = store.saved ++ [entry]) :=
    fun _ part => ⟨kept.part part, Or.inl ⟨fun same => of_raised_eq same, rfl⟩⟩
  have killed : ∀ part : Bool, Kept sha256 { store with part := part } ∧
      ((.killed : Ended Raised Unit) ≠ .returned () ∧ store.saved = store.saved ∨
        store.saved = store.saved ++ [entry]) :=
    fun part => ⟨kept.part part, Or.inl ⟨fun same => of_killed_eq same, rfl⟩⟩
  have written : ∀ ended : Ended Raised Unit, Kept sha256 (store.with sha256 entry) ∧
      (ended ≠ .returned () ∧ store.saved ++ [entry] = store.saved ∨
        store.saved ++ [entry] = store.saved ++ [entry]) :=
    fun _ => ⟨keptWith, Or.inr rfl⟩
  refine always_change_bind (raised _ store.part) (killed store.part) ?_
  refine always_step_bind (raised _ store.part) (killed store.part)
    (fun _ after acts => ?_) fun own acts => raised _ store.part
  dsimp only [id] at acts
  split at acts
  next => cases acts
  next =>
    cases acts
    refine always_change_bind (raised _ true) (killed true) ?_
    refine always_change_bind (raised _ true) (killed true) ?_
    exact always_change (written _) (written _) (written _)

/-- A task that goes on with the state that it reads. -/
theorem always_loadState_bind {post : Ended Raised Summary → Store → Prop} {config : Config}
    {now : Rat} {next : Proof → Task Summary}
    (read : ∀ found, state sha256 config now store = .ok found → Always (next found) post store)
    (refused : ∀ failure, post (.raised failure) store) :
    Always (loadState sha256 config now >>= next) post store :=
  always_bind (always_look_bind (always_lift read fun failure _ => refused failure))

theorem always_main (call : Call) (clocked : Clocked call) (kept : Kept sha256 store) :
    Always (main sha256 call) (Follows sha256 call store) store := by
  refine always_lift_bind (fun fields given => ?_) fun failure _ => kept.follows_raised failure
  refine always_lift_bind (fun config isConfig => ?_) fun failure _ => kept.follows_raised failure
  have configuredBy : call.configFile >>= configuration = .ok config :=
    Checked.bind_eq_ok.mpr ⟨fields, given, isConfig⟩
  refine always_lift_bind (fun _ _ => ?_) fun failure _ => kept.follows_raised failure
  have reads : ∀ now (next : Proof → Task Summary),
      ((∀ feed record, proofOf store.saved feed = some record → feed ∈ config.feeds) →
        Always (next (proofOf store.saved)) (Follows sha256 call store) store) →
      Always (loadState sha256 config now >>= next) (Follows sha256 call store) store := by
    intro now next goes
    refine always_loadState_bind (fun found read => ?_) kept.follows_raised
    obtain ⟨rfl, configured⟩ := kept.state_eq read
    exact goes configured
  refine reads call.read _ fun configured => ?_
  split
  next =>
    refine always_lift_bind (fun current taken => ?_) fun failure _ => kept.follows_raised failure
    exact always_pure ⟨kept, Or.inl rfl, fun report same => by
      cases same
      exact ⟨config, current, configuredBy, taken, rfl, configured⟩⟩
  next =>
    refine always_lift_bind (fun _ _ => ?_) fun failure _ => kept.follows_raised failure
    refine reads call.readLocked _ fun configured => ?_
    refine always_lift_bind (fun outcome isChecked => ?_) fun failure _ =>
      kept.follows_raised failure
    obtain ⟨time, found⟩ := outcome
    have double : IsDouble time := by
      rcases (isEpoch_checked isChecked).2 with rfl | rfl
      · exact clocked.finished
      · exact clocked.failed
    have proof : recordAll (proofOf store.saved) time found =
        proofOf (store.saved ++ [⟨call, config, time, found⟩]) :=
      (proofOf_concat store.saved ⟨call, config, time, found⟩).symm
    show Always (save sha256 ⟨call, config, time, found⟩
      (recordAll (proofOf store.saved) time found) >>= _) _ store
    rw [proof]
    have keptWith := @Kept.with sha256 store ⟨call, config, time, found⟩ kept configuredBy
      isChecked double configured
    have saves : ∀ ended : Ended Raised Unit, ∀ after : Store, Kept sha256 after ∧
        (ended ≠ .returned () ∧ after.saved = store.saved ∨
          after.saved = store.saved ++ [⟨call, config, time, found⟩]) →
        Kept sha256 after ∧ (after.saved = store.saved ∨
          ∃ entry : Saved, entry.call = call ∧ after.saved = store.saved ++ [entry]) :=
      fun _ after both => ⟨both.1, both.2.imp And.right fun same => ⟨_, rfl, same⟩⟩
    refine always_bind_of (always_save kept keptWith) (fun _ after saved => ?_)
      (fun failure after saved => ?_) fun after saved => ?_
    · have here : after.saved = store.saved ++ [⟨call, config, time, found⟩] :=
        saved.2.resolve_left fun same => same.1 rfl
      refine always_lift_bind (fun current taken => ?_) fun failure _ =>
        ⟨saved.1, Or.inr ⟨_, rfl, here⟩, fun _ same => of_raised_eq same⟩
      refine always_pure ⟨saved.1, Or.inr ⟨_, rfl, here⟩, fun report same => ?_⟩
      cases same
      have configuredNow := saved.1.configured ⟨call, config, time, found⟩ (by
        rw [here]
        exact List.getLast?_concat)
      rw [here] at configuredNow ⊢
      exact ⟨config, current, configuredBy, taken, rfl, configuredNow⟩
    · exact ⟨(saves _ _ saved).1, (saves _ _ saved).2, fun _ same => of_raised_eq same⟩
    · exact ⟨(saves _ _ saved).1, (saves _ _ saved).2, fun _ same => of_killed_eq same⟩

theorem afterCalls_append (sha256 : List UInt8 → String) (store : Store)
    (calls later : List (Call × List Fault)) :
    afterCalls sha256 store (calls ++ later) =
      afterCalls sha256 (afterCalls sha256 store calls) later :=
  List.foldl_append

/-- **After any calls the file is what was saved, and each check of it was made by a call.** -/
theorem kept_afterCalls (sha256 : List UInt8 → String) (calls : List (Call × List Fault))
    (clocked : ∀ entry ∈ calls, Clocked entry.1) :
    Kept sha256 (afterCalls sha256 emptyStore calls) ∧
      ∀ saved ∈ (afterCalls sha256 emptyStore calls).saved,
        ∃ faults, (saved.call, faults) ∈ calls := by
  induction calls using List.reverseRecOn with
  | nil => exact ⟨kept_emptyStore sha256, fun _ member => absurd member List.not_mem_nil⟩
  | append_singleton calls entry ih =>
      obtain ⟨call, faults⟩ := entry
      rw [List.forall_mem_append, List.forall_mem_singleton] at clocked
      obtain ⟨kept, made⟩ := ih clocked.1
      have follows := always_main call clocked.2 kept faults
      rw [afterCalls_append]
      refine ⟨follows.kept, fun saved member => ?_⟩
      have earlier : ∀ saved ∈ (afterCalls sha256 emptyStore calls).saved,
          ∃ met, (saved.call, met) ∈ calls ++ [(call, faults)] := fun saved before =>
        (made saved before).imp fun _ among => List.mem_append_left _ among
      rcases follows.saved with same | ⟨own, rfl, longer⟩
      · exact earlier saved (same ▸ member)
      · rcases List.mem_append.mp (longer ▸ member) with before | last
        · exact earlier saved before
        · rw [List.mem_singleton.mp last]
          exact ⟨faults, List.mem_append_right _ List.mem_cons_self⟩

end Runs

/-! ## A call that nothing interrupts -/

section Uninterrupted

variable {sha256 : List UInt8 → String} {call : Call} {store : Store} {config : Config}
  {prior : Proof} {time : Rat} {found : List (Feed × Finding)} {current : Option Snapshot}

/-- What a call meets that checks all feeds and saves what it found. -/
structure Unhindered (sha256 : List UInt8 → String) (call : Call) (config : Config) (time : Rat)
    (found : List (Feed × Finding)) (current : Option Snapshot) : Prop where
  configured : call.configFile >>= configuration = .ok config
  resources : call.resources = .ok ()
  acts : call.action ≠ .status
  lock : call.lock = .ok ()
  isChecked : checked sha256 config call = .ok (time, found)
  taken : currentOf sha256 config call.current = .ok current

theorem runs_save {saved : Saved} (whole : store.part = false) :
    Runs (save sha256 saved prior) store (.returned ())
      ⟨some (proofText (definitionHash sha256 saved.config) prior), false,
        store.saved ++ [saved]⟩ := by
  have opened : (if store.part then .error .valueOrOs
      else .ok ((), { store with part := true }) : Except Raised (Unit × Store)) =
        .ok ((), { store with part := true }) := by
    rw [whole]
    rfl
  refine runs_bind (runs_change _ id) (runs_bind (runs_step opened) ?_)
  exact runs_bind (runs_change _ id) (runs_bind (runs_change _ _) (runs_change _ id))

theorem runs_loadState {now : Rat} (read : state sha256 config now store = .ok prior) :
    Runs (loadState sha256 config now) store (.returned prior) store :=
  runs_bind (runs_look id) (runs_lift read)

/-- **A call that nothing interrupts saves what it found, and reports it.** -/
theorem Unhindered.runs_main (unhindered : Unhindered sha256 call config time found current)
    (first : state sha256 config call.read store = .ok prior)
    (second : state sha256 config call.readLocked store = .ok prior)
    (whole : store.part = false) :
    Runs (main sha256 call) store
      (.returned (summary config (recordAll prior time found) current call.summarized))
      ⟨some (proofText (definitionHash sha256 config) (recordAll prior time found)), false,
        store.saved ++ [⟨call, config, time, found⟩]⟩ := by
  obtain ⟨fields, file, isConfig⟩ := Checked.bind_eq_ok.mp unhindered.configured
  refine runs_bind (runs_lift file) (runs_bind (runs_lift isConfig)
    (runs_bind (runs_lift unhindered.resources) (runs_bind (runs_loadState first) ?_)))
  rw [if_neg unhindered.acts]
  exact runs_bind (runs_lift unhindered.lock) (runs_bind (runs_loadState second)
    (runs_bind (runs_lift unhindered.isChecked) (runs_bind (runs_save whole)
      (runs_bind (runs_lift unhindered.taken) (runs_pure _)))))

/-- A call that nothing interrupts reports what the file says. -/
theorem runs_status (configured : call.configFile >>= configuration = .ok config)
    (resources : call.resources = .ok ()) (asked : call.action = .status)
    (read : state sha256 config call.read store = .ok prior)
    (taken : currentOf sha256 config call.current = .ok current) :
    Runs (main sha256 call) store (.returned (summary config prior current call.summarized))
      store := by
  obtain ⟨fields, file, isConfig⟩ := Checked.bind_eq_ok.mp configured
  refine runs_bind (runs_lift file) (runs_bind (runs_lift isConfig)
    (runs_bind (runs_lift resources) (runs_bind (runs_loadState read) ?_)))
  rw [if_pos asked]
  exact runs_bind (runs_lift taken) (runs_pure _)

end Uninterrupted

/-! ## A sample -/

/-- SHA-256 of the texts of the sample, and a digest of any other. -/
def sampleSha256 (data : List UInt8) : String :=
  if data = twoHosts then "983d987f7b3670ac135966680563b958a6b7da1ebc99818ef25d65644c0133bf"
  else if data = asciiBytes "8.8.8.8/31".toList then
    "4ff0ad32d7ec4ddf37582169a41d490016a5988d8d1faf84340bb0ed6c13d6fb"
  else "968c557ef19722e4ecc230f4ef9f838134d784f3a98490b1e35061c3dda50f73"

def sampleReadings : Readings where
  runtime := .ok [("status".toList, .str "active".toList),
    ("last_run".toList, .str "mode: reload, date / time: 07/02/2026 03:04:05, duration: 0m".toList),
    ("active_feeds".toList, .arr [.str "feodo.v4".toList])]
  runtimeAfter := .ok [("status".toList, .str "active".toList),
    ("last_run".toList, .str "mode: reload, date / time: 07/02/2026 03:04:05, duration: 0m".toList),
    ("active_feeds".toList, .arr [.str "feodo.v4".toList])]
  feeds := .ok "feodo\n".toList
  enabled := .ok "1\n".toList
  feedFile := .ok []
  customFeedFile := .ok []
  definitions := .ok [("feodo".toList, .object (Feed.feodo.definition.map fun (key, text) =>
    (key, .text text)))]
  customEmpty := .ok true
  set _ := .ok (170, twoHostSet)

def sampleCall (epoch : Nat) : Call where
  action := .verify
  configFile := .ok [("schema".toList, .int 1), ("feeds".toList, .arr [.str "feodo".toList])]
  resources := .ok ()
  read := epoch
  readLocked := epoch
  lock := .ok ()
  reload := ⟨sampleReadings, .ok (), []⟩
  check := ⟨epoch, (epoch + 1 : Nat), sampleReadings, sampleReadings, fun _ => .ok twoHosts⟩
  failed := 0
  current := sampleReadings
  summarized := (epoch + 1 : Nat)

def sampleConfig : Config :=
  Config.sorted .feodo []

def sampleContent : FeedContent :=
  ⟨⟨"4ff0ad32d7ec4ddf37582169a41d490016a5988d8d1faf84340bb0ed6c13d6fb", 1⟩, 2,
    "983d987f7b3670ac135966680563b958a6b7da1ebc99818ef25d65644c0133bf"⟩

def sampleSnapshot : Snapshot :=
  ⟨"mode: reload, date / time: 07/02/2026 03:04:05, duration: 0m".toList,
    [(.feodo, ⟨⟨"4ff0ad32d7ec4ddf37582169a41d490016a5988d8d1faf84340bb0ed6c13d6fb", 1⟩, 1⟩)]⟩

theorem sampleConfig_eq_ok : (sampleCall 1770000000).configFile >>= configuration =
    .ok sampleConfig :=
  rfl

theorem sampleReadings_eq_ok :
    snapshot sampleSha256 sampleConfig sampleReadings = .ok sampleSnapshot := by
  rw [← toOption_eq_some]
  decide +kernel

theorem sampleContents_eq_ok : parseFeed sampleSha256 .feodo twoHosts = .ok sampleContent := by
  rw [← toOption_eq_some]
  decide +kernel

theorem sampleChecked_eq_ok (epoch : Nat) (trusted : isEpoch epoch epoch = true)
    (agrees : clockAgrees epoch (epoch + 1 : Nat) = true) :
    checked sampleSha256 sampleConfig (sampleCall epoch) =
      .ok ((epoch + 1 : Nat), [(.feodo, .verified sampleContent)]) := by
  have content : contentOf sampleSha256 .feodo (.ok twoHosts) = .ok (.ok sampleContent) := by
    have parsed : (.ok twoHosts >>= parseFeed sampleSha256 .feodo) = .ok sampleContent :=
      bind_eq_ok.mpr ⟨twoHosts, rfl, sampleContents_eq_ok⟩
    rw [contentOf, parsed]
  have compared : compareAll sampleSha256 sampleConfig (sampleCall epoch).check =
      .ok [(.feodo, .verified sampleContent)] := by
    refine bind_eq_ok.mpr ⟨sampleSnapshot, sampleReadings_eq_ok,
      bind_eq_ok.mpr ⟨[(.feodo, .ok sampleContent)], ?_,
        bind_eq_ok.mpr ⟨sampleSnapshot, sampleReadings_eq_ok, rfl⟩⟩⟩
    exact mapM_eq_ok.mpr (.cons (bind_eq_ok.mpr ⟨_, content, rfl⟩) .nil)
  have verified : verify sampleSha256 sampleConfig (sampleCall epoch) =
      .ok ((epoch + 1 : Nat), [(.feodo, .verified sampleContent)]) := by
    refine bind_eq_ok.mpr ⟨(), rfl, bind_eq_ok.mpr ⟨(), require_eq_ok.mpr trusted,
      bind_eq_ok.mpr ⟨_, ?_, bind_eq_ok.mpr ⟨(), require_eq_ok.mpr agrees, rfl⟩⟩⟩⟩
    rw [findings, compared]
  rw [checked, verified]

theorem sampleUnhindered : Unhindered sampleSha256 (sampleCall 1770000000) sampleConfig
    (1770000001 : Nat) [(.feodo, .verified sampleContent)] (some sampleSnapshot) where
  configured := sampleConfig_eq_ok
  resources := rfl
  acts := by decide
  lock := rfl
  isChecked := sampleChecked_eq_ok 1770000000 (by decide +kernel) (by decide +kernel)
  taken := by
    show currentOf sampleSha256 sampleConfig sampleReadings = _
    rw [currentOf, sampleReadings_eq_ok]

theorem sampleCall_clocked (epoch : Nat) (small : epoch < 2 ^ 53) : Clocked (sampleCall epoch) :=
  ⟨isDouble_natCast small, @isDouble_natCast 0 (Nat.zero_le _)⟩

theorem state_emptyStore {sha256 : List UInt8 → String} {config : Config} {now : Rat}
    (trusted : isEpoch now now = true) : state sha256 config now emptyStore = .ok Proof.empty :=
  bind_eq_ok.mpr ⟨(), require_eq_ok.mpr trusted, rfl⟩

def sampleSaved : Saved :=
  ⟨sampleCall 1770000000, sampleConfig, (1770000001 : Nat), [(.feodo, .verified sampleContent)]⟩

theorem sampleCall_runs : ∃ file, Runs (main sampleSha256 (sampleCall 1770000000)) emptyStore
    (.returned (summary sampleConfig (proofOf [sampleSaved]) (some sampleSnapshot)
      (1770000001 : Nat))) ⟨some file, false, [sampleSaved]⟩ :=
  have trusted : isEpoch (1770000000 : Nat) (1770000000 : Nat) = true := by decide +kernel
  ⟨_, sampleUnhindered.runs_main (state_emptyStore trusted) (state_emptyStore trusted) rfl⟩


/-! ## What a summary says -/

section Rows

variable {proof : Proof} {current : Option Snapshot} {feed : Feed}

theorem rowOf_feed : (rowOf proof current now feed).feed = feed :=
  rfl

/-- When a row is verified. -/
theorem rowOf_verified_iff : (rowOf proof current now feed).status = .verified ↔
    ∃ seen record good, current = some seen ∧ proof feed = some record ∧
      record.lastCheck.status = .verified ∧ record.lastVerified = some good ∧
        seen.digest feed = some good.canonicalSha256 ∧ ageAt now good.time ≤ maxAge := by
  show (judge (proof feed) current feed now).1 = .verified ↔ _
  unfold judge
  cases current with
  | none =>
      refine ⟨fun verified => (by cases verified), ?_⟩
      rintro ⟨_, _, _, missing, -⟩
      cases missing
  | some seen =>
      cases proof feed with
      | none =>
          refine ⟨fun verified => (by cases verified), ?_⟩
          rintro ⟨_, _, _, -, missing, -⟩
          cases missing
      | some record =>
          dsimp only
          split
          next other =>
            constructor
            · intro verified
              cases status : record.lastCheck.status with
              | verified => exact absurd status other
              | error => rw [status] at verified; cases verified
              | unknown => rw [status] at verified; cases verified
            · rintro ⟨_, _, _, -, same, status, -⟩
              cases same
              exact absurd status other
          next isVerified =>
            rw [not_not] at isVerified
            cases good : record.lastVerified with
            | none =>
                refine ⟨fun verified => (by cases verified), ?_⟩
                rintro ⟨_, _, _, -, same, -, missing, -⟩
                cases same
                cases good.symm.trans missing
            | some verified =>
                dsimp only
                split
                next changed =>
                  refine ⟨fun verified => (by cases verified), ?_⟩
                  rintro ⟨_, _, _, shown, same, -, here, agree, -⟩
                  cases shown
                  cases same
                  cases good.symm.trans here
                  exact absurd agree changed
                next agree =>
                  split
                  next old =>
                    refine ⟨fun verified => (by cases verified), ?_⟩
                    rintro ⟨_, _, _, -, same, -, here, -, young⟩
                    cases same
                    cases good.symm.trans here
                    exact absurd young (not_le.mpr old)
                  next young =>
                    exact ⟨fun _ => ⟨seen, record, verified, rfl, rfl, isVerified, good,
                      not_not.mp agree, not_lt.mp young⟩, fun _ => rfl⟩

end Rows

section Reports

variable {sha256 : List UInt8 → String} {store : Store} {feed : Feed}

/-- The record of a feed is that of the last check. -/
theorem Kept.last_finding (kept : Kept sha256 store) {record : Record}
    (found : proofOf store.saved feed = some record) :
    ∃ last finding prior, store.saved.getLast? = some last ∧
      last.found.lookup feed = some finding ∧ record = finding.record last.time prior := by
  cases end_ : store.saved.getLast? with
  | none =>
      rw [List.getLast?_eq_none_iff.mp end_] at found
      cases found
  | some last =>
      have configured := kept.configured last end_ feed record found
      obtain ⟨before, same⟩ := List.getLast?_eq_some_iff.mp end_
      have isChecked := kept.checks last (List.mem_of_getLast? end_)
      rw [← keys_checked isChecked] at configured
      obtain ⟨entry, listed, rfl⟩ := List.mem_map.mp configured
      rw [same, proofOf_concat, recordAll] at found
      cases here : last.found.lookup entry.1 with
      | none => exact absurd (List.lookup_eq_none_iff.mp here _ listed) (by simp)
      | some finding =>
          rw [here] at found
          cases found
          exact ⟨last, finding, _, rfl, here, rfl⟩

end Reports

section Summaries

variable {sha256 : List UInt8 → String} {calls : List (Call × List Fault)} {call : Call}
  {faults : List Fault} {report : Summary} {config : Config}

theorem lookup_of_contentOf {saved : Saved} {feed : Feed} {content : FeedContent}
    (isContent : saved.contentOf feed = some content) :
    saved.found.lookup feed = some (.verified content) := by
  rw [Saved.contentOf] at isContent
  split at isContent
  next other here =>
    cases isContent
    exact here
  next => cases isContent

theorem snapshot_of_currentOf {readings : Readings} {seen : Snapshot}
    (taken : currentOf sha256 config readings = .ok (some seen)) :
    snapshot sha256 config readings = .ok seen := by
  rw [currentOf] at taken
  split at taken
  next current isCurrent =>
    cases taken
    exact isCurrent
  next => cases taken
  next => cases taken

/-- The store after a further call. -/
def storeAfter (sha256 : List UInt8 → String) (calls : List (Call × List Fault))
    (call : Call) (faults : List Fault) : Store :=
  (main sha256 call).state (afterCalls sha256 emptyStore calls) faults

/-- **A feed is reported as verified exactly when the last check verified it**, less than two
days ago, and the set still has the content of that download. -/
theorem verified_iff (sha256 : List UInt8 → String) (calls : List (Call × List Fault))
    (clocked : ∀ entry ∈ calls, Clocked entry.1) (call : Call) (clockedCall : Clocked call)
    (faults : List Fault) (report : Summary)
    (returned : (main sha256 call).ended (afterCalls sha256 emptyStore calls) faults =
      .returned report) (config : Config)
    (configured : call.configFile >>= configuration = .ok config) :
    ∀ row ∈ report.feeds, row.status = .verified ↔ ∃ last content seen,
      (storeAfter sha256 calls call faults).saved.getLast? = some last ∧
      last.contentOf row.feed = some content ∧ IsVerifiedBy sha256 last row.feed content ∧
      snapshot sha256 config call.current = .ok seen ∧
      seen.digest row.feed = some content.canonicalSha256 ∧
      ageAt call.summarized (.float last.time) ≤ maxAge := by
  have follows := always_main call clockedCall (kept_afterCalls sha256 calls clocked).1 faults
  obtain ⟨given, current, isConfig, taken, rfl, -⟩ := follows.returned report returned
  cases configured.symm.trans isConfig
  intro row member
  obtain ⟨feed, -, rfl⟩ := List.mem_map.mp member
  rw [rowOf_verified_iff]
  rw [rowOf_feed, storeAfter]
  have kept := follows.kept
  constructor
  · rintro ⟨seen, record, good, rfl, found, status, verified, agree, young⟩
    obtain ⟨last, finding, prior, isLast, here, rfl⟩ := kept.last_finding found
    cases finding with
    | verified content =>
        cases verified
        have isChecked := kept.checks last (List.mem_of_getLast? isLast)
        exact ⟨last, content, seen, isLast, by rw [Saved.contentOf, here],
          isVerifiedBy_of_checked isChecked here, snapshot_of_currentOf taken, agree, young⟩
    | failed reason => cases status
    | changed => cases status
    | mismatch => cases status
  · rintro ⟨last, content, seen, isLast, isContent, -, isSeen, agree, young⟩
    obtain ⟨before, same⟩ := List.getLast?_eq_some_iff.mp isLast
    have here := lookup_of_contentOf isContent
    have found : proofOf (before ++ [last]) feed =
        some ((Finding.verified content).record last.time (proofOf before feed)) := by
      rw [proofOf_concat, recordAll, here]
    rw [currentOf, isSeen] at taken
    cases taken
    rw [same]
    exact ⟨seen, _, _, rfl, found, rfl, rfl, agree, young⟩

theorem verified_iff_sample :
    ∃ report, (main sampleSha256 (sampleCall 1770000000)).ended
        (afterCalls sampleSha256 emptyStore []) [] = .returned report ∧
      ∀ row ∈ report.feeds, row.status = .verified := by
  obtain ⟨file, runs⟩ := sampleCall_runs
  have returned := runs.ended_eq
  refine ⟨_, returned, fun row member => (verified_iff sampleSha256 []
    (fun _ among => absurd among List.not_mem_nil) (sampleCall 1770000000)
    (sampleCall_clocked _ (by norm_num)) [] _ returned sampleConfig sampleConfig_eq_ok row
    member).mpr ?_⟩
  have only : ∀ feed ∈ sampleConfig.feeds, feed = .feodo := by decide
  obtain ⟨feed, listed, rfl⟩ := List.mem_map.mp member
  obtain rfl := only feed listed
  have saved : (storeAfter sampleSha256 [] (sampleCall 1770000000) []).saved = [sampleSaved] :=
    congrArg Store.saved runs.state_eq
  have young : ageAt (1770000001 : Nat) (.float (1770000001 : Nat)) ≤ maxAge := by decide +kernel
  refine ⟨sampleSaved, sampleContent, sampleSnapshot, ?_, rfl,
    isVerifiedBy_of_checked sampleUnhindered.isChecked rfl, sampleReadings_eq_ok, rfl, young⟩
  rw [saved]
  rfl

/-- **What a summary says of the last success is that of the last check that verified the feed**,
and each check that counts was made by one of the calls. -/
theorem lastVerified_reported (sha256 : List UInt8 → String) (calls : List (Call × List Fault))
    (clocked : ∀ entry ∈ calls, Clocked entry.1) (call : Call) (clockedCall : Clocked call)
    (faults : List Fault) (report : Summary)
    (returned : (main sha256 call).ended (afterCalls sha256 emptyStore calls) faults =
      .returned report) :
    (∀ row ∈ report.feeds,
      row.verifiedAt = (lastVerifiedIn (storeAfter sha256 calls call faults).saved row.feed).map
        (.float ·.1) ∧
      row.lastVerifiedCount =
        (lastVerifiedIn (storeAfter sha256 calls call faults).saved row.feed).map (·.2.count)) ∧
    ∀ saved ∈ (storeAfter sha256 calls call faults).saved,
      checked sha256 saved.config saved.call = .ok (saved.time, saved.found) ∧
        ∃ met, (saved.call, met) ∈ calls ++ [(call, faults)] := by
  have clockedAll : ∀ entry ∈ calls ++ [(call, faults)], Clocked entry.1 :=
    List.forall_mem_append.mpr ⟨clocked, List.forall_mem_singleton.mpr clockedCall⟩
  obtain ⟨kept, made⟩ := kept_afterCalls sha256 _ clockedAll
  have after : afterCalls sha256 emptyStore (calls ++ [(call, faults)]) =
      storeAfter sha256 calls call faults :=
    afterCalls_append sha256 emptyStore calls _
  rw [after] at kept made
  refine ⟨?_, fun saved member => ⟨kept.checks saved member, made saved member⟩⟩
  have follows := always_main call clockedCall (kept_afterCalls sha256 calls clocked).1 faults
  obtain ⟨config, current, -, -, rfl, -⟩ := follows.returned report returned
  intro row member
  obtain ⟨feed, -, rfl⟩ := List.mem_map.mp member
  have last := lastVerified_proofOf (storeAfter sha256 calls call faults).saved feed
  rw [storeAfter] at last ⊢
  rw [rowOf_feed]
  constructor
  · rw [rowOf]
    dsimp only
    rw [last, Option.map_map]
    rfl
  · rw [rowOf]
    dsimp only
    rw [last, Option.map_map]
    rfl

theorem lastVerified_reported_sample :
    ∃ report, (main sampleSha256 (sampleCall 1770000000)).ended
        (afterCalls sampleSha256 emptyStore []) [] = .returned report ∧
      ∀ row ∈ report.feeds, row.verifiedAt =
        (lastVerifiedIn (storeAfter sampleSha256 [] (sampleCall 1770000000) []).saved row.feed).map
          (.float ·.1) := by
  obtain ⟨file, runs⟩ := sampleCall_runs
  have returned := runs.ended_eq
  exact ⟨_, returned, fun row member => ((lastVerified_reported sampleSha256 []
    (fun _ among => absurd among List.not_mem_nil) (sampleCall 1770000000)
    (sampleCall_clocked _ (by norm_num)) [] _ returned).1 row member).1⟩

end Summaries

end HomeclusterInfra.BanipProof
