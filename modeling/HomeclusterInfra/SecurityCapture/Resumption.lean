import HomeclusterInfra.SecurityCapture.SpoolSafety
import Mathlib.Tactic.Linarith
import Mathlib.Tactic.NormNum

/-!
# An acknowledgement is resumed

An acknowledgement that was interrupted, once or often, is completed by a further call, unless
one of them broke off between creating its receipt and putting it into place. The temporary file
stays then, and no acknowledgement of any capture returns from there on.
-/

set_option autoImplicit false

namespace HomeclusterInfra.SecurityCapture

open Interruption

variable {sha256 : List UInt8 → List Char} {env last : Surroundings} {captureId : CaptureId}
  {expected : List Char} {world after : World}

/-! ## Files that were left -/

/-- A temporary file stands among the receipts. -/
def HasStray (world : World) : Prop :=
  ∃ captureId hex, .temporary captureId hex ∈ world.acknowledged

theorem keeps_hasStray_reviewReceipt (entry : Acknowledgement) :
    Keeps HasStray (reviewReceipt env entry) := by
  cases entry with
  | temporary => exact keeps_raise _
  | receipt receipt =>
      refine keeps_bind keeps_call fun _ => keeps_bind (keeps_demand _ _) fun _ => ?_
      split
      next =>
        refine keeps_change fun state stray => ?_
        obtain ⟨captureId, hex, member⟩ := stray
        exact ⟨captureId, hex, List.mem_filter.mpr ⟨member, by simp⟩⟩
      next => exact keeps_pure _

/-- The loop over the receipts ends at it. -/
theorem always_forEach_stray (entries : List Acknowledgement)
    (among : ∃ captureId hex, .temporary captureId hex ∈ entries) (stray : HasStray world) :
    Always (forEach (reviewReceipt env) entries)
      (fun ended after => ended ≠ .returned () ∧ HasStray after) world := by
  refine always_forEach (fun entries state => (∃ captureId hex,
    .temporary captureId hex ∈ entries) ∧ HasStray state) (fun state none_left => ?_) ?_ entries
      world ⟨among, stray⟩
  · obtain ⟨⟨_, _, member⟩, -⟩ := none_left
    cases member
  · rintro entry entries state ⟨⟨captureId, hex, member⟩, there⟩
    cases entry with
    | temporary => exact always_raise ⟨of_raised_eq, there⟩
    | receipt receipt =>
        have later : .temporary captureId hex ∈ entries :=
          (List.mem_cons.mp member).resolve_left (by simp)
        refine always_mono (keeps_hasStray_reviewReceipt (.receipt receipt) state there) ?_
        intro ended after still
        cases ended with
        | returned value => exact ⟨⟨captureId, hex, later⟩, still⟩
        | raised failure => exact ⟨of_raised_eq, still⟩
        | killed => exact ⟨of_killed_eq, still⟩

/-- **With a file that was left no acknowledgement returns.** -/
theorem always_acknowledge_stray (stray : HasStray world) :
    Always (acknowledge sha256 env captureId expected)
      (fun ended after => (∀ receipt, ended ≠ .returned receipt) ∧ HasStray after) world := by
  have raised : ∀ {after : World} {failure : String}, HasStray after →
      (∀ receipt : Receipt, (.raised failure : Ended String Receipt) ≠ .returned receipt) ∧
        HasStray after := fun there => ⟨fun _ => of_raised_eq, there⟩
  have killed : ∀ {after : World}, HasStray after →
      (∀ receipt : Receipt, (.killed : Ended String Receipt) ≠ .returned receipt) ∧
        HasStray after := fun there => ⟨fun _ => of_killed_eq, there⟩
  have review : Always (acknowledgedReceipts env)
      (fun ended after => (∀ count, ended ≠ .returned count) ∧ HasStray after) world := by
    refine always_call_bind ⟨fun _ => of_raised_eq, stray⟩ ⟨fun _ => of_killed_eq, stray⟩
      (always_look_bind ?_)
    obtain ⟨captureId, hex, member⟩ := stray
    have among : ∃ captureId hex, .temporary captureId hex ∈ env.listedReceipts world.acknowledged :=
      ⟨captureId, hex, (env.listedReceipts_perm _).mem_iff.mpr member⟩
    exact always_bind_of (always_forEach_stray _ among ⟨captureId, hex, member⟩)
      (fun _ _ done => absurd rfl done.1) (fun _ _ broken => ⟨fun _ => of_raised_eq, broken.2⟩)
      fun _ broken => ⟨fun _ => of_killed_eq, broken.2⟩
  refine always_demand_bind (fun _ => ?_) fun _ => raised stray
  refine always_call_bind (raised stray) (killed stray) ?_
  refine always_demand_bind (fun _ => ?_) fun _ => raised stray
  exact always_bind_of review (fun _ _ done => absurd rfl (done.1 _))
    (fun _ _ broken => raised broken.2) fun _ broken => killed broken.2

theorem HasStray.of_eq (stray : HasStray world)
    (same : after.acknowledged = world.acknowledged) : HasStray after := by
  rw [HasStray, same]
  exact stray

/-- A file that was left stays. -/
theorem hasStray_after (stray : HasStray world) (invocation : Invocation) (faults : List Fault) :
    HasStray (invocation.after sha256 world faults) := by
  cases invocation with
  | acknowledge env captureId expected => exact (always_acknowledge_stray stray faults).2
  | request env captureId profile =>
      refine stray.of_eq ?_
      rcases always_request profile world faults with same | ⟨-, same⟩
      · exact congrArg World.acknowledged same
      · exact (congrArg World.acknowledged same).trans rfl
  | serve env =>
      refine stray.of_eq ?_
      rcases always_serve sha256 env world faults with same | ⟨_, _, _, -, -, -, same, -, -⟩
      · exact congrArg World.acknowledged same
      · exact (congrArg World.acknowledged same).trans rfl
  | sshExport env captureId =>
      exact stray.of_eq (congrArg World.acknowledged
        (@keeps_sshExport sha256 (fun after => after = world) env captureId world rfl faults))

theorem hasStray_runAll (stray : HasStray world) (calls : List (Invocation × List Fault)) :
    HasStray (runAll sha256 world calls) := by
  induction calls generalizing world with
  | nil => exact stray
  | cons entry calls ih => exact ih (hasStray_after stray entry.1 entry.2)

/-- **From there on none returns**, whatever calls are made. -/
theorem stray_blocks (sha256 : List UInt8 → List Char) (world : World) (stray : HasStray world)
    (calls : List (Invocation × List Fault)) (env : Surroundings) (captureId : CaptureId)
    (expected : List Char) (faults : List Fault) (receipt : Receipt) :
    (acknowledge sha256 env captureId expected).ended (runAll sha256 world calls) faults ≠
      .returned receipt :=
  (always_acknowledge_stray (hasStray_runAll stray calls) faults).1 receipt

/-- The session, and an acknowledgement that is killed before its receipt is put into place. -/
def strayedSpool : World :=
  runAll sampleSha256 emptySpool (sampleCalls ++
    [(.acknowledge (quietAt 4) sampleId (sampleSha256 samplePackets.encode),
      List.replicate 5 .fine ++ [.dies])])

theorem acknowledged_strayedSpool : strayedSpool.acknowledged = [.temporary sampleId []] := by
  decide +kernel

theorem stray_blocks_session :
    (acknowledge sampleSha256 (quietAt 6) sampleId (sampleSha256 samplePackets.encode)).ended
      (runAll sampleSha256 strayedSpool [(.sshExport (quietAt 5) sampleId, [])]) [] ≠
        .returned ⟨sampleId, sampleSha256 samplePackets.encode, 6⟩ :=
  have stray : HasStray strayedSpool :=
    ⟨sampleId, [], by rw [acknowledged_strayedSpool]; exact List.mem_singleton.mpr rfl⟩
  stray_blocks sampleSha256 strayedSpool stray [(.sshExport (quietAt 5) sampleId, [])] (quietAt 6)
    sampleId (sampleSha256 samplePackets.encode) []
    ⟨sampleId, sampleSha256 samplePackets.encode, 6⟩

/-! ## Acknowledgements that can be resumed -/

/-- Nothing is acknowledged yet, and the capture is accepted. -/
structure IsDue (sha256 : List UInt8 → List Char) (captureId : CaptureId) (expected : List Char)
    (world : World) : Prop where
  unreceipted : ∀ receipt, .receipt receipt ∈ world.acknowledged → receipt.captureId ≠ captureId
  few : world.acknowledged.length < 64
  accepted : ∃ items manifest, world.runOf captureId = some items ∧
    accepts sha256 captureId items = .ok manifest ∧ manifest.report.pcapSha256 = expected ∧
      items.all isAllowed = true

/-- The receipt stands, and what is left of the capture may be removed. -/
structure IsReceipted (now : Rat) (captureId : CaptureId) (expected : List Char)
    (world : World) : Prop where
  receipted : ∃ receipt, .receipt receipt ∈ world.acknowledged ∧
    receipt.captureId = captureId ∧ receipt.pcapSha256 = expected ∧
      now - receipt.epoch ≤ 72 * 3600 ∧ ∀ other, .receipt other ∈ world.acknowledged →
        other.captureId = captureId → other = receipt
  removable : ∀ items, world.runOf captureId = some items → items.all isAllowed = true

/-- An acknowledgement can be completed at a time. -/
structure Resumable (sha256 : List UInt8 → List Char) (now : Rat) (captureId : CaptureId)
    (expected : List Char) (world : World) : Prop where
  noStray : ¬ HasStray world
  dated : ∀ receipt, .receipt receipt ∈ world.acknowledged → receipt.epoch ≤ now + 300
  stage : IsDue sha256 captureId expected world ∨ IsReceipted now captureId expected world

theorem filter_isReceipt (noStray : ¬ HasStray world) :
    world.acknowledged.filter isReceipt = world.acknowledged := by
  refine List.filter_eq_self.mpr fun entry member => ?_
  cases entry with
  | receipt => rfl
  | temporary captureId hex => exact absurd ⟨captureId, hex, member⟩ noStray

/-- A change of one capture, where it is looked up. -/
theorem lookup_mapRun (captureId : CaptureId) (act : List Item → List Item)
    (runs : List (CaptureId × List Item)) :
    (runs.map fun run => if run.1 = captureId then (run.1, act run.2) else run).lookup captureId =
      (runs.lookup captureId).map act := by
  induction runs with
  | nil => rfl
  | cons run runs ih =>
      obtain ⟨name, items⟩ := run
      rw [List.map_cons]
      by_cases own : name = captureId
      · subst own
        rw [if_pos rfl, List.lookup_cons_self, List.lookup_cons_self]
        rfl
      · have different : (captureId == name) = false := beq_false_of_ne (Ne.symm own)
        rw [if_neg own, List.lookup_cons, different, List.lookup_cons, different]
        exact ih

theorem runOf_changeRun (world : World) (captureId : CaptureId) (act : List Item → List Item) :
    (world.changeRun captureId act).runOf captureId = (world.runOf captureId).map act :=
  lookup_mapRun captureId act world.runs

theorem lookup_filter (runs : List (CaptureId × List Item)) :
    (runs.filter fun run => run.1 ≠ captureId).lookup captureId = none := by
  refine List.lookup_eq_none_iff.mpr fun run member => ?_
  have other := of_decide_eq_true (List.mem_filter.mp member).2
  exact bne_iff_ne.mpr (Ne.symm other)

/-- What is left of a capture is some of its files. -/
theorem runOf_of_pruned {runs kept : List (CaptureId × List Item)}
    (pruned : IsPruned captureId runs kept) {items : List Item}
    (found : kept.lookup captureId = some items) :
    ∃ before, runs.lookup captureId = some before ∧ items.Sublist before := by
  rcases pruned with ⟨keeps, rfl⟩ | rfl
  · rw [prune, lookup_mapRun] at found
    obtain ⟨before, there, rfl⟩ := Option.map_eq_some_iff.mp found
    exact ⟨before, there, List.filter_sublist⟩
  · rw [lookup_filter] at found
    cases found

/-! ## Interrupted acknowledgements -/

/-- Whatever interrupts an acknowledgement, receipts that are young enough stay. -/
theorem keepsFresh_acknowledge (env : Surroundings) (captureId : CaptureId)
    (expected : List Char) (world : World) :
    Keeps (KeepsFresh env world) (acknowledge sha256 env captureId expected) := by
  have publishes : ∀ receipt, Keeps (KeepsFresh env world) (publishReceipt env receipt) := by
    intro receipt
    refine keeps_bind (keeps_change fun state fresh other member young => ?_) fun _ =>
      keeps_bind keeps_call fun _ =>
        keeps_bind (keeps_change fun state fresh other member young => ?_) fun _ => keeps_call
    · exact List.mem_append_left _ (fresh other member young)
    · refine List.mem_append_left _ (List.mem_filter.mpr ⟨fresh other member young, ?_⟩)
      simp
  have clears : ∀ receipt published,
      Keeps (KeepsFresh env world) (removeRun env receipt published) := by
    intro receipt published
    refine keeps_bind (keeps_look _) fun state => ?_
    split
    next => exact keeps_raise _
    next items _ =>
      refine keeps_bind keeps_call fun _ => keeps_bind (keeps_demand _ _) fun _ => ?_
      have removes : Keeps (KeepsFresh env world) (do
          forEach (fun item => change "OSError"
            (World.changeRun receipt.captureId (remove item.name))) (env.listed items)
          step "OSError" fun world =>
            if world.runOf receipt.captureId = some [] then
              .ok ((), { world with
                runs := world.runs.filter fun run => run.1 ≠ receipt.captureId })
            else .error "OSError"
          pure receipt : Call Receipt) := by
        have each : ∀ item : Item, Keeps (KeepsFresh env world) (change "OSError"
            (World.changeRun receipt.captureId (remove item.name)) : Call Unit) :=
          fun item => keeps_change fun _ fresh => fresh
        refine keeps_bind (keeps_forEach each _) fun _ => keeps_bind ?_ fun _ => keeps_pure _
        intro state fresh
        refine always_step fresh fresh (fun _ after gone => ?_) fun _ _ => fresh
        split at gone
        next =>
          cases gone
          exact fresh
        next => cases gone
      split
      next => exact removes
      next => exact keeps_bind (publishes receipt) fun _ => removes
  refine keeps_bind (keeps_demand _ _) fun _ => keeps_bind keeps_call fun _ =>
    keeps_bind (keeps_demand _ _) fun _ =>
      keeps_bind (keeps_acknowledgedReceipts keepsFresh_reviewReceipt) fun _ =>
        keeps_bind (keeps_look _) fun state => ?_
  split
  next receipt _ =>
    refine keeps_bind (keeps_demand _ _) fun _ => ?_
    split
    next => exact keeps_pure _
    next => exact clears receipt true
  next =>
    exact keeps_bind (keeps_demand _ _) fun _ => keeps_bind (keeps_artifact sha256 env captureId)
      fun _ => keeps_bind (keeps_demand _ _) fun _ => clears _ false

/-- **An interrupted acknowledgement can be resumed, unless it left a file among the
receipts.** -/
theorem Resumable.always_acknowledge
    (resumable : Resumable sha256 last.now captureId expected world)
    (before : env.now ≤ last.now) (recent : last.now - env.now ≤ 72 * 3600) :
    Always (acknowledge sha256 env captureId expected) (fun _ after => HasStray after ∨
      Resumable sha256 last.now captureId expected after) world := by
  intro faults
  have effect := SecurityCapture.always_acknowledge sha256 env captureId expected world faults
  have fresh := @keepsFresh_acknowledge sha256 env captureId expected world world
    (fun _ member _ => member) faults
  generalize (acknowledge sha256 env captureId expected).state world faults = after at effect fresh
  by_cases stray : HasStray after
  · exact Or.inl stray
  · refine Or.inr ?_
    obtain ⟨noStray, dated, stage⟩ := resumable
    rcases effect with reviewed | ⟨receipt, own, bears, justified, clears, isDated⟩
    · have sameRun : after.runOf captureId = world.runOf captureId := by
        rw [World.runOf, World.runOf, reviewed.runs]
      refine ⟨stray, fun receipt member => dated receipt (reviewed.receipts receipt member), ?_⟩
      rcases stage with ⟨unreceipted, few, accepted⟩ |
        ⟨⟨receipt, member, own, bears, young, only⟩, removable⟩
      · refine Or.inl ⟨fun receipt member => unreceipted receipt (reviewed.receipts receipt member),
          ?_, sameRun ▸ accepted⟩
        have lengths := reviewed.reviewed.length_le
        rw [filter_isReceipt stray] at lengths
        exact lengths.trans_lt few
      · refine Or.inr ⟨⟨receipt, fresh receipt member ?_, own, bears, young, fun other there =>
          only other (reviewed.receipts other there)⟩, sameRun ▸ removable⟩
        exact (sub_le_sub_right before _).trans young
    · subst own
      have others : ∀ other, .receipt other ∈ world.acknowledged →
          other.captureId = receipt.captureId → other = receipt := by
        intro other there own
        rcases stage with ⟨unreceipted, -, -⟩ | ⟨⟨found, member, sameId, -, young, only⟩, -⟩
        · exact absurd own (unreceipted other there)
        · rcases isDated with inside | ⟨-, old⟩
          · exact (only other there own).trans (only receipt inside rfl).symm
          · refine absurd (old found member sameId) (not_lt_of_ge ?_)
            exact (sub_le_sub_right before _).trans young
      have young : last.now - receipt.epoch ≤ 72 * 3600 := by
        rcases isDated with inside | ⟨new, -⟩
        · rcases stage with ⟨unreceipted, -, -⟩ | ⟨⟨found, -, -, -, young, only⟩, -⟩
          · exact absurd rfl (unreceipted receipt inside)
          · exact only receipt inside rfl ▸ young
        · exact new ▸ recent
      refine ⟨stray, fun other there => ?_, Or.inr ⟨⟨receipt, clears.stands, rfl, bears, young,
        fun other there own => ?_⟩, fun items found => ?_⟩⟩
      · rcases clears.receipts other there with earlier | rfl
        · exact dated other earlier
        · rcases isDated with inside | ⟨new, -⟩
          · exact dated other inside
          · rw [new]
            linarith
      · rcases clears.receipts other there with earlier | same
        · exact others other earlier own
        · exact same
      · obtain ⟨whole, there, sublist⟩ := runOf_of_pruned clears.runs found
        have allowed : whole.all isAllowed = true := by
          rcases stage with ⟨-, -, ⟨items, manifest, same, -, -, allowed⟩⟩ | ⟨-, removable⟩
          · cases Option.some.inj (same.symm.trans there)
            exact allowed
          · exact removable whole there
        exact List.all_eq_true.mpr fun item member =>
          List.all_eq_true.mp allowed item (sublist.subset member)

/-! ## A call that nothing interrupts -/

theorem runs_call (world : World) : Runs call world (.returned ()) world :=
  runs_change _ _

/-- The receipts are reviewed to the end. -/
theorem exists_reviewed (noStray : ¬ HasStray world)
    (dated : ∀ receipt, .receipt receipt ∈ world.acknowledged → receipt.epoch ≤ env.now + 300) :
    ∃ after, Runs (acknowledgedReceipts env) world (.returned after.acknowledged.length) after := by
  have each : ∀ entry entries state,
      (∀ other ∈ entry :: entries, other ∈ world.acknowledged) →
        ∃ after, Runs (reviewReceipt env entry) state (.returned ()) after ∧
          ∀ other ∈ entries, other ∈ world.acknowledged := by
    intro entry entries state among
    rw [List.forall_mem_cons] at among
    cases entry with
    | temporary captureId hex => exact absurd ⟨captureId, hex, among.1⟩ noStray
    | receipt receipt =>
        have early : decide (receipt.epoch ≤ env.now + 300) = true :=
          decide_eq_true (dated receipt among.1)
        by_cases old : env.now - receipt.epoch > 72 * 3600
        · refine ⟨{ state with
              acknowledged := state.acknowledged.filter fun entry => entry ≠ .receipt receipt },
            runs_bind (runs_call state) (runs_bind (runs_demand early) ?_), among.2⟩
          rw [if_pos old]
          exact runs_change _ _
        · refine ⟨state, runs_bind (runs_call state) (runs_bind (runs_demand early) ?_), among.2⟩
          rw [if_neg old]
          exact runs_pure ()
  obtain ⟨after, reviewed, -⟩ := runs_forEach (fun entries _ =>
    ∀ other ∈ entries, other ∈ world.acknowledged) each (env.listedReceipts world.acknowledged)
      world fun _ member => (env.listedReceipts_perm _).mem_iff.mp member
  exact ⟨after, runs_bind (runs_call world) (runs_bind (runs_look _)
    (runs_bind reviewed (runs_bind (runs_look _) (runs_pure _))))⟩

/-- Files of a capture are removed, in any order, and then its directory. -/
theorem exists_cleared (receipt : Receipt) {items removed : List Item}
    (found : world.runOf receipt.captureId = some items) (all : items.Perm removed) :
    ∃ after, Runs (do
        forEach (fun item => change "OSError"
          (World.changeRun receipt.captureId (remove item.name))) removed
        step "OSError" fun world =>
          if world.runOf receipt.captureId = some [] then
            .ok ((), { world with
              runs := world.runs.filter fun run => run.1 ≠ receipt.captureId })
          else .error "OSError"
        pure receipt : Call Receipt) world (.returned receipt) after ∧
      after.runOf receipt.captureId = none := by
  have each : ∀ item later state,
      (∃ left, World.runOf state receipt.captureId = some left ∧
        ∀ other ∈ left, other ∈ item :: later) →
      ∃ after, Runs (change "OSError" (World.changeRun receipt.captureId (remove item.name)) :
          Call Unit) state (.returned ()) after ∧
        ∃ left, World.runOf after receipt.captureId = some left ∧ ∀ other ∈ left, other ∈ later := by
    rintro item later state ⟨left, there, among⟩
    refine ⟨_, runs_change _ _, remove item.name left, ?_, fun other member => ?_⟩
    · rw [runOf_changeRun, there]
      rfl
    · obtain ⟨inside, named⟩ := mem_remove.mp member
      rcases List.mem_cons.mp (among other inside) with rfl | other
      · exact absurd rfl named
      · exact other
  obtain ⟨cleared, runs, left, there, nothing⟩ := runs_forEach (fun later state =>
    ∃ left, World.runOf state receipt.captureId = some left ∧ ∀ other ∈ left, other ∈ later) each
      removed world ⟨items, found, fun other member => all.subset member⟩
  have empty : left = [] := List.eq_nil_iff_forall_not_mem.mpr fun other member =>
    List.not_mem_nil (nothing other member)
  refine ⟨_, runs_bind runs (runs_bind (runs_step (if_pos (there.trans (congrArg some empty))))
    (runs_pure receipt)), ?_⟩
  exact lookup_filter _

/-- The receipt is put into place, and the captures stay. -/
theorem exists_publishedReceipt (receipt : Receipt) (world : World) :
    ∃ after, Runs (publishReceipt env receipt) world (.returned ()) after ∧
      after.runs = world.runs :=
  ⟨_, runs_bind (runs_change _ _) (runs_bind (runs_call _) (runs_bind (runs_change _ _)
    (runs_call _))), rfl⟩

/-- A capture that may be removed is removed, after its receipt where that is missing. -/
theorem exists_removed (receipt : Receipt) (published : Bool) {items : List Item}
    (found : world.runOf receipt.captureId = some items) (allowed : items.all isAllowed = true) :
    ∃ after, Runs (removeRun env receipt published) world (.returned receipt) after ∧
      after.runOf receipt.captureId = none := by
  cases published with
  | true =>
      obtain ⟨final, clears, gone⟩ := exists_cleared receipt found (env.listed_perm items).symm
      refine ⟨final, runs_bind (runs_look id) ?_, gone⟩
      rw [id, found]
      exact runs_bind (runs_call world) (runs_bind (runs_demand allowed) clears)
  | false =>
      obtain ⟨middle, writes, same⟩ := @exists_publishedReceipt env receipt world
      have there : middle.runOf receipt.captureId = some items := by
        rw [World.runOf, same]
        exact found
      obtain ⟨final, clears, gone⟩ := exists_cleared receipt there (env.listed_perm items).symm
      refine ⟨final, runs_bind (runs_look id) ?_, gone⟩
      rw [id, found]
      exact runs_bind (runs_call world) (runs_bind (runs_demand allowed) (runs_bind writes clears))

theorem sublist_reviewReceipt (entry : Acknowledgement) :
    Keeps (fun after => after.acknowledged.Sublist world.acknowledged) (reviewReceipt env entry) := by
  cases entry with
  | temporary => exact keeps_raise _
  | receipt receipt =>
      refine keeps_bind keeps_call fun _ => keeps_bind (keeps_demand _ _) fun _ => ?_
      split
      next => exact keeps_change fun state sublist => List.filter_sublist.trans sublist
      next => exact keeps_pure _

theorem receiptOf_eq_none (unreceipted : ∀ receipt, .receipt receipt ∈ world.acknowledged →
    receipt.captureId ≠ captureId) : world.receiptOf captureId = none := by
  refine List.findSome?_eq_none_iff.mpr fun entry member => ?_
  cases entry with
  | temporary => rfl
  | receipt receipt => exact if_neg (unreceipted receipt member)

theorem receiptOf_eq_some {receipt : Receipt} (member : .receipt receipt ∈ world.acknowledged)
    (own : receipt.captureId = captureId) (only : ∀ other, .receipt other ∈ world.acknowledged →
      other.captureId = captureId → other = receipt) :
    world.receiptOf captureId = some receipt := by
  cases found : world.receiptOf captureId with
  | none => exact absurd member (receipt_notMem found own)
  | some other =>
      obtain ⟨there, own⟩ := mem_of_receiptOf found
      rw [only other there own]

/-- **A call that nothing interrupts completes the acknowledgement.** -/
theorem Resumable.completes (resumable : Resumable sha256 last.now captureId expected world)
    (mounted : last.mounted = true) (digest : isDigest expected = true) :
    ∃ receipt after,
      Runs (acknowledge sha256 last captureId expected) world (.returned receipt) after ∧
        receipt.captureId = captureId ∧ receipt.pcapSha256 = expected ∧
          after.runOf captureId = none := by
  obtain ⟨noStray, dated, stage⟩ := resumable
  obtain ⟨middle, reviews⟩ := exists_reviewed noStray dated
  obtain ⟨reviewed, fresh⟩ := reviews.always (always_acknowledgedReceipts world)
  have sublist : middle.acknowledged.Sublist world.acknowledged :=
    reviews.always (keeps_acknowledgedReceipts sublist_reviewReceipt world (List.Sublist.refl _))
  have sameRun : middle.runOf captureId = world.runOf captureId := by
    rw [World.runOf, World.runOf, reviewed.runs]
  -- The call goes on from the receipts that are left.
  have starts : ∀ {receipt after},
      Runs (acknowledgeReviewed sha256 last captureId expected middle.acknowledged.length) middle
        (.returned receipt) after →
      Runs (acknowledge sha256 last captureId expected) world (.returned receipt) after :=
    fun rest => runs_bind (runs_demand digest) (runs_bind (runs_call world)
      (runs_bind (runs_demand mounted) (runs_bind reviews rest)))
  rcases stage with ⟨unreceipted, few, items, manifest, found, accepted, bears, allowed⟩ |
    ⟨⟨receipt, member, own, bears, young, only⟩, removable⟩
  · have missing := receiptOf_eq_none fun receipt member =>
      unreceipted receipt (sublist.subset member)
    obtain ⟨after, removes, gone⟩ := @exists_removed last middle
      ⟨captureId, expected, last.now⟩ false items (sameRun.trans found) allowed
    refine ⟨⟨captureId, expected, last.now⟩, after, starts (runs_bind (runs_look id) ?_), rfl,
      rfl, gone⟩
    rw [id, missing]
    have got : Runs (artifact sha256 last captureId) middle (.returned manifest) middle := by
      refine runs_bind (runs_demand mounted) (runs_bind (runs_call middle)
        (runs_bind (runs_look id) ?_))
      rw [id, sameRun, found]
      exact runs_lift accepted
    have fits : decide (middle.acknowledged.length < 64) = true :=
      decide_eq_true (sublist.length_le.trans_lt few)
    exact runs_bind (runs_demand fits) (runs_bind got
      (runs_bind (runs_demand (beq_iff_eq.mpr bears)) removes))
  · have there := receiptOf_eq_some (fresh receipt member young) own fun other among =>
      only other (sublist.subset among)
    subst own
    cases left : middle.runOf receipt.captureId with
    | none =>
        refine ⟨receipt, middle, starts (runs_bind (runs_look id) ?_), rfl, bears, left⟩
        rw [id, there]
        refine runs_bind (runs_demand (beq_iff_eq.mpr bears)) ?_
        rw [left]
        exact runs_pure receipt
    | some items =>
        obtain ⟨after, removes, gone⟩ := @exists_removed last middle receipt true items left
          (removable items (sameRun.symm.trans left))
        refine ⟨receipt, after, starts (runs_bind (runs_look id) ?_), rfl, bears, gone⟩
        rw [id, there]
        refine runs_bind (runs_demand (beq_iff_eq.mpr bears)) ?_
        rw [left]
        exact removes

/-! ## The whole run of attempts -/

/-- The world after attempts, each of which is interrupted in its own way. -/
def attempted (sha256 : List UInt8 → List Char) (captureId : CaptureId) (expected : List Char)
    (world : World) (attempts : List (Surroundings × List Fault)) : World :=
  runAll sha256 world (attempts.map fun attempt =>
    (.acknowledge attempt.1 captureId expected, attempt.2))

theorem resumable_attempted (resumable : Resumable sha256 last.now captureId expected world)
    (attempts : List (Surroundings × List Fault))
    (earlier : ∀ attempt ∈ attempts, attempt.1.now ≤ last.now ∧
      last.now - attempt.1.now ≤ 72 * 3600) :
    HasStray (attempted sha256 captureId expected world attempts) ∨
      Resumable sha256 last.now captureId expected
        (attempted sha256 captureId expected world attempts) := by
  induction attempts generalizing world with
  | nil => exact Or.inr resumable
  | cons attempt attempts ih =>
      obtain ⟨first, later⟩ := List.forall_mem_cons.mp earlier
      rcases resumable.always_acknowledge first.1 first.2 attempt.2 with stray | still
      · left
        exact hasStray_runAll stray _
      · exact ih still later

/-- **An acknowledgement is resumed after any interruptions**, unless a temporary file was left
among the receipts. -/
theorem acknowledgement_resumed (sha256 : List UInt8 → List Char) (last : Surroundings)
    (captureId : CaptureId) (expected : List Char) (world : World)
    (resumable : Resumable sha256 last.now captureId expected world)
    (mounted : last.mounted = true) (digest : isDigest expected = true)
    (attempts : List (Surroundings × List Fault))
    (earlier : ∀ attempt ∈ attempts, attempt.1.now ≤ last.now ∧
      last.now - attempt.1.now ≤ 72 * 3600) :
    (∃ receipt after,
        Runs (acknowledge sha256 last captureId expected)
          (attempted sha256 captureId expected world attempts) (.returned receipt) after ∧
        receipt.captureId = captureId ∧ receipt.pcapSha256 = expected ∧
          after.runOf captureId = none) ↔
      ¬ HasStray (attempted sha256 captureId expected world attempts) := by
  constructor
  · rintro ⟨receipt, after, runs, -⟩ stray
    exact (runs.always (always_acknowledge_stray stray)).1 receipt rfl
  · intro noStray
    have still := (resumable_attempted resumable attempts earlier).resolve_left noStray
    exact still.completes mounted digest

/-- A spool with one capture. -/
def takenSpool : World :=
  ⟨none, [(sampleId, sampleFiles sampleId 0)], []⟩

theorem resumable_takenSpool :
    Resumable sampleSha256 6 sampleId (sampleSha256 samplePackets.encode) takenSpool := by
  have nothing : ∀ entry, entry ∉ takenSpool.acknowledged := fun _ => List.not_mem_nil
  refine ⟨?_, fun receipt member => absurd member (nothing _), Or.inl ⟨?_, by decide, ?_⟩⟩
  · rintro ⟨_, _, member⟩
    exact nothing _ member
  · exact fun receipt member => absurd member (nothing _)
  · have described := @pcap_encode sampleSha256 samplePackets
    refine ⟨sampleFiles sampleId 0, ⟨sampleId, samplePackets.report sampleSha256⟩, rfl, ?_, rfl,
      by decide⟩
    simp [accepts, sampleFiles, manifestOf, pcapOf, holds, Item.name, described]

/-- One attempt is killed while it removes the files, and the next one fails. -/
def sampleAttempts : List (Surroundings × List Fault) :=
  [(quietAt 4, List.replicate 10 .fine ++ [.dies]), (quietAt 5, [.fine, .fine, .fails])]

theorem acknowledgement_resumed_session :
    (attempted sampleSha256 sampleId (sampleSha256 samplePackets.encode) takenSpool
        sampleAttempts).runOf sampleId = some ((sampleFiles sampleId 0).drop 2) ∧
      ∃ receipt after,
        Runs (acknowledge sampleSha256 (quietAt 6) sampleId (sampleSha256 samplePackets.encode))
          (attempted sampleSha256 sampleId (sampleSha256 samplePackets.encode) takenSpool
            sampleAttempts) (.returned receipt) after ∧
        receipt.captureId = sampleId ∧ receipt.pcapSha256 = sampleSha256 samplePackets.encode ∧
          after.runOf sampleId = none := by
  have left : (attempted sampleSha256 sampleId (sampleSha256 samplePackets.encode) takenSpool
      sampleAttempts).acknowledged =
        [.receipt ⟨sampleId, sampleSha256 samplePackets.encode, 4⟩] := by
    decide +kernel
  have earlier : ∀ attempt ∈ sampleAttempts, attempt.1.now ≤ (quietAt 6).now ∧
      (quietAt 6).now - attempt.1.now ≤ 72 * 3600 :=
    List.forall_mem_cons.mpr ⟨⟨by norm_num [quietAt], by norm_num [quietAt]⟩,
      List.forall_mem_singleton.mpr ⟨by norm_num [quietAt], by norm_num [quietAt]⟩⟩
  refine ⟨by decide +kernel, (acknowledgement_resumed sampleSha256 (quietAt 6) sampleId
    (sampleSha256 samplePackets.encode) takenSpool resumable_takenSpool rfl (by rfl) sampleAttempts
    earlier).mpr ?_⟩
  rintro ⟨captureId, hex, member⟩
  rw [left] at member
  cases List.mem_singleton.mp member

end HomeclusterInfra.SecurityCapture
