import HomeclusterInfra.SecurityCapture.SpoolCalls

/-!
# What an acknowledgement does

Wherever it is interrupted, an acknowledgement has either left the captures alone, or it has
removed files of its own capture, whose receipt stands then and bears the digest that was
acknowledged.
-/

set_option autoImplicit false

namespace HomeclusterInfra.SecurityCapture

open Interruption

variable (sha256 : List UInt8 → List Char) {env : Surroundings} {captureId : CaptureId}
  {world state after : World} {receipt : Receipt}

/-! ## The two ways in which it ends -/

def isReceipt : Acknowledgement → Bool
  | .receipt _ => true
  | .temporary _ _ => false

/-- Receipts are only removed, and the rest stays. -/
structure OnlyReviewed (world after : World) : Prop where
  request : after.request = world.request
  runs : after.runs = world.runs
  reviewed : (after.acknowledged.filter isReceipt).Sublist world.acknowledged

theorem OnlyReviewed.receipts (reviewed : OnlyReviewed world after) (receipt : Receipt)
    (member : .receipt receipt ∈ after.acknowledged) : .receipt receipt ∈ world.acknowledged :=
  reviewed.reviewed.subset (List.mem_filter.mpr ⟨member, rfl⟩)

/-- The captures, with only some of the files of one. -/
def prune (captureId : CaptureId) (keeps : Item → Bool) (runs : List (CaptureId × List Item)) :
    List (CaptureId × List Item) :=
  runs.map fun run => if run.1 = captureId then (run.1, run.2.filter keeps) else run

/-- Files of one capture are removed, or the whole of it. -/
def IsPruned (captureId : CaptureId) (before after : List (CaptureId × List Item)) : Prop :=
  (∃ keeps, after = prune captureId keeps before) ∨
    after = before.filter fun run => run.1 ≠ captureId

/-- Files of the capture of a receipt are removed while the receipt stands. -/
structure Clears (world after : World) (receipt : Receipt) : Prop where
  request : after.request = world.request
  runs : IsPruned receipt.captureId world.runs after.runs
  stands : .receipt receipt ∈ after.acknowledged
  receipts : ∀ other, .receipt other ∈ after.acknowledged →
    .receipt other ∈ world.acknowledged ∨ other = receipt

/-- A receipt that was there before, or one of a capture that is accepted. -/
def IsJustified (world : World) (receipt : Receipt) : Prop :=
  .receipt receipt ∈ world.acknowledged ∨ ∃ items manifest,
    world.runOf receipt.captureId = some items ∧
      accepts sha256 receipt.captureId items = .ok manifest ∧
        manifest.report.pcapSha256 = receipt.pcapSha256

theorem OnlyReviewed.refl (world : World) : OnlyReviewed world world :=
  ⟨rfl, rfl, List.filter_sublist⟩

theorem prune_all (captureId : CaptureId) (runs : List (CaptureId × List Item)) :
    prune captureId (fun _ => true) runs = runs := by
  refine (List.map_congr_left fun run _ => ?_).trans (List.map_id runs)
  split
  next => rw [List.filter_true]; rfl
  next => rfl

theorem prune_remove (captureId : CaptureId) (keeps : Item → Bool) (name : FileName)
    (runs : List (CaptureId × List Item)) :
    (prune captureId keeps runs).map (fun run =>
        if run.1 = captureId then (run.1, remove name run.2) else run) =
      prune captureId (fun item => item.name ≠ name && keeps item) runs := by
  rw [prune, List.map_map]
  refine List.map_congr_left fun run _ => ?_
  rw [Function.comp_apply]
  by_cases own : run.1 = captureId
  · rw [if_pos own, if_pos own, if_pos own, remove, List.filter_filter]
  · rw [if_neg own, if_neg own, if_neg own]

theorem filter_prune (captureId : CaptureId) (keeps : Item → Bool)
    (runs : List (CaptureId × List Item)) :
    (prune captureId keeps runs).filter (fun run => run.1 ≠ captureId) =
      runs.filter fun run => run.1 ≠ captureId := by
  induction runs with
  | nil => rfl
  | cons run runs ih =>
      rw [prune, List.map_cons]
      by_cases own : run.1 = captureId
      · rw [if_pos own, List.filter_cons_of_neg (by simpa using own),
          List.filter_cons_of_neg (by simpa using own)]
        exact ih
      · rw [if_neg own, List.filter_cons_of_pos (by simpa using own),
          List.filter_cons_of_pos (by simpa using own)]
        exact congrArg (run :: ·) ih

/-! ## Removing a capture -/

/-- Some files may be gone already. -/
structure Clearing (world state : World) (receipt : Receipt) : Prop where
  request : state.request = world.request
  runs : ∃ keeps, state.runs = prune receipt.captureId keeps world.runs
  stands : .receipt receipt ∈ state.acknowledged
  receipts : ∀ other, .receipt other ∈ state.acknowledged →
    .receipt other ∈ world.acknowledged ∨ other = receipt

theorem Clearing.clears (clearing : Clearing world state receipt) : Clears world state receipt :=
  ⟨clearing.request, Or.inl clearing.runs, clearing.stands, clearing.receipts⟩

theorem Clearing.remove (clearing : Clearing world state receipt) (name : FileName) :
    Clearing world (state.changeRun receipt.captureId (remove name)) receipt := by
  obtain ⟨keeps, runs⟩ := clearing.runs
  refine ⟨clearing.request, ⟨fun item => item.name ≠ name && keeps item, ?_⟩, clearing.stands,
    clearing.receipts⟩
  rw [World.changeRun, runs]
  exact prune_remove _ keeps name _

theorem OnlyReviewed.clearing (reviewed : OnlyReviewed world state)
    (stands : .receipt receipt ∈ state.acknowledged) : Clearing world state receipt :=
  ⟨reviewed.request, ⟨_, reviewed.runs.trans (prune_all _ _).symm⟩, stands,
    fun other member => Or.inl (reviewed.receipts other member)⟩

/-- The files of a directory, and then the directory. -/
theorem always_clear (items : List Item) (clearing : Clearing world state receipt) :
    Always (do
        forEach (fun item => change "OSError"
          (World.changeRun receipt.captureId (remove item.name))) items
        step "OSError" fun world =>
          if world.runOf receipt.captureId = some [] then
            .ok ((), { world with
              runs := world.runs.filter fun run => run.1 ≠ receipt.captureId })
          else .error "OSError"
        pure receipt : Call Receipt) (fun _ after => Clears world after receipt) state := by
  have each : ∀ item : Item, Keeps (fun state => Clearing world state receipt)
      (change "OSError" (World.changeRun receipt.captureId (remove item.name)) : Call Unit) :=
    fun item => keeps_change fun _ here => here.remove item.name
  refine always_bind_of (keeps_forEach each items state clearing) (fun _ cleared here => ?_)
    (fun _ _ here => here.clears) fun _ here => here.clears
  refine always_step_bind here.clears here.clears (fun _ removed gone => ?_)
    fun _ _ => here.clears
  split at gone
  next =>
    cases gone
    obtain ⟨keeps, runs⟩ := here.runs
    refine always_pure ⟨here.request, Or.inr ?_, here.stands, here.receipts⟩
    rw [runs]
    exact filter_prune _ keeps _
  next => cases gone

/-- A capture whose receipt stands is removed. -/
theorem always_removeRun_published (clearing : Clearing world state receipt) :
    Always (removeRun env receipt true) (fun _ after => Clears world after receipt) state := by
  refine always_look_bind ?_
  split
  next => exact always_raise clearing.clears
  next items _ =>
    refine always_call_bind clearing.clears clearing.clears ?_
    refine always_demand_bind (fun _ => ?_) fun _ => clearing.clears
    exact always_clear _ clearing

theorem OnlyReviewed.temporary (reviewed : OnlyReviewed world state) (hex : List Char) :
    OnlyReviewed world { state with
      acknowledged := state.acknowledged ++ [.temporary captureId hex] } := by
  refine ⟨reviewed.request, reviewed.runs, ?_⟩
  rw [List.filter_append, List.filter_cons_of_neg Bool.false_ne_true, List.filter_nil,
    List.append_nil]
  exact reviewed.reviewed

/-- The receipt in the place of its temporary file. -/
theorem OnlyReviewed.published (reviewed : OnlyReviewed world state) (receipt : Receipt)
    (hex : List Char) :
    Clearing world { state with
      acknowledged := state.acknowledged.filter
        (fun entry => entry ≠ .temporary receipt.captureId hex) ++ [.receipt receipt] } receipt := by
  refine ⟨reviewed.request, ⟨_, reviewed.runs.trans (prune_all _ _).symm⟩,
    List.mem_append_right _ List.mem_cons_self, fun other member => ?_⟩
  rcases List.mem_append.mp member with before | last
  · exact Or.inl (reviewed.receipts other (List.mem_filter.mp before).1)
  · cases List.mem_singleton.mp last
    exact Or.inr rfl

theorem always_publishReceipt (reviewed : OnlyReviewed world state) :
    Always (publishReceipt env receipt) (fun ended after =>
      (OnlyReviewed world after ∨ Clearing world after receipt) ∧
        (ended = .returned () → Clearing world after receipt)) state := by
  have temporary := @OnlyReviewed.temporary receipt.captureId world state reviewed env.hex
  have published := temporary.published receipt env.hex
  refine always_change_bind ⟨Or.inl reviewed, of_raised_eq⟩ ⟨Or.inl reviewed, of_killed_eq⟩ ?_
  refine always_call_bind ⟨Or.inl temporary, of_raised_eq⟩ ⟨Or.inl temporary, of_killed_eq⟩ ?_
  refine always_change_bind ⟨Or.inl temporary, of_raised_eq⟩ ⟨Or.inl temporary, of_killed_eq⟩ ?_
  exact always_change ⟨Or.inr published, fun _ => published⟩ ⟨Or.inr published, fun _ => published⟩
    ⟨Or.inr published, fun _ => published⟩

/-- A capture is removed after its receipt is written. -/
theorem always_removeRun (reviewed : OnlyReviewed world state) :
    Always (removeRun env receipt false)
      (fun _ after => OnlyReviewed world after ∨ Clears world after receipt) state := by
  have either : ∀ {after : World}, OnlyReviewed world after ∨ Clearing world after receipt →
      OnlyReviewed world after ∨ Clears world after receipt :=
    fun one => one.imp_right Clearing.clears
  refine always_look_bind ?_
  split
  next => exact always_raise (Or.inl reviewed)
  next items _ =>
    refine always_call_bind (Or.inl reviewed) (Or.inl reviewed) ?_
    refine always_demand_bind (fun _ => ?_) fun _ => Or.inl reviewed
    refine always_bind_of (always_publishReceipt reviewed) (fun _ made done => ?_)
      (fun _ made broken => either broken.1) fun made broken => either broken.1
    exact always_mono (always_clear _ (done.2 rfl)) fun _ _ clears => Or.inr clears

/-! ## Reviewing receipts -/

theorem keeps_reviewReceipt (entry : Acknowledgement) :
    Keeps (OnlyReviewed world) (reviewReceipt env entry) := by
  cases entry with
  | temporary => exact keeps_raise _
  | receipt receipt =>
      refine keeps_bind keeps_call fun _ => keeps_bind (keeps_demand _ _) fun _ => ?_
      split
      next =>
        refine keeps_change fun state reviewed => ⟨reviewed.request, reviewed.runs, ?_⟩
        exact (List.filter_sublist.filter _).trans reviewed.reviewed
      next => exact keeps_pure _

/-- Receipts that are not too old stay. -/
def KeepsFresh (env : Surroundings) (world after : World) : Prop :=
  ∀ receipt, .receipt receipt ∈ world.acknowledged → env.now - receipt.epoch ≤ 72 * 3600 →
    .receipt receipt ∈ after.acknowledged

theorem keepsFresh_reviewReceipt (entry : Acknowledgement) :
    Keeps (KeepsFresh env world) (reviewReceipt env entry) := by
  cases entry with
  | temporary => exact keeps_raise _
  | receipt old =>
      refine keeps_bind keeps_call fun _ => keeps_bind (keeps_demand _ _) fun _ => ?_
      split
      next tooOld =>
        refine keeps_change fun state fresh receipt member young => ?_
        refine List.mem_filter.mpr ⟨fresh receipt member young, decide_eq_true fun same => ?_⟩
        cases same
        exact absurd young (not_le_of_gt tooOld)
      next => exact keeps_pure _

/-- A loop over the receipts keeps what each round keeps. -/
theorem keeps_acknowledgedReceipts {invariant : World → Prop}
    (each : ∀ entry, Keeps invariant (reviewReceipt env entry)) :
    Keeps invariant (acknowledgedReceipts env) :=
  keeps_bind keeps_call fun _ => keeps_bind (keeps_look _) fun _ =>
    keeps_bind (keeps_forEach each _) fun _ => keeps_bind (keeps_look _) fun _ => keeps_pure _

theorem always_acknowledgedReceipts (world : World) :
    Always (acknowledgedReceipts env)
      (fun _ after => OnlyReviewed world after ∧ KeepsFresh env world after) world :=
  always_and (keeps_acknowledgedReceipts keeps_reviewReceipt world (OnlyReviewed.refl world))
    (keeps_acknowledgedReceipts keepsFresh_reviewReceipt world fun _ member _ => member)

/-! ## The acknowledgement -/

theorem mem_of_receiptOf (found : world.receiptOf captureId = some receipt) :
    .receipt receipt ∈ world.acknowledged ∧ receipt.captureId = captureId := by
  obtain ⟨entry, member, same⟩ := List.exists_of_findSome?_eq_some found
  cases entry with
  | temporary => cases same
  | receipt other =>
      simp only at same
      split at same
      next own =>
        cases same
        exact ⟨member, own⟩
      next => cases same

theorem receipt_notMem (missing : world.receiptOf captureId = none)
    (own : receipt.captureId = captureId) : .receipt receipt ∉ world.acknowledged := by
  intro member
  have skipped := List.findSome?_eq_none_iff.mp missing _ member
  simp only [own, if_true] at skipped
  cases skipped

/-- The receipt of a capture that is removed was there, or it is new and all others of the
capture were too old. -/
def IsDated (env : Surroundings) (world : World) (receipt : Receipt) : Prop :=
  .receipt receipt ∈ world.acknowledged ∨ (receipt.epoch = env.now ∧
    ∀ other, .receipt other ∈ world.acknowledged → other.captureId = receipt.captureId →
      72 * 3600 < env.now - other.epoch)

/-- An acknowledgement of a digest removes files of its capture. -/
def IsAcknowledged (env : Surroundings) (captureId : CaptureId) (expected : List Char)
    (world after : World) : Prop :=
  ∃ receipt, receipt.captureId = captureId ∧ receipt.pcapSha256 = expected ∧
    IsJustified sha256 world receipt ∧ Clears world after receipt ∧ IsDated env world receipt

/-- **What an acknowledgement changes, wherever it is interrupted.** -/
theorem always_acknowledge (env : Surroundings) (captureId : CaptureId) (expected : List Char)
    (world : World) :
    Always (acknowledge sha256 env captureId expected) (fun _ after => OnlyReviewed world after ∨
      IsAcknowledged sha256 env captureId expected world after) world := by
  have same : ∀ {other : World}, OnlyReviewed world other → OnlyReviewed world other ∨
      IsAcknowledged sha256 env captureId expected world other := Or.inl
  have start := OnlyReviewed.refl world
  refine always_demand_bind (fun _ => ?_) fun _ => same start
  refine always_call_bind (same start) (same start) ?_
  refine always_demand_bind (fun _ => ?_) fun _ => same start
  refine always_bind_of (always_acknowledgedReceipts world) (fun count state seen => ?_)
    (fun _ _ seen => same seen.1) fun _ seen => same seen.1
  obtain ⟨reviewed, fresh⟩ := seen
  refine always_look_bind ?_
  split
  next receipt found =>
    obtain ⟨member, own⟩ := mem_of_receiptOf found
    refine always_demand_bind (fun agrees => ?_) fun _ => same reviewed
    split
    next => exact always_pure (same reviewed)
    next =>
      refine always_mono (always_removeRun_published (reviewed.clearing member)) ?_
      intro _ after clears
      have before := reviewed.receipts receipt member
      exact Or.inr ⟨receipt, own, beq_iff_eq.mp agrees, Or.inl before, clears, Or.inl before⟩
  next missing =>
    refine always_demand_bind (fun _ => ?_) fun _ => same reviewed
    refine always_bind_of (always_artifact sha256 env captureId state)
      (fun manifest after got => ?_) (fun _ after got => ?_) fun after got => ?_
    · obtain ⟨rfl, taken⟩ := got
      obtain ⟨items, found, accepted⟩ := taken manifest rfl
      refine always_demand_bind (fun agrees => ?_) fun _ => same reviewed
      refine always_mono (always_removeRun reviewed) fun _ last ends => ?_
      refine ends.imp_right fun clears => ⟨_, rfl, rfl, Or.inr ⟨items, manifest, ?_, accepted, ?_⟩,
        clears, Or.inr ⟨rfl, fun other member own => ?_⟩⟩
      · rw [← found, World.runOf, World.runOf, reviewed.runs]
      · exact beq_iff_eq.mp agrees
      · exact lt_of_not_ge fun young => receipt_notMem missing own (fresh other member young)
    · obtain ⟨rfl, -⟩ := got
      exact same reviewed
    · obtain ⟨rfl, -⟩ := got
      exact same reviewed

end HomeclusterInfra.SecurityCapture
