import HomeclusterInfra.SecurityCapture.Resumption

/-!
# A capture is delivered

Where nothing interrupts the calls, a capture that is requested is taken, and the packets that
come out of the spool are those that were written. The acknowledgement of their digest removes
the capture, and nothing else does.
-/

set_option autoImplicit false

namespace HomeclusterInfra.SecurityCapture

open Interruption

variable {sha256 : List UInt8 → List Char} {env : Surroundings} {captureId : CaptureId}
  {world after : World} {items : List Item} {left : Option Request}

/-! ## What is met -/

/-- Nothing outside stands in the way of a further capture. -/
structure Admits (env : Surroundings) : Prop where
  mounted : env.mounted = true
  young : env.expired = false
  resources : env.resources = .ok ()

/-- The packets of a capture are written, and the program ends as it should. -/
structure Writes (env : Surroundings) (packets : Capture) : Prop where
  compiles : env.compiles = true
  written : env.written = packets.encode
  stops : ∃ reason, env.stop = .ok reason ∧
    (reason = .packetLimit → packets.records.length = 1000)

/-! ## The calls -/

theorem runs_guards (admits : Admits env) (room : world.runs.length < 2) :
    Runs (guards env) world (.returned ()) world := by
  have old : (!env.expired) = true := by rw [admits.young]; rfl
  exact runs_bind (runs_demand admits.mounted) (runs_bind (runs_call world)
    (runs_bind (runs_look id) (runs_bind (runs_demand (decide_eq_true room))
      (runs_bind (runs_demand old) (runs_lift admits.resources)))))

theorem runs_publishResult (world : World) : Runs publishResult world (.returned ()) world :=
  runs_bind (runs_call world) (runs_call world)

theorem runs_publishInto (fresh : captureId ∉ world.captureIds) (name : Published) (item : Item) :
    Runs (publishInto env captureId name item) (begun world captureId items left) (.returned ())
      (begun world captureId
        (put item (remove (.temporary name env.hex) (put (.temporary name env.hex) items)))
        left) := by
  refine runs_bind (runs_change _ _) (runs_bind (runs_call _) (runs_bind (runs_change _ _) ?_))
  rw [changeRun_begun fresh, changeRun_begun fresh]
  exact runs_call _

/-- The request that is left. -/
def requestBy (env : Surroundings) (captureId : CaptureId) (profile : List Char) : Request :=
  ⟨captureId, profile, env.now, env.configurationSha256⟩

theorem runs_request {profile : List Char} {profiles : List (List Char × Profile)}
    {settings : Profile} (admits : Admits env) (room : world.runs.length < 2)
    (idle : world.request = none) (configured : env.profiles = .ok profiles)
    (listed : profiles.lookup profile = some settings) :
    Runs (request env captureId profile) world (.returned ())
      { world with request := some (requestBy env captureId profile) } := by
  have known : (profiles.lookup profile).isSome = true := by rw [listed]; rfl
  have nothing : world.request.isNone = true := by rw [idle]; rfl
  exact runs_bind (runs_lift configured) (runs_bind (runs_demand known)
    (runs_bind (runs_call world) (runs_bind (runs_look id) (runs_bind (runs_demand nothing)
      (runs_bind (runs_guards admits room) (runs_bind (runs_call world)
        (runs_bind (runs_change _ _) (runs_bind (runs_call _) (runs_publishResult _)))))))))

/-- The files of a capture that was taken. -/
def taken (sha256 : List UInt8 → List Char) (request : Request) (settings : Profile)
    (packets : Capture) : List Item :=
  [.started request, .filter (settings.filter ++ ['\n']), .pcap packets.encode,
    .manifest ⟨request.captureId, packets.report sha256⟩]

/-- The packets and their manifest, put beside the filter. -/
theorem put_taken (request : Request) (settings : Profile) (packets : Capture) (hex : List Char) :
    put (.manifest ⟨request.captureId, packets.report sha256⟩) (remove (.temporary .manifest hex)
      (put (.temporary .manifest hex) (put (.pcap packets.encode) (remove .part
        (put (.part packets.encode) (put (.filter (settings.filter ++ ['\n']))
          [.started request])))))) = taken sha256 request settings packets := by
  simp [put, remove, Item.name, taken]

theorem runs_capture {packets : Capture} {request : Request} (writes : Writes env packets)
    (fresh : request.captureId ∉ world.captureIds) (settings : Profile) :
    Runs (capture sha256 env request.captureId settings)
      (begun world request.captureId [.started request] left) (.returned ())
      (begun world request.captureId (taken sha256 request settings packets) left) := by
  obtain ⟨reason, stops, full⟩ := writes.stops
  have whole : (!(reason = .packetLimit && (packets.report sha256).packetCount ≠ 1000)) = true := by
    rw [Bool.not_eq_true', Bool.and_eq_false_imp]
    intro limited
    exact decide_eq_false (not_not_intro (full (of_decide_eq_true limited)))
  refine runs_bind (runs_change _ _) ?_
  rw [changeRun_begun fresh]
  refine runs_bind (runs_call _) (runs_bind (runs_demand writes.compiles)
    (runs_bind (runs_change _ _) ?_))
  rw [changeRun_begun fresh]
  refine runs_bind (runs_lift stops) (runs_bind (runs_call _) (runs_bind (runs_lift ?_)
    (runs_bind (runs_demand whole) (runs_bind (runs_call _) (runs_bind (runs_change _ _) ?_)))))
  · rw [writes.written]
    exact pcap_encode packets
  rw [changeRun_begun fresh]
  have files := @put_taken sha256 request settings packets env.hex
  rw [← writes.written] at files
  refine runs_bind (runs_publishInto fresh _ _) ?_
  rw [files]
  exact runs_publishResult _

/-- `serve`, for the request that is left. -/
theorem runs_serve {packets : Capture} {request : Request}
    {profiles : List (List Char × Profile)} {settings : Profile} (admits : Admits env)
    (writes : Writes env packets) (room : world.runs.length < 2)
    (fresh : request.captureId ∉ world.captureIds) (waiting : world.request = some request)
    (configured : env.profiles = .ok profiles)
    (listed : profiles.lookup request.profile = some settings)
    (same : request.configurationSha256 = env.configurationSha256)
    (early : 0 ≤ env.now - request.createdEpoch) (late : env.now - request.createdEpoch ≤ 120) :
    Runs (serve sha256 env) world (.returned ())
      (begun world request.captureId (taken sha256 request settings packets) none) := by
  have timely : (decide (0 ≤ env.now - request.createdEpoch) &&
      decide (env.now - request.createdEpoch ≤ 120)) = true :=
    Bool.and_eq_true_iff.mpr ⟨decide_eq_true early, decide_eq_true late⟩
  have absent : (world.runOf request.captureId).isSome = false := by
    rw [Option.isSome_eq_false_iff, Option.isNone_iff_eq_none, World.runOf]
    refine List.lookup_eq_none_iff.mpr fun run member => bne_iff_ne.mpr fun same => fresh ?_
    exact List.mem_map.mpr ⟨run, member, same.symm⟩
  refine runs_bind (runs_call world) (runs_bind (runs_look id) ?_)
  rw [id, waiting]
  refine runs_bind (runs_demand timely) (runs_bind (runs_lift configured) ?_)
  rw [listed]
  refine runs_bind (runs_demand (beq_iff_eq.mpr same)) (runs_bind (runs_guards admits room)
    (runs_bind (runs_step ((if_neg ?_).trans rfl)) ?_))
  · rw [absent]
    exact Bool.false_ne_true
  have started : ∀ hex, put (.started request) (remove (.temporary .started hex)
      (put (.temporary .started hex) [])) = [.started request] := by
    intro hex
    simp [put, remove, Item.name]
  have begins := @runs_publishInto env request.captureId world [] (some request) fresh .started
    (.started request)
  rw [started] at begins
  have same : { world with runs := world.runs ++ [(request.captureId, [])] } =
      begun world request.captureId [] (some request) := by
    rw [begun, ← waiting]
  rw [same]
  refine runs_bind begins (runs_bind (runs_publishResult _) (runs_bind (runs_change _ _) ?_))
  exact runs_catching (@runs_capture sha256 env world none packets request writes fresh settings)

/-! ## The whole session -/

/-- A capture can be requested, and acknowledged at a time. -/
structure Ready (now : Rat) (captureId : CaptureId) (world : World) : Prop where
  idle : world.request = none
  room : world.runs.length < 2
  new : ¬ world.Mentions captureId
  noStray : ¬ HasStray world
  few : world.acknowledged.length < 64
  dated : ∀ receipt, .receipt receipt ∈ world.acknowledged → receipt.epoch ≤ now + 300

theorem Ready.fresh {now : Rat} (ready : Ready now captureId world) :
    captureId ∉ world.captureIds :=
  fun member => ready.new (Or.inr (Or.inl member))

/-- What was taken is accepted. -/
theorem accepts_taken (request : Request) (settings : Profile) (packets : Capture) :
    accepts sha256 request.captureId (taken sha256 request settings packets) =
      .ok ⟨request.captureId, packets.report sha256⟩ := by
  have described := @pcap_encode sha256 packets
  simp [accepts, taken, manifestOf, pcapOf, holds, Item.name, described]

theorem runs_sshExport {packets : Capture} {request : Request} {settings : Profile}
    (mounted : env.mounted = true) (there : world.runOf request.captureId =
      some (taken sha256 request settings packets)) :
    Runs (sshExport sha256 env request.captureId) world (.returned packets.encode) world := by
  have accepted : Runs (artifact sha256 env request.captureId) world
      (.returned ⟨request.captureId, packets.report sha256⟩) world := by
    refine runs_bind (runs_demand mounted) (runs_bind (runs_call world)
      (runs_bind (runs_look id) ?_))
    rw [id, there]
    exact runs_lift (accepts_taken request settings packets)
  refine runs_bind (runs_call world) (runs_bind accepted (runs_bind (runs_call world)
    (runs_bind (runs_look id) (runs_lift ?_))))
  rw [id, there]
  rfl

/-- **A capture comes out as it was written.** Where nothing interrupts the calls, a capture is
taken as it was requested, its packets are exported, and the acknowledgement of their digest
removes it. -/
theorem capture_delivered (sha256 : List UInt8 → List Char)
    (digests : ∀ content, isDigest (sha256 content) = true)
    (asking serving exporting acknowledging : Surroundings) (captureId : CaptureId)
    (profile : List Char) (profiles : List (List Char × Profile)) (settings : Profile)
    (packets : Capture) (world : World) (ready : Ready acknowledging.now captureId world)
    (listed : profiles.lookup profile = some settings)
    (configured : asking.profiles = .ok profiles ∧ serving.profiles = .ok profiles ∧
      asking.configurationSha256 = serving.configurationSha256)
    (admits : Admits asking ∧ Admits serving ∧ exporting.mounted = true ∧
      acknowledging.mounted = true)
    (prompt : 0 ≤ serving.now - asking.now ∧ serving.now - asking.now ≤ 120)
    (writes : Writes serving packets) :
    ∃ requested served after receipt,
      Runs (request asking captureId profile) world (.returned ()) requested ∧
      Runs (serve sha256 serving) requested (.returned ()) served ∧
      Runs (sshExport sha256 exporting captureId) served (.returned packets.encode) served ∧
      Runs (acknowledge sha256 acknowledging captureId (sha256 packets.encode)) served
        (.returned receipt) after ∧
      receipt.captureId = captureId ∧ receipt.pcapSha256 = sha256 packets.encode ∧
        after.runOf captureId = none := by
  obtain ⟨asked, served, exported, acknowledged⟩ := admits
  obtain ⟨here, there, same⟩ := configured
  let item := requestBy asking captureId profile
  have serves := @runs_serve sha256 serving { world with request := some item } packets item
    profiles settings served writes ready.room ready.fresh rfl there listed same prompt.1 prompt.2
  have holds : (begun { world with request := some item } captureId
      (taken sha256 item settings packets) none).runOf captureId =
        some (taken sha256 item settings packets) := by
    rw [World.runOf, begun, List.lookup_append, List.lookup_eq_none_iff.mpr, Option.none_or,
      List.lookup_cons_self]
    exact fun run member => bne_iff_ne.mpr fun same =>
      ready.fresh (List.mem_map.mpr ⟨run, member, same.symm⟩)
  have due : Resumable sha256 acknowledging.now captureId (sha256 packets.encode)
      (begun { world with request := some item } captureId (taken sha256 item settings packets)
        none) := by
    refine ⟨ready.noStray, ready.dated, Or.inl ⟨?_, ready.few, _, _, holds,
      accepts_taken item settings packets, rfl, rfl⟩⟩
    exact fun receipt member own => ready.new (Or.inr (Or.inr ⟨receipt, member, own⟩))
  obtain ⟨receipt, after, acknowledges, own, bears, gone⟩ :=
    due.completes acknowledged (digests packets.encode)
  have exports := @runs_sshExport sha256 exporting _ packets item settings exported holds
  exact ⟨_, _, after, receipt, runs_request asked ready.room ready.idle here listed, serves,
    exports, acknowledges, own, bears, gone⟩

theorem admits_quietAt (now : Rat) : Admits (quietAt now) :=
  ⟨rfl, rfl, rfl⟩

theorem writes_quietAt (now : Rat) : Writes (quietAt now) samplePackets := by
  refine ⟨rfl, rfl, .durationLimit, rfl, fun limited => ?_⟩
  cases limited

theorem prompt_quietAt :
    0 ≤ (quietAt 1).now - (quietAt 0).now ∧ (quietAt 1).now - (quietAt 0).now ≤ 120 :=
  ⟨by norm_num [quietAt], by norm_num [quietAt]⟩

theorem ready_emptySpool (now : Rat) (captureId : CaptureId) : Ready now captureId emptySpool := by
  refine ⟨rfl, Nat.zero_lt_two, ?_, ?_, Nat.zero_lt_succ 63, ?_⟩
  · rintro (⟨_, waits, -⟩ | inside | ⟨_, member, -⟩)
    · cases waits
    · cases inside
    · cases member
  · rintro ⟨_, _, member⟩
    cases member
  · intro _ member
    cases member

theorem capture_delivered_session :
    ∃ requested served after receipt,
      Runs (request (quietAt 0) sampleId "dns".toList) emptySpool (.returned ()) requested ∧
      Runs (serve sampleSha256 (quietAt 1)) requested (.returned ()) served ∧
      Runs (sshExport sampleSha256 (quietAt 2) sampleId) served (.returned samplePackets.encode)
        served ∧
      Runs (acknowledge sampleSha256 (quietAt 3) sampleId (sampleSha256 samplePackets.encode))
        served (.returned receipt) after ∧
      receipt.captureId = sampleId ∧ receipt.pcapSha256 = sampleSha256 samplePackets.encode ∧
        after.runOf sampleId = none :=
  capture_delivered sampleSha256 (fun _ => by rfl) (quietAt 0) (quietAt 1) (quietAt 2) (quietAt 3)
    sampleId "dns".toList [("dns".toList, ⟨"udp port 53".toList⟩)] ⟨"udp port 53".toList⟩
    samplePackets emptySpool (ready_emptySpool 3 sampleId) rfl ⟨rfl, rfl, rfl⟩
    ⟨admits_quietAt 0, admits_quietAt 1, rfl, rfl⟩ prompt_quietAt (writes_quietAt 1)

/-! ## Packets are kept -/

/-- The packets of a capture stand beside their manifest. -/
structure Stands (world : World) (captureId : CaptureId) (manifest : Manifest)
    (content : List UInt8) : Prop where
  stands : ∃ items, (captureId, items) ∈ world.runs ∧ .manifest manifest ∈ items ∧
    .pcap content ∈ items

theorem Steps.stands {invocation : Invocation} {manifest : Manifest} {content : List UInt8}
    (steps : Steps sha256 world after invocation) (sound : Sound sha256 world)
    (stands : Stands world captureId manifest content) :
    Stands after captureId manifest content ∨ ∃ env receipt,
      invocation = .acknowledge env captureId (sha256 content) ∧
        .receipt receipt ∈ after.acknowledged ∧ receipt.captureId = captureId ∧
          receipt.pcapSha256 = sha256 content := by
  obtain ⟨items, member, described, packets⟩ := stands
  cases steps with
  | request requested =>
      refine Or.inl ⟨items, ?_, described, packets⟩
      rcases requested with rfl | ⟨-, rfl⟩ <;> exact member
  | serve served =>
      refine Or.inl ⟨items, ?_, described, packets⟩
      rcases served with rfl | ⟨item, found, left, -, -, -, rfl, -, -⟩
      · exact member
      · exact List.mem_append_left _ member
  | sshExport same => exact Or.inl ⟨items, same ▸ member, described, packets⟩
  | review reviewed => exact Or.inl ⟨items, reviewed.runs.symm ▸ member, described, packets⟩
  | @clear env receipt justified clears =>
      by_cases own : captureId = receipt.captureId
      · refine Or.inr ⟨env, receipt, ?_, clears.stands, own.symm, ?_⟩
        · rw [own, (sound.justified justified).2 _ member own content packets]
        · exact ((sound.justified justified).2 _ member own content packets).symm
      · refine Or.inl ⟨items, ?_, described, packets⟩
        rcases clears.runs with ⟨keeps, same⟩ | same
        · rw [same]
          exact List.mem_map.mpr ⟨_, member, if_neg own⟩
        · rw [same]
          exact List.mem_filter.mpr ⟨member, decide_eq_true own⟩

/-- **The packets of a capture with a manifest are removed by nothing but an acknowledgement
with their digest, and then its receipt stands.** -/
theorem packets_kept (sha256 : List UInt8 → List Char) (calls : List (Invocation × List Fault))
    (distinct : (drawnBy calls).Nodup) (invocation : Invocation) (faults : List Fault)
    (captureId : CaptureId) (manifest : Manifest) (content : List UInt8)
    (stands : Stands (runAll sha256 emptySpool calls) captureId manifest content) :
    Stands (invocation.after sha256 (runAll sha256 emptySpool calls) faults) captureId manifest
        content ∨
      ∃ env receipt, invocation = .acknowledge env captureId (sha256 content) ∧
        .receipt receipt ∈
          (invocation.after sha256 (runAll sha256 emptySpool calls) faults).acknowledged ∧
        receipt.captureId = captureId ∧ receipt.pcapSha256 = sha256 content :=
  (steps_after _ invocation faults).stands
    (sound_runAll sound_emptySpool (drawsNew_emptySpool distinct)) stands

/-- The packets of the session stand. -/
theorem stands_sampleCalls : Stands (runAll sampleSha256 emptySpool sampleCalls) sampleId
    ⟨sampleId, samplePackets.report sampleSha256⟩ samplePackets.encode := by
  refine ⟨sampleFiles sampleId 0, ?_, by simp [sampleFiles], by simp [sampleFiles]⟩
  rw [runs_sampleCalls]
  exact List.mem_cons_self

/-- Acknowledges the first capture of the session, and is killed before it removes the directory. -/
def sampleAcknowledgement : Invocation :=
  .acknowledge (quietAt 4) sampleId (sampleSha256 samplePackets.encode)

theorem packets_kept_session :
    ∃ receipt, .receipt receipt ∈ (sampleAcknowledgement.after sampleSha256
        (runAll sampleSha256 emptySpool sampleCalls)
          (List.replicate 12 .fine ++ [.dies])).acknowledged ∧
      receipt.captureId = sampleId ∧
        receipt.pcapSha256 = sampleSha256 samplePackets.encode := by
  have gone : (sampleAcknowledgement.after sampleSha256 (runAll sampleSha256 emptySpool sampleCalls)
      (List.replicate 12 .fine ++ [.dies])).runs =
        [(sampleId, []), (laterId, sampleFiles laterId 2)] := by
    decide +kernel
  rcases packets_kept sampleSha256 sampleCalls drawnBy_sampleCalls sampleAcknowledgement
      (List.replicate 12 .fine ++ [.dies]) sampleId
      ⟨sampleId, samplePackets.report sampleSha256⟩ samplePackets.encode stands_sampleCalls with
    stands | ⟨-, receipt, -, member, own, bears⟩
  · obtain ⟨items, member, described, -⟩ := stands
    rw [gone] at member
    have apart : sampleId ≠ laterId := by decide
    rcases List.mem_cons.mp member with same | later
    · cases same
      cases described
    · exact absurd (congrArg Prod.fst (List.mem_singleton.mp later)) apart
  · exact ⟨receipt, member, own, bears⟩

end HomeclusterInfra.SecurityCapture
