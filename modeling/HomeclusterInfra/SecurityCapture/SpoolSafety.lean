import HomeclusterInfra.SecurityCapture.Acknowledging

/-!
# The spool stays in order

Whatever calls are made and wherever they are interrupted, the spool holds at most two captures,
one request starts at most one of them, and a capture with packets and a manifest is accepted.
Nothing removes the packets of an accepted capture but an acknowledgement with their digest, and
then its receipt stands.
-/

set_option autoImplicit false

namespace HomeclusterInfra.SecurityCapture

open Interruption

variable (sha256 : List UInt8 → List Char)

/-! ## The invariant -/

def World.captureIds (world : World) : List CaptureId :=
  world.runs.map Prod.fst

/-- What every call keeps of the captures. -/
structure InOrder (world : World) : Prop where
  apart : world.captureIds.Nodup
  few : world.runs.length ≤ 2
  each : ∀ run ∈ world.runs, RunOk sha256 run.1 run.2

/-- What every call keeps that draws an identifier of its own. -/
structure Sound (world : World) : Prop extends InOrder sha256 world where
  /-- A capture whose request still waits has no manifest. -/
  waiting : ∀ item, world.request = some item → ∀ run ∈ world.runs, run.1 = item.captureId →
    Open run.2
  unacknowledged : ∀ item, world.request = some item → ∀ receipt,
    .receipt receipt ∈ world.acknowledged → receipt.captureId ≠ item.captureId
  /-- A receipt bears the digest of the packets that are still there. -/
  agrees : ∀ receipt, .receipt receipt ∈ world.acknowledged → ∀ run ∈ world.runs,
    run.1 = receipt.captureId → ∀ content, .pcap content ∈ run.2 →
      sha256 content = receipt.pcapSha256

/-- The identifiers that a world has heard of. -/
def World.Mentions (world : World) (captureId : CaptureId) : Prop :=
  (∃ item, world.request = some item ∧ item.captureId = captureId) ∨
    captureId ∈ world.captureIds ∨
      ∃ receipt, .receipt receipt ∈ world.acknowledged ∧ receipt.captureId = captureId

/-- No request waits to begin a capture of this identifier. -/
def World.Spent (world : World) (captureId : CaptureId) : Prop :=
  ∀ item, world.request = some item → item.captureId = captureId →
    captureId ∈ world.captureIds

variable {sha256} {world after : World} {captureId : CaptureId} {env : Surroundings}

theorem mem_of_runOf {items : List Item} (found : world.runOf captureId = some items) :
    (captureId, items) ∈ world.runs :=
  Keyed.mem_of_lookup found

theorem InOrder.runOf (inOrder : InOrder sha256 world) {items : List Item}
    (member : (captureId, items) ∈ world.runs) : world.runOf captureId = some items :=
  Keyed.lookup_of_mem inOrder.apart member

/-! ## Requests -/

theorem Sound.request {profile : List Char} (sound : Sound sha256 world)
    (new : ¬ world.Mentions captureId)
    (requested : after = world ∨ (world.request = none ∧ after = { world with
      request := some ⟨captureId, profile, env.now, env.configurationSha256⟩ })) :
    Sound sha256 after := by
  rcases requested with rfl | ⟨-, rfl⟩
  · exact sound
  · refine ⟨⟨sound.apart, sound.few, sound.each⟩, ?_, ?_, sound.agrees⟩
    · intro item same run member own
      cases same
      exact absurd (Or.inr (Or.inl (List.mem_map.mpr ⟨run, member, own⟩))) new
    · intro item same receipt member own
      cases same
      exact new (Or.inr (Or.inr ⟨receipt, member, own⟩))

/-! ## Captures -/

theorem captureIds_begun (items : List Item) (left : Option Request) :
    (begun world captureId items left).captureIds = world.captureIds ++ [captureId] := by
  rw [World.captureIds, begun, List.map_append]
  rfl

theorem mem_begun {items : List Item} {left : Option Request} {run : CaptureId × List Item}
    (member : run ∈ (begun world captureId items left).runs) :
    run ∈ world.runs ∨ run = (captureId, items) :=
  (List.mem_append.mp member).imp_right List.mem_singleton.mp

theorem InOrder.served (inOrder : InOrder sha256 world) (served : IsServed sha256 world after) :
    InOrder sha256 after := by
  rcases served with rfl | ⟨item, found, left, -, fresh, room, rfl, ok, -⟩
  · exact inOrder
  · refine ⟨?_, ?_, fun run member => ?_⟩
    · rw [captureIds_begun, List.nodup_append]
      refine ⟨inOrder.apart, List.nodup_singleton _, fun one member other last same => ?_⟩
      rw [List.mem_singleton] at last
      exact fresh (last ▸ same ▸ member)
    · rw [begun, List.length_append]
      exact room
    · rcases mem_begun member with before | rfl
      · exact inOrder.each run before
      · exact ok

theorem Sound.served (sound : Sound sha256 world) (served : IsServed sha256 world after) :
    Sound sha256 after := by
  have inOrder := sound.toInOrder.served served
  rcases served with rfl | ⟨item, found, left, waited, fresh, -, rfl, -, stays⟩
  · exact sound
  · have onlyItem : ∀ other, left = some other → other = item ∧ Open found := by
      intro other same
      rcases stays with rfl | ⟨rfl, opened⟩
      · cases same
      · cases same
        exact ⟨rfl, opened⟩
    refine ⟨inOrder, ?_, ?_, ?_⟩
    · intro other same run member own
      obtain ⟨rfl, opened⟩ := onlyItem other same
      rcases mem_begun member with before | rfl
      · exact absurd (List.mem_map.mpr ⟨run, before, own⟩) fresh
      · exact opened
    · intro other same receipt member
      obtain ⟨rfl, -⟩ := onlyItem other same
      exact sound.unacknowledged other waited receipt member
    · intro receipt member run among own content packets
      rcases mem_begun among with before | rfl
      · exact sound.agrees receipt member run before own content packets
      · exact absurd own.symm (sound.unacknowledged item waited receipt member)

/-! ## Acknowledgements -/

theorem InOrder.reviewed (inOrder : InOrder sha256 world) (reviewed : OnlyReviewed world after) :
    InOrder sha256 after := by
  obtain ⟨-, runs, -⟩ := reviewed
  refine ⟨?_, runs ▸ inOrder.few, runs ▸ inOrder.each⟩
  rw [World.captureIds, runs]
  exact inOrder.apart

theorem Sound.reviewed (sound : Sound sha256 world) (reviewed : OnlyReviewed world after) :
    Sound sha256 after := by
  have inOrder := sound.toInOrder.reviewed reviewed
  have receipts := reviewed.receipts
  obtain ⟨request, runs, -⟩ := reviewed
  refine ⟨inOrder, ?_, ?_, ?_⟩
  · rw [request, runs]
    exact sound.waiting
  · rw [request]
    exact fun item waits receipt member =>
      sound.unacknowledged item waits receipt (receipts receipt member)
  · rw [runs]
    exact fun receipt member => sound.agrees receipt (receipts receipt member)

theorem mem_of_isPruned {before kept : List (CaptureId × List Item)}
    (pruned : IsPruned captureId before kept) {run : CaptureId × List Item} (member : run ∈ kept) :
    ∃ old ∈ before, old.1 = run.1 ∧ run.2.Sublist old.2 ∧ (run.1 ≠ captureId → run = old) := by
  rcases pruned with ⟨keeps, rfl⟩ | rfl
  · obtain ⟨old, inside, rfl⟩ := List.mem_map.mp member
    refine ⟨old, inside, ?_⟩
    split
    next own => exact ⟨rfl, List.filter_sublist, fun other => absurd own other⟩
    next => exact ⟨rfl, List.Sublist.refl _, fun _ => rfl⟩
  · exact ⟨run, (List.mem_filter.mp member).1, rfl, List.Sublist.refl _, fun _ => rfl⟩

theorem captureIds_of_isPruned {before kept : List (CaptureId × List Item)}
    (pruned : IsPruned captureId before kept) :
    (kept.map Prod.fst).Sublist (before.map Prod.fst) ∧
      ∀ other, other ≠ captureId → (other ∈ kept.map Prod.fst ↔ other ∈ before.map Prod.fst) := by
  rcases pruned with ⟨keeps, rfl⟩ | rfl
  · have same : (prune captureId keeps before).map Prod.fst = before.map Prod.fst := by
      rw [prune, List.map_map]
      refine List.map_congr_left fun run _ => ?_
      rw [Function.comp_apply]
      split
      next => rfl
      next => rfl
    rw [same]
    exact ⟨List.Sublist.refl _, fun _ _ => Iff.rfl⟩
  · refine ⟨List.filter_sublist.map _, fun other different => ?_⟩
    rw [List.mem_map, List.mem_map]
    constructor
    · rintro ⟨run, member, named⟩
      exact ⟨run, (List.mem_filter.mp member).1, named⟩
    · rintro ⟨run, member, rfl⟩
      exact ⟨run, List.mem_filter.mpr ⟨member, decide_eq_true different⟩, rfl⟩

/-- A justified receipt is none of the capture that waits, and bears the digest of its
packets. -/
theorem Sound.justified (sound : Sound sha256 world) {receipt : Receipt}
    (justified : IsJustified sha256 world receipt) :
    (∀ item, world.request = some item → receipt.captureId ≠ item.captureId) ∧
      ∀ run ∈ world.runs, run.1 = receipt.captureId → ∀ content, .pcap content ∈ run.2 →
        sha256 content = receipt.pcapSha256 := by
  rcases justified with member | ⟨items, manifest, found, accepted, agrees⟩
  · exact ⟨fun item waits => sound.unacknowledged item waits receipt member,
      sound.agrees receipt member⟩
  · have stands := mem_of_runOf found
    have ok := sound.each _ stands
    obtain ⟨described, -⟩ := ok.accepts_iff.mp accepted
    refine ⟨fun item waits own => ?_, fun run member own content packets => ?_⟩
    · exact (sound.waiting item waits _ stands own).noManifest manifest described
    · have sameRun : run.2 = items := by
        have first := sound.runOf member
        rw [own, found] at first
        exact (Option.some.inj first).symm
      rw [sameRun] at packets
      have read := (ok.whole manifest described).2.2 content packets
      exact (digest_of_pcap read).symm.trans agrees

theorem InOrder.clears (inOrder : InOrder sha256 world) {receipt : Receipt}
    (clears : Clears world after receipt) : InOrder sha256 after := by
  obtain ⟨-, runs, -, -⟩ := clears
  obtain ⟨ids, -⟩ := captureIds_of_isPruned runs
  refine ⟨inOrder.apart.sublist ids, ?_, fun run member => ?_⟩
  · have lengths := ids.length_le
    rw [List.length_map, List.length_map] at lengths
    exact lengths.trans inOrder.few
  · obtain ⟨old, inside, same, sublist, -⟩ := mem_of_isPruned runs member
    exact same ▸ (inOrder.each old inside).sublist sublist

theorem Sound.clears (sound : Sound sha256 world) {receipt : Receipt}
    (justified : IsJustified sha256 world receipt) (clears : Clears world after receipt) :
    Sound sha256 after := by
  have inOrder := sound.toInOrder.clears clears
  obtain ⟨request, runs, stands, receipts⟩ := clears
  obtain ⟨notWaiting, digests⟩ := sound.justified justified
  have each := fun run => @mem_of_isPruned receipt.captureId _ _ runs run
  refine ⟨inOrder, ?_, ?_, ?_⟩
  · intro item waits run member own
    obtain ⟨old, inside, same, sublist, -⟩ := each run member
    exact (sound.waiting item (request ▸ waits) old inside (same.trans own)).sublist sublist
  · intro item waits other member
    rcases receipts other member with before | rfl
    · exact sound.unacknowledged item (request ▸ waits) other before
    · exact notWaiting item (request ▸ waits)
  · intro other member run among own content packets
    obtain ⟨old, inside, same, sublist, -⟩ := each run among
    have before := sublist.subset packets
    rcases receipts other member with earlier | rfl
    · exact sound.agrees other earlier old inside (same.trans own) content before
    · exact digests old inside (same.trans own) content before

/-! ## One call -/

/-- The identifier that a call draws. -/
def Invocation.drawn : Invocation → Option CaptureId
  | .request _ captureId _ => some captureId
  | .serve _ | .sshExport _ _ | .acknowledge _ _ _ => none

/-- What a call can do. -/
inductive Steps (sha256 : List UInt8 → List Char) (world after : World) : Invocation → Prop
  | request {env : Surroundings} {captureId : CaptureId} {profile : List Char}
      (requested : after = world ∨ (world.request = none ∧ after = { world with
        request := some ⟨captureId, profile, env.now, env.configurationSha256⟩ })) :
      Steps sha256 world after (.request env captureId profile)
  | serve {env : Surroundings} (served : IsServed sha256 world after) :
      Steps sha256 world after (.serve env)
  | sshExport {env : Surroundings} {captureId : CaptureId} (same : after = world) :
      Steps sha256 world after (.sshExport env captureId)
  | review {env : Surroundings} {captureId : CaptureId} {expected : List Char}
      (reviewed : OnlyReviewed world after) :
      Steps sha256 world after (.acknowledge env captureId expected)
  | clear {env : Surroundings} {receipt : Receipt} (justified : IsJustified sha256 world receipt)
      (clears : Clears world after receipt) :
      Steps sha256 world after (.acknowledge env receipt.captureId receipt.pcapSha256)

/-- **Every call, interrupted or not, is one of these steps.** -/
theorem steps_after (world : World) (invocation : Invocation) (faults : List Fault) :
    Steps sha256 world (invocation.after sha256 world faults) invocation := by
  cases invocation with
  | request env captureId profile => exact .request (always_request profile world faults)
  | serve env => exact .serve (always_serve sha256 env world faults)
  | sshExport env captureId =>
      exact .sshExport (@keeps_sshExport sha256 (fun after => after = world) env captureId world rfl
        faults)
  | acknowledge env captureId expected =>
      rcases always_acknowledge sha256 env captureId expected world faults with
        reviewed | ⟨receipt, rfl, rfl, justified, clears, -⟩
      · exact .review reviewed
      · exact .clear justified clears

section Steps

variable {invocation : Invocation}

theorem Steps.inOrder (steps : Steps sha256 world after invocation)
    (inOrder : InOrder sha256 world) : InOrder sha256 after := by
  cases steps with
  | request requested =>
      rcases requested with rfl | ⟨-, rfl⟩
      · exact inOrder
      · exact ⟨inOrder.apart, inOrder.few, inOrder.each⟩
  | serve served => exact inOrder.served served
  | sshExport same => exact same ▸ inOrder
  | review reviewed => exact inOrder.reviewed reviewed
  | clear _ clears => exact inOrder.clears clears

theorem Steps.sound (steps : Steps sha256 world after invocation) (sound : Sound sha256 world)
    (new : ∀ captureId, invocation.drawn = some captureId → ¬ world.Mentions captureId) :
    Sound sha256 after := by
  cases steps with
  | request requested => exact sound.request (new _ rfl) requested
  | serve served => exact sound.served served
  | sshExport same => exact same ▸ sound
  | review reviewed => exact sound.reviewed reviewed
  | clear justified clears => exact sound.clears justified clears

/-- Only a request brings a new identifier. -/
theorem Steps.mentions (steps : Steps sha256 world after invocation)
    (mentioned : after.Mentions captureId) :
    world.Mentions captureId ∨ invocation.drawn = some captureId := by
  cases steps with
  | request requested =>
      rcases requested with rfl | ⟨-, rfl⟩
      · exact Or.inl mentioned
      · rcases mentioned with ⟨item, same, rfl⟩ | others
        · cases same
          exact Or.inr rfl
        · exact Or.inl (Or.inr others)
  | serve served =>
      refine Or.inl ?_
      rcases served with rfl | ⟨item, found, left, waited, -, -, rfl, -, stays⟩
      · exact mentioned
      · rcases mentioned with ⟨other, same, rfl⟩ | here | others
        · rcases stays with rfl | ⟨rfl, -⟩
          · cases same
          · cases same
            exact Or.inl ⟨item, waited, rfl⟩
        · rw [captureIds_begun, List.mem_append, List.mem_singleton] at here
          rcases here with before | rfl
          · exact Or.inr (Or.inl before)
          · exact Or.inl ⟨item, waited, rfl⟩
        · exact Or.inr (Or.inr others)
  | sshExport same => exact Or.inl (same ▸ mentioned)
  | review reviewed =>
      have receipts := reviewed.receipts
      obtain ⟨request, runs, -⟩ := reviewed
      rw [World.Mentions, World.captureIds, request, runs] at mentioned
      refine Or.inl (mentioned.imp_right (Or.imp_right ?_))
      rintro ⟨receipt, member, own⟩
      exact ⟨receipt, receipts receipt member, own⟩
  | @clear env receipt justified clears =>
      obtain ⟨request, runs, -, receipts⟩ := clears
      have known : world.Mentions receipt.captureId := by
        rcases justified with member | ⟨items, _, found, -⟩
        · exact Or.inr (Or.inr ⟨receipt, member, rfl⟩)
        · exact Or.inr (Or.inl (List.mem_map.mpr ⟨_, mem_of_runOf found, rfl⟩))
      rw [World.Mentions, request] at mentioned
      rcases mentioned with waits | here | ⟨other, member, own⟩
      · exact Or.inl (Or.inl waits)
      · exact Or.inl (Or.inr (Or.inl ((captureIds_of_isPruned runs).1.subset here)))
      · rcases receipts other member with before | rfl
        · exact Or.inl (Or.inr (Or.inr ⟨other, before, own⟩))
        · exact Or.inl (own ▸ known)

/-- What is spent stays so, unless it is drawn again. -/
theorem Steps.spent (steps : Steps sha256 world after invocation) (sound : Sound sha256 world)
    (other : invocation.drawn ≠ some captureId) (spent : world.Spent captureId) :
    after.Spent captureId := by
  cases steps with
  | request requested =>
      rcases requested with rfl | ⟨-, rfl⟩
      · exact spent
      · rintro item same rfl
        cases same
        exact absurd rfl other
  | serve served =>
      rcases served with rfl | ⟨item, found, left, waited, -, -, rfl, -, stays⟩
      · exact spent
      · intro waiting same own
        rw [captureIds_begun]
        rcases stays with rfl | ⟨rfl, -⟩
        · cases same
        · exact List.mem_append_left _ (spent waiting (waited.trans same) own)
  | sshExport same => exact same ▸ spent
  | review reviewed =>
      rw [World.Spent, World.captureIds, reviewed.request, reviewed.runs]
      exact spent
  | clear justified clears =>
      intro item waits own
      rw [clears.request] at waits
      refine ((captureIds_of_isPruned clears.runs).2 _ fun same => ?_).mpr (spent item waits own)
      exact (sound.justified justified).1 item waits (same.symm.trans own.symm)

end Steps

/-! ## Runs of calls -/

/-- The identifiers that calls draw. -/
def drawnBy (calls : List (Invocation × List Fault)) : List CaptureId :=
  calls.filterMap fun entry => entry.1.drawn

/-- Calls draw identifiers of their own, and none that is known. -/
def DrawsNew (world : World) (calls : List (Invocation × List Fault)) : Prop :=
  (drawnBy calls).Nodup ∧ ∀ captureId ∈ drawnBy calls, ¬ world.Mentions captureId

/-- The captures that a call begins. -/
def begunBy (world after : World) : List CaptureId :=
  after.captureIds.filter fun captureId => captureId ∉ world.captureIds

/-- The captures that calls begin, one after another. -/
def begunIn (sha256 : List UInt8 → List Char) :
    World → List (Invocation × List Fault) → List CaptureId
  | _, [] => []
  | world, entry :: calls =>
      begunBy world (entry.1.after sha256 world entry.2) ++
        begunIn sha256 (entry.1.after sha256 world entry.2) calls

/-- A spool that nothing was ever put into. -/
def emptySpool : World :=
  ⟨none, [], []⟩

theorem inOrder_emptySpool : InOrder sha256 emptySpool :=
  ⟨List.nodup_nil, Nat.zero_le 2, fun _ member => absurd member List.not_mem_nil⟩

theorem sound_emptySpool : Sound sha256 emptySpool := by
  refine ⟨inOrder_emptySpool, ?_, ?_, ?_⟩
  · intro _ waits
    cases waits
  · intro _ waits
    cases waits
  · exact fun _ member => absurd member List.not_mem_nil

theorem drawsNew_emptySpool {calls : List (Invocation × List Fault)}
    (distinct : (drawnBy calls).Nodup) : DrawsNew emptySpool calls := by
  refine ⟨distinct, fun captureId _ mentioned => ?_⟩
  rcases mentioned with ⟨_, waits, -⟩ | inside | ⟨_, member, -⟩
  · cases waits
  · cases inside
  · cases member

section Runs

variable {entry : Invocation × List Fault} {calls : List (Invocation × List Fault)}

theorem drawnBy_cons : drawnBy (entry :: calls) = entry.1.drawn.toList ++ drawnBy calls := by
  rw [drawnBy, List.filterMap_cons]
  cases entry.1.drawn with
  | none => rfl
  | some captureId => rfl

theorem DrawsNew.first (new : DrawsNew world (entry :: calls))
    (drawn : entry.1.drawn = some captureId) :
    ¬ world.Mentions captureId ∧ captureId ∉ drawnBy calls := by
  obtain ⟨distinct, fresh⟩ := new
  rw [drawnBy_cons, drawn] at distinct fresh
  exact ⟨fresh captureId List.mem_cons_self, (List.nodup_cons.mp distinct).1⟩

theorem DrawsNew.rest (new : DrawsNew world (entry :: calls)) (sha256 : List UInt8 → List Char) :
    DrawsNew (entry.1.after sha256 world entry.2) calls := by
  have distinct := new.1
  rw [drawnBy_cons] at distinct
  refine ⟨distinct.of_append_right, fun captureId member mentioned => ?_⟩
  rcases (steps_after world entry.1 entry.2).mentions mentioned with before | drawn
  · refine new.2 captureId ?_ before
    rw [drawnBy_cons]
    exact List.mem_append_right _ member
  · exact (new.first drawn).2 member

/-- **Every run of calls keeps the captures in order.** -/
theorem inOrder_runAll (inOrder : InOrder sha256 world) :
    InOrder sha256 (runAll sha256 world calls) := by
  induction calls generalizing world with
  | nil => exact inOrder
  | cons entry calls ih => exact ih ((steps_after world entry.1 entry.2).inOrder inOrder)

/-- **Every run of calls with identifiers of their own keeps the invariant.** -/
theorem sound_runAll (sound : Sound sha256 world) (new : DrawsNew world calls) :
    Sound sha256 (runAll sha256 world calls) := by
  induction calls generalizing world with
  | nil => exact sound
  | cons entry calls ih =>
      exact ih ((steps_after world entry.1 entry.2).sound sound fun captureId drawn =>
        (new.first drawn).1) (new.rest sha256)

end Runs

/-! ## A session

Calls at one time after another, which the results below are about in examples. -/

def sampleId : CaptureId :=
  ⟨"20260101T000000Z-0123456789abcdef".toList, by rfl⟩

def laterId : CaptureId :=
  ⟨"20260101T000002Z-fedcba9876543210".toList, by rfl⟩

/-- A capture of two packets, of which the second is cut off. -/
def samplePackets : Capture where
  order := .little
  resolution := .microseconds
  zone := 0
  accuracy := 0
  linktype := 1
  records := [⟨1767225601, 5, [0x66, 0x6f, 0x6f], 3, by decide, by decide⟩,
    ⟨1767225601, 9, [0x62, 0x61], 60, by decide, by decide⟩]
  few := by decide

/-- The digest of its 61 bytes. -/
def sampleSha256 (_ : List UInt8) : List Char :=
  "7f6f69043e13cb314396da6a2355b89a7fb64b745376634e7bd82a0a6358c7b9".toList

/-- Surroundings in which nothing is in the way. -/
def quietAt (now : Rat) : Surroundings where
  now := now
  mounted := true
  expired := false
  resources := .ok ()
  profiles := .ok [("dns".toList, ⟨"udp port 53".toList⟩)]
  configurationSha256 := []
  hex := []
  compiles := true
  written := samplePackets.encode
  stop := .ok .durationLimit
  listed := id
  listed_perm := List.Perm.refl
  listedReceipts := id
  listedReceipts_perm := List.Perm.refl

/-- A capture is requested and taken, and then another one. -/
def sampleCalls : List (Invocation × List Fault) :=
  [(.request (quietAt 0) sampleId "dns".toList, []), (.serve (quietAt 1), []),
    (.request (quietAt 2) laterId "dns".toList, []), (.serve (quietAt 3), [])]

theorem drawnBy_sampleCalls : (drawnBy sampleCalls).Nodup := by
  decide +kernel

/-- The files of a capture of the session. -/
def sampleFiles (captureId : CaptureId) (requested : Rat) : List Item :=
  [.started ⟨captureId, "dns".toList, requested, []⟩, .filter "udp port 53\n".toList,
    .pcap samplePackets.encode, .manifest ⟨captureId, samplePackets.report sampleSha256⟩]

theorem runs_sampleCalls : (runAll sampleSha256 emptySpool sampleCalls).runs =
    [(sampleId, sampleFiles sampleId 0), (laterId, sampleFiles laterId 2)] := by
  decide +kernel

/-! ## The spool is in order -/

/-- **The spool never holds more than two captures, and each one that has its packets and a
manifest is accepted, with the digest of these packets.** -/
theorem spool_inOrder (sha256 : List UInt8 → List Char) (calls : List (Invocation × List Fault)) :
    (runAll sha256 emptySpool calls).runs.length ≤ 2 ∧
      ∀ captureId items manifest content,
        (captureId, items) ∈ (runAll sha256 emptySpool calls).runs →
        .manifest manifest ∈ items → .pcap content ∈ items →
          (runAll sha256 emptySpool calls).runOf captureId = some items ∧
            accepts sha256 captureId items = .ok manifest ∧
              pcap sha256 content = .ok manifest.report ∧
                manifest.report.pcapSha256 = sha256 content := by
  have inOrder := @inOrder_runAll sha256 emptySpool calls inOrder_emptySpool
  refine ⟨inOrder.few, fun captureId items manifest content member described packets => ?_⟩
  have ok := inOrder.each _ member
  have read := (ok.whole manifest described).2.2 content packets
  exact ⟨inOrder.runOf member, ok.accepts_iff.mpr ⟨described, content, packets⟩, read,
    digest_of_pcap read⟩

theorem spool_inOrder_session :
    (runAll sampleSha256 emptySpool sampleCalls).runs.length ≤ 2 ∧
      (runAll sampleSha256 emptySpool sampleCalls).runOf laterId =
          some (sampleFiles laterId 2) ∧
        accepts sampleSha256 laterId (sampleFiles laterId 2) =
            .ok ⟨laterId, samplePackets.report sampleSha256⟩ ∧
          pcap sampleSha256 samplePackets.encode = .ok (samplePackets.report sampleSha256) := by
  obtain ⟨few, each⟩ := spool_inOrder sampleSha256 sampleCalls
  have member : (laterId, sampleFiles laterId 2) ∈
      (runAll sampleSha256 emptySpool sampleCalls).runs := by
    rw [runs_sampleCalls]
    exact List.mem_cons_of_mem _ List.mem_cons_self
  obtain ⟨found, accepted, read, -⟩ := each laterId _ ⟨laterId, samplePackets.report sampleSha256⟩
    samplePackets.encode member (by simp [sampleFiles]) (by simp [sampleFiles])
  exact ⟨few, found, accepted, read⟩

/-! ## One request, one capture -/

theorem begunBy_of_subset (subset : after.captureIds ⊆ world.captureIds) :
    begunBy world after = [] := by
  rw [begunBy, List.filter_eq_nil_iff]
  exact fun captureId member => by simpa using subset member

/-- A call begins at most one capture, whose request waits. -/
theorem Steps.begunBy {invocation : Invocation} (steps : Steps sha256 world after invocation) :
    begunBy world after = [] ∨ ∃ captureId, begunBy world after = [captureId] ∧
      ¬ world.Spent captureId ∧ world.Mentions captureId ∧ captureId ∈ after.captureIds := by
  cases steps with
  | request requested =>
      refine Or.inl (begunBy_of_subset ?_)
      rcases requested with rfl | ⟨-, rfl⟩ <;> exact List.Subset.refl _
  | serve served =>
      rcases served with rfl | ⟨item, found, left, waited, fresh, -, rfl, -, -⟩
      · exact Or.inl (begunBy_of_subset (List.Subset.refl _))
      · refine Or.inr ⟨item.captureId, ?_, fun spent => fresh (spent item waited rfl),
          Or.inl ⟨item, waited, rfl⟩, ?_⟩
        · have before : world.captureIds.filter (fun captureId => captureId ∉ world.captureIds) =
              [] := begunBy_of_subset (List.Subset.refl _)
          have absent : item.captureId ∉ world.captureIds := fresh
          rw [SecurityCapture.begunBy, captureIds_begun, List.filter_append, before, List.nil_append]
          exact List.filter_eq_self.mpr (List.forall_mem_singleton.mpr (decide_eq_true absent))
        · rw [captureIds_begun]
          exact List.mem_append_right _ List.mem_cons_self
  | sshExport same => exact Or.inl (begunBy_of_subset (same ▸ List.Subset.refl _))
  | review reviewed =>
      refine Or.inl (begunBy_of_subset ?_)
      rw [World.captureIds, World.captureIds, reviewed.runs]
      exact List.Subset.refl _
  | clear _ clears => exact Or.inl (begunBy_of_subset (captureIds_of_isPruned clears.runs).1.subset)

theorem begunIn_nodup {calls : List (Invocation × List Fault)} (sound : Sound sha256 world)
    (new : DrawsNew world calls) :
    (begunIn sha256 world calls).Nodup ∧
      ∀ captureId ∈ begunIn sha256 world calls, world.Spent captureId →
        captureId ∈ drawnBy calls := by
  induction calls generalizing world with
  | nil => exact ⟨List.nodup_nil, fun _ member => absurd member List.not_mem_nil⟩
  | cons entry calls ih =>
      have steps := @steps_after sha256 world entry.1 entry.2
      have kept := steps.sound sound fun captureId drawn => (new.first drawn).1
      obtain ⟨distinct, drawn⟩ := ih kept (new.rest sha256)
      have rest : ∀ captureId ∈ begunIn sha256 (entry.1.after sha256 world entry.2) calls,
          world.Spent captureId → captureId ∈ drawnBy (entry :: calls) := by
        intro captureId member spent
        rw [drawnBy_cons, List.mem_append, Option.mem_toList]
        by_cases own : entry.1.drawn = some captureId
        · exact Or.inl own
        · exact Or.inr (drawn captureId member (steps.spent sound own spent))
      rw [begunIn]
      rcases steps.begunBy with nothing | ⟨captureId, one, notSpent, mentioned, there⟩
      · rw [nothing, List.nil_append]
        exact ⟨distinct, rest⟩
      · rw [one]
        have notAgain : captureId ∉ begunIn sha256 (entry.1.after sha256 world entry.2) calls := by
          intro member
          refine new.2 captureId ?_ mentioned
          rw [drawnBy_cons]
          exact List.mem_append_right _ (drawn captureId member fun _ _ _ => there)
        refine ⟨List.nodup_cons.mpr ⟨notAgain, distinct⟩, fun other member spent => ?_⟩
        rcases List.mem_cons.mp member with rfl | later
        · exact absurd spent notSpent
        · exact rest other later spent

/-- **One request starts at most one capture.** No capture is begun twice, and each that is
begun was requested. -/
theorem captures_begunOnce (sha256 : List UInt8 → List Char)
    (calls : List (Invocation × List Fault)) (distinct : (drawnBy calls).Nodup) :
    (begunIn sha256 emptySpool calls).Nodup ∧ begunIn sha256 emptySpool calls ⊆ drawnBy calls := by
  obtain ⟨once, drawn⟩ := @begunIn_nodup sha256 emptySpool calls sound_emptySpool
    (drawsNew_emptySpool distinct)
  refine ⟨once, fun captureId member => drawn captureId member ?_⟩
  intro _ waits
  cases waits

theorem captures_begunOnce_session :
    begunIn sampleSha256 emptySpool sampleCalls = [sampleId, laterId] ∧
      (begunIn sampleSha256 emptySpool sampleCalls).Nodup :=
  ⟨by decide +kernel, (captures_begunOnce sampleSha256 sampleCalls drawnBy_sampleCalls).1⟩

end HomeclusterInfra.SecurityCapture
