import HomeclusterInfra.SecurityCapture.Spool
import Mathlib.Data.List.Nodup

/-!
# What the calls of the spool do

A directory of the spool is in order if the packets beside a manifest are those that it
describes. A request is left or nothing is changed, and `serve` begins at most the capture that
was requested, and leaves its directory in order wherever it is interrupted.
-/

set_option autoImplicit false

namespace HomeclusterInfra.SecurityCapture

open Interruption

/-! ## Files of a directory -/

section Files

variable {items : List Item} {item other : Item} {name : FileName}

theorem mem_put : other ∈ put item items ↔
    (other ∈ items ∧ other.name ≠ item.name) ∨ other = item := by
  rw [put, List.mem_append, List.mem_filter, List.mem_singleton, decide_eq_true_eq]

theorem mem_remove : other ∈ remove name items ↔ other ∈ items ∧ other.name ≠ name := by
  rw [remove, List.mem_filter, decide_eq_true_eq]

theorem holds_iff : holds name items = true ↔ ∃ other ∈ items, other.name = name := by
  simp only [holds, List.any_eq_true, decide_eq_true_eq]

/-- No two files have one name. -/
def Apart (items : List Item) : Prop :=
  (items.map Item.name).Nodup

theorem Apart.eq (apart : Apart items) (one : item ∈ items) (two : other ∈ items)
    (same : item.name = other.name) : item = other :=
  List.inj_on_of_nodup_map apart one two same

theorem Apart.remove (apart : Apart items) (name : FileName) : Apart (remove name items) :=
  apart.sublist (List.filter_sublist.map _)

theorem Apart.put (apart : Apart items) (item : Item) : Apart (put item items) := by
  rw [Apart, SecurityCapture.put, List.map_append, List.map_singleton, List.nodup_append]
  refine ⟨apart.remove item.name, List.nodup_singleton _, ?_⟩
  intro name member last among
  obtain ⟨other, inside, rfl⟩ := List.mem_map.mp member
  rw [List.mem_singleton] at among
  rw [among]
  exact (mem_remove.mp inside).2

theorem mem_of_manifestOf {manifest : Manifest} (found : manifestOf items = some manifest) :
    .manifest manifest ∈ items := by
  obtain ⟨item, member, same⟩ := List.exists_of_findSome?_eq_some found
  cases item with
  | manifest other =>
      cases same
      exact member
  | filter | part | pcap | started | failed | temporary => cases same

theorem mem_of_pcapOf {content : List UInt8} (found : pcapOf items = some content) :
    .pcap content ∈ items := by
  obtain ⟨item, member, same⟩ := List.exists_of_findSome?_eq_some found
  cases item with
  | pcap other =>
      cases same
      exact member
  | filter | part | manifest | started | failed | temporary => cases same

theorem Apart.manifestOf (apart : Apart items) {manifest : Manifest}
    (member : .manifest manifest ∈ items) : manifestOf items = some manifest := by
  cases found : SecurityCapture.manifestOf items with
  | none =>
      have other := List.findSome?_eq_none_iff.mp found _ member
      cases other
  | some other =>
      cases apart.eq member (mem_of_manifestOf found) rfl
      rfl

theorem Apart.pcapOf (apart : Apart items) {content : List UInt8}
    (member : .pcap content ∈ items) : pcapOf items = some content := by
  cases found : SecurityCapture.pcapOf items with
  | none =>
      have other := List.findSome?_eq_none_iff.mp found _ member
      cases other
  | some other =>
      cases apart.eq member (mem_of_pcapOf found) rfl
      rfl

end Files

/-! ## Whole captures -/

section Whole

variable (sha256 : List UInt8 → List Char)

/-- A directory in order: the packets beside a manifest are those that it describes. -/
structure RunOk (captureId : CaptureId) (items : List Item) : Prop where
  apart : Apart items
  whole : ∀ manifest, .manifest manifest ∈ items → manifest.captureId = captureId ∧
    (∀ content, .part content ∉ items) ∧
      ∀ content, .pcap content ∈ items → pcap sha256 content = .ok manifest.report

variable {sha256} {captureId : CaptureId} {items : List Item}

theorem RunOk.nil : RunOk sha256 captureId [] :=
  ⟨List.nodup_nil, fun _ member => absurd member List.not_mem_nil⟩

theorem RunOk.sublist {kept : List Item} (ok : RunOk sha256 captureId items)
    (sublist : kept.Sublist items) : RunOk sha256 captureId kept := by
  refine ⟨ok.apart.sublist (sublist.map _), fun manifest member => ?_⟩
  obtain ⟨own, noPart, described⟩ := ok.whole manifest (sublist.subset member)
  exact ⟨own, fun content inside => noPart content (sublist.subset inside),
    fun content inside => described content (sublist.subset inside)⟩

theorem RunOk.remove (ok : RunOk sha256 captureId items) (name : FileName) :
    RunOk sha256 captureId (remove name items) :=
  ok.sublist List.filter_sublist

/-- A file of another kind is put beside the packets. -/
theorem RunOk.put_other (ok : RunOk sha256 captureId items) {item : Item}
    (other : item.name ≠ .part ∧ item.name ≠ .pcap ∧ item.name ≠ .published .manifest) :
    RunOk sha256 captureId (put item items) := by
  refine ⟨ok.apart.put item, fun manifest member => ?_⟩
  rcases mem_put.mp member with ⟨inside, -⟩ | rfl
  · obtain ⟨own, noPart, described⟩ := ok.whole manifest inside
    refine ⟨own, fun content among => ?_, fun content among => ?_⟩
    · rcases mem_put.mp among with ⟨before, -⟩ | rfl
      · exact noPart content before
      · exact other.1 rfl
    · rcases mem_put.mp among with ⟨before, -⟩ | rfl
      · exact described content before
      · exact absurd rfl other.2.1
  · exact absurd rfl other.2.2

/-- A directory without a manifest. -/
structure Open (items : List Item) : Prop where
  apart : Apart items
  noManifest : ∀ manifest, .manifest manifest ∉ items

theorem Open.put (isOpen : Open items) {item : Item} (other : item.name ≠ .published .manifest) :
    Open (put item items) := by
  refine ⟨isOpen.apart.put item, fun manifest member => ?_⟩
  rcases mem_put.mp member with ⟨inside, -⟩ | rfl
  · exact isOpen.noManifest manifest inside
  · exact other rfl

theorem Open.sublist {kept : List Item} (isOpen : Open items) (sublist : kept.Sublist items) :
    Open kept :=
  ⟨isOpen.apart.sublist (sublist.map _), fun manifest member =>
    isOpen.noManifest manifest (sublist.subset member)⟩

theorem Open.remove (isOpen : Open items) (name : FileName) : Open (remove name items) :=
  isOpen.sublist List.filter_sublist

/-- It is in order. -/
theorem Open.runOk (isOpen : Open items) : RunOk sha256 captureId items :=
  ⟨isOpen.apart, fun manifest member => absurd member (isOpen.noManifest manifest)⟩

/-- **What is in order is accepted as soon as it has packets and a manifest.** -/
theorem RunOk.accepts_iff (ok : RunOk sha256 captureId items) {manifest : Manifest} :
    accepts sha256 captureId items = .ok manifest ↔
      .manifest manifest ∈ items ∧ ∃ content, .pcap content ∈ items := by
  constructor
  · intro accepted
    rw [accepts] at accepted
    split at accepted
    next _ content found packets =>
      split at accepted
      next => cases accepted
      next =>
        split at accepted
        next => cases accepted
        next =>
          split at accepted
          next =>
            cases accepted
            exact ⟨mem_of_manifestOf found, content, mem_of_pcapOf packets⟩
          next => cases accepted
    next => cases accepted
  · rintro ⟨member, content, packets⟩
    obtain ⟨own, noPart, described⟩ := ok.whole manifest member
    have notPart : holds .part items = false := by
      refine Bool.eq_false_iff.mpr fun present => ?_
      obtain ⟨item, inside, named⟩ := holds_iff.mp present
      cases item with
      | part content => exact noPart content inside
      | filter | pcap | manifest | started | failed | temporary => cases named
    rw [accepts, ok.apart.manifestOf member, ok.apart.pcapOf packets]
    simp only [own, notPart, described content packets, ne_eq, not_true_eq_false,
      Bool.false_eq_true, or_self, if_false, if_true]

/-- A manifest is put beside the packets that it describes. -/
theorem RunOk.put_manifest {report : PcapReport} (apart : Apart items)
    (noPart : ∀ content, .part content ∉ items)
    (described : ∀ content, .pcap content ∈ items → pcap sha256 content = .ok report) :
    RunOk sha256 captureId (put (.manifest ⟨captureId, report⟩) items) := by
  refine ⟨apart.put _, fun manifest member => ?_⟩
  rcases mem_put.mp member with ⟨-, other⟩ | same
  · exact absurd rfl other
  · cases same
    refine ⟨rfl, fun content among => ?_, fun content among => ?_⟩
    · exact noPart content ((mem_put.mp among).resolve_right (by simp)).1
    · exact described content ((mem_put.mp among).resolve_right (by simp)).1

theorem digest_of_pcap {content : List UInt8} {report : PcapReport}
    (read : pcap sha256 content = .ok report) : report.pcapSha256 = sha256 content := by
  rw [pcap] at read
  split at read
  next => cases read
  next =>
    split at read
    next => cases read
    next =>
      split at read
      next =>
        split at read
        next => cases read
        next =>
          cases counted : readRecords _ _ (content.drop 24) 0 0 with
          | error reason =>
              rw [counted] at read
              cases read
          | ok counts =>
              rw [counted] at read
              cases read
              rfl
      next => cases read

end Whole

/-! ## What the calls do -/

section Calls

variable (sha256 : List UInt8 → List Char) {env : Surroundings} {captureId : CaptureId}
  {world state : World}

theorem always_call_bind {α : Type} {next : Unit → Call α} {post : Ended String α → World → Prop}
    (fails : post (.raised "OSError") state) (dies : post .killed state)
    (returns : Always (next ()) post state) : Always (call >>= next) post state :=
  always_change_bind fails dies returns

theorem keeps_call {invariant : World → Prop} : Keeps invariant call :=
  keeps_change fun _ holds => holds

theorem keeps_publishResult {invariant : World → Prop} : Keeps invariant publishResult :=
  keeps_bind keeps_call fun _ => keeps_call

/-- There is room where the guards let a call through. -/
theorem always_guards (env : Surroundings) (world : World) :
    Always (guards env) (fun ended after => after = world ∧
      (ended = .returned () → world.runs.length < 2)) world := by
  refine always_demand_bind (fun _ => ?_) fun _ => ⟨rfl, of_raised_eq⟩
  refine always_call_bind ⟨rfl, of_raised_eq⟩ ⟨rfl, of_killed_eq⟩ (always_look_bind ?_)
  refine always_demand_bind (fun room => ?_) fun _ => ⟨rfl, of_raised_eq⟩
  refine always_demand_bind (fun _ => ?_) fun _ => ⟨rfl, of_raised_eq⟩
  exact always_lift (fun _ _ => ⟨rfl, fun _ => of_decide_eq_true room⟩) fun _ _ => ⟨rfl, of_raised_eq⟩

/-- A request is left, or nothing changed. -/
theorem always_request (profile : List Char) (world : World) :
    Always (request env captureId profile) (fun _ after => after = world ∨
      (world.request = none ∧ after = { world with
        request := some ⟨captureId, profile, env.now, env.configurationSha256⟩ })) world := by
  refine always_lift_bind (fun _ _ => ?_) fun _ _ => Or.inl rfl
  refine always_demand_bind (fun _ => ?_) fun _ => Or.inl rfl
  refine always_call_bind (Or.inl rfl) (Or.inl rfl) (always_look_bind ?_)
  refine always_demand_bind (fun free => ?_) fun _ => Or.inl rfl
  have nothing : world.request = none := Option.isNone_iff_eq_none.mp free
  refine always_bind_of (always_guards env world) (fun _ after guarded => ?_)
    (fun _ after guarded => Or.inl guarded.1) fun after guarded => Or.inl guarded.1
  obtain rfl := guarded.1
  refine always_call_bind (Or.inl rfl) (Or.inl rfl) ?_
  refine always_change_bind (Or.inl rfl) (Or.inl rfl) ?_
  exact keeps_bind keeps_call (fun _ => keeps_publishResult) _ (Or.inr ⟨nothing, rfl⟩)

theorem keeps_artifact {invariant : World → Prop} (env : Surroundings) (captureId : CaptureId) :
    Keeps invariant (artifact sha256 env captureId) := by
  refine keeps_bind (keeps_demand _ _) fun _ => keeps_bind keeps_call fun _ =>
    keeps_bind (keeps_look _) fun world => ?_
  split
  next => exact keeps_raise _
  next => exact keeps_lift _

/-- What was accepted stands in the spool. -/
theorem always_artifact (env : Surroundings) (captureId : CaptureId) (world : World) :
    Always (artifact sha256 env captureId) (fun ended after => after = world ∧
      ∀ manifest, ended = .returned manifest → ∃ items, world.runOf captureId = some items ∧
        accepts sha256 captureId items = .ok manifest) world := by
  refine always_demand_bind (fun _ => ?_) fun _ => ⟨rfl, fun _ => of_raised_eq⟩
  refine always_call_bind ⟨rfl, fun _ => of_raised_eq⟩ ⟨rfl, fun _ => of_killed_eq⟩
    (always_look_bind ?_)
  split
  next => exact always_raise ⟨rfl, fun _ => of_raised_eq⟩
  next items found =>
    refine always_lift (fun manifest accepted => ⟨rfl, fun other same => ?_⟩) fun _ _ =>
      ⟨rfl, fun _ => of_raised_eq⟩
    cases same
    exact ⟨items, found, accepted⟩

theorem keeps_sshExport {invariant : World → Prop} (env : Surroundings) (captureId : CaptureId) :
    Keeps invariant (sshExport sha256 env captureId) :=
  keeps_bind keeps_call fun _ => keeps_bind (keeps_artifact sha256 env captureId) fun _ =>
    keeps_bind keeps_call fun _ => keeps_bind (keeps_look _) fun _ => keeps_lift _

end Calls

/-! ## A capture is taken -/

section Serve

variable (sha256 : List UInt8 → List Char) {env : Surroundings} {captureId : CaptureId}
  {world : World} {items : List Item} {request : Option Request}

/-- The world in which a capture has begun. -/
def begun (world : World) (captureId : CaptureId) (items : List Item) (request : Option Request) :
    World :=
  { world with runs := world.runs ++ [(captureId, items)], request := request }

theorem changeRun_begun (fresh : captureId ∉ world.runs.map Prod.fst)
    (act : List Item → List Item) :
    (begun world captureId items request).changeRun captureId act =
      begun world captureId (act items) request := by
  have others : (world.runs.map fun run => if run.1 = captureId then (run.1, act run.2) else run) =
      world.runs.map id := by
    refine List.map_congr_left fun run member => if_neg fun same => ?_
    exact fresh (List.mem_map.mpr ⟨run, member, same⟩)
  rw [World.changeRun, begun, begun, List.map_append, others, List.map_id, List.map_singleton,
    if_pos rfl]

/-- What `publish` leaves: the directory before it, the temporary file in it, or the file. -/
def IsPublishing (env : Surroundings) (name : Published) (item : Item) (before items : List Item) :
    Prop :=
  items = before ∨ items = put (.temporary name env.hex) before ∨
    items = put item (remove (.temporary name env.hex) (put (.temporary name env.hex) before))

theorem always_publishInto (fresh : captureId ∉ world.runs.map Prod.fst) (name : Published)
    (item : Item) :
    Always (publishInto env captureId name item) (fun ended after => ∃ found,
      after = begun world captureId found request ∧ IsPublishing env name item items found ∧
        (ended = .returned () → found = put item (remove (.temporary name env.hex)
          (put (.temporary name env.hex) items)))) (begun world captureId items request) := by
  have started : IsPublishing env name item items items := Or.inl rfl
  refine always_change_bind ⟨items, rfl, started, of_raised_eq⟩ ⟨items, rfl, started, of_killed_eq⟩ ?_
  rw [changeRun_begun fresh]
  have opened : IsPublishing env name item items (put (.temporary name env.hex) items) :=
    Or.inr (Or.inl rfl)
  refine always_call_bind ⟨_, rfl, opened, of_raised_eq⟩ ⟨_, rfl, opened, of_killed_eq⟩ ?_
  refine always_change_bind ⟨_, rfl, opened, of_raised_eq⟩ ⟨_, rfl, opened, of_killed_eq⟩ ?_
  rw [changeRun_begun fresh]
  have closed : IsPublishing env name item items (put item (remove (.temporary name env.hex)
      (put (.temporary name env.hex) items))) := Or.inr (Or.inr rfl)
  exact always_change ⟨_, rfl, closed, fun _ => rfl⟩ ⟨_, rfl, closed, fun _ => rfl⟩
    ⟨_, rfl, closed, fun _ => rfl⟩

/-- What is published besides a manifest leaves a directory in order. -/
theorem RunOk.publishing {name : Published} {item : Item} {found : List Item}
    (ok : RunOk sha256 captureId items)
    (other : item.name ≠ .part ∧ item.name ≠ .pcap ∧ item.name ≠ .published .manifest)
    (publishing : IsPublishing env name item items found) : RunOk sha256 captureId found := by
  have temporary : RunOk sha256 captureId (put (.temporary name env.hex) items) :=
    ok.put_other ⟨by simp [Item.name], by simp [Item.name], by simp [Item.name]⟩
  rcases publishing with rfl | rfl | rfl
  · exact ok
  · exact temporary
  · exact (temporary.remove _).put_other other

/-- **A capture that is taken, or breaks off, leaves its directory in order.** -/
theorem always_capture (fresh : captureId ∉ world.runs.map Prod.fst) (profile : Profile)
    (isOpen : Open items) :
    Always (capture sha256 env captureId profile) (fun _ after => ∃ found,
      after = begun world captureId found request ∧ RunOk sha256 captureId found)
      (begun world captureId items request) := by
  have left : ∀ {found : List Item}, Open found → ∃ own,
      begun world captureId found request = begun world captureId own request ∧
        RunOk sha256 captureId own :=
    fun opened => ⟨_, rfl, opened.runOk⟩
  refine always_change_bind (left isOpen) (left isOpen) ?_
  rw [changeRun_begun fresh]
  have filtered : Open (put (.filter (profile.filter ++ ['\n'])) items) :=
    isOpen.put (by simp [Item.name])
  refine always_call_bind (left filtered) (left filtered) ?_
  refine always_demand_bind (fun _ => ?_) fun _ => left filtered
  refine always_change_bind (left filtered) (left filtered) ?_
  rw [changeRun_begun fresh]
  have written := @Open.put _ filtered (.part env.written) (by simp [Item.name])
  refine always_lift_bind (fun stopReason _ => ?_) fun _ _ => left written
  refine always_call_bind (left written) (left written) ?_
  refine always_lift_bind (fun report described => ?_) fun _ _ => left written
  refine always_demand_bind (fun _ => ?_) fun _ => left written
  refine always_call_bind (left written) (left written) ?_
  refine always_change_bind (left written) (left written) ?_
  rw [changeRun_begun fresh]
  -- The packets stand under their name, and nothing of that of the part is left.
  generalize put (.part env.written) _ = parted at written
  have renamed := @Open.put _ (written.remove .part) (.pcap env.written) (by simp [Item.name])
  have noPart : ∀ content, .part content ∉ put (.pcap env.written) (remove .part parted) := by
    intro content member
    exact (mem_remove.mp ((mem_put.mp member).resolve_right (by simp)).1).2 rfl
  have packets : ∀ content, .pcap content ∈ put (.pcap env.written) (remove .part parted) →
      pcap sha256 content = .ok report := by
    intro content member
    rcases mem_put.mp member with ⟨-, other⟩ | same
    · exact absurd rfl other
    · cases same
      exact described
  generalize put (.pcap env.written) (remove .part parted) = complete at renamed noPart packets
  have publishing : ∀ {found : List Item},
      IsPublishing env .manifest (.manifest ⟨captureId, report⟩) complete found →
        RunOk sha256 captureId found := by
    intro found isPublishing
    have temporary : Open (put (.temporary .manifest env.hex) complete) :=
      renamed.put (by simp [Item.name])
    rcases isPublishing with rfl | rfl | rfl
    · exact renamed.runOk
    · exact temporary.runOk
    · refine RunOk.put_manifest (temporary.apart.remove _) (fun content member => ?_)
        fun content member => ?_
      · exact noPart content ((mem_put.mp (mem_remove.mp member).1).resolve_right (by simp)).1
      · exact packets content ((mem_put.mp (mem_remove.mp member).1).resolve_right (by simp)).1
  refine always_bind_of (always_publishInto fresh .manifest _) (fun _ after done => ?_)
    (fun _ after broken => ?_) fun after broken => ?_
  · obtain ⟨found, rfl, isPublishing, -⟩ := done
    exact keeps_publishResult _ ⟨found, rfl, publishing isPublishing⟩
  · obtain ⟨found, rfl, isPublishing, -⟩ := broken
    exact ⟨found, rfl, publishing isPublishing⟩
  · obtain ⟨found, rfl, isPublishing, -⟩ := broken
    exact ⟨found, rfl, publishing isPublishing⟩

/-- What `serve` changes: nothing, or it begins the capture that was requested. The request
stays only where the capture got no manifest. -/
def IsServed (world after : World) : Prop :=
  after = world ∨ ∃ item found left, world.request = some item ∧
    item.captureId ∉ world.runs.map Prod.fst ∧ world.runs.length < 2 ∧
      after = begun world item.captureId found left ∧ RunOk sha256 item.captureId found ∧
        (left = none ∨ (left = some item ∧ Open found))

/-- **Whatever interrupts it, `serve` leaves a directory in order.** -/
theorem always_serve (env : Surroundings) (world : World) :
    Always (serve sha256 env) (fun _ after => IsServed sha256 world after) world := by
  have same : IsServed sha256 world world := Or.inl rfl
  refine always_call_bind same same (always_look_bind ?_)
  split
  next => exact always_raise same
  next item found =>
    have waiting : world.request = some item := found
    refine always_demand_bind (fun _ => ?_) fun _ => same
    refine always_lift_bind (fun profiles _ => ?_) fun _ _ => same
    split
    next => exact always_raise same
    next profile _ =>
      refine always_demand_bind (fun _ => ?_) fun _ => same
      refine always_bind_of (always_guards env world) (fun _ after guarded => ?_)
        (fun _ after guarded => Or.inl guarded.1) fun after guarded => Or.inl guarded.1
      obtain ⟨rfl, room⟩ := guarded
      have enough : after.runs.length < 2 := room rfl
      refine always_step_bind same same (fun _ made created => ?_) fun _ _ => same
      split at created
      next => cases created
      next missing =>
        cases created
        have fresh : item.captureId ∉ after.runs.map Prod.fst := by
          intro member
          obtain ⟨run, among, named⟩ := List.mem_map.mp member
          have absent := Option.not_isSome_iff_eq_none.mp missing
          have other := List.lookup_eq_none_iff.mp absent run among
          rw [named, bne_self_eq_false] at other
          cases other
        have waits : ∀ {found : List Item}, Open found → IsServed sha256 after
            (begun after item.captureId found (some item)) := fun opened =>
          Or.inr ⟨item, _, some item, waiting, fresh, enough, rfl, opened.runOk,
            Or.inr ⟨rfl, opened⟩⟩
        have served : ∀ {found : List Item}, RunOk sha256 item.captureId found →
            IsServed sha256 after (begun after item.captureId found none) := fun ok =>
          Or.inr ⟨item, _, none, waiting, fresh, enough, rfl, ok, Or.inl rfl⟩
        have empty : Open [] := ⟨List.nodup_nil, fun _ => List.not_mem_nil⟩
        have start : { after with runs := after.runs ++ [(item.captureId, [])] } =
            begun after item.captureId [] (some item) := by rw [begun, ← waiting]
        rw [start]
        -- Until the request is removed, only its own copy can be in the directory.
        have publishing : ∀ {found : List Item},
            IsPublishing env .started (.started item) [] found → Open found := by
          intro found isPublishing
          have temporary : Open (put (.temporary .started env.hex) []) :=
            empty.put (by simp [Item.name])
          rcases isPublishing with rfl | rfl | rfl
          · exact empty
          · exact temporary
          · exact (temporary.remove _).put (by simp [Item.name])
        refine always_bind_of (always_publishInto fresh .started _) (fun _ made done => ?_)
          (fun _ made broken => ?_) fun made broken => ?_
        · obtain ⟨found, rfl, isPublishing, -⟩ := done
          have opened := publishing isPublishing
          have reported := @keeps_publishResult
            (fun made => made = begun after item.captureId found (some item)) _ rfl
          refine always_bind_of reported (fun _ made here => ?_) (fun _ made here => ?_)
            fun made here => ?_
          · obtain rfl : made = _ := here
            refine always_change_bind (waits opened) (waits opened) ?_
            refine always_catching (always_mono (always_capture sha256 fresh profile opened)
              fun ended made taken => ?_)
            obtain ⟨items, rfl, ok⟩ := taken
            cases ended with
            | returned value => exact served ok
            | killed => exact served ok
            | raised failure =>
                have failing : ∀ {found : List Item},
                    IsPublishing env .failed (.failed failure) items found →
                      RunOk sha256 item.captureId found :=
                  fun isPublishing => RunOk.publishing sha256 ok
                    ⟨by simp [Item.name], by simp [Item.name], by simp [Item.name]⟩ isPublishing
                show Always (publishInto env item.captureId .failed (.failed failure) >>=
                  fun _ => publishResult >>= fun _ => raise failure)
                    (fun _ made => IsServed sha256 after made) _
                refine always_bind_of (always_publishInto fresh .failed _) (fun _ made done => ?_)
                  (fun _ made broken => ?_) fun made broken => ?_
                · obtain ⟨found, rfl, isPublishing, -⟩ := done
                  exact keeps_bind keeps_publishResult (fun _ => keeps_raise _) _
                    (served (failing isPublishing))
                · obtain ⟨found, rfl, isPublishing, -⟩ := broken
                  exact served (failing isPublishing)
                · obtain ⟨found, rfl, isPublishing, -⟩ := broken
                  exact served (failing isPublishing)
          · obtain rfl : made = _ := here
            exact waits opened
          · obtain rfl : made = _ := here
            exact waits opened
        · obtain ⟨found, rfl, isPublishing, -⟩ := broken
          exact waits (publishing isPublishing)
        · obtain ⟨found, rfl, isPublishing, -⟩ := broken
          exact waits (publishing isPublishing)

end Serve

end HomeclusterInfra.SecurityCapture
