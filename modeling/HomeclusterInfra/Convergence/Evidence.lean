import HomeclusterInfra.Convergence.Collector
import HomeclusterInfra.Library.Awk
import HomeclusterInfra.Library.Checked

/-!
# Evidence behind a healthy cluster

The collector calls the cluster healthy when it found no issue. For the nodes
and for the node exporter this means evidence: the nodes reply parsed and lists
enough nodes without a complaint, and enough running exporter pods are ready.

For the pods it does not. A pod query that failed leaves an empty list, a
running pod whose containers are not listed is not counted as unready, and only
the last lines of the listing are kept. A healthy report is evidence for the
pods exactly when none of these hides one.
-/

set_option autoImplicit false

namespace HomeclusterInfra.Convergence

open Jq Text

/-! ## Evidence -/

/-- Containers are listed, and all of them are ready. -/
def AllReady (states : List Bool) : Prop :=
  states ≠ [] ∧ ∀ state ∈ states, state = true

instance (states : List Bool) : Decidable (AllReady states) :=
  inferInstanceAs (Decidable (_ ∧ _))

/-- The pod is Succeeded, or Running with all of its containers ready. -/
def PodRow.Accounted (row : PodRow) : Prop :=
  row.phase = "Succeeded".toList ∨ row.phase = "Running".toList ∧ AllReady row.states

/-- The pod query succeeded and accounts for every pod it lists. -/
structure PodsEvidence (reply : Reply) : Prop where
  succeeded : reply.status = 0
  accounted : ∀ row ∈ podRows reply.stdout, row.Accounted

section Evidence

variable (jq : Interpreter)

/-- The node is Ready and under no pressure. -/
def NodeHealthy (item : Json) : Prop :=
  (conditionStatus jq "Ready" item).any (Json.isString "True") = true ∧
    ∀ pressure ∈ ["DiskPressure", "MemoryPressure", "PIDPressure"],
      (conditionStatus jq pressure item).any (Json.isString "True") = false

/-- The nodes query succeeded with JSON that lists enough nodes, all of them
healthy. -/
structure NodesEvidence (expected : Rat) (reply : Reply) : Prop where
  succeeded : reply.status = 0
  listed : ∃ json nodeItems, jq.fromjson reply.stdout = some json ∧
    items jq json = some nodeItems ∧ expected ≤ nodeItems.length ∧
    ∀ item ∈ nodeItems, NodeHealthy jq item

/-- A pod that is running with all of its containers ready. -/
def runningAndReady (item : Json) : Bool :=
  isRunningPod item == some true && (podStates jq item).any fun states => decide (AllReady states)

/-- The node exporter reply shows enough pods that are running and ready. -/
def ExporterEvidence (expected : Rat) (reply : Reply) : Prop :=
  ∃ exporterItems, items jq (parseJson jq (captureControlJson reply)) = some exporterItems ∧
    expected ≤ exporterItems.countP (runningAndReady jq)

/-- What a healthy report is to rest on. -/
structure Evidence (settings : Settings) (replies : Replies) : Prop where
  nodes : ∃ expected, jq.tonumber settings.expectedNodes = some expected ∧
    NodesEvidence jq expected replies.nodes
  pods : PodsEvidence replies.pods
  nodeExporter : ∃ expected, jq.tonumber settings.expectedNodeExporter = some expected ∧
    ExporterEvidence jq expected replies.nodeExporter

/-- Whenever the collector prints that the cluster is healthy, there is evidence. -/
def HealthyOnEvidence (jqStarts : Captures → Bool) (settings : Settings) (replies : Replies) :
    Prop :=
  ∀ printed, collect jq jqStarts settings replies = some printed →
    printed.assessment.status = .healthy → Evidence jq settings replies

end Evidence

/-! ## Readiness -/

theorem count_eq_length_iff (states : List Bool) :
    states.count true = states.length ↔ ∀ state ∈ states, state = true := by
  rw [List.count_eq_length]
  exact ⟨fun all state member => (all state member).symm,
    fun all state member => (all state member).symm⟩

theorem allReady_iff (states : List Bool) :
    (readiness states).allReady = true ↔ AllReady states := by
  simp only [readiness, Readiness.allReady, AllReady, Bool.and_eq_true, decide_eq_true_eq,
    beq_iff_eq, count_eq_length_iff, List.length_pos_iff]

theorem someNotReady_eq_false_iff (states : List Bool) :
    (readiness states).someNotReady = false ↔ ∀ state ∈ states, state = true := by
  rw [← count_eq_length_iff]
  cases states with
  | nil => simp [readiness, Readiness.someNotReady]
  | cons state states => simp [readiness, Readiness.someNotReady]

/-- A pod raises no issue exactly when it is accounted for or is running without
any listed container. -/
theorem row_raises_none_iff (row : PodRow) :
    (row.nonRunning = false ∧ row.runningNotReady = false) ↔
      (row.Accounted ∨ row.phase = "Running".toList ∧ row.states = []) := by
  have distinct : "Running".toList ≠ "Succeeded".toList := by decide
  unfold PodRow.nonRunning PodRow.runningNotReady PodRow.Accounted AllReady
  by_cases running : row.phase = "Running".toList
  · have other : row.phase ≠ "Succeeded".toList := by rw [running]; exact distinct
    have both : (∀ state ∈ row.states, state = true) ↔
        (row.states ≠ [] ∧ ∀ state ∈ row.states, state = true) ∨ row.states = [] := by
      by_cases empty : row.states = []
      · simp [empty]
      · simp [empty]
    simpa [running, distinct, someNotReady_eq_false_iff] using both
  · simp only [ne_eq, running, not_false_eq_true, bne_eq_false_iff_eq, false_and, false_or,
      or_false, Bool.and_eq_false_iff, beq_eq_false_iff_ne, true_or, and_true]

/-! ## The lines that are kept -/

/-- The lines of the pod listing that are not kept. -/
def hiddenLines (maxLines : Nat) (content : List Char) : List (List Char) :=
  let pieces := content.splitOn '\n'
  (pieces.take (pieces.length - tailPieces maxLines pieces)).filter fun piece => !piece.isEmpty

/-- The pods of a listing are those on the lines that are not kept and those on
the lines that are. -/
theorem podRows_eq_append {maxLines : Nat} (keeps : 0 < maxLines) (content : List Char) :
    podRows content =
      (hiddenLines maxLines content).map podRow ++ podRows (tailLines maxLines content) := by
  have some : 0 < tailPieces maxLines (content.splitOn '\n') := by
    unfold tailPieces
    split <;> omega
  have nonempty : 0 < (content.splitOn '\n').length :=
    List.length_pos_iff.mpr (List.splitOn_ne_nil _ _)
  have kept : ((content.splitOn '\n').drop ((content.splitOn '\n').length -
      tailPieces maxLines (content.splitOn '\n'))) ≠ [] := by
    rw [Ne, List.drop_eq_nil_iff]
    omega
  have again : (tailLines maxLines content).splitOn '\n' =
      (content.splitOn '\n').drop ((content.splitOn '\n').length -
        tailPieces maxLines (content.splitOn '\n')) := by
    rw [tailLines]
    refine List.splitOn_intercalate '\n' (fun piece member => ?_) kept
    exact fun inside => beq_eq_false_iff_ne.mp
      (Awk.mem_of_mem_splitOn (List.mem_of_mem_drop member) inside).2 rfl
  unfold podRows hiddenLines
  rw [splitNonempty_eq, splitNonempty_eq, again, ← List.map_append, ← List.filter_append,
    List.take_append_drop]

/-! ## What the filter reads -/

section Filter

variable {jq : Interpreter} {settings : Settings} {captures : Captures}

theorem nodeSummary_eq_some {item : Json} {node : NodeSummary}
    (summarised : nodeSummary jq item = some node) :
    conditionStatus jq "Ready" item = some node.ready ∧
      conditionStatus jq "MemoryPressure" item = some node.memoryPressure ∧
      conditionStatus jq "DiskPressure" item = some node.diskPressure ∧
      conditionStatus jq "PIDPressure" item = some node.pidPressure := by
  simp only [nodeSummary, Option.bind_eq_bind, Option.bind_eq_some_iff, Option.some.injEq]
    at summarised
  obtain ⟨-, -, -, -, ready, isReady, memory, isMemory, disk, isDisk, pid, isPid, rfl⟩ := summarised
  exact ⟨isReady, isMemory, isDisk, isPid⟩

/-- The report shows a node as ready and under no pressure exactly when it is. -/
theorem nodeHealthy_iff {item : Json} {node : NodeSummary}
    (summarised : nodeSummary jq item = some node) :
    NodeHealthy jq item ↔ node.ready.isString "True" = true ∧ node.underPressure = false := by
  obtain ⟨ready, memory, disk, pid⟩ := nodeSummary_eq_some summarised
  simp only [NodeHealthy, List.forall_mem_cons, List.not_mem_nil, false_implies, implies_true,
    and_true, ready, memory, disk, pid, Option.any_some, NodeSummary.underPressure,
    Bool.or_eq_false_iff]
  tauto

theorem forall_nodeHealthy_iff {nodeItems : List Json} {nodes : List NodeSummary}
    (summarised : nodeItems.mapM (nodeSummary jq) = some nodes) :
    (∀ item ∈ nodeItems, NodeHealthy jq item) ↔
      ∀ node ∈ nodes, node.ready.isString "True" = true ∧ node.underPressure = false := by
  have each := Checked.mapM_eq_some.mp summarised
  clear summarised
  induction each with
  | nil => simp
  | cons head _ ih =>
      rw [List.forall_mem_cons, List.forall_mem_cons]
      exact and_congr (nodeHealthy_iff head) ih

/-- The running pods that are ready are counted in the reply itself. -/
theorem nodeExporterReadyPodCount_eq {exporterItems : List Json} {count : Nat}
    (counted : nodeExporterReadyPodCount jq exporterItems = some count) :
    count = exporterItems.countP (runningAndReady jq) := by
  simp only [nodeExporterReadyPodCount, Option.bind_eq_bind, Option.bind_eq_some_iff,
    Option.some.injEq] at counted
  obtain ⟨running, selected, states, mapped, rfl⟩ := counted
  rw [length_filter_of_select_mapM _ selected mapped]
  refine List.countP_congr fun item _ => ?_
  have same : (fun pod => (readiness pod).allReady) = fun pod => decide (AllReady pod) := by
    funext pod
    rw [Bool.eq_iff_iff, decide_eq_true_eq, allReady_iff]
  rw [same, runningAndReady]

/-- A reading of the captures, part by part. -/
theorem findings_eq_some {found : Findings} :
    findings jq settings captures = some found ↔
      ∃ expectedNodes expectedNodeExporter nodeItems nodes exporterItems pods lines ready desired,
        jq.tonumber settings.expectedNodes = some expectedNodes ∧
        jq.tonumber settings.expectedNodeExporter = some expectedNodeExporter ∧
        items jq (parseJson jq captures.nodesRaw) = some nodeItems ∧
        nodeItems.mapM (nodeSummary jq) = some nodes ∧
        items jq (parseJson jq captures.nodeExporterRaw) = some exporterItems ∧
        select (hasKind "Pod") exporterItems = some pods ∧
        pods.mapM (exporterPodLine jq) = some lines ∧
        nodeExporterReadyPodCount jq exporterItems = some ready ∧
        nodeExporterDesired jq expectedNodeExporter exporterItems = some desired ∧
        { nodesOk := captures.nodesRaw.ok
          nodesParsed := !(parseJson jq captures.nodesRaw).isNull
          expectedNodes
          expectedNodeExporter
          nodes
          pods := parsePodText captures.podsRaw
          nodeExporterParsed := !(parseJson jq captures.nodeExporterRaw).isNull
          nodeExporterPods := lines
          exporterReady := ready
          exporterDesired := desired
          signals := signals jq captures.eventsTailRaw
          identitySignalSeen := (signals jq captures.eventsTailRaw).any
            (jq.test "Node password|hash does not match|authorization" "i")
          hostKeyProblem := hostKeyProblem jq captures } = found := by
  simp only [findings, Option.bind_eq_bind, Option.bind_eq_some_iff, Option.some.injEq]
  constructor
  · rintro ⟨expectedNodes, parsed, expectedNodeExporter, parsed', nodeItems, listed, nodes,
      summarised, exporterItems, listed', pods, selected, lines, shown, ready, counted, desired,
      scheduled, rfl⟩
    exact ⟨expectedNodes, expectedNodeExporter, nodeItems, nodes, exporterItems, pods, lines, ready,
      desired, parsed, parsed', listed, summarised, listed', selected, shown, counted, scheduled,
      rfl⟩
  · rintro ⟨expectedNodes, expectedNodeExporter, nodeItems, nodes, exporterItems, pods, lines,
      ready, desired, parsed, parsed', listed, summarised, listed', selected, shown, counted, scheduled,
      rfl⟩
    exact ⟨expectedNodes, parsed, expectedNodeExporter, parsed', nodeItems, listed, nodes,
      summarised, exporterItems, listed', pods, selected, lines, shown, ready, counted, desired,
      scheduled, rfl⟩

end Filter

/-! ## When the report says healthy -/

theorem raised_eq_nil_iff (holds : Bool) (issue : Issue) :
    (if holds then [issue] else []) = [] ↔ holds = false := by
  cases holds with
  | false => simp
  | true => simp

theorem Findings.healthy_iff_issues (found : Findings) :
    found.assessment.status = .healthy ↔
      found.nodesOk = true ∧ found.nodesParsed = true ∧ found.issues = [] := by
  simp only [Findings.assessment]
  cases ok : found.nodesOk with
  | false => simp
  | true =>
      cases parsed : found.nodesParsed with
      | false => simp
      | true =>
          by_cases empty : found.issues = []
          · simp [empty]
          · have some : found.issues.isEmpty = false := by simpa using empty
            simp only [some, Bool.not_true, Bool.or_self, Bool.false_eq_true, if_false, empty,
              and_false, iff_false]
            split
            · decide
            · split <;> decide

/-- A node identity signal is no issue of its own: while it matters, nodes are
missing or not ready. -/
theorem Findings.healthy_iff (found : Findings) :
    found.assessment.status = .healthy ↔
      found.nodesOk = true ∧ found.nodesParsed = true ∧
      found.expectedNodes ≤ found.nodes.length ∧
      (∀ node ∈ found.nodes, node.ready.isString "True" = true ∧ node.underPressure = false) ∧
      (∀ row ∈ found.pods, row.nonRunning = false ∧ row.runningNotReady = false) ∧
      found.exporterDesired.above found.exporterReady = false ∧
      found.hostKeyProblem = false := by
  rw [Findings.healthy_iff_issues]
  refine and_congr_right fun ok => and_congr_right fun parsed => ?_
  have allReady : (found.nodes.any fun node => !node.ready.isString "True") = false ↔
      ∀ node ∈ found.nodes, node.ready.isString "True" = true := by
    simp
  have noPressure : found.nodes.any NodeSummary.underPressure = false ↔
      ∀ node ∈ found.nodes, node.underPressure = false := by
    simp
  have noneStopped : found.pods.any PodRow.nonRunning = false ↔
      ∀ row ∈ found.pods, row.nonRunning = false := by
    simp
  have noneUnready : found.pods.any PodRow.runningNotReady = false ↔
      ∀ row ∈ found.pods, row.runningNotReady = false := by
    simp
  have enough : decide (found.nodes.length < found.expectedNodes) = false ↔
      found.expectedNodes ≤ found.nodes.length := by
    rw [decide_eq_false_iff_not, not_lt]
  have quiet : found.expectedNodes ≤ found.nodes.length →
      (∀ node ∈ found.nodes, node.ready.isString "True" = true) →
      (found.identitySignalSeen && found.identityStillActionable) = false := by
    intro listed ready
    rw [Findings.identityStillActionable, enough.mpr listed, allReady.mpr ready]
    simp
  simp only [Findings.issues, List.append_eq_nil_iff, raised_eq_nil_iff, ok, parsed,
    Bool.not_true, Bool.true_and, Bool.and_false, true_and, allReady, noPressure, noneStopped,
    noneUnready, enough]
  constructor
  · rintro ⟨⟨⟨⟨⟨⟨⟨listed, ready⟩, pressure⟩, stopped⟩, unready⟩, exporter⟩, -⟩, hostKey⟩
    exact ⟨listed, fun node member => ⟨ready node member, pressure node member⟩,
      fun row member => ⟨stopped row member, unready row member⟩, exporter, hostKey⟩
  · rintro ⟨listed, nodes, pods, exporter, hostKey⟩
    have ready := fun node member => (nodes node member).1
    exact ⟨⟨⟨⟨⟨⟨⟨listed, ready⟩, fun node member => (nodes node member).2⟩,
      fun row member => (pods row member).1⟩, fun row member => (pods row member).2⟩, exporter⟩,
      quiet listed ready⟩, hostKey⟩

section Report

variable (jq : Interpreter)

/-- The nodes reply is evidence, and the filter can read it. -/
structure NodesPass (settings : Settings) (reply : Reply) : Prop where
  evidence : ∃ expected, jq.tonumber settings.expectedNodes = some expected ∧
    NodesEvidence jq expected reply
  parsed : (parseJson jq (captureControlJson reply)).isNull = false
  readable : ∃ nodeItems nodes, items jq (parseJson jq (captureControlJson reply)) =
    some nodeItems ∧ nodeItems.mapM (nodeSummary jq) = some nodes

/-- The filter can read the node exporter reply, and its ready pods are as many
as expected and as the daemon set desires. -/
def ExporterPass (settings : Settings) (reply : Reply) : Prop :=
  ∃ expected exporterItems pods lines ready desired,
    jq.tonumber settings.expectedNodeExporter = some expected ∧
    items jq (parseJson jq (captureControlJson reply)) = some exporterItems ∧
    select (hasKind "Pod") exporterItems = some pods ∧
    pods.mapM (exporterPodLine jq) = some lines ∧
    nodeExporterReadyPodCount jq exporterItems = some ready ∧
    nodeExporterDesired jq expected exporterItems = some desired ∧
    desired.above ready = false

/-- No pod on the lines that are kept raises an issue. -/
def PodsPass (reply : Reply) : Prop :=
  reply.status = 0 → ∀ row ∈ podRows (tailLines podLines reply.stdout),
    row.nonRunning = false ∧ row.runningNotReady = false

/-- Nothing raises an issue. -/
structure Passes (jqStarts : Captures → Bool) (settings : Settings) (replies : Replies) :
    Prop where
  starts : jqStarts (capture replies) = true
  nodes : NodesPass jq settings replies.nodes
  pods : PodsPass replies.pods
  nodeExporter : ExporterPass jq settings replies.nodeExporter
  noHostKeyProblem : hostKeyProblem jq (capture replies) = false

variable {jq}

theorem parseJson_of_notNull {reply : Reply}
    (parsed : (parseJson jq (captureControlJson reply)).isNull = false) :
    reply.status = 0 ∧
      jq.fromjson reply.stdout = some (parseJson jq (captureControlJson reply)) := by
  unfold parseJson at parsed ⊢
  by_cases succeeded : (captureControlJson reply).ok = true
  · rw [if_pos succeeded] at parsed ⊢
    refine ⟨beq_iff_eq.mp succeeded, ?_⟩
    have output : (captureControlJson reply).output = reply.stdout := rfl
    rw [output] at parsed ⊢
    split at parsed
    · cases parsed
    · cases parsed
    next value _ found => rw [found]
  · rw [if_neg succeeded] at parsed
    cases parsed

/-- An exporter reply that passes shows as many pods as expected. -/
theorem ExporterPass.evidence {settings : Settings} {reply : Reply}
    (passes : ExporterPass jq settings reply) :
    ∃ expected, jq.tonumber settings.expectedNodeExporter = some expected ∧
      ExporterEvidence jq expected reply := by
  obtain ⟨expected, exporterItems, -, -, ready, desired, number, listed, -, -, counted, scheduled,
    enough⟩ := passes
  refine ⟨expected, number, exporterItems, listed, ?_⟩
  rw [← nodeExporterReadyPodCount_eq counted]
  simp only [nodeExporterDesired, Option.bind_eq_bind, Option.bind_eq_some_iff,
    Option.some.injEq] at scheduled
  obtain ⟨-, -, -, -, value, -, rfl⟩ := scheduled
  rw [Json.above_maxWith, Bool.or_eq_false_iff, decide_eq_false_iff_not, not_lt] at enough
  exact enough.1

/-- **The collector says healthy exactly when nothing raises an issue.** -/
theorem collect_healthy_iff {jqStarts : Captures → Bool} {settings : Settings}
    {replies : Replies} :
    (∃ printed, collect jq jqStarts settings replies = some printed ∧
      printed.assessment.status = .healthy) ↔ Passes jq jqStarts settings replies := by
  have pods : (∀ row ∈ parsePodText (capture replies).podsRaw,
      row.nonRunning = false ∧ row.runningNotReady = false) ↔ PodsPass replies.pods := by
    unfold parsePodText PodsPass
    have ok : (capture replies).podsRaw.ok = true ↔ replies.pods.status = 0 := beq_iff_eq
    by_cases succeeded : replies.pods.status = 0
    · rw [if_pos (ok.mpr succeeded)]
      exact ⟨fun each _ => each, fun each => each succeeded⟩
    · rw [if_neg fun yes => succeeded (ok.mp yes)]
      exact iff_of_true (fun row member => nomatch member) fun yes => absurd yes succeeded
  constructor
  · rintro ⟨printed, printing, healthy⟩
    simp only [collect] at printing
    split at printing
    next starts =>
        obtain ⟨found, reading, rfl⟩ := Option.map_eq_some_iff.mp printing
        obtain ⟨ok, parsed, enough, nodesPass, podsPass, exporter, hostKey⟩ :=
          found.healthy_iff.mp healthy
        obtain ⟨expectedNodes, expectedNodeExporter, nodeItems, nodes, exporterItems, podItems,
          lines, ready, desired, number, number', listed, summarised, listed', selected, shown,
          counted, scheduled, rfl⟩ := findings_eq_some.mp reading
        have notNull := (Bool.not_eq_true' _).mp parsed
        obtain ⟨succeeded, json⟩ := parseJson_of_notNull notNull
        refine ⟨starts, ⟨⟨expectedNodes, number, succeeded, _, nodeItems, json, listed, ?_, ?_⟩,
          notNull, nodeItems, nodes, listed, summarised⟩, pods.mp podsPass,
          ⟨expectedNodeExporter, exporterItems, podItems, lines, ready, desired, number', listed',
            selected, shown, counted, scheduled, exporter⟩, hostKey⟩
        · rw [(Checked.mapM_eq_some.mp summarised).length_eq]
          exact enough
        · exact (forall_nodeHealthy_iff summarised).mpr nodesPass
    · cases printing
  · intro passes
    obtain ⟨expectedNodeExporter, exporterItems, podItems, lines, ready, desired, number', listed',
      selected, shown, counted, scheduled, exporter⟩ := passes.nodeExporter
    obtain ⟨expectedNodes, number, evidence⟩ := passes.nodes.evidence
    obtain ⟨nodeItems, nodes, listed, summarised⟩ := passes.nodes.readable
    obtain ⟨succeeded, json⟩ := parseJson_of_notNull passes.nodes.parsed
    obtain ⟨json', nodeItems', found, listed'', enough, healthy⟩ := evidence.listed
    obtain rfl : _ = json' := Option.some.inj (json.symm.trans found)
    obtain rfl : nodeItems = nodeItems' := Option.some.inj (listed.symm.trans listed'')
    have reading := (@findings_eq_some jq settings (capture replies) _).mpr
      ⟨expectedNodes, expectedNodeExporter, nodeItems, nodes, exporterItems, podItems, lines, ready,
        desired, number, number', listed, summarised, listed', selected, shown, counted, scheduled,
        rfl⟩
    refine ⟨_, by rw [collect, if_pos passes.starts, reading]; rfl, ?_⟩
    refine (Findings.healthy_iff _).mpr ⟨beq_iff_eq.mpr succeeded,
      (Bool.not_eq_true' _).mpr passes.nodes.parsed, ?_,
      (forall_nodeHealthy_iff summarised).mp healthy, pods.mpr passes.pods, exporter,
      passes.noHostKeyProblem⟩
    rw [(Checked.mapM_eq_some.mp summarised).length_eq] at enough
    exact enough

/-! ## Evidence for the pods -/

/-- The pod query succeeded, no line that is not kept hides a pod, and every
running pod on the lines that are kept lists containers. -/
structure PodsAnswered (reply : Reply) : Prop where
  succeeded : reply.status = 0
  hidden : ∀ line ∈ hiddenLines podLines reply.stdout, (podRow line).Accounted
  listed : ∀ row ∈ podRows (tailLines podLines reply.stdout),
    row.phase = "Running".toList → row.states ≠ []

/-- Pods that raise no issue are evidence exactly when the pod query was answered. -/
theorem podsEvidence_iff {reply : Reply} (passes : PodsPass reply) :
    PodsEvidence reply ↔ PodsAnswered reply := by
  have whole := podRows_eq_append (by decide : 0 < podLines) reply.stdout
  constructor
  · rintro ⟨succeeded, accounted⟩
    rw [whole, List.forall_mem_append] at accounted
    refine ⟨succeeded, fun line member => accounted.1 _ (List.mem_map_of_mem member), ?_⟩
    intro row member running
    rcases accounted.2 row member with stopped | ⟨-, ready⟩
    · rw [running] at stopped
      exact absurd stopped (by decide)
    · exact ready.1
  · rintro ⟨succeeded, hidden, listed⟩
    refine ⟨succeeded, ?_⟩
    rw [whole, List.forall_mem_append]
    constructor
    · intro row member
      obtain ⟨line, inside, rfl⟩ := List.mem_map.mp member
      exact hidden line inside
    · intro row member
      rcases (row_raises_none_iff row).mp (passes succeeded row member) with accounted | unlisted
      · exact accounted
      · exact absurd unlisted.2 (listed row member unlisted.1)

/-- **A healthy report rests on evidence exactly when the pods do.** Either some
issue keeps the report from being healthy, or the pod query was answered. -/
theorem healthyOnEvidence_iff (jq : Interpreter) (jqStarts : Captures → Bool)
    (settings : Settings) (replies : Replies) :
    HealthyOnEvidence jq jqStarts settings replies ↔
      (Passes jq jqStarts settings replies → PodsAnswered replies.pods) := by
  constructor
  · intro rests passes
    obtain ⟨printed, printing, healthy⟩ := collect_healthy_iff.mpr passes
    exact (podsEvidence_iff passes.pods).mp (rests printed printing healthy).pods
  · intro answered printed printing healthy
    have passes := collect_healthy_iff.mp ⟨printed, printing, healthy⟩
    exact ⟨passes.nodes.evidence, (podsEvidence_iff passes.pods).mpr (answered passes),
      passes.nodeExporter.evidence⟩

end Report

/-! ## A pod query that fails -/

section Fixture

/-- `get nodes -o json` in a cluster of one node, as text and as a value. -/
def fixtureNodes : List Char × Json where
  fst := ("\x7b\"items\":[\x7b\"metadata\":\x7b\"name\":\"a\"\x7d,\"status\":\x7b\"conditions\":" ++
    "[\x7b\"type\":\"Ready\",\"status\":\"True\"\x7d]\x7d\x7d]\x7d").toList
  snd := .obj [("items", .arr [.obj [
    ("metadata", .obj [("name", .str "a".toList)]),
    ("status", .obj [("conditions", .arr [.obj [("type", .str "Ready".toList),
      ("status", .str "True".toList)]])])]])]

/-- `get ds,pod -o json` of its node exporter, as text and as a value. -/
def fixtureNodeExporter : List Char × Json where
  fst := ("\x7b\"items\":[\x7b\"kind\":\"Pod\",\"metadata\":\x7b\"name\":\"e\"\x7d,\"status\":" ++
    "\x7b\"phase\":\"Running\",\"containerStatuses\":[\x7b\"ready\":true\x7d]\x7d\x7d]\x7d").toList
  snd := .obj [("items", .arr [.obj [("kind", .str "Pod".toList),
    ("metadata", .obj [("name", .str "e".toList)]),
    ("status", .obj [("phase", .str "Running".toList),
      ("containerStatuses", .arr [.obj [("ready", .bool true)]])])]])]

/-- An interpreter that knows these two texts and the number one, and finds no
pattern. -/
def fixtureInterpreter : Interpreter where
  fromjson text :=
    if text = fixtureNodes.1 then some fixtureNodes.2
    else if text = fixtureNodeExporter.1 then some fixtureNodeExporter.2
    else none
  tonumber text := if text = "1".toList then some 1 else none
  test _ _ _ := false
  alternativeOnError := false

/-- The pod query fails, all others succeed. -/
def fixtureReplies : Replies where
  nodes := ⟨0, fixtureNodes.1, []⟩
  pods := ⟨1, [], "error: the server was unable to return a response".toList⟩
  nodeExporter := ⟨0, fixtureNodeExporter.1, []⟩
  events := ⟨0, [], []⟩
  nodeChecks := []

/-- **A cluster whose pods could not be listed is called healthy.** -/
theorem healthy_without_pods :
    ¬ HealthyOnEvidence fixtureInterpreter (fun _ => true) ⟨"1".toList, []⟩ fixtureReplies := by
  intro rests
  have printsHealthy : (collect fixtureInterpreter (fun _ => true) ⟨"1".toList, []⟩
      fixtureReplies).any (fun printed => printed.assessment.status = .healthy) = true := by
    decide +kernel
  obtain ⟨printed, printing, healthy⟩ := (Option.any_eq_true _ _).mp printsHealthy
  have pods := (rests printed printing (of_decide_eq_true healthy)).pods
  exact absurd pods.succeeded (by decide)

end Fixture

end HomeclusterInfra.Convergence
