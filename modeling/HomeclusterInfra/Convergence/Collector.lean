import HomeclusterInfra.Library.JqValue
import HomeclusterInfra.Library.Text
import Mathlib.Data.List.Infix

/-!
# The convergence collector

The collector asks the control plane four questions, the nodes, the pods, the
node exporter and the last events, and asks some nodes over ssh about
themselves. It captures the exit status, the output and the error text of each
and hands them to one jq filter, which prints the report.

A query that failed or whose output is not JSON becomes `null` in the filter,
and the list read from it is then empty. The issues are counted in those lists.

The shell may be unable to start jq on long captured texts; then nothing is
printed. `jqStarts` says on which captures it is started.
-/

set_option autoImplicit false

namespace HomeclusterInfra.Convergence

open Jq Text

/-! ## Captured replies -/

/-- What a command leaves behind. -/
structure Reply where
  status : Nat
  stdout : List Char
  stderr : List Char

/-- The capture of one reply, as `capture_control_json` prints it. -/
structure Raw where
  status : Nat
  ok : Bool
  output : List Char
  stderr : List Char

/-- `$(cat file)` -/
def commandSubstitution (content : List Char) : List Char :=
  rstripWhile (· == '\n') (content.filter (· != '\x00'))

/-- `sanitize_output` -/
def sanitizeOutput (output : List Char) : List Char :=
  let has (word : String) : Bool := decide (word.toList <:+: output)
  if has "REMOTE HOST IDENTIFICATION HAS CHANGED" then "ssh_host_key_changed".toList
  else if has "Host key verification failed" then "ssh_host_key_verification_failed".toList
  else if has "Permission denied" then "ssh_permission_denied".toList
  else if has "Could not resolve hostname" then "ssh_name_resolution_failed".toList
  else if has "Connection timed out" || has "No route to host" then "ssh_connect_failed".toList
  else output

/-- How many of the pieces between line feeds make up the last lines of a text.
The piece after a final line feed is no line. -/
def tailPieces (maxLines : Nat) (pieces : List (List Char)) : Nat :=
  if pieces.getLast? = some [] then maxLines + 1 else maxLines

/-- `tail -n` -/
def tailLines (maxLines : Nat) (content : List Char) : List Char :=
  let pieces := content.splitOn '\n'
  ['\n'].intercalate (pieces.drop (pieces.length - tailPieces maxLines pieces))

/-- `capture_control_json` -/
def captureControlJson (reply : Reply) : Raw where
  status := reply.status
  ok := reply.status == 0
  output := reply.stdout
  stderr := sanitizeOutput (commandSubstitution reply.stderr)

/-- `capture_control_text_tail` -/
def captureControlTextTail (maxLines : Nat) (reply : Reply) : Raw where
  status := reply.status
  ok := reply.status == 0
  output := tailLines maxLines reply.stdout
  stderr := sanitizeOutput (commandSubstitution reply.stderr)

/-- The last lines of the pod listing that are kept. -/
def podLines : Nat := 10000

/-- The last lines of the event listing that are kept. -/
def eventLines : Nat := 80

/-- The settings the assessment depends on. -/
structure Settings where
  /-- `MONITOR_EXPECTED_NODES` -/
  monitorExpectedNodes : List Char
  /-- `MONITOR_EXPECTED_NODE_EXPORTER` -/
  monitorExpectedNodeExporter : List Char

/-- `${value:-fallback}` -/
def orDefault (value fallback : List Char) : List Char :=
  if value.isEmpty then fallback else value

/-- `EXPECTED_NODES` -/
def Settings.expectedNodes (settings : Settings) : List Char :=
  orDefault settings.monitorExpectedNodes "4".toList

/-- `EXPECTED_NODE_EXPORTER` -/
def Settings.expectedNodeExporter (settings : Settings) : List Char :=
  orDefault settings.monitorExpectedNodeExporter settings.expectedNodes

/-- The replies to the four control queries, and those of the checked nodes. -/
structure Replies where
  nodes : Reply
  pods : Reply
  nodeExporter : Reply
  events : Reply
  nodeChecks : List (List Char × Reply)

/-- The captures the filter is run on. -/
structure Captures where
  nodesRaw : Raw
  podsRaw : Raw
  nodeExporterRaw : Raw
  eventsTailRaw : Raw
  nodeChecks : List (List Char × Raw)

/-- The captures of all replies; `capture_ssh_json` differs from
`capture_control_json` in that it also keeps the target. -/
def capture (replies : Replies) : Captures where
  nodesRaw := captureControlJson replies.nodes
  podsRaw := captureControlTextTail podLines replies.pods
  nodeExporterRaw := captureControlJson replies.nodeExporter
  eventsTailRaw := captureControlTextTail eventLines replies.events
  nodeChecks := replies.nodeChecks.map fun check => (check.1, captureControlJson check.2)

/-! ## Reading the captures -/

/-- A pod as one line of the pod listing shows it. -/
structure PodRow where
  podNamespace : List Char
  name : List Char
  phase : List Char
  nodeName : List Char
  readyText : List Char

/-- One line of the pod listing. -/
def podRow (line : List Char) : PodRow :=
  let cols := splitNonempty ' ' line
  { podNamespace := cols.getD 0 []
    name := cols.getD 1 []
    phase := cols.getD 2 "Unknown".toList
    nodeName := cols.getD 3 []
    readyText := cols.getD 4 [] }

/-- The pods of a listing. -/
def podRows (listing : List Char) : List PodRow :=
  (splitNonempty '\n' listing).map podRow

/-- `parse_pod_text`, and the empty list where it gives `null`. -/
def parsePodText (raw : Raw) : List PodRow :=
  if raw.ok then podRows raw.output else []

/-- Whether each container of a listed pod is ready. -/
def PodRow.states (row : PodRow) : List Bool :=
  ((splitNonempty ',' row.readyText).filter (· != "<none>".toList)).map (· == "true".toList)

/-- The result of `pod_ready`. -/
structure Readiness where
  ready : Nat
  total : Nat

/-- The count behind `pod_ready`. -/
def readiness (states : List Bool) : Readiness :=
  ⟨states.count true, states.length⟩

/-- The text of `pod_ready`. -/
def Readiness.text (readiness : Readiness) : List Char :=
  natText readiness.ready ++ '/' :: natText readiness.total

/-- `.total > 0 and .ready == .total` -/
def Readiness.allReady (readiness : Readiness) : Bool :=
  0 < readiness.total && readiness.ready == readiness.total

/-- `.total > 0 and .ready != .total` -/
def Readiness.someNotReady (readiness : Readiness) : Bool :=
  0 < readiness.total && readiness.ready != readiness.total

section Filter

variable (jq : Interpreter)

/-- `parse_json` -/
def parseJson (raw : Raw) : Json :=
  if raw.ok then
    match jq.fromjson raw.output with
    | none | some (.bool false) => .null
    | some value => value
  else .null

/-- `.items // []` as a list. -/
def items (json : Json) : Option (List Json) := do
  (← jq.alternative (json.field "items") (.arr [])).each

/-- The status of the first condition of a type, `Unknown` without one. -/
def conditionStatus (type : String) (item : Json) : Option Json := do
  let conditions ← jq.alternative ((item.field "status").bind (Json.field "conditions")) (.arr [])
  let typed ← select
    (fun condition => (condition.field "type").map (Json.isString type)) (← conditions.each)
  jq.alternative ((typed.headD .null).field "status") (.str "Unknown".toList)

/-- A node as the report shows it. -/
structure NodeSummary where
  name : Json
  ready : Json
  memoryPressure : Json
  diskPressure : Json
  pidPressure : Json

/-- One node of the nodes reply. -/
def nodeSummary (item : Json) : Option NodeSummary := do
  let name ← (← item.field "metadata").field "name"
  let ready ← conditionStatus jq "Ready" item
  let memoryPressure ← conditionStatus jq "MemoryPressure" item
  let diskPressure ← conditionStatus jq "DiskPressure" item
  let pidPressure ← conditionStatus jq "PIDPressure" item
  some { name, ready, memoryPressure, diskPressure, pidPressure }

/-- `disk_pressure == "True" or memory_pressure == "True" or pid_pressure == "True"` -/
def NodeSummary.underPressure (node : NodeSummary) : Bool :=
  node.diskPressure.isString "True" || node.memoryPressure.isString "True" ||
    node.pidPressure.isString "True"

/-- Whether each container of a pod of a JSON reply is ready, as `pod_ready`
reads it. The pods it is asked about are objects, they have a `kind`. -/
def podStates (pod : Json) : Option (List Bool) := do
  match ← pod.field "ready_text" with
  | .null =>
      let statuses ← jq.alternative
        ((pod.field "status").bind (Json.field "containerStatuses")) (.arr [])
      (← statuses.each).mapM fun status => (status.field "ready").map Json.isTrue
  | .str text =>
      some (((splitNonempty ',' text).filter (· != "<none>".toList)).map (· == "true".toList))
  | _ => none

/-- `.kind == "…"` -/
def hasKind (kind : String) (item : Json) : Option Bool :=
  (item.field "kind").map (Json.isString kind)

/-- `.kind == "Pod" and .status.phase == "Running"` -/
def isRunningPod (item : Json) : Option Bool := do
  if ← hasKind "Pod" item then
    some ((← (← item.field "status").field "phase").isString "Running")
  else some false

/-- A pod as the report shows it, with its phase or its readiness. -/
structure PodLine (α : Type) where
  podNamespace : α
  name : α
  phase : Option α
  node : α
  ready : Option (List Char)

/-- One pod of the node exporter reply, for the report. -/
def exporterPodLine (item : Json) : Option (PodLine Json) := do
  let metadata ← item.field "metadata"
  let podNamespace ← metadata.field "namespace"
  let name ← metadata.field "name"
  let phase ← (← item.field "status").field "phase"
  let node ← jq.alternative ((item.field "spec").bind (Json.field "nodeName")) (.str [])
  let states ← podStates jq item
  some ⟨podNamespace, name, some phase, node, some (readiness states).text⟩

/-- The desired number of node exporter pods. -/
def nodeExporterDesired (expected : Rat) (exporterItems : List Json) : Option Json := do
  let daemonSets ← select (hasKind "DaemonSet") exporterItems
  let daemonSet ← jq.alternative (some (daemonSets.headD .null)) (.obj [])
  let scheduled ← jq.alternative
    ((daemonSet.field "status").bind (Json.field "desiredNumberScheduled")) (.num 0)
  some (scheduled.maxWith expected)

/-- The number of running node exporter pods that are ready. -/
def nodeExporterReadyPodCount (exporterItems : List Json) : Option Nat := do
  let running ← select isRunningPod exporterItems
  let states ← running.mapM (podStates jq)
  some (states.filter fun pod => (readiness pod).allReady).length

/-! ## The assessment -/

inductive Issue where
  | kubernetesApiUnreachable
  | kubernetesApiInvalidJson
  | missingExpectedNodes
  | nodesNotReady
  | nodePressure
  | nonRunningPods
  | runningPodsNotReady
  | nodeExporterNotReady
  | nodeIdentitySignal
  | sshHostKeyProblem
deriving DecidableEq

inductive Status where
  | unknown
  | healthy
  | blocked
  | converging
deriving DecidableEq

structure Assessment where
  status : Status
  issues : List Issue

/-- `select(.status.phase != "Running" and .status.phase != "Succeeded")` -/
def PodRow.nonRunning (row : PodRow) : Bool :=
  row.phase != "Running".toList && row.phase != "Succeeded".toList

/-- `select(.status.phase == "Running")` and then the containers that are listed. -/
def PodRow.runningNotReady (row : PodRow) : Bool :=
  row.phase == "Running".toList && (readiness row.states).someNotReady

/-- The lines of the event listing that are worth showing. -/
def signals (eventsTailRaw : Raw) : List (List Char) :=
  let lines := (split '\n' eventsTailRaw.output).filter <| jq.test
    ("Node password|hash does not match|authorization|DiskPressure|ImagePullBackOff|" ++
      "CrashLoopBackOff|Evicted|NodeNotReady|TaintManagerEviction|Failed|Unhealthy") "i"
  lines.drop (lines.length - 20)

/-- All captured texts. -/
def diagnosticOutputs (captures : Captures) : List (List Char) :=
  [captures.nodesRaw.output, captures.nodesRaw.stderr,
    captures.podsRaw.output, captures.podsRaw.stderr,
    captures.nodeExporterRaw.output, captures.nodeExporterRaw.stderr,
    captures.eventsTailRaw.output, captures.eventsTailRaw.stderr] ++
    captures.nodeChecks.map (fun check => check.2.output) ++
    captures.nodeChecks.map (fun check => check.2.stderr)

/-- Whether some captured text speaks of a host key. -/
def hostKeyProblem (captures : Captures) : Bool :=
  (diagnosticOutputs captures).any (jq.test "ssh_host_key_(changed|verification_failed)" "")

/-- What the filter has read when it comes to the issues. -/
structure Findings where
  nodesOk : Bool
  nodesParsed : Bool
  expectedNodes : Rat
  expectedNodeExporter : Rat
  nodes : List NodeSummary
  pods : List PodRow
  nodeExporterParsed : Bool
  nodeExporterPods : List (PodLine Json)
  exporterReady : Nat
  exporterDesired : Json
  signals : List (List Char)
  identitySignalSeen : Bool
  hostKeyProblem : Bool

/-- `$node_identity_still_actionable` -/
def Findings.identityStillActionable (findings : Findings) : Bool :=
  findings.nodes.length < findings.expectedNodes ||
    findings.nodes.any fun node => !node.ready.isString "True"

/-- `$issues` -/
def Findings.issues (findings : Findings) : List Issue :=
  let raised (holds : Bool) (issue : Issue) : List Issue := if holds then [issue] else []
  raised (!findings.nodesOk) .kubernetesApiUnreachable ++
  raised (findings.nodesOk && !findings.nodesParsed) .kubernetesApiInvalidJson ++
  raised (findings.nodesParsed && findings.nodes.length < findings.expectedNodes)
    .missingExpectedNodes ++
  raised (findings.nodesParsed && findings.nodes.any fun node => !node.ready.isString "True")
    .nodesNotReady ++
  raised (findings.nodes.any NodeSummary.underPressure) .nodePressure ++
  raised (findings.pods.any PodRow.nonRunning) .nonRunningPods ++
  raised (findings.pods.any PodRow.runningNotReady) .runningPodsNotReady ++
  raised (findings.exporterDesired.above findings.exporterReady) .nodeExporterNotReady ++
  raised (findings.identitySignalSeen && findings.identityStillActionable)
    .nodeIdentitySignal ++
  raised findings.hostKeyProblem .sshHostKeyProblem

/-- `assessment` -/
def Findings.assessment (findings : Findings) : Assessment where
  status :=
    if !findings.nodesOk || !findings.nodesParsed then .unknown
    else if findings.issues.isEmpty then .healthy
    else if findings.issues.contains .nodePressure then .blocked
    else if findings.issues.contains .nodeIdentitySignal &&
        !findings.issues.contains .missingExpectedNodes then .blocked
    else .converging
  issues := findings.issues

/-- The first part of the jq filter: what it reads from the captures. -/
def findings (settings : Settings) (captures : Captures) : Option Findings := do
  let nodesJson := parseJson jq captures.nodesRaw
  let nodeExporterJson := parseJson jq captures.nodeExporterRaw
  let expectedNodes ← jq.tonumber settings.expectedNodes
  let expectedNodeExporter ← jq.tonumber settings.expectedNodeExporter
  let nodeItems ← items jq nodesJson
  let nodes ← nodeItems.mapM (nodeSummary jq)
  let nodeExporterItems ← items jq nodeExporterJson
  let nodeExporterPods ← (← select (hasKind "Pod") nodeExporterItems).mapM (exporterPodLine jq)
  let exporterReady ← nodeExporterReadyPodCount jq nodeExporterItems
  let exporterDesired ← nodeExporterDesired jq expectedNodeExporter nodeExporterItems
  some
    { nodesOk := captures.nodesRaw.ok
      nodesParsed := !nodesJson.isNull
      expectedNodes
      expectedNodeExporter
      nodes
      pods := parsePodText captures.podsRaw
      nodeExporterParsed := !nodeExporterJson.isNull
      nodeExporterPods
      exporterReady
      exporterDesired
      signals := signals jq captures.eventsTailRaw
      identitySignalSeen := (signals jq captures.eventsTailRaw).any
        (jq.test "Node password|hash does not match|authorization" "i")
      hostKeyProblem := hostKeyProblem jq captures }

/-- The printed report. -/
structure Report where
  expectedNodes : Rat
  expectedNodeExporter : Rat
  controlStderr : List (List Char)
  nodesApiOk : Bool
  nodes : List NodeSummary
  nodesReadyCount : Nat
  podsApiOk : Bool
  podsTotal : Nat
  nonRunning : List (PodLine (List Char))
  runningNotReady : List (PodLine (List Char))
  nodeExporterApiOk : Bool
  nodeExporterDesired : Json
  nodeExporterReady : Nat
  nodeExporterPods : List (PodLine Json)
  nodeChecks : List (List Char × Raw)
  signals : List (List Char)
  assessment : Assessment

/-- The second part of the jq filter: the report on what was read. -/
def Findings.report (captures : Captures) (findings : Findings) : Report where
  expectedNodes := findings.expectedNodes
  expectedNodeExporter := findings.expectedNodeExporter
  controlStderr := [captures.nodesRaw.stderr, captures.podsRaw.stderr,
    captures.nodeExporterRaw.stderr, captures.eventsTailRaw.stderr]
  nodesApiOk := findings.nodesOk && findings.nodesParsed
  nodes := findings.nodes
  nodesReadyCount := findings.nodes.countP fun node => node.ready.isString "True"
  podsApiOk := captures.podsRaw.ok
  podsTotal := findings.pods.length
  nonRunning := (findings.pods.filter PodRow.nonRunning).map fun row =>
    ⟨row.podNamespace, row.name, some row.phase, row.nodeName, none⟩
  runningNotReady := (findings.pods.filter PodRow.runningNotReady).map fun row =>
    ⟨row.podNamespace, row.name, none, row.nodeName, some (readiness row.states).text⟩
  nodeExporterApiOk := captures.nodeExporterRaw.ok && findings.nodeExporterParsed
  nodeExporterDesired := findings.exporterDesired
  nodeExporterReady := findings.exporterReady
  nodeExporterPods := findings.nodeExporterPods
  nodeChecks := captures.nodeChecks
  signals := findings.signals
  assessment := findings.assessment

/-- The whole script: the report it prints, if it prints one. -/
def collect (jqStarts : Captures → Bool) (settings : Settings) (replies : Replies) :
    Option Report :=
  let captures := capture replies
  if jqStarts captures then (findings jq settings captures).map (Findings.report captures)
  else none

end Filter

end HomeclusterInfra.Convergence
