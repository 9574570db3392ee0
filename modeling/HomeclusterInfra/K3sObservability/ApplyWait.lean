import HomeclusterInfra.Library.Awk
import HomeclusterInfra.Library.Waiting

/-!
# Waiting for a settled cluster

`k3s-observability-apply-wait.sh` is run before Terraform applies anything. It waits
for the service, for the API server, for the nodes and for its own node, and at last for
a number of replies in a row that list no pod which is neither running nor done. Every
loop asks the clock after a round without success and gives up at one common deadline.

What a reply lists is counted by `awk`. The line of a pod has six fields, the third one
a ratio; another line makes the reply invalid. The shell captures the reply before it is
counted, so empty lines at its end are no lines any more, and a reply of nothing else is
taken for an empty one.

The matching of `awk` against a pattern is a parameter. It has no answer where the
pattern is malformed.
-/

set_option autoImplicit false

namespace HomeclusterInfra.K3sObservability.ApplyWait

open Text Shell Awk Waiting

/-- A line of text. -/
abbrev Line : Type :=
  {text : List Char // '\n' ∉ text ∧ '\x00' ∉ text}

structure Settings where
  timeoutSecs : Int
  expectedReadyNodes : Int
  podSettleEnabled : Bool
  podSettlePassCount : Nat
  namespaceIncludeRegex : List Char
  namespaceExcludeRegex : List Char

/-- What the script meets: whether there is a receipt, the clock whenever it is read, the
answers of each loop round by round, and the replies of the pods query. -/
structure World where
  doneMarker : Bool
  clock : Nat → Int
  serviceActive : Nat → Bool
  readyz : Nat → Bool
  nodes : Nat → List Char
  nodeReady : Nat → Bool
  pods : Nat → Option (List Line)

/-- A field of a record. -/
def field (number : Nat) (record : List Char) : List Char :=
  (fields record).getD (number - 1) []

/-! ## Nodes -/

/-- `ready_node_count` -/
def readyNodeCount (reply : List Char) : Nat :=
  (records reply).countP fun record => ['R', 'e', 'a', 'd', 'y'].isPrefixOf (field 2 record)

/-! ## Pods -/

def isDigits (text : List Char) : Bool :=
  !text.isEmpty && text.all Char.isDigit

/-- `/^[0-9]+\/[0-9]+$/` -/
def isRatio (text : List Char) : Bool :=
  match text.splitOn '/' with
  | [ready, total] => isDigits ready && isDigits total
  | _ => false

/-- The line of a pod. -/
def isPodLine (record : List Char) : Bool :=
  6 ≤ (fields record).length && isRatio (field 3 record)

variable (isMatch : List Char → List Char → Option Bool) (settings : Settings)

/-- Whether the pods of a namespace are counted. -/
def selects (namespaceName : List Char) : Option Bool :=
  let included : Option Bool :=
    if settings.namespaceIncludeRegex = [] then some true
    else isMatch settings.namespaceIncludeRegex namespaceName
  included.bind fun isIncluded =>
    if !isIncluded then some false
    else if settings.namespaceExcludeRegex = [] then some true
    else (isMatch settings.namespaceExcludeRegex namespaceName).map (!·)

/-- The variables of `awk`. -/
structure Tally where
  invalid : Bool
  count : Nat

/-- The rules of `awk` for one record. -/
def tallyRecord (tally : Tally) (record : List Char) : Option Tally :=
  if !isPodLine record then some { tally with invalid := true }
  else (selects isMatch settings (field 1 record)).map fun isSelected =>
    if isSelected then { tally with count := tally.count + 1 } else tally

/-- `non_running_pod_count` -/
def nonRunningPodCount (reply : Option (List Line)) : Option Nat :=
  reply.bind fun lines =>
    let podLines := captured (unlines (lines.map Subtype.val))
    if podLines = [] then some 0
    else
      ((records (podLines ++ ['\n'])).foldlM (tallyRecord isMatch settings) ⟨false, 0⟩).bind
        fun tally => if tally.invalid then none else some tally.count

/-! ## The script -/

variable (world : World)

/-- The conditions of the loops before the pods are asked. -/
def firstConditions : List (Nat → Bool) :=
  [world.serviceActive, world.readyz,
    fun round => settings.expectedReadyNodes ≤ readyNodeCount (world.nodes round),
    world.nodeReady]

def deadline : Int :=
  world.clock 0 + settings.timeoutSecs

/-- Whether a loop is late in a round, of which the first reads the clock for the given time. -/
def late (tick round : Nat) : Bool :=
  deadline settings world ≤ world.clock (tick + round)

/-- Loop after loop: whether all of them ended well, and how often the clock was read. -/
def waitAll (fuel : Nat) : List (Nat → Bool) → Nat → Option (Bool × Nat)
  | [], tick => some (true, tick)
  | ready :: conditions, tick =>
      match wait ready (late settings world tick) fuel 0 with
      | none => none
      | some (false, round) => some (false, tick + round + 1)
      | some (true, round) => waitAll fuel conditions (tick + round)

/-- Whether a reply raises the number of passes. -/
def passes (round : Nat) : Bool :=
  nonRunningPodCount isMatch settings (world.pods round) = some 0

/-- The exit status, and how many times the pods were asked for. -/
structure Outcome where
  status : Nat
  queries : Nat

def settlePods (fuel tick : Nat) : Option Outcome :=
  if settings.podSettleEnabled then
    (settle (passes isMatch settings world) (late settings world tick)
      settings.podSettlePassCount fuel 0 0).map fun ended =>
        ⟨if ended.1 then 0 else 1, ended.2 + 1⟩
  else some ⟨0, 0⟩

/-- `k3s-observability-apply-wait.sh`, with a bound on the rounds of each loop. -/
def applyWait (fuel : Nat) : Option Outcome :=
  if world.doneMarker then some ⟨0, 0⟩
  else
    match waitAll settings world fuel (firstConditions settings world) 1 with
    | none => none
    | some (false, _) => some ⟨1, 0⟩
    | some (true, tick) => settlePods isMatch settings world fuel tick

/-! ## What a reply has to be -/

/-- A pod line of a namespace that is not selected. -/
def CleanLine (record : List Char) : Prop :=
  isPodLine record = true ∧ selects isMatch settings (field 1 record) = some false

/-- The last replies, as many as it takes, list clean lines among the lines that count. -/
def CleanReplies (counted : List (List Char) → List (List Char)) (queries : Nat) : Prop :=
  settings.podSettlePassCount ≤ queries ∧
    ∀ query, queries - settings.podSettlePassCount ≤ query → query < queries →
      ∃ lines, world.pods query = some lines ∧
        ∀ line ∈ counted (lines.map Subtype.val), CleanLine isMatch settings line

/-- The script ends, and not well. -/
def EndsBadly : Prop :=
  ∃ enough, ∀ fuel ≥ enough, ∃ outcome, applyWait isMatch settings world fuel = some outcome ∧
    outcome.status ≠ 0

/-- A settled cluster is accepted on consecutive evidence only. A loop that meets the
deadline before it has what it waits for ends the script. -/
structure AcceptsOnEvidence (counted : List (List Char) → List (List Char)) : Prop where
  accepted : ∀ fuel outcome, applyWait isMatch settings world fuel = some outcome →
    outcome.status = 0 → CleanReplies isMatch settings world counted outcome.queries
  waitedLong : ∀ before ready after fuel tick round,
    firstConditions settings world = before ++ ready :: after →
    waitAll settings world fuel before 1 = some (true, tick) →
    (∀ between ≤ round, ready between = false) → late settings world tick round = true →
    EndsBadly isMatch settings world
  settledLong : ∀ fuel tick round,
    waitAll settings world fuel (firstConditions settings world) 1 = some (true, tick) →
    (∀ between ≤ round, ¬ CleanReplies isMatch settings world counted (between + 1)) →
    late settings world tick round = true → EndsBadly isMatch settings world

/-- The lines before the empty ones at the end. -/
def beforeBlanks (lines : List (List Char)) : List (List Char) :=
  rstripWhile List.isEmpty lines

/-! ## Counting -/

section Counting

variable {isMatch settings world}

theorem tallyRecord_clean_iff {tally after : Tally} {record : List Char}
    (counted : tallyRecord isMatch settings tally record = some after) :
    after.invalid = false ∧ after.count = 0 ↔
      (tally.invalid = false ∧ tally.count = 0) ∧ CleanLine isMatch settings record := by
  rw [tallyRecord] at counted
  split at counted
  next malformed =>
    cases counted
    rw [Bool.not_eq_true'] at malformed
    refine iff_of_false (fun clean => Bool.noConfusion clean.1) fun clean => ?_
    rw [clean.2.1] at malformed
    exact Bool.noConfusion malformed
  next wellFormed =>
    rw [Bool.not_eq_true', Bool.not_eq_false] at wellFormed
    obtain ⟨isSelected, selected, rfl⟩ := Option.map_eq_some_iff.mp counted
    cases isSelected with
    | true =>
        refine iff_of_false (fun clean => Nat.succ_ne_zero _ clean.2) fun clean => ?_
        rw [clean.2.2] at selected
        cases selected
    | false => exact ⟨fun clean => ⟨clean, wellFormed, selected⟩, And.left⟩

theorem tallyRecord_of_clean {record : List Char} (clean : CleanLine isMatch settings record)
    (tally : Tally) : tallyRecord isMatch settings tally record = some tally := by
  rw [tallyRecord, clean.1, if_neg (by decide), clean.2]
  rfl

/-- **A reply is counted as empty exactly if all its records are clean.** -/
theorem foldlM_tallyRecord_iff {lines : List (List Char)} {tally : Tally} :
    (∃ after, lines.foldlM (tallyRecord isMatch settings) tally = some after ∧
        after.invalid = false ∧ after.count = 0) ↔
      (tally.invalid = false ∧ tally.count = 0) ∧
        ∀ line ∈ lines, CleanLine isMatch settings line := by
  induction lines generalizing tally with
  | nil =>
      rw [List.foldlM_nil]
      constructor
      · rintro ⟨after, same, clean⟩
        cases same
        exact ⟨clean, List.forall_mem_nil _⟩
      · exact fun clean => ⟨tally, rfl, clean.1⟩
  | cons line lines ih =>
      rw [List.foldlM_cons, List.forall_mem_cons]
      constructor
      · rintro ⟨after, counted, clean⟩
        obtain ⟨next, first, others⟩ := Option.bind_eq_some_iff.mp counted
        have later := ih.mp ⟨after, others, clean⟩
        have here := (tallyRecord_clean_iff first).mp later.1
        exact ⟨here.1, here.2, later.2⟩
      · rintro ⟨clean, here, later⟩
        obtain ⟨after, others, empty⟩ := ih.mpr ⟨clean, later⟩
        refine ⟨after, Option.bind_eq_some_iff.mpr ⟨tally, ?_, others⟩, empty⟩
        exact tallyRecord_of_clean here tally

/-- What `awk` reads of a reply. -/
theorem records_captured {lines : List Line}
    (something : captured (unlines (lines.map Subtype.val)) ≠ []) :
    records (captured (unlines (lines.map Subtype.val)) ++ ['\n']) =
      beforeBlanks (lines.map Subtype.val) := by
  have plain : ∀ line ∈ lines.map Subtype.val, '\n' ∉ line ∧ '\x00' ∉ line := by
    rintro line member
    obtain ⟨own, -, rfl⟩ := List.mem_map.mp member
    exact own.2
  rw [(unlines_rstripWhile plain).2 something]
  refine records_unlines fun line member => (plain line ?_).1
  obtain ⟨blanks, whole, -⟩ := rstripWhile_append List.isEmpty (lines.map Subtype.val)
  rw [whole]
  exact List.mem_append_left _ member

/-- **No pod is counted exactly if the lines before the empty ones at the end are clean.** -/
theorem nonRunningPodCount_eq_zero_iff {reply : Option (List Line)} :
    nonRunningPodCount isMatch settings reply = some 0 ↔
      ∃ lines, reply = some lines ∧
        ∀ line ∈ beforeBlanks (lines.map Subtype.val), CleanLine isMatch settings line := by
  cases reply with
  | none => exact iff_of_false (fun failed => nomatch failed) fun ⟨_, failed, _⟩ => nomatch failed
  | some lines =>
      rw [nonRunningPodCount, Option.bind_some]
      have plain : ∀ line ∈ lines.map Subtype.val, '\n' ∉ line ∧ '\x00' ∉ line := by
        rintro line member
        obtain ⟨own, -, rfl⟩ := List.mem_map.mp member
        exact own.2
      by_cases empty : captured (unlines (lines.map Subtype.val)) = []
      · refine iff_of_true (if_pos empty) ⟨lines, rfl, ?_⟩
        rw [beforeBlanks, (unlines_rstripWhile plain).1.mp empty]
        exact List.forall_mem_nil _
      · simp only [if_neg empty]
        rw [records_captured empty, Option.bind_eq_some_iff]
        constructor
        · rintro ⟨tally, counted, result⟩
          split at result
          next => cases result
          next valid =>
            have clean := foldlM_tallyRecord_iff.mp
              ⟨tally, counted, Bool.eq_false_iff.mpr valid, Option.some.inj result⟩
            exact ⟨lines, rfl, clean.2⟩
        · rintro ⟨own, same, clean⟩
          cases same
          have start : (⟨false, 0⟩ : Tally).invalid = false ∧ (⟨false, 0⟩ : Tally).count = 0 :=
            ⟨rfl, rfl⟩
          obtain ⟨tally, counted, valid, zero⟩ := foldlM_tallyRecord_iff.mpr ⟨start, clean⟩
          refine ⟨tally, counted, ?_⟩
          rw [valid, zero]
          rfl

theorem passes_iff {round : Nat} :
    passes isMatch settings world round = true ↔
      ∃ lines, world.pods round = some lines ∧
        ∀ line ∈ beforeBlanks (lines.map Subtype.val), CleanLine isMatch settings line := by
  rw [passes, decide_eq_true_eq, nonRunningPodCount_eq_zero_iff]

end Counting

/-! ## The loops -/

section Loops

variable {isMatch settings world}

/-- Clean replies are a streak of passes. -/
theorem cleanReplies_iff {queries : Nat} :
    CleanReplies isMatch settings world beforeBlanks queries ↔
      settings.podSettlePassCount ≤ streak (passes isMatch settings world) queries := by
  rw [le_streak_iff, CleanReplies]
  simp only [passes_iff]

/-- The loops before the pods have the same outcome with more rounds allowed. -/
theorem waitAll_mono {fuel more tick : Nat} {conditions : List (Nat → Bool)} {ended : Bool × Nat}
    (within : fuel ≤ more) (done : waitAll settings world fuel conditions tick = some ended) :
    waitAll settings world more conditions tick = some ended := by
  induction conditions generalizing tick with
  | nil => exact done
  | cons ready conditions ih =>
      rw [waitAll] at done ⊢
      split at done
      next => cases done
      next waited =>
        rw [wait_mono within waited]
        exact done
      next waited =>
        rw [wait_mono within waited]
        exact ih done

/-- Loops that end well are followed by the next ones. -/
theorem waitAll_append {fuel tick later : Nat} {before after : List (Nat → Bool)}
    (done : waitAll settings world fuel before tick = some (true, later)) :
    waitAll settings world fuel (before ++ after) tick =
      waitAll settings world fuel after later := by
  induction before generalizing tick with
  | nil =>
      cases done
      rfl
  | cons ready before ih =>
      rw [waitAll] at done
      rw [List.cons_append, waitAll]
      split at done
      next => cases done
      next => cases done
      next => exact ih done

/-- **A loop that meets the deadline ends the script.** -/
theorem endsBadly_of_waited {before after : List (Nat → Bool)} {ready : Nat → Bool}
    {fuel tick round : Nat} (noReceipt : world.doneMarker = false)
    (order : firstConditions settings world = before ++ ready :: after)
    (done : waitAll settings world fuel before 1 = some (true, tick))
    (notReady : ∀ between ≤ round, ready between = false)
    (isLate : late settings world tick round = true) : EndsBadly isMatch settings world := by
  refine ⟨fuel + (round + 1), fun more within => ⟨⟨1, 0⟩, ?_, Nat.one_ne_zero⟩⟩
  obtain ⟨ended, waited⟩ := wait_of_late (Nat.zero_le round) isLate
    (fun between _ inside => notReady between inside) (by omega : round < 0 + more)
  have failed : waitAll settings world more (firstConditions settings world) 1 =
      some (false, tick + ended + 1) := by
    rw [order, waitAll_append (waitAll_mono (by omega) done), waitAll, waited]
  rw [applyWait, noReceipt, failed]
  rfl

/-- **Meeting the deadline without enough passes ends the script.** -/
theorem endsBadly_of_settling {fuel tick round : Nat} (noReceipt : world.doneMarker = false)
    (enabled : settings.podSettleEnabled = true)
    (done : waitAll settings world fuel (firstConditions settings world) 1 = some (true, tick))
    (short : ∀ between ≤ round, ¬ CleanReplies isMatch settings world beforeBlanks (between + 1))
    (isLate : late settings world tick round = true) : EndsBadly isMatch settings world := by
  refine ⟨fuel + (round + 1), fun more within => ?_⟩
  have tooShort : ∀ between, 0 ≤ between → between ≤ round →
      streak (passes isMatch settings world) (between + 1) < settings.podSettlePassCount := by
    intro between _ inside
    have notClean := short between inside
    rw [cleanReplies_iff] at notClean
    exact Nat.lt_of_not_le notClean
  have settled : ∃ ended, settle (passes isMatch settings world) (late settings world tick)
      settings.podSettlePassCount more 0 0 = some (false, ended) :=
    settle_of_late (Nat.zero_le round) isLate tooShort (by omega)
  obtain ⟨ended, settled⟩ := settled
  refine ⟨⟨1, ended + 1⟩, ?_, Nat.one_ne_zero⟩
  rw [applyWait, noReceipt, waitAll_mono (by omega) done]
  change settlePods isMatch settings world more tick = _
  rw [settlePods, if_pos enabled, settled]
  rfl

/-- **A script that ends well has seen clean replies.** -/
theorem cleanReplies_of_applyWait {fuel : Nat} {outcome : Outcome}
    (noReceipt : world.doneMarker = false) (enabled : settings.podSettleEnabled = true)
    (done : applyWait isMatch settings world fuel = some outcome) (well : outcome.status = 0) :
    CleanReplies isMatch settings world beforeBlanks outcome.queries := by
  rw [applyWait, noReceipt, if_neg Bool.false_ne_true] at done
  split at done
  next => cases done
  next =>
    cases done
    exact absurd well Nat.one_ne_zero
  next tick _ =>
    rw [settlePods, if_pos enabled, Option.map_eq_some_iff] at done
    obtain ⟨⟨settled, last⟩, looped, rfl⟩ := done
    cases settled with
    | false => exact absurd well Nat.one_ne_zero
    | true => exact cleanReplies_iff.mpr (streak_of_settle looped)

end Loops

/-- **A cluster is accepted on consecutive clean replies only**, where empty lines at the
end of a reply do not count. -/
theorem accepts_onEvidence (enabled : settings.podSettleEnabled = true)
    (noReceipt : world.doneMarker = false) :
    AcceptsOnEvidence isMatch settings world beforeBlanks where
  accepted _ _ done well := cleanReplies_of_applyWait noReceipt enabled done well
  waitedLong _ _ _ _ _ _ order done notReady isLate :=
    endsBadly_of_waited noReceipt order done notReady isLate
  settledLong _ _ _ done short isLate := endsBadly_of_settling noReceipt enabled done short isLate

/-! ## A cluster whose first replies are a failure and blank ones -/

def sampleSettings : Settings where
  timeoutSecs := 300
  expectedReadyNodes := 1
  podSettleEnabled := true
  podSettlePassCount := 1
  namespaceIncludeRegex := []
  namespaceExcludeRegex := []

def sampleWorld : World where
  doneMarker := false
  clock read := read
  serviceActive _ := true
  readyz _ := true
  nodes _ := ['n', ' ', 'R', 'e', 'a', 'd', 'y', '\n']
  nodeReady _ := true
  pods
    | 0 => none
    | _ => some [⟨[], by decide, by decide⟩]

/-- The second reply, a blank line, is accepted. -/
theorem accepts_onEvidence_sample :
    AcceptsOnEvidence (fun _ _ => some true) sampleSettings sampleWorld beforeBlanks ∧
      applyWait (fun _ _ => some true) sampleSettings sampleWorld 9 = some ⟨0, 2⟩ :=
  ⟨accepts_onEvidence _ sampleSettings sampleWorld rfl rfl, by rfl⟩

/-- A blank line is no pod line. -/
theorem not_acceptsOnEvidence_sample :
    ∃ isMatch settings world, settings.podSettleEnabled = true ∧ world.doneMarker = false ∧
      ¬ AcceptsOnEvidence isMatch settings world id := by
  refine ⟨fun _ _ => some true, sampleSettings, sampleWorld, rfl, rfl, fun evidence => ?_⟩
  obtain ⟨-, replies⟩ := evidence.accepted 9 ⟨0, 2⟩ (by rfl) rfl
  obtain ⟨lines, reply, clean⟩ := replies 1 (by decide) (by decide)
  cases reply
  exact Bool.noConfusion (clean [] List.mem_cons_self).1

end HomeclusterInfra.K3sObservability.ApplyWait
