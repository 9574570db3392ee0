import HomeclusterInfra.AnsiblePull.Wrapper

/-!
# What a run leaves

Wherever a run is interrupted, it has left the files alone, or it has emptied or written the file
that all runs share, or also that of its role. Only then are receipts of the role removed, and
written again where the run came to its end and was verified.
-/

set_option autoImplicit false

namespace HomeclusterInfra.AnsiblePull

open Text Shell Interruption Assignments

variable {run : Run} {outcome : Outcome} {branch : List Char} {station : Station}

/-! ## The body -/

section Quiet

variable {α β : Type} {holds : α → Prop}

/-- Nothing is written, and a script that stops does not stop with success. -/
def Ends (holds : α → Prop) (station : Station) : Ended Stopped α → Station → Prop
  | .returned value, after => after = station ∧ holds value
  | .raised stopped, after => after = station ∧ stopped.rc ≠ 0
  | .killed, after => after = station

/-- What holds of the value of a script that writes nothing. -/
def Finds (script : Script α) (holds : α → Prop) : Prop :=
  ∀ station, Always script (Ends holds station) station

/-- A script that writes nothing. -/
def Quiet (script : Script α) : Prop :=
  Finds script fun _ => True

theorem finds_pure {value : α} (found : holds value) : Finds (pure value) holds :=
  fun _ => always_pure ⟨rfl, found⟩

theorem finds_raise {stopped : Stopped} (failed : stopped.rc ≠ 0) :
    Finds (raise stopped) holds :=
  fun _ => always_raise ⟨rfl, failed⟩

theorem quiet_command (run : Run) (branch : List Char) (step : String) :
    Quiet (command run branch step) :=
  fun _ => always_change ⟨rfl, run.failureCode_pos.ne'⟩ rfl ⟨rfl, trivial⟩

theorem finds_bind_of {first : Script α} {next : α → Script β} {middle : α → Prop}
    {holds : β → Prop} (one : Finds first middle)
    (two : ∀ value, middle value → Finds (next value) holds) : Finds (first >>= next) holds := by
  intro station
  refine always_bind_of (one station) (fun value after kept => ?_) (fun _ _ kept => kept)
    fun _ kept => kept
  rw [kept.1]
  exact two value kept.2 station

/-- A quiet part before another one. -/
theorem Quiet.bind {first : Script α} {next : α → Script β} {holds : β → Prop}
    (quiet : Quiet first) (goes : ∀ value, Finds (next value) holds) :
    Finds (first >>= next) holds :=
  finds_bind_of quiet fun value _ => goes value

theorem finds_demand {condition : Bool} {stopped : Stopped} (failed : stopped.rc ≠ 0) :
    Finds (demand condition stopped) fun _ => condition = true :=
  fun _ => always_demand (fun accepted => ⟨rfl, accepted⟩) fun _ => ⟨rfl, failed⟩

theorem Finds.quiet {script : Script α} (finds : Finds script holds) : Quiet script := by
  refine fun station => always_mono (finds station) fun ended after kept => ?_
  cases ended with
  | returned value => exact ⟨kept.1, trivial⟩
  | raised => exact kept
  | killed => exact kept

theorem quiet_pure (value : α) : Quiet (pure value : Script α) :=
  finds_pure trivial

theorem quiet_demand {condition : Bool} {stopped : Stopped} (failed : stopped.rc ≠ 0) :
    Quiet (demand condition stopped) :=
  (finds_demand failed).quiet

theorem quiet_tolerated (run : Run) (branch : List Char) : Quiet (tolerated run branch) := by
  intro station
  refine always_catching (always_mono (quiet_command run branch "" station) ?_)
  intro ended after kept
  cases ended with
  | returned => exact kept
  | raised => exact always_pure ⟨kept.1, trivial⟩
  | killed => exact kept

end Quiet

theorem quiet_cleanup : Quiet (cleanupOldGalaxyRoles run branch) := by
  rw [cleanupOldGalaxyRoles]
  split
  next => exact quiet_command _ _ _
  next => exact quiet_pure _

theorem quiet_fetchPin : Quiet (fetchPin run branch) := by
  have fetches : Quiet (do
      command run branch "git_fetch_pin"
      cleanupOldGalaxyRoles run branch
      command run branch "git_reset_pin"
      demand run.fetchedClean ⟨2, "git_reset_pin", branch⟩
      command run branch "git_reset_pin"
      pure "git_reset_pin" : Script String) :=
    (quiet_command _ _ _).bind fun _ => quiet_cleanup.bind fun _ => (quiet_command _ _ _).bind
      fun _ => (quiet_demand (Nat.succ_ne_zero 1)).bind fun _ => (quiet_command _ _ _).bind
        fun _ => quiet_pure _
  rw [fetchPin]
  split
  next => exact quiet_pure _
  next =>
    refine (quiet_command _ _ _).bind fun _ => ?_
    split
    next => exact fetches
    next => exact (quiet_command _ _ _).bind fun _ => fetches

theorem quiet_fetchBranch : Quiet (fetchBranch run branch) := by
  rw [fetchBranch]
  split
  next =>
    exact (quiet_command _ _ _).bind fun _ => quiet_cleanup.bind fun _ =>
      (quiet_command _ _ _).bind fun _ => quiet_pure _
  next => exact (quiet_command _ _ _).bind fun _ => quiet_pure _

theorem quiet_installGalaxy (pinned : Bool) : Quiet (installGalaxy run branch pinned) := by
  refine (quiet_command _ _ _).bind fun _ => (quiet_command _ _ _).bind fun _ => ?_
  split
  next =>
    exact (quiet_demand (Nat.succ_ne_zero 0)).bind fun _ =>
      (quiet_demand (Nat.succ_ne_zero 0)).bind fun _ => quiet_command _ _ _
  next => exact quiet_pure _

theorem finds_verifySourcePin (pinned : Bool) (pin : Pin) :
    Finds (verifySourcePin run branch pinned pin) fun _ =>
      pinned = true → captured run.headBefore = pin.revision := by
  refine finds_bind_of (finds_demand (Nat.succ_ne_zero 1)) fun _ holds => ?_
  rw [Bool.or_eq_true, beq_iff_eq, Bool.not_eq_true'] at holds
  split
  next isPinned =>
    have same := holds.resolve_left (by rw [isPinned]; exact Bool.noConfusion)
    refine (quiet_command _ _ _).bind fun _ => fun station => ?_
    exact always_change ⟨rfl, run.failureCode_pos.ne'⟩ rfl ⟨rfl, fun _ => same⟩
  next notPinned => exact finds_pure fun isPinned => absurd isPinned notPinned

theorem quiet_fetch (pinned : Bool) : Quiet (fetch run branch pinned) := by
  rw [fetch]
  split
  next => exact quiet_fetchPin
  next => exact quiet_fetchBranch

theorem quiet_install (pinned : Bool) : Quiet (install run branch pinned) := by
  rw [install]
  split
  next => exact quiet_installGalaxy pinned
  next => exact quiet_pure _

/-- What a run has found out before it came to its end. -/
structure Verified (run : Run) (completed : Completed) : Prop where
  branch : resolveBranch run.stage run.branch run.allowedBranches = .ok completed.branch
  pin : ∃ output, run.pinOutput = some output ∧ completed.sourcePin = captured output ∧
    readPin run.sourceMode (captured output) = some completed.pin
  head : run.pinned = true → captured run.headBefore = completed.pin.revision

/-- **A run that came to its end was verified.** -/
theorem finds_body (run : Run) : Finds (body run) (Verified run) := by
  rw [body]
  split
  next => exact finds_raise (Nat.succ_ne_zero 0)
  next branch resolved =>
    refine (quiet_command _ _ _).bind fun _ => ?_
    split
    next => exact finds_raise run.failureCode_pos.ne'
    next output printed =>
      split
      next => exact finds_raise (Nat.succ_ne_zero 1)
      next pin taken =>
        refine (quiet_demand (Nat.succ_ne_zero 0)).bind fun _ => (quiet_command _ _ _).bind
          fun _ => (quiet_command _ _ _).bind fun _ => (quiet_tolerated _ _).bind fun _ =>
            (quiet_command _ _ _).bind fun _ => (quiet_fetch _).bind fun step =>
              (quiet_command _ _ _).bind fun _ => (quiet_install _).bind fun _ => ?_
        exact finds_bind_of (finds_verifySourcePin _ pin) fun _ head =>
          (quiet_command _ _ _).bind fun _ =>
            finds_pure ⟨resolved, ⟨output, printed, rfl, taken⟩, head⟩

/-- How a run can end. -/
inductive Settled (run : Run) (outcome : Outcome) : Prop
  | completed {completed : Completed} (verified : Verified run completed)
      (same : outcome = ⟨0, "complete", completed.branch, some completed⟩)
  | stopped (failed : outcome.rc ≠ 0) (none_found : outcome.completed = none)

theorem finds_settle (run : Run) : Finds (settle run) (Settled run) := by
  have completes : Finds (do
      let completed ← body run
      pure ⟨0, "complete", completed.branch, some completed⟩) (Settled run) :=
    finds_bind_of (finds_body run) fun _ verified => finds_pure (.completed verified rfl)
  refine fun station => always_catching (always_mono (completes station) fun ended after kept => ?_)
  cases ended with
  | returned => exact kept
  | raised stopped => exact always_pure ⟨kept.1, .stopped kept.2 rfl⟩
  | killed => exact kept

/-! ## The state of a run -/

/-- The file that says how a run ended. -/
def statusFile (run : Run) (outcome : Outcome) : File :=
  ⟨print (statusEntries run outcome), run.statusTime⟩

/-- A file that was emptied, and perhaps written. -/
def IsStatusOf (run : Run) (outcome : Outcome) (file : File) : Prop :=
  file.text = [] ∨ file = statusFile run outcome

/-- The file that all runs share was begun. -/
def openedBy (run : Run) (outcome : Outcome) (station : Station) (file : File) : Station :=
  { station.put lastFile file with opened := station.opened ++ [(run, outcome)] }

/-- So was the file of the role. -/
def loggedBy (run : Run) (outcome : Outcome) (station : Station) (file : File) : Station :=
  { (openedBy run outcome station (statusFile run outcome)).put (stateFile run.role) file with
    logged := station.logged ++ [(run, outcome)] }

theorem openedBy_put (run : Run) (outcome : Outcome) (station : Station) (file other : File) :
    (openedBy run outcome station file).put lastFile other =
      openedBy run outcome station other := by
  rw [openedBy, openedBy, Station.put, Station.put, Station.put, Directory.put, Directory.put,
    Function.update_idem]
  rfl

theorem loggedBy_put (run : Run) (outcome : Outcome) (station : Station) (file other : File) :
    (loggedBy run outcome station file).put (stateFile run.role) other =
      loggedBy run outcome station other := by
  rw [loggedBy, loggedBy, Station.put, Station.put, Station.put, Directory.put, Directory.put,
    Function.update_idem]
  rfl

/-- What `log_state` has done. -/
inductive Logs (run : Run) (outcome : Outcome) (station after : Station) : Prop
  | nothing (same : after = station)
  | opened {file : File} (status : IsStatusOf run outcome file)
      (same : after = openedBy run outcome station file)
  | logged {file : File} (status : IsStatusOf run outcome file)
      (same : after = loggedBy run outcome station file)

theorem always_logState (run : Run) (outcome : Outcome) (station : Station) :
    Always (logState run outcome) (fun ended after => Logs run outcome station after ∧
      (ended = .returned () → after = loggedBy run outcome station (statusFile run outcome)))
      station := by
  have start : Logs run outcome station station := .nothing rfl
  have emptied : Logs run outcome station (openedBy run outcome station ⟨[], run.statusTime⟩) :=
    .opened (Or.inl rfl) rfl
  have opened : Logs run outcome station (openedBy run outcome station (statusFile run outcome)) :=
    .opened (Or.inr rfl) rfl
  have unlogged : Logs run outcome station (loggedBy run outcome station ⟨[], run.statusTime⟩) :=
    .logged (Or.inl rfl) rfl
  have logged : Logs run outcome station (loggedBy run outcome station (statusFile run outcome)) :=
    .logged (Or.inr rfl) rfl
  refine always_change_bind ⟨start, of_raised_eq⟩ ⟨start, of_killed_eq⟩ ?_
  refine always_change_bind ⟨start, of_raised_eq⟩ ⟨start, of_killed_eq⟩ ?_
  refine always_change_bind ⟨emptied, of_raised_eq⟩ ⟨emptied, of_killed_eq⟩ ?_
  show Always _ _ ((openedBy run outcome station ⟨[], run.statusTime⟩).put lastFile
    (statusFile run outcome))
  rw [openedBy_put]
  refine always_change_bind ⟨opened, of_raised_eq⟩ ⟨opened, of_killed_eq⟩ ?_
  refine always_change ⟨unlogged, of_raised_eq⟩ ⟨unlogged, of_killed_eq⟩ ?_
  have both := loggedBy_put run outcome station ⟨[], run.statusTime⟩ (statusFile run outcome)
  exact ⟨both.symm ▸ logged, fun _ => both⟩

/-! ## Receipts -/

/-- The two receipts of a run. -/
inductive Kind where
  | postPull
  | execution
deriving DecidableEq

namespace Kind

def ending : Kind → List Char
  | .postPull => ".post-pull.env".toList
  | .execution => ".pinned-execution.env".toList

def file (kind : Kind) (role : List Char) : List Char :=
  safeName role ++ kind.ending

def time : Kind → Run → Rat
  | .postPull => Run.postPullTime
  | .execution => Run.executionTime

/-- The lines of a receipt, where one is written. -/
def entries (run : Run) (outcome : Outcome) : Kind → Option (List Entry)
  | .postPull =>
      if observesCheckout run outcome then some (postPullEntries run outcome) else none
  | .execution =>
      outcome.completed.bind fun completed =>
        if executesPin run outcome completed then
          some (executionEntries run outcome completed.pin)
        else none

end Kind

/-- What a run may leave in the place of a receipt: nothing, or some of its lines. -/
def IsReceiptOf (run : Run) (outcome : Outcome) (kind : Kind) : Option File → Prop
  | none => True
  | some file => ∃ entries written, kind.entries run outcome = some entries ∧
      written.Sublist entries ∧ file = ⟨print written, kind.time run⟩

/-- Only the receipts of the role are changed. -/
structure Receipts (run : Run) (outcome : Outcome) (station after : Station) : Prop where
  opened : after.opened = station.opened
  logged : after.logged = station.logged
  files : ∀ name, after.files name = station.files name ∨
    ∃ kind : Kind, name = kind.file run.role ∧ IsReceiptOf run outcome kind (after.files name)

theorem Receipts.refl (run : Run) (outcome : Outcome) (station : Station) :
    Receipts run outcome station station :=
  ⟨rfl, rfl, fun _ => Or.inl rfl⟩

/-- One of the receipts is changed. -/
theorem Receipts.update {middle after : Station} (kind : Kind)
    (receipts : Receipts run outcome station middle) (opened : after.opened = middle.opened)
    (logged : after.logged = middle.logged) {content : Option File}
    (files : after.files = Function.update middle.files (kind.file run.role) content)
    (receipt : IsReceiptOf run outcome kind content) : Receipts run outcome station after := by
  refine ⟨opened.trans receipts.opened, logged.trans receipts.logged, fun name => ?_⟩
  rw [files]
  by_cases own : name = kind.file run.role
  · right
    rw [own, Function.update_self]
    exact ⟨kind, rfl, receipt⟩
  · rw [Function.update_of_ne own]
    exact receipts.files name

theorem keeps_inTrap {invariant : Station → Prop} {act : Station → Station}
    (kept : ∀ station, invariant station → invariant (act station)) :
    Keeps invariant (inTrap outcome act) :=
  keeps_catching (keeps_bind (keeps_change kept) fun _ => keeps_pure _) fun _ => keeps_pure _

theorem keeps_remove (kind : Kind) : Keeps (Receipts run outcome station)
    (inTrap outcome fun station => station.remove (kind.file run.role)) :=
  keeps_inTrap fun _ receipts => receipts.update kind rfl rfl rfl trivial

theorem quiet_inTrap : Quiet (inTrap outcome id) := by
  intro station
  have failed : (⟨1, outcome.step, outcome.branch⟩ : Stopped).rc ≠ 0 := Nat.succ_ne_zero 0
  have acts : Quiet (do
      change ⟨1, outcome.step, outcome.branch⟩ id
      pure true : Script Bool) := by
    refine Quiet.bind (fun station => ?_) fun _ => quiet_pure true
    exact always_change ⟨rfl, failed⟩ rfl ⟨rfl, trivial⟩
  refine always_catching (always_mono (acts station) fun ended after kept => ?_)
  cases ended with
  | returned => exact kept
  | raised => exact always_pure ⟨kept.1, trivial⟩
  | killed => exact kept

theorem finds_writeLines (entries : List Entry) (status : Bool) :
    Finds (writeLines outcome entries status) fun result => result.1.Sublist entries := by
  induction entries generalizing status with
  | nil => exact finds_pure (List.Sublist.refl [])
  | cons entry entries ih =>
      refine quiet_inTrap.bind fun ok => finds_bind_of (ih ok) fun result sublist => ?_
      refine finds_pure ?_
      cases ok with
      | true => exact sublist.cons_cons entry
      | false => exact sublist.cons entry

/-- Some of the lines are put into place, or none. -/
theorem keeps_writeReceipt (kind : Kind) {entries : List Entry}
    (writes : kind.entries run outcome = some entries) :
    Keeps (Receipts run outcome station)
      (writeReceipt outcome (kind.file run.role) entries (kind.time run)) := by
  refine keeps_bind (keeps_inTrap fun _ receipts => receipts) fun opened => ?_
  split
  next =>
    intro middle receipts
    refine always_bind_of (finds_writeLines entries true middle) (fun result after found => ?_)
      (fun _ _ kept => kept.1 ▸ receipts) fun _ kept => kept ▸ receipts
    obtain ⟨rfl, sublist⟩ := found
    split
    next =>
      have moves : Keeps (Receipts run outcome station) (inTrap outcome fun station =>
          station.put (kind.file run.role) ⟨print result.1, kind.time run⟩) :=
        keeps_inTrap fun _ receipts => receipts.update kind rfl rfl rfl
          ⟨entries, result.1, writes, sublist, rfl⟩
      exact keeps_bind moves (fun _ => keeps_pure ()) _ receipts
    next => exact always_pure receipts
  next => exact keeps_pure ()

theorem keeps_recordPostPullIdentity :
    Keeps (Receipts run outcome station) (recordPostPullIdentity run outcome) := by
  refine keeps_bind (keeps_remove .postPull) fun removed => ?_
  split
  next both =>
    rw [Bool.and_eq_true] at both
    exact keeps_writeReceipt .postPull (if_pos both.2)
  next => exact keeps_pure ()

theorem keeps_recordPinnedExecutionIdentity :
    Keeps (Receipts run outcome station) (recordPinnedExecutionIdentity run outcome) := by
  refine keeps_bind (keeps_remove .execution) fun removed => ?_
  split
  next => exact keeps_pure ()
  next completed found =>
    split
    next both =>
      rw [Bool.and_eq_true] at both
      refine keeps_writeReceipt .execution ?_
      rw [Kind.entries, found, Option.bind_some, if_pos both.2]
    next => exact keeps_pure ()

/-! ## The whole run -/

/-- What a run can do to the files. -/
inductive Leaves (run : Run) (station after : Station) : Prop
  | nothing (same : after = station)
  | opened {outcome : Outcome} {file : File} (settled : Settled run outcome)
      (status : IsStatusOf run outcome file) (same : after = openedBy run outcome station file)
  | logged {outcome : Outcome} {file : File} (settled : Settled run outcome)
      (status : IsStatusOf run outcome file)
      (receipts : Receipts run outcome (loggedBy run outcome station file) after)

theorem Logs.leaves {after : Station} (settled : Settled run outcome)
    (logs : Logs run outcome station after) : Leaves run station after := by
  cases logs with
  | nothing same => exact .nothing same
  | opened status same => exact .opened settled status same
  | logged status same => exact .logged settled status (same ▸ Receipts.refl run outcome _)

/-- **What a run leaves, wherever it is interrupted.** -/
theorem always_wrapper (run : Run) (station : Station) :
    Always (wrapper run) (fun _ after => Leaves run station after) station := by
  rw [wrapper]
  split
  next => exact always_raise (.nothing rfl)
  next =>
    split
    next => exact always_pure (.nothing rfl)
    next =>
      refine always_bind_of (finds_settle run station) (fun outcome after found => ?_)
        (fun _ _ kept => .nothing kept.1) fun _ kept => .nothing kept
      obtain ⟨rfl, settled⟩ := found
      refine always_bind_of (always_logState run outcome after) (fun _ middle logs => ?_)
        (fun _ _ logs => logs.1.leaves settled) fun _ logs => logs.1.leaves settled
      have start := Receipts.refl run outcome (loggedBy run outcome after (statusFile run outcome))
      rw [logs.2 rfl]
      refine always_mono (keeps_bind keeps_recordPostPullIdentity (fun _ =>
        keeps_recordPinnedExecutionIdentity) _ start) fun _ last receipts => ?_
      exact .logged settled (Or.inr rfl) receipts

end HomeclusterInfra.AnsiblePull
