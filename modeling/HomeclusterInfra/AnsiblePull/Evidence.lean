import HomeclusterInfra.AnsiblePull.Readers
import HomeclusterInfra.AnsiblePull.Trap

/-!
# What the files are evidence of

The file of a role says how the last run of the role ended that began to write it. A receipt is
that of this run, or it is older than the file of the role.
-/

set_option autoImplicit false

namespace HomeclusterInfra.AnsiblePull

open Text Shell Interruption Assignments

variable {run : Run} {outcome : Outcome} {station after : Station} {role : List Char} {kind : Kind}

/-! ## Names of files -/

/-- `.env` -/
def env : List Char :=
  ".env".toList

theorem stateFile_eq_iff (role given : List Char) :
    stateFile given = role ++ env ↔ safeName given = role :=
  List.append_left_inj env

def Kind.stem : Kind → List Char
  | .postPull => ".post-pull".toList
  | .execution => ".pinned-execution".toList

theorem Kind.ending_eq (kind : Kind) : kind.ending = kind.stem ++ env := by
  cases kind with
  | postPull => rfl
  | execution => rfl

theorem Kind.dot_mem_stem (kind : Kind) : '.' ∈ kind.stem := by
  cases kind with
  | postPull => exact List.mem_cons_self
  | execution => exact List.mem_cons_self

theorem file_ne_env (plain : '.' ∉ role) (given : List Char) : kind.file given ≠ role ++ env := by
  intro same
  rw [Kind.file, kind.ending_eq, ← List.append_assoc, List.append_left_inj] at same
  exact plain (same ▸ List.mem_append_right _ kind.dot_mem_stem)

theorem lastFile_ne_file (kind : Kind) (role : List Char) : lastFile ≠ role ++ kind.ending := by
  intro same
  have lengths := congrArg List.length same
  rw [List.length_append] at lengths
  have long : 14 ≤ kind.ending.length := by cases kind <;> decide
  have short : lastFile.length = 8 := rfl
  omega

theorem lastFile_ne_env (other : role ≠ "last".toList) : lastFile ≠ role ++ env := by
  intro same
  have split : lastFile = "last".toList ++ env := rfl
  rw [split, List.append_left_inj] at same
  exact other same.symm

/-- The stems end with different letters. -/
theorem Kind.getLast?_append_stem (kind : Kind) (name : List Char) :
    (name ++ kind.stem).getLast? = kind.stem.getLast? := by
  refine List.getLast?_append_of_ne_nil name (List.ne_nil_of_mem kind.dot_mem_stem)

theorem file_eq_iff {other : Kind} {given : List Char} :
    other.file given = role ++ kind.ending ↔ other = kind ∧ safeName given = role := by
  constructor
  · intro same
    rw [Kind.file, other.ending_eq, kind.ending_eq, ← List.append_assoc, ← List.append_assoc,
      List.append_left_inj] at same
    have lasts := congrArg List.getLast? same
    rw [other.getLast?_append_stem, kind.getLast?_append_stem] at lasts
    have sameKind : other = kind := by
      cases other <;> cases kind
      · rfl
      · exact absurd lasts (by decide)
      · exact absurd lasts (by decide)
      · rfl
    rw [sameKind] at same
    exact ⟨sameKind, (List.append_left_inj _).mp same⟩
  · rintro ⟨rfl, rfl⟩
    rfl

/-! ## The invariant -/

/-- A run writes the files of a role. -/
def isFor (role : List Char) (entry : Run × Outcome) : Bool :=
  safeName entry.1.role == role

/-- The last run of a role that began to write the file of the role. -/
def lastOf (role : List Char) (station : Station) : Option (Run × Outcome) :=
  (station.logged.filter (isFor role)).getLast?

/-- A receipt is that of the last run, or older than the file of the role. -/
structure IsReceiptBy (station : Station) (kind : Kind) (role : List Char) (file : File)
    (entry later : Run × Outcome) : Prop where
  logged : entry ∈ station.logged
  receipt : IsReceiptOf entry.1 entry.2 kind (some file)
  last : lastOf role station = some later
  order : later = entry ∨ kind.time entry.1 < later.1.statusTime

/-- What the files say. -/
structure Evidence (station : Station) : Prop where
  settled : ∀ entry ∈ station.logged, Settled entry.1 entry.2
  status : ∀ role file, '.' ∉ role → role ≠ "last".toList →
    station.files (role ++ env) = some file →
      ∃ entry, lastOf role station = some entry ∧ IsStatusOf entry.1 entry.2 file
  receipts : ∀ kind role file, station.files (role ++ kind.ending) = some file →
    (∃ entry : Run × Outcome, IsStatusOf entry.1 entry.2 file) ∨
      ∃ entry later, IsReceiptBy station kind role file entry later

/-- What the file says that all runs share. -/
structure SharedEvidence (station : Station) : Prop where
  settled : ∀ entry ∈ station.opened, Settled entry.1 entry.2
  last : ∀ file, station.files lastFile = some file →
    ∃ entry, station.opened.getLast? = some entry ∧ IsStatusOf entry.1 entry.2 file

theorem evidence_booted : Evidence booted := by
  refine ⟨fun _ member => absurd member List.not_mem_nil, fun _ _ _ _ found => ?_,
    fun _ _ _ found => ?_⟩
  · cases found
  · cases found

theorem sharedEvidence_booted : SharedEvidence booted := by
  refine ⟨fun _ member => absurd member List.not_mem_nil, fun _ found => ?_⟩
  cases found

/-! ## One run -/

theorem lastOf_own {entry : Run × Outcome} (logged : after.logged = station.logged ++ [entry])
    (own : safeName entry.1.role = role) : lastOf role after = some entry := by
  have isOwn : isFor role entry = true := beq_iff_eq.mpr own
  rw [lastOf, logged, List.filter_append, List.filter_cons_of_pos isOwn, List.filter_nil,
    List.getLast?_concat]

theorem lastOf_other {entry : Run × Outcome} (logged : after.logged = station.logged ++ [entry])
    (other : safeName entry.1.role ≠ role) : lastOf role after = lastOf role station := by
  have notOwn : ¬ isFor role entry = true := fun own => other (beq_iff_eq.mp own)
  rw [lastOf, logged, List.filter_append, List.filter_cons_of_neg notOwn, List.filter_nil,
    List.append_nil, lastOf]

theorem loggedBy_files_eq (station : Station) (file : File) :
    (loggedBy run outcome station file).files =
      Function.update (Function.update station.files lastFile (some (statusFile run outcome)))
        (stateFile run.role) (some file) :=
  rfl

/-- The file that all runs share. -/
theorem loggedBy_lastFile (station : Station) {file : File} (status : IsStatusOf run outcome file) :
    ∃ found, (loggedBy run outcome station file).files lastFile = some found ∧
      IsStatusOf run outcome found := by
  rw [loggedBy_files_eq]
  by_cases own : lastFile = stateFile run.role
  · rw [← own, Function.update_self]
    exact ⟨file, rfl, status⟩
  · rw [Function.update_of_ne own, Function.update_self]
    exact ⟨_, rfl, Or.inr rfl⟩

/-- The files before the receipts of a run. -/
theorem loggedBy_files (station : Station) (name : List Char) {file : File}
    (status : IsStatusOf run outcome file) :
    (loggedBy run outcome station file).files name = station.files name ∨
      (name = lastFile ∨ name = stateFile run.role) ∧
        ∃ found, (loggedBy run outcome station file).files name = some found ∧
          IsStatusOf run outcome found := by
  by_cases shared : name = lastFile
  · rw [shared]
    exact Or.inr ⟨Or.inl rfl, loggedBy_lastFile station status⟩
  · rw [loggedBy_files_eq]
    by_cases own : name = stateFile run.role
    · rw [own, Function.update_self]
      exact Or.inr ⟨Or.inr rfl, file, rfl, status⟩
    · rw [Function.update_of_ne own, Function.update_of_ne shared]
      exact Or.inl rfl

theorem Evidence.opened (evidence : Evidence station) (outcome : Outcome) (file : File) :
    Evidence (openedBy run outcome station file) := by
  have others : ∀ name, lastFile ≠ name →
      (openedBy run outcome station file).files name = station.files name :=
    fun name other => Function.update_of_ne (Ne.symm other) _ _
  refine ⟨evidence.settled, ?_, ?_⟩
  · intro role found plain other there
    rw [others _ (lastFile_ne_env other)] at there
    exact evidence.status role found plain other there
  · intro kind role found there
    rw [others _ (lastFile_ne_file kind role)] at there
    refine (evidence.receipts kind role found there).imp_right ?_
    rintro ⟨entry, later, by_run⟩
    exact ⟨entry, later, by_run.logged, by_run.receipt, by_run.last, by_run.order⟩

/-- What a run does to receipts is newer than all that was there. -/
def IsLater (station : Station) (run : Run) : Prop :=
  ∀ entry ∈ station.logged, ∀ kind : Kind, kind.time entry.1 < run.statusTime

theorem Evidence.logged {file : File} (evidence : Evidence station) (later : IsLater station run)
    (settled : Settled run outcome) (status : IsStatusOf run outcome file)
    (receipts : Receipts run outcome (loggedBy run outcome station file) after) :
    Evidence after := by
  have logged : after.logged = station.logged ++ [(run, outcome)] := receipts.logged
  refine ⟨?_, ?_, ?_⟩
  · rw [logged]
    exact List.forall_mem_append.mpr ⟨evidence.settled, List.forall_mem_singleton.mpr settled⟩
  · intro role found plain other there
    rcases receipts.files (role ++ env) with same | ⟨kind, own, -⟩
    · rw [same] at there
      by_cases own : safeName run.role = role
      · refine ⟨(run, outcome), lastOf_own logged own, ?_⟩
        rw [← (stateFile_eq_iff role run.role).mpr own] at there
        have put : (loggedBy run outcome station file).files (stateFile run.role) = some file :=
          Function.update_self _ _ _
        cases put.symm.trans there
        exact status
      · rw [lastOf_other logged own]
        rcases loggedBy_files station (role ++ env) status with before | ⟨which, -⟩
        · exact evidence.status role found plain other (before.symm.trans there)
        · rcases which with shared | mine
          · exact absurd shared.symm (lastFile_ne_env other)
          · exact absurd ((stateFile_eq_iff role run.role).mp mine.symm) own
    · exact absurd own.symm (file_ne_env plain _)
  · intro kind role found there
    rcases receipts.files (role ++ kind.ending) with same | ⟨other, own, receipt⟩
    · rw [same] at there
      rcases loggedBy_files station (role ++ kind.ending) status with before | ⟨-, _, put, isStatus⟩
      · rcases evidence.receipts kind role found (before.symm.trans there) with any | by_run
        · exact Or.inl any
        · obtain ⟨entry, last, made⟩ := by_run
          have member : entry ∈ after.logged := logged ▸ List.mem_append_left _ made.logged
          by_cases own : safeName run.role = role
          · exact Or.inr ⟨entry, (run, outcome), member, made.receipt, lastOf_own logged own,
              Or.inr (later entry made.logged kind)⟩
          · exact Or.inr ⟨entry, last, member, made.receipt,
              (lastOf_other logged own).trans made.last, made.order⟩
      · cases put.symm.trans there
        exact Or.inl ⟨(run, outcome), isStatus⟩
    · obtain ⟨rfl, name⟩ := file_eq_iff.mp own.symm
      rw [there] at receipt
      exact Or.inr ⟨(run, outcome), (run, outcome), logged ▸ List.mem_append_right _
        List.mem_cons_self, receipt, lastOf_own logged name, Or.inl rfl⟩

/-- **Every run keeps the invariant.** -/
theorem Evidence.leaves (evidence : Evidence station) (later : IsLater station run)
    (leaves : Leaves run station after) : Evidence after := by
  cases leaves with
  | nothing same => exact same ▸ evidence
  | @opened outcome file _ _ same => exact same ▸ evidence.opened outcome file
  | logged settled status receipts => exact evidence.logged later settled status receipts

/-- So it does with the file that all runs share, whatever the clock does. -/
theorem SharedEvidence.leaves (evidence : SharedEvidence station)
    (leaves : Leaves run station after) : SharedEvidence after := by
  cases leaves with
  | nothing same => exact same ▸ evidence
  | @opened outcome file settled status same =>
      have files : after.files = Function.update station.files lastFile (some file) := by
        rw [same]
        rfl
      have begun : after.opened = station.opened ++ [(run, outcome)] := by
        rw [same]
        rfl
      refine ⟨?_, fun found there => ⟨(run, outcome), begun ▸ List.getLast?_concat, ?_⟩⟩
      · rw [begun]
        exact List.forall_mem_append.mpr ⟨evidence.settled, List.forall_mem_singleton.mpr settled⟩
      · rw [files, Function.update_self] at there
        cases there
        exact status
  | @logged outcome file settled status receipts =>
      have begun : after.opened = station.opened ++ [(run, outcome)] := receipts.opened
      refine ⟨?_, fun found there => ⟨(run, outcome), begun ▸ List.getLast?_concat, ?_⟩⟩
      · rw [begun]
        exact List.forall_mem_append.mpr ⟨evidence.settled, List.forall_mem_singleton.mpr settled⟩
      · rcases receipts.files lastFile with same | ⟨kind, own, -⟩
        · obtain ⟨shared, put, isStatus⟩ := loggedBy_lastFile station status
          cases put.symm.trans (same.symm.trans there)
          exact isStatus
        · exact absurd own (lastFile_ne_file kind _)

/-- A run is noted where it begins to write. -/
theorem Leaves.logged_subset (leaves : Leaves run station after) :
    ∀ entry ∈ after.logged, entry ∈ station.logged ∨ entry.1 = run := by
  intro entry member
  cases leaves with
  | nothing same => exact Or.inl (same ▸ member)
  | opened _ _ same =>
      rw [same] at member
      exact Or.inl member
  | logged _ _ receipts =>
      rw [receipts.logged] at member
      rcases List.mem_append.mp member with before | last
      · exact Or.inl before
      · rw [List.mem_singleton.mp last]
        exact Or.inr rfl

/-! ## All runs -/

def Event.noted (runs : List Run) : Event → List Run
  | .boot => []
  | .run given _ => runs ++ [given]

/-- The runs since the last boot. -/
def sinceBoot (events : List Event) : List Run :=
  events.foldl Event.noted []

/-- The clock goes on: a run ends after the receipts of the earlier ones of the boot. -/
def Ordered (events : List Event) : Prop :=
  (sinceBoot events).Pairwise fun earlier later =>
    ∀ kind : Kind, kind.time earlier < later.statusTime

theorem afterAll_concat (events : List Event) (event : Event) :
    afterAll booted (events ++ [event]) = event.after (afterAll booted events) := by
  rw [afterAll, List.foldl_append]
  rfl

theorem sinceBoot_concat (events : List Event) (event : Event) :
    sinceBoot (events ++ [event]) = event.noted (sinceBoot events) := by
  rw [sinceBoot, List.foldl_append]
  rfl

/-- The runs that began to write are among the events. -/
theorem logged_subset (events : List Event) :
    ∀ entry ∈ (afterAll booted events).logged, entry.1 ∈ sinceBoot events := by
  induction events using List.reverseRecOn with
  | nil => exact fun _ member => absurd member List.not_mem_nil
  | append_singleton events event ih =>
      intro entry member
      rw [afterAll_concat] at member
      rw [sinceBoot_concat]
      cases event with
      | boot => cases member
      | run given faults =>
          rcases (always_wrapper given _ faults).logged_subset entry member with before | last
          · exact List.mem_append_left _ (ih entry before)
          · exact List.mem_append_right _ (List.mem_singleton.mpr last)

/-- **After any runs and boots the files are evidence.** -/
theorem evidence_afterAll (events : List Event) (ordered : Ordered events) :
    Evidence (afterAll booted events) := by
  induction events using List.reverseRecOn with
  | nil => exact evidence_booted
  | append_singleton events event ih =>
      rw [Ordered, sinceBoot_concat] at ordered
      rw [afterAll_concat]
      cases event with
      | boot => exact evidence_booted
      | run given faults =>
          rw [Event.noted, List.pairwise_append] at ordered
          refine (ih ordered.1).leaves (fun entry member => ?_) (always_wrapper given _ faults)
          exact ordered.2.2 entry.1 (logged_subset events entry member) given List.mem_cons_self

theorem sharedEvidence_afterAll (events : List Event) :
    SharedEvidence (afterAll booted events) := by
  induction events using List.reverseRecOn with
  | nil => exact sharedEvidence_booted
  | append_singleton events event ih =>
      rw [afterAll_concat]
      cases event with
      | boot => exact sharedEvidence_booted
      | run given faults => exact ih.leaves (always_wrapper given _ faults)

end HomeclusterInfra.AnsiblePull
