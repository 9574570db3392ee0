import HomeclusterInfra.Library.Awk
import HomeclusterInfra.Library.Runs
import HomeclusterInfra.Library.Shell
import Mathlib.Logic.Function.Iterate

/-!
# The SSH host keys of a PXE node

`pxe-ssh-host-keys.sh` keeps the host key of a node in a store that outlives its root
filesystem, and installs it at each boot. A run may be killed at any point. The private
key and the public key come into the store by one rename each, and a public key that is
missing is written again from the private one.

A run is modelled as steps of one program, each of which does what cannot be
interrupted; what is written through a redirect or copied is written character by
character. A killed run is one that stops after some steps.

The private key in the store is never replaced. But a run that is killed while it
writes the public key leaves a part of it, and every later run takes that part for the
whole.
-/

set_option autoImplicit false

namespace HomeclusterInfra.GentooRootfs.SshHostKeys

open Text Shell Awk Runs

/-! ## The store directory -/

/-- `role_env_value` -/
def roleEnvValue (roleEnv key : List Char) : List Char :=
  match (records roleEnv).find? (beforeFirst '=' · = key) with
  | some record => record.drop ((beforeFirst '=' record).length + 1)
  | none => []

/-- `[A-Za-z0-9_.-]` -/
def isOverlayChar (char : Char) : Bool :=
  char.isAlphanum || ['_', '.', '-'].contains char

/-- Why a run ends before the keys. -/
inductive Refusal where
  | roleEnvNotFound
  | invalidOverlayId (overlayId : List Char)
  | storeRootNotMounted
deriving DecidableEq

/-- The `OVERLAY_ID` whose directory of the store the run uses. -/
def overlayIdOf (roleEnv : Option (List Char)) (storeMounted : Bool) :
    Except Refusal (List Char) :=
  match roleEnv with
  | none => .error .roleEnvNotFound
  | some roleEnv =>
      let overlayId := captured (roleEnvValue roleEnv "OVERLAY_ID".toList)
      if overlayId.isEmpty || !overlayId.all isOverlayChar then
        .error (.invalidOverlayId overlayId)
      else if !storeMounted then .error .storeRootNotMounted
      else .ok overlayId

/-! ## Files -/

/-- The key files of one type, in the store and installed. An empty text stands for a
file that is empty or missing. -/
structure Files where
  storeKey : List Char
  storePub : List Char
  localKey : List Char
  localPub : List Char
deriving DecidableEq

/-- What `ssh-keygen -t` writes, where `-y` prints `publicOf` of a private key. -/
structure KeyPair (publicOf : List Char → List Char) where
  key : List Char
  nonempty : key ≠ []

def KeyPair.pub {publicOf : List Char → List Char} (pair : KeyPair publicOf) : List Char :=
  publicOf pair.key

/-! ## The program -/

/-- Where a run is, and what it has still to write. -/
inductive Phase where
  | refused
  | testPub
  | recreatePub (rest : List Char)
  | testKey
  | generate
  | moveKey
  | movePub
  | installKey
  | copyKey (rest : List Char)
  | installPub
  | copyPub (rest : List Char)
  | certificates
  | finished
deriving DecidableEq

structure Running where
  phase : Phase
  files : Files
deriving DecidableEq

section Program

variable (publicOf : List Char → List Char) (pair : KeyPair publicOf)

/-- One step of a run that would generate the pair. -/
def step (running : Running) : Running :=
  let files := running.files
  match running.phase with
  | .testPub =>
      -- the redirect empties the file before `ssh-keygen -y` writes to it
      if !files.storeKey.isEmpty && files.storePub.isEmpty then
        ⟨.recreatePub (publicOf files.storeKey), { files with storePub := [] }⟩
      else ⟨.testKey, files⟩
  | .recreatePub (char :: rest) =>
      ⟨.recreatePub rest, { files with storePub := files.storePub ++ [char] }⟩
  | .recreatePub [] => ⟨.testKey, files⟩
  | .testKey => ⟨if files.storeKey.isEmpty then .generate else .installKey, files⟩
  | .generate => ⟨.moveKey, files⟩
  | .moveKey => ⟨.movePub, { files with storeKey := pair.key }⟩
  | .movePub => ⟨.installKey, { files with storePub := pair.pub }⟩
  | .installKey => ⟨.copyKey files.storeKey, { files with localKey := [] }⟩
  | .copyKey (char :: rest) =>
      ⟨.copyKey rest, { files with localKey := files.localKey ++ [char] }⟩
  | .copyKey [] => ⟨.installPub, files⟩
  | .installPub => ⟨.copyPub files.storePub, { files with localPub := [] }⟩
  | .copyPub (char :: rest) =>
      ⟨.copyPub rest, { files with localPub := files.localPub ++ [char] }⟩
  | .copyPub [] => ⟨.certificates, files⟩
  | .certificates => ⟨.finished, files⟩
  | .refused | .finished => running

/-- One run: what it reads, the pair it would generate, and the number of steps after
which it is killed, where it has not ended before. -/
structure Run where
  roleEnv : Option (List Char)
  storeMounted : Bool
  pair : KeyPair publicOf
  steps : Nat

variable {publicOf} (overlayId : List Char)

/-- A run for one overlay begins with its keys. A sequence of runs is for one overlay: a run that
is told another one writes to other files, and counts as refused. -/
def Run.start (run : Run publicOf) : Phase :=
  if overlayIdOf run.roleEnv run.storeMounted = .ok overlayId then .testPub else .refused

/-- What a run leaves. -/
def Run.outcome (run : Run publicOf) (files : Files) : Running :=
  (step publicOf run.pair)^[run.steps] ⟨run.start overlayId, files⟩

def advance (files : Files) (run : Run publicOf) : Files :=
  (run.outcome overlayId files).files

end Program

/-! ## Along a run -/

section Along

variable {publicOf : List Char → List Char}

/-- The public key that a run finds in the store, or writes there. -/
def settledPub (publicOf : List Char → List Char) (files : Files) : List Char :=
  if files.storePub = [] then publicOf files.storeKey else files.storePub

/-- The key pair that is in the store when a run installs it. -/
def settled (pair : KeyPair publicOf) (files : Files) : List Char × List Char :=
  if files.storeKey = [] then (pair.key, pair.pub)
  else (files.storeKey, settledPub publicOf files)

/-- What a run has done with the files it began with. -/
def Along (pair : KeyPair publicOf) (before : Files) (running : Running) : Prop :=
  let files := running.files
  match running.phase with
  | .refused | .testPub => files = before
  | .recreatePub rest => before.storeKey ≠ [] ∧ before.storePub = [] ∧
      files.storeKey = before.storeKey ∧ files.storePub ++ rest = publicOf before.storeKey
  | .testKey => files.storeKey = before.storeKey ∧
      (before.storeKey ≠ [] → files.storePub = settledPub publicOf before) ∧
      (before.storeKey = [] → files.storePub = before.storePub)
  | .generate | .moveKey => before.storeKey = [] ∧ files.storeKey = [] ∧
      files.storePub = before.storePub
  | .movePub => before.storeKey = [] ∧ files.storeKey = pair.key ∧
      files.storePub = before.storePub
  | .installKey => (files.storeKey, files.storePub) = settled pair before
  | .copyKey rest => (files.storeKey, files.storePub) = settled pair before ∧
      files.localKey ++ rest = files.storeKey
  | .installPub => (files.storeKey, files.storePub) = settled pair before ∧
      files.localKey = files.storeKey
  | .copyPub rest => (files.storeKey, files.storePub) = settled pair before ∧
      files.localKey = files.storeKey ∧ files.localPub ++ rest = files.storePub
  | .certificates | .finished => (files.storeKey, files.storePub) = settled pair before ∧
      files.localKey = files.storeKey ∧ files.localPub = files.storePub

variable {pair : KeyPair publicOf} {before : Files} {running : Running}

theorem settledPub_of_ne (present : before.storePub ≠ []) :
    settledPub publicOf before = before.storePub :=
  if_neg present

theorem settled_of_fresh (fresh : before.storeKey = []) : settled pair before = (pair.key, pair.pub) :=
  if_pos fresh

theorem settled_of_stored (stored : before.storeKey ≠ []) :
    settled pair before = (before.storeKey, settledPub publicOf before) :=
  if_neg stored

theorem Along.testPub {files : Files} (along : Along pair before ⟨.testPub, files⟩) :
    Along pair before (step publicOf pair ⟨.testPub, files⟩) := by
  obtain rfl : files = before := along
  by_cases missing : files.storeKey ≠ [] ∧ files.storePub = []
  · have taken : (!files.storeKey.isEmpty && files.storePub.isEmpty) = true := by simpa using missing
    rw [step]
    dsimp only
    rw [if_pos taken]
    exact ⟨missing.1, missing.2, rfl, List.nil_append _⟩
  · have passed : ¬(!files.storeKey.isEmpty && files.storePub.isEmpty) = true := by
      simpa using missing
    rw [step]
    dsimp only
    rw [if_neg passed]
    exact ⟨rfl, fun stored => (settledPub_of_ne fun absent => missing ⟨stored, absent⟩).symm,
      fun _ => rfl⟩

theorem Along.recreatePub {files : Files} {rest : List Char}
    (along : Along pair before ⟨.recreatePub rest, files⟩) :
    Along pair before (step publicOf pair ⟨.recreatePub rest, files⟩) := by
  obtain ⟨stored, missing, key, written⟩ := along
  cases rest with
  | nil =>
      refine ⟨key, fun _ => ?_, fun fresh => absurd fresh stored⟩
      rw [List.append_nil] at written
      exact written.trans (if_pos missing).symm
  | cons char rest =>
      refine ⟨stored, missing, key, ?_⟩
      show (files.storePub ++ [char]) ++ rest = _
      rw [List.append_assoc]
      exact written

theorem Along.testKey {files : Files} (along : Along pair before ⟨.testKey, files⟩) :
    Along pair before (step publicOf pair ⟨.testKey, files⟩) := by
  obtain ⟨key, pub, pubFresh⟩ := along
  by_cases fresh : files.storeKey = []
  · have taken : files.storeKey.isEmpty = true := List.isEmpty_iff.mpr fresh
    rw [step]
    dsimp only
    rw [if_pos taken]
    exact ⟨key.symm.trans fresh, fresh, pubFresh (key.symm.trans fresh)⟩
  · have passed : ¬files.storeKey.isEmpty = true := mt List.isEmpty_iff.mp fresh
    have stored : before.storeKey ≠ [] := key ▸ fresh
    rw [step]
    dsimp only
    rw [if_neg passed]
    show (files.storeKey, files.storePub) = settled pair before
    rw [settled_of_stored stored, key, pub stored]

theorem Along.copyKey {files : Files} {rest : List Char}
    (along : Along pair before ⟨.copyKey rest, files⟩) :
    Along pair before (step publicOf pair ⟨.copyKey rest, files⟩) := by
  obtain ⟨store, written⟩ := along
  cases rest with
  | nil =>
      rw [List.append_nil] at written
      exact ⟨store, written⟩
  | cons char rest =>
      refine ⟨store, ?_⟩
      show (files.localKey ++ [char]) ++ rest = _
      rw [List.append_assoc]
      exact written

theorem Along.copyPub {files : Files} {rest : List Char}
    (along : Along pair before ⟨.copyPub rest, files⟩) :
    Along pair before (step publicOf pair ⟨.copyPub rest, files⟩) := by
  obtain ⟨store, key, written⟩ := along
  cases rest with
  | nil =>
      rw [List.append_nil] at written
      exact ⟨store, key, written⟩
  | cons char rest =>
      refine ⟨store, key, ?_⟩
      show (files.localPub ++ [char]) ++ rest = _
      rw [List.append_assoc]
      exact written

/-- One step. -/
theorem Along.step (along : Along pair before running) :
    Along pair before (step publicOf pair running) := by
  obtain ⟨phase, files⟩ := running
  cases phase with
  | refused => exact along
  | testPub => exact along.testPub
  | recreatePub rest => exact along.recreatePub
  | testKey => exact along.testKey
  | generate => exact along
  | moveKey => exact ⟨along.1, rfl, along.2.2⟩
  | movePub =>
      show (files.storeKey, pair.pub) = settled pair before
      rw [settled_of_fresh along.1, along.2.1]
  | installKey => exact ⟨along, rfl⟩
  | copyKey rest => exact along.copyKey
  | installPub => exact ⟨along.1, along.2, rfl⟩
  | copyPub rest => exact along.copyPub
  | certificates => exact along
  | finished => exact along

/-- **After any number of steps.** -/
theorem along_iterate (steps : Nat) (along : Along pair before running) :
    Along pair before ((step publicOf pair)^[steps] running) := by
  induction steps with
  | zero => exact along
  | succ steps ih =>
      rw [Function.iterate_succ_apply']
      exact ih.step

/-- A stored key stays. -/
theorem Along.storeKey (along : Along pair before running) (stored : before.storeKey ≠ []) :
    running.files.storeKey = before.storeKey := by
  obtain ⟨phase, files⟩ := running
  have key : (settled pair before).1 = before.storeKey := by rw [settled_of_stored stored]
  cases phase with
  | refused => exact congrArg Files.storeKey along
  | testPub => exact congrArg Files.storeKey along
  | recreatePub rest => exact along.2.2.1
  | testKey => exact along.1
  | generate => exact absurd along.1 stored
  | moveKey => exact absurd along.1 stored
  | movePub => exact absurd along.1 stored
  | installKey => exact (congrArg Prod.fst along).trans key
  | copyKey rest => exact (congrArg Prod.fst along.1).trans key
  | installPub => exact (congrArg Prod.fst along.1).trans key
  | copyPub rest => exact (congrArg Prod.fst along.1).trans key
  | certificates => exact (congrArg Prod.fst along.1).trans key
  | finished => exact (congrArg Prod.fst along.1).trans key

theorem Along.finished (along : Along pair before running) (ends : running.phase = .finished) :
    (running.files.storeKey, running.files.storePub) = settled pair before ∧
      running.files.localKey = running.files.storeKey ∧
      running.files.localPub = running.files.storePub := by
  obtain ⟨phase, files⟩ := running
  obtain rfl : phase = .finished := ends
  exact along

/-- A public key in the store is the one of the private key there. -/
def Whole (publicOf : List Char → List Char) (files : Files) : Prop :=
  files.storePub ≠ [] → files.storeKey ≠ [] ∧ files.storePub = publicOf files.storeKey

/-- What is settled is whole. -/
theorem whole_of_settled {files : Files} (whole : Whole publicOf before)
    (store : (files.storeKey, files.storePub) = settled pair before) : Whole publicOf files := by
  intro _
  by_cases fresh : before.storeKey = []
  · rw [settled_of_fresh fresh, Prod.mk.injEq] at store
    rw [store.1, store.2]
    exact ⟨pair.nonempty, rfl⟩
  · rw [settled_of_stored fresh, Prod.mk.injEq] at store
    rw [store.1, store.2]
    refine ⟨fresh, ?_⟩
    by_cases missing : before.storePub = []
    · exact if_pos missing
    · rw [settledPub_of_ne missing]
      exact (whole missing).2

/-- **Only where the public key is being written, the store is not whole.** -/
theorem Along.whole (along : Along pair before running) (whole : Whole publicOf before) :
    Whole publicOf running.files ∨ ∃ char rest, running.phase = .recreatePub (char :: rest) ∧
      running.files.storePub ≠ [] := by
  obtain ⟨phase, files⟩ := running
  have unchanged : files.storeKey = before.storeKey → files.storePub = before.storePub →
      Whole publicOf files := by
    intro key pub
    rw [Whole, key, pub]
    exact whole
  have notFresh : before.storeKey = [] → before.storePub = [] :=
    fun fresh => not_not.mp fun present => (whole present).1 fresh
  cases phase with
  | refused => exact Or.inl (unchanged (congrArg _ along) (congrArg _ along))
  | testPub => exact Or.inl (unchanged (congrArg _ along) (congrArg _ along))
  | recreatePub rest =>
      obtain ⟨stored, missing, key, written⟩ := along
      cases rest with
      | nil =>
          rw [List.append_nil] at written
          exact Or.inl fun _ => ⟨key ▸ stored, key ▸ written⟩
      | cons char rest =>
          by_cases nothing : files.storePub = []
          · exact Or.inl fun present => absurd nothing present
          · exact Or.inr ⟨char, rest, rfl, nothing⟩
  | testKey =>
      obtain ⟨key, pub, pubFresh⟩ := along
      by_cases fresh : before.storeKey = []
      · exact Or.inl (unchanged key (pubFresh fresh))
      · refine Or.inl (@whole_of_settled publicOf pair before files whole ?_)
        rw [settled_of_stored fresh, key, pub fresh]
  | generate => exact Or.inl (unchanged (along.2.1.trans along.1.symm) along.2.2)
  | moveKey => exact Or.inl (unchanged (along.2.1.trans along.1.symm) along.2.2)
  | movePub =>
      exact Or.inl fun present => absurd (along.2.2.trans (notFresh along.1)) present
  | installKey => exact Or.inl (whole_of_settled whole along)
  | copyKey rest => exact Or.inl (whole_of_settled whole along.1)
  | installPub => exact Or.inl (whole_of_settled whole along.1)
  | copyPub rest => exact Or.inl (whole_of_settled whole along.1)
  | certificates => exact Or.inl (whole_of_settled whole along.1)
  | finished => exact Or.inl (whole_of_settled whole along.1)

end Along

/-! ## Sequences of runs -/

section Sequences

variable {publicOf : List Char → List Char} {overlayId : List Char}

/-- A run that reaches its end. -/
def Run.Ends (overlayId : List Char) (files : Files) (run : Run publicOf) : Prop :=
  (run.outcome overlayId files).phase = .finished

instance (overlayId : List Char) (files : Files) (run : Run publicOf) :
    Decidable (run.Ends overlayId files) :=
  inferInstanceAs (Decidable (_ = _))

/-- What a run shall do: it keeps the private key that is stored, and when it reaches its
end it has installed that key and the public key that belongs to it. -/
def KeepsIdentity (overlayId : List Char) (files : Files) (run : Run publicOf) : Prop :=
  let after := advance overlayId files run
  (files.storeKey ≠ [] → after.storeKey = files.storeKey) ∧
    (run.Ends overlayId files → after.storeKey ≠ [] ∧ after.localKey = after.storeKey ∧
      after.localPub = publicOf after.storeKey)

/-- There is a public key in the store that is not the one of the private key there. -/
def Torn (publicOf : List Char → List Char) (files : Files) : Prop :=
  files.storeKey ≠ [] ∧ files.storePub ≠ [] ∧ files.storePub ≠ publicOf files.storeKey

/-- A run that reaches its end does not begin with a torn public key. -/
def BeginsWhole (overlayId : List Char) (files : Files) (run : Run publicOf) : Prop :=
  run.Ends overlayId files → ¬Torn publicOf files

/-- A run is killed after the redirect of `ssh-keygen -y` has written something, and
before it has written everything. -/
def KilledWriting (overlayId : List Char) (files : Files) (run : Run publicOf) : Prop :=
  ∃ char rest, (run.outcome overlayId files).phase = .recreatePub (char :: rest) ∧
    (advance overlayId files run).storePub ≠ []

variable {files : Files} {run : Run publicOf}

theorem along_outcome : Along run.pair files (run.outcome overlayId files) := by
  apply along_iterate
  rw [Run.start]
  split
  next => exact rfl
  next => exact rfl

/-- **The private key in the store stays.** -/
theorem storeKey_kept (stored : files.storeKey ≠ []) :
    (advance overlayId files run).storeKey = files.storeKey :=
  along_outcome.storeKey stored

/-- What a run that reaches its end has installed. -/
theorem installed_of_ends (ends : run.Ends overlayId files) :
    let after := advance overlayId files run
    (after.storeKey, after.storePub) = settled run.pair files ∧
      after.localKey = after.storeKey ∧ after.localPub = after.storePub :=
  along_outcome.finished ends

/-- **One run keeps the identity exactly if it does not end with what a torn public key
led to.** -/
theorem keepsIdentity_iff :
    KeepsIdentity overlayId files run ↔ BeginsWhole overlayId files run := by
  constructor
  · rintro ⟨-, installs⟩ ends ⟨stored, present, different⟩
    obtain ⟨store, -, pub⟩ := installed_of_ends ends
    obtain ⟨-, -, belongs⟩ := installs ends
    rw [settled_of_stored stored, settledPub_of_ne present] at store
    have key := congrArg Prod.fst store
    have kept := congrArg Prod.snd store
    dsimp only at key kept
    rw [pub, kept, key] at belongs
    exact different belongs
  · intro whole
    refine ⟨storeKey_kept, fun ends => ?_⟩
    obtain ⟨store, key, pub⟩ := installed_of_ends ends
    have notTorn := whole ends
    rw [key, pub]
    by_cases fresh : files.storeKey = []
    · rw [settled_of_fresh fresh, Prod.mk.injEq] at store
      rw [store.1, store.2]
      exact ⟨run.pair.nonempty, rfl, rfl⟩
    · rw [settled_of_stored fresh, Prod.mk.injEq] at store
      rw [store.1, store.2]
      refine ⟨fresh, rfl, ?_⟩
      by_cases missing : files.storePub = []
      · exact if_pos missing
      · rw [settledPub_of_ne missing]
        exact not_not.mp fun different => notTorn ⟨fresh, missing, different⟩

theorem whole_advance (whole : Whole publicOf files)
    (spared : ¬KilledWriting overlayId files run) : Whole publicOf (advance overlayId files run) :=
  (along_outcome.whole whole).resolve_right spared

theorem not_torn_of_whole (whole : Whole publicOf files) : ¬Torn publicOf files :=
  fun torn => torn.2.2 (whole torn.2.1).2

/-- A store without keys. -/
def noKeys (localKey localPub : List Char) : Files :=
  ⟨[], [], localKey, localPub⟩

/-- **A node keeps its identity over a sequence of runs exactly if no run that reaches its
end begins with a torn public key**, and it does so where no run is killed while it writes
the public key. -/
theorem sshIdentity_kept_iff (overlayId localKey localPub : List Char) (runs : List (Run publicOf)) :
    (EachStep (advance overlayId) (KeepsIdentity overlayId) (noKeys localKey localPub) runs ↔
        EachStep (advance overlayId) (BeginsWhole overlayId) (noKeys localKey localPub) runs) ∧
      (EachStep (advance overlayId) (fun files run => ¬KilledWriting overlayId files run)
          (noKeys localKey localPub) runs →
        EachStep (advance overlayId) (KeepsIdentity overlayId) (noKeys localKey localPub) runs) := by
  constructor
  · refine eachStep_congr (fun _ => True) (fun _ _ _ _ => trivial)
      (fun _ _ _ _ => keepsIdentity_iff) trivial (eachStep_of_forall (fun _ _ => trivial) runs _)
  · intro spared
    have start : Whole publicOf (noKeys localKey localPub) := fun present => absurd rfl present
    refine (eachStep_congr (Whole publicOf) (fun _ _ => whole_advance) (fun files run whole _ => ?_)
      start spared).mpr (eachStep_of_forall (fun _ _ => trivial) runs _)
    exact iff_true_intro (keepsIdentity_iff.mpr fun _ => not_torn_of_whole whole)

end Sequences

/-- The first run is killed between the two renames, the second while it writes the
public key, and the third reaches its end. -/
theorem sshIdentity_not_kept :
    ∃ runs : List (Run ("pub ".toList ++ ·)),
      ¬EachStep (advance "pi".toList) (KeepsIdentity "pi".toList) (noKeys [] []) runs := by
  let pair : KeyPair ("pub ".toList ++ ·) := ⟨"k".toList, by decide⟩
  let run (steps : Nat) : Run ("pub ".toList ++ ·) :=
    ⟨some "OVERLAY_ID=pi\n".toList, true, pair, steps⟩
  refine ⟨[run 4, run 2, run 30], ?_⟩
  rintro ⟨-, -, ⟨-, installs⟩, -⟩
  exact absurd (installs (by decide +kernel)).2.2 (by decide +kernel)

end HomeclusterInfra.GentooRootfs.SshHostKeys
