import HomeclusterInfra.Library.Checked
import HomeclusterInfra.Library.PrintedPaths
import Mathlib.Data.Char
import Mathlib.Data.List.Dedup
import Mathlib.Data.List.Lex
import Mathlib.Data.List.Sort

/-!
# The revision of the generation gate

`pi-rpi5-common-kernel-gate` accepts a generation for a later commit than the one
it was built from when only files changed between the two that do not shape a
generation. It reads the changed paths from the text of `git diff --name-only`.

Git is given by what it documents. `merge-base --is-ancestor` exits with zero only
for an ancestor. `diff --name-only` prints the paths that differ, one to a line
and quoted where a byte is unusual, except that it prints a detected rename by the
new path only. Which pairs of paths it takes for renames is left open.
-/

set_option autoImplicit false

namespace HomeclusterInfra.KernelBuild

open Text Checked

/-! ## Git -/

/-- A path of a tree. -/
structure GitPath where
  bytes : List UInt8
  nonempty : bytes ≠ []

theorem GitPath.bytes_injective : Function.Injective GitPath.bytes := by
  intro first second same
  cases first
  cases second
  obtain rfl := same
  rfl

instance : DecidableEq GitPath := fun _ _ =>
  decidable_of_iff _ GitPath.bytes_injective.eq_iff

/-- The characters of a path, one for each byte. -/
def GitPath.text (path : GitPath) : List Char :=
  plainPath path.bytes

/-- A commit as a map from paths to contents. -/
abbrev Tree (Content : Type) := GitPath → Option Content

/-- What `git diff --name-only` tells of two trees. -/
structure NameOnly {Content : Type} (older newer : Tree Content) where
  /-- The detected renames, the old path and the new one of each. -/
  renames : List (GitPath × GitPath)
  listed : List GitPath
  isRename : ∀ rename ∈ renames, (older rename.1).isSome ∧ newer rename.1 = none ∧
    older rename.2 = none ∧ (newer rename.2).isSome
  mem_listed : ∀ path, path ∈ listed ↔
    older path ≠ newer path ∧ ∀ rename ∈ renames, rename.1 ≠ path

def NameOnly.stdout {Content : Type} {older newer : Tree Content} (diff : NameOnly older newer) :
    List Char :=
  unlines (diff.listed.map fun path => printedPath path.bytes)

/-- `subprocess.CompletedProcess` -/
structure Completed where
  returncode : Int
  stdout : List Char

/-- A repository and the answers of git there, none where the command cannot be
run or takes too long. -/
structure Git (Content : Type) where
  tree : List Char → Tree Content
  isAncestor : List Char → List Char → Prop
  nameOnly : ∀ older newer, NameOnly (tree older) (tree newer)
  /-- `git merge-base --is-ancestor` -/
  mergeBase : List Char → List Char → Option Completed
  /-- `git diff --name-only` -/
  diff : List Char → List Char → Option Completed
  ancestor_of_zero : ∀ older newer completed, mergeBase older newer = some completed →
    completed.returncode = 0 → isAncestor older newer
  stdout_of_zero : ∀ older newer completed, diff older newer = some completed →
    completed.returncode = 0 → completed.stdout = (nameOnly older newer).stdout

/-! ## The gate -/

/-- `NON_GENERATION_PATHS` -/
def nonGenerationPaths : List (List Char) :=
  [".agents/skills/homecluster-convergence-monitor/scripts/collect-k3s-convergence.sh",
    ".agents/skills/homecluster-convergence-monitor/scripts/test-collect-k3s-convergence.sh",
    ".github/workflows/static-check.yml",
    "ansible/openwrt/playbooks/rpi5-common-kernel-gate.yml",
    "ansible/openwrt/playbooks/rpi5-common-kernel-precheck.yml",
    "ansible/openwrt/playbooks/rpi5-common-kernel-rollout.yml",
    "docs/troubleshooting/k3s-status-ssh-stderr-json-contamination.md",
    "scripts/ci/check-k3s-status-collector-contract.sh",
    "scripts/ci/check-pxe-initramfs-contract.py",
    "scripts/pi-rpi5-common-kernel-gate",
    "scripts/pi-rpi5-common-kernel-precheck",
    "scripts/pi-rpi5-common-kernel-rollout",
    "scripts/pi_rpi5_common_kernel_test_legacy.py",
    "scripts/test_pi_rpi5_common_kernel.py",
    "scripts/test_pi_rpi5_common_kernel_non_generation_paths.py",
    "scripts/test_pi_rpi5_common_kernel_rollout_health.py",
    "scripts/test_pi_rpi5_common_kernel_rollout_selector_resolution.py"].map String.toList

/-- `COMMIT.fullmatch` -/
def isCommit (text : List Char) : Bool :=
  text.length == 40 &&
    text.all fun char => char.isDigit || (97 ≤ char.toNat && char.toNat ≤ 102)

structure GateError where
  reason : String
  status : String
  diagnostics : List (List Char)
deriving DecidableEq

/-- `GateError(reason, status, diagnostics)` -/
def gateError (reason status : String) (diagnostics : List (List Char)) : GateError :=
  ⟨reason, status, (diagnostics.map (List.take 300)).take 20⟩

/-- `run` -/
def run (answer : Option Completed) : Except GateError Completed :=
  match answer with
  | none => .error (gateError "generation_gate_execution_failed" "unknown" [])
  | some completed => .ok completed

/-- `git` -/
def git (answer : Option Completed) : Except GateError (List Char) := do
  let completed ← run answer
  require (completed.returncode == 0) (gateError "infra_git_state_unavailable" "unknown" [])
  pure (strip completed.stdout)

/-- `sorted(set(changed) - NON_GENERATION_PATHS)` -/
def disallowedPaths (changed : List (List Char)) : List (List Char) :=
  (changed.filter (· ∉ nonGenerationPaths)).dedup.insertionSort (· ≤ ·)

/-- `validate_gate_revision` -/
def validateGateRevision {Content : Type} (repository : Git Content)
    (generation validation : List Char) : Except GateError (List (List Char)) :=
  if !isCommit generation || !isCommit validation then
    .error (gateError "generation_gate_revision_invalid" "unknown" [])
  else if generation = validation then .ok []
  else do
    let ancestor ← run (repository.mergeBase generation validation)
    require (ancestor.returncode == 0)
      (gateError "generation_gate_revision_not_descendant" "blocked" [])
    let changed := strippedLines (← git (repository.diff generation validation))
    require (disallowedPaths changed).isEmpty
      (gateError "generation_source_changed_since_observer" "blocked"
        (((disallowedPaths changed).take 10).map fun path => "disallowed_path=".toList ++ path))
    pure changed

/-! ## What is accepted -/

section Acceptance

variable {Content : Type} {repository : Git Content} {generation validation : List Char}

/-- The two names are those of different commits, and git answers that the one is
an ancestor of the other and what differs. -/
structure Git.Compares (repository : Git Content) (generation validation : List Char) : Prop where
  isGeneration : isCommit generation = true
  isValidation : isCommit validation = true
  apart : generation ≠ validation
  ancestor : ∃ completed, repository.mergeBase generation validation = some completed ∧
    completed.returncode = 0
  diff : ∃ completed, repository.diff generation validation = some completed ∧
    completed.returncode = 0

/-- A path that cannot pass for one of the set: it is printed in quotes, or
something is left of it without the blanks at its ends and is not in the set. -/
def Refused (path : GitPath) : Prop :=
  path.bytes.any isUnusual = true ∨
    (strip path.text ≠ [] ∧ strip path.text ∉ nonGenerationPaths)

/-- A listed path is refused, or the list hides nothing: the old paths of the
renames are in the set and no listed path has blanks at its ends. -/
def Git.Shown (repository : Git Content) (generation validation : List Char) : Prop :=
  (∃ path ∈ (repository.nameOnly generation validation).listed, Refused path) ∨
    (∀ rename ∈ (repository.nameOnly generation validation).renames,
      rename.1.text ∈ nonGenerationPaths) ∧
    ∀ path ∈ (repository.nameOnly generation validation).listed, strip path.text = path.text

theorem isEmpty_disallowedPaths {changed : List (List Char)} :
    (disallowedPaths changed).isEmpty = true ↔ ∀ path ∈ changed, path ∈ nonGenerationPaths := by
  unfold disallowedPaths
  rw [List.isEmpty_iff, List.eq_nil_iff_forall_not_mem]
  simp only [List.mem_insertionSort, List.mem_dedup, List.mem_filter, decide_eq_true_eq, not_and,
    not_not]

theorem run_eq_ok {answer : Option Completed} {completed : Completed} :
    run answer = .ok completed ↔ answer = some completed := by
  cases answer <;> simp [run]

theorem git_eq_ok {answer : Option Completed} {output : List Char} :
    git answer = .ok output ↔ ∃ completed, answer = some completed ∧ completed.returncode = 0 ∧
      strip completed.stdout = output := by
  unfold git
  simp only [bind_eq_ok, run_eq_ok, require_eq_ok, exists_const, beq_iff_eq,
    pure_eq_ok]

/-- The lines that are read are the printed paths without the blanks at their ends. -/
theorem strippedLines_stdout {older newer : Tree Content} (diff : NameOnly older newer) :
    strippedLines (strip diff.stdout) =
      shown (diff.listed.map fun path => printedPath path.bytes) := by
  refine strippedLines_strip_unlines ?_
  rw [List.forall_mem_map]
  exact fun path _ => printedPath_notLineBreak path.bytes

/-- What the gate accepts, of different commits. -/
theorem validateGateRevision_eq_ok (apart : generation ≠ validation) {changed : List (List Char)} :
    validateGateRevision repository generation validation = .ok changed ↔
      repository.Compares generation validation ∧
        changed = shown ((repository.nameOnly generation validation).listed.map fun path =>
          printedPath path.bytes) ∧
        ∀ path ∈ changed, path ∈ nonGenerationPaths := by
  unfold validateGateRevision
  rw [if_neg apart]
  constructor
  · intro accepted
    split at accepted
    next invalid => cases accepted
    next valid =>
      rw [Bool.or_eq_true, not_or, Bool.not_eq_true', Bool.not_eq_true', Bool.not_eq_false,
        Bool.not_eq_false] at valid
      simp only [bind_eq_ok, run_eq_ok, require_eq_ok, exists_const, beq_iff_eq,
        pure_eq_ok, git_eq_ok, isEmpty_disallowedPaths] at accepted
      obtain ⟨based, isBased, baseZero, _, ⟨differs, isDiffers, diffZero, rfl⟩, allowed, rfl⟩ :=
        accepted
      rw [repository.stdout_of_zero _ _ _ isDiffers diffZero, strippedLines_stdout] at allowed ⊢
      exact ⟨⟨valid.1, valid.2, apart, ⟨based, isBased, baseZero⟩, differs, isDiffers, diffZero⟩,
        rfl, allowed⟩
  · rintro ⟨⟨isGeneration, isValidation, _, ⟨based, isBased, baseZero⟩, differs, isDiffers,
      diffZero⟩, rfl, allowed⟩
    rw [if_neg (by rw [isGeneration, isValidation]; exact Bool.false_ne_true)]
    simp only [bind_eq_ok, run_eq_ok, require_eq_ok, exists_const, beq_iff_eq,
      pure_eq_ok, git_eq_ok, isEmpty_disallowedPaths]
    have same := strippedLines_stdout (repository.nameOnly generation validation)
    rw [← repository.stdout_of_zero _ _ _ isDiffers diffZero] at same
    rw [← same] at allowed ⊢
    exact ⟨based, isBased, baseZero, _, ⟨differs, isDiffers, diffZero, rfl⟩, allowed, rfl⟩

/-! ## The allowed paths -/

/-- An allowed path is not empty, does not begin with a quotation mark and has no
blank in it. -/
def isSolid (path : List Char) : Bool :=
  !path.isEmpty && path.head? != some '"' && path.all fun char => !isSpace char

theorem isSolid_of_allowed {path : List Char} (allowed : path ∈ nonGenerationPaths) :
    isSolid path = true := by
  suffices solid : nonGenerationPaths.all isSolid = true from List.all_eq_true.mp solid path allowed
  unfold nonGenerationPaths
  simp only [List.map_cons, List.map_nil, List.all_cons, List.all_nil, Bool.and_true,
    Bool.and_eq_true]
  refine ⟨?_, ?_, ?_, ?_, ?_, ?_, ?_, ?_, ?_, ?_, ?_, ?_, ?_, ?_, ?_, ?_, ?_⟩
  all_goals exact @toList_literal (fun path => isSolid path = true) _ _ rfl (by decide +kernel)

/-- What is left of a path in quotation marks is not an allowed path. -/
theorem strip_refused_of_unusual {path : GitPath} (unusual : path.bytes.any isUnusual = true) :
    strip (printedPath path.bytes) ≠ [] ∧
      strip (printedPath path.bytes) ∉ nonGenerationPaths := by
  obtain ⟨rest, quoted⟩ := strip_printedPath_of_unusual unusual
  rw [quoted]
  refine ⟨List.cons_ne_nil _ _, fun allowed => ?_⟩
  have solid := isSolid_of_allowed allowed
  simp [isSolid] at solid

/-- An allowed path has no blanks at its ends. -/
theorem strip_of_allowed {path : List Char} (allowed : path ∈ nonGenerationPaths) :
    strip path = path := by
  have solid := isSolid_of_allowed allowed
  simp only [isSolid, Bool.and_eq_true, Bool.not_eq_true', List.all_eq_true] at solid
  exact strip_of_solid solid.2

/-- **The gate lets a listed path pass if and only if it is not refused.** -/
theorem passes_iff {path : GitPath} : ¬Refused path ↔
    (path.bytes.any isUnusual = false ∧
      (strip path.text = [] ∨ strip path.text ∈ nonGenerationPaths)) := by
  rw [Refused, not_or, Bool.not_eq_true, not_and_or, not_not, not_not]

theorem shown_allowed_iff {listed : List GitPath} :
    (∀ line ∈ shown (listed.map fun path => printedPath path.bytes), line ∈ nonGenerationPaths) ↔
      ∀ path ∈ listed, ¬Refused path := by
  rw [shown, List.forall_mem_map]
  simp only [List.mem_filter, List.mem_map, Bool.not_eq_true', List.isEmpty_eq_false_iff]
  constructor
  · intro allowed path member refused
    have visible := allowed (printedPath path.bytes)
    by_cases unusual : path.bytes.any isUnusual = true
    · obtain ⟨some, outside⟩ := strip_refused_of_unusual unusual
      exact outside (visible ⟨⟨path, member, rfl⟩, some⟩)
    · obtain ⟨some, outside⟩ := refused.resolve_left unusual
      rw [printedPath_of_usual (Bool.eq_false_of_not_eq_true unusual)] at visible
      exact outside (visible ⟨⟨path, member, printedPath_of_usual
        (Bool.eq_false_of_not_eq_true unusual)⟩, some⟩)
  · rintro pass _ ⟨⟨path, member, rfl⟩, some⟩
    obtain ⟨usual, blank | allowed⟩ := passes_iff.mp (pass path member)
    · rw [printedPath_of_usual usual] at some
      exact absurd blank some
    · rw [printedPath_of_usual usual]
      exact allowed

/-! ## What shaped a generation -/

/-- **The gate accepts a newer commit only where nothing changed outside the set,
exactly when the list of changed paths shows it**: some listed path is refused, or
no rename leaves a path outside the set and no listed path has blanks at its ends. -/
theorem gateRevision_sound_iff (repository : Git Content) (generation validation : List Char) :
    (∀ changed, validateGateRevision repository generation validation = .ok changed →
      generation ≠ validation →
        repository.isAncestor generation validation ∧
          ∀ path, repository.tree generation path ≠ repository.tree validation path →
            path.text ∈ nonGenerationPaths) ↔
      (repository.Compares generation validation → repository.Shown generation validation) := by
  constructor
  · intro sound compares
    rcases Classical.em (∃ path ∈ (repository.nameOnly generation validation).listed,
      Refused path) with refused | pass
    · exact .inl refused
    · have passes : ∀ path ∈ (repository.nameOnly generation validation).listed, ¬Refused path :=
        fun path member refused => pass ⟨path, member, refused⟩
      obtain ⟨_, inside⟩ := sound _ ((validateGateRevision_eq_ok compares.apart).mpr
        ⟨compares, rfl, shown_allowed_iff.mpr passes⟩) compares.apart
      refine .inr ⟨fun rename member => inside _ ?_, fun path member => ?_⟩
      · obtain ⟨was, gone, _⟩ := (repository.nameOnly generation validation).isRename rename member
        intro same
        rw [same, gone] at was
        exact Bool.false_ne_true was
      · exact strip_of_allowed (inside path
          (((repository.nameOnly generation validation).mem_listed path).mp member).1)
  · intro shows changed accepted apart
    obtain ⟨compares, rfl, allowed⟩ := (validateGateRevision_eq_ok apart).mp accepted
    have passes := shown_allowed_iff.mp allowed
    obtain ⟨completed, answered, zero⟩ := compares.ancestor
    refine ⟨repository.ancestor_of_zero _ _ _ answered zero, fun path differs => ?_⟩
    rcases shows compares with ⟨refused, member, refusal⟩ | ⟨renamed, solid⟩
    · exact absurd refusal (passes refused member)
    by_cases old : ∃ rename ∈ (repository.nameOnly generation validation).renames,
      rename.1 = path
    · obtain ⟨rename, member, rfl⟩ := old
      exact renamed rename member
    · have member := ((repository.nameOnly generation validation).mem_listed path).mpr
        ⟨differs, fun rename member same => old ⟨rename, member, same⟩⟩
      obtain ⟨_, blank | inside⟩ := passes_iff.mp (passes path member)
      · rw [solid path member] at blank
        exact absurd (List.map_eq_nil_iff.mp blank) path.nonempty
      · rwa [solid path member] at inside

end Acceptance

/-! A build script that is renamed to the name of a test. -/

/-- A tree of one file. -/
def single (path : GitPath) : Tree Unit :=
  fun other => if other = path then some () else none

/-- One file, which is renamed. -/
def moved (one other : GitPath) : NameOnly (single one) (single other) :=
  if same : one = other then
    ⟨[], [], fun _ none => absurd none List.not_mem_nil, fun path => by simp [same]⟩
  else
    ⟨[(one, other)], [other], by
      rw [List.forall_mem_singleton]
      exact ⟨by simp [single], if_neg same, if_neg (Ne.symm same), by simp [single]⟩, by
      intro path
      rw [List.mem_singleton, List.forall_mem_singleton]
      unfold single
      by_cases isNew : path = other
      · rw [if_pos isNew, isNew, if_neg (Ne.symm same)]
        exact ⟨fun _ => ⟨nofun, same⟩, fun _ => rfl⟩
      · rw [if_neg isNew]
        by_cases isOld : path = one
        · rw [if_pos isOld, isOld]
          exact ⟨fun wrong => absurd wrong same, fun wrong => absurd rfl wrong.2⟩
        · rw [if_neg isOld]
          exact ⟨fun wrong => absurd wrong isNew, fun wrong => absurd rfl wrong.1⟩⟩

def buildScript : GitPath :=
  ⟨asciiBytes "ansible/build.sh".toList, by decide⟩

def testScript : GitPath :=
  ⟨asciiBytes "scripts/test_pi_rpi5_common_kernel.py".toList, by decide⟩

def firstCommit : List Char := List.replicate 40 'a'

def secondCommit : List Char := List.replicate 40 'b'

/-- A repository of two commits, in the second of which the build script has the
name of the test. -/
def renamedRepository : Git Unit where
  tree commit := single (if commit = firstCommit then buildScript else testScript)
  isAncestor _ _ := True
  nameOnly _ _ := moved _ _
  mergeBase _ _ := some ⟨0, []⟩
  diff older newer := some ⟨0, (moved (if older = firstCommit then buildScript else testScript)
    (if newer = firstCommit then buildScript else testScript)).stdout⟩
  ancestor_of_zero _ _ _ _ _ := trivial
  stdout_of_zero := by
    intro older newer completed answered _
    cases answered
    rfl

theorem compares_renamed : renamedRepository.Compares firstCommit secondCommit where
  isGeneration := by rfl
  isValidation := by rfl
  apart := by decide
  ancestor := ⟨_, rfl, rfl⟩
  diff := ⟨_, rfl, rfl⟩

/-- The characters of a text in ASCII, where that is checked character by character. -/
theorem text_asciiBytes {text : List Char} (ascii : text.all (·.toNat < 128) = true) :
    (asciiBytes text).map (fun byte => Char.ofNat byte.toNat) = text :=
  map_asciiBytes fun char member => of_decide_eq_true (List.all_eq_true.mp ascii char member)

theorem text_buildScript : buildScript.text = "ansible/build.sh".toList :=
  text_asciiBytes (by decide)

theorem text_testScript : testScript.text = "scripts/test_pi_rpi5_common_kernel.py".toList :=
  text_asciiBytes (by decide)

theorem buildScript_outside : buildScript.text ∉ nonGenerationPaths := by
  rw [text_buildScript, nonGenerationPaths, List.mem_map]
  rintro ⟨name, member, same⟩
  rw [String.toList_injective same] at member
  revert member
  decide

theorem testScript_allowed : testScript.text ∈ nonGenerationPaths := by
  rw [text_testScript]
  exact List.mem_map_of_mem (by decide)

theorem listed_renamed :
    (renamedRepository.nameOnly firstCommit secondCommit).listed = [testScript] := by
  rfl

theorem testScript_passes : ¬Refused testScript := by
  refine passes_iff.mpr ⟨by decide, .inr ?_⟩
  rw [strip_of_allowed testScript_allowed]
  exact testScript_allowed

/-- **A renamed build script is not seen**: the gate accepts the second commit, and
the script is gone from it. -/
theorem accepts_renamed_script :
    (∃ changed, validateGateRevision renamedRepository firstCommit secondCommit = .ok changed) ∧
      firstCommit ≠ secondCommit ∧
        ∃ path, renamedRepository.tree firstCommit path ≠
          renamedRepository.tree secondCommit path ∧ path.text ∉ nonGenerationPaths := by
  refine ⟨⟨_, (validateGateRevision_eq_ok compares_renamed.apart).mpr
    ⟨compares_renamed, rfl, shown_allowed_iff.mpr ?_⟩⟩, compares_renamed.apart, buildScript, ?_,
    buildScript_outside⟩
  · rw [listed_renamed, List.forall_mem_singleton]
    exact testScript_passes
  · change single buildScript buildScript ≠ single testScript buildScript
    rw [single, if_pos rfl, single, if_neg (by decide)]
    nofun

end HomeclusterInfra.KernelBuild
