import HomeclusterInfra.Library.CanonicalJson
import HomeclusterInfra.Library.Checked
import HomeclusterInfra.Library.Calendar
import HomeclusterInfra.Library.Quota

/-!
# Removing old kernel builds

`cleanup_old_builds.py` frees space on the build host by removing old work
directories of kernel builds. Three generations are protected. A plan selects
old directories, oldest first, until the free space meets a minimum. A preview
prints the plan with a digest, and an apply removes the directories of the plan
it makes itself, when that plan has the digest of the preview.

The work root keeps its entries while a run plans, and an apply finds under each
label what it planned with. The size of a directory may be unreadable, its
removal may stop halfway, and processes may come to use it in between. An
`OSError` is the reason `filesystem_error`, with which the run ends as well.
-/

set_option autoImplicit false

namespace HomeclusterInfra.KernelBuild

open Text JsonText Checked Calendar Quota

/-! ## Labels -/

/-- `LABEL.fullmatch` -/
def isLabel (name : List Char) : Bool :=
  (name.take 8).length == 8 && (name.take 8).all Char.isDigit &&
    name.drop 8 == "-rpi5-homecluster".toList

/-- The day of a label, as a number in which later days are greater. -/
def day (label : List Char) : Nat :=
  digitsValue (label.take 8)

/-- The labels of the candidate, the accepted and the rollback generation. -/
structure Protected where
  candidate : List Char
  accepted : List Char
  rollback : List Char
  labels : ∀ label ∈ [candidate, accepted, rollback], isLabel label = true
  distinct : [candidate, accepted, rollback].Nodup

/-- `validate_labels` -/
def validateLabels (candidate accepted rollback : List Char) : Except String Protected :=
  if labels : ∀ label ∈ [candidate, accepted, rollback], isLabel label = true then
    if distinct : [candidate, accepted, rollback].Nodup then
      .ok ⟨candidate, accepted, rollback, labels, distinct⟩
    else .error "protected_labels_not_distinct"
  else .error "invalid_protected_label"

/-- The set of the labels. -/
def Protected.all (protects : Protected) : List (List Char) :=
  [protects.candidate, protects.accepted, protects.rollback]

/-- `min(protected)` -/
def Protected.oldest (protects : Protected) : List Char :=
  min protects.candidate (min protects.accepted protects.rollback)

variable {first second label : List Char} {protects : Protected}

theorem isLabel_iff : isLabel label = true ↔ (label.take 8).length = 8 ∧
    (∀ char ∈ label.take 8, char.isDigit = true) ∧
      label = label.take 8 ++ "-rpi5-homecluster".toList := by
  unfold isLabel
  rw [Bool.and_eq_true, Bool.and_eq_true, beq_iff_eq, beq_iff_eq, List.all_eq_true, and_assoc]
  constructor
  · rintro ⟨eight, digits, rest⟩
    refine ⟨eight, digits, ?_⟩
    rw [← rest, List.take_append_drop]
  · rintro ⟨eight, digits, whole⟩
    refine ⟨eight, digits, @List.append_cancel_left _ (label.take 8) _ _ ?_⟩
    rw [List.take_append_drop, ← whole]

/-- **Labels stand in the order of their days.** -/
theorem label_lt_iff (isFirst : isLabel first = true) (isSecond : isLabel second = true) :
    first < second ↔ day first < day second := by
  obtain ⟨eight, digits, whole⟩ := isLabel_iff.mp isFirst
  obtain ⟨eight', digits', whole'⟩ := isLabel_iff.mp isSecond
  have later : ∀ {one other : List Char}, isLabel one = true → isLabel other = true →
      day one < day other → one < other := by
    intro one other isOne isOther less
    obtain ⟨eight, digits, whole⟩ := isLabel_iff.mp isOne
    obtain ⟨eight', digits', whole'⟩ := isLabel_iff.mp isOther
    rw [whole, whole']
    exact append_lt_append (eight.trans eight'.symm)
      (lt_of_digitsValue_lt (eight.trans eight'.symm) digits digits' less)
  constructor
  · intro less
    rcases lt_trichotomy (day first) (day second) with earlier | same | greater
    · exact earlier
    · have alike := digitsValue_inj (eight.trans eight'.symm) digits digits' same
      rw [whole, whole', alike] at less
      exact absurd less (lt_irrefl _)
    · exact absurd (later isSecond isFirst greater) (lt_asymm less)
  · exact later isFirst isSecond

theorem Protected.lt_oldest_iff : label < protects.oldest ↔ ∀ other ∈ protects.all, label < other := by
  simp only [Protected.oldest, Protected.all, lt_min_iff, List.forall_mem_cons,
    List.not_mem_nil, false_implies, implies_true, and_true]

/-! ## The work root -/

structure Entry where
  name : List Char
  isDirectory : Bool
  inode : Nat
  /-- `directory_bytes` -/
  bytes : Option Int
deriving DecidableEq

structure WorkRoot where
  isSymlink : Bool
  isDirectory : Bool
  entries : List Entry
  distinct : (entries.map Entry.name).Nodup

/-- `text.removesuffix(suffix)` -/
def removeSuffix (text suffix : List Char) : List Char :=
  if suffix.isSuffixOf text then text.take (text.length - suffix.length) else text

/-- `active_references`, where `/proc` can be listed. The targets are those of
the links of all processes that can be read. -/
def activeReferences (root : List Char) (labels targets : List (List Char)) : Bool :=
  targets.any fun reference =>
    let target := removeSuffix reference " (deleted)".toList
    labels.any fun label =>
      let path := root ++ '/' :: label
      target == path || (path ++ ['/']).isPrefixOf target

/-! ## The plan -/

structure Plan where
  planSha256 : List Char
  deleteLabels : List (List Char)
  protectedLabels : List (List Char)
  freeBytesBefore : Int
  projectedFreeBytes : Int

/-- The dated entries that are older than every protected one. -/
def eligible (protects : Protected) : List Entry → Except String (List Entry)
  | [] => .ok []
  | entry :: rest =>
      if isLabel entry.name = false then eligible protects rest
      else if entry.isDirectory = false then .error "dated_entry_not_directory"
      else if entry.name ∈ protects.all then eligible protects rest
      else if protects.oldest ≤ entry.name then eligible protects rest
      else do
        let others ← eligible protects rest
        return entry :: others

/-- `eligible.sort(key=lambda path: path.name)` -/
def byName (entries : List Entry) : List Entry :=
  entries.insertionSort fun first second => first.name ≤ second.name

/-- A selected directory. -/
def Entry.identity (entry : Entry) : Json :=
  .object [("label", .str entry.name), ("inode", .int entry.inode)]

/-- What the digest of a plan is about. -/
def identity (root : List Char) (protects : Protected) (minFree : Int)
    (selected : List Entry) : Json :=
  .object [("root", .str root),
    ("protected", .arr ((protects.all.insertionSort (· ≤ ·)).map .str)),
    ("delete", .arr (selected.map Entry.identity)),
    ("min_free_bytes", .int minFree)]

/-- `json.dumps(identity, sort_keys=True)` -/
def identityText (identity : Json) : List Char :=
  dumps ⟨true, [',', ' '], [':', ' ']⟩ identity.sortKeys

section Plan

variable (sha256 : List UInt8 → List Char)

/-- `build_plan` -/
def buildPlan (path : List Char) (root : WorkRoot) (protects : Protected) (minFree free : Int)
    (targets : Option (List (List Char))) : Except String Plan := do
  require (!root.isSymlink && root.isDirectory) "invalid_work_root"
  let candidates ← byName <$> eligible protects root.entries
  match targets with
  | none => .error "filesystem_error"
  | some targets => do
      require (!activeReferences path (candidates.map Entry.name) targets) "active_build_reference"
      match fill Entry.bytes minFree free candidates with
      | none => .error "filesystem_error"
      | some (selected, projected) => do
          require (minFree ≤ projected) "insufficient_reclaimable_space"
          return ⟨sha256 (utf8Bytes (identityText (identity path protects minFree selected))),
            selected.map Entry.name, protects.all.insertionSort (· ≤ ·), free, projected⟩

/-! ## Running it -/

/-- `PRODUCTION_ROOT` -/
def productionRoot : List Char :=
  "/var/lib/rancher/k3s/kernel-build".toList

structure Args where
  root : List Char := productionRoot
  candidate : List Char
  accepted : List Char
  rollback : List Char
  minFreeGib : Int := 48
  apply : Bool := false
  expectedPlanSha256 : List Char := []

/-- What a run meets. -/
structure Machine where
  root : WorkRoot
  /-- `shutil.disk_usage(root).free` before and after -/
  free : Option Int
  freeAfter : Option Int
  /-- What the links of all processes lead to, while planning and at a removal. -/
  targets : Option (List (List Char))
  targetsAt : List Char → Option (List (List Char))
  /-- `shutil.rmtree` removes the whole directory. -/
  removes : List Char → Bool

structure Report where
  plan : Plan
  freeBytesAfter : Option Int
  mode : String

/-- The plan of a run, as far as it is allowed to go on with it. -/
def allowedPlan (args : Args) (machine : Machine) : Except String Plan := do
  let protects ← validateLabels args.candidate args.accepted args.rollback
  require (args.root == productionRoot && !machine.root.isSymlink) "unexpected_work_root"
  require (1 ≤ args.minFreeGib && args.minFreeGib ≤ 200) "invalid_min_free_gib"
  require (!args.apply || (args.expectedPlanSha256.length == 64 &&
    args.expectedPlanSha256.all fun char => char.isDigit || ('a' ≤ char && char ≤ 'f')))
    "plan_digest_required"
  require (args.apply || args.expectedPlanSha256.isEmpty) "plan_digest_without_apply"
  match machine.free with
  | none => .error "filesystem_error"
  | some free => do
      let plan ← buildPlan sha256 args.root machine.root protects (args.minFreeGib * 1024 ^ 3) free
        machine.targets
      require (!args.apply || plan.planSha256 == args.expectedPlanSha256) "plan_changed"
      return plan

/-- The removals of an apply, with the entries that were removed, also in part. -/
def removeLabels (path : List Char) (machine : Machine) :
    List (List Char) → List Entry × Except String Unit
  | [] => ([], .ok ())
  | label :: rest =>
      match machine.root.entries.find? (fun entry => entry.name == label) with
      | none => ([], .error "candidate_changed_or_active")
      | some entry =>
          if entry.isDirectory = false then ([], .error "candidate_changed_or_active")
          else match machine.targetsAt label with
            | none => ([], .error "filesystem_error")
            | some targets =>
                if activeReferences path [label] targets then
                  ([], .error "candidate_changed_or_active")
                else if machine.removes label then
                  let (removed, outcome) := removeLabels path machine rest
                  (entry :: removed, outcome)
                else ([entry], .error "filesystem_error")

/-- `main`, with the entries it removed. -/
def main (args : Args) (machine : Machine) : List Entry × Except String Report :=
  match allowedPlan sha256 args machine with
  | .error reason => ([], .error reason)
  | .ok plan =>
      if args.apply then
        match removeLabels args.root machine plan.deleteLabels with
        | (removed, .error reason) => (removed, .error reason)
        | (removed, .ok ()) =>
            match machine.freeAfter with
            | none => (removed, .error "filesystem_error")
            | some free => (removed, do
                require (args.minFreeGib * 1024 ^ 3 ≤ free) "free_space_goal_not_met"
                return ⟨plan, some free, "apply"⟩)
      else ([], .ok ⟨plan, none, "preview"⟩)

end Plan

/-! ## Which builds a plan removes -/

/-- A dated directory of an older generation than every protected one. -/
def IsStale (protects : Protected) (entry : Entry) : Prop :=
  isLabel entry.name = true ∧ entry.name ∉ protects.all ∧
    ∀ label ∈ protects.all, day entry.name < day label

/-- These are the stale entries, oldest first. -/
structure OldestFirst (root : WorkRoot) (protects : Protected) (candidates : List Entry) :
    Prop where
  ascending : candidates.Pairwise fun older newer => day older.name < day newer.name
  stale : ∀ entry, entry ∈ candidates ↔ entry ∈ root.entries ∧ IsStale protects entry

/-- Removing these, whose sizes are known, brings the free space to the minimum. -/
def Suffices (minFree free : Int) (entries : List Entry) : Prop :=
  minFree ≤ free + total Entry.bytes entries ∧ ∀ entry ∈ entries, entry.bytes.isSome = true

theorem protected_isLabel (member : label ∈ protects.all) : isLabel label = true :=
  protects.labels label member

/-- The conditions of the loop say that an entry is stale. -/
theorem isStale_iff {entry : Entry} : IsStale protects entry ↔
    isLabel entry.name = true ∧ entry.name ∉ protects.all ∧ entry.name < protects.oldest := by
  rw [Protected.lt_oldest_iff]
  refine and_congr_right fun dated => and_congr_right fun _ => forall₂_congr ?_
  intro label member
  exact (label_lt_iff dated (protected_isLabel member)).symm

instance (protects : Protected) : DecidablePred (IsStale protects) :=
  fun _ => decidable_of_iff _ isStale_iff.symm

theorem eligible_eq_ok {entries found : List Entry}
    (listed : eligible protects entries = .ok found) :
    found = entries.filter fun entry => IsStale protects entry := by
  induction entries generalizing found with
  | nil =>
      cases listed
      rfl
  | cons entry rest ih =>
      rw [List.filter_cons]
      rw [eligible] at listed
      split_ifs at listed with undated directory shielded recent
      · rw [if_neg (by simp [isStale_iff, undated])]
        exact ih listed
      · rw [if_neg (by simp [isStale_iff, shielded])]
        exact ih listed
      · rw [if_neg (by simp [isStale_iff, recent])]
        exact ih listed
      · obtain ⟨others, listed, same⟩ := bind_eq_ok.mp listed
        have stale : IsStale protects entry :=
          isStale_iff.mpr ⟨by simpa using undated, shielded, not_le.mp recent⟩
        rw [if_pos (by simpa using stale), ← ih listed]
        exact (pure_eq_ok.mp same).symm

/-- The entries that a plan may select, oldest first. -/
def candidates (root : WorkRoot) (protects : Protected) : List Entry :=
  byName (root.entries.filter fun entry => IsStale protects entry)

theorem oldestFirst_candidates (root : WorkRoot) (protects : Protected) :
    OldestFirst root protects (candidates root protects) := by
  have perm : (candidates root protects).Perm
      (root.entries.filter fun entry => IsStale protects entry) :=
    List.perm_insertionSort _ _
  have stale : ∀ entry, entry ∈ candidates root protects ↔
      entry ∈ root.entries ∧ IsStale protects entry := by
    intro entry
    rw [perm.mem_iff, List.mem_filter, decide_eq_true_eq]
  refine ⟨?_, stale⟩
  have distinct : (candidates root protects).Pairwise fun first second =>
      first.name ≠ second.name := by
    have names : ((root.entries.filter fun entry => IsStale protects entry).map Entry.name).Nodup :=
      (List.filter_sublist.map Entry.name).nodup root.distinct
    exact List.pairwise_map.mp ((perm.map Entry.name).nodup_iff.mpr names)
  have sorted : (candidates root protects).Pairwise fun first second =>
      first.name ≤ second.name :=
    List.pairwise_insertionSort _ _
  refine (sorted.and distinct).imp_of_mem ?_
  rintro first second inFirst inSecond ⟨before, apart⟩
  exact (label_lt_iff ((stale first).mp inFirst).2.1 ((stale second).mp inSecond).2.1).mp
    (lt_of_le_of_ne before apart)

section Spec

variable {sha256 : List UInt8 → List Char} {path : List Char} {root : WorkRoot}
  {minFree free : Int} {targets : Option (List (List Char))} {plan : Plan}

/-- **What a plan that succeeds selects** is a front of the candidates. -/
theorem buildPlan_eq_ok
    (built : buildPlan sha256 path root protects minFree free targets = .ok plan) :
    ∃ count, Suffices minFree free ((candidates root protects).take count) ∧
      (∀ fewer < count, ¬ Suffices minFree free ((candidates root protects).take fewer)) ∧
      plan.deleteLabels = ((candidates root protects).take count).map Entry.name ∧
      plan.planSha256 = sha256 (utf8Bytes (identityText (identity path protects minFree
        ((candidates root protects).take count)))) := by
  unfold buildPlan at built
  obtain ⟨_, usable, built⟩ := bind_eq_ok.mp built
  obtain ⟨sorted, listed, built⟩ := bind_eq_ok.mp built
  cases scanned : eligible protects root.entries with
  | error reason =>
      rw [scanned] at listed
      cases listed
  | ok found =>
      rw [scanned] at listed
      cases listed
      have same : byName found = candidates root protects := by
        rw [candidates, eligible_eq_ok scanned]
      rw [same] at built
      cases targets with
      | none => cases built
      | some targets =>
          obtain ⟨_, idle, built⟩ := bind_eq_ok.mp built
          cases filled : fill Entry.bytes minFree free (candidates root protects) with
          | none =>
              rw [filled] at built
              cases built
          | some result =>
              obtain ⟨selected, projected⟩ := result
              rw [filled] at built
              obtain ⟨_, enough, built⟩ := bind_eq_ok.mp built
              rw [require_eq_ok, decide_eq_true_eq] at enough
              obtain ⟨count, front, level, sizes, shorter, -⟩ := fill_eq_some filled
              subst front
              rw [← pure_eq_ok.mp built]
              refine ⟨count, ⟨level ▸ enough, sizes⟩, ?_, rfl, rfl⟩
              rintro fewer less ⟨met, -⟩
              exact absurd (shorter fewer less) (not_lt.mpr met)

/-- A plan is made where nothing stands against it. -/
theorem buildPlan_of {found selected : List Entry} {projected : Int}
    {labels : List (List Char)} (usable : (!root.isSymlink && root.isDirectory) = true)
    (listed : eligible protects root.entries = .ok found)
    (idle : activeReferences path ((byName found).map Entry.name) labels = false)
    (filled : fill Entry.bytes minFree free (byName found) = some (selected, projected))
    (enough : minFree ≤ projected) :
    buildPlan sha256 path root protects minFree free (some labels) =
      .ok ⟨sha256 (utf8Bytes (identityText (identity path protects minFree selected))),
        selected.map Entry.name, protects.all.insertionSort (· ≤ ·), free, projected⟩ := by
  have sorted : byName <$> eligible protects root.entries = .ok (byName found) := by
    rw [listed]
    rfl
  refine bind_eq_ok.mpr ⟨⟨⟩, require_eq_ok.mpr usable, bind_eq_ok.mpr ⟨_, sorted, ?_⟩⟩
  refine bind_eq_ok.mpr ⟨⟨⟩, require_eq_ok.mpr (by rw [idle]; rfl), ?_⟩
  rw [filled]
  exact bind_eq_ok.mpr ⟨⟨⟩, require_eq_ok.mpr (decide_eq_true enough), rfl⟩

/-- A plan names stale entries only. -/
theorem stale_of_mem_deleteLabels
    (built : buildPlan sha256 path root protects minFree free targets = .ok plan)
    (among : label ∈ plan.deleteLabels) :
    label ∉ protects.all ∧ ∀ shielded ∈ protects.all, day label < day shielded := by
  obtain ⟨count, -, -, labels, -⟩ := buildPlan_eq_ok built
  rw [labels] at among
  obtain ⟨entry, taken, rfl⟩ := List.mem_map.mp among
  exact (((oldestFirst_candidates root protects).stale entry).mp (List.mem_of_mem_take taken)).2.2

end Spec

/-! ## What a digest pins -/

theorem Entry.readable_identity (entry : Entry) : entry.identity.Readable := by
  apply readable_object (by simp)
  intro field member
  simp only [List.mem_cons, List.not_mem_nil, or_false] at member
  rcases member with rfl | rfl <;> exact trivial

theorem readable_identity (path : List Char) (protects : Protected) (minFree : Int)
    (selected : List Entry) : (identity path protects minFree selected).Readable := by
  apply readable_object (by simp)
  intro field member
  simp only [List.mem_cons, List.not_mem_nil, or_false] at member
  rcases member with rfl | rfl | rfl | rfl
  · exact trivial
  · apply readable_arr
    intro item among
    obtain ⟨label, -, rfl⟩ := List.mem_map.mp among
    exact trivial
  · apply readable_arr
    intro item among
    obtain ⟨entry, -, rfl⟩ := List.mem_map.mp among
    exact entry.readable_identity
  · exact trivial

/-- An entry's name and inode are read off its sorted identity. -/
theorem Entry.field_identity (entry : Entry) :
    entry.identity.sortKeys.field "label" = some (.str entry.name) ∧
      entry.identity.sortKeys.field "inode" = some (.int entry.inode) := by
  have readable := entry.readable_identity
  unfold Entry.identity at readable ⊢
  rw [field_sortKeys_object readable, field_sortKeys_object readable]
  exact ⟨rfl, rfl⟩

theorem field_identity (path : List Char) (protects : Protected) (minFree : Int)
    (selected : List Entry) : (identity path protects minFree selected).sortKeys.field "delete" =
      some (.arr (selected.map fun entry => entry.identity.sortKeys)) := by
  have readable := readable_identity path protects minFree selected
  unfold identity at readable ⊢
  rw [field_sortKeys_object readable]
  have found : Mapping.get [("root", Json.str path),
      ("protected", .arr ((protects.all.insertionSort (· ≤ ·)).map .str)),
      ("delete", .arr (selected.map Entry.identity)), ("min_free_bytes", .int minFree)] "delete" =
        some (.arr (selected.map Entry.identity)) :=
    rfl
  rw [found, Option.map_some, sortKeys_arr, List.map_map]
  rfl

/-- **Plans of one text select entries of the same names and inodes.** -/
theorem selected_of_identityText {path path' : List Char} {protects protects' : Protected}
    {minFree minFree' : Int} {selected selected' : List Entry}
    (same : identityText (identity path protects minFree selected) =
      identityText (identity path' protects' minFree' selected')) :
    selected.map (fun entry => (entry.name, entry.inode)) =
      selected'.map fun entry => (entry.name, entry.inode) := by
  have standard : Style.Standard ⟨true, [',', ' '], [':', ' ']⟩ :=
    ⟨[' '], [' '], rfl, rfl, rfl, rfl⟩
  have read := loads_dumps standard (readable_identity path protects minFree selected).sortKeys
  unfold identityText at same
  rw [same, loads_dumps standard (readable_identity path' protects' minFree' selected').sortKeys]
    at read
  have fields := congrArg (fun value => Json.field value "delete") (Option.some.inj read)
  simp only [field_identity, Option.some.injEq, Json.arr.injEq] at fields
  have pairs := congrArg (List.map fun value => (Json.field value "label", Json.field value "inode"))
    fields
  rw [List.map_map, List.map_map] at pairs
  have shown : ∀ entries : List Entry, entries.map
      ((fun value => (Json.field value "label", Json.field value "inode")) ∘
        fun entry => entry.identity.sortKeys) =
      (entries.map fun entry => (entry.name, entry.inode)).map
        fun pair => (some (Json.str pair.1), some (Json.int pair.2)) := by
    intro entries
    rw [List.map_map]
    apply List.map_congr_left
    intro entry _
    obtain ⟨name, inode⟩ := entry.field_identity
    simp only [Function.comp_apply, name, inode]
  rw [shown, shown] at pairs
  refine (List.map_injective_iff.mpr ?_ pairs).symm
  rintro ⟨name, inode⟩ ⟨name', inode'⟩ alike
  simp only [Prod.mk.injEq, Option.some.injEq, Json.str.injEq, Json.int.injEq,
    Int.natCast_inj] at alike
  rw [alike.1, alike.2]

/-! ## Applying an approved plan -/

section Apply

variable {sha256 : List UInt8 → List Char} {args : Args} {machine : Machine} {plan : Plan}

/-- Only the entries of the labels are removed. -/
theorem mem_removeLabels {path : List Char} {labels : List (List Char)} {entry : Entry}
    (removed : entry ∈ (removeLabels path machine labels).1) :
    entry.name ∈ labels ∧ entry ∈ machine.root.entries := by
  induction labels with
  | nil => cases removed
  | cons label rest ih =>
      rw [removeLabels] at removed
      split at removed
      next missing => cases removed
      next there found =>
        have here : there.name ∈ label :: rest ∧ there ∈ machine.root.entries := by
          have named := @List.find?_some _ (fun entry : Entry => entry.name == label) _ _ found
          rw [beq_iff_eq.mp named]
          exact ⟨List.mem_cons_self, List.mem_of_find?_eq_some found⟩
        have after : entry ∈ (removeLabels path machine rest).1 →
            entry.name ∈ label :: rest ∧ entry ∈ machine.root.entries := fun later =>
          ⟨.tail _ (ih later).1, (ih later).2⟩
        split at removed
        next => cases removed
        next =>
          split at removed
          next => cases removed
          next =>
            split at removed
            next => cases removed
            next =>
              split at removed
              next =>
                rcases List.mem_cons.mp removed with rfl | later
                · exact here
                · exact after later
              next =>
                rw [List.mem_singleton.mp removed]
                exact here

theorem allowedPlan_eq_ok (allowed : allowedPlan sha256 args machine = .ok plan) :
    ∃ protects free, buildPlan sha256 args.root machine.root protects (args.minFreeGib * 1024 ^ 3)
        free machine.targets = .ok plan ∧
      (args.apply = true → plan.planSha256 = args.expectedPlanSha256) := by
  unfold allowedPlan at allowed
  obtain ⟨protects, -, allowed⟩ := bind_eq_ok.mp allowed
  obtain ⟨_, -, allowed⟩ := bind_eq_ok.mp allowed
  obtain ⟨_, -, allowed⟩ := bind_eq_ok.mp allowed
  obtain ⟨_, -, allowed⟩ := bind_eq_ok.mp allowed
  obtain ⟨_, -, allowed⟩ := bind_eq_ok.mp allowed
  cases known : machine.free with
  | none =>
      rw [known] at allowed
      cases allowed
  | some free =>
      rw [known] at allowed
      obtain ⟨built, planned, allowed⟩ := bind_eq_ok.mp allowed
      obtain ⟨_, unchanged, same⟩ := bind_eq_ok.mp allowed
      cases pure_eq_ok.mp same
      refine ⟨protects, free, planned, fun applies => ?_⟩
      rw [require_eq_ok, applies] at unchanged
      simpa using unchanged

/-- What a run removes is in the plan it was allowed to go on with. -/
theorem mem_main_removed {entry : Entry} (removed : entry ∈ (main sha256 args machine).1) :
    args.apply = true ∧ ∃ plan, allowedPlan sha256 args machine = .ok plan ∧
      entry.name ∈ plan.deleteLabels ∧ entry ∈ machine.root.entries := by
  unfold main at removed
  split at removed
  next => cases removed
  next plan allowed =>
    split_ifs at removed with applies
    · have among : entry ∈ (removeLabels args.root machine plan.deleteLabels).1 := by
        revert removed
        split
        next done failed =>
          rw [failed]
          exact id
        next done finished =>
          rw [finished]
          split <;> exact id
      exact ⟨applies, plan, allowed, mem_removeLabels among⟩
    · cases removed

theorem main_report {report : Report} (done : (main sha256 args machine).2 = .ok report) :
    allowedPlan sha256 args machine = .ok report.plan := by
  unfold main at done
  split at done
  next => cases done
  next plan allowed =>
    rw [allowed]
    split_ifs at done
    · split at done
      next => cases done
      next =>
        split at done
        next => cases done
        next =>
          obtain ⟨_, -, same⟩ := bind_eq_ok.mp done
          rw [← pure_eq_ok.mp same]
    · cases done
      rfl

end Apply

/-- **A cleanup removes what it must, and what was approved.** A plan that is
made names the shortest front of the stale directories, oldest first, that
brings the free space to the minimum, and there is no plan where no front does.
An apply with the digest of a preview removes directories that the preview
named, with the inodes that it saw. -/
theorem cleanup_removes_approved {sha256 : List UInt8 → List Char}
    (injective : Function.Injective sha256) :
    (∀ path root protects minFree free targets, ∃ candidates,
      OldestFirst root protects candidates ∧
      (∀ plan, buildPlan sha256 path root protects minFree free targets = .ok plan →
        (∃ count, plan.deleteLabels = (candidates.take count).map Entry.name ∧
          Suffices minFree free (candidates.take count) ∧
          ∀ fewer < count, ¬ Suffices minFree free (candidates.take fewer)) ∧
        ∀ label ∈ plan.deleteLabels, label ∉ protects.all ∧
          ∀ shielded ∈ protects.all, day label < day shielded) ∧
      ((∀ count, ¬ Suffices minFree free (candidates.take count)) →
        ∃ reason, buildPlan sha256 path root protects minFree free targets = .error reason)) ∧
    (∀ preview before report, preview.apply = false →
      (main sha256 preview before).2 = .ok report →
      (main sha256 preview before).1 = [] ∧
      ∀ args after, args.apply = true → args.expectedPlanSha256 = report.plan.planSha256 →
        ∀ entry ∈ (main sha256 args after).1, entry.name ∈ report.plan.deleteLabels ∧
          ∃ shown ∈ before.root.entries, shown.name = entry.name ∧ shown.inode = entry.inode) := by
  refine ⟨?_, ?_⟩
  · intro path root protects minFree free targets
    refine ⟨candidates root protects, oldestFirst_candidates root protects, ?_, ?_⟩
    · intro plan built
      obtain ⟨count, enough, shorter, labels, -⟩ := buildPlan_eq_ok built
      exact ⟨⟨count, labels, enough, shorter⟩, fun label => stale_of_mem_deleteLabels built⟩
    · intro never
      cases built : buildPlan sha256 path root protects minFree free targets with
      | error reason => exact ⟨reason, rfl⟩
      | ok plan =>
          obtain ⟨count, enough, -⟩ := buildPlan_eq_ok built
          exact absurd enough (never count)
  · intro preview before report previews done
    refine ⟨?_, ?_⟩
    · rw [List.eq_nil_iff_forall_not_mem]
      intro entry removed
      rw [(mem_main_removed removed).1] at previews
      cases previews
    · intro args after applies pinned entry removed
      obtain ⟨protects, free, built, -⟩ := allowedPlan_eq_ok (main_report done)
      obtain ⟨count, -, -, labels, digest⟩ := buildPlan_eq_ok built
      obtain ⟨-, plan, allowed, among, inAfter⟩ := mem_main_removed removed
      obtain ⟨protects', free', built', approved⟩ := allowedPlan_eq_ok allowed
      obtain ⟨count', -, -, labels', digest'⟩ := buildPlan_eq_ok built'
      -- the two digests are those of one text, which names the same directories
      have texts := utf8Bytes_injective (injective
        (digest'.symm.trans ((approved applies).trans (pinned.trans digest))))
      have alike := selected_of_identityText texts
      rw [labels'] at among
      obtain ⟨taken, inPlan, named⟩ := List.mem_map.mp among
      have pair : (taken.name, taken.inode) ∈
          ((candidates before.root protects).take count).map fun entry =>
            (entry.name, entry.inode) := by
        rw [← alike]
        exact List.mem_map_of_mem inPlan
      obtain ⟨shown, inPreview, same⟩ := List.mem_map.mp pair
      obtain ⟨sameName, sameInode⟩ := Prod.mk.inj same
      have listed := ((oldestFirst_candidates before.root protects).stale shown).mp
        (List.mem_of_mem_take inPreview)
      have inAfter' := ((oldestFirst_candidates after.root protects').stale taken).mp
        (List.mem_of_mem_take inPlan)
      have one : taken = entry :=
        List.inj_on_of_nodup_map after.root.distinct inAfter'.1 inAfter named
      rw [labels, ← one]
      exact ⟨List.mem_map.mpr ⟨shown, inPreview, sameName⟩, shown, listed.1, sameName, sameInode⟩

/-! A machine on which one of two builds has to go. -/

def sampleLabel (day : String) : List Char :=
  day.toList ++ "-rpi5-homecluster".toList

def sampleEntry : Entry :=
  ⟨sampleLabel "20261019", true, 7, some (1024 ^ 3)⟩

def sampleRecent : Entry :=
  ⟨sampleLabel "20261020", true, 9, some 4096⟩

def sampleMachine : Machine where
  root := ⟨false, true, [sampleRecent, sampleEntry], by decide⟩
  free := some (47 * 1024 ^ 3)
  freeAfter := some (48 * 1024 ^ 3)
  targets := some []
  targetsAt := fun _ => some []
  removes := fun _ => true

def samplePreview : Args where
  candidate := sampleLabel "20261023"
  accepted := sampleLabel "20261022"
  rollback := sampleLabel "20261021"

def sampleProtected : Protected :=
  ⟨sampleLabel "20261023", sampleLabel "20261022", sampleLabel "20261021", by decide, by decide⟩

/-- The SHA-256 of the identity of the sample plan. -/
def sampleSum : List Char :=
  "e029788d57673682d13e2fbbad4f86cbf5b6bb71de3162c86420a9c327f55d1e".toList

/-- SHA-256 on the identity of the sample plan, and injective everywhere. -/
def sampleDigest (data : List UInt8) : List Char :=
  if data = utf8Bytes (identityText (identity productionRoot sampleProtected (48 * 1024 ^ 3)
      [sampleEntry])) then sampleSum
  else 'x' :: hexText data

theorem sampleDigest_injective : Function.Injective sampleDigest := by
  have apart : ∀ rest, sampleSum ≠ 'x' :: rest := by
    intro rest same
    have heads : some 'e' = some 'x' := congrArg List.head? same
    exact absurd heads (by decide)
  intro first second same
  unfold sampleDigest at same
  split_ifs at same with one other other
  · rw [one, other]
  · exact absurd same (apart _)
  · exact absurd same.symm (apart _)
  · exact hexText_injective (List.cons.inj same).2

def samplePlan : Plan :=
  ⟨sampleSum, [sampleLabel "20261019"],
    [sampleLabel "20261021", sampleLabel "20261022", sampleLabel "20261023"],
    47 * 1024 ^ 3, 48 * 1024 ^ 3⟩

theorem samplePlan_built : buildPlan sampleDigest productionRoot sampleMachine.root sampleProtected
    (48 * 1024 ^ 3) (47 * 1024 ^ 3) (some []) = .ok samplePlan := by
  have digest : sampleDigest (utf8Bytes (identityText (identity productionRoot sampleProtected
      (48 * 1024 ^ 3) [sampleEntry]))) = sampleSum :=
    if_pos rfl
  have built := @buildPlan_of sampleProtected sampleDigest productionRoot sampleMachine.root
    (48 * 1024 ^ 3) (47 * 1024 ^ 3) [sampleRecent, sampleEntry] [sampleEntry] (48 * 1024 ^ 3) []
    rfl (by rfl) (by rfl) (by rfl) le_rfl
  rw [built, digest]
  rfl

/-- An apply with the digest of the sample plan. -/
def sampleApply : Args :=
  { samplePreview with apply := true, expectedPlanSha256 := sampleSum }

theorem allowedPlan_sample (args : Args) (same : args = samplePreview ∨ args = sampleApply) :
    allowedPlan sampleDigest args sampleMachine = .ok samplePlan := by
  have valid : validateLabels samplePreview.candidate samplePreview.accepted
      samplePreview.rollback = .ok sampleProtected := by
    rfl
  rcases same with rfl | rfl
  · refine bind_eq_ok.mpr ⟨sampleProtected, valid, ?_⟩
    refine bind_eq_ok.mpr ⟨⟨⟩, by rfl, bind_eq_ok.mpr ⟨⟨⟩, by rfl, ?_⟩⟩
    refine bind_eq_ok.mpr ⟨⟨⟩, by rfl, bind_eq_ok.mpr ⟨⟨⟩, by rfl, ?_⟩⟩
    exact bind_eq_ok.mpr ⟨samplePlan, samplePlan_built, rfl⟩
  · refine bind_eq_ok.mpr ⟨sampleProtected, valid, ?_⟩
    refine bind_eq_ok.mpr ⟨⟨⟩, by rfl, bind_eq_ok.mpr ⟨⟨⟩, by rfl, ?_⟩⟩
    refine bind_eq_ok.mpr ⟨⟨⟩, by rfl, bind_eq_ok.mpr ⟨⟨⟩, by rfl, ?_⟩⟩
    exact bind_eq_ok.mpr ⟨samplePlan, samplePlan_built, by rfl⟩

/-- The apply removes the directory that the preview named. -/
theorem cleanup_removes_approved_sample :
    (main sampleDigest sampleApply sampleMachine).1 = [sampleEntry] ∧
      sampleEntry.name ∈ samplePlan.deleteLabels ∧
      ∃ shown ∈ sampleMachine.root.entries, shown.name = sampleEntry.name ∧
        shown.inode = sampleEntry.inode := by
  have previewed : main sampleDigest samplePreview sampleMachine =
      ([], .ok ⟨samplePlan, none, "preview"⟩) := by
    unfold main
    rw [allowedPlan_sample samplePreview (.inl rfl)]
    rfl
  have removed : (main sampleDigest sampleApply sampleMachine).1 = [sampleEntry] := by
    unfold main
    rw [allowedPlan_sample sampleApply (.inr rfl)]
    rfl
  refine ⟨removed, ?_⟩
  refine ((cleanup_removes_approved sampleDigest_injective).2 samplePreview sampleMachine
    ⟨samplePlan, none, "preview"⟩ rfl ?_).2 sampleApply sampleMachine rfl rfl sampleEntry ?_
  · rw [previewed]
  · rw [removed]
    exact List.mem_cons_self

end HomeclusterInfra.KernelBuild
