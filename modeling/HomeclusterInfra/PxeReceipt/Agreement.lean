import Mathlib.Data.List.Dedup
import HomeclusterInfra.PxeReceipt.Producer

/-!
# Producer and reader agree

What the manifest lists, what the measurements find and what the validation of a
receipt asks for are stated three times in the program. A receipt that is built from
measurements that succeed is valid, fits into the limit, and is read back
(`receipt_format_agrees`).
-/

set_option autoImplicit false

namespace HomeclusterInfra.PxeReceipt

open Text JsonText Calendar

@[simp] theorem fieldText_object (fields : List (String × Json)) (key : String) :
    fieldText (.object fields) key = (Mapping.get fields key).bind Json.asChars := by
  rw [fieldText, Json.field_object]

theorem intField_object {fields : List (String × Json)} {key : String} {low high : Int} {n : Nat}
    (found : Mapping.get fields key = some (.int n)) (above : low ≤ n) (below : n ≤ high) :
    intField (.object fields) key low high = true := by
  rw [intField, Json.field_object, found, Bool.and_eq_true]
  exact ⟨decide_eq_true above, decide_eq_true below⟩

theorem isField_object {fields : List (String × Json)} {key text : String}
    (found : Mapping.get fields key = some (.text text)) :
    isField (.object fields) key text = true := by
  rw [isField, fieldText_object, found]
  exact decide_eq_true rfl

theorem textField_object {fields : List (String × Json)} {key : String}
    {pattern : List Char → Bool} {text : List Char}
    (found : Mapping.get fields key = some (.str text)) (passes : pattern text = true) :
    textField (.object fields) key pattern = true := by
  rw [textField, fieldText_object, found]
  exact passes

theorem checkField_object {fields : List (String × Json)} {key : String} {check : Json → Bool}
    {value : Json} (found : Mapping.get fields key = some value) (passes : check value = true) :
    checkField (.object fields) key check = true := by
  rw [checkField, Json.field_object, found]
  exact passes

/-! ## What a manifest lists -/

theorem eraseDups_of_nodup {names : List (List Char)} (distinct : names.Nodup) :
    names.eraseDups = names := by
  induction names with
  | nil => rfl
  | cons name names ih =>
      rw [List.nodup_cons] at distinct
      rw [List.eraseDups_cons, List.filter_eq_self.mpr, ih distinct.2]
      intro other member
      rw [Bool.not_eq_true', beq_eq_false_iff_ne]
      rintro rfl
      exact distinct.1 member

/-- Distinct names are canonical once they are sorted. -/
theorem sortedSet_sorted {names : List (List Char)} (distinct : names.Nodup) :
    sortedSet (names.insertionSort (· ≤ ·)) = names.insertionSort (· ≤ ·) := by
  rw [sortedSet, eraseDups_of_nodup ((List.perm_insertionSort _ _).nodup_iff.mpr distinct)]
  exact List.Pairwise.insertionSort_eq (List.pairwise_insertionSort _ _)

/-- What is found among names does not depend on their order. -/
theorem bootComplete_of_perm {generation : String} {names names' : List (List Char)}
    (same : names.Perm names') : bootComplete generation names = bootComplete generation names' := by
  unfold bootComplete
  rw [same.contains_eq, same.contains_eq, same.any_eq, same.any_eq]

/-- What the loop over the required paths keeps. -/
structure Listed (paths : Paths) (count : Nat) : Prop where
  distinct : ∀ generation, (paths generation).Nodup
  required : ∀ generation, ∀ path ∈ paths generation, isRequiredPath path = true
  total : (generations.map fun generation => (paths generation).length).sum = count

section Manifest

variable {date : List Char} {paths paths' : Paths} {count : Nat}

theorem addPath_eq_some {item : Json} (added : addPath date paths item = some paths') :
    ∃ generation ∈ generations, ∃ path, isRequiredPath path = true ∧ path ∉ paths generation ∧
      paths' = Function.update paths generation (paths generation ++ [path]) := by
  simp only [addPath, Option.ite_none_right_eq_some, Option.bind_eq_some_iff, Option.some.injEq,
    Bool.and_eq_true, Bool.not_eq_true', List.contains_eq_mem, decide_eq_false_iff_not] at added
  obtain ⟨-, generation, found, path, -, ⟨⟨-, required⟩, new⟩, rfl⟩ := added
  exact ⟨generation, List.mem_of_find?_eq_some found, path, required, new, rfl⟩

/-- One turn of the loop. -/
theorem Listed.add {item : Json} (listed : Listed paths count)
    (added : addPath date paths item = some paths') : Listed paths' (count + 1) := by
  obtain ⟨generation, member, path, required, new, rfl⟩ := addPath_eq_some added
  have updated : ∀ other, Function.update paths generation (paths generation ++ [path]) other =
      if other = generation then paths generation ++ [path] else paths other := by
    intro other
    by_cases same : other = generation
    · subst same
      rw [Function.update_self, if_pos rfl]
    · rw [Function.update_of_ne same, if_neg same]
  refine ⟨fun other => ?_, fun other => ?_, ?_⟩
  · rw [updated]
    split
    · refine List.nodup_append.mpr ⟨listed.distinct _, List.nodup_singleton _, ?_⟩
      rintro name inside other' single rfl
      exact new (List.mem_singleton.mp single ▸ inside)
    · exact listed.distinct other
  · rw [updated]
    split
    · intro name inside
      rcases List.mem_append.mp inside with old | single
      · exact listed.required _ name old
      · exact List.mem_singleton.mp single ▸ required
    · exact listed.required other
  · have total := listed.total
    simp only [generations, List.map_cons, List.map_nil, List.sum_cons, List.sum_nil, updated,
      List.mem_cons, List.not_mem_nil, or_false] at total member ⊢
    rcases member with rfl | rfl
    · rw [if_pos rfl, if_neg (by decide), List.length_append, List.length_singleton]
      omega
    · rw [if_pos rfl, if_neg (by decide), List.length_append, List.length_singleton]
      omega

/-- The whole loop. -/
theorem Listed.addAll {items : List Json} (listed : Listed paths count)
    (added : items.foldlM (addPath date) paths = some paths') :
    Listed paths' (count + items.length) := by
  induction items generalizing paths count with
  | nil =>
      obtain rfl := Option.some.inj added
      exact listed
  | cons item items ih =>
      rw [List.foldlM_cons] at added
      obtain ⟨between, first, rest⟩ := Option.bind_eq_some_iff.mp added
      have whole := ih (listed.add first) rest
      rwa [Nat.add_assoc, Nat.add_comm 1, ← List.length_cons] at whole

/-- What a manifest promises of the required paths of the generations. -/
structure Manifested (paths : Paths) : Prop where
  canonical : ∀ generation, paths generation = sortedSet (paths generation)
  required : ∀ generation, ∀ path ∈ paths generation, isRequiredPath path = true
  complete : ∀ generation ∈ generations, bootComplete generation (paths generation) = true
  total : (generations.map fun generation => (paths generation).length).sum ≤ 128

/-- Every generation has some of the required paths, and few enough. -/
theorem Manifested.bounds (manifest : Manifested paths) {generation : String}
    (member : generation ∈ generations) :
    1 ≤ (paths generation).length ∧ (paths generation).length ≤ 128 := by
  have complete := manifest.complete generation member
  have total := manifest.total
  refine ⟨?_, ?_⟩
  · rw [Nat.one_le_iff_ne_zero, Ne, List.length_eq_zero_iff]
    intro empty
    rw [empty] at complete
    cases complete
  · simp only [generations, List.map_cons, List.map_nil, List.sum_cons, List.sum_nil,
      List.mem_cons, List.not_mem_nil, or_false] at total member
    rcases member with rfl | rfl
    · omega
    · omega

/-- **What `_manifest` accepts.** -/
theorem manifested {raw : List UInt8} (accepted : manifestPaths raw date = some paths) :
    Manifested paths := by
  simp only [manifestPaths, Option.bind_eq_some_iff, Option.ite_none_right_eq_some] at accepted
  obtain ⟨value, -, -, accepted⟩ := accepted
  split at accepted
  next items found =>
      simp only [Option.ite_none_right_eq_some, Option.bind_eq_some_iff, Option.some.injEq,
        Bool.and_eq_true, decide_eq_true_eq, List.all_eq_true] at accepted
      obtain ⟨⟨-, few⟩, unsorted, added, complete, rfl⟩ := accepted
      have none : Listed (fun _ => []) 0 :=
        ⟨fun _ => List.nodup_nil, fun _ _ member => absurd member List.not_mem_nil, rfl⟩
      have listed := none.addAll added
      have sorted : ∀ generation, ((unsorted generation).insertionSort (· ≤ ·)).Perm
          (unsorted generation) := fun generation => List.perm_insertionSort _ _
      refine ⟨fun generation => (sortedSet_sorted (listed.distinct generation)).symm,
        fun generation path member => ?_, fun generation member => ?_, ?_⟩
      · exact listed.required generation path ((sorted generation).mem_iff.mp member)
      · rw [bootComplete_of_perm (sorted generation)]
        exact complete generation member
      · simp only [List.length_insertionSort]
        rw [listed.total]
        omega
  next => cases accepted

end Manifest

/-! ## What is measured -/

section Measurements

variable {sha256 : List UInt8 → List Char}

theorem fileBytes_eq_some {limit : Nat} {content bytes : List UInt8} :
    fileBytes limit content = some bytes ↔
      (0 < content.length ∧ content.length ≤ limit) ∧ content = bytes := by
  rw [fileBytes, Option.ite_none_right_eq_some, Bool.and_eq_true, decide_eq_true_eq,
    decide_eq_true_eq, Option.some.injEq]

/-- The measurement of a required file. -/
theorem validRequired_json (hexadecimal : Hexadecimal sha256) {boot : BootFiles}
    {name : List Char} {file : RequiredFile} (required : isRequiredPath name = true)
    (measured : requiredFile sha256 boot name = some file) :
    validRequired file.json = true ∧ fieldText file.json "path" = some name := by
  unfold requiredFile at measured
  split at measured
  next directory =>
      subst directory
      rw [Option.ite_none_right_eq_some, Option.some.injEq] at measured
      obtain ⟨-, rfl⟩ := measured
      exact ⟨by decide, fieldText_object _ _⟩
  next other =>
      simp only [Option.map_eq_some_iff, Option.bind_eq_some_iff, fileBytes_eq_some] at measured
      obtain ⟨_, ⟨content, -, ⟨positive, small⟩, rfl⟩, rfl⟩ := measured
      have hash := hexadecimal content
      have path : fieldText (RequiredFile.regular name (sha256 content) content.length).json "path" =
          some name := fieldText_object _ _
      refine ⟨?_, path⟩
      rw [validRequired, textField, path, if_neg fun same => other (Option.some.inj same)]
      simp only [Bool.and_eq_true]
      refine ⟨required, ⟨⟨⟨?_, isField_object rfl⟩, intField_object rfl ?_ ?_⟩,
        textField_object rfl hash⟩⟩
      · rw [RequiredFile.json, Json.keysAre_object]
        rfl
      · exact_mod_cast positive
      · exact_mod_cast small

/-- The measurements of required files. -/
theorem validRequired_all (hexadecimal : Hexadecimal sha256) {boot : BootFiles}
    {names : List (List Char)} {files : List RequiredFile}
    (required : ∀ name ∈ names, isRequiredPath name = true)
    (measured : requiredFiles sha256 boot names = some files) :
    (files.map RequiredFile.json).all validRequired = true ∧
      pathsOf (files.map RequiredFile.json) = names ∧ files.length = names.length := by
  induction names generalizing files with
  | nil =>
      obtain rfl := Option.some.inj measured
      exact ⟨rfl, rfl, rfl⟩
  | cons name names ih =>
      rw [List.forall_mem_cons] at required
      simp only [requiredFiles, List.mapM_cons, Option.bind_eq_bind, Option.bind_eq_some_iff,
        Option.pure_def, Option.some.injEq] at measured
      obtain ⟨file, first, rest, later, rfl⟩ := measured
      obtain ⟨valid, path⟩ := validRequired_json hexadecimal required.1 first
      obtain ⟨valids, paths, length⟩ := ih required.2 later
      rw [List.map_cons, List.all_cons, valid, valids, pathsOf, List.filterMap_cons, path,
        List.length_cons, length, List.length_cons]
      exact ⟨rfl, congrArg (name :: ·) paths, rfl⟩

theorem validTree_object {digest : List Char} {entries bytes : Nat}
    (hash : isHex 64 digest = true) (one : 1 ≤ entries) (count : entries ≤ 1000000)
    (size : bytes ≤ 1024 ^ 4) : validTree (.object [
      ("schema", .text "homecluster-pxe-artifact-tree-v1"),
      ("algorithm", .text "sha256-posix-tree-v1"), ("digest", .str digest),
      ("entries", .int entries), ("regular_file_bytes", .int bytes)]) = true := by
  simp only [validTree, Bool.and_eq_true]
  refine ⟨⟨⟨⟨⟨?_, isField_object rfl⟩, isField_object rfl⟩, textField_object rfl hash⟩,
    intField_object rfl ?_ ?_⟩, intField_object rfl ?_ ?_⟩
  · rw [Json.keysAre_object]
    rfl
  · exact_mod_cast one
  · exact_mod_cast count
  · exact Int.natCast_nonneg bytes
  · exact_mod_cast size

/-- The measurement of a tree. -/
theorem validTree_fingerprint (hexadecimal : Hexadecimal sha256) {tree : FileTree} {value : Json}
    (measured : fingerprintTree sha256 tree.files = some value) : validTree value = true := by
  obtain ⟨report, walked, rfl⟩ := Option.map_eq_some_iff.mp measured
  obtain ⟨-, count, bytes, rfl⟩ := walk_eq_some.mp walked
  exact validTree_object (hexadecimal _) (one_le_length_listing tree.files) count bytes

/-- What the measurement of a generation is. -/
structure Measurement.Valid (generation : String) (count : Nat) (measurement : Measurement) :
    Prop where
  declaration : isHex 64 measurement.declaration = true
  artifact : validArtifact generation measurement.artifact = true
  count : ∀ artifacts : Json, artifacts.field generation = some measurement.artifact →
    requiredCount artifacts generation = count

theorem measureGeneration_valid (hexadecimal : Hexadecimal sha256) {request : Request}
    {paths : Paths} {generation : String} {files : GenerationFiles} {measurement : Measurement}
    (manifest : Manifested paths) (member : generation ∈ generations)
    (measured : measureGeneration sha256 request (paths generation) files = some measurement) :
    measurement.Valid generation (paths generation).length := by
  simp only [measureGeneration, Option.bind_eq_bind, Option.bind_eq_some_iff,
    Option.ite_none_right_eq_some, Option.some.injEq] at measured
  obtain ⟨raw, -, declared, declares, required, found, rootfs, walked, tftp, walked', again, -, -,
    rfl⟩ := measured
  obtain ⟨valid, listed, length⟩ :=
    validRequired_all hexadecimal (manifest.required generation) found
  rw [← @List.length_map _ _ required RequiredFile.json] at length
  have complete := manifest.complete generation member
  obtain ⟨some, few⟩ := manifest.bounds member
  refine ⟨?_, ?_, ?_⟩
  · simp only [PxeReceipt.declaration, Option.bind_eq_some_iff, Option.ite_none_right_eq_some,
      Option.some.injEq] at declares
    obtain ⟨value, -, -, rfl⟩ := declares
    exact hexadecimal raw
  · simp only [validArtifact, Bool.and_eq_true]
    refine ⟨⟨⟨?_, checkField_object rfl (validTree_fingerprint hexadecimal walked)⟩,
      checkField_object rfl (validTree_fingerprint hexadecimal walked')⟩,
      checkField_object rfl ?_⟩
    · rw [Json.keysAre_object]
      rfl
    · simp only [validRequiredList, Bool.and_eq_true, decide_eq_true_eq]
      rw [listed, valid, length]
      exact ⟨⟨⟨⟨some, few⟩, rfl⟩, manifest.canonical generation⟩, complete⟩
  · intro artifacts same
    rw [requiredCount, same, Option.bind_some, Json.field_object]
    exact length

/-! ## The receipt that is built -/

/-- What the fields of a built receipt rest on. -/
structure Built (request : Request) (build : Build) (manifest : List UInt8)
    (rpi4 rpi5 : Measurement) : Prop where
  date : isDate request.bundleDate = true
  buildId : isBuildId request.buildId = true
  revision : isHex 40 request.infraRevision = true
  profile : isGenerationProfile request.generationProfile = true
  counts : ∃ count count', rpi4.Valid "rpi4" count ∧ rpi5.Valid "rpi5" count' ∧
    count + count' ≤ 128
  paired : rpi4.declaration = rpi5.declaration

/-- **What the measurement steps find.** -/
theorem measure_eq_some (hexadecimal : Hexadecimal sha256) {request : Request} {build : Build}
    {value : Json} (measured : measure sha256 request build = some value) :
    ∃ manifest rpi4 rpi5, Built request build manifest rpi4 rpi5 ∧
      value = builtReceipt sha256 request build manifest rpi4 rpi5 := by
  simp only [measure, Option.ite_none_right_eq_some, Option.bind_eq_bind, Option.bind_eq_some_iff,
    Option.some.injEq, Bool.and_eq_true, decide_eq_true_eq] at measured
  obtain ⟨⟨⟨⟨date, buildId⟩, revision⟩, profile⟩, manifest, -, paths, accepted, rpi4, first, rpi5,
    second, ⟨⟨⟨paired, -⟩, -⟩, -⟩, rfl⟩ := measured
  have listed := manifested accepted
  have total := listed.total
  simp only [generations, List.map_cons, List.map_nil, List.sum_cons, List.sum_nil] at total
  refine ⟨manifest, rpi4, rpi5, ⟨date, buildId, revision, profile, ⟨_, _,
    measureGeneration_valid hexadecimal listed (by decide) first,
    measureGeneration_valid hexadecimal listed (by decide) second, ?_⟩, paired⟩, rfl⟩
  omega

theorem receiptPayload_object (fields : List (String × Json)) :
    receiptPayload (.object fields) = .object (fields.filter fun field => field.1 ≠ "receipt_id") := by
  rw [Json.object, receiptPayload, List.filter_map, Json.object]
  refine congrArg Json.obj (congrArg _ (List.filter_congr fun field _ => ?_))
  rw [Function.comp, decide_eq_decide, Ne, String.toList_inj]

/-- The identity of a receipt is that of its other fields. -/
theorem receiptId_built (request : Request) (build : Build) (manifest : List UInt8)
    (rpi4 rpi5 : Measurement) :
    receiptId sha256 (builtReceipt sha256 request build manifest rpi4 rpi5) =
      receiptId sha256 (.object (receiptFields sha256 request build manifest rpi4 rpi5)) := by
  have payload : receiptPayload (builtReceipt sha256 request build manifest rpi4 rpi5) =
      receiptPayload (.object (receiptFields sha256 request build manifest rpi4 rpi5)) := by
    rw [builtReceipt, receiptPayload_object, receiptPayload_object, List.filter_append]
    exact congrArg Json.object (List.append_nil _)
  unfold receiptId
  rw [payload]

theorem validateWindow_built {started finished : Moment}
    (order : started.fields ≤ finished.fields) :
    validateWindow (.object [("started_at", .str started.text),
      ("finished_at", .str finished.text)]) = true := by
  refine validateWindow_eq_true.mpr ⟨?_, started.text, finished.text, fieldText_object _ _,
    fieldText_object _ _, started.isTimestamp_text, finished.isTimestamp_text,
    Moment.text_le order⟩
  rw [Json.keysAre_object]
  rfl

/-- **A receipt that is built is valid**, if the clock does not go backwards. -/
theorem Built.valid (hexadecimal : Hexadecimal sha256) {request : Request} {build : Build}
    {manifest : List UInt8} {rpi4 rpi5 : Measurement}
    (built : Built request build manifest rpi4 rpi5)
    (order : build.started.fields ≤ build.finished.fields) :
    Valid sha256 (builtReceipt sha256 request build manifest rpi4 rpi5) := by
  obtain ⟨count, count', first, second, few⟩ := built.counts
  refine {
    keys := ?_
    schema := isField_object rfl
    scope := isField_object rfl
    environment := isField_object rfl
    date := textField_object rfl built.date
    build := textField_object rfl built.buildId
    profile := textField_object rfl built.profile
    revision := textField_object rfl built.revision
    manifest := textField_object rfl (hexadecimal manifest)
    declarations := checkField_object rfl ?_
    window := checkField_object rfl (validateWindow_built order)
    artifacts := checkField_object rfl ?_
    identity := ?_ }
  · rw [builtReceipt, Json.keysAre_object]
    rfl
  · simp only [validDeclarations, Bool.and_eq_true, List.all_eq_true, decide_eq_true_eq]
    refine ⟨⟨?_, fun generation member => ?_⟩, ?_⟩
    · rw [Json.keysAre_object]
      rfl
    · simp only [generations, List.mem_cons, List.not_mem_nil, or_false] at member
      rcases member with rfl | rfl
      · exact textField_object rfl first.declaration
      · exact textField_object rfl second.declaration
    · rw [fieldText_object, fieldText_object]
      exact congrArg some built.paired
  · simp only [validArtifacts, Bool.and_eq_true, List.all_eq_true, decide_eq_true_eq]
    refine ⟨⟨?_, fun generation member => ?_⟩, ?_⟩
    · rw [Json.keysAre_object]
      rfl
    · simp only [generations, List.mem_cons, List.not_mem_nil, or_false] at member
      rcases member with rfl | rfl
      · exact checkField_object rfl first.artifact
      · exact checkField_object rfl second.artifact
    · simp only [generations, List.map_cons, List.map_nil, List.sum_cons, List.sum_nil]
      rw [first.count _ (Json.field_object _ _), second.count _ (Json.field_object _ _)]
      omega
  · rw [receiptId_built, builtReceipt, fieldText_object]
    rfl

end Measurements

/-- **Producer and reader agree on the format of receipts.** -/
theorem receipt_format_agrees {sha256 : List UInt8 → List Char}
    (hexadecimal : Hexadecimal sha256) :
    (∀ (request : Request) (build : Build) (value : Json),
        measure sha256 request build = some value →
        build.started.fields ≤ build.finished.fields →
        validateReceipt sha256 value = true ∧ (encoded value).length ≤ maxReceipt ∧
          ∃ read, readReceipt sha256 (encoded value) request.bundleDate =
              some (read, sha256 (encoded value)) ∧ read.sortKeys = value.sortKeys) ∧
      ∀ (raw : List UInt8) (bundleDate : List Char),
        ((readReceipt sha256 raw bundleDate).isSome ↔
            ∃ value, Stores sha256 raw bundleDate value) ∧
          ∀ value other, Stores sha256 raw bundleDate value →
            Stores sha256 raw bundleDate other → value.sortKeys = other.sortKeys := by
  refine ⟨fun request build value measured order => ?_, readReceipt_iff hexadecimal⟩
  obtain ⟨manifest, rpi4, rpi5, built, rfl⟩ := measure_eq_some hexadecimal measured
  have valid := built.valid hexadecimal order
  have validated := validateReceipt_eq_true.mpr valid
  have size := valid.sorted.compactLength_le hexadecimal
  have stores : Stores sha256 (encoded (builtReceipt sha256 request build manifest rpi4 rpi5))
      request.bundleDate (builtReceipt sha256 request build manifest rpi4 rpi5) :=
    ⟨rfl, validated, fieldText_object _ _⟩
  refine ⟨validated, ?_, _, readReceipt_of_stores hexadecimal stores, sortKeys_sortKeys _⟩
  rw [length_encoded, maxReceipt]
  omega

section Steps

variable {sha256 : List UInt8 → List Char} {request : Request}

theorem measureGeneration_of_steps {names : List (List Char)} {files : GenerationFiles}
    {raw : List UInt8} {declared : List Char} {required : List RequiredFile} {rootfs tftp : Json}
    (file : files.declaration = some raw) (read : fileBytes 4096 raw = some raw)
    (declares : declaration sha256 raw request.buildId request.infraRevision = some declared)
    (found : requiredFiles sha256 files.boot names = some required)
    (walked : fingerprintTree sha256 files.rootfs.files = some rootfs)
    (walked' : fingerprintTree sha256 files.tftp.files = some tftp)
    (again : requiredFiles sha256 files.bootAgain names = some required) :
    measureGeneration sha256 request names files = some ⟨declared, .object [("rootfs", rootfs),
      ("tftp", tftp), ("required_tftp", .arr (required.map RequiredFile.json))]⟩ := by
  simp only [measureGeneration, file, read, declares, found, walked, walked', again,
    Option.bind_eq_bind, Option.bind_some, if_true]

theorem measure_of_steps {build : Build} {manifest : List UInt8} {paths : Paths}
    {rpi4 rpi5 : Measurement}
    (fits : (isDate request.bundleDate && isBuildId request.buildId &&
      isHex 40 request.infraRevision && isGenerationProfile request.generationProfile) = true)
    (file : build.manifest = some manifest) (again : build.manifestAgain = some manifest)
    (read : fileBytes (512 * 1024) manifest = some manifest)
    (accepted : manifestPaths manifest request.bundleDate = some paths)
    (first : measureGeneration sha256 request (paths "rpi4") (build.files "rpi4") = some rpi4)
    (second : measureGeneration sha256 request (paths "rpi5") (build.files "rpi5") = some rpi5)
    (paired : rpi4.declaration = rpi5.declaration)
    (unchanged : declarationUnchanged sha256 request (build.files "rpi4") rpi4.declaration = true)
    (unchanged' : declarationUnchanged sha256 request (build.files "rpi5") rpi5.declaration = true) :
    measure sha256 request build = some (builtReceipt sha256 request build manifest rpi4 rpi5) := by
  rw [paired] at unchanged
  simp only [measure, fits, file, again, read, accepted, first, second, unchanged, unchanged',
    paired, Option.bind_eq_bind, Option.bind_some, decide_true, Bool.and_self, if_true]

theorem declarationUnchanged_of {files : GenerationFiles} {raw : List UInt8}
    {declared : List Char} (again : files.declarationAgain = some raw)
    (read : fileBytes 4096 raw = some raw)
    (declares : declaration sha256 raw request.buildId request.infraRevision = some declared) :
    declarationUnchanged sha256 request files declared = true := by
  rw [declarationUnchanged, again, Option.bind_some, read, Option.bind_some, declares]
  exact decide_eq_true rfl

end Steps

/-! ## A build of two bare trees -/

section Sample

def sampleRequest : Request :=
  ⟨"20260701".toList, "20260701-a".toList, sampleRevision, "standard".toList⟩

def sampleNames (generation : String) : List (List Char) :=
  [deviceTree generation, "initramfs.img".toList, "kernel.img".toList, overlays]

def sampleManifest : Json :=
  .object [("schema", .int 1), ("policy", .text "paired_clean"),
    ("bundle_date", .str sampleRequest.bundleDate),
    ("releases", .object (generations.map fun generation =>
      (generation, .str (release sampleRequest.bundleDate generation)))),
    ("target_hosts", .arr []), ("target_stages", .arr [.text "stg"]),
    ("required_tftp_paths", .arr (generations.flatMap fun generation =>
      (sampleNames generation).map fun path => .object [("generation", .text generation),
        ("release", .str (release sampleRequest.bundleDate generation)), ("path", .str path)])),
    ("markers", .arr []), ("metadata", .object [])]

def sampleContent : List UInt8 :=
  utf8Bytes "abc".toList

def sampleRoot : Inode :=
  ⟨0o755, 0, 0, 1, [], (1, 1), 1, .directory⟩

theorem sampleRoot_only {path : List FileName} {inode : Inode}
    (has : (NamedTree.node sampleRoot []).Has path inode) : path = [] ∧ inode = sampleRoot := by
  cases has with
  | here => exact ⟨rfl, rfl⟩
  | into none => exact absurd none List.not_mem_nil

/-- A directory without entries. -/
def sampleTree : FileTree where
  files := .node sampleRoot []
  distinct := ⟨List.nodup_nil, fun _ none => absurd none List.not_mem_nil⟩
  onlyDirectories := ⟨fun some => absurd rfl some, fun _ none => absurd none List.not_mem_nil⟩
  rooted := fun _ has => (sampleRoot_only has).2 ▸ rfl
  attributes := fun _ _ has => (sampleRoot_only has).2 ▸ List.nodup_nil
  linked := fun _ _ _ _ has has' _ _ _ apart =>
    absurd ((sampleRoot_only has).1.trans (sampleRoot_only has').1.symm) apart

def sampleFiles : GenerationFiles where
  declaration := some (utf8Bytes sampleDeclaration)
  declarationAgain := some (utf8Bytes sampleDeclaration)
  boot := ⟨true, fun _ => some sampleContent⟩
  bootAgain := ⟨true, fun _ => some sampleContent⟩
  rootfs := sampleTree
  tftp := sampleTree

def sampleMoment (second : Nat) (small : second ≤ 59) : Moment :=
  ⟨2026, 7, 1, 0, 0, second, by decide, by decide, by decide, by decide, small⟩

def sampleBuild (started finished : Moment) : Build :=
  ⟨some (encoded sampleManifest), some (encoded sampleManifest), fun _ => sampleFiles, started,
    finished⟩

/-- The SHA-256 of the texts that are hashed here, told by their lengths: the content, the tree, the
declaration, the manifest, the receipt without its identity, and else the receipt. -/
def sampleSha256 (raw : List UInt8) : List Char :=
  match raw.length with
  | 3 => "ba7816bf8f01cfea414140de5dae2223b00361a396177a9cb410ff61f20015ad".toList
  | 120 => "c562162f2eed41954cec40cfde87a24f135c387ec2f0499a61424e8528a16e83".toList
  | 159 => "be128e24afa4380d344aebd83ba998b7e4df8677c62fecb681f6b51e7f03d02d".toList
  | 778 => "ede5e57bb8bd4abcc76ad52f9ad0fb5cde973a56e925079dd205023554169129".toList
  | 2367 => "b464f2ea8525af9d2c57e8bf2332c0da1e4246d26d1ca048e714e2980e6e7f6e".toList
  | _ => "21716658880557803aeec0efe65054f727893619d79d4c6302aac4702dcde6f0".toList

theorem sampleSha256_hexadecimal : Hexadecimal sampleSha256 := by
  intro raw
  unfold sampleSha256
  split <;> decide

theorem sampleManifest_readable : sampleManifest.Readable := by
  refine readable_object (by decide) ?_
  simp only [List.forall_mem_cons, List.not_mem_nil, false_imp_iff, implies_true, and_true]
  refine ⟨trivial, trivial, trivial, ?_, trivial, ⟨trivial, trivial⟩, ?_, trivial,
    readable_object (by decide) fun _ none => absurd none List.not_mem_nil⟩
  · refine readable_object (by decide) fun field member => ?_
    obtain ⟨generation, -, rfl⟩ := List.mem_map.mp member
    trivial
  · refine readable_arr fun item member => ?_
    obtain ⟨generation, -, inside⟩ := List.mem_flatMap.mp member
    obtain ⟨path, -, rfl⟩ := List.mem_map.mp inside
    refine readable_object ?_ ?_
    · simp only [List.map_cons, List.map_nil]
      decide
    · simp only [List.forall_mem_cons, List.not_mem_nil, false_imp_iff, implies_true, and_true]
      exact ⟨trivial, trivial, trivial⟩

theorem sample_manifested : ∃ paths, manifestPaths (encoded sampleManifest)
    sampleRequest.bundleDate = some paths ∧
      ∀ generation ∈ generations, paths generation = sampleNames generation := by
  have loaded : loadsBytes uniqueKeys (encoded sampleManifest) = some sampleManifest.sortKeys :=
    loadsBytes_encoded sampleManifest_readable
  have read : ((manifestPaths (encoded sampleManifest) sampleRequest.bundleDate).any
      fun paths => generations.all fun generation =>
        paths generation = sampleNames generation) = true := by
    unfold manifestPaths
    rw [loaded, Option.bind_some]
    decide +kernel
  obtain ⟨paths, accepted, names⟩ := (Option.any_eq_true _ _).mp read
  simp only [List.all_eq_true, decide_eq_true_eq] at names
  exact ⟨paths, accepted, names⟩

theorem sample_declared : declaration sampleSha256 (utf8Bytes sampleDeclaration)
    sampleRequest.buildId sampleRequest.infraRevision =
      some (sampleSha256 (utf8Bytes sampleDeclaration)) := by
  have plain : detectEncoding (utf8Bytes sampleDeclaration) = .utf8 := by decide +kernel
  obtain ⟨value, load, declares⟩ := sample_read
  refine declaration_eq_some.2 ⟨value, ?_, declares, rfl⟩
  rw [loadsBytes, plain, decodeAs, utf8Decode_utf8Bytes, Option.bind_some, load]

theorem sample_declaration_read : fileBytes 4096 (utf8Bytes sampleDeclaration) =
    some (utf8Bytes sampleDeclaration) :=
  fileBytes_eq_some.mpr ⟨by decide +kernel, rfl⟩

theorem sample_manifest_read : fileBytes (512 * 1024) (encoded sampleManifest) =
    some (encoded sampleManifest) :=
  fileBytes_eq_some.mpr ⟨by decide +kernel, rfl⟩

theorem sample_measured_generation {generation : String} (member : generation ∈ generations) :
    ∃ artifact, measureGeneration sampleSha256 sampleRequest (sampleNames generation) sampleFiles =
      some ⟨sampleSha256 (utf8Bytes sampleDeclaration), artifact⟩ := by
  have found : (requiredFiles sampleSha256 sampleFiles.boot (sampleNames generation)).isSome := by
    simp only [generations, List.mem_cons, List.not_mem_nil, or_false] at member
    rcases member with rfl | rfl
    · decide +kernel
    · decide +kernel
  have walked : (fingerprintTree sampleSha256 sampleTree.files).isSome := by decide +kernel
  obtain ⟨required, found⟩ := Option.isSome_iff_exists.mp found
  obtain ⟨tree, walked⟩ := Option.isSome_iff_exists.mp walked
  exact ⟨_, measureGeneration_of_steps rfl sample_declaration_read sample_declared found walked walked
    found⟩

theorem sample_unchanged : declarationUnchanged sampleSha256 sampleRequest sampleFiles
    (sampleSha256 (utf8Bytes sampleDeclaration)) = true := by
  exact declarationUnchanged_of rfl sample_declaration_read sample_declared

theorem sample_measured (started finished : Moment) :
    ∃ value, measure sampleSha256 sampleRequest (sampleBuild started finished) = some value := by
  obtain ⟨paths, accepted, names⟩ := sample_manifested
  obtain ⟨rpi4, first⟩ := @sample_measured_generation "rpi4" (by decide)
  obtain ⟨rpi5, second⟩ := @sample_measured_generation "rpi5" (by decide)
  rw [← names _ (by decide)] at first second
  refine ⟨_, @measure_of_steps sampleSha256 sampleRequest (sampleBuild started finished)
    (encoded sampleManifest) paths _ _ (by decide +kernel) ?_ ?_ sample_manifest_read accepted first
    second ?_ ?_ ?_⟩
  · rw [sampleBuild]
  · rw [sampleBuild]
  · rfl
  · simpa only [sampleBuild] using sample_unchanged
  · simpa only [sampleBuild] using sample_unchanged

theorem receipt_format_agrees_sample : ∃ value,
    measure sampleSha256 sampleRequest
        (sampleBuild (sampleMoment 0 (by decide)) (sampleMoment 1 (by decide))) = some value ∧
      validateReceipt sampleSha256 value = true ∧
      (readReceipt sampleSha256 (encoded value) "20260701".toList).isSome := by
  obtain ⟨value, measured⟩ := sample_measured (sampleMoment 0 (by decide))
    (sampleMoment 1 (by decide))
  obtain ⟨valid, -, read, same, -⟩ := (receipt_format_agrees sampleSha256_hexadecimal).1 _ _ value
    measured (by decide)
  exact ⟨value, measured, valid, Option.isSome_iff_exists.mpr ⟨_, same⟩⟩

end Sample

end HomeclusterInfra.PxeReceipt
