import HomeclusterInfra.PxeReceipt.Agreement

/-!
# Observing the manifest of a build

The manifest that a receipt certifies is also read by an observer on another host,
which checks it once more with a grammar of its own. The observer takes fields that
the producer does not look at, and a required path of at most 256 characters where
the producer takes 512. Of the manifests the release task writes and the producer
accepts, it observes exactly those without a longer required path.
-/

set_option autoImplicit false

namespace HomeclusterInfra.PxeReceipt

open Text JsonText Calendar

/-! ## The observer -/

/-- `_ALLOWED_KEYS` -/
def allowedKeys : List String :=
  ["schema", "policy", "bundle_date", "releases", "target_hosts", "target_stages",
    "required_tftp_paths", "markers", "metadata"]

/-- `MAX_BYTES` -/
def maxBytes : Nat :=
  512 * 1024

def Json.isText : Json → Bool
  | .str _ => true
  | _ => false

/-- A list whose items all pass a test. -/
def Json.isListOf (test : Json → Bool) : Json → Bool
  | .arr items => items.all test
  | _ => false

/-- An entry names a generation, and the release of that generation. -/
def ofRelease (date : List Char) (entry : Json) : Bool :=
  generations.any fun generation =>
    isField entry "generation" generation && fieldText entry "release" = some (release date generation)

/-- The check of an observed path. -/
def isShortPath (path : List Char) : Bool :=
  0 < path.length && path.length ≤ 256

/-- The check of an entry of `required_tftp_paths`. -/
def observedPath (date : List Char) (entry : Json) : Bool :=
  entry.keysAre ["generation", "release", "path"] && ofRelease date entry &&
    textField entry "path" isShortPath

/-- The check of an entry of `markers`. -/
def observedMarker (date : List Char) (entry : Json) : Bool :=
  entry.keysAre ["artifact_type", "generation", "release", "marker_path"] &&
    (isField entry "artifact_type" "rootfs" || isField entry "artifact_type" "tftp") &&
    ofRelease date entry && textField entry "marker_path" isShortPath

/-- The releases of a date. -/
def expectedReleases (date : List Char) : List (String × List Char) :=
  generations.map fun generation => (generation, release date generation)

/-- `_manifest` of the observer. -/
def observedReleases (value : Json) (date : List Char) : Option (List (String × List Char)) :=
  if value.keysAre allowedKeys && intField value "schema" 1 1 &&
      isField value "policy" "paired_clean" && fieldText value "bundle_date" = some date &&
      checkField value "releases" (fun releases => releases.keysAre generations &&
        generations.all fun generation =>
          fieldText releases generation = some (release date generation)) &&
      checkField value "target_hosts" (Json.isListOf Json.isText) &&
      checkField value "target_stages" (Json.isListOf Json.isText) &&
      checkField value "required_tftp_paths" (Json.isListOf (observedPath date)) &&
      checkField value "markers" (Json.isListOf (observedMarker date)) &&
      checkField value "metadata" Json.isDict then
    some (expectedReleases date)
  else none

/-- What the observer finds at the fixed path. -/
inductive ManifestFile where
  | missing
  | unavailable
  | irregular
  /-- A regular file of a size, the bytes that were read, and whether it changed. -/
  | regular (size : Nat) (payload : List UInt8) (changed : Bool)

/-- What the observer answers. -/
structure Observation where
  schema : String
  status : String
  reason : String
  scope : String
  bundleDate : List Char
  manifestSha256 : Option (List Char)
  releases : Option (List (String × List Char))
  generationRunId : Option (List Char)
  sourceRevision : Option (List Char)
deriving DecidableEq

/-- `_result` -/
def observation (date : List Char) (reason : String) (digest : Option (List Char))
    (releases : Option (List (String × List Char))) : Observation where
  schema := "pxe-bundle-manifest-readonly-observation-v1"
  status := if digest.isSome then "partial" else "unknown"
  reason := reason
  scope := "paired_manifest_bytes_unbound_to_generation_run"
  bundleDate := date
  manifestSha256 := digest
  releases := releases
  generationRunId := none
  sourceRevision := none

/-- `inspect`, on the file of the date. -/
def inspect (sha256 : List UInt8 → List Char) (date : List Char) (file : ManifestFile) :
    Observation :=
  if isDate date then
    match file with
    | .missing => observation date "manifest_missing" none none
    | .unavailable => observation date "manifest_unavailable" none none
    | .irregular => observation date "manifest_invalid" none none
    | .regular size payload changed =>
        if size = 0 || size > maxBytes then observation date "manifest_invalid" none none
        else if payload.length ≠ size || changed then
          observation date "manifest_changed_during_read" none none
        else
          match loadsBytes dictOf payload with
          | none => observation date "manifest_invalid" none none
          | some data =>
              match observedReleases data date with
              | none => observation date "manifest_contract_invalid" none none
              | some releases => observation date "manifest_bytes_observed_run_binding_unknown"
                  (some (sha256 payload)) (some releases)
  else observation [] "bundle_date_invalid" none none

/-! ## What the release task writes -/

/-- A marker entry as the release task makes it. -/
def isMarker (date : List Char) (entry : Json) : Bool :=
  entry.keysAre ["artifact_type", "generation", "release", "marker_path"] &&
    (isField entry "artifact_type" "rootfs" || isField entry "artifact_type" "tftp") &&
    ofRelease date entry &&
    textField entry "marker_path" fun path =>
      "/srv/gentoo/".toList.isPrefixOf path && path.length ≤ 256

/-- A manifest of the shape that the release task writes. -/
structure IsBundle (date : List Char) (value : Json) : Prop where
  hosts : checkField value "target_hosts" (Json.isListOf Json.isText) = true
  stages : checkField value "target_stages" (Json.isListOf Json.isText) = true
  markers : checkField value "markers" (Json.isListOf (isMarker date)) = true

section Observed

variable {date : List Char} {value item : Json} {paths paths' : Paths} {raw : List UInt8}

theorem observedMarker_of_isMarker (marker : isMarker date item = true) :
    observedMarker date item = true := by
  simp only [isMarker, textField, Bool.and_eq_true, Option.any_eq_true, decide_eq_true_eq,
    List.isPrefixOf_iff_prefix] at marker
  obtain ⟨⟨⟨keys, artifact⟩, known⟩, path, found, prefixed, short⟩ := marker
  have long := prefixed.length_le
  have passes : isShortPath path = true := by
    rw [isShortPath, Bool.and_eq_true, decide_eq_true_eq, decide_eq_true_eq]
    exact ⟨Nat.lt_of_lt_of_le (by decide) long, short⟩
  rw [observedMarker, keys, artifact, known, textField, found, Option.any_some, passes]
  rfl

theorem IsBundle.observedMarkers (bundle : IsBundle date value) :
    checkField value "markers" (Json.isListOf (observedMarker date)) = true := by
  obtain ⟨list, found, all⟩ := (Option.any_eq_true _ _).mp bundle.markers
  rw [checkField, found, Option.any_some]
  cases list with
  | arr items =>
      have each := List.all_eq_true.mp all
      exact List.all_eq_true.mpr fun item member => observedMarker_of_isMarker (each item member)
  | null | bool | int | float | str | obj => cases all

/-- What `_manifest` of the producer takes of an item is what the observer takes of
it, but for the length of the path. -/
theorem observedPath_of_addPath (added : addPath date paths item = some paths') :
    ∃ generation ∈ generations, ∃ path,
      paths' = Function.update paths generation (paths generation ++ [path]) ∧
      (observedPath date item = true ↔ path.length ≤ 256) := by
  simp only [addPath, Option.ite_none_right_eq_some, Option.bind_eq_some_iff, Option.some.injEq,
    Bool.and_eq_true, decide_eq_true_eq] at added
  obtain ⟨keys, generation, found, path, isPath, ⟨⟨released, required⟩, -⟩, rfl⟩ := added
  have member := List.mem_of_find?_eq_some found
  refine ⟨generation, member, path, rfl, ?_⟩
  have known : ofRelease date item = true := by
    refine List.any_eq_true.mpr ⟨generation, member, ?_⟩
    rw [List.find?_some found, released, Bool.true_and]
    exact decide_eq_true rfl
  have nonempty : 0 < path.length := by
    cases path with
    | nil => cases required
    | cons first rest => exact Nat.succ_pos _
  rw [observedPath, keys, known, textField, isPath, Option.any_some, isShortPath,
    decide_eq_true nonempty]
  simp

/-- **The whole loop**: the observer takes all items exactly when the paths that the
producer collected are short. -/
theorem observedPath_of_addAll {items : List Json}
    (added : items.foldlM (addPath date) paths = some paths') :
    (∀ generation ∈ generations, ∀ path ∈ paths' generation, path.length ≤ 256) ↔
      (∀ generation ∈ generations, ∀ path ∈ paths generation, path.length ≤ 256) ∧
        ∀ item ∈ items, observedPath date item = true := by
  induction items generalizing paths with
  | nil =>
      obtain rfl := Option.some.inj added
      simp
  | cons item items ih =>
      rw [List.foldlM_cons] at added
      obtain ⟨between, first, rest⟩ := Option.bind_eq_some_iff.mp added
      obtain ⟨generation, member, path, rfl, observed⟩ := observedPath_of_addPath first
      rw [ih rest, List.forall_mem_cons, observed, ← and_assoc]
      refine and_congr_left fun _ => ?_
      constructor
      · intro short
        refine ⟨fun other isOther name inside => ?_, ?_⟩
        · by_cases same : other = generation
          · subst same
            refine short other isOther name ?_
            rw [Function.update_self]
            exact List.mem_append_left _ inside
          · refine short other isOther name ?_
            rwa [Function.update_of_ne same]
        · refine short generation member path ?_
          rw [Function.update_self]
          exact List.mem_append_right _ (List.mem_singleton_self path)
      · rintro ⟨old, new⟩ other isOther name inside
        by_cases same : other = generation
        · subst same
          rw [Function.update_self, List.mem_append, List.mem_singleton] at inside
          rcases inside with before | rfl
          · exact old other isOther name before
          · exact new
        · rw [Function.update_of_ne same] at inside
          exact old other isOther name inside

/-- What the producer's check of a manifest tells of its fields. -/
theorem observedReleases_iff (accepted : manifestPaths raw date = some paths)
    (read : loadsBytes dictOf raw = some value) (bundle : IsBundle date value) :
    observedReleases value date =
      if ∀ generation ∈ generations, ∀ path ∈ paths generation, path.length ≤ 256 then
        some (expectedReleases date)
      else none := by
  simp only [manifestPaths, Option.bind_eq_some_iff, Option.ite_none_right_eq_some,
    Bool.and_eq_true, decide_eq_true_eq] at accepted
  obtain ⟨found, unique, ⟨⟨⟨⟨⟨⟨⟨keys, schema⟩, isDate⟩, policy⟩, released⟩, metadata⟩, -⟩, -⟩,
    accepted⟩ := accepted
  have same := loadsBytes_widens dictOf_widens_uniqueKeys unique
  rw [read, Option.some.injEq] at same
  subst same
  split at accepted
  case h_2 => cases accepted
  next items required =>
      simp only [Option.ite_none_right_eq_some, Option.bind_eq_some_iff, Option.some.injEq]
        at accepted
      obtain ⟨-, unsorted, added, -, rfl⟩ := accepted
      have whole := observedPath_of_addAll added
      have none : ∀ generation ∈ generations, ∀ path ∈ ([] : List (List Char)), path.length ≤ 256 :=
        fun _ _ _ member => absurd member List.not_mem_nil
      have checked : checkField value "required_tftp_paths" (Json.isListOf (observedPath date)) =
          decide (∀ generation ∈ generations, ∀ path ∈ unsorted generation, path.length ≤ 256) := by
        rw [checkField, required, Bool.eq_iff_iff, decide_eq_true_iff, whole]
        exact List.all_eq_true.trans ⟨fun all => ⟨none, all⟩, And.right⟩
      simp only [List.mem_insertionSort]
      rw [observedReleases, show value.keysAre allowedKeys = true from keys, schema, policy, isDate,
        bundle.hosts, bundle.stages, bundle.observedMarkers, metadata, checked, released]
      simp

end Observed

/-- The digest that a receipt certifies is that of the manifest. -/
theorem certified_digest {sha256 : List UInt8 → List Char} {request : Request} {build : Build}
    {raw : List UInt8} {receipt : Json} (given : build.manifest = some raw)
    (measured : measure sha256 request build = some receipt) :
    fieldText receipt "artifact_manifest_sha256" = some (sha256 raw) := by
  simp only [measure, Option.ite_none_right_eq_some, Option.bind_eq_bind, Option.bind_eq_some_iff,
    Option.some.injEq, given, fileBytes_eq_some] at measured
  obtain ⟨-, manifest, ⟨bytes, rfl, -, rfl⟩, paths, -, rpi4, -, rpi5, -, -, rfl⟩ := measured
  exact fieldText_object _ _

/-- What is answered of a file that is read. -/
theorem inspect_of_read {sha256 : List UInt8 → List Char} {raw : List UInt8} {date : List Char}
    {value : Json} (day : isDate date = true) (small : raw.length ≤ maxBytes)
    (read : loadsBytes dictOf raw = some value) :
    inspect sha256 date (.regular raw.length raw false) =
      match observedReleases value date with
      | none => observation date "manifest_contract_invalid" none none
      | some releases => observation date "manifest_bytes_observed_run_binding_unknown"
          (some (sha256 raw)) (some releases) := by
  have nonempty : raw.length ≠ 0 := by
    intro empty
    rw [List.length_eq_zero_iff] at empty
    subst empty
    have nothing : loadsBytes dictOf [] = none := by decide +kernel
    rw [nothing] at read
    cases read
  have sized : (decide (raw.length = 0) || decide (raw.length > maxBytes)) = false := by
    rw [Bool.or_eq_false_iff, decide_eq_false_iff_not, decide_eq_false_iff_not, not_lt]
    exact ⟨nonempty, small⟩
  simp only [inspect, day, if_true, sized, Bool.false_eq_true, if_false, read, ne_eq, not_true,
    decide_false, Bool.or_self]

/-- **Which certified manifests are observed.** Let the bytes of a manifest of the
shape that the release task writes be accepted by the producer. The observer of a
file with these bytes, which does not change, answers with both releases and the
digest that a receipt of the producer certifies exactly when no required path has
more than 256 characters. -/
theorem manifest_observed_iff {sha256 : List UInt8 → List Char} {raw : List UInt8}
    {date : List Char} {value : Json} {paths : Paths} (day : isDate date = true)
    (small : raw.length ≤ 512 * 1024) (read : loadsBytes dictOf raw = some value)
    (bundle : IsBundle date value) (accepted : manifestPaths raw date = some paths) :
    ((inspect sha256 date (.regular raw.length raw false)).status = "partial" ∧
        (inspect sha256 date (.regular raw.length raw false)).manifestSha256 = some (sha256 raw) ∧
        (inspect sha256 date (.regular raw.length raw false)).releases =
          some [("rpi4", release date "rpi4"), ("rpi5", release date "rpi5")] ↔
      ∀ generation ∈ generations, ∀ path ∈ paths generation, path.length ≤ 256) ∧
    ∀ (request : Request) (build : Build) (receipt : Json), build.manifest = some raw →
      measure sha256 request build = some receipt →
      fieldText receipt "artifact_manifest_sha256" = some (sha256 raw) := by
  refine ⟨?_, fun request build receipt given measured => certified_digest given measured⟩
  rw [inspect_of_read day small read, observedReleases_iff accepted read bundle]
  by_cases short : ∀ generation ∈ generations, ∀ path ∈ paths generation, path.length ≤ 256
  · rw [if_pos short]
    exact ⟨fun _ => short, fun _ => ⟨rfl, rfl, rfl⟩⟩
  · rw [if_neg short]
    refine ⟨fun observed => ?_, fun all => absurd all short⟩
    have unknown : "unknown" = "partial" := observed.1
    exact absurd unknown (by decide)

/-! ## A manifest with given names -/

section Sample

/-- The manifest of a staging build, with its required paths. -/
def bundleManifest (names : String → List (List Char)) : Json :=
  .object [("schema", .int 1), ("policy", .text "paired_clean"),
    ("bundle_date", .str sampleRequest.bundleDate),
    ("releases", .object (generations.map fun generation =>
      (generation, .str (release sampleRequest.bundleDate generation)))),
    ("target_hosts", .arr [.text "pi5-1"]), ("target_stages", .arr [.text "stg"]),
    ("required_tftp_paths", .arr (generations.flatMap fun generation =>
      (names generation).map fun path => .object [("generation", .text generation),
        ("release", .str (release sampleRequest.bundleDate generation)), ("path", .str path)])),
    ("markers", .arr (generations.map fun generation => .object
      [("artifact_type", .text "rootfs"), ("generation", .text generation),
        ("release", .str (release sampleRequest.bundleDate generation)),
        ("marker_path", .str ("/srv/gentoo/".toList ++
          release sampleRequest.bundleDate generation ++ "/.marker".toList))])),
    ("metadata", .object [])]

variable (names : String → List (List Char))

theorem bundleManifest_readable : (bundleManifest names).Readable := by
  refine readable_object ?_ ?_
  · simp only [List.map_cons, List.map_nil]
    decide
  simp only [List.forall_mem_cons, List.not_mem_nil, false_imp_iff, implies_true, and_true]
  refine ⟨trivial, trivial, trivial, ?_, ⟨trivial, trivial⟩, ⟨trivial, trivial⟩, ?_, ?_,
    readable_object (by decide) fun _ none => absurd none List.not_mem_nil⟩
  · refine readable_object (by decide) fun field member => ?_
    obtain ⟨generation, -, rfl⟩ := List.mem_map.mp member
    trivial
  · refine readable_arr fun item member => ?_
    obtain ⟨generation, -, inside⟩ := List.mem_flatMap.mp member
    obtain ⟨path, -, rfl⟩ := List.mem_map.mp inside
    refine readable_object ?_ ?_
    · simp only [List.map_cons, List.map_nil]
      decide
    · simp only [List.forall_mem_cons, List.not_mem_nil, false_imp_iff, implies_true, and_true]
      exact ⟨trivial, trivial, trivial⟩
  · refine readable_arr fun item member => ?_
    obtain ⟨generation, -, rfl⟩ := List.mem_map.mp member
    refine readable_object ?_ ?_
    · simp only [List.map_cons, List.map_nil]
      decide
    · simp only [List.forall_mem_cons, List.not_mem_nil, false_imp_iff, implies_true, and_true]
      exact ⟨trivial, trivial, trivial, trivial⟩

theorem bundleManifest_read :
    loadsBytes uniqueKeys (encoded (bundleManifest names)) = some (bundleManifest names).sortKeys :=
  loadsBytes_encoded (bundleManifest_readable names)

/-- What the producer reads of the manifest. -/
theorem bundleManifest_paths {read : String → List (List Char)}
    (accepted : ((manifestPaths (encoded (bundleManifest names)) sampleRequest.bundleDate).any
      fun paths => generations.all fun generation => paths generation = read generation) = true) :
    ∃ paths, manifestPaths (encoded (bundleManifest names)) sampleRequest.bundleDate = some paths ∧
      ∀ generation ∈ generations, paths generation = read generation := by
  obtain ⟨paths, found, same⟩ := (Option.any_eq_true _ _).mp accepted
  simp only [List.all_eq_true, decide_eq_true_eq] at same
  exact ⟨paths, found, same⟩

theorem bundleManifest_isBundle {names : String → List (List Char)}
    (checked : (checkField (bundleManifest names).sortKeys "target_hosts"
        (Json.isListOf Json.isText) &&
      checkField (bundleManifest names).sortKeys "target_stages" (Json.isListOf Json.isText) &&
      checkField (bundleManifest names).sortKeys "markers"
        (Json.isListOf (isMarker sampleRequest.bundleDate))) = true) :
    IsBundle sampleRequest.bundleDate (bundleManifest names).sortKeys := by
  simp only [Bool.and_eq_true] at checked
  exact ⟨checked.1.1, checked.1.2, checked.2⟩

end Sample

theorem manifest_observed_iff_sample :
    (inspect sampleSha256 sampleRequest.bundleDate
      (.regular (encoded (bundleManifest sampleNames)).length (encoded (bundleManifest sampleNames))
        false)).manifestSha256 = some (sampleSha256 (encoded (bundleManifest sampleNames))) := by
  have read := bundleManifest_read sampleNames
  obtain ⟨paths, accepted, names⟩ := @bundleManifest_paths sampleNames sampleNames (by
    unfold manifestPaths
    rw [read, Option.bind_some]
    decide +kernel)
  have bundle := @bundleManifest_isBundle sampleNames (by decide +kernel)
  have small : (encoded (bundleManifest sampleNames)).length ≤ 512 * 1024 := by decide +kernel
  have observed := @manifest_observed_iff sampleSha256 _ _ _ _ (by decide) small
    (loadsBytes_widens dictOf_widens_uniqueKeys read) bundle accepted
  refine (observed.1.mpr fun generation member path inside => ?_).2.1
  rw [names generation member] at inside
  have short : ∀ generation ∈ generations, ∀ path ∈ sampleNames generation, path.length ≤ 256 := by
    decide +kernel
  exact short generation member path inside

/-- A path of two names of 128 characters each. -/
def longPath : List Char :=
  List.replicate 128 'a' ++ '/' :: List.replicate 128 'a'

/-- The names of a build with a file under a long path. -/
def longNames (generation : String) : List (List Char) :=
  longPath :: sampleNames generation

/-- **A certified manifest is not observed**: a required path of 257 characters, none
of its names too long for a file system, is accepted by the producer and refused by
the observer. -/
theorem long_path_unobserved : ∃ raw value paths,
    raw.length ≤ 512 * 1024 ∧ loadsBytes dictOf raw = some value ∧
      IsBundle sampleRequest.bundleDate value ∧
      manifestPaths raw sampleRequest.bundleDate = some paths ∧
      ∀ sha256, (inspect sha256 sampleRequest.bundleDate (.regular raw.length raw false)).status =
        "unknown" := by
  have read := bundleManifest_read longNames
  have loaded := loadsBytes_widens dictOf_widens_uniqueKeys read
  obtain ⟨paths, accepted, names⟩ := @bundleManifest_paths longNames longNames (by
    unfold manifestPaths
    rw [read, Option.bind_some]
    decide +kernel)
  have bundle := @bundleManifest_isBundle longNames (by decide +kernel)
  have small : (encoded (bundleManifest longNames)).length ≤ 512 * 1024 := by decide +kernel
  have long : ¬∀ generation ∈ generations, ∀ path ∈ paths generation, path.length ≤ 256 := by
    intro short
    have first := short "rpi4" (by decide) longPath (by
      rw [names "rpi4" (by decide)]
      exact List.mem_cons_self ..)
    rw [longPath, List.length_append, List.length_cons, List.length_replicate] at first
    omega
  refine ⟨_, _, paths, small, loaded, bundle, accepted, fun sha256 => ?_⟩
  rw [inspect_of_read (by decide) small loaded, observedReleases_iff accepted loaded bundle,
    if_neg long]
  rfl

end HomeclusterInfra.PxeReceipt
