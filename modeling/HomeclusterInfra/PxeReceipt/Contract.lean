import HomeclusterInfra.Library.Calendar
import HomeclusterInfra.PxeReceipt.Declaration
import HomeclusterInfra.PxeReceipt.Fingerprint

/-!
# The format of a producer receipt

A receipt says what was measured of the two artifacts of a build. Its identity is
the digest of everything else in it, and it is stored as canonical JSON with one
newline. The reader accepts such a text only, byte for byte.

Every error of these functions is answered with one fixed text by their callers, so
they are tests here. SHA-256 is a parameter.
-/

set_option autoImplicit false

namespace HomeclusterInfra.PxeReceipt

open Text JsonText Calendar

/-! ## Fields -/

/-- `_string(value[key], pattern)` -/
def textField (value : Json) (key : String) (pattern : List Char → Bool) : Bool :=
  (fieldText value key).any pattern

/-- `type(value[key]) is int`, and the integer is between bounds. -/
def intField (value : Json) (key : String) (low high : Int) : Bool :=
  match value.field key with
  | some (.int number) => low ≤ number && number ≤ high
  | _ => false

/-- `value[key]` passes a check. -/
def checkField (value : Json) (key : String) (check : Json → Bool) : Bool :=
  (value.field key).any check

/-- `value[key] == text` -/
def isField (value : Json) (key text : String) : Bool :=
  fieldText value key = some text.toList

/-! ## Names -/

/-- `GENERATIONS` -/
def generations : List String :=
  ["rpi4", "rpi5"]

/-- `standard|rpi5-common-kernel` -/
def isGenerationProfile (text : List Char) : Bool :=
  text = "standard".toList || text = "rpi5-common-kernel".toList

/-- `_required_path` -/
def isRequiredPath : List Char → Bool
  | [] => false
  | first :: rest => first.isAlphanum && rest.length ≤ 511 &&
      rest.all (fun char => isNameChar char || char = '/') &&
      ((first :: rest).splitOn '/').all fun part => part ≠ [] && part ≠ ['.'] && part ≠ ['.', '.']

/-- `front[A-Za-z0-9._-]*\.img` -/
def isImage (front name : List Char) : Bool :=
  let back := ".img".toList
  let middle := (name.drop front.length).take (name.length - front.length - back.length)
  name = front ++ middle ++ back && middle.all isNameChar

/-- The device tree of a generation. -/
def deviceTree (generation : String) : List Char :=
  if generation = "rpi4" then "bcm2711-rpi-4-b.dtb".toList else "bcm2712-rpi-5-b.dtb".toList

def overlays : List Char :=
  "overlays".toList

/-- The boot artifacts of a generation are among the names. -/
def bootComplete (generation : String) (names : List (List Char)) : Bool :=
  names.contains (deviceTree generation) && names.contains overlays &&
    names.any (isImage "kernel".toList) && names.any (isImage "initramfs".toList)

/-- `sorted(set(names))` -/
def sortedSet (names : List (List Char)) : List (List Char) :=
  names.eraseDups.insertionSort (· ≤ ·)

/-! ## Checks -/

/-- `MAX_RECEIPT` -/
def maxReceipt : Nat :=
  256 * 1024

/-- `MAX_TFTP_FILE` -/
def maxTftpFile : Nat :=
  2 * 1024 * 1024 * 1024

/-- `_validate_window` -/
def validateWindow (value : Json) : Bool :=
  value.keysAre ["started_at", "finished_at"] &&
    match fieldText value "started_at", fieldText value "finished_at" with
    | some started, some finished =>
        isTimestamp started && isTimestamp finished && !decide (finished < started)
    | _, _ => false

/-- The check of the measurement of a tree. -/
def validTree (tree : Json) : Bool :=
  tree.keysAre ["schema", "algorithm", "digest", "entries", "regular_file_bytes"] &&
    isField tree "schema" "homecluster-pxe-artifact-tree-v1" &&
    isField tree "algorithm" "sha256-posix-tree-v1" && textField tree "digest" (isHex 64) &&
    intField tree "entries" 1 1000000 && intField tree "regular_file_bytes" 0 (1024 ^ 4)

/-- The check of a required file. -/
def validRequired (item : Json) : Bool :=
  textField item "path" isRequiredPath &&
    if fieldText item "path" = some overlays then
      item.keysAre ["path", "type"] && isField item "type" "directory"
    else
      item.keysAre ["path", "type", "sha256", "size"] && isField item "type" "regular" &&
        intField item "size" 1 maxTftpFile && textField item "sha256" (isHex 64)

/-- The paths of required files. -/
def pathsOf (items : List Json) : List (List Char) :=
  items.filterMap fun item => fieldText item "path"

/-- The check of the required files of a generation. -/
def validRequiredList (generation : String) (required : Json) : Bool :=
  match required with
  | .arr items =>
      1 ≤ items.length && items.length ≤ 128 && items.all validRequired &&
        pathsOf items = sortedSet (pathsOf items) && bootComplete generation (pathsOf items)
  | _ => false

/-- The check of the artifacts of a generation. -/
def validArtifact (generation : String) (artifact : Json) : Bool :=
  artifact.keysAre ["rootfs", "tftp", "required_tftp"] && checkField artifact "rootfs" validTree &&
    checkField artifact "tftp" validTree &&
    checkField artifact "required_tftp" (validRequiredList generation)

/-- The number of the required files of a generation. -/
def requiredCount (artifacts : Json) (generation : String) : Nat :=
  match (artifacts.field generation).bind fun artifact => artifact.field "required_tftp" with
  | some (.arr items) => items.length
  | _ => 0

/-- The check of the artifacts. -/
def validArtifacts (artifacts : Json) : Bool :=
  artifacts.keysAre generations &&
    generations.all (fun generation => checkField artifacts generation (validArtifact generation)) &&
    (generations.map (requiredCount artifacts)).sum ≤ 128

/-- The check of the source declarations. -/
def validDeclarations (declarations : Json) : Bool :=
  declarations.keysAre generations &&
    generations.all (fun generation => textField declarations generation (isHex 64)) &&
    fieldText declarations "rpi4" = fieldText declarations "rpi5"

/-- `RECEIPT_KEYS` -/
def receiptKeys : List String :=
  ["schema", "scope", "environment", "build_id", "generation_profile", "bundle_date",
    "infra_generation_revision", "artifact_manifest_sha256", "source_declarations", "artifacts",
    "capture_window", "receipt_id"]

/-- `SCHEMA` -/
def receiptSchema : String :=
  "homecluster-pxe-producer-receipt-v1"

/-- `DOMAIN` of receipts. -/
def receiptDomain : List UInt8 :=
  utf8Bytes "homecluster-pxe-producer-receipt-v1\x00".toList

/-- The fields of a receipt without its identity. -/
def receiptPayload : Json → Json
  | .obj fields => .obj (fields.filter fun field => field.1 ≠ "receipt_id".toList)
  | value => value

section Reader

variable (sha256 : List UInt8 → List Char)

/-- `_receipt_id` -/
def receiptId (value : Json) : List Char :=
  "sha256:".toList ++ sha256 (receiptDomain ++ utf8Bytes (canonical (receiptPayload value)))

/-- `validate_receipt` -/
def validateReceipt (value : Json) : Bool :=
  value.keysAre receiptKeys && isField value "schema" receiptSchema &&
    isField value "scope" "measured_build_artifacts" && isField value "environment" "staging" &&
    textField value "bundle_date" isDate && textField value "build_id" isBuildId &&
    textField value "generation_profile" isGenerationProfile &&
    textField value "infra_generation_revision" (isHex 40) &&
    textField value "artifact_manifest_sha256" (isHex 64) &&
    checkField value "source_declarations" validDeclarations &&
    checkField value "capture_window" validateWindow &&
    checkField value "artifacts" validArtifacts &&
    fieldText value "receipt_id" = some (receiptId sha256 value)

/-- `read_receipt`, where the file has these bytes. -/
def readReceipt (raw : List UInt8) (bundleDate : List Char) : Option (Json × List Char) :=
  if isDate bundleDate && 0 < raw.length && raw.length ≤ maxReceipt then
    (loadsBytes uniqueKeys raw).bind fun value =>
      if validateReceipt sha256 value && fieldText value "bundle_date" = some bundleDate &&
          raw = encoded value then
        some (value, sha256 raw)
      else none
  else none

end Reader

/-! ## Sorted keys -/

section SortedKeys

variable {value : Json}

theorem field_eq_some_readable (readable : value.Readable) {key : String} {item : Json}
    (found : value.field key = some item) : item.Readable := by
  cases value with
  | obj fields => exact fieldsReadable_iff.mp readable.2 _ (Keyed.mem_of_lookup found)
  | null | bool | int | float | str | arr => cases found

/-- A field of a value is found when the keys are sorted. -/
theorem field_sorted (readable : value.Readable) (key : String) :
    value.sortKeys.field key = (value.field key).map Json.sortKeys := by
  cases value with
  | obj fields => exact field_sortKeys readable key
  | null | bool | int | float | str => rfl
  | arr items => rw [sortKeys_arr]; rfl

theorem fieldText_sorted (readable : value.Readable) (key : String) :
    fieldText value.sortKeys key = fieldText value key := by
  have text : ∀ item : Json, item.sortKeys.asChars = item.asChars := by
    intro item
    cases item <;> rfl
  rw [fieldText, field_sorted readable, Option.bind_map, fieldText]
  exact congrArg _ (funext text)

theorem keysAre_sorted (readable : value.Readable) (keys : List String) :
    value.sortKeys.keysAre keys = value.keysAre keys := by
  cases value with
  | obj fields =>
      have found : ∀ key : List Char, ((sortedByKey (sortKeysFields fields)).lookup key).isSome =
          (fields.lookup key).isSome := by
        intro key
        rw [lookup_sortKeys readable.1, Option.isSome_map]
      rw [Json.sortKeys, Json.keysAre, Json.keysAre, length_sortedByKey, sortKeysFields_eq,
        List.length_map, ← sortKeysFields_eq]
      simp only [found]
  | null | bool | int | float | str => rfl
  | arr items => rw [sortKeys_arr]; rfl

theorem textField_sorted (readable : value.Readable) (key : String)
    (pattern : List Char → Bool) :
    textField value.sortKeys key pattern = textField value key pattern := by
  rw [textField, fieldText_sorted readable, textField]

theorem isField_sorted (readable : value.Readable) (key text : String) :
    isField value.sortKeys key text = isField value key text := by
  rw [isField, fieldText_sorted readable, isField]

theorem intField_sorted (readable : value.Readable) (key : String) (low high : Int) :
    intField value.sortKeys key low high = intField value key low high := by
  rw [intField, field_sorted readable, intField]
  cases value.field key with
  | none => rfl
  | some item => cases item <;> rfl

/-- A check that does not see the order of keys passes for sorted keys as well. -/
theorem checkField_sorted (readable : value.Readable) (key : String) {check : Json → Bool}
    (blind : ∀ item : Json, item.Readable → check item.sortKeys = check item) :
    checkField value.sortKeys key check = checkField value key check := by
  rw [checkField, field_sorted readable, checkField]
  cases found : value.field key with
  | none => rfl
  | some item => exact blind item (field_eq_some_readable readable found)

theorem validTree_sorted (readable : value.Readable) :
    validTree value.sortKeys = validTree value := by
  simp only [validTree, keysAre_sorted readable, isField_sorted readable,
    textField_sorted readable, intField_sorted readable]

theorem validRequired_sorted (readable : value.Readable) :
    validRequired value.sortKeys = validRequired value := by
  simp only [validRequired, keysAre_sorted readable, isField_sorted readable,
    textField_sorted readable, intField_sorted readable, fieldText_sorted readable]

theorem validRequiredList_sorted (generation : String) (readable : value.Readable) :
    validRequiredList generation value.sortKeys = validRequiredList generation value := by
  cases value with
  | arr items =>
      have items_readable := allReadable_iff.mp readable
      have all : (items.map Json.sortKeys).all validRequired = items.all validRequired := by
        rw [Bool.eq_iff_iff, List.all_eq_true, List.all_eq_true, List.forall_mem_map]
        refine forall₂_congr fun item member => ?_
        rw [validRequired_sorted (items_readable item member)]
      have paths : pathsOf (items.map Json.sortKeys) = pathsOf items := by
        rw [pathsOf, List.filterMap_map]
        exact List.filterMap_congr fun item member =>
          fieldText_sorted (items_readable item member) "path"
      simp only [sortKeys_arr, validRequiredList, List.length_map, all, paths]
  | null | bool | int | float | str | obj => rfl

theorem validArtifact_sorted (generation : String) (readable : value.Readable) :
    validArtifact generation value.sortKeys = validArtifact generation value := by
  simp only [validArtifact, keysAre_sorted readable,
    checkField_sorted readable _ fun _ => validTree_sorted,
    checkField_sorted readable _ fun _ => validRequiredList_sorted generation]

theorem requiredCount_sorted (readable : value.Readable) (generation : String) :
    requiredCount value.sortKeys generation = requiredCount value generation := by
  unfold requiredCount
  rw [field_sorted readable]
  cases found : value.field generation with
  | none => rfl
  | some artifact =>
      rw [Option.map_some, Option.bind_some, Option.bind_some,
        field_sorted (field_eq_some_readable readable found)]
      cases artifact.field "required_tftp" with
      | none => rfl
      | some required =>
          cases required with
          | arr items => simp only [Option.map_some, sortKeys_arr, List.length_map]
          | null | bool | int | float | str | obj => rfl

theorem validArtifacts_sorted (readable : value.Readable) :
    validArtifacts value.sortKeys = validArtifacts value := by
  have counts : requiredCount value.sortKeys = requiredCount value :=
    funext (requiredCount_sorted readable)
  simp only [validArtifacts, keysAre_sorted readable,
    checkField_sorted readable _ fun _ => validArtifact_sorted _, counts]

theorem validDeclarations_sorted (readable : value.Readable) :
    validDeclarations value.sortKeys = validDeclarations value := by
  simp only [validDeclarations, keysAre_sorted readable, textField_sorted readable,
    fieldText_sorted readable]

theorem validateWindow_sorted (readable : value.Readable) :
    validateWindow value.sortKeys = validateWindow value := by
  simp only [validateWindow, keysAre_sorted readable, fieldText_sorted readable]

/-- The identity of a receipt does not depend on the order of its keys. -/
theorem canonical_receiptPayload_sorted (readable : value.Readable) :
    canonical (receiptPayload value.sortKeys) = canonical (receiptPayload value) := by
  cases value with
  | obj fields =>
      have payload : (receiptPayload (Json.obj fields).sortKeys).sortKeys =
          (receiptPayload (.obj fields)).sortKeys := by
        rw [Json.sortKeys, receiptPayload, receiptPayload, Json.sortKeys, Json.sortKeys]
        congr 1
        have distinct : ∀ {kept : List (List Char × Json)}, (kept.map Prod.fst).Nodup →
            ((sortKeysFields kept).map Prod.fst).Nodup := by
          intro kept nodup
          rwa [names_sortKeysFields]
        have filtered : ∀ {kept : List (List Char × Json)}, (kept.map Prod.fst).Nodup →
            ((kept.filter fun field => field.1 ≠ "receipt_id".toList).map Prod.fst).Nodup :=
          fun nodup => nodup.sublist (List.filter_sublist.map Prod.fst)
        refine sortedByKey_eq_of_mem_iff (distinct (filtered ?_)) (distinct (filtered readable.1)) ?_
        · refine ((sortedByKey_perm (sortKeysFields fields)).map Prod.fst).nodup_iff.mpr ?_
          exact distinct readable.1
        · intro entry
          simp only [sortKeysFields_eq, List.mem_map, List.mem_filter, mem_sortedByKey]
          constructor
          · rintro ⟨field, ⟨⟨original, member, rfl⟩, kept⟩, rfl⟩
            exact ⟨original, ⟨member, kept⟩, by rw [sortKeys_sortKeys]⟩
          · rintro ⟨original, ⟨member, kept⟩, rfl⟩
            exact ⟨_, ⟨⟨original, member, rfl⟩, kept⟩, by rw [sortKeys_sortKeys]⟩
      rw [canonical, payload, canonical]
  | null | bool | int | float | str => rfl
  | arr items =>
      have twice := sortKeys_sortKeys (.arr items)
      rw [sortKeys_arr] at twice ⊢
      change canonical (.arr (items.map Json.sortKeys)) = canonical (.arr items)
      rw [canonical, twice, canonical, sortKeys_arr]

theorem receiptId_sorted {sha256 : List UInt8 → List Char} (readable : value.Readable) :
    receiptId sha256 value.sortKeys = receiptId sha256 value := by
  unfold receiptId
  rw [canonical_receiptPayload_sorted readable]

/-- **Validation does not depend on the order of the keys.** -/
theorem validateReceipt_sorted {sha256 : List UInt8 → List Char} (readable : value.Readable) :
    validateReceipt sha256 value.sortKeys = validateReceipt sha256 value := by
  simp only [validateReceipt, keysAre_sorted readable, isField_sorted readable,
    textField_sorted readable, fieldText_sorted readable, receiptId_sorted readable,
    checkField_sorted readable _ fun _ => validDeclarations_sorted,
    checkField_sorted readable _ fun _ => validateWindow_sorted,
    checkField_sorted readable _ fun _ => validArtifacts_sorted]

end SortedKeys

/-! ## Valid values are plain -/

section Plain

variable {value : Json}

/-- An object with exact keys whose fields are readable. -/
theorem readable_of_keysAre {keys : List String} (distinct : keys.Nodup)
    (exactly : value.keysAre keys = true)
    (inside : ∀ key ∈ keys, ∀ item, value.field key = some item → item.Readable) :
    value.Readable := by
  cases value with
  | obj fields =>
      refine ⟨names_nodup distinct exactly, fieldsReadable_iff.mpr fun field member => ?_⟩
      have named : field.1 ∈ fields.map Prod.fst := List.mem_map_of_mem member
      obtain ⟨key, listed, same⟩ :=
        List.mem_map.mp ((names_perm distinct exactly).mem_iff.mpr named)
      refine inside key listed field.2 ?_
      rw [Json.field, same]
      exact Keyed.lookup_of_mem (names_nodup distinct exactly) member
  | null | bool | int | float | str | arr => cases exactly

theorem readable_of_fieldText {key : String} {text : List Char}
    (found : fieldText value key = some text) {item : Json} (same : value.field key = some item) :
    item.Readable := by
  rw [fieldText, same, Option.bind_some] at found
  cases item with
  | str text => trivial
  | null | bool | int | float | arr | obj => cases found

theorem readable_of_textField {key : String} {pattern : List Char → Bool}
    (passes : textField value key pattern = true) {item : Json}
    (same : value.field key = some item) : item.Readable := by
  obtain ⟨text, found, -⟩ := (Option.any_eq_true _ _).mp passes
  exact readable_of_fieldText found same

theorem readable_of_isField {key text : String} (passes : isField value key text = true)
    {item : Json} (same : value.field key = some item) : item.Readable :=
  readable_of_fieldText (of_decide_eq_true passes) same

theorem readable_of_intField {key : String} {low high : Int}
    (passes : intField value key low high = true) {item : Json}
    (same : value.field key = some item) : item.Readable := by
  rw [intField, same] at passes
  cases item with
  | int number => trivial
  | null | bool | str | float | arr | obj => cases passes

theorem readable_of_checkField {key : String} {check : Json → Bool}
    (plain : ∀ item, check item = true → item.Readable)
    (passes : checkField value key check = true) {item : Json}
    (same : value.field key = some item) : item.Readable := by
  rw [checkField, same] at passes
  exact plain item passes

theorem readable_of_validTree (valid : validTree value = true) : value.Readable := by
  simp only [validTree, Bool.and_eq_true] at valid
  obtain ⟨⟨⟨⟨⟨keys, schema⟩, algorithm⟩, digest⟩, entries⟩, bytes⟩ := valid
  refine readable_of_keysAre (by decide) keys fun key member item same => ?_
  simp only [List.mem_cons, List.not_mem_nil, or_false] at member
  rcases member with rfl | rfl | rfl | rfl | rfl
  · exact readable_of_isField schema same
  · exact readable_of_isField algorithm same
  · exact readable_of_textField digest same
  · exact readable_of_intField entries same
  · exact readable_of_intField bytes same

theorem readable_of_validRequired (valid : validRequired value = true) : value.Readable := by
  rw [validRequired, Bool.and_eq_true] at valid
  obtain ⟨path, valid⟩ := valid
  split at valid
  · simp only [Bool.and_eq_true] at valid
    refine readable_of_keysAre (by decide) valid.1 fun key member item same => ?_
    simp only [List.mem_cons, List.not_mem_nil, or_false] at member
    rcases member with rfl | rfl
    · exact readable_of_textField path same
    · exact readable_of_isField valid.2 same
  · simp only [Bool.and_eq_true] at valid
    obtain ⟨⟨⟨keys, type⟩, size⟩, hash⟩ := valid
    refine readable_of_keysAre (by decide) keys fun key member item same => ?_
    simp only [List.mem_cons, List.not_mem_nil, or_false] at member
    rcases member with rfl | rfl | rfl | rfl
    · exact readable_of_textField path same
    · exact readable_of_isField type same
    · exact readable_of_textField hash same
    · exact readable_of_intField size same

theorem readable_of_validRequiredList {generation : String}
    (valid : validRequiredList generation value = true) : value.Readable := by
  cases value with
  | arr items =>
      simp only [validRequiredList, Bool.and_eq_true, List.all_eq_true] at valid
      exact readable_arr fun item member => readable_of_validRequired (valid.1.1.2 item member)
  | null | bool | int | float | str | obj => cases valid

theorem readable_of_validArtifact {generation : String}
    (valid : validArtifact generation value = true) : value.Readable := by
  simp only [validArtifact, Bool.and_eq_true] at valid
  obtain ⟨⟨⟨keys, rootfs⟩, tftp⟩, required⟩ := valid
  refine readable_of_keysAre (by decide) keys fun key member item same => ?_
  simp only [List.mem_cons, List.not_mem_nil, or_false] at member
  rcases member with rfl | rfl | rfl
  · exact readable_of_checkField (fun _ => readable_of_validTree) rootfs same
  · exact readable_of_checkField (fun _ => readable_of_validTree) tftp same
  · exact readable_of_checkField (fun _ => readable_of_validRequiredList) required same

theorem readable_of_validArtifacts (valid : validArtifacts value = true) : value.Readable := by
  simp only [validArtifacts, Bool.and_eq_true, List.all_eq_true] at valid
  refine readable_of_keysAre (by decide) valid.1.1 fun key member item same => ?_
  exact readable_of_checkField (fun _ => readable_of_validArtifact) (valid.1.2 key member) same

theorem readable_of_validDeclarations (valid : validDeclarations value = true) :
    value.Readable := by
  simp only [validDeclarations, Bool.and_eq_true, List.all_eq_true] at valid
  refine readable_of_keysAre (by decide) valid.1.1 fun key member item same => ?_
  exact readable_of_textField (valid.1.2 key member) same

theorem validateWindow_eq_true : validateWindow value = true ↔
    value.keysAre ["started_at", "finished_at"] = true ∧ ∃ started finished,
      fieldText value "started_at" = some started ∧ fieldText value "finished_at" = some finished ∧
        isTimestamp started = true ∧ isTimestamp finished = true ∧ started ≤ finished := by
  rw [validateWindow, Bool.and_eq_true]
  refine and_congr_right fun _ => ?_
  split
  next started finished one other =>
      simp only [Bool.and_eq_true, Bool.not_eq_true', decide_eq_false_iff_not, not_lt]
      constructor
      · rintro ⟨⟨valid, valid'⟩, order⟩
        exact ⟨started, finished, one, other, valid, valid', order⟩
      · rintro ⟨started', finished', one', other', valid, valid', order⟩
        obtain rfl := Option.some.inj (one.symm.trans one')
        obtain rfl := Option.some.inj (other.symm.trans other')
        exact ⟨⟨valid, valid'⟩, order⟩
  next missing =>
      refine iff_of_false Bool.false_ne_true ?_
      rintro ⟨started, finished, one, other, -⟩
      exact missing started finished one other

theorem readable_of_validateWindow (valid : validateWindow value = true) : value.Readable := by
  obtain ⟨keys, started, finished, one, other, -⟩ := validateWindow_eq_true.mp valid
  refine readable_of_keysAre (by decide) keys fun key member item same => ?_
  simp only [List.mem_cons, List.not_mem_nil, or_false] at member
  rcases member with rfl | rfl
  · exact readable_of_fieldText one same
  · exact readable_of_fieldText other same

/-- What a valid receipt has. -/
structure Valid (sha256 : List UInt8 → List Char) (value : Json) : Prop where
  keys : value.keysAre receiptKeys = true
  schema : isField value "schema" receiptSchema = true
  scope : isField value "scope" "measured_build_artifacts" = true
  environment : isField value "environment" "staging" = true
  date : textField value "bundle_date" isDate = true
  build : textField value "build_id" isBuildId = true
  profile : textField value "generation_profile" isGenerationProfile = true
  revision : textField value "infra_generation_revision" (isHex 40) = true
  manifest : textField value "artifact_manifest_sha256" (isHex 64) = true
  declarations : checkField value "source_declarations" validDeclarations = true
  window : checkField value "capture_window" validateWindow = true
  artifacts : checkField value "artifacts" validArtifacts = true
  identity : fieldText value "receipt_id" = some (receiptId sha256 value)

theorem validateReceipt_eq_true {sha256 : List UInt8 → List Char} :
    validateReceipt sha256 value = true ↔ Valid sha256 value := by
  simp only [validateReceipt, Bool.and_eq_true, decide_eq_true_eq]
  constructor
  · rintro ⟨⟨⟨⟨⟨⟨⟨⟨⟨⟨⟨⟨keys, schema⟩, scope⟩, environment⟩, date⟩, build⟩, profile⟩, revision⟩,
      manifest⟩, declarations⟩, window⟩, artifacts⟩, identity⟩
    exact ⟨keys, schema, scope, environment, date, build, profile, revision, manifest,
      declarations, window, artifacts, identity⟩
  · rintro ⟨keys, schema, scope, environment, date, build, profile, revision, manifest,
      declarations, window, artifacts, identity⟩
    exact ⟨⟨⟨⟨⟨⟨⟨⟨⟨⟨⟨⟨keys, schema⟩, scope⟩, environment⟩, date⟩, build⟩, profile⟩, revision⟩,
      manifest⟩, declarations⟩, window⟩, artifacts⟩, identity⟩

/-- **A valid receipt has no key twice**, at any depth. -/
theorem Valid.readable {sha256 : List UInt8 → List Char} (valid : Valid sha256 value) :
    value.Readable := by
  refine readable_of_keysAre (by decide) valid.keys fun key member item same => ?_
  simp only [receiptKeys, List.mem_cons, List.not_mem_nil, or_false] at member
  rcases member with rfl | rfl | rfl | rfl | rfl | rfl | rfl | rfl | rfl | rfl | rfl | rfl
  · exact readable_of_isField valid.schema same
  · exact readable_of_isField valid.scope same
  · exact readable_of_isField valid.environment same
  · exact readable_of_textField valid.build same
  · exact readable_of_textField valid.profile same
  · exact readable_of_textField valid.date same
  · exact readable_of_textField valid.revision same
  · exact readable_of_textField valid.manifest same
  · exact readable_of_checkField (fun _ => readable_of_validDeclarations) valid.declarations same
  · exact readable_of_checkField (fun _ => readable_of_validArtifacts) valid.artifacts same
  · exact readable_of_checkField (fun _ => readable_of_validateWindow) valid.window same
  · exact readable_of_fieldText valid.identity same

end Plain

end HomeclusterInfra.PxeReceipt
