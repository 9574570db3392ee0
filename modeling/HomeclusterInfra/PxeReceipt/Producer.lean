import HomeclusterInfra.PxeReceipt.Reader
import HomeclusterInfra.PxeReceipt.TreeBudgets

/-!
# The producer of receipts

The producer reads the manifest of a build, measures the two artifacts and the
required files, and puts a receipt together. Files are read twice, and a build that
changes is refused.

A file that cannot be read, or changes while it is read, is `none` here.
-/

set_option autoImplicit false

namespace HomeclusterInfra.PxeReceipt

open Text JsonText Calendar

/-! ## The manifest -/

/-- `MANIFEST_KEYS` -/
def manifestKeys : List String :=
  ["schema", "policy", "bundle_date", "releases", "target_hosts", "target_stages",
    "required_tftp_paths", "markers", "metadata"]

/-- The release of a generation. -/
def release (date : List Char) (generation : String) : List Char :=
  date ++ '-' :: generation.toList

def Json.isDict : Json → Bool
  | .obj _ => true
  | _ => false

def Json.isList : Json → Bool
  | .arr _ => true
  | _ => false

/-- The required paths of the generations. -/
abbrev Paths : Type := String → List (List Char)

/-- One turn of the loop over the required paths. -/
def addPath (date : List Char) (paths : Paths) (item : Json) : Option Paths :=
  if item.keysAre ["generation", "release", "path"] then
    (generations.find? fun generation => isField item "generation" generation).bind
      fun generation => (fieldText item "path").bind fun path =>
        if fieldText item "release" = some (release date generation) && isRequiredPath path &&
            !(paths generation).contains path then
          some (Function.update paths generation (paths generation ++ [path]))
        else none
  else none

/-- The stages of a manifest are those of staging. -/
def isStaging (stages : Json) : Bool :=
  match stages with
  | .arr items => !items.isEmpty && items.all fun stage =>
      stage.asChars = some "stg".toList || stage.asChars = some "staging".toList
  | _ => false

/-- `_manifest` -/
def manifestPaths (raw : List UInt8) (date : List Char) : Option Paths :=
  (loadsBytes uniqueKeys raw).bind fun value =>
    if value.keysAre manifestKeys && intField value "schema" 1 1 &&
        fieldText value "bundle_date" = some date && isField value "policy" "paired_clean" &&
        checkField value "releases" (fun releases => releases.keysAre generations &&
          generations.all fun generation =>
            fieldText releases generation = some (release date generation)) &&
        checkField value "metadata" Json.isDict &&
        ["target_hosts", "target_stages", "markers"].all (fun key =>
          checkField value key Json.isList) &&
        checkField value "target_stages" isStaging then
      match value.field "required_tftp_paths" with
      | some (.arr items) =>
          if 1 ≤ items.length && items.length ≤ 128 then
            (items.foldlM (addPath date) fun _ => []).bind fun paths =>
              if generations.all fun generation => bootComplete generation (paths generation) then
                some fun generation => (paths generation).insertionSort (· ≤ ·)
              else none
          else none
      | _ => none
    else none

/-! ## Measurements -/

/-- `_file`, where the file has these bytes. -/
def fileBytes (limit : Nat) (content : List UInt8) : Option (List UInt8) :=
  if 0 < content.length && content.length ≤ limit then some content else none

/-- A required file as it was measured. -/
inductive RequiredFile where
  | directory (path : List Char)
  | regular (path sha256 : List Char) (size : Nat)
  deriving DecidableEq

def RequiredFile.json : RequiredFile → Json
  | .directory path => .object [("path", .str path), ("type", .text "directory")]
  | .regular path sha256 size => .object [("path", .str path), ("type", .text "regular"),
      ("sha256", .str sha256), ("size", .int size)]

/-- What is found below the boot directory of a generation. -/
structure BootFiles where
  /-- The directory of the overlays can be opened. -/
  overlaysOpen : Bool
  content : List Char → Option (List UInt8)

/-- What the producer meets in the artifacts of a generation, the readings of which
are taken twice. -/
structure GenerationFiles where
  declaration : Option (List UInt8)
  declarationAgain : Option (List UInt8)
  boot : BootFiles
  bootAgain : BootFiles
  rootfs : FileTree
  tftp : FileTree

/-- What the producer meets in a build. -/
structure Build where
  manifest : Option (List UInt8)
  manifestAgain : Option (List UInt8)
  files : String → GenerationFiles
  started : Moment
  finished : Moment

/-- What the producer is asked for. -/
structure Request where
  bundleDate : List Char
  buildId : List Char
  infraRevision : List Char
  generationProfile : List Char

section Producer

variable (sha256 : List UInt8 → List Char)

/-- One turn of `_required_files`. -/
def requiredFile (boot : BootFiles) (name : List Char) : Option RequiredFile :=
  if name = overlays then if boot.overlaysOpen then some (.directory name) else none
  else ((boot.content name).bind (fileBytes maxTftpFile)).map fun content =>
    .regular name (sha256 content) content.length

/-- `_required_files` -/
def requiredFiles (boot : BootFiles) (names : List (List Char)) : Option (List RequiredFile) :=
  names.mapM (requiredFile sha256 boot)

/-- `fingerprint_tree`, with its default budgets. -/
def fingerprintTree (files : Files) : Option Json :=
  (walk sha256 ⟨1000000, 1099511627776⟩ files).map fun measured => .object [
    ("schema", .text "homecluster-pxe-artifact-tree-v1"),
    ("algorithm", .text "sha256-posix-tree-v1"), ("digest", .str measured.digest),
    ("entries", .int measured.entries), ("regular_file_bytes", .int measured.regularBytes)]

/-- What is measured of a generation. -/
structure Measurement where
  declaration : List Char
  artifact : Json

/-- The measurement of a generation. -/
def measureGeneration (request : Request) (names : List (List Char)) (files : GenerationFiles) :
    Option Measurement := do
  let declarationRaw ← files.declaration.bind (fileBytes 4096)
  let declared ← declaration sha256 declarationRaw request.buildId request.infraRevision
  let required ← requiredFiles sha256 files.boot names
  let rootfs ← fingerprintTree sha256 files.rootfs.files
  let tftp ← fingerprintTree sha256 files.tftp.files
  let again ← requiredFiles sha256 files.bootAgain names
  if required = again then
    some ⟨declared, .object [("rootfs", rootfs), ("tftp", tftp),
      ("required_tftp", .arr (required.map RequiredFile.json))]⟩
  else none

/-- The second reading of the declaration of a generation. -/
def declarationUnchanged (request : Request) (files : GenerationFiles) (declared : List Char) :
    Bool :=
  ((files.declarationAgain.bind (fileBytes 4096)).bind fun raw =>
    declaration sha256 raw request.buildId request.infraRevision) = some declared

/-- The receipt without its identity. -/
def receiptFields (request : Request) (build : Build) (manifest : List UInt8)
    (rpi4 rpi5 : Measurement) : List (String × Json) :=
  [("schema", .text receiptSchema), ("scope", .text "measured_build_artifacts"),
    ("environment", .text "staging"), ("bundle_date", .str request.bundleDate),
    ("build_id", .str request.buildId), ("generation_profile", .str request.generationProfile),
    ("infra_generation_revision", .str request.infraRevision),
    ("artifact_manifest_sha256", .str (sha256 manifest)),
    ("source_declarations", .object [("rpi4", .str rpi4.declaration),
      ("rpi5", .str rpi5.declaration)]),
    ("artifacts", .object [("rpi4", rpi4.artifact), ("rpi5", rpi5.artifact)]),
    ("capture_window", .object [("started_at", .str build.started.text),
      ("finished_at", .str build.finished.text)])]

/-- The receipt that `produce` builds. -/
def builtReceipt (request : Request) (build : Build) (manifest : List UInt8)
    (rpi4 rpi5 : Measurement) : Json :=
  let fields := receiptFields sha256 request build manifest rpi4 rpi5
  .object (fields ++ [("receipt_id", .str (receiptId sha256 (.object fields)))])

/-- `produce` up to the receipt it builds. -/
def measure (request : Request) (build : Build) : Option Json :=
  if isDate request.bundleDate && isBuildId request.buildId && isHex 40 request.infraRevision &&
      isGenerationProfile request.generationProfile then do
    let manifest ← build.manifest.bind (fileBytes (512 * 1024))
    let paths ← manifestPaths manifest request.bundleDate
    let rpi4 ← measureGeneration sha256 request (paths "rpi4") (build.files "rpi4")
    let rpi5 ← measureGeneration sha256 request (paths "rpi5") (build.files "rpi5")
    if rpi4.declaration = rpi5.declaration &&
        declarationUnchanged sha256 request (build.files "rpi4") rpi4.declaration &&
        declarationUnchanged sha256 request (build.files "rpi5") rpi5.declaration &&
        build.manifestAgain.bind (fileBytes (512 * 1024)) = some manifest then
      some (builtReceipt sha256 request build manifest rpi4 rpi5)
    else none
  else none

end Producer

end HomeclusterInfra.PxeReceipt
