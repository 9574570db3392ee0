import HomeclusterInfra.BanipProof.FeedProof
import HomeclusterInfra.Library.Calendar
import HomeclusterInfra.Library.CanonicalJson

/-!
# Snapshots of the kernel sets

A configuration names the feeds that are checked. A snapshot says which run of banIP is active
and what the kernel sets of these feeds hold; it is refused where banIP is configured otherwise,
where the definition of a feed is not the known one, or where banIP ran again meanwhile.
-/

set_option autoImplicit false

namespace HomeclusterInfra.BanipProof

open Text JsonText

/-! ## Configuration -/

/-- `REGISTRY` -/
def registry : List Feed :=
  [.dshield, .feodo]

def Feed.definition : Feed → List (String × String)
  | .dshield =>
      [("url_4", "https://feeds.dshield.org/block.txt"), ("rule", "feed 13"), ("chain", "in")]
  | .feodo =>
      [("url_4", "https://feodotracker.abuse.ch/downloads/ipblocklist.txt"), ("rule", "feed 1"),
        ("chain", "inout")]

/-- A key of `REGISTRY`. -/
def feedNamed (name : List Char) : Option Feed :=
  registry.find? fun feed => feed.name.toList = name

def feedOf : Json → Option Feed
  | .str name => feedNamed name
  | _ => none

theorem mem_registry (feed : Feed) : feed ∈ registry := by
  cases feed <;> decide

structure Config where
  feeds : List Feed
  some_feed : feeds ≠ []
  distinct : feeds.Nodup

/-- `sorted`, of some of the feeds. -/
def Config.sorted (first : Feed) (others : List Feed) : Config where
  feeds := registry.filter (first :: others).contains
  some_feed := List.ne_nil_of_mem (List.mem_filter.mpr
    ⟨mem_registry first, List.contains_iff_mem.mpr List.mem_cons_self⟩)
  distinct := (show registry.Nodup by decide).filter _

/-- `configuration`, of the object that the file decodes to. -/
def configuration (fields : Fields) : Except Raised Config := do
  require (fields.keysAre ["schema", "feeds"] && match fields.get "schema" with
    | some (.int schema) => schema = 1
    | _ => false) ⟨"invalid_configuration", by decide⟩
  match fields.get "feeds" with
  | some (.arr items) =>
      match items.mapM feedOf with
      | some (first :: others) => do
          require (first :: others).Nodup ⟨"unsupported_feed_configuration", by decide⟩
          pure (Config.sorted first others)
      | _ => .error (.proof ⟨"unsupported_feed_configuration", by decide⟩)
  | _ => .error (.proof ⟨"unsupported_feed_configuration", by decide⟩)

section Digest

variable (sha256 : List UInt8 → String)

/-- `definition_hash` -/
def definitionHash (config : Config) : List Char :=
  (sha256 (asciiBytes (JsonText.canonical (Json.object (config.feeds.map fun feed =>
    (feed.name, Json.object (feed.definition.map fun (key, text) => (key, .text text)))))))).toList

/-! ## Snapshots -/

structure Snapshot where
  generation : List Char
  sets : List (Feed × SetContent)
deriving DecidableEq

/-- What a snapshot is taken from. -/
structure Readings where
  /-- The runtime file, before and after. -/
  runtime : Except Raised Fields
  runtimeAfter : Except Raised Fields
  /-- What `uci` prints. Only the feeds are decoded. -/
  feeds : Except Raised (List Char)
  enabled : Except Raised (List Char)
  feedFile : Except Raised (List Char)
  customFeedFile : Except Raised (List Char)
  definitions : Except Raised Fields
  /-- The file of custom feeds is missing or empty. -/
  customEmpty : Except Raised Bool
  /-- What `nft` prints of a set, with its length. -/
  set : Feed → Except Raised (Nat × Json)

/-- What `strip` removes of bytes. -/
def isByteSpace (char : Char) : Bool :=
  char = ' ' || (9 ≤ char.toNat && char.toNat ≤ 13)

/-- `strip`, of bytes. -/
def stripBytes (text : List Char) : List Char :=
  rstripWhile isByteSpace (text.dropWhile isByteSpace)

/-- `dd/mm/yyyy HH:MM:SS`, of the calendar. The digits are those that banIP prints: `\d` and
`strptime` also read other decimal digits. -/
def isMoment : List Char → Bool
  | [d₁, d₂, '/', m₁, m₂, '/', y₁, y₂, y₃, y₄, ' ', h₁, h₂, ':', n₁, n₂, ':', s₁, s₂] =>
      match Calendar.readDigits [d₁, d₂], Calendar.readDigits [m₁, m₂],
        Calendar.readDigits [y₁, y₂, y₃, y₄], Calendar.readDigits [h₁, h₂],
        Calendar.readDigits [n₁, n₂], Calendar.readDigits [s₁, s₂] with
      | some day, some month, some year, some hour, some minute, some second =>
          Calendar.isDay year month day && hour ≤ 23 && minute ≤ 59 && second ≤ 59
      | _, _, _, _, _, _ => false
  | _ => false

/-- How and when banIP ran last. -/
def isGeneration (text : List Char) : Bool :=
  text.length ≤ 512 && ["reload", "start", "restart", "boot"].any fun mode =>
    let front := ("mode: " ++ mode ++ ", date / time: ").toList
    front.isPrefixOf text && isMoment ((text.drop front.length).take 19) &&
      (text.drop (front.length + 19)).head? = some ','

/-- `[A-Za-z0-9_.-]{1,80}` -/
def isSetName (text : List Char) : Bool :=
  1 ≤ text.length && text.length ≤ 80 &&
    text.all fun char => char.isAlphanum || ['_', '.', '-'].contains char

/-- The active sets of the runtime file. -/
def activeSets (runtime : Fields) : Except Raised (List (List Char)) :=
  match runtime.get "active_feeds" with
  | some (.arr items) =>
      match items.mapM Json.asChars with
      | some names => do
          require (names.length ≤ 128 && names.all isSetName && decide names.Nodup)
            ⟨"invalid_active_feeds", by decide⟩
          pure names
      | none => .error (.proof ⟨"invalid_active_feeds", by decide⟩)
  | _ => .error (.proof ⟨"invalid_active_feeds", by decide⟩)

/-- `not value` -/
def isFalsy : Json → Bool
  | .null => true
  | .bool value => !value
  | .int value => value = 0
  | .float value => value = 0
  | .str value => value = []
  | .arr items => items.isEmpty
  | .obj fields => fields.isEmpty

/-- The definition of a feed is that of the registry, without another family. -/
def checkDefinition (definitions : Fields) (feed : Feed) : Except Raised Unit := do
  match ← orRaise (definitions.get feed.name) .lookupOrProcess with
  | .obj definition =>
      require ((feed.definition.all fun (key, text) =>
          (Fields.get definition key).any (isText · text)) &&
        (Fields.get definition "url_6").all isFalsy) ⟨"feed_definition_changed", by decide⟩
  | _ => .error .other

/-- One set of a snapshot. -/
def readSet (readings : Readings) (definitions : Fields) (active : List (List Char)) (feed : Feed) :
    Except Raised (Feed × SetContent) := do
  checkDefinition definitions feed
  require (active.contains (feed.name ++ ".v4").toList &&
    !active.contains (feed.name ++ ".v6").toList) ⟨"active_family_changed", by decide⟩
  let (size, listed) ← readings.set feed
  let content ← nftSet sha256 feed size listed
  pure (feed, content)

/-- The text of the last run, of a runtime file that says banIP is active. -/
def generationOf (runtime : Fields) : Except Raised (List Char) :=
  match runtime.get "status", runtime.get "last_run" with
  | some status, some (.str text) => do
      require (isText status "active" && text ≠ []) ⟨"banip_not_active", by decide⟩
      require (isGeneration text) ⟨"invalid_runtime_generation", by decide⟩
      pure text
  | _, _ => .error (.proof ⟨"banip_not_active", by decide⟩)

/-- The fields of the runtime file after the snapshot are those before it. -/
def isSameRuntime (generation : List Char) (active : List (List Char)) (after : Fields) : Bool :=
  (after.get "status").any (isText · "active") &&
    (after.get "last_run").bind Json.asChars = some generation &&
    ((after.get "active_feeds").bind Json.asList).bind (·.mapM Json.asChars) = some active

/-- `snapshot` -/
def snapshot (config : Config) (readings : Readings) : Except Raised Snapshot := do
  let runtime ← readings.runtime
  let generation ← generationOf runtime
  let feeds ← readings.feeds
  require ((words feeds).isPerm (config.feeds.map (·.name.toList)))
    ⟨"configured_feeds_changed", by decide⟩
  let enabled ← readings.enabled
  require (stripBytes enabled = ['1']) ⟨"configured_feeds_changed", by decide⟩
  let feedFile ← readings.feedFile
  require (stripBytes feedFile = [] || stripBytes feedFile = "/etc/banip/banip.feeds".toList)
    ⟨"unsupported_feed_definition_path", by decide⟩
  let customFeedFile ← readings.customFeedFile
  require (stripBytes customFeedFile = [] ||
      stripBytes customFeedFile = "/etc/banip/banip.custom.feeds".toList)
    ⟨"unsupported_feed_definition_path", by decide⟩
  let definitions ← readings.definitions
  let customEmpty ← readings.customEmpty
  require customEmpty ⟨"custom_feed_definition_unsupported", by decide⟩
  let active ← activeSets runtime
  let sets ← config.feeds.mapM (readSet sha256 readings definitions active)
  let after ← readings.runtimeAfter
  require (isSameRuntime generation active after) ⟨"runtime_changed_during_snapshot", by decide⟩
  pure ⟨generation, sets⟩

/-- The canonical digest of a set. -/
def Snapshot.digest (snapshot : Snapshot) (feed : Feed) : Option String :=
  (snapshot.sets.lookup feed).map (·.canonicalSha256)

end Digest

end HomeclusterInfra.BanipProof
