import HomeclusterInfra.Library.Checked
import HomeclusterInfra.Library.Ipv4
import HomeclusterInfra.Library.JsonText

/-!
# Feed contents and kernel sets

A banIP feed is downloaded as text and stands in the kernel as an nft set. Both
are parsed to networks and brought to one canonical form: the fewest networks
with the same addresses, printed in order and hashed. The SHA-256 digest is a
parameter.

The decoded JSON of the nft set is read as the program reads it, key by key;
what an access that fails raises is one of a few classes of exceptions.
-/

set_option autoImplicit false

namespace HomeclusterInfra.BanipProof

open Text JsonText Checked DyadicBlocks Ipv4

/-! ## Exceptions -/

/-- `[a-z_]{1,64}` -/
def isReason (text : String) : Bool :=
  1 ≤ text.toList.length && text.toList.length ≤ 64 &&
    text.toList.all fun char => ('a' ≤ char && char ≤ 'z') || char = '_'

/-- A reason code of the program. -/
structure Reason where
  text : String
  wellFormed : isReason text = true
  deriving DecidableEq

/-- The classes of exceptions that the program tells apart. -/
inductive Raised where
  /-- `ProofError` with its reason. -/
  | proof (reason : Reason)
  /-- Another `ValueError`, or an `OSError`. -/
  | valueOrOs
  /-- `KeyError`, `TypeError` or `subprocess.SubprocessError`. -/
  | lookupOrProcess
  /-- Any other exception. -/
  | other
  deriving DecidableEq

/-- `require` -/
def require (holds : Bool) (reason : Reason) : Except Raised Unit :=
  Checked.require holds (.proof reason)

/-- A result that may be missing, or an exception. -/
def orRaise {α : Type} (result : Option α) (raised : Raised) : Except Raised α :=
  match result with
  | some value => .ok value
  | none => .error raised

/-! ## Feeds -/

/-- The keys of `REGISTRY`. -/
inductive Feed where
  | dshield | feodo
  deriving DecidableEq

def Feed.name : Feed → String
  | .dshield => "dshield"
  | .feodo => "feodo"

/-- `MAX_BYTES` -/
def maxBytes : Nat := 1024 * 1024

/-- `MAX_RECORDS` -/
def maxRecords : Nat := 5000

/-! ## The canonical form -/

/-- The canonical form of some networks. -/
structure Canonical where
  canonicalSha256 : String
  count : Nat
  deriving DecidableEq

/-- The lines that are hashed. -/
def canonicalText (normalized : List Block) : List Char :=
  ['\n'].intercalate (normalized.map networkText)

section Digest

variable (sha256 : List UInt8 → String)

/-- `canonical` -/
def canonical (networks : List Block) : Except Raised Canonical := do
  require (!networks.isEmpty && networks.length ≤ maxRecords) ⟨"feed_record_limit", by decide⟩
  require (networks.all fun network => network.level < 32) ⟨"invalid_address_family", by decide⟩
  let normalized := collapseAddresses networks
  pure ⟨sha256 (asciiBytes (canonicalText normalized)), normalized.length⟩

/-! ## Downloaded feeds -/

/-- What `parse_feed` reports of a download. -/
structure FeedContent extends Canonical where
  sourceRecords : Nat
  sourceSha256 : String
  deriving DecidableEq

/-- `feed_format_invalid` -/
def formatInvalid : Raised :=
  .proof ⟨"feed_format_invalid", by decide⟩

/-- `data.decode("ascii")` -/
def decodeAscii (data : List UInt8) : Option (List Char) :=
  if data.all fun byte => byte.toNat < 128 then
    some (data.map fun byte => Char.ofNat byte.toNat)
  else none

/-- The lines of a feed that are no comments. -/
def feedLines (text : List Char) : List (List Char) :=
  ((splitlines text).map strip).filter fun line => !line.isEmpty && line.head? != some '#'

/-- The network of one line. -/
def lineNetwork (feed : Feed) (line : List Char) : Except Raised Block :=
  match feed, words line with
  | .dshield, start :: stop :: length :: _ => do
      -- Supported provider table: start, end, prefix length, metadata.
      require (!length.isEmpty && length.all Char.isDigit) ⟨"feed_format_invalid", by decide⟩
      let start ← orRaise (parseAddress start) formatInvalid
      let stop ← orRaise (parseAddress stop) formatInvalid
      let length := digitsValue length
      require (16 ≤ length && length ≤ 32) ⟨"unsupported_prefix_size", by decide⟩
      let network ← orRaise (parseNetwork true (addressText start ++ '/' :: natText length))
        formatInvalid
      require (network.stop - 1 = stop) ⟨"feed_range_mismatch", by decide⟩
      pure network
  | .feodo, [address] => do
      let address ← orRaise (parseAddress address) formatInvalid
      orRaise (parseNetwork true (addressText address ++ "/32".toList)) formatInvalid
  | _, _ => .error formatInvalid

/-- The body of the loop over the lines. -/
def handleLine (feed : Feed) (networks : List Block) (line : List Char) :
    Except Raised (List Block) := do
  let network ← lineNetwork feed line
  require (isGlobal network && !isMulticast network) ⟨"nonpublic_feed_prefix", by decide⟩
  require (networks.length + 1 ≤ maxRecords) ⟨"feed_record_limit", by decide⟩
  pure (networks ++ [network])

/-- `parse_feed` -/
def parseFeed (feed : Feed) (data : List UInt8) : Except Raised FeedContent := do
  require (0 < data.length && data.length ≤ maxBytes) ⟨"feed_size_limit", by decide⟩
  let text ← orRaise (decodeAscii data) formatInvalid
  let networks ← (feedLines text).foldlM (handleLine feed) []
  let form ← canonical sha256 networks
  pure ⟨form, networks.length, sha256 data⟩

end Digest

/-! ## Kernel sets -/

/-- What `nft_set` reports of a kernel set. -/
structure SetContent extends Canonical where
  setElements : Nat
  deriving DecidableEq

/-- The fields of a JSON object. -/
abbrev Fields := List (List Char × Json)

/-- `fields[key]`, when there is one. -/
def Fields.get (fields : Fields) (key : String) : Option Json :=
  fields.lookup key.toList

/-- `set(fields) <= set(keys)` -/
def Fields.within (fields : Fields) (keys : List String) : Bool :=
  fields.all fun field => (keys.map String.toList).contains field.1

/-- `set(fields) == set(keys)` -/
def Fields.keysAre (fields : Fields) (keys : List String) : Bool :=
  fields.within keys && keys.all fun key => (fields.get key).isSome

/-- `value[key]` -/
def item (value : Json) (key : String) : Except Raised Json :=
  match value with
  | .obj fields => orRaise (Fields.get fields key) .lookupOrProcess
  | _ => .error .lookupOrProcess

/-- `value == text` -/
def isText (value : Json) (text : String) : Bool :=
  match value with
  | .str chars => chars == text.toList
  | _ => false

/-- What a loop over a value runs through. -/
def iterate : Json → Except Raised (List Json)
  | .arr items => .ok items
  | .obj fields => .ok (fields.map fun field => .str field.1)
  | .str text => .ok (text.map fun char => .str [char])
  | _ => .error .lookupOrProcess

/-- `set(value) == set(texts)`; a member that has no hash raises. -/
def sameTexts (value : Json) (texts : List String) : Except Raised Bool := do
  let items ← iterate value
  if items.any fun item => match item with
      | .arr _ => true
      | .obj _ => true
      | _ => false then
    .error .lookupOrProcess
  else
    .ok ((items.all fun item => texts.any (isText item)) &&
      texts.all fun text => items.any fun item => isText item text)

/-- `x["set"]`, of a member with `"set" in x`. -/
def setEntry : Json → Except Raised (Option Json)
  | .obj fields => .ok (Fields.get fields "set")
  | .str text =>
      if text.tails.any ("set".toList.isPrefixOf ·) then .error .lookupOrProcess else .ok none
  | .arr items =>
      if items.any (isText · "set") then .error .lookupOrProcess else .ok none
  | _ => .error .lookupOrProcess

/-- `nft_element_invalid` -/
def elementInvalid : Raised :=
  .proof ⟨"nft_element_invalid", by decide⟩

/-- A counter of an element. -/
def isCounter : Json → Bool
  | .obj fields =>
      Fields.within fields ["packets", "bytes"] && fields.all fun field =>
        match field.2 with
        | .int value => 0 ≤ value
        | _ => false
  | _ => false

/-- The value of an element without its counter wrapper. -/
def unwrapElement (element : Json) : Except Raised Json :=
  match element with
  | .obj fields =>
      if Fields.keysAre fields ["elem"] then
        match Fields.get fields "elem" with
        | some (.obj wrapper) =>
            match Fields.get wrapper "val" with
            | some value =>
                if Fields.within wrapper ["val", "counter"] &&
                    isCounter ((Fields.get wrapper "counter").getD (.obj [])) then .ok value
                else .error elementInvalid
            | none => .error elementInvalid
        | _ => .error elementInvalid
      else .ok element
  | _ => .ok element

/-- The network of a prefix object. Of an address only a text can be printed and
read back. -/
def prefixNetwork (value : Json) : Except Raised Block := do
  let named ← sameTexts value ["addr", "len"]
  require named ⟨"nft_element_invalid", by decide⟩
  match ← item value "len" with
  | .int length =>
      match ← item value "addr" with
      | .str address =>
          orRaise (parseNetwork true (address ++ '/' :: intText length)) .valueOrOs
      | _ => .error .valueOrOs
  | _ => .error elementInvalid

/-- The networks of a range. -/
def rangeNetworks (value : Json) : Except Raised (List Block) :=
  match value with
  | .arr [.str first, .str last] => do
      let first ← orRaise (parseAddress first) .valueOrOs
      let last ← orRaise (parseAddress last) .valueOrOs
      orRaise (summarizeAddressRange first last) .valueOrOs
  | _ => .error elementInvalid

/-- The networks of an element without a wrapper. -/
def valueNetworks (value : Json) : Except Raised (List Block) :=
  match value with
  | .str text => (orRaise (parseNetwork false text) .valueOrOs).map fun network => [network]
  | .obj fields =>
      if Fields.keysAre fields ["prefix"] then
        (item value "prefix" >>= prefixNetwork).map fun network => [network]
      else if Fields.keysAre fields ["range"] then item value "range" >>= rangeNetworks
      else .error elementInvalid
  | _ => .error elementInvalid

/-- The body of the loop over the elements. -/
def handleElement (networks : List Block) (element : Json) : Except Raised (List Block) := do
  let value ← unwrapElement element
  let more ← valueNetworks value
  require ((networks ++ more).length ≤ maxRecords) ⟨"nft_element_limit", by decide⟩
  pure (networks ++ more)

/-- The entry of the one set, with its identity checked. -/
def checkedSet (feed : Feed) (value : Json) : Except Raised Json := do
  let members ← iterate (← item value "nftables")
  let sets ← members.mapM setEntry
  match sets.filterMap id with
  | [current] =>
      require (isText (← item current "family") "inet") ⟨"nft_set_identity", by decide⟩
      require (isText (← item current "table") "banIP") ⟨"nft_set_identity", by decide⟩
      require (isText (← item current "name") (feed.name ++ ".v4")) ⟨"nft_set_identity", by decide⟩
      require (isText (← item current "type") "ipv4_addr") ⟨"nft_set_identity", by decide⟩
      require (← sameTexts (← item current "flags") ["interval"]) ⟨"nft_set_identity", by decide⟩
      pure current
  | _ => .error (.proof ⟨"nft_set_identity", by decide⟩)

/-- `current.get("elem", [])`, when it is a list. -/
def elementsOf : Json → Option (List Json)
  | .obj fields =>
      match (Fields.get fields "elem").getD (.arr []) with
      | .arr elements => some elements
      | _ => none
  | _ => none

/-- `nft_set`, of a text of some length and the value it decodes to. -/
def nftSet (sha256 : List UInt8 → String) (feed : Feed) (size : Nat) (value : Json) :
    Except Raised SetContent := do
  require (size ≤ maxBytes) ⟨"nft_size_limit", by decide⟩
  let current ← checkedSet feed value
  let elements ← orRaise (elementsOf current) (.proof ⟨"nft_element_limit", by decide⟩)
  require (1 ≤ elements.length && elements.length ≤ maxRecords) ⟨"nft_element_limit", by decide⟩
  let networks ← elements.foldlM handleElement []
  let form ← canonical sha256 networks
  pure ⟨form, elements.length⟩

end HomeclusterInfra.BanipProof
