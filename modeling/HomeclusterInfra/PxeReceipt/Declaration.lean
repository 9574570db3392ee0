import HomeclusterInfra.Library.JsonBytes
import HomeclusterInfra.Library.JsonObject

/-!
# The source declaration

A release carries the declaration of its source. The producer of receipts reads
it before it certifies the release, the boot of a node reads it to pin its
checkout, and the observer of a node reads it to report the boot.

The producer hands the bytes to `json.loads`, which also knows UTF-16, UTF-32 and
byte order marks. The other two decode UTF-8 first. They accept what the producer
accepts exactly when the bytes are plain UTF-8 and the build and the revision are
well formed, and then all three agree (`declaration_read_iff`).

Every caller answers an error of these functions with one fixed text, so an error
is `none` here. The SHA-256 of bytes, as hexadecimal text, is a parameter.
-/

set_option autoImplicit false

namespace HomeclusterInfra.PxeReceipt

open Text JsonText

/-! ## The three readers -/

/-- `[0-9a-f]{width}` -/
def isHex (width : Nat) (text : List Char) : Bool :=
  text.length = width && text.all fun char => char.isDigit || 'a' ≤ char && char ≤ 'f'

/-- `[A-Za-z0-9._-]` -/
def isNameChar (char : Char) : Bool :=
  char.isAlphanum || char = '.' || char = '_' || char = '-'

/-- `[A-Za-z0-9][A-Za-z0-9._-]{0,127}` -/
def isBuildId : List Char → Bool
  | [] => false
  | first :: rest => first.isAlphanum && rest.length ≤ 127 && rest.all isNameChar

/-- A field that is a text. -/
def fieldText (value : Json) (key : String) : Option (List Char) :=
  (value.field key).bind Json.asChars

def declarationKeys : List String :=
  ["schema", "environment", "build_id", "infra_revision"]

def declarationSchema : List Char :=
  "homecluster-pxe-source-declaration-v1".toList

mutual
/-- All keys of all objects of a document. -/
def keysOf : Json → List (List Char)
  | .arr items => keysOfItems items
  | .obj fields => keysOfFields fields
  | _ => []

def keysOfItems : List Json → List (List Char)
  | [] => []
  | item :: items => keysOf item ++ keysOfItems items

def keysOfFields : List (List Char × Json) → List (List Char)
  | [] => []
  | (key, value) :: fields => key :: keysOf value ++ keysOfFields fields
end

/-- What `decode_declaration` answers. -/
structure Pin where
  mode : String
  infraRevision : List Char
  buildId : List Char
  declarationSha256 : List Char
  deriving DecidableEq

/-- What `os.fstat` says of a declaration file. -/
structure FileInfo where
  regular : Bool
  uid : Nat
  size : Nat
  /-- The permission bits of `st_mode`. -/
  mode : Nat

section Readers

variable (sha256 : List UInt8 → List Char)

/-- The producer's `_declaration`. -/
def declaration (raw : List UInt8) (buildId revision : List Char) : Option (List Char) :=
  (loadsBytes uniqueKeys raw).bind fun value =>
    if value.keysAre declarationKeys && fieldText value "schema" = some declarationSchema &&
        fieldText value "environment" = some "staging".toList &&
        fieldText value "build_id" = some buildId &&
        fieldText value "infra_revision" = some revision then
      some (sha256 raw)
    else none

/-- `_raw_decode`. The keys that were seen are shared by all objects. -/
def rawDecode (text : List Char) : Option Json :=
  (loadsWith uniqueKeys text).bind fun value =>
    if (keysOf value).Nodup then some value else none

/-- `decode_declaration` -/
def decodeDeclaration (raw : List UInt8) (stage : List Char) : Option Pin :=
  if 1 ≤ raw.length && raw.length ≤ 4096 then
    (utf8Decode raw).bind fun text => (rawDecode text).bind fun value =>
      if value.keysAre declarationKeys then do
        let schema ← fieldText value "schema"
        let environment ← fieldText value "environment"
        let buildId ← fieldText value "build_id"
        let revision ← fieldText value "infra_revision"
        if schema = declarationSchema && environment = "staging".toList &&
            (stage = "stg".toList || stage = "staging".toList) && isBuildId buildId &&
            isHex 40 revision then
          some ⟨"pinned", revision, buildId, sha256 raw⟩
        else none
      else none
  else none

/-- The node observer's `_declaration`. -/
def observedDeclaration (info : FileInfo) (content : List UInt8) :
    Option (Json × List Char) :=
  let raw := content.take 4097
  if info.regular && info.uid = 0 && 0 < info.size && info.size ≤ 4096 &&
      info.mode &&& 0o022 = 0 && raw.length = info.size then
    (utf8Decode raw).bind fun text => (loadsWith uniqueKeys text).bind fun value =>
      if value.keysAre declarationKeys && fieldText value "schema" = some declarationSchema &&
          fieldText value "environment" = some "staging".toList &&
          (fieldText value "build_id").any isBuildId &&
          (fieldText value "infra_revision").any (isHex 40) then
        some (value, sha256 raw)
      else none
  else none

end Readers

/-! ## A declaration -/

/-- A value that declares a build and a revision. -/
structure Declares (value : Json) (buildId revision : List Char) : Prop where
  keys : value.keysAre declarationKeys = true
  schema : fieldText value "schema" = some declarationSchema
  environment : fieldText value "environment" = some "staging".toList
  build : fieldText value "build_id" = some buildId
  revision : fieldText value "infra_revision" = some revision

section Declarations

variable {sha256 : List UInt8 → List Char} {raw : List UInt8} {value : Json}
  {buildId revision digest stage : List Char} {info : FileInfo}

theorem declaration_eq_some : declaration sha256 raw buildId revision = some digest ↔
    ∃ value, loadsBytes uniqueKeys raw = some value ∧ Declares value buildId revision ∧
      sha256 raw = digest := by
  simp only [declaration, Option.bind_eq_some_iff, Option.ite_none_right_eq_some, Option.some.injEq,
    Bool.and_eq_true, decide_eq_true_eq]
  constructor
  · rintro ⟨value, read, ⟨⟨⟨⟨keys, schema⟩, environment⟩, build⟩, revision⟩, same⟩
    exact ⟨value, read, ⟨keys, schema, environment, build, revision⟩, same⟩
  · rintro ⟨value, read, ⟨keys, schema, environment, build, revision⟩, same⟩
    exact ⟨value, read, ⟨⟨⟨⟨keys, schema⟩, environment⟩, build⟩, revision⟩, same⟩

/-- A declaration is an object. -/
theorem Declares.isObject (declares : Declares value buildId revision) :
    ∃ fields, value = .obj fields := by
  cases value with
  | obj fields => exact ⟨fields, rfl⟩
  | null | bool | int | float | str | arr => cases declares.keys

/-- The value of a field of a declaration is a text. -/
theorem Declares.isText {fields : List (List Char × Json)}
    (declares : Declares (.obj fields) buildId revision) {name : List Char} {item : Json}
    (member : (name, item) ∈ fields) : ∃ text, item = .str text := by
  have distinct : declarationKeys.Nodup := by decide
  have named : name ∈ fields.map Prod.fst := List.mem_map.2 ⟨_, member, rfl⟩
  have found := Keyed.lookup_of_mem (names_nodup distinct declares.keys) member
  obtain ⟨key, listed, rfl⟩ :=
    List.mem_map.1 ((names_perm distinct declares.keys).mem_iff.2 named)
  have texts : ∀ text, fieldText (.obj fields) key = some text → ∃ text, item = .str text := by
    intro text same
    rw [fieldText, Json.field, found, Option.bind_some] at same
    cases item with
    | str text => exact ⟨text, rfl⟩
    | null | bool | int | float | arr | obj => cases same
  simp only [declarationKeys, List.mem_cons, List.not_mem_nil, or_false] at listed
  rcases listed with rfl | rfl | rfl | rfl
  · exact texts _ declares.schema
  · exact texts _ declares.environment
  · exact texts _ declares.build
  · exact texts _ declares.revision

theorem keysOfFields_of_texts {fields : List (List Char × Json)}
    (texts : ∀ name item, (name, item) ∈ fields → ∃ text, item = .str text) :
    keysOfFields fields = fields.map Prod.fst := by
  induction fields with
  | nil => rfl
  | cons field fields ih =>
      obtain ⟨name, item⟩ := field
      obtain ⟨text, rfl⟩ := texts name item List.mem_cons_self
      have later := ih fun name item later => texts name item (List.mem_cons_of_mem _ later)
      simp only [keysOfFields, keysOf, later, List.map_cons, List.cons_append, List.nil_append]

/-- All keys of a declaration are different. -/
theorem Declares.keys_nodup (declares : Declares value buildId revision) :
    (keysOf value).Nodup := by
  obtain ⟨fields, rfl⟩ := declares.isObject
  rw [keysOf, keysOfFields_of_texts fun name item => declares.isText]
  exact names_nodup (by decide) declares.keys

/-- A text that declares a build is read by the boot as it is. -/
theorem rawDecode_of_declares {text : List Char} (declares : Declares value buildId revision)
    (read : loadsWith uniqueKeys text = some value) : rawDecode text = some value := by
  rw [rawDecode, read, Option.bind_some, if_pos declares.keys_nodup]

/-! ## The boot and the observer -/

/-- What the boot accepts is UTF-8 that declares the build and the revision of its answer. -/
theorem decodeDeclaration_eq_some {pin : Pin}
    (decoded : decodeDeclaration sha256 raw stage = some pin) :
    ∃ text value, utf8Decode raw = some text ∧ loadsWith uniqueKeys text = some value ∧
      Declares value pin.buildId pin.infraRevision ∧ isBuildId pin.buildId = true ∧
      isHex 40 pin.infraRevision = true ∧ raw.length ≤ 4096 ∧
      pin = ⟨"pinned", pin.infraRevision, pin.buildId, sha256 raw⟩ := by
  simp only [decodeDeclaration, Option.ite_none_right_eq_some, Option.bind_eq_some_iff,
    rawDecode, Bool.and_eq_true, decide_eq_true_eq] at decoded
  obtain ⟨size, text, utf8, value, ⟨read, load, -, same⟩, keys, decoded⟩ := decoded
  obtain rfl := Option.some.inj same
  simp only [bind, Option.bind_eq_some_iff, Option.ite_none_right_eq_some,
    Option.some.injEq] at decoded
  obtain ⟨schema, isSchema, environment, isEnvironment, buildId, build, revision, isRevision,
    ⟨⟨⟨⟨rfl, rfl⟩, -⟩, wellFormed⟩, hex⟩, rfl⟩ := decoded
  exact ⟨text, read, utf8, load, ⟨keys, isSchema, isEnvironment, build, isRevision⟩, wellFormed,
    hex, size.2, rfl⟩

/-- What the boot reads of a file that the producer accepted is what it was accepted for. -/
theorem pin_of_declaration {pin : Pin} (decoded : decodeDeclaration sha256 raw stage = some pin)
    (accepted : declaration sha256 raw buildId revision = some digest) :
    pin = ⟨"pinned", revision, buildId, digest⟩ := by
  obtain ⟨text, value, utf8, load, declares, -, -, -, same⟩ := decodeDeclaration_eq_some decoded
  obtain ⟨other, read, declared, rfl⟩ := declaration_eq_some.1 accepted
  obtain ⟨fields, rfl⟩ := declares.isObject
  rw [loadsBytes, detectEncoding_of_object utf8 load, decodeAs, utf8, Option.bind_some, load] at read
  obtain rfl := Option.some.inj read
  rw [same, Option.some.inj (declares.build.symm.trans declared.build),
    Option.some.inj (declares.revision.symm.trans declared.revision)]

theorem decodeDeclaration_of_declares {text : List Char}
    (size : 1 ≤ raw.length ∧ raw.length ≤ 4096)
    (pinned : stage = "stg".toList ∨ stage = "staging".toList)
    (utf8 : utf8Decode raw = some text) (read : loadsWith uniqueKeys text = some value)
    (declares : Declares value buildId revision) (build : isBuildId buildId = true)
    (hex : isHex 40 revision = true) :
    decodeDeclaration sha256 raw stage = some ⟨"pinned", revision, buildId, sha256 raw⟩ := by
  have sized : (decide (1 ≤ raw.length) && decide (raw.length ≤ 4096)) = true := by
    simp only [size.1, size.2, decide_true, Bool.and_self]
  rw [decodeDeclaration, if_pos sized, utf8, Option.bind_some, rawDecode_of_declares declares read,
    Option.bind_some, if_pos declares.keys]
  simp only [declares.schema, declares.environment, declares.build, declares.revision, bind,
    Option.bind_some, build, hex, decide_true, Bool.true_and, Bool.and_true, Bool.or_eq_true,
    decide_eq_true_eq, if_pos pinned]

theorem observedDeclaration_of_declares {text : List Char}
    (size : 1 ≤ raw.length ∧ raw.length ≤ 4096) (regular : info.regular = true)
    (owned : info.uid = 0) (unwritable : info.mode &&& 0o022 = 0) (sized : info.size = raw.length)
    (utf8 : utf8Decode raw = some text) (read : loadsWith uniqueKeys text = some value)
    (declares : Declares value buildId revision) (build : isBuildId buildId = true)
    (hex : isHex 40 revision = true) :
    observedDeclaration sha256 info raw = some (value, sha256 raw) := by
  have whole : raw.take 4097 = raw := List.take_of_length_le (by omega)
  have proper : (info.regular && info.uid = 0 && 0 < info.size && info.size ≤ 4096 &&
      info.mode &&& 0o022 = 0 && raw.length = info.size) = true := by
    have positive : 0 < raw.length := size.1
    simp only [regular, owned, unwritable, sized, size.2, positive, decide_true, Bool.and_self]
  simp only [observedDeclaration, whole, if_pos proper, utf8, read, Option.bind_some, declares.keys,
    declares.schema, declares.environment, declares.build, declares.revision, Option.any_some,
    build, hex, decide_true, Bool.and_self, if_true]

/-- **The boot and the observer read what the producer accepted exactly when the bytes are plain
UTF-8 and the build and the revision are well formed**, and then all agree. -/
theorem declaration_read_iff (size : 1 ≤ raw.length ∧ raw.length ≤ 4096)
    (pinned : stage = "stg".toList ∨ stage = "staging".toList) (regular : info.regular = true)
    (owned : info.uid = 0) (unwritable : info.mode &&& 0o022 = 0) (sized : info.size = raw.length)
    (accepted : declaration sha256 raw buildId revision = some digest) :
    (decodeDeclaration sha256 raw stage = some ⟨"pinned", revision, buildId, digest⟩ ∧
      ∃ value, observedDeclaration sha256 info raw = some (value, digest) ∧
        fieldText value "build_id" = some buildId ∧
        fieldText value "infra_revision" = some revision) ↔
      detectEncoding raw = .utf8 ∧ isBuildId buildId = true ∧ isHex 40 revision = true := by
  obtain ⟨value, read, declares, rfl⟩ := declaration_eq_some.1 accepted
  constructor
  · rintro ⟨decoded, -⟩
    obtain ⟨text, other, utf8, load, declares, build, hex, -⟩ := decodeDeclaration_eq_some decoded
    obtain ⟨fields, rfl⟩ := declares.isObject
    exact ⟨detectEncoding_of_object utf8 load, build, hex⟩
  · rintro ⟨plain, build, hex⟩
    rw [loadsBytes, plain, decodeAs] at read
    obtain ⟨text, utf8, load⟩ := Option.bind_eq_some_iff.1 read
    exact ⟨decodeDeclaration_of_declares size pinned utf8 load declares build hex, value,
      observedDeclaration_of_declares size regular owned unwritable sized utf8 load declares build
        hex, declares.build, declares.revision⟩

end Declarations

/-! ## One declaration, with and without a byte order mark -/

/-- A declaration file as the build writes it. -/
def sampleDeclaration : List Char :=
  "\x7b\"schema\":\"homecluster-pxe-source-declaration-v1\",\"environment\":\"staging\",".toList ++
    "\"build_id\":\"20260701-a\",".toList ++
    "\"infra_revision\":\"0123456789012345678901234567890123456789\"\x7d\n".toList

def sampleRevision : List Char :=
  "0123456789012345678901234567890123456789".toList

/-- The SHA-256 of the sample and of the sample behind a byte order mark. -/
def sampleDigest (raw : List UInt8) : List Char :=
  if raw.head? = some 0xef then
    "298febce05669345845bc8ce110f02c84ee611fb4f5a842090d00830b2bcbc41".toList
  else "be128e24afa4380d344aebd83ba998b7e4df8677c62fecb681f6b51e7f03d02d".toList

def sampleInfo : FileInfo :=
  ⟨true, 0, (utf8Bytes sampleDeclaration).length, 0o644⟩

theorem sample_read : ∃ value, loadsWith uniqueKeys sampleDeclaration = some value ∧
    Declares value "20260701-a".toList sampleRevision := by
  have read : ((loadsWith uniqueKeys sampleDeclaration).any fun value =>
      value.keysAre declarationKeys && fieldText value "schema" = some declarationSchema &&
        fieldText value "environment" = some "staging".toList &&
        fieldText value "build_id" = some "20260701-a".toList &&
        fieldText value "infra_revision" = some sampleRevision) = true := by
    decide +kernel
  obtain ⟨value, load, declares⟩ := Option.any_eq_true _ _ |>.1 read
  simp only [Bool.and_eq_true, decide_eq_true_eq] at declares
  obtain ⟨⟨⟨⟨keys, schema⟩, environment⟩, build⟩, revision⟩ := declares
  exact ⟨value, load, keys, schema, environment, build, revision⟩

theorem sample_accepted : declaration sampleDigest (utf8Bytes sampleDeclaration) "20260701-a".toList
    sampleRevision = some (sampleDigest (utf8Bytes sampleDeclaration)) := by
  have plain : detectEncoding (utf8Bytes sampleDeclaration) = .utf8 := by decide +kernel
  obtain ⟨value, load, declares⟩ := sample_read
  refine declaration_eq_some.2 ⟨value, ?_, declares, rfl⟩
  rw [loadsBytes, plain, decodeAs, utf8Decode_utf8Bytes, Option.bind_some, load]

theorem declaration_read_sample :
    decodeDeclaration sampleDigest (utf8Bytes sampleDeclaration) "stg".toList =
        some ⟨"pinned", sampleRevision, "20260701-a".toList,
          sampleDigest (utf8Bytes sampleDeclaration)⟩ ∧
      ∃ value, observedDeclaration sampleDigest sampleInfo (utf8Bytes sampleDeclaration) =
          some (value, sampleDigest (utf8Bytes sampleDeclaration)) ∧
        fieldText value "build_id" = some "20260701-a".toList ∧
        fieldText value "infra_revision" = some sampleRevision :=
  (declaration_read_iff (by decide +kernel) (.inl rfl) rfl rfl rfl rfl sample_accepted).2
    ⟨by decide +kernel, by decide, by decide⟩

/-- The sample behind a byte order mark. -/
def markedDeclaration : List UInt8 :=
  utf8Bytes ('\ufeff' :: sampleDeclaration)

/-- **The producer accepts a declaration behind a byte order mark**, which neither the boot nor
the observer reads. -/
theorem declaration_unread_with_mark :
    (1 ≤ markedDeclaration.length ∧ markedDeclaration.length ≤ 4096) ∧
    declaration sampleDigest markedDeclaration "20260701-a".toList sampleRevision =
      some (sampleDigest markedDeclaration) ∧
    decodeDeclaration sampleDigest markedDeclaration "stg".toList = none ∧
    observedDeclaration sampleDigest ⟨true, 0, markedDeclaration.length, 0o644⟩ markedDeclaration =
      none := by
  have size : 1 ≤ markedDeclaration.length ∧ markedDeclaration.length ≤ 4096 := by decide +kernel
  obtain ⟨value, load, declares⟩ := sample_read
  refine ⟨size, declaration_eq_some.2 ⟨value, ?_, declares, rfl⟩, ?_, ?_⟩
  · rw [markedDeclaration, loadsBytes_mark, load]
  · rw [Option.eq_none_iff_forall_ne_some]
    intro pin decoded
    obtain ⟨text, value, utf8, read, -⟩ := decodeDeclaration_eq_some decoded
    rw [markedDeclaration, utf8Decode_utf8Bytes] at utf8
    rw [← Option.some.inj utf8, loadsWith_mark] at read
    cases read
  · have whole : markedDeclaration.take 4097 = markedDeclaration :=
      List.take_of_length_le (by omega)
    simp only [observedDeclaration, whole]
    rw [markedDeclaration, utf8Decode_utf8Bytes, Option.bind_some, loadsWith_mark, Option.bind_none,
      ite_self]

end HomeclusterInfra.PxeReceipt
