import HomeclusterInfra.Library.JsonSizes
import HomeclusterInfra.PxeReceipt.Contract

/-!
# What the reader of receipts accepts

Every valid receipt fits into the size limit, since all its texts have patterns of
bounded length. So the reader accepts exactly the canonical texts of valid receipts
of the date it is asked for, and the text tells the receipt (`readReceipt_iff`).
-/

set_option autoImplicit false

namespace HomeclusterInfra.PxeReceipt

open Text JsonText Calendar

/-! ## Plain texts -/

/-- A text that stands for itself in JSON, of at most so many characters. -/
def Short (length : Nat) (text : List Char) : Prop :=
  text.all isPlain = true ∧ text.length ≤ length

theorem isPlain_of_range {char : Char} (low : 45 ≤ char.toNat) (high : char.toNat ≤ 122)
    (backslash : char ≠ '\\') : isPlain char = true := by
  simp only [isPlain, Bool.and_eq_true, decide_eq_true_eq]
  refine ⟨⟨⟨by omega, by omega⟩, ?_⟩, backslash⟩
  rintro rfl
  exact absurd low (by decide)

theorem isPlain_of_isDigit {char : Char} (digit : char.isDigit = true) : isPlain char = true := by
  simp only [Char.isDigit, Bool.and_eq_true, decide_eq_true_eq] at digit
  have low : 48 ≤ char.toNat := UInt32.le_iff_toNat_le.mp digit.1
  have high : char.toNat ≤ 57 := UInt32.le_iff_toNat_le.mp digit.2
  refine isPlain_of_range (by omega) (by omega) ?_
  rintro rfl
  exact absurd high (by decide)

theorem isPlain_of_isAlphanum {char : Char} (alphanum : char.isAlphanum = true) :
    isPlain char = true := by
  rcases isAlphanum_iff.mp alphanum with alpha | digit
  · rcases isAlpha_iff.mp alpha with upper | lower
    · obtain ⟨low, high⟩ := isUpper_iff.mp upper
      refine isPlain_of_range (by omega) (by omega) ?_
      rintro rfl
      exact absurd high (by decide)
    · obtain ⟨low, high⟩ := isLower_iff.mp lower
      refine isPlain_of_range (by omega) (by omega) ?_
      rintro rfl
      exact absurd low (by decide)
  · exact isPlain_of_isDigit digit

theorem isPlain_of_isNameChar {char : Char} (name : isNameChar char = true) :
    isPlain char = true := by
  simp only [isNameChar, Bool.or_eq_true, decide_eq_true_eq] at name
  rcases name with ((alphanum | rfl) | rfl) | rfl
  · exact isPlain_of_isAlphanum alphanum
  · decide
  · decide
  · decide

theorem short_of_isHex {width : Nat} {text : List Char} (hex : isHex width text = true) :
    Short width text := by
  simp only [isHex, Bool.and_eq_true, decide_eq_true_eq, List.all_eq_true] at hex
  refine ⟨List.all_eq_true.mpr fun char member => ?_, Nat.le_of_eq hex.1⟩
  have digit := hex.2 char member
  simp only [Bool.or_eq_true, Bool.and_eq_true, decide_eq_true_eq] at digit
  rcases digit with digit | ⟨low, high⟩
  · exact isPlain_of_isDigit digit
  · have lower : 97 ≤ char.toNat := UInt32.le_iff_toNat_le.mp low
    have upper : char.toNat ≤ 102 := UInt32.le_iff_toNat_le.mp high
    refine isPlain_of_range (by omega) (by omega) ?_
    rintro rfl
    exact absurd lower (by decide)

theorem short_of_isBuildId {text : List Char} (build : isBuildId text = true) :
    Short 128 text := by
  cases text with
  | nil => cases build
  | cons first rest =>
      simp only [isBuildId, Bool.and_eq_true, decide_eq_true_eq, List.all_eq_true] at build
      refine ⟨?_, Nat.succ_le_succ build.1.2⟩
      rw [List.all_cons, Bool.and_eq_true, List.all_eq_true]
      exact ⟨isPlain_of_isAlphanum build.1.1, fun char member =>
        isPlain_of_isNameChar (build.2 char member)⟩

theorem short_of_isRequiredPath {text : List Char} (path : isRequiredPath text = true) :
    Short 512 text := by
  cases text with
  | nil => cases path
  | cons first rest =>
      simp only [isRequiredPath, Bool.and_eq_true, decide_eq_true_eq, List.all_eq_true] at path
      obtain ⟨⟨⟨alphanum, length⟩, chars⟩, -⟩ := path
      refine ⟨?_, Nat.succ_le_succ length⟩
      rw [List.all_cons, Bool.and_eq_true, List.all_eq_true]
      refine ⟨isPlain_of_isAlphanum alphanum, fun char member => ?_⟩
      have inside := chars char member
      rw [Bool.or_eq_true, decide_eq_true_eq] at inside
      rcases inside with name | rfl
      · exact isPlain_of_isNameChar name
      · decide

theorem short_of_isGenerationProfile {text : List Char}
    (profile : isGenerationProfile text = true) : Short 18 text := by
  simp only [isGenerationProfile, Bool.or_eq_true, decide_eq_true_eq] at profile
  rcases profile with rfl | rfl
  · exact ⟨by decide, by decide⟩
  · exact ⟨by decide, by decide⟩

theorem plain_of_readDigits {text : List Char} {number : Nat}
    (read : readDigits text = some number) : text.all isPlain = true := by
  rw [readDigits, Option.ite_none_right_eq_some, List.all_eq_true] at read
  exact List.all_eq_true.mpr fun char member => isPlain_of_isDigit (read.1 char member)

theorem short_of_isDate {text : List Char} (date : isDate text = true) : Short 8 text := by
  rw [isDate, Bool.and_eq_true, decide_eq_true_eq] at date
  refine ⟨?_, Nat.le_of_eq date.1⟩
  have read := date.2
  split at read
  next year month day years months days =>
      have split : text = text.take 4 ++ ((text.drop 4).take 2 ++ text.drop 6) := by
        have later := List.take_append_drop 2 (text.drop 4)
        rw [List.drop_drop] at later
        rw [later, List.take_append_drop]
      rw [split, List.all_append, List.all_append, plain_of_readDigits years,
        plain_of_readDigits months, plain_of_readDigits days, Bool.and_self, Bool.and_self]
  next => cases read

theorem short_of_isTimestamp {text : List Char} (stamp : isTimestamp text = true) :
    Short 20 text := by
  unfold isTimestamp at stamp
  split at stamp
  next y₁ y₂ y₃ y₄ m₁ m₂ d₁ d₂ h₁ h₂ n₁ n₂ s₁ s₂ =>
      split at stamp
      next year month day hour minute second years months days hours minutes seconds =>
          refine ⟨?_, Nat.le_refl _⟩
          have yearDigits := plain_of_readDigits years
          have monthDigits := plain_of_readDigits months
          have dayDigits := plain_of_readDigits days
          have hourDigits := plain_of_readDigits hours
          have minuteDigits := plain_of_readDigits minutes
          have secondDigits := plain_of_readDigits seconds
          have marks : isPlain '-' = true ∧ isPlain 'T' = true ∧ isPlain ':' = true ∧
              isPlain 'Z' = true := by decide
          simp only [List.all_cons, List.all_nil, Bool.and_eq_true, Bool.and_true] at *
          simp only [*, and_self]
      next => cases stamp
  next => cases stamp

/-! ## Sizes of fields -/

section Sizes

variable {value item : Json} {key : String}

theorem compactLength_of_short {length : Nat} {text : List Char} (short : Short length text) :
    compactLength (.str text) ≤ length + 2 := by
  have size := compactLength_str short.1
  have bound := short.2
  omega

theorem compactLength_of_fieldText {text : List Char} {length : Nat}
    (found : fieldText value key = some text) (short : Short length text)
    (same : value.field key = some item) : compactLength item ≤ length + 2 := by
  rw [fieldText, same, Option.bind_some] at found
  cases item with
  | str text' =>
      obtain rfl := Option.some.inj found
      exact compactLength_of_short short
  | null | bool | int | float | arr | obj => cases found

theorem compactLength_of_textField {pattern : List Char → Bool} {length : Nat}
    (short : ∀ text, pattern text = true → Short length text)
    (passes : textField value key pattern = true) (same : value.field key = some item) :
    compactLength item ≤ length + 2 := by
  obtain ⟨text, found, passes⟩ := (Option.any_eq_true _ _).mp passes
  exact compactLength_of_fieldText found (short text passes) same

theorem compactLength_of_isField {text : String} {length : Nat}
    (short : Short length text.toList) (passes : isField value key text = true)
    (same : value.field key = some item) : compactLength item ≤ length + 2 :=
  compactLength_of_fieldText (of_decide_eq_true passes) short same

theorem compactLength_of_intField {low high : Int} {digits : Nat} (nonnegative : 0 ≤ low)
    (positive : 0 < digits) (small : high < 10 ^ digits)
    (passes : intField value key low high = true) (same : value.field key = some item) :
    compactLength item ≤ digits := by
  rw [intField, same] at passes
  cases item with
  | int number =>
      rw [Bool.and_eq_true, decide_eq_true_eq, decide_eq_true_eq] at passes
      obtain ⟨n, rfl⟩ := Int.eq_ofNat_of_zero_le (Int.le_trans nonnegative passes.1)
      refine compactLength_nat positive ?_
      have below : (n : Int) < 10 ^ digits := Int.lt_of_le_of_lt passes.2 small
      exact_mod_cast below
  | null | bool | str | float | arr | obj => cases passes

theorem compactLength_of_checkField {check : Json → Bool} {length : Nat}
    (bounded : ∀ item, check item = true → compactLength item ≤ length)
    (passes : checkField value key check = true) (same : value.field key = some item) :
    compactLength item ≤ length := by
  rw [checkField, same] at passes
  exact bounded item passes

theorem compactLength_validTree (valid : validTree value = true) : compactLength value ≤ 240 := by
  simp only [validTree, Bool.and_eq_true] at valid
  obtain ⟨⟨⟨⟨⟨keys, schema⟩, algorithm⟩, digest⟩, entries⟩, bytes⟩ := valid
  refine Nat.le_trans (compactLength_le_of_keysAre [("schema", 34), ("algorithm", 24),
    ("digest", 66), ("entries", 7), ("regular_file_bytes", 13)] (by decide) (by decide) keys
    fun entry member item same => ?_) (by decide)
  simp only [List.mem_cons, List.not_mem_nil, or_false] at member
  rcases member with rfl | rfl | rfl | rfl | rfl
  · exact compactLength_of_isField ⟨by decide, by decide⟩ schema same
  · exact compactLength_of_isField ⟨by decide, by decide⟩ algorithm same
  · exact compactLength_of_textField (fun _ => short_of_isHex) digest same
  · exact compactLength_of_intField (by decide) (by decide) (by decide) entries same
  · exact compactLength_of_intField (by decide) (by decide) (by decide) bytes same

theorem compactLength_validRequired (valid : validRequired value = true) :
    compactLength value ≤ 700 := by
  rw [validRequired, Bool.and_eq_true] at valid
  obtain ⟨path, valid⟩ := valid
  split at valid
  · simp only [Bool.and_eq_true] at valid
    refine Nat.le_trans (compactLength_le_of_keysAre [("path", 514), ("type", 11)] (by decide)
      (by decide) valid.1 fun entry member item same => ?_) (by decide)
    simp only [List.mem_cons, List.not_mem_nil, or_false] at member
    rcases member with rfl | rfl
    · exact compactLength_of_textField (fun _ => short_of_isRequiredPath) path same
    · exact compactLength_of_isField ⟨by decide, by decide⟩ valid.2 same
  · simp only [Bool.and_eq_true] at valid
    obtain ⟨⟨⟨keys, type⟩, size⟩, hash⟩ := valid
    refine Nat.le_trans (compactLength_le_of_keysAre [("path", 514), ("type", 9), ("sha256", 66),
      ("size", 10)] (by decide) (by decide) keys fun entry member item same => ?_) (by decide)
    simp only [List.mem_cons, List.not_mem_nil, or_false] at member
    rcases member with rfl | rfl | rfl | rfl
    · exact compactLength_of_textField (fun _ => short_of_isRequiredPath) path same
    · exact compactLength_of_isField ⟨by decide, by decide⟩ type same
    · exact compactLength_of_textField (fun _ => short_of_isHex) hash same
    · exact compactLength_of_intField (by decide) (by decide) (by decide) size same

theorem compactLength_validRequiredList {generation : String}
    (valid : validRequiredList generation value = true) : compactLength value ≤ 90000 := by
  cases value with
  | arr items =>
      simp only [validRequiredList, Bool.and_eq_true, List.all_eq_true, decide_eq_true_eq] at valid
      obtain ⟨⟨⟨⟨-, few⟩, all⟩, -⟩, -⟩ := valid
      have total : (items.map fun item => compactLength item + 1).sum ≤ items.length * 701 := by
        have each : ∀ length ∈ items.map fun item => compactLength item + 1, length ≤ 701 := by
          intro length member
          obtain ⟨item, inside, rfl⟩ := List.mem_map.mp member
          exact Nat.succ_le_succ (compactLength_validRequired (all item inside))
        have bound := List.sum_le_card_nsmul _ 701 each
        rwa [List.length_map, nsmul_eq_mul] at bound
      have whole := compactLength_arr_le items
      omega
  | null | bool | int | float | str | obj => cases valid

theorem compactLength_validArtifact {generation : String}
    (valid : validArtifact generation value = true) : compactLength value ≤ 91000 := by
  simp only [validArtifact, Bool.and_eq_true] at valid
  obtain ⟨⟨⟨keys, rootfs⟩, tftp⟩, required⟩ := valid
  refine Nat.le_trans (compactLength_le_of_keysAre [("rootfs", 240), ("tftp", 240),
    ("required_tftp", 90000)] (by decide) (by decide) keys fun entry member item same => ?_)
    (by decide)
  simp only [List.mem_cons, List.not_mem_nil, or_false] at member
  rcases member with rfl | rfl | rfl
  · exact compactLength_of_checkField (fun _ => compactLength_validTree) rootfs same
  · exact compactLength_of_checkField (fun _ => compactLength_validTree) tftp same
  · exact compactLength_of_checkField (fun _ => compactLength_validRequiredList) required same

theorem compactLength_validArtifacts (valid : validArtifacts value = true) :
    compactLength value ≤ 183000 := by
  simp only [validArtifacts, Bool.and_eq_true, List.all_eq_true] at valid
  refine Nat.le_trans (compactLength_le_of_keysAre [("rpi4", 91000), ("rpi5", 91000)] (by decide)
    (by decide) valid.1.1 fun entry member item same => ?_) (by decide)
  simp only [List.mem_cons, List.not_mem_nil, or_false] at member
  rcases member with rfl | rfl
  · exact compactLength_of_checkField (fun _ => compactLength_validArtifact)
      (valid.1.2 "rpi4" (by decide)) same
  · exact compactLength_of_checkField (fun _ => compactLength_validArtifact)
      (valid.1.2 "rpi5" (by decide)) same

theorem compactLength_validDeclarations (valid : validDeclarations value = true) :
    compactLength value ≤ 200 := by
  simp only [validDeclarations, Bool.and_eq_true, List.all_eq_true] at valid
  refine Nat.le_trans (compactLength_le_of_keysAre [("rpi4", 66), ("rpi5", 66)] (by decide)
    (by decide) valid.1.1 fun entry member item same => ?_) (by decide)
  simp only [List.mem_cons, List.not_mem_nil, or_false] at member
  rcases member with rfl | rfl
  · exact compactLength_of_textField (fun _ => short_of_isHex) (valid.1.2 "rpi4" (by decide)) same
  · exact compactLength_of_textField (fun _ => short_of_isHex) (valid.1.2 "rpi5" (by decide)) same

theorem compactLength_validateWindow (valid : validateWindow value = true) :
    compactLength value ≤ 100 := by
  obtain ⟨keys, started, finished, one, other, stamp, stamp', -⟩ := validateWindow_eq_true.mp valid
  refine Nat.le_trans (compactLength_le_of_keysAre [("started_at", 22), ("finished_at", 22)]
    (by decide) (by decide) keys fun entry member item same => ?_) (by decide)
  simp only [List.mem_cons, List.not_mem_nil, or_false] at member
  rcases member with rfl | rfl
  · exact compactLength_of_fieldText one (short_of_isTimestamp stamp) same
  · exact compactLength_of_fieldText other (short_of_isTimestamp stamp') same

end Sizes

/-! ## Receipts -/

section Receipts

variable {sha256 : List UInt8 → List Char}

/-- The digest of bytes is hexadecimal. -/
def Hexadecimal (sha256 : List UInt8 → List Char) : Prop :=
  ∀ raw, isHex 64 (sha256 raw) = true

theorem short_receiptId (hexadecimal : Hexadecimal sha256) (value : Json) :
    Short 71 (receiptId sha256 value) := by
  unfold receiptId
  obtain ⟨plain, length⟩ := short_of_isHex (hexadecimal (receiptDomain ++
    utf8Bytes (canonical (receiptPayload value))))
  generalize sha256 (receiptDomain ++ utf8Bytes (canonical (receiptPayload value))) = digest
    at plain length
  have front : "sha256:".toList.all isPlain = true ∧ "sha256:".toList.length = 7 := by decide
  refine ⟨?_, ?_⟩
  · rw [List.all_append, plain, front.1]
    rfl
  · rw [List.length_append]
    omega

/-- **A valid receipt is short.** -/
theorem Valid.compactLength_le (hexadecimal : Hexadecimal sha256) {value : Json}
    (valid : Valid sha256 value) : compactLength value ≤ 185000 := by
  refine Nat.le_trans (compactLength_le_of_keysAre [("schema", 37), ("scope", 26),
    ("environment", 9), ("build_id", 130), ("generation_profile", 20), ("bundle_date", 10),
    ("infra_generation_revision", 42), ("artifact_manifest_sha256", 66),
    ("source_declarations", 200), ("artifacts", 183000), ("capture_window", 100),
    ("receipt_id", 73)] (by decide) (by decide) valid.keys fun entry member item same => ?_)
    (by decide)
  simp only [List.mem_cons, List.not_mem_nil, or_false] at member
  rcases member with rfl | rfl | rfl | rfl | rfl | rfl | rfl | rfl | rfl | rfl | rfl | rfl
  · exact compactLength_of_isField ⟨by decide, by decide⟩ valid.schema same
  · exact compactLength_of_isField ⟨by decide, by decide⟩ valid.scope same
  · exact compactLength_of_isField ⟨by decide, by decide⟩ valid.environment same
  · exact compactLength_of_textField (fun _ => short_of_isBuildId) valid.build same
  · exact compactLength_of_textField (fun _ => short_of_isGenerationProfile) valid.profile same
  · exact compactLength_of_textField (fun _ => short_of_isDate) valid.date same
  · exact compactLength_of_textField (fun _ => short_of_isHex) valid.revision same
  · exact compactLength_of_textField (fun _ => short_of_isHex) valid.manifest same
  · exact compactLength_of_checkField (fun _ => compactLength_validDeclarations)
      valid.declarations same
  · exact compactLength_of_checkField (fun _ => compactLength_validArtifacts) valid.artifacts same
  · exact compactLength_of_checkField (fun _ => compactLength_validateWindow) valid.window same
  · exact compactLength_of_fieldText valid.identity (short_receiptId hexadecimal value) same

/-- The keys of a valid receipt may be sorted. -/
theorem Valid.sorted {value : Json} (valid : Valid sha256 value) :
    Valid sha256 value.sortKeys := by
  rw [← validateReceipt_eq_true, validateReceipt_sorted valid.readable, validateReceipt_eq_true]
  exact valid

theorem length_encoded (value : Json) :
    (encoded value).length = compactLength value.sortKeys + 1 := by
  have newline : '\n'.utf8Size = 1 := rfl
  rw [encoded, length_utf8Bytes, utf8Length_append, utf8Length_cons, utf8Length_nil, newline]
  rfl

/-- A canonical text of an object is read back with its keys sorted. -/
theorem loadsBytes_encoded {fields : List (List Char × Json)}
    (readable : (Json.obj fields).Readable) :
    loadsBytes uniqueKeys (encoded (.obj fields)) = some (Json.obj fields).sortKeys := by
  have read : loadsWith uniqueKeys (canonical (.obj fields) ++ ['\n']) =
      some (Json.obj fields).sortKeys := loadsWith_canonical uniqueKeys_keeps readable rfl
  have decoded := utf8Decode_utf8Bytes (canonical (.obj fields) ++ ['\n'])
  have object := sortKeys_obj fields
  rw [loadsBytes, encoded, detectEncoding_of_object decoded (object ▸ read), decodeAs, decoded,
    Option.bind_some]
  exact read

theorem Valid.isObject {value : Json} (valid : Valid sha256 value) :
    ∃ fields, value = .obj fields := by
  have keys := valid.keys
  cases value with
  | obj fields => exact ⟨fields, rfl⟩
  | null | bool | int | float | str | arr => cases keys

theorem encoded_sorted (value : Json) : encoded value.sortKeys = encoded value := by
  rw [encoded, canonical, sortKeys_sortKeys, ← canonical, ← encoded]

/-- The stored text of a valid receipt. -/
structure Stores (sha256 : List UInt8 → List Char) (raw : List UInt8) (bundleDate : List Char)
    (value : Json) : Prop where
  bytes : raw = encoded value
  valid : validateReceipt sha256 value = true
  date : fieldText value "bundle_date" = some bundleDate

/-- **A stored receipt is read back.** -/
theorem readReceipt_of_stores (hexadecimal : Hexadecimal sha256) {raw : List UInt8}
    {bundleDate : List Char} {value : Json} (stores : Stores sha256 raw bundleDate value) :
    readReceipt sha256 raw bundleDate = some (value.sortKeys, sha256 raw) := by
  obtain ⟨rfl, validated, dated⟩ := stores
  have valid := validateReceipt_eq_true.mp validated
  have readable := valid.readable
  obtain ⟨fields, rfl⟩ := valid.isObject
  have date : isDate bundleDate = true := by
    have passes := valid.date
    rw [textField, dated] at passes
    exact passes
  have size := valid.sorted.compactLength_le hexadecimal
  have length := length_encoded (.obj fields)
  have fits : (isDate bundleDate && decide (0 < (encoded (.obj fields)).length) &&
      decide ((encoded (.obj fields)).length ≤ maxReceipt)) = true := by
    rw [date, Bool.true_and, Bool.and_eq_true, decide_eq_true_eq, decide_eq_true_eq]
    have limit : maxReceipt = 262144 := rfl
    omega
  unfold readReceipt
  rw [if_pos fits, loadsBytes_encoded readable, Option.bind_some, if_pos]
  rw [Bool.and_eq_true, Bool.and_eq_true, decide_eq_true_eq, decide_eq_true_eq,
    validateReceipt_sorted readable, fieldText_sorted readable, encoded_sorted]
  exact ⟨⟨validated, dated⟩, rfl⟩

/-- What is read is the receipt that the text stores. -/
theorem stores_of_readReceipt {raw : List UInt8} {bundleDate : List Char} {value : Json}
    {hash : List Char} (read : readReceipt sha256 raw bundleDate = some (value, hash)) :
    Stores sha256 raw bundleDate value := by
  simp only [readReceipt, Option.ite_none_right_eq_some, Option.bind_eq_some_iff,
    Option.some.injEq, Prod.mk.injEq, Bool.and_eq_true, decide_eq_true_eq] at read
  obtain ⟨-, found, -, ⟨⟨valid, date⟩, bytes⟩, rfl, -⟩ := read
  exact ⟨bytes, valid, date⟩

/-- Two receipts of one text are one value. -/
theorem Stores.unique {raw : List UInt8} {bundleDate : List Char} {value other : Json}
    (stores : Stores sha256 raw bundleDate value) (stores' : Stores sha256 raw bundleDate other) :
    value.sortKeys = other.sortKeys := by
  have texts := utf8Bytes_injective (stores.bytes.symm.trans stores'.bytes)
  exact (canonical_line_inj (validateReceipt_eq_true.mp stores.valid).readable
    (validateReceipt_eq_true.mp stores'.valid).readable texts).1

/-- **The reader accepts the canonical texts of valid receipts**, and each tells one
receipt, up to the order of keys. -/
theorem readReceipt_iff (hexadecimal : Hexadecimal sha256) (raw : List UInt8)
    (bundleDate : List Char) :
    ((readReceipt sha256 raw bundleDate).isSome ↔
        ∃ value, Stores sha256 raw bundleDate value) ∧
      ∀ value other, Stores sha256 raw bundleDate value → Stores sha256 raw bundleDate other →
        value.sortKeys = other.sortKeys := by
  refine ⟨⟨fun accepted => ?_, ?_⟩, fun _ _ => Stores.unique⟩
  · obtain ⟨⟨value, hash⟩, read⟩ := Option.isSome_iff_exists.mp accepted
    exact ⟨value, stores_of_readReceipt read⟩
  · rintro ⟨value, stores⟩
    rw [readReceipt_of_stores hexadecimal stores]
    rfl

end Receipts

end HomeclusterInfra.PxeReceipt
