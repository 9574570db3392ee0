import HomeclusterInfra.Library.JsonReader

/-!
# Reading JSON bytes

`json.loads` of bytes detects the encoding from the first four of them: a byte
order mark, or the places of the zero bytes. A text with an unpaired surrogate
has no characters here and is refused.

A document whose encoding is detected as another than plain UTF-8 is not an
object when the same bytes are decoded as UTF-8.
-/

set_option autoImplicit false

namespace HomeclusterInfra.JsonText

open Text

/-- What `json.detect_encoding` answers. -/
inductive Encoding where
  | utf8 | utf8Sig | utf16 | utf16Be | utf16Le | utf32 | utf32Be | utf32Le
  deriving DecidableEq

/-- `json.detect_encoding` -/
def detectEncoding (data : List UInt8) : Encoding :=
  if [0, 0, 0xfe, 0xff].isPrefixOf data || [0xff, 0xfe, 0, 0].isPrefixOf data then .utf32
  else if [0xfe, 0xff].isPrefixOf data || [0xff, 0xfe].isPrefixOf data then .utf16
  else if [0xef, 0xbb, 0xbf].isPrefixOf data then .utf8Sig
  else match data with
    | first :: second :: third :: fourth :: _ =>
        if first = 0 then if second = 0 then .utf32Be else .utf16Be
        else if second = 0 then if third = 0 ∧ fourth = 0 then .utf32Le else .utf16Le
        else .utf8
    | [first, second] => if first = 0 then .utf16Be else if second = 0 then .utf16Le else .utf8
    | _ => .utf8

/-- Two bytes as a number. -/
def unit16 (big : Bool) (first second : UInt8) : Nat :=
  if big then 256 * first.toNat + second.toNat else 256 * second.toNat + first.toNat

/-- The character of a code, unless it is a surrogate or too large. -/
def charOf (code : Nat) : Option Char :=
  if code.isValidChar then some (Char.ofNat code) else none

/-- UTF-16 without a byte order mark. -/
def decode16 (big : Bool) : List UInt8 → Option (List Char)
  | [] => some []
  | [_] => none
  | first :: second :: rest =>
      let code := unit16 big first second
      if 0xd800 ≤ code && code < 0xdc00 then
        match rest with
        | third :: fourth :: more =>
            let low := unit16 big third fourth
            if 0xdc00 ≤ low && low < 0xe000 then
              (decode16 big more).map
                (Char.ofNat (0x10000 + (code - 0xd800) * 0x400 + (low - 0xdc00)) :: ·)
            else none
        | _ => none
      else (charOf code).bind fun char => (decode16 big rest).map (char :: ·)

/-- UTF-32 without a byte order mark. -/
def decode32 (big : Bool) : List UInt8 → Option (List Char)
  | [] => some []
  | first :: second :: third :: fourth :: rest =>
      let code := if big then 65536 * unit16 big first second + unit16 big third fourth
        else 65536 * unit16 big third fourth + unit16 big first second
      (charOf code).bind fun char => (decode32 big rest).map (char :: ·)
  | _ => none

/-- `data.decode(encoding, 'surrogatepass')` -/
def decodeAs (data : List UInt8) : Encoding → Option (List Char)
  | .utf8 => utf8Decode data
  | .utf8Sig => utf8Decode (data.drop 3)
  | .utf16 => decode16 (data.head? == some 0xfe) (data.drop 2)
  | .utf16Be => decode16 true data
  | .utf16Le => decode16 false data
  | .utf32 => decode32 (data.head? == some 0) (data.drop 4)
  | .utf32Be => decode32 true data
  | .utf32Le => decode32 false data

/-- `json.loads` of bytes, with a hook. -/
def loadsBytes (hook : PairsHook) (data : List UInt8) : Option Json :=
  (decodeAs data (detectEncoding data)).bind (loadsWith hook)

/-! ## How a document begins -/

section Beginning

variable {hook : PairsHook} {text : List Char}

/-- A value begins with a visible ASCII character. -/
theorem readValue_head {fuel : Nat} {value : Json} {rest : List Char}
    (read : readValue hook fuel text = some (value, rest)) :
    ∃ first more, text = first :: more ∧ 32 < first.toNat ∧ first.toNat < 128 := by
  cases fuel with
  | zero =>
      rw [readValue] at read
      cases read
  | succ fuel =>
      cases text with
      | nil => simp [readValue] at read
      | cons first more =>
          refine ⟨first, more, rfl, ?_⟩
          by_cases quote : first = '"'
          · rw [quote]
            decide
          by_cases bracket : first = '['
          · rw [bracket]
            decide
          by_cases brace : first = '\x7b'
          · rw [brace]
            decide
          by_cases null : first = 'n'
          · rw [null]
            decide
          by_cases yes : first = 't'
          · rw [yes]
            decide
          by_cases no : first = 'f'
          · rw [no]
            decide
          rw [readValue, if_neg quote, if_neg bracket, if_neg brace, if_neg null, if_neg yes,
            if_neg no, readNumber] at read
          obtain ⟨⟨scanned, after⟩, scan, -⟩ := Option.map_eq_some_iff.1 read
          obtain ⟨head, tail, same, sign | digit⟩ := scanNumber_head scan
          · rw [(List.cons.inj same).1, sign]
            decide
          · rw [(List.cons.inj same).1]
            simp only [Char.isDigit, Bool.and_eq_true, decide_eq_true_eq, ge_iff_le,
              UInt32.le_iff_toNat_le] at digit
            have low : 48 ≤ head.toNat := digit.1
            have high : head.toNat ≤ 57 := digit.2
            omega

/-- An object begins with a brace, behind which it ends or a key begins. -/
theorem readValue_obj {fuel : Nat} {fields : List (List Char × Json)} {rest : List Char}
    (read : readValue hook fuel text = some (.obj fields, rest)) :
    ∃ more, text = '\x7b' :: more ∧
      ((skipSpace more).head? = some '\x7d' ∨ (skipSpace more).head? = some '"') := by
  have begins : ∀ {mark : Char} {text after : List Char}, expect mark text = some after →
      text.head? = some mark := by
    intro mark text after here
    cases text with
    | nil => cases here
    | cons char more =>
        rw [expect] at here
        split at here
        next same => rw [same, List.head?_cons]
        next => cases here
  cases fuel with
  | zero =>
      rw [readValue] at read
      cases read
  | succ fuel =>
      cases text with
      | nil => simp [readValue] at read
      | cons first more =>
          rw [readValue] at read
          split at read
          · obtain ⟨_, -, same⟩ := Option.map_eq_some_iff.1 read
            cases same
          split at read
          · split at read
            · cases read
            · obtain ⟨_, -, same⟩ := Option.map_eq_some_iff.1 read
              cases same
          split at read
          next brace =>
              refine ⟨more, by rw [brace], ?_⟩
              split at read
              next after closed => exact .inl (begins closed)
              next =>
                  obtain ⟨⟨pairs, after⟩, inside, -⟩ := Option.bind_eq_some_iff.1 read
                  right
                  cases fuel with
                  | zero =>
                      rw [readFields] at inside
                      cases inside
                  | succ fuel =>
                      rw [readFields] at inside
                      obtain ⟨quoted, quote, -⟩ := Option.bind_eq_some_iff.1 inside
                      exact begins quote
          split at read
          · obtain ⟨_, -, same⟩ := Option.map_eq_some_iff.1 read
            cases same
          split at read
          · obtain ⟨_, -, same⟩ := Option.map_eq_some_iff.1 read
            cases same
          split at read
          · obtain ⟨_, -, same⟩ := Option.map_eq_some_iff.1 read
            cases same
          · obtain ⟨⟨scanned, after⟩, -, same⟩ := Option.map_eq_some_iff.1 read
            by_cases integer : scanned.isInteger = true
            · simp [integer] at same
            · simp [integer] at same

/-- A text that is read begins with an ASCII character, which is not NUL. -/
theorem loadsWith_head {value : Json} (read : loadsWith hook text = some value) :
    ∃ first more, text = first :: more ∧ 0 < first.toNat ∧ first.toNat < 128 := by
  obtain ⟨⟨value, rest⟩, inside, -⟩ := Option.bind_eq_some_iff.1 read
  obtain ⟨first, more, same, low, high⟩ := readValue_head inside
  cases text with
  | nil => cases same
  | cons char tail =>
      refine ⟨char, tail, rfl, ?_⟩
      by_cases space : isJsonSpace char = true
      · simp only [isJsonSpace, Bool.or_eq_true, decide_eq_true_eq] at space
        rcases space with ((rfl | rfl) | rfl) | rfl <;> decide
      · rw [skipSpace_cons (by simpa using space)] at same
        rw [(List.cons.inj same).1]
        omega

/-- The second character of an object is not NUL. -/
theorem loadsWith_second {fields : List (List Char × Json)} {first second : Char}
    {more : List Char} (read : loadsWith hook (first :: second :: more) = some (.obj fields)) :
    second ≠ '\x00' := by
  rintro rfl
  have stays : skipSpace ('\x00' :: more) = '\x00' :: more := skipSpace_cons (by decide)
  obtain ⟨⟨value, rest⟩, inside, done⟩ := Option.bind_eq_some_iff.1 read
  obtain rfl : value = .obj fields := by
    simp only [Option.ite_none_right_eq_some, Option.some.injEq] at done
    exact done.2
  obtain ⟨tail, same, begins⟩ := readValue_obj inside
  by_cases space : isJsonSpace first = true
  · rw [skipSpace, List.dropWhile_cons_of_pos space, ← skipSpace, stays] at same
    cases same
  · rw [skipSpace_cons (by simpa using space)] at same
    obtain ⟨-, rfl⟩ := List.cons.inj same
    rw [stays] at begins
    rcases begins with brace | quote
    · cases brace
    · cases quote

end Beginning

/-! ## The same bytes as UTF-8 -/

section Utf8

theorem utf8Bytes_of_utf8Decode {data : List UInt8} {text : List Char}
    (decoded : utf8Decode data = some text) : utf8Bytes text = data := by
  obtain ⟨array, found, same⟩ := Option.map_eq_some_iff.1 decoded
  have encoded := @ByteArray.utf8Encode_get_utf8Decode? data.toByteArray (by rw [found]; rfl)
  simp only [found, Option.get_some, same, List.utf8Encode] at encoded
  exact List.toByteArray_inj.1 encoded

theorem utf8EncodeChar_ascii {char : Char} (ascii : char.toNat < 128) :
    String.utf8EncodeChar char = [UInt8.ofNat char.toNat] := by
  have all : ∀ code < 128, String.utf8EncodeChar (Char.ofNat code) = [UInt8.ofNat code] := by
    decide
  have encoded := all char.toNat ascii
  rwa [Char.ofNat_toNat] at encoded

/-- A zero byte is a NUL character. -/
theorem utf8Bytes_zero {text : List Char} {data : List UInt8} (bytes : utf8Bytes text = 0 :: data) :
    ∃ more, text = '\x00' :: more := by
  have decoded := utf8Decode_utf8Bytes text
  have zero : (0 :: data).toByteArray = ['\x00'].utf8Encode ++ data.toByteArray := by
    rw [List.utf8Encode_singleton, utf8EncodeChar_ascii (by decide)]
    exact @List.toByteArray_append [0] data
  rw [bytes, utf8Decode, zero, ByteArray.utf8Decode?_utf8Encode_singleton_append] at decoded
  obtain ⟨array, found, rfl⟩ := Option.map_eq_some_iff.1 decoded
  obtain ⟨rest, -, rfl⟩ := Option.map_eq_some_iff.1 found
  exact ⟨rest.toList, by simp⟩

variable {hook : PairsHook} {data : List UInt8} {text : List Char}

/-- **An object in UTF-8 is detected as UTF-8.** -/
theorem detectEncoding_of_object (decoded : utf8Decode data = some text)
    {fields : List (List Char × Json)} (read : loadsWith hook text = some (.obj fields)) :
    detectEncoding data = .utf8 := by
  obtain ⟨first, more, rfl, positive, ascii⟩ := loadsWith_head read
  have bytes := utf8Bytes_of_utf8Decode decoded
  rw [utf8Bytes, List.flatMap_cons, utf8EncodeChar_ascii ascii, ← utf8Bytes] at bytes
  subst bytes
  have code : (UInt8.ofNat first.toNat).toNat = first.toNat := by
    rw [UInt8.toNat_ofNat']
    omega
  have apart : ∀ mark : UInt8, mark = 0 ∨ 128 ≤ mark.toNat → UInt8.ofNat first.toNat ≠ mark := by
    rintro mark special rfl
    rcases special with zero | large
    · rw [← UInt8.toNat_inj, code] at zero
      exact absurd zero (by simpa using positive.ne')
    · omega
  have noZero : ∀ second rest, utf8Bytes more = second :: rest → second ≠ 0 := by
    rintro second rest bytes rfl
    obtain ⟨tail, rfl⟩ := utf8Bytes_zero bytes
    exact loadsWith_second read rfl
  have zero := apart 0 (.inl rfl)
  have fe := apart 0xfe (.inr (by decide))
  have ff := apart 0xff (.inr (by decide))
  have ef := apart 0xef (.inr (by decide))
  rw [List.singleton_append]
  unfold detectEncoding
  simp only [List.isPrefixOf_cons_cons, beq_eq_false_iff_ne.2 (Ne.symm zero),
    beq_eq_false_iff_ne.2 (Ne.symm fe), beq_eq_false_iff_ne.2 (Ne.symm ff),
    beq_eq_false_iff_ne.2 (Ne.symm ef), Bool.false_and, Bool.or_self, Bool.false_eq_true, if_false]
  generalize utf8Bytes more = after at noZero
  rcases after with - | ⟨second, - | ⟨third, - | ⟨fourth, rest⟩⟩⟩
  · rfl
  · simp only [zero, noZero second [] rfl, if_false]
  · rfl
  · simp only [zero, noZero second _ rfl, if_false]

/-- The bytes of a text behind a byte order mark are read as the text. -/
theorem loadsBytes_mark (hook : PairsHook) (text : List Char) :
    loadsBytes hook (utf8Bytes ('\ufeff' :: text)) = loadsWith hook text := by
  have mark : String.utf8EncodeChar '\ufeff' = [0xef, 0xbb, 0xbf] := by decide
  have bytes : utf8Bytes ('\ufeff' :: text) = 0xef :: 0xbb :: 0xbf :: utf8Bytes text := by
    rw [utf8Bytes, List.flatMap_cons, mark]
    rfl
  have detected : detectEncoding (0xef :: 0xbb :: 0xbf :: utf8Bytes text) = .utf8Sig := by
    simp [detectEncoding, List.isPrefixOf_cons_cons]
  rw [loadsBytes, bytes, detected, decodeAs, List.drop_succ_cons, List.drop_succ_cons,
    List.drop_succ_cons, List.drop_zero, utf8Decode_utf8Bytes, Option.bind_some]

/-- A text behind a byte order mark is not read. -/
theorem loadsWith_mark (hook : PairsHook) (text : List Char) :
    loadsWith hook ('\ufeff' :: text) = none := by
  rw [Option.eq_none_iff_forall_ne_some]
  intro value read
  obtain ⟨first, more, same, -, ascii⟩ := loadsWith_head read
  rw [← (List.cons.inj same).1] at ascii
  exact absurd ascii (by decide)

end Utf8

/-! ## Hooks that accept more -/

section Hooks

variable {hook wider : PairsHook}

/-- A hook makes the same object of all pairs that another one accepts. -/
def PairsHook.Widens (wider hook : PairsHook) : Prop :=
  ∀ pairs fields, hook pairs = some fields → wider pairs = some fields

theorem dictOf_widens_uniqueKeys : dictOf.Widens uniqueKeys := by
  intro pairs fields unique
  rw [uniqueKeys, Option.ite_none_right_eq_some] at unique
  obtain ⟨distinct, same⟩ := unique
  rw [dictOf_keeps pairs distinct, same]

/-- One level of values, when the items and pairs below it read back. -/
theorem readValue_widens {fuel : Nat} (widens : wider.Widens hook)
    (items : ∀ text result, readItems hook fuel text = some result →
      readItems wider fuel text = some result)
    (pairs : ∀ text result, readFields hook fuel text = some result →
      readFields wider fuel text = some result)
    {text : List Char} {result : Json × List Char}
    (read : readValue hook (fuel + 1) text = some result) :
    readValue wider (fuel + 1) text = some result := by
  cases text with
  | nil =>
      rw [readValue] at read
      · cases read
      · exact Nat.succ_ne_zero fuel
  | cons first rest =>
      rw [readValue] at read ⊢
      by_cases quote : first = '"'
      · rwa [if_pos quote] at read ⊢
      rw [if_neg quote] at read ⊢
      by_cases bracket : first = '['
      · rw [if_pos bracket] at read ⊢
        cases closed : expect ']' (skipSpace rest) with
        | some after => rwa [closed] at read
        | none =>
            rw [closed] at read
            obtain ⟨pair, inside, same⟩ := Option.map_eq_some_iff.mp read
            exact Option.map_eq_some_iff.mpr ⟨pair, items _ _ inside, same⟩
      rw [if_neg bracket] at read ⊢
      by_cases brace : first = '\x7b'
      · rw [if_pos brace] at read ⊢
        cases closed : expect '\x7d' (skipSpace rest) with
        | some after =>
            rw [closed] at read
            obtain ⟨fields, made, same⟩ := Option.map_eq_some_iff.mp read
            exact Option.map_eq_some_iff.mpr ⟨fields, widens _ _ made, same⟩
        | none =>
            rw [closed] at read
            obtain ⟨⟨found, after⟩, inside, made⟩ := Option.bind_eq_some_iff.mp read
            obtain ⟨fields, made, same⟩ := Option.map_eq_some_iff.mp made
            exact Option.bind_eq_some_iff.mpr ⟨(found, after), pairs _ _ inside,
              Option.map_eq_some_iff.mpr ⟨fields, widens _ _ made, same⟩⟩
      rwa [if_neg brace] at read ⊢

/-- **A wider hook reads whatever the other one reads.** -/
theorem read_widens (widens : wider.Widens hook) (fuel : Nat) :
    (∀ text result, readValue hook fuel text = some result →
      readValue wider fuel text = some result) ∧
    (∀ text result, readItems hook fuel text = some result →
      readItems wider fuel text = some result) ∧
    ∀ text result, readFields hook fuel text = some result →
      readFields wider fuel text = some result := by
  induction fuel with
  | zero =>
      refine ⟨fun text result read => ?_, fun text result read => ?_, fun text result read => ?_⟩
      · rw [readValue] at read
        cases read
      · rw [readItems] at read
        cases read
      · rw [readFields] at read
        cases read
  | succ fuel ih =>
      obtain ⟨values, items, pairs⟩ := ih
      refine ⟨fun text result read => readValue_widens widens items pairs read,
        fun text result read => ?_, fun text result read => ?_⟩
      · rw [readItems] at read ⊢
        obtain ⟨⟨item, rest⟩, first, read⟩ := Option.bind_eq_some_iff.mp read
        refine Option.bind_eq_some_iff.mpr ⟨(item, rest), values _ _ first, ?_⟩
        cases more : expect ',' (skipSpace rest) with
        | none => simpa only [more] using read
        | some next =>
            simp only [more] at read ⊢
            obtain ⟨pair, inside, same⟩ := Option.map_eq_some_iff.mp read
            exact Option.map_eq_some_iff.mpr ⟨pair, items _ _ inside, same⟩
      · rw [readFields] at read ⊢
        obtain ⟨quoted, quote, read⟩ := Option.bind_eq_some_iff.mp read
        obtain ⟨⟨key, afterKey⟩, isKey, read⟩ := Option.bind_eq_some_iff.mp read
        obtain ⟨colon, isColon, read⟩ := Option.bind_eq_some_iff.mp read
        obtain ⟨⟨value, rest⟩, first, read⟩ := Option.bind_eq_some_iff.mp read
        refine Option.bind_eq_some_iff.mpr ⟨quoted, quote, Option.bind_eq_some_iff.mpr
          ⟨(key, afterKey), isKey, Option.bind_eq_some_iff.mpr ⟨colon, isColon,
            Option.bind_eq_some_iff.mpr ⟨(value, rest), values _ _ first, ?_⟩⟩⟩⟩
        cases more : expect ',' (skipSpace rest) with
        | none => simpa only [more] using read
        | some next =>
            simp only [more] at read ⊢
            obtain ⟨pair, inside, same⟩ := Option.map_eq_some_iff.mp read
            exact Option.map_eq_some_iff.mpr ⟨pair, pairs _ _ inside, same⟩

/-- **Without a hook, bytes are read like those with distinct keys are with one.** -/
theorem loadsBytes_widens (widens : wider.Widens hook) {data : List UInt8} {value : Json}
    (read : loadsBytes hook data = some value) : loadsBytes wider data = some value := by
  obtain ⟨text, decoded, loaded⟩ := Option.bind_eq_some_iff.mp read
  obtain ⟨⟨found, rest⟩, first, same⟩ := Option.bind_eq_some_iff.mp loaded
  exact Option.bind_eq_some_iff.mpr ⟨text, decoded, Option.bind_eq_some_iff.mpr
    ⟨(found, rest), (read_widens widens _).1 _ _ first, same⟩⟩

end Hooks

end HomeclusterInfra.JsonText
