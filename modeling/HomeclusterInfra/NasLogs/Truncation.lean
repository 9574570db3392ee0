import HomeclusterInfra.Library.Lines
import HomeclusterInfra.Library.RegexReads
import HomeclusterInfra.NasLogs.Outbound

/-!
# When an entry can be cut short

The loop of `entry` halves the message until the object fits. The other fields
stay as they are, among them the time stamp that was found in the message, and
its fraction has as many digits as the record gives it. The loop ends when the
object fits as it is or with one character of the message, and otherwise never.
-/

set_option autoImplicit false

namespace HomeclusterInfra.NasLogs

open Text JsonText Checked Binary64 Regex Regex.Rx

/-! ## The loop -/

section Loop

/-- The separators of `json.dumps(obj, ensure_ascii=False)`. -/
def plainStyle : Style :=
  ⟨false, ", ".toList, ": ".toList⟩

/-- What a turn of the loop leaves of the message. -/
def halve (message : List Char) : List Char :=
  message.take (max 1 (message.length / 2))

/-- The loop is left after some number of turns. -/
def Halts (build : List Char → Bool → Json) (message : List Char) : Prop :=
  ∃ turns, encodedLength plainStyle (build (halve^[turns] message) (0 < turns)) ≤ maxEntry

/-- The object does not shrink when its message grows at the end. -/
def Grows (build : List Char → Bool → Json) : Prop :=
  ∀ short long, short <+: long →
    encodedLength plainStyle (build short true) ≤ encodedLength plainStyle (build long true)

variable {build : List Char → Bool → Json}

theorem take_one_halve (message : List Char) : (halve message).take 1 = message.take 1 := by
  rw [halve, List.take_take, Nat.min_eq_left (Nat.le_max_left _ _)]

theorem take_one_iterate (turns : Nat) (message : List Char) :
    (halve^[turns] message).take 1 = message.take 1 := by
  induction turns generalizing message with
  | zero => rfl
  | succ turns ih => rw [Function.iterate_succ_apply, ih, take_one_halve]

theorem length_halve_lt {message : List Char} (long : 1 < message.length) :
    (halve message).length < message.length := by
  rw [halve, List.length_take]
  omega

/-- As many turns as there are characters leave at most one. -/
theorem iterate_length (message : List Char) :
    halve^[message.length] message = message.take 1 := by
  have short (turns : Nat) : ∀ message : List Char, message.length ≤ turns + 1 →
      halve^[turns] message = message.take 1 := by
    induction turns with
    | zero =>
        intro message short
        exact (List.take_of_length_le short).symm
    | succ turns ih =>
        intro message short
        rw [Function.iterate_succ_apply, ih, take_one_halve]
        by_cases long : 1 < message.length
        · have shorter := length_halve_lt long
          omega
        · rw [halve, List.length_take]
          omega
  exact short _ message (Nat.le_succ _)

/-- **The loop ends** when the object fits as it is or with one character. -/
theorem halts_iff (grows : Grows build) {message : List Char} : Halts build message ↔
    encodedLength plainStyle (build message false) ≤ maxEntry ∨
      encodedLength plainStyle (build (message.take 1) true) ≤ maxEntry := by
  constructor
  · rintro ⟨turns, fits⟩
    cases turns with
    | zero => exact .inl fits
    | succ turns =>
        refine .inr (le_trans ?_ fits)
        rw [← take_one_iterate (turns + 1)]
        exact grows _ _ (List.take_prefix _ _)
  · rintro (fits | fits)
    · exact ⟨0, fits⟩
    · by_cases empty : message.length = 0
      · rw [List.length_eq_zero_iff] at empty
        subst empty
        exact ⟨1, fits⟩
      · refine ⟨message.length, ?_⟩
        rw [iterate_length, decide_eq_true (Nat.pos_of_ne_zero empty)]
        exact fits

/-- Enough fuel finds what the loop finds. -/
theorem shorten_truncated (grows : Grows build) {fuel : Nat} {message : List Char}
    (enough : message.length < fuel) :
    (shorten build fuel message true).isOk ↔
      encodedLength plainStyle (build (message.take 1) true) ≤ maxEntry := by
  induction fuel generalizing message with
  | zero => exact absurd enough (Nat.not_lt_zero _)
  | succ fuel ih =>
      rw [shorten]
      split
      next fits => exact iff_of_true rfl ((grows _ _ (List.take_prefix _ _)).trans fits)
      next large =>
        by_cases short : message.length ≤ 1
        · rw [decide_eq_true short, Bool.and_self, if_pos rfl, List.take_of_length_le short]
          exact iff_of_false Bool.false_ne_true large
        · have shorter := length_halve_lt (not_le.mp short)
          rw [decide_eq_false short, Bool.and_false, if_neg Bool.false_ne_true,
            ← take_one_halve message]
          exact ih (by omega : (halve message).length < fuel)

/-- **The fuelled loop returns when the loop ends.** -/
theorem shorten_isOk_iff (grows : Grows build) {message : List Char} :
    (shorten build (message.length + 2) message false).isOk ↔ Halts build message := by
  rw [halts_iff grows, shorten]
  split
  next fits => exact iff_of_true rfl (.inl fits)
  next large =>
    rw [Bool.false_and, if_neg Bool.false_ne_true, ← take_one_halve message]
    have shorter : (halve message).length < message.length + 1 := by
      rw [halve, List.length_take]
      omega
    exact (shorten_truncated grows shorter).trans (or_iff_right large).symm

end Loop

/-! ## The length of the object -/

section Sizes

/-- The length of a text as a JSON string. -/
def textLength (text : List Char) : Nat :=
  utf8Length (stringText plainStyle text)

/-- The length of the object without its message: punctuation, names and the rule
version take 113 bytes. -/
def frameLength (kind : Kind) (bootstrap : Bool) (observedAt : List Char)
    (source : Option (List Char)) : Nat :=
  113 + textLength kind.path.toList + (if bootstrap then 4 else 5) + textLength observedAt +
    source.elim 4 fun time => textLength (time ++ " JST".toList)

/-- The length of `, "truncated": true`. -/
def truncatedLength : Nat := 19

theorem textLength_append (first last : List Char) :
    textLength (first ++ last) + 2 = textLength first + textLength last := by
  have quote : '"'.utf8Size = 1 := by decide
  simp only [textLength, stringText, utf8Length_cons, utf8Length_append, utf8Length_nil,
    List.flatMap_append, List.cons_append]
  omega

theorem two_le_textLength (text : List Char) : 2 ≤ textLength text := by
  have quote : '"'.utf8Size = 1 := by decide
  simp only [textLength, stringText, utf8Length_cons, utf8Length_append, utf8Length_nil,
    List.cons_append]
  omega

theorem textLength_mono {short long : List Char} (part : short <+: long) :
    textLength short ≤ textLength long := by
  obtain ⟨rest, rfl⟩ := part
  have whole := textLength_append short rest
  have least := two_le_textLength rest
  omega

/-- Zeros are not escaped. -/
theorem textLength_zeros (count : Nat) : textLength (List.replicate count '0') = count + 2 := by
  induction count with
  | zero => rfl
  | succ count ih =>
      have whole := textLength_append ['0'] (List.replicate count '0')
      have one : textLength ['0'] = 3 := by decide
      rw [List.replicate_succ, ← List.singleton_append]
      omega

theorem encodedLength_entryJson (kind : Kind) (bootstrap : Bool) (observedAt : List Char)
    (source : Option (List Char)) (message : List Char) (truncated : Bool) :
    encodedLength plainStyle (entryJson kind bootstrap observedAt source message truncated) =
      textLength message + frameLength kind bootstrap observedAt source +
        if truncated then truncatedLength else 0 := by
  have keys : utf8Length (stringText plainStyle "message".toList) = 9 ∧
      utf8Length (stringText plainStyle "source_file".toList) = 13 ∧
      utf8Length (stringText plainStyle "bootstrap".toList) = 11 ∧
      utf8Length (stringText plainStyle "observed_at".toList) = 13 ∧
      utf8Length (stringText plainStyle "source_time".toList) = 13 ∧
      utf8Length (stringText plainStyle "filter_version".toList) = 16 ∧
      utf8Length (stringText plainStyle "truncated".toList) = 11 := by decide
  have marks : '\x7b'.utf8Size = 1 ∧ '\x7d'.utf8Size = 1 ∧
      utf8Length plainStyle.itemSeparator = 2 ∧ utf8Length plainStyle.keySeparator = 2 ∧
      utf8Length (dumps plainStyle (.bool true)) = 4 := by decide
  have text : utf8Length (dumps plainStyle (.str message)) = textLength message := rfl
  have path : utf8Length (dumps plainStyle (.text kind.path)) = textLength kind.path.toList := rfl
  have version : utf8Length (dumps plainStyle (.text ruleVersion)) = 14 := by decide
  have flag : utf8Length (dumps plainStyle (.bool bootstrap)) = if bootstrap then 4 else 5 := by
    cases bootstrap <;> decide
  have observed : utf8Length (dumps plainStyle (.str observedAt)) = textLength observedAt := rfl
  have time : utf8Length (dumps plainStyle
      ((source.map fun time => Json.str (time ++ " JST".toList)).getD .null)) =
      source.elim 4 fun time => textLength (time ++ " JST".toList) := by
    cases source with
    | none => decide
    | some time => rfl
  rw [encodedLength, entryJson, dumps, frameLength, truncatedLength]
  cases truncated with
  | false =>
      simp only [List.map_cons, List.map_nil, List.append_nil, dumpsFields, utf8Length_cons,
        utf8Length_append, utf8Length_nil, List.cons_append, Bool.false_eq_true, if_false]
      omega
  | true =>
      simp only [List.map_cons, List.map_nil, List.nil_append, dumpsFields, utf8Length_cons,
        utf8Length_append, utf8Length_nil, List.cons_append, if_true]
      omega

theorem entryJson_grows (kind : Kind) (bootstrap : Bool) (observedAt : List Char)
    (source : Option (List Char)) : Grows (entryJson kind bootstrap observedAt source) := by
  intro short long part
  have longer := textLength_mono part
  rw [encodedLength_entryJson, encodedLength_entryJson]
  omega

end Sizes

/-! ## Entries -/

section Entries

variable [UnicodeData]

/-- The object that the loop of `entry` shortens. -/
def entryObject (kind : Kind) (raw : List UInt8) (bootstrap : Bool) (observedAt : List Char) :
    List Char → Bool → Json :=
  entryJson kind bootstrap observedAt (sourceTime (recordText raw))

/-- The object fits as it is or with one character of its message. -/
def CanFit (kind : Kind) (raw : List UInt8) (bootstrap : Bool) (observedAt : List Char) : Prop :=
  let frame := frameLength kind bootstrap observedAt (sourceTime (recordText raw))
  textLength (recordText raw) + frame ≤ maxEntry ∨
    textLength ((recordText raw).take 1) + frame + truncatedLength ≤ maxEntry

theorem halts_entryObject_iff {kind : Kind} {raw : List UInt8} {bootstrap : Bool}
    {observedAt : List Char} :
    Halts (entryObject kind raw bootstrap observedAt) (recordText raw) ↔
      CanFit kind raw bootstrap observedAt := by
  rw [entryObject, halts_iff (entryJson_grows _ _ _ _), encodedLength_entryJson,
    encodedLength_entryJson]
  rfl

theorem entryAt_isOk_iff {kind : Kind} {raw : List UInt8} {bootstrap : Bool}
    {observedAt : List Char} :
    (entryAt kind raw bootstrap observedAt).isOk ↔
      Halts (entryObject kind raw bootstrap observedAt) (recordText raw) := by
  rw [entryObject, ← shorten_isOk_iff (entryJson_grows _ _ _ _), entryAt]
  dsimp only
  cases shorten _ _ (recordText raw) false with
  | error failure => rfl
  | ok result => rfl

/-- **When the loop of an entry ends.** At a time that has a calendar text the loop
ends, and then with a line of at most 16384 bytes, if and only if the object fits as
it is or with one character of its message. -/
theorem entry_bounded_iff {kind : Kind} {raw : List UInt8} {bootstrap : Bool} {nowNs : Nat}
    {observedAt : List Char} (format : isoFormat (seconds nowNs) = some observedAt) :
    (Halts (entryObject kind raw bootstrap observedAt) (recordText raw) ∧
      ∃ level line, entry kind raw bootstrap nowNs = .ok (level, line) ∧
        utf8Length line ≤ maxEntry) ↔
      CanFit kind raw bootstrap observedAt := by
  rw [halts_entryObject_iff]
  refine and_iff_left_of_imp fun fits => ?_
  have ends := entryAt_isOk_iff.mpr (halts_entryObject_iff.mpr fits)
  have same : entry kind raw bootstrap nowNs = entryAt kind raw bootstrap observedAt := by
    simp only [entry_eq, format, Option.elim_some]
  cases built : entryAt kind raw bootstrap observedAt with
  | error failure =>
      rw [built] at ends
      cases ends
  | ok result =>
      exact ⟨result.1, result.2, same.trans built, entry_line (same.trans built)⟩

end Entries

/-! ## An entry that is cut short, and one that cannot be -/

theorem isoFormat_zero : isoFormat (seconds 0) = some "1970-01-01T00:00:00+00:00".toList := by
  decide +kernel

theorem entry_bounded_iff_short :
    ∃ (_ : UnicodeData) (level : String) (line : List Char),
      entry .kernel (asciiBytes "<3>disk".toList) false 0 = .ok (level, line) ∧
        utf8Length line ≤ maxEntry := by
  have fits : @CanFit asciiData .kernel (asciiBytes "<3>disk".toList) false
      "1970-01-01T00:00:00+00:00".toList := by
    unfold CanFit
    decide +kernel
  exact ⟨asciiData, ((@entry_bounded_iff asciiData _ _ _ _ _ isoFormat_zero).mpr fits).2⟩

def dateText : List Char :=
  "2026-01-01 00:00:00".toList

/-- A date whose fraction has this many digits and one more. -/
def longDate (count : Nat) : List Char :=
  dateText ++ '.' :: '0' :: List.replicate count '0'

theorem longDate_ascii (count : Nat) : ∀ char ∈ longDate count, char.toNat < 128 := by
  have dated : dateText.all (·.toNat < 128) = true := by decide
  intro char member
  rw [longDate, ← List.replicate_succ] at member
  rcases List.mem_append.mp member with inDate | inFraction
  · exact of_decide_eq_true (List.all_eq_true.mp dated char inDate)
  · rcases List.mem_cons.mp inFraction with rfl | zero
    · decide
    · rw [(List.mem_replicate.mp zero).2]
      decide

theorem recordText_longDate (count : Nat) :
    recordText (asciiBytes (longDate (count + 1))) = longDate (count + 1) := by
  have last : longDate (count + 1) = longDate count ++ ['0'] := by
    simp only [longDate, List.replicate_succ', List.append_assoc, List.cons_append]
  rw [recordText, decodeUtf8_asciiBytes (longDate_ascii _), last]
  exact rstripWhile_concat (longDate count) (by decide)

/-- The pattern reads the date up to its fraction. -/
theorem timeStamp_dateText (rest : List Char) (next : Position Char → Option (Position Char)) :
    (@timeStamp asciiData (among "-/")).run ⟨[], dateText ++ rest, fun _ => none⟩ next =
      next ⟨dateText.reverse, rest, fun _ => none⟩ :=
  rfl

/-- The fraction is read to its end. -/
theorem sourceTime_longDate (count : Nat) :
    @sourceTime asciiData (longDate count) = some (longDate count) := by
  let _ : UnicodeData := asciiData
  have zeros : ∀ char ∈ '0' :: List.replicate count '0', Char.isDigit char = true := by
    intro char member
    rw [← List.replicate_succ] at member
    rw [(List.mem_replicate.mp member).2]
    decide
  have fraction : (seq (lit ".") digits).run
      ⟨dateText.reverse, '.' :: '0' :: List.replicate count '0', fun _ => none⟩ some =
        some ((Position.start (longDate count)).through (longDate count) []) := by
    have read := @run_plus_symbol_all Char _ Char.isDigit _ some _ '0' (List.replicate count '0')
      ('.' :: dateText.reverse) (fun _ => none) zeros rfl
    rw [Position.through, longDate, List.reverse_append, List.reverse_cons, List.append_assoc,
      List.append_assoc]
    exact read
  have found : (cat [timeStamp (among "-/"), optional (seq (lit ".") digits)]).run
      (Position.start (longDate count)) some =
        some ((Position.start (longDate count)).through (longDate count) []) := by
    rw [run_cat_pair, Position.start, longDate, timeStamp_dateText, run_optional, fraction]
    rfl
  have searched : (cat [timeStamp (among "-/"), optional (seq (lit ".") digits)]).search
      (longDate count) = some (Position.start (longDate count),
        (Position.start (longDate count)).through (longDate count) []) := by
    have begins : longDate count = '2' :: (longDate count).tail := rfl
    rw [search, begins, searchFrom, ← begins]
    rw [Position.start] at found ⊢
    rw [found]
    rfl
  rw [sourceTime, searchText, searched, Option.map_some, Position.readSince_through]

theorem length_longDate (count : Nat) : (longDate count).length = 21 + count := by
  have date : dateText.length = 19 := by decide
  rw [longDate, List.length_append, List.length_cons, List.length_cons, List.length_replicate,
    date]
  omega

/-- The object is too large as long as it has its date. -/
theorem longDate_cannotFit {count : Nat} (large : maxEntry ≤ count) (kind : Kind)
    (bootstrap : Bool) (observedAt : List Char) :
    ¬@CanFit asciiData kind (asciiBytes (longDate (count + 1))) bootstrap observedAt := by
  have time := textLength_append (longDate (count + 1)) " JST".toList
  have digits := textLength_append dateText ('.' :: '0' :: List.replicate (count + 1) '0')
  have zeros := textLength_append ['.'] (List.replicate (count + 1 + 1) '0')
  have date := two_le_textLength dateText
  have zone := two_le_textLength " JST".toList
  have point := two_le_textLength ['.']
  rw [textLength_zeros] at zeros
  have whole : count ≤ textLength (longDate (count + 1) ++ " JST".toList) := by
    rw [longDate] at time ⊢
    rw [List.replicate_succ, List.singleton_append] at zeros
    omega
  unfold CanFit
  rw [recordText_longDate, sourceTime_longDate]
  simp only [frameLength, Option.elim_some]
  omega

theorem entry_longDate {count : Nat} (large : maxEntry ≤ count) {kind : Kind} {bootstrap : Bool}
    {nowNs : Nat} {observedAt : List Char} (format : isoFormat (seconds nowNs) = some observedAt)
    (result : String × List Char) :
    @entry asciiData kind (asciiBytes (longDate (count + 1))) bootstrap nowNs ≠ .ok result := by
  let _ : UnicodeData := asciiData
  intro built
  have same : entry kind (asciiBytes (longDate (count + 1))) bootstrap nowNs =
      entryAt kind (asciiBytes (longDate (count + 1))) bootstrap observedAt := by
    simp only [entry_eq, format, Option.elim_some]
  rw [same] at built
  have ends := halts_entryObject_iff.mp (entryAt_isOk_iff.mp (by rw [built]; rfl))
  exact longDate_cannotFit large kind bootstrap observedAt ends

/-- The loop never ends for a record that may be read. -/
theorem entry_unbounded_longDate :
    ∃ (_ : UnicodeData) (raw : List UInt8) (observedAt : List Char),
      raw.length ≤ maxFile ∧ isoFormat (seconds 0) = some observedAt ∧
      ¬Halts (entryObject .storage raw false observedAt) (recordText raw) ∧
      ∀ result, entry .storage raw false 0 ≠ .ok result := by
  obtain ⟨count, large, small⟩ : ∃ count, maxEntry ≤ count ∧ 22 + count ≤ maxFile :=
    ⟨20000, by decide, by decide⟩
  let _ : UnicodeData := asciiData
  refine ⟨asciiData, asciiBytes (longDate (count + 1)), _, ?_, isoFormat_zero,
    mt halts_entryObject_iff.mp (longDate_cannotFit large _ _ _),
    entry_longDate large isoFormat_zero⟩
  rw [asciiBytes, List.length_map, length_longDate]
  omega

end HomeclusterInfra.NasLogs
