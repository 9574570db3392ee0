import Mathlib.Data.List.TakeWhile
import HomeclusterInfra.Library.Formats
import HomeclusterInfra.Library.Numerals
import HomeclusterInfra.NasLogs.Core

/-!
# The snapshot protocol

The NAS writes its log files to one stream: for every slot a header line, which
says that the file is missing or gives its numbers, and after it exactly as many
raw bytes as the header says. The collector reads the stream slot by slot. The
two programs list the slots independently of each other.

A text that is accepted is the stream of what is read from it, with leading
zeros allowed in the numbers. Since every slot delimits itself, file contents
that look like a header or like the end of the stream shift nothing, and no
proper beginning or continuation of a stream is accepted.
-/

set_option autoImplicit false

namespace HomeclusterInfra.NasLogs

open Text Checked Formats Numerals

/-! ## The parser -/

/-- `MAX_SNAPSHOT` -/
def maxSnapshot : Nat := 24 * 1024 * 1024 + 16384

def Gen.name : Gen → String
  | .current => "current"
  | .one => "1"
  | .two => "2"
  | .old => "old"

/-- A key of a snapshot. -/
abbrev Slot := Kind × Gen

/-- `SLOTS` -/
def slots : List Slot :=
  Kind.all.flatMap fun kind => kind.gens.map fun gen => (kind, gen)

/-- The bytes of an ASCII literal. -/
def word (text : String) : List UInt8 :=
  asciiBytes text.toList

/-- The space between two fields. -/
def blank : UInt8 := 32

/-- The first line of a stream. -/
def magic : List UInt8 :=
  word "NASLOG1\n"

/-- The last line of a stream. -/
def trailer : List UInt8 :=
  word "END\n"

/-- A line that ends within the next 256 bytes, and what follows it. -/
def readLine (data : List UInt8) : Option (List UInt8 × List UInt8) :=
  let line := data.takeWhile fun byte => byte ≠ lineFeed
  if line.length < data.length ∧ line.length < 256 then some (line, data.drop (line.length + 1))
  else none

/-- `[0-9]{1,18}` -/
def isNumeral (text : List UInt8) : Bool :=
  1 ≤ text.length && text.length ≤ 18 && text.all Numerals.isDigit

/-- The body of the loop of `parse_snapshot`: the record of a slot, and what
follows it. -/
def parseSlot (slot : Slot) (data : List UInt8) :
    Except Failure (Option LogFile × List UInt8) :=
  match readLine data with
  | none => .error (.valueError "truncated header")
  | some (header, rest) =>
      let fields := header.splitOn blank
      if fields = [word "M", word slot.1.name, word slot.2.name] then
        if slot.2 = .current then .error (.valueError "current file missing")
        else .ok (none, rest)
      else
        match fields with
        | [tag, kind, gen, dev, inode, size, mtime] =>
            if [tag, kind, gen] = [word "F", word slot.1.name, word slot.2.name] ∧
                [dev, inode, size, mtime].all isNumeral then
              if value size ≤ maxFile ∧ value size ≤ rest.length then
                .ok (some ⟨value dev, value inode, value mtime, rest.take (value size)⟩,
                  rest.drop (value size))
              else .error (.valueError "invalid file length")
            else .error (.valueError "invalid file header")
        | _ => .error (.valueError "invalid file header")

/-- `parse_snapshot`: the record of every slot in order. -/
def parseSnapshot (data : List UInt8) : Except Failure (List (Slot × Option LogFile)) := do
  check (data.length ≤ maxSnapshot && magic.isPrefixOf data) "invalid snapshot"
  let (records, rest) ← parseEach parseSlot slots (data.drop magic.length)
  check (rest = trailer) "incomplete or trailing snapshot"
  pure records

/-! ## Lines -/

/-- A line of fields. -/
def fieldLine (fields : List (List UInt8)) : List UInt8 :=
  [blank].intercalate fields ++ [lineFeed]

/-- A field holds no blank and no line feed. -/
def IsField (field : List UInt8) : Prop :=
  blank ∉ field ∧ lineFeed ∉ field

theorem isField_word_kind (kind : Kind) : IsField (word kind.name) := by
  cases kind <;> exact ⟨by decide, by decide⟩

theorem isField_word_gen (gen : Gen) : IsField (word gen.name) := by
  cases gen <;> exact ⟨by decide, by decide⟩

theorem isField_of_digits {text : List UInt8}
    (digits : ∀ byte ∈ text, Numerals.isDigit byte = true) : IsField text := by
  constructor
  · intro member
    exact absurd (digits blank member) (by decide)
  · intro member
    exact absurd (digits lineFeed member) (by decide)

theorem readLine_eq_some {data line rest : List UInt8} :
    readLine data = some (line, rest) ↔
      data = line ++ lineFeed :: rest ∧ lineFeed ∉ line ∧ line.length < 256 := by
  constructor
  · intro read
    simp only [readLine] at read
    split at read
    next bounds =>
        obtain ⟨rfl, rfl⟩ := Prod.mk.inj (Option.some.inj read)
        have free : lineFeed ∉ data.takeWhile fun byte => byte ≠ lineFeed := by
          intro member
          simpa using List.mem_takeWhile_imp member
        refine ⟨?_, free, bounds.2⟩
        have whole := @List.takeWhile_append_dropWhile _ (fun byte => decide (byte ≠ lineFeed)) data
        have first := @List.head?_dropWhile_not _ (fun byte => decide (byte ≠ lineFeed)) data
        cases remaining : data.dropWhile fun byte => byte ≠ lineFeed with
        | nil =>
            rw [remaining, List.append_nil] at whole
            have short := bounds.1
            rw [whole] at short
            exact absurd short (lt_irrefl _)
        | cons byte after =>
            simp only [remaining, List.head?_cons, decide_eq_false_iff_not, not_not] at first
            rw [remaining, first] at whole
            generalize (data.takeWhile fun byte => decide (byte ≠ lineFeed)) = line at whole
            rw [← whole]
            simp
    next => cases read
  · rintro ⟨rfl, free, short⟩
    have here : (line ++ lineFeed :: rest).takeWhile (fun byte => byte ≠ lineFeed) = line := by
      rw [List.takeWhile_append_of_pos]
      · simp
      · intro byte member
        simp only [decide_eq_true_eq]
        rintro rfl
        exact free member
    simp only [readLine, here]
    rw [if_pos ⟨by simp, short⟩]
    simp

/-- A line of fields reads back. -/
theorem readLine_fieldLine {fields : List (List UInt8)} (rest : List UInt8)
    (clean : ∀ field ∈ fields, IsField field) (short : ([blank].intercalate fields).length < 256) :
    readLine (fieldLine fields ++ rest) = some ([blank].intercalate fields, rest) := by
  refine readLine_eq_some.2 ⟨by simp [fieldLine], ?_, short⟩
  exact notMem_intercalate (by decide) fun field member => (clean field member).2

theorem splitOn_fields {fields : List (List UInt8)} (nonempty : fields ≠ [])
    (clean : ∀ field ∈ fields, IsField field) :
    ([blank].intercalate fields).splitOn blank = fields :=
  List.splitOn_intercalate blank (fun field member => (clean field member).1) nonempty

/-- What a read line says about the text. -/
theorem eq_fieldLine {data header rest : List UInt8} (read : readLine data = some (header, rest)) :
    data = fieldLine (header.splitOn blank) ++ rest := by
  obtain ⟨whole, -, -⟩ := readLine_eq_some.1 read
  rw [whole, fieldLine, List.intercalate_splitOn]
  simp

/-! ## The format of a slot -/

/-- A numeral of at most 18 digits: the printed one with leading zeros. -/
def NumeralOf (n : Nat) (text : List UInt8) : Prop :=
  text.length ≤ 18 ∧ ∃ zeros, text = List.replicate zeros 48 ++ printed n

theorem isNumeral_iff {text : List UInt8} : isNumeral text = true ↔ NumeralOf (value text) text := by
  simp only [isNumeral, Bool.and_eq_true, decide_eq_true_eq, List.all_eq_true]
  constructor
  · rintro ⟨⟨positive, short⟩, digits⟩
    exact ⟨short, eq_zeros_append_printed (List.ne_nil_of_length_pos positive) digits⟩
  · rintro ⟨short, zeros, shape⟩
    refine ⟨⟨?_, short⟩, ?_⟩
    · have positive := length_printed_pos (value text)
      rw [shape, List.length_append]
      omega
    · intro byte member
      rw [shape] at member
      rcases List.mem_append.1 member with zero | digit
      · rw [List.eq_of_mem_replicate zero]
        rfl
      · exact printed_isDigit _ byte digit

theorem NumeralOf.value_eq {n : Nat} {text : List UInt8} (numeral : NumeralOf n text) :
    value text = n := by
  obtain ⟨-, zeros, rfl⟩ := numeral
  rw [value_zeros_append, value_printed]

theorem NumeralOf.isNumeral {n : Nat} {text : List UInt8} (numeral : NumeralOf n text) :
    NasLogs.isNumeral text = true :=
  isNumeral_iff.2 (numeral.value_eq.symm ▸ numeral)

theorem NumeralOf.isField {n : Nat} {text : List UInt8} (numeral : NumeralOf n text) :
    IsField text := by
  have digits := numeral.isNumeral
  simp only [NasLogs.isNumeral, Bool.and_eq_true, List.all_eq_true] at digits
  exact isField_of_digits digits.2

theorem numeralOf_printed {n : Nat} (small : n < 10 ^ 18) : NumeralOf n (printed n) :=
  ⟨(length_printed_le_iff (by decide)).2 small, 0, by simp⟩

/-- The fields of a slot whose file is missing. -/
def missingFields (slot : Slot) : List (List UInt8) :=
  [word "M", word slot.1.name, word slot.2.name]

/-- The fields of a slot whose file follows. -/
def fileFields (slot : Slot) (dev inode size mtime : List UInt8) : List (List UInt8) :=
  [word "F", word slot.1.name, word slot.2.name, dev, inode, size, mtime]

/-- The texts that stand for the record of a slot. They differ in the leading
zeros of the numbers. -/
inductive Encodes (slot : Slot) : Option LogFile → List UInt8 → Prop where
  | missing (rotated : slot.2 ≠ .current) : Encodes slot none (fieldLine (missingFields slot))
  | file (file : LogFile) {dev inode size mtime : List UInt8} (ofDev : NumeralOf file.dev dev)
      (ofInode : NumeralOf file.inode inode) (ofSize : NumeralOf file.data.length size)
      (ofMtime : NumeralOf file.mtime mtime) (fits : file.data.length ≤ maxFile) :
      Encodes slot (some file) (fieldLine (fileFields slot dev inode size mtime) ++ file.data)

section Slot

variable {slot : Slot}

theorem length_word_kind (kind : Kind) : (word kind.name).length ≤ 12 := by
  cases kind <;> decide

theorem length_word_gen (gen : Gen) : (word gen.name).length ≤ 7 := by
  cases gen <;> decide

theorem clean_missingFields : ∀ field ∈ missingFields slot, IsField field := by
  simp only [missingFields, List.forall_mem_cons]
  exact ⟨⟨by decide, by decide⟩, isField_word_kind _, isField_word_gen _, by simp⟩

theorem short_missingFields : ([blank].intercalate (missingFields slot)).length < 256 := by
  have kind := length_word_kind slot.1
  have gen := length_word_gen slot.2
  have tag : (word "M").length = 1 := rfl
  simp only [missingFields, List.intercalate_cons_cons, List.intercalate_singleton,
    List.length_append, List.length_singleton]
  omega

variable {dev inode size mtime : List UInt8} {file : LogFile}

theorem clean_fileFields (ofDev : NumeralOf file.dev dev) (ofInode : NumeralOf file.inode inode)
    (ofSize : NumeralOf file.data.length size) (ofMtime : NumeralOf file.mtime mtime) :
    ∀ field ∈ fileFields slot dev inode size mtime, IsField field := by
  simp only [fileFields, List.forall_mem_cons]
  exact ⟨⟨by decide, by decide⟩, isField_word_kind _, isField_word_gen _, ofDev.isField,
    ofInode.isField, ofSize.isField, ofMtime.isField, by simp⟩

theorem short_fileFields (ofDev : NumeralOf file.dev dev) (ofInode : NumeralOf file.inode inode)
    (ofSize : NumeralOf file.data.length size) (ofMtime : NumeralOf file.mtime mtime) :
    ([blank].intercalate (fileFields slot dev inode size mtime)).length < 255 := by
  have kind := length_word_kind slot.1
  have gen := length_word_gen slot.2
  have tag : (word "F").length = 1 := rfl
  have numbers := And.intro ofDev.1 (And.intro ofInode.1 (And.intro ofSize.1 ofMtime.1))
  simp only [fileFields, List.intercalate_cons_cons, List.intercalate_singleton,
    List.length_append, List.length_singleton]
  omega

theorem parseSlot_encodes {record : Option LogFile} {text : List UInt8}
    (encodes : Encodes slot record text) (rest : List UInt8) :
    parseSlot slot (text ++ rest) = .ok (record, rest) := by
  cases encodes with
  | missing rotated =>
      rw [parseSlot, readLine_fieldLine rest clean_missingFields short_missingFields]
      simp only [splitOn_fields (by simp [missingFields]) clean_missingFields]
      have same : missingFields slot = [word "M", word slot.1.name, word slot.2.name] := rfl
      rw [if_pos same, if_neg rotated]
  | file file ofDev ofInode ofSize ofMtime fits =>
      have clean := @clean_fileFields slot _ _ _ _ _ ofDev ofInode ofSize ofMtime
      have short := @short_fileFields slot _ _ _ _ _ ofDev ofInode ofSize ofMtime
      rw [parseSlot, List.append_assoc, readLine_fieldLine _ clean (by omega)]
      simp only [splitOn_fields (by simp [fileFields]) clean]
      rw [if_neg (by simp [fileFields])]
      simp only [fileFields]
      rw [if_pos ⟨trivial, by simp [ofDev.isNumeral, ofInode.isNumeral, ofSize.isNumeral,
        ofMtime.isNumeral]⟩]
      simp only [ofDev.value_eq, ofInode.value_eq, ofSize.value_eq, ofMtime.value_eq]
      rw [if_pos ⟨fits, by simp⟩]
      simp

theorem encodes_of_parseSlot {data rest : List UInt8} {record : Option LogFile}
    (parsed : parseSlot slot data = .ok (record, rest)) :
    ∃ text, Encodes slot record text ∧ data = text ++ rest := by
  unfold parseSlot at parsed
  split at parsed
  · cases parsed
  next header after read =>
      have whole := eq_fieldLine read
      simp only at parsed
      split at parsed
      next missing =>
          split at parsed
          · cases parsed
          next rotated =>
              obtain ⟨rfl, rfl⟩ := Prod.mk.inj (Except.ok.inj parsed)
              exact ⟨_, .missing rotated, by rw [whole, missing]; rfl⟩
      next =>
          split at parsed
          next tag kind gen dev inode size mtime fields =>
              split at parsed
              next good =>
                  split at parsed
                  next fits =>
                      obtain ⟨rfl, rfl⟩ := Prod.mk.inj (Except.ok.inj parsed)
                      obtain ⟨names, numerals⟩ := good
                      simp only [List.cons.injEq, and_true] at names
                      obtain ⟨rfl, rfl, rfl⟩ := names
                      simp only [List.all_cons, List.all_nil, Bool.and_true, Bool.and_eq_true,
                        isNumeral_iff] at numerals
                      obtain ⟨ofDev, ofInode, ofSize, ofMtime⟩ := numerals
                      have length : (after.take (value size)).length = value size := by
                        rw [List.length_take, Nat.min_eq_left fits.2]
                      refine ⟨_, .file ⟨value dev, value inode, value mtime, _⟩ ofDev ofInode
                        (by rwa [length]) ofMtime (by rw [length]; exact fits.1), ?_⟩
                      rw [whole, fields, List.append_assoc, List.take_append_drop]
                      rfl
                  next => cases parsed
              next => cases parsed
          next => cases parsed

end Slot

/-- **A slot is read exactly.** -/
theorem parseSlot_reads (slot : Slot) : Reads (parseSlot slot) (Encodes slot) := by
  intro data record rest
  constructor
  · exact encodes_of_parseSlot
  · rintro ⟨text, encodes, rfl⟩
    exact parseSlot_encodes encodes rest

/-! ## The format of a stream -/

/-- **A stream is accepted exactly when it is one.** -/
theorem parseSnapshot_eq_ok {data : List UInt8} {records : List (Slot × Option LogFile)} :
    parseSnapshot data = .ok records ↔
      data.length ≤ maxSnapshot ∧ records.map Prod.fst = slots ∧
        ∃ body, EncodesEach Encodes records body ∧ data = magic ++ body ++ trailer := by
  simp only [parseSnapshot, check, bind_eq_ok, require_eq_ok, pure_eq_ok, exists_const,
    Bool.and_eq_true, decide_eq_true_eq, List.isPrefixOf_iff_prefix]
  constructor
  · rintro ⟨⟨small, begins⟩, ⟨found, rest⟩, parsed, same, rfl⟩
    simp only at same
    subst same
    obtain ⟨after, rfl⟩ := begins
    rw [List.drop_left] at parsed
    obtain ⟨body, ⟨keys, encodes⟩, rfl⟩ := (parseEach_reads parseSlot_reads slots _ _ _).1 parsed
    exact ⟨small, keys, body, encodes, (List.append_assoc _ _ _).symm⟩
  · rintro ⟨small, keys, body, encodes, rfl⟩
    refine ⟨⟨small, by rw [List.append_assoc]; exact List.prefix_append _ _⟩, (records, trailer), ?_,
      rfl, rfl⟩
    rw [List.append_assoc, List.drop_left]
    exact (parseEach_reads parseSlot_reads slots _ _ _).2 ⟨body, ⟨keys, encodes⟩, rfl⟩

/-- Of two accepted texts neither goes on behind the other. -/
theorem eq_nil_of_accepted {data more : List UInt8} {records others : List (Slot × Option LogFile)}
    (accepted : parseSnapshot data = .ok records)
    (longer : parseSnapshot (data ++ more) = .ok others) : more = [] := by
  obtain ⟨-, keys, body, encodes, rfl⟩ := parseSnapshot_eq_ok.1 accepted
  obtain ⟨-, otherKeys, otherBody, otherEncodes, same⟩ := parseSnapshot_eq_ok.1 longer
  rw [List.append_assoc, List.append_assoc, List.append_assoc, List.append_cancel_left_eq] at same
  have one := (parseEach_reads parseSlot_reads slots (body ++ (trailer ++ more)) records
    (trailer ++ more)).2 ⟨body, ⟨keys, encodes⟩, rfl⟩
  have two := (parseEach_reads parseSlot_reads slots (body ++ (trailer ++ more)) others
    trailer).2 ⟨otherBody, ⟨otherKeys, otherEncodes⟩, same⟩
  have rest : trailer ++ more = trailer :=
    (Prod.mk.inj (Except.ok.inj (one.symm.trans two))).2
  simpa using rest

end HomeclusterInfra.NasLogs
