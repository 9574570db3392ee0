import HomeclusterInfra.Library.Calendar
import HomeclusterInfra.Library.Checked
import HomeclusterInfra.Library.Lines
import HomeclusterInfra.Library.RegexReads
import HomeclusterInfra.NasSmart.Collector

/-!
# The text of a SMART snapshot

The appliance prints a header line, for each bay a line with the identity of its
disk, the attribute rows, and `END_BAY`, and at last `END`. The parser reads the
bays in any order with their rows in any order, and takes a document only as a
whole.
-/

set_option autoImplicit false

namespace HomeclusterInfra.NasSmart

open Text Regex Regex.Rx Checked

/-! ## The parser -/

/-- `MAX_BYTES` -/
def maxBytes : Nat :=
  65536

/-- `REQUIRED` -/
def required : List Nat :=
  Attribute.all.map Attribute.code ++ [194]

/-- `[A-Za-z0-9_-]` -/
def isNameChar (char : Char) : Bool :=
  char.isAlphanum || char = '_' || char = '-'

/-- `[A-Za-z_-]` -/
def isStatusChar (char : Char) : Bool :=
  char.isAlpha || char = '_' || char = '-'

/-- `\s+` -/
def gap : Rx Char :=
  plus (symbol isSpace)

/-- `[0-9]+`, in a group. -/
def number (index : Nat) : Rx Char :=
  group index (plus (symbol Char.isDigit))

/-- `ROW` -/
def rowPattern : Rx Char :=
  cat [group 1 (exactly 3 (symbol Char.isDigit)), gap, plus (symbol isNameChar), gap, number 2, gap,
    number 3, gap, number 4, gap, number 5, gap, group 6 (plus (symbol isStatusChar))]

/-- `int` of a decimal numeral, which may have 4300 digits. -/
def readInt (digits : List Char) : Except String Nat :=
  if digits.length ≤ 4300 then .ok (digitsValue digits)
  else .error "Exceeds the limit for integer string conversion"

/-- The attributes that were read of a disk. -/
abbrev Attributes := List (Nat × Nat)

/-- One turn of the loop over the rows of a disk. -/
def readRow (line : List Char) (attrs : Attributes) (healthy : Bool) :
    Except String (Attributes × Bool) :=
  match rowPattern.fullmatch (strip line) with
  | none => .error "invalid SMART attribute"
  | some row => do
      let ident ← readInt (row.captured 1)
      let raw ← readInt (row.captured 2)
      let value ← readInt (row.captured 3)
      let worst ← readInt (row.captured 4)
      let threshold ← readInt (row.captured 5)
      require (1 ≤ ident && ident ≤ 255 && !(attrs.lookup ident).isSome &&
        raw ≤ maxInteger && [value, worst, threshold].all fun x => x ≤ 255)
        "invalid SMART numeric value"
      return (attrs ++ [(ident, raw)],
        healthy && (row.captured 6 == "OK".toList && (threshold == 0 || value > threshold)))

/-- The loop over the rows of a disk, and the lines from `END_BAY` on. -/
def readRows : List (List Char) → Attributes → Bool →
    Except String ((Attributes × Bool) × List (List Char))
  | [], attrs, healthy => .ok ((attrs, healthy), [])
  | line :: lines, attrs, healthy =>
      if line = "END_BAY".toList then .ok ((attrs, healthy), line :: lines)
      else do
        let (attrs, healthy) ← readRow line attrs healthy
        readRows lines attrs healthy

theorem readRows_length {lines rest : List (List Char)} {attrs : Attributes} {healthy : Bool}
    {result : Attributes × Bool} (read : readRows lines attrs healthy = .ok (result, rest)) :
    rest.length ≤ lines.length := by
  induction lines generalizing attrs healthy with
  | nil =>
      cases read
      exact Nat.le_refl _
  | cons line lines ih =>
      rw [readRows] at read
      split at read
      · cases read
        exact Nat.le_refl _
      · obtain ⟨row, -, read⟩ := bind_eq_ok.mp read
        exact Nat.le_succ_of_le (ih read)

/-- The bay of a name. -/
def Bay.ofName (name : List Char) : Option Bay :=
  Bay.all.find? fun bay => bay.name.toList = name

/-- The header of a disk. -/
def readBay (line : List Char) : Except String (Bay × String) :=
  match words line with
  | [mark, name, digest] =>
      match Bay.ofName name with
      | some bay =>
          if mark = "BAY".toList && isHex64 (String.ofList digest) then
            .ok (bay, String.ofList digest)
          else .error "invalid SMART bay"
      | none => .error "invalid SMART bay"
  | _ => .error "invalid SMART bay"

/-- The disks that were read, in order. -/
abbrev Disks := List (Bay × Reading)

/-- What is read of a disk with these attributes. -/
def readingOf (diskId : String) (attrs : Attributes) (healthy : Bool) : Reading where
  diskId := diskId
  healthy := healthy
  temperature := (attrs.lookup 194).getD 0
  raw fault := (attrs.lookup fault.code).getD 0

/-- The loop over the bays. -/
def readBays (lines : List (List Char)) (disks : Disks) : Except String Disks :=
  match lines with
  | [] => .ok disks
  | line :: lines =>
      match readBay line with
      | .error problem => .error problem
      | .ok (bay, diskId) =>
          if (disks.lookup bay).isSome then .error "invalid SMART bay"
          else
            match _rows : readRows lines [] true with
            | .error problem => .error problem
            | .ok (_, []) => .error "missing SMART attributes"
            | .ok ((attrs, healthy), _ :: rest) =>
                if required.all fun code => (attrs.lookup code).isSome then
                  if (attrs.lookup 194).getD 0 ≤ 150 then
                    readBays rest (disks ++ [(bay, readingOf diskId attrs healthy)])
                  else .error "invalid disk temperature"
                else .error "missing SMART attributes"
termination_by lines.length
decreasing_by
  have shorter := readRows_length _rows
  simp only [List.length_cons] at shorter ⊢
  omega

/-- The lines between the header and `END`. -/
def readDocument : List (List Char) → Except String Disks
  | [] => .error "incomplete SMART snapshot"
  | header :: lines =>
      if header = "NAS_SMART_1".toList && lines.getLast? = some "END".toList then do
        let disks ← readBays lines.dropLast []
        require ((Bay.all.all fun bay => (disks.lookup bay).isSome) &&
          (disks.map fun disk => disk.2.diskId).dedup.length = 4)
          "missing or duplicate disk identity"
        return disks
      else .error "incomplete SMART snapshot"

/-- `parse_snapshot` -/
def parseSnapshot (data : List UInt8) : Except String Disks :=
  if data.length > maxBytes then .error "invalid SMART snapshot size"
  else if data.all (· < 128) then
    readDocument (splitlines (data.map fun byte => Char.ofNat byte.toNat))
  else .error "ascii"

end HomeclusterInfra.NasSmart
