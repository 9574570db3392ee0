import Mathlib.Data.List.Basic

/-!
# A log kept in segments

A log that only grows is written into segments: the newest takes what is
appended, now and then a new empty one is begun, and the oldest are lost. As
long as nothing else happens, the segments that remain hold the log from the
start of the first to its end, and reading them from an offset in one of them
gives the log from the corresponding position on.
-/

set_option autoImplicit false

namespace HomeclusterInfra.SegmentedLog

variable {α : Type}

/-- A part of a log, and where in the log it begins. -/
structure Segment (α : Type) where
  start : Nat
  data : List α

/-- The contents of segments put together. -/
def contents (segments : List (Segment α)) : List α :=
  (segments.map Segment.data).flatten

/-- The segments, the oldest first, hold the log from each one's start to its end. -/
def Covers (log : List α) : List (Segment α) → Prop
  | [] => True
  | segment :: newer =>
      segment.start ≤ log.length ∧ log.drop segment.start = segment.data ++ contents newer ∧
        Covers log newer

/-- What stands in a log between two positions. -/
def between (log : List α) (first last : Nat) : List α :=
  (log.take last).drop first

@[simp] theorem contents_nil : contents ([] : List (Segment α)) = [] :=
  rfl

@[simp] theorem contents_cons (segment : Segment α) (segments : List (Segment α)) :
    contents (segment :: segments) = segment.data ++ contents segments :=
  rfl

@[simp] theorem contents_append (first second : List (Segment α)) :
    contents (first ++ second) = contents first ++ contents second := by
  simp [contents]

/-! ## What happens to the segments -/

/-- Losing the oldest segments. -/
theorem Covers.drop {log : List α} {older newer : List (Segment α)}
    (covers : Covers log (older ++ newer)) : Covers log newer := by
  induction older with
  | nil => exact covers
  | cons segment older ih => exact ih covers.2.2

/-- Appending to the newest segment. -/
theorem Covers.append {log : List α} {older : List (Segment α)} {newest : Segment α}
    (covers : Covers log (older ++ [newest])) (more : List α) :
    Covers (log ++ more) (older ++ [⟨newest.start, newest.data ++ more⟩]) := by
  induction older with
  | nil =>
      obtain ⟨inside, data, -⟩ := covers
      refine ⟨?_, ?_, trivial⟩
      · simpa using Nat.le_add_right_of_le inside
      · rw [List.drop_append_of_le_length inside, data]
        simp
  | cons segment older ih =>
      obtain ⟨inside, data, newer⟩ := covers
      refine ⟨?_, ?_, ih newer⟩
      · simpa using Nat.le_add_right_of_le inside
      · rw [List.drop_append_of_le_length inside, data]
        simp

/-- Beginning a new segment. -/
theorem Covers.begin {log : List α} {segments : List (Segment α)} (covers : Covers log segments) :
    Covers log (segments ++ [⟨log.length, []⟩]) := by
  induction segments with
  | nil => exact ⟨Nat.le_refl _, by simp, trivial⟩
  | cons segment segments ih =>
      obtain ⟨inside, data, newer⟩ := covers
      refine ⟨inside, ?_, ih newer⟩
      rw [data]
      simp

/-! ## Reading the segments -/

section Reading

variable {log : List α} {segment : Segment α} {older newer : List (Segment α)}

/-- A segment holds the log from its start on. -/
theorem Covers.drop_start (covers : Covers log (older ++ segment :: newer)) :
    log.drop segment.start = segment.data ++ contents newer :=
  covers.drop.2.1

theorem Covers.start_le (covers : Covers log (older ++ segment :: newer)) :
    segment.start ≤ log.length :=
  covers.drop.1

/-- **Reading from an offset in a segment is reading the log from there on.** -/
theorem Covers.drop_offset (covers : Covers log (older ++ segment :: newer)) {offset : Nat}
    (inside : offset ≤ segment.data.length) :
    log.drop (segment.start + offset) = segment.data.drop offset ++ contents newer := by
  rw [← List.drop_drop, covers.drop_start, List.drop_append_of_le_length inside]

/-- A position in a segment is a position of the log. -/
theorem Covers.offset_le (covers : Covers log (older ++ segment :: newer)) {offset : Nat}
    (inside : offset ≤ segment.data.length) : segment.start + offset ≤ log.length := by
  have whole := congrArg List.length covers.drop_start
  have start := covers.start_le
  rw [List.length_drop, List.length_append] at whole
  omega

end Reading

/-! ## Stretches of a log -/

theorem length_between {log : List α} {first last : Nat} (inside : last ≤ log.length) :
    (between log first last).length = last - first := by
  rw [between, List.length_drop, List.length_take, Nat.min_eq_left inside]

/-- What was read and what remains tell where the reading began and ended. -/
theorem eq_between_of_append_drop {log text : List α} {first last : Nat}
    (whole : text ++ log.drop last = log.drop first) (firstInside : first ≤ log.length)
    (lastInside : last ≤ log.length) : first ≤ last ∧ text = between log first last := by
  have lengths := congrArg List.length whole
  rw [List.length_append, List.length_drop, List.length_drop] at lengths
  refine ⟨by omega, ?_⟩
  have length : text.length = last - first := by omega
  rw [between, List.drop_take, ← whole, ← length, List.take_left]

/-- Stretches with one end agree only when they begin at one place. -/
theorem between_left_injective {log : List α} {first second last : Nat}
    (inside : last ≤ log.length) (firstBefore : first ≤ last) (secondBefore : second ≤ last) :
    between log first last = between log second last ↔ first = second := by
  constructor
  · intro same
    have lengths := congrArg List.length same
    rw [length_between inside, length_between inside] at lengths
    omega
  · intro same
    rw [same]

end HomeclusterInfra.SegmentedLog
