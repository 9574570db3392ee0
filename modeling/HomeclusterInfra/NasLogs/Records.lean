import HomeclusterInfra.Library.Pieces
import HomeclusterInfra.NasLogs.Core

/-!
# Records are cut from the log without a hole

Lines are consecutive pieces of the file from the offset on, and grouping lines
under their headers joins neighbours. So the records of a file are consecutive
pieces of it as well, and those of a rotated file are all of it.
-/

set_option autoImplicit false

namespace HomeclusterInfra.NasLogs

open Pieces

/-! ## Lines -/

theorem consecutive_terminatedLines (position : Nat) (parts : List (List UInt8)) :
    Consecutive position (terminatedLines position parts) := by
  induction parts generalizing position with
  | nil => trivial
  | cons part parts ih => exact ⟨rfl, ih _⟩

theorem text_terminatedLines (position : Nat) (parts : List (List UInt8)) :
    text (terminatedLines position parts) = (parts.map (· ++ [lineFeed])).flatten := by
  induction parts generalizing position with
  | nil => rfl
  | cons part parts ih =>
      simp only [terminatedLines, text_cons, List.map_cons, List.flatten_cons]
      rw [ih]

variable (data : List UInt8) (offset : Nat)

/-- The line feed terminated lines after an offset. -/
def wholeLines : Cutting UInt8 :=
  terminatedLines offset ((data.drop offset).splitOn lineFeed).dropLast

theorem reads_wholeLines : Reads data offset (wholeLines data offset) := by
  refine ⟨consecutive_terminatedLines _ _, ?_⟩
  have parts := flatten_terminated lineFeed (data.drop offset)
  rw [wholeLines, text_terminatedLines]
  exact ⟨_, parts⟩

theorem linesAfter_eq (rotated : Bool) :
    linesAfter data offset rotated =
      if rotated && stopAfter offset (wholeLines data offset) < data.length then
        wholeLines data offset ++
          [(data.drop (stopAfter offset (wholeLines data offset)), data.length)]
      else wholeLines data offset := by
  have position : offset + ((wholeLines data offset).map fun line => line.1.length).sum =
      stopAfter offset (wholeLines data offset) := by
    rw [(reads_wholeLines data offset).consecutive.stopAfter_eq, text, List.length_flatten,
      List.map_map]
    rfl
  simp only [linesAfter]
  rw [← position]
  rfl

theorem reads_linesAfter (rotated : Bool) :
    Reads data offset (linesAfter data offset rotated) := by
  have whole := reads_wholeLines data offset
  rw [linesAfter_eq]
  split
  case isFalse => exact whole
  case isTrue more =>
      simp only [Bool.and_eq_true, decide_eq_true_eq] at more
      refine ⟨consecutive_append.2 ⟨whole.consecutive, ?_, trivial⟩, ?_⟩
      · simp only [List.length_drop]
        omega
      · rw [text_append, text_cons, text_nil, List.append_nil]
        exact whole.text_append_drop.symm ▸ List.prefix_refl _

/-- The lines of a rotated file are all that follows the offset. -/
theorem text_linesAfter_rotated : text (linesAfter data offset true) = data.drop offset := by
  have whole := reads_wholeLines data offset
  rw [linesAfter_eq]
  split
  case isFalse less =>
      simp only [Bool.true_and, decide_eq_true_eq, Nat.not_lt] at less
      have rest := whole.text_append_drop
      rwa [List.drop_eq_nil_of_le less, List.append_nil] at rest
  case isTrue more =>
      rw [text_append, text_cons, text_nil, List.append_nil, whole.text_append_drop]

/-! ## Groups -/

/-- The groups in the order of the file. -/
def groupPieces (groups : List Group) : Cutting UInt8 :=
  groups.reverse.map fun group => (group.raw, group.stop)

theorem groupPieces_cons (group : Group) (groups : List Group) :
    groupPieces (group :: groups) = groupPieces groups ++ [(group.raw, group.stop)] := by
  simp [groupPieces]

/-- A line either begins a group or is joined to the last one. -/
theorem groupPieces_addLine (kind : Kind) (groups : List Group) (line : List UInt8 × Nat) :
    groupPieces (addLine kind groups line) = groupPieces groups ++ [line] ∨
      ∃ last earlier, groups = last :: earlier ∧
        groupPieces (addLine kind groups line) =
          groupPieces earlier ++ [(last.raw ++ line.1, line.2)] := by
  unfold addLine
  split
  next last earlier _ _ => exact .inr ⟨last, earlier, rfl, groupPieces_cons _ _⟩
  next => exact .inl (groupPieces_cons _ _)

/-- Adding lines keeps the groups consecutive and adds the text of the lines. -/
theorem addLines (kind : Kind) {start : Nat} (lines : Cutting UInt8) (groups : List Group)
    (consecutive : Consecutive start (groupPieces groups ++ lines)) :
    Consecutive start (groupPieces (lines.foldl (addLine kind) groups)) ∧
      text (groupPieces (lines.foldl (addLine kind) groups)) =
        text (groupPieces groups) ++ text lines := by
  induction lines generalizing groups with
  | nil => simpa using consecutive
  | cons line lines ih =>
      rcases groupPieces_addLine kind groups line with begun | ⟨last, earlier, same, joined⟩
      · have next : Consecutive start (groupPieces (addLine kind groups line) ++ lines) := by
          rw [begun, List.append_assoc]
          exact consecutive
        obtain ⟨kept, whole⟩ := ih _ next
        refine ⟨kept, ?_⟩
        rw [List.foldl_cons, whole, begun]
        simp
      · subst same
        have next : Consecutive start (groupPieces (addLine kind (last :: earlier) line) ++
            lines) := by
          rw [joined, List.append_assoc]
          rw [groupPieces_cons, List.append_assoc] at consecutive
          exact consecutive.join
        obtain ⟨kept, whole⟩ := ih _ next
        refine ⟨kept, ?_⟩
        rw [List.foldl_cons, whole, joined, groupPieces_cons]
        simp

/-- Only the last group may have to wait. -/
theorem dropLoneHeader_suffix (waits : Bool) (groups : List Group) :
    ∃ dropped, groupPieces groups = groupPieces (dropLoneHeader waits groups) ++ dropped := by
  cases groups with
  | nil => exact ⟨[], rfl⟩
  | cons last earlier =>
      rw [dropLoneHeader]
      split
      · exact ⟨_, groupPieces_cons last earlier⟩
      · exact ⟨[], (List.append_nil _).symm⟩

theorem dropLoneHeader_false (groups : List Group) : dropLoneHeader false groups = groups := by
  cases groups <;> simp [dropLoneHeader]

/-! ## Records -/

variable (kind : Kind) (seenSize : Int)

/-- **The records of a file are consecutive pieces of it from the offset on.** -/
theorem reads_completedRecords (rotated : Bool) :
    Reads data offset (completedRecords data offset kind seenSize rotated) := by
  have lines := reads_linesAfter data offset rotated
  obtain ⟨consecutive, whole⟩ := addLines kind (linesAfter data offset rotated) [] lines.consecutive
  obtain ⟨dropped, split⟩ := dropLoneHeader_suffix (!rotated && seenSize ≠ data.length)
    ((linesAfter data offset rotated).foldl (addLine kind) [])
  have grouped : Reads data offset
      (groupPieces ((linesAfter data offset rotated).foldl (addLine kind) [])) := by
    refine ⟨consecutive, ?_⟩
    rw [whole]
    exact lines.beginning
  rw [split] at grouped
  exact grouped.dropLast

/-- **The records of a rotated file are all that follows the offset.** -/
theorem text_completedRecords_rotated :
    text (completedRecords data offset kind seenSize true) = data.drop offset := by
  have lines := reads_linesAfter data offset true
  obtain ⟨-, whole⟩ := addLines kind (linesAfter data offset true) [] lines.consecutive
  calc text (completedRecords data offset kind seenSize true)
      = text (groupPieces ((linesAfter data offset true).foldl (addLine kind) [])) := by
        simp only [completedRecords, Bool.not_true, Bool.false_and, dropLoneHeader_false]
        rfl
    _ = text (linesAfter data offset true) := whole
    _ = data.drop offset := text_linesAfter_rotated data offset

end HomeclusterInfra.NasLogs
