import HomeclusterInfra.Library.Lines
import HomeclusterInfra.Library.Shell

/-!
# Texts as `awk` reads them

A text is read as records, one for each line, and what follows the last newline is a
record only where something is there. Printed lines are read back as they were. Where
a shell captures them first and prints what it captured, the empty lines at the end are
lost, and no others.
-/

set_option autoImplicit false

namespace HomeclusterInfra.Awk

open Text Shell

/-- The records of a text. -/
def records (text : List Char) : List (List Char) :=
  if (text.splitOn '\n').getLast? = some [] then (text.splitOn '\n').dropLast
  else text.splitOn '\n'

theorem splitOn_unlines {lines : List (List Char)} (single : ∀ line ∈ lines, '\n' ∉ line)
    (rest : List Char) :
    (unlines lines ++ rest).splitOn '\n' = lines ++ rest.splitOn '\n' := by
  induction lines with
  | nil => rfl
  | cons line lines ih =>
      rw [List.forall_mem_cons] at single
      have front : unlines (line :: lines) ++ rest = line ++ '\n' :: (unlines lines ++ rest) := by
        rw [unlines, List.flatMap_cons, List.append_assoc, List.append_assoc]
        rfl
      rw [front, List.splitOn_append_cons_self_of_not_mem single.1, ih single.2]
      rfl

/-- **Printed lines are read back.** -/
theorem records_unlines {lines : List (List Char)} (single : ∀ line ∈ lines, '\n' ∉ line) :
    records (unlines lines) = lines := by
  have pieces : (unlines lines).splitOn '\n' = lines ++ [[]] := by
    rw [← List.append_nil (unlines lines), splitOn_unlines single, List.splitOn_nil]
  rw [records, pieces, if_pos List.getLast?_concat, List.dropLast_concat]

/-- The fields of a record, between blanks. -/
def fields (record : List Char) : List (List Char) :=
  (record.splitOnP fun char => char = ' ' || char = '\t').filter (!·.isEmpty)

/-! ## Pieces -/

section Pieces

variable {α : Type} [BEq α] {mark : α}

/-- The items of a piece are items of the text, and the mark is not one of them. -/
theorem mem_of_mem_splitOn {text piece : List α} {item : α} (among : piece ∈ text.splitOn mark)
    (member : item ∈ piece) : item ∈ text ∧ (item == mark) = false := by
  induction text generalizing piece with
  | nil =>
      rw [List.splitOn_nil, List.mem_singleton] at among
      rw [among] at member
      cases member
  | cons first text ih =>
      rw [List.splitOn_cons_eq_if_modifyHead] at among
      split at among
      next =>
        rcases List.mem_cons.mp among with rfl | later
        · cases member
        · exact ⟨List.mem_cons_of_mem _ (ih later member).1, (ih later member).2⟩
      next other =>
        obtain ⟨head, pieces, whole⟩ := List.exists_cons_of_ne_nil (List.splitOn_ne_nil mark text)
        rw [whole] at ih
        rw [whole, List.modifyHead_cons] at among
        rcases List.mem_cons.mp among with rfl | later
        · rcases List.mem_cons.mp member with rfl | inside
          · exact ⟨List.mem_cons_self, Bool.eq_false_iff.mpr other⟩
          · have inHead := ih List.mem_cons_self inside
            exact ⟨List.mem_cons_of_mem _ inHead.1, inHead.2⟩
        · have inLater := ih (List.mem_cons_of_mem _ later) member
          exact ⟨List.mem_cons_of_mem _ inLater.1, inLater.2⟩

theorem length_splitOn (text : List α) : (text.splitOn mark).length = text.count mark + 1 := by
  induction text with
  | nil => rfl
  | cons first text ih =>
      rw [List.splitOn_cons_eq_if_modifyHead, List.count_cons]
      split
      next => rw [List.length_cons, ih]
      next => rw [List.length_modifyHead, ih, Nat.add_zero]

/-- Where two texts meet, the last piece of one goes on as the first of the other. -/
theorem splitOn_append {text other last head : List α} {init tail : List (List α)}
    (one : text.splitOn mark = init ++ [last]) (two : other.splitOn mark = head :: tail) :
    (text ++ other).splitOn mark = init ++ (last ++ head) :: tail := by
  induction text generalizing init last with
  | nil =>
      rw [List.splitOn_nil] at one
      have whole : [] ++ [[]] = init ++ [last] := one
      obtain ⟨rfl, same⟩ := List.append_inj' whole rfl
      cases same
      exact two
  | cons first text ih =>
      rw [List.splitOn_cons_eq_if_modifyHead] at one
      rw [List.cons_append, List.splitOn_cons_eq_if_modifyHead]
      split at one
      next here =>
        rw [if_pos here]
        cases init with
        | nil => exact absurd (List.cons.inj one).2 (List.splitOn_ne_nil _ _)
        | cons piece init =>
            obtain ⟨rfl, rest⟩ := List.cons.inj one
            rw [ih rest]
            rfl
      next notHere =>
        rw [if_neg notHere]
        obtain ⟨piece, pieces, whole⟩ :=
          List.exists_cons_of_ne_nil (List.splitOn_ne_nil mark text)
        rw [whole, List.modifyHead_cons] at one
        cases init with
        | nil =>
            obtain ⟨rfl, rfl⟩ := List.cons.inj one
            rw [@ih piece [] whole]
            rfl
        | cons before init =>
            obtain ⟨rfl, rest⟩ := List.cons.inj one
            rw [@ih last (piece :: init) (by rw [whole, rest]; rfl)]
            rfl

end Pieces

/-! ## Captured texts -/

/-- The last item that stripping leaves does not satisfy the condition. -/
theorem not_of_rstripWhile {α : Type} {drops : α → Bool} {items front : List α} {last : α}
    (left : rstripWhile drops items = front ++ [last]) : drops last = false := by
  have turned := congrArg List.reverse left
  rw [rstripWhile, List.reverse_reverse, List.reverse_append, List.reverse_singleton] at turned
  have head := List.head?_dropWhile_not drops items.reverse
  rw [turned] at head
  exact head

/-- A text is captured as it is if it has no NUL byte and no newline at the end. -/
theorem captured_eq_self_iff {text : List Char} :
    captured text = text ↔ '\x00' ∉ text ∧ text.getLast? ≠ some '\n' := by
  constructor
  · intro same
    refine ⟨fun member => (mem_captured (same.symm ▸ member)).2 rfl, fun last => ?_⟩
    obtain ⟨front, rfl⟩ := List.getLast?_eq_some_iff.mp last
    exact absurd (not_of_rstripWhile same) (by decide)
  · rintro ⟨noNul, notNewline⟩
    have kept : without ['\x00'] text = text := by
      refine without_eq_self.mpr fun char member => ?_
      rw [List.mem_singleton]
      rintro rfl
      exact noNul member
    rw [captured, kept]
    refine rstripWhile_of_last fun last isLast => decide_eq_false ?_
    rintro rfl
    exact notNewline isLast

theorem captured_captured (text : List Char) : captured (captured text) = captured text := by
  refine captured_eq_self_iff.mpr ⟨fun member => (mem_captured member).2 rfl, fun last => ?_⟩
  obtain ⟨front, same⟩ := List.getLast?_eq_some_iff.mp last
  exact absurd (not_of_rstripWhile same) (by decide)

/-! ## Captured lines -/

theorem unlines_append (first second : List (List Char)) :
    unlines (first ++ second) = unlines first ++ unlines second :=
  List.flatMap_append

theorem unlines_concat (lines : List (List Char)) (line : List Char) :
    unlines (lines ++ [line]) = unlines lines ++ line ++ ['\n'] := by
  rw [unlines_append, List.append_assoc]
  exact congrArg (unlines lines ++ ·) (List.append_nil _)

/-- Empty lines at the end are not captured. -/
theorem captured_unlines_blanks (lines blanks : List (List Char))
    (blank : ∀ line ∈ blanks, line = []) :
    captured (unlines (lines ++ blanks)) = captured (unlines lines) := by
  induction blanks using List.reverseRecOn with
  | nil => rw [List.append_nil]
  | append_singleton blanks line ih =>
      rw [blank line (List.mem_append_right _ List.mem_cons_self), ← List.append_assoc,
        unlines_concat, List.append_nil, captured_line]
      exact ih fun earlier member => blank earlier (List.mem_append_left _ member)

theorem mem_unlines {lines : List (List Char)} {char : Char} (member : char ∈ unlines lines) :
    char = '\n' ∨ ∃ line ∈ lines, char ∈ line := by
  obtain ⟨line, among, inside⟩ := List.mem_flatMap.mp member
  rcases List.mem_append.mp inside with here | newline
  · exact Or.inr ⟨line, among, here⟩
  · exact Or.inl (List.mem_singleton.mp newline)

theorem count_unlines (lines : List (List Char)) :
    (unlines lines).count '\n' = lines.length + (lines.map (List.count '\n')).sum := by
  induction lines with
  | nil => rfl
  | cons line lines ih =>
      have front : unlines (line :: lines) = line ++ '\n' :: unlines lines := by
        rw [unlines, List.flatMap_cons, List.append_assoc]
        rfl
      rw [front, List.count_append, List.count_cons_self, ih, List.length_cons, List.map_cons,
        List.sum_cons]
      omega

/-- Lines of which the last is not empty are captured but for the last newline. -/
theorem captured_unlines {lines : List (List Char)} {last : List Char}
    (single : ∀ line ∈ lines ++ [last], '\n' ∉ line ∧ '\x00' ∉ line) (nonempty : last ≠ []) :
    captured (unlines (lines ++ [last])) = unlines lines ++ last := by
  have noNul : without ['\x00'] (unlines lines ++ last) = unlines lines ++ last := by
    refine without_eq_self.mpr fun char member => ?_
    rw [List.mem_singleton]
    rintro rfl
    rcases List.mem_append.mp member with earlier | here
    · rcases mem_unlines earlier with newline | ⟨line, among, inside⟩
      · exact absurd newline (by decide)
      · exact (single line (List.mem_append_left _ among)).2 inside
    · exact (single last (List.mem_append_right _ List.mem_cons_self)).2 here
  obtain ⟨front, char, rfl⟩ := List.eq_nil_or_concat last |>.resolve_left nonempty
  have notNewline : char ≠ '\n' := by
    rintro rfl
    exact (single _ (List.mem_append_right _ List.mem_cons_self)).1 (by simp)
  rw [unlines_concat, captured_line, captured, noNul, List.concat_eq_append, ← List.append_assoc]
  exact rstripWhile_concat _ (by simpa using notNewline)

/-- **What is left of captured lines when it is printed.** -/
theorem unlines_rstripWhile {lines : List (List Char)}
    (single : ∀ line ∈ lines, '\n' ∉ line ∧ '\x00' ∉ line) :
    (captured (unlines lines) = [] ↔ rstripWhile List.isEmpty lines = []) ∧
      (captured (unlines lines) ≠ [] →
        captured (unlines lines) ++ ['\n'] = unlines (rstripWhile List.isEmpty lines)) := by
  obtain ⟨blanks, whole, blank⟩ := rstripWhile_append List.isEmpty lines
  have front : captured (unlines lines) = captured (unlines (rstripWhile List.isEmpty lines)) := by
    rw [← captured_unlines_blanks (rstripWhile List.isEmpty lines) blanks fun line member =>
      List.isEmpty_iff.mp (blank line member), ← whole]
  rw [front]
  rcases List.eq_nil_or_concat (rstripWhile List.isEmpty lines) with none_left | ⟨init, last, left⟩
  · rw [none_left]
    exact ⟨iff_of_true rfl rfl, fun some_there => absurd rfl some_there⟩
  · rw [List.concat_eq_append] at left
    have nonempty : last ≠ [] := by
      rintro rfl
      exact absurd (not_of_rstripWhile left) (by decide)
    have inside : ∀ line ∈ init ++ [last], '\n' ∉ line ∧ '\x00' ∉ line := by
      intro line member
      refine single line ?_
      rw [whole, left]
      exact List.mem_append_left _ member
    rw [left, captured_unlines inside nonempty, unlines_concat]
    refine ⟨iff_of_false ?_ ?_, fun _ => rfl⟩
    · exact List.append_ne_nil_of_right_ne_nil _ nonempty
    · exact List.append_ne_nil_of_right_ne_nil _ (List.cons_ne_nil _ _)

end HomeclusterInfra.Awk
