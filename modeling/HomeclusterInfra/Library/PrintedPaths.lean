import HomeclusterInfra.Library.Lines
import Mathlib.Data.List.DropRight

/-!
# Printed paths

A version control program prints the paths of a change one to a line. A path is a
string of bytes: with an unusual byte in it, a control byte, a quotation mark, a
backslash or a byte beyond ASCII, it is printed between quotation marks and such
bytes as escapes. Other paths are printed as they are, blanks included.

A reader that strips the text and each of its lines, and passes over empty lines,
sees the printed paths without the blanks at their ends.
-/

set_option autoImplicit false

namespace HomeclusterInfra.Text

/-! ## Stripped lines -/

/-- `[line.strip() for line in text.splitlines() if line.strip()]` -/
def strippedLines (text : List Char) : List (List Char) :=
  ((splitlines text).filter fun line => !(strip line).isEmpty).map strip

/-- The lines without the blanks at their ends, empty ones left out. -/
def shown (lines : List (List Char)) : List (List Char) :=
  (lines.filter fun line => !(strip line).isEmpty).map strip

variable {line text : List Char} {lines : List (List Char)}

/-- Nothing of a text is left that consists of blanks. -/
theorem strip_blanks (blank : ∀ char ∈ text, isSpace char = true) : strip text = [] := by
  rw [strip, List.dropWhile_eq_nil_iff.mpr blank]
  rfl

/-- Blanks, a text that begins and ends without one, and blanks again. -/
theorem exists_margins (visible : ¬∀ char ∈ text, isSpace char = true) :
    ∃ before core after, text = before ++ core ++ after ∧ core ≠ [] ∧
      (∀ char ∈ before, isSpace char = true) ∧ (∀ char ∈ after, isSpace char = true) ∧
      (∀ char, core.head? = some char → isSpace char = false) ∧
      (∀ char, core.getLast? = some char → isSpace char = false) := by
  obtain ⟨after, back, blankAfter⟩ := rstripWhile_append isSpace (text.dropWhile isSpace)
  have nonempty : text.dropWhile isSpace ≠ [] := fun none =>
    visible (List.dropWhile_eq_nil_iff.mp none)
  have ends : ∀ char, (rstripWhile isSpace (text.dropWhile isSpace)).getLast? = some char →
      isSpace char = false := by
    intro char last
    rw [rstripWhile, List.getLast?_reverse] at last
    have first := List.head?_dropWhile_not isSpace (text.dropWhile isSpace).reverse
    rw [last] at first
    simpa using first
  have begins : ∀ char, (text.dropWhile isSpace).head? = some char → isSpace char = false := by
    intro char first
    have kept := List.head?_dropWhile_not isSpace text
    rw [first] at kept
    simpa using kept
  have core : rstripWhile isSpace (text.dropWhile isSpace) ≠ [] := by
    intro none
    rw [none, List.nil_append] at back
    cases dropped : text.dropWhile isSpace with
    | nil => exact nonempty dropped
    | cons char rest =>
        have black := begins char (by rw [dropped]; rfl)
        have blank := blankAfter char (by rw [← back, dropped]; exact List.mem_cons_self)
        rw [black] at blank
        exact Bool.false_ne_true blank
  refine ⟨text.takeWhile isSpace, rstripWhile isSpace (text.dropWhile isSpace), after, ?_, core,
    fun char member => List.mem_takeWhile_imp member, blankAfter, ?_, ends⟩
  · rw [List.append_assoc, ← back, List.takeWhile_append_dropWhile]
  · intro char first
    refine begins char ?_
    rw [back, List.head?_append, first]
    rfl

/-- Blanks behind a text make no difference to what is left of it. -/
theorem strip_append_blanks {after : List Char} (blank : ∀ char ∈ after, isSpace char = true) :
    strip (text ++ after) = strip text := by
  by_cases blanks : ∀ char ∈ text, isSpace char = true
  · rw [strip_blanks blanks, strip_blanks]
    intro char member
    exact (List.mem_append.mp member).elim (blanks char) (blank char)
  · obtain ⟨before, core, behind, rfl, nonempty, front, back, begins, ends⟩ :=
      exists_margins blanks
    rw [strip_margins front back begins ends nonempty, List.append_assoc,
      strip_margins front _ begins ends nonempty]
    intro char member
    exact (List.mem_append.mp member).elim (back char) (blank char)

/-- Neither do blanks before it. -/
theorem strip_dropWhile (text : List Char) : strip (text.dropWhile isSpace) = strip text := by
  rw [strip, List.dropWhile_idempotent, strip]

theorem unlines_append (first second : List (List Char)) :
    unlines (first ++ second) = unlines first ++ unlines second :=
  List.flatMap_append

theorem shown_append (first second : List (List Char)) :
    shown (first ++ second) = shown first ++ shown second := by
  rw [shown, List.filter_append, List.map_append, shown, shown]

theorem shown_cons_of_blank (blank : ∀ char ∈ line, isSpace char = true) :
    shown (line :: lines) = shown lines := by
  rw [shown, List.filter_cons_of_neg (by rw [strip_blanks blank]; exact Bool.false_ne_true)]
  rfl

/-- A line counts by what is left of it. -/
theorem shown_cons_congr {other : List Char} (same : strip line = strip other) :
    shown (line :: lines) = shown (other :: lines) := by
  simp only [shown, List.filter_cons, same]
  split
  · rw [List.map_cons, List.map_cons, same]
  · rfl

/-- Blanks at the beginning of lines: whole lines, and those before the first
character of the next one. -/
theorem dropWhile_unlines (whole : ∀ line ∈ lines, ∀ char ∈ line, isLineBreak char = false) :
    ∃ rest, (unlines lines).dropWhile isSpace = unlines rest ∧ shown rest = shown lines ∧
      ∀ line ∈ rest, ∀ char ∈ line, isLineBreak char = false := by
  induction lines with
  | nil => exact ⟨[], rfl, rfl, whole⟩
  | cons line lines ih =>
      rw [List.forall_mem_cons] at whole
      rw [unlines, List.flatMap_cons, List.append_assoc, List.singleton_append]
      by_cases blank : ∀ char ∈ line, isSpace char = true
      · obtain ⟨rest, left, same, breakless⟩ := ih whole.2
        refine ⟨rest, ?_, same.trans (shown_cons_of_blank blank).symm, breakless⟩
        rw [List.dropWhile_append_of_pos blank, List.dropWhile_cons_of_pos (by decide)]
        exact left
      · refine ⟨line.dropWhile isSpace :: lines, ?_,
          shown_cons_congr (strip_dropWhile line), ?_⟩
        · rw [List.dropWhile_append, if_neg, unlines, List.flatMap_cons, List.append_assoc]
          · rfl
          · rw [List.isEmpty_iff, List.dropWhile_eq_nil_iff]
            exact blank
        · rw [List.forall_mem_cons]
          exact ⟨fun char member => whole.1 char ((List.dropWhile_suffix _).mem member), whole.2⟩

/-- A last line without a line feed. -/
theorem splitlines_unlines_append
    (whole : ∀ line ∈ lines, ∀ char ∈ line, isLineBreak char = false)
    (breakless : ∀ char ∈ line, isLineBreak char = false) (nonempty : line ≠ []) :
    splitlines (unlines lines ++ line) = lines ++ [line] := by
  have single : ∀ (rest seen : List Char), (∀ char ∈ rest, isLineBreak char = false) →
      (seen.reverse ++ rest ≠ []) → splitlinesFrom seen rest = [seen.reverse ++ rest] := by
    intro rest
    induction rest with
    | nil =>
        intro seen _ some
        rw [splitlinesFrom, if_neg, List.append_nil]
        intro empty
        rw [List.isEmpty_iff] at empty
        rw [empty] at some
        exact some rfl
    | cons char rest ih =>
        intro seen breakless some
        rw [List.forall_mem_cons] at breakless
        have inside : ¬isLineBreak char = true := by
          rw [breakless.1]
          exact Bool.false_ne_true
        rw [splitlinesFrom, if_neg inside, ih (char :: seen) breakless.2, List.reverse_cons,
          List.append_assoc]
        · rfl
        · simp
        · rintro _ rfl
          exact absurd breakless.1 (by decide)
  induction lines with
  | nil => exact single line [] breakless nonempty
  | cons first lines ih =>
      rw [List.forall_mem_cons] at whole
      rw [unlines, List.flatMap_cons, List.append_assoc, List.append_assoc, List.singleton_append,
        splitlines, splitlinesFrom_line whole.1]
      exact congrArg (first :: ·) (ih whole.2)

/-- **What a reader sees of printed lines** that strips the text first. -/
theorem strippedLines_strip_unlines
    (whole : ∀ line ∈ lines, ∀ char ∈ line, isLineBreak char = false) :
    strippedLines (strip (unlines lines)) = shown lines := by
  obtain ⟨rest, left, same, breakless⟩ := dropWhile_unlines whole
  rw [strip, left, ← same]
  clear left same whole
  induction rest using List.reverseRecOn with
  | nil => rfl
  | append_singleton rest last ih =>
      have front : ∀ line ∈ rest, ∀ char ∈ line, isLineBreak char = false :=
        fun line member => breakless line (List.mem_append_left _ member)
      have back := breakless last (List.mem_append_right _ (List.mem_singleton.mpr rfl))
      by_cases blank : ∀ char ∈ last, isSpace char = true
      · have gone : rstripWhile isSpace (unlines (rest ++ [last])) =
            rstripWhile isSpace (unlines rest) := by
          have blanks : ∀ char ∈ (last ++ ['\n']).reverse, isSpace char = true := by
            intro char member
            rcases List.mem_append.mp (List.mem_reverse.mp member) with inside | final
            · exact blank char inside
            · rw [List.mem_singleton.mp final]
              decide
          have single : unlines [last] = last ++ ['\n'] := List.flatMap_singleton _ _
          rw [unlines_append, single, rstripWhile, List.reverse_append,
            List.dropWhile_append_of_pos blanks, rstripWhile]
        have none : shown [last] = [] := shown_cons_of_blank blank
        rw [gone, ih front, shown_append, none, List.append_nil]
      · obtain ⟨before, core, after, rfl, nonempty, blankBefore, blankAfter, begins, ends⟩ :=
          exists_margins blank
        have gone : rstripWhile isSpace (unlines (rest ++ [before ++ core ++ after])) =
            unlines rest ++ (before ++ core) := by
          obtain ⟨init, final, rfl⟩ := List.eq_nil_or_concat' core |>.resolve_left nonempty
          have single : unlines [before ++ (init ++ [final]) ++ after] =
              before ++ (init ++ [final]) ++ (after ++ ['\n']) := by
            rw [unlines, List.flatMap_singleton, List.append_assoc _ after]
          have blanks : ∀ char ∈ (after ++ ['\n']).reverse, isSpace char = true := by
            intro char member
            rcases List.mem_append.mp (List.mem_reverse.mp member) with inside | final
            · exact blankAfter char inside
            · rw [List.mem_singleton.mp final]
              decide
          have black := ends final (by rw [List.getLast?_concat])
          rw [unlines_append, single, ← List.append_assoc (unlines rest), rstripWhile,
            List.reverse_append, List.dropWhile_append_of_pos blanks, ← rstripWhile,
            ← List.append_assoc before, ← List.append_assoc (unlines rest),
            rstripWhile_concat _ black]
        have inside : ∀ char ∈ before ++ core, isLineBreak char = false :=
          fun char member => back char (List.mem_append_left _ member)
        have some : before ++ core ≠ [] := List.append_ne_nil_of_right_ne_nil _ nonempty
        rw [gone, strippedLines, splitlines_unlines_append front inside some]
        change shown (rest ++ [before ++ core]) = _
        rw [shown_append, shown_append]
        exact congrArg (shown rest ++ ·) (shown_cons_congr (strip_append_blanks blankAfter).symm)

/-! ## Quoting -/

/-- A byte that is printed as an escape. -/
def isUnusual (byte : UInt8) : Bool :=
  byte.toNat < 32 || byte.toNat = 34 || byte.toNat = 92 || 127 ≤ byte.toNat

def octalDigit (value : Nat) : Char :=
  Char.ofNat (48 + value % 8)

/-- A byte between quotation marks. -/
def escapeByte (byte : UInt8) : List Char :=
  if isUnusual byte then
    '\\' :: match byte.toNat with
      | 7 => ['a']
      | 8 => ['b']
      | 9 => ['t']
      | 10 => ['n']
      | 11 => ['v']
      | 12 => ['f']
      | 13 => ['r']
      | 34 => ['"']
      | 92 => ['\\']
      | code => [octalDigit (code / 64), octalDigit (code / 8), octalDigit code]
  else [Char.ofNat byte.toNat]

/-- The characters of a path whose bytes are printed as they are. -/
def plainPath (path : List UInt8) : List Char :=
  path.map fun byte => Char.ofNat byte.toNat

/-- A path as it is printed. -/
def printedPath (path : List UInt8) : List Char :=
  if path.any isUnusual then '"' :: path.flatMap escapeByte ++ ['"'] else plainPath path

variable {byte : UInt8} {path : List UInt8}

theorem octalDigit_notLineBreak (value : Nat) : isLineBreak (octalDigit value) = false := by
  have digits : ∀ digit : Fin 8, isLineBreak (Char.ofNat (48 + digit.val)) = false := by decide
  exact digits ⟨value % 8, Nat.mod_lt _ (by omega)⟩

/-- A usual byte stands for a character that ends no line. -/
theorem notLineBreak_of_usual (usual : isUnusual byte = false) :
    isLineBreak (Char.ofNat byte.toNat) = false := by
  simp only [isUnusual, Bool.or_eq_false_iff, decide_eq_false_iff_not] at usual
  simp only [isLineBreak, toNat_charOfByte, Bool.or_eq_false_iff, Bool.and_eq_false_iff,
    decide_eq_false_iff_not]
  omega

theorem escapeByte_notLineBreak (byte : UInt8) :
    ∀ char ∈ escapeByte byte, isLineBreak char = false := by
  unfold escapeByte
  split
  · have escape : isLineBreak '\\' = false := rfl
    rw [List.forall_mem_cons]
    refine ⟨escape, ?_⟩
    split
    all_goals simp only [List.forall_mem_cons, octalDigit_notLineBreak, true_and]
    all_goals first
      | exact List.forall_mem_nil _
      | exact ⟨rfl, List.forall_mem_nil _⟩
  · next usual =>
      rw [List.forall_mem_singleton]
      exact notLineBreak_of_usual (Bool.eq_false_of_not_eq_true usual)

/-- **A printed path is one line.** -/
theorem printedPath_notLineBreak (path : List UInt8) :
    ∀ char ∈ printedPath path, isLineBreak char = false := by
  unfold printedPath
  split
  · intro char member
    rcases List.mem_append.mp member with front | mark
    · rcases List.mem_cons.mp front with rfl | inside
      · rfl
      · obtain ⟨byte, _, escaped⟩ := List.mem_flatMap.mp inside
        exact escapeByte_notLineBreak byte char escaped
    · rw [List.mem_singleton.mp mark]
      rfl
  · next usual =>
      intro char member
      obtain ⟨byte, inside, rfl⟩ := List.mem_map.mp member
      refine notLineBreak_of_usual (Bool.eq_false_of_not_eq_true fun unusual => usual ?_)
      exact List.any_eq_true.mpr ⟨byte, inside, unusual⟩

theorem printedPath_of_usual (usual : path.any isUnusual = false) :
    printedPath path = plainPath path := by
  rw [printedPath, if_neg]
  rw [usual]
  exact Bool.false_ne_true

/-- Nothing is stripped from a path between quotation marks. -/
theorem strip_printedPath_of_unusual (unusual : path.any isUnusual = true) :
    ∃ rest, strip (printedPath path) = '"' :: rest := by
  rw [printedPath, if_pos unusual]
  have whole := @strip_margins [] ('"' :: path.flatMap escapeByte ++ ['"']) []
    (fun _ none => absurd none List.not_mem_nil) (fun _ none => absurd none List.not_mem_nil)
    (fun char first => by cases first; rfl)
    (fun char last => by
      rw [List.getLast?_concat] at last
      cases last
      rfl)
    (List.cons_ne_nil _ _)
  rw [List.nil_append, List.append_nil] at whole
  exact ⟨_, whole⟩

end HomeclusterInfra.Text
