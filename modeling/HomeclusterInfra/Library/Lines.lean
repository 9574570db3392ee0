import HomeclusterInfra.Library.Text

/-!
# Lines and words

How a text falls apart again that was put together from lines, or from words with
blanks between them.
-/

set_option autoImplicit false

namespace HomeclusterInfra.Text

/-! ## Visible characters -/

/-- A visible ASCII character. -/
def IsVisible (char : Char) : Prop :=
  33 ≤ char.toNat ∧ char.toNat < 127

theorem IsVisible.notSpace {char : Char} (visible : IsVisible char) : isSpace char = false := by
  obtain ⟨low, high⟩ := visible
  simp only [isSpace, Bool.or_eq_false_iff, Bool.and_eq_false_iff, decide_eq_false_iff_not]
  omega

theorem IsVisible.notLineBreak {char : Char} (visible : IsVisible char) :
    isLineBreak char = false := by
  obtain ⟨low, high⟩ := visible
  simp only [isLineBreak, Bool.or_eq_false_iff, Bool.and_eq_false_iff, decide_eq_false_iff_not]
  omega

theorem isVisible_of_isAlphanum {char : Char} (alphanum : char.isAlphanum = true) :
    IsVisible char := by
  rw [isAlphanum_iff, isAlpha_iff, isUpper_iff, isLower_iff, Char.isDigit_iff_toNat] at alphanum
  rw [IsVisible]
  rcases alphanum with (⟨low, high⟩ | ⟨low, high⟩) | ⟨low, high⟩
  · omega
  · omega
  · have bounds : 48 ≤ char.toNat ∧ char.toNat ≤ 57 := ⟨low, high⟩
    omega

theorem isVisible_of_isDigit {char : Char} (digit : char.isDigit = true) : IsVisible char :=
  isVisible_of_isAlphanum (isAlphanum_iff.mpr (Or.inr digit))

/-! ## Lines -/

/-- Lines, each with a line feed behind it. -/
def unlines (lines : List (List Char)) : List Char :=
  lines.flatMap fun line => line ++ ['\n']

theorem splitlinesFrom_line {line : List Char} (whole : ∀ char ∈ line, isLineBreak char = false)
    (seen rest : List Char) :
    splitlinesFrom seen (line ++ '\n' :: rest) = (seen.reverse ++ line) :: splitlinesFrom [] rest := by
  induction line generalizing seen with
  | nil =>
      rw [List.nil_append, List.append_nil, splitlinesFrom]
      · rfl
      · intro _ same
        cases same
  | cons char line ih =>
      rw [List.forall_mem_cons] at whole
      have inside : ¬isLineBreak char = true := by
        rw [whole.1]
        exact Bool.false_ne_true
      rw [List.cons_append, splitlinesFrom, if_neg inside, ih whole.2, List.reverse_cons,
        List.append_assoc]
      · rfl
      · rintro _ rfl
        exact absurd whole.1 (by decide)

/-- **Lines that are put together are split again.** -/
theorem splitlines_unlines {lines : List (List Char)}
    (whole : ∀ line ∈ lines, ∀ char ∈ line, isLineBreak char = false) :
    splitlines (unlines lines) = lines := by
  induction lines with
  | nil => rfl
  | cons line lines ih =>
      rw [List.forall_mem_cons] at whole
      rw [unlines, List.flatMap_cons, List.append_assoc, List.singleton_append, splitlines,
        splitlinesFrom_line whole.1]
      exact congrArg (line :: ·) (ih whole.2)

/-- ASCII bytes are decoded one by one. -/
theorem decodeUtf8_asciiBytes {text : List Char} (ascii : ∀ char ∈ text, char.toNat < 128) :
    decodeUtf8 (asciiBytes text) = text := by
  induction text with
  | nil => rfl
  | cons char text ih =>
      rw [List.forall_mem_cons] at ascii
      have code : (UInt8.ofNat char.toNat).toNat = char.toNat := by
        rw [UInt8.toNat_ofNat', Nat.mod_eq_of_lt (by omega)]
      rw [decodeUtf8, asciiBytes, List.map_cons, decodeReplace, code, if_pos ascii.1,
        Char.ofNat_toNat]
      exact congrArg (char :: ·) (ih ascii.2)

/-! ## Words -/

/-- A blank before the words is passed over. -/
theorem words_blank {char : Char} (blank : isSpace char = true) (rest : List Char) :
    words (char :: rest) = words rest := by
  have first : (char :: rest).splitOnP isSpace = [] :: rest.splitOnP isSpace :=
    List.splitOnP_append_cons_of_forall_mem (fun _ none => absurd none List.not_mem_nil) char blank
      rest
  rw [words, first, List.filter_cons_of_neg (by simp)]
  rfl

theorem words_blanks {blanks : List Char} (blank : ∀ char ∈ blanks, isSpace char = true)
    (rest : List Char) : words (blanks ++ rest) = words rest := by
  induction blanks with
  | nil => rfl
  | cons char blanks ih =>
      rw [List.forall_mem_cons] at blank
      rw [List.cons_append, words_blank blank.1, ih blank.2]

/-- A word at the end. -/
theorem words_single {word : List Char} (nonempty : word ≠ [])
    (solid : ∀ char ∈ word, isSpace char = false) : words word = [word] := by
  rw [words, List.splitOnP_eq_singleton solid,
    List.filter_cons_of_pos (by simpa using nonempty), List.filter_nil]

/-- A word with blanks behind it. -/
theorem words_word {word blanks : List Char} (nonempty : word ≠ [])
    (solid : ∀ char ∈ word, isSpace char = false) (gap : blanks ≠ [])
    (blank : ∀ char ∈ blanks, isSpace char = true) (rest : List Char) :
    words (word ++ (blanks ++ rest)) = word :: words rest := by
  cases blanks with
  | nil => exact absurd rfl gap
  | cons char blanks =>
      rw [List.forall_mem_cons] at blank
      have first := List.splitOnP_append_cons_of_forall_mem solid char blank.1 (blanks ++ rest)
      rw [List.cons_append, words, first, List.filter_cons_of_pos (by simpa using nonempty)]
      exact congrArg (word :: ·) (words_blanks blank.2 rest)

/-! ## Margins -/

/-- Nothing is stripped from a text whose last character is kept. -/
theorem rstripWhile_concat {α : Type} {drops : α → Bool} (text : List α) {last : α}
    (kept : drops last = false) : rstripWhile drops (text ++ [last]) = text ++ [last] := by
  rw [rstripWhile, List.reverse_append, List.reverse_singleton, List.singleton_append,
    List.dropWhile_cons_of_neg, List.reverse_cons, List.reverse_reverse]
  rw [kept]
  exact Bool.false_ne_true

theorem rstripWhile_of_last {α : Type} {drops : α → Bool} {text : List α}
    (kept : ∀ last, text.getLast? = some last → drops last = false) :
    rstripWhile drops text = text := by
  rcases List.eq_nil_or_concat text with rfl | ⟨front, last, rfl⟩
  · rfl
  · rw [List.concat_eq_append] at kept ⊢
    exact rstripWhile_concat front (kept last List.getLast?_concat)

theorem rstripWhile_append_of_pos {α : Type} {drops : α → Bool} {text tail : List α}
    (dropped : ∀ item ∈ tail, drops item = true) :
    rstripWhile drops (text ++ tail) = rstripWhile drops text := by
  unfold rstripWhile
  rw [List.reverse_append, List.dropWhile_append_of_pos]
  exact fun item member => dropped item (List.mem_reverse.mp member)

/-- Blanks around a text are stripped. -/
theorem strip_margins {before text after : List Char}
    (blankBefore : ∀ char ∈ before, isSpace char = true)
    (blankAfter : ∀ char ∈ after, isSpace char = true)
    (begins : ∀ char, text.head? = some char → isSpace char = false)
    (ends : ∀ char, text.getLast? = some char → isSpace char = false) (nonempty : text ≠ []) :
    strip (before ++ text ++ after) = text := by
  have front : (before ++ text ++ after).dropWhile isSpace = text ++ after := by
    rw [List.append_assoc, List.dropWhile_append_of_pos blankBefore]
    cases text with
    | nil => exact absurd rfl nonempty
    | cons char text =>
        rw [List.cons_append, List.dropWhile_cons_of_neg]
        rw [begins char rfl]
        exact Bool.false_ne_true
  have back : (text ++ after).reverse.dropWhile isSpace = text.reverse := by
    rw [List.reverse_append, List.dropWhile_append_of_pos]
    · cases reversed : text.reverse with
      | nil => rfl
      | cons char rest =>
          rw [List.dropWhile_cons_of_neg]
          rw [ends char (by rw [← List.head?_reverse, reversed]; rfl)]
          exact Bool.false_ne_true
    · intro char member
      exact blankAfter char (List.mem_reverse.mp member)
  rw [strip, front, rstripWhile, back, List.reverse_reverse]

/-- A text without white space has no margins. -/
theorem strip_of_solid {text : List Char} (solid : ∀ char ∈ text, isSpace char = false) :
    strip text = text := by
  have front : text.dropWhile isSpace = text := by
    cases text with
    | nil => rfl
    | cons first rest =>
        refine List.dropWhile_cons_of_neg ?_
        rw [solid first List.mem_cons_self]
        exact Bool.false_ne_true
  rw [strip, front]
  exact rstripWhile_of_last fun last isLast => solid last (List.mem_of_getLast? isLast)

end HomeclusterInfra.Text
