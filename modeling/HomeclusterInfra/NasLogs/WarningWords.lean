import HomeclusterInfra.Library.WordScan
import HomeclusterInfra.NasLogs.Core

/-!
# The words that make a message an error

`severity` searches a message for a few words and phrases that stand alone. A text
that ends in a bracket and a blank can be put before another one without a phrase
appearing or disappearing where they meet. Each phrase contains a single word that
stands alone too, so a text without these words has none of the phrases.
-/

set_option autoImplicit false

namespace HomeclusterInfra.NasLogs

open Text Regex Regex.Rx

/-- What the pattern relies on of the character database: in ASCII the alphanumeric
characters are the letters and digits, and the other forms of `k`, `s` and `i` are
letters. -/
structure StandardLetters [UnicodeData] : Prop where
  ascii : ∀ char : Char, char.toNat < 128 → UnicodeData.isAlnum char = char.isAlphanum
  others : ∀ char : Char, char.toNat = 0x212a ∨ char.toNat = 0x17f ∨ char.toNat = 0x130 ∨
    char.toNat = 0x131 → UnicodeData.isAlnum char = true

/-! ## Phrases -/

/-- The alternatives of the pattern. -/
def errorPhrases : List String :=
  ["failed", "failure", "error", "unable", "not clean", "not shut down properly",
    "not compatible"]

/-- The characters are those of a text, ignoring case. -/
def Spells (text run : List Char) : Prop :=
  List.Forall₂ (fun letter char => sameLetter letter char = true) text run

section Spelling

variable {text first second run : List Char}

theorem Spells.split (spells : Spells (first ++ second) run) :
    ∃ one two, run = one ++ two ∧ Spells first one ∧ Spells second two := by
  induction first generalizing run with
  | nil => exact ⟨[], run, rfl, .nil, spells⟩
  | cons letter first ih =>
      cases spells with
      | @cons _ char _ run fits rest =>
          obtain ⟨one, two, rfl, spellsOne, spellsTwo⟩ := ih rest
          exact ⟨char :: one, two, rfl, .cons fits spellsOne, spellsTwo⟩

theorem Spells.mem (spells : Spells text run) {char : Char} (member : char ∈ run) :
    ∃ letter ∈ text, sameLetter letter char = true := by
  induction spells with
  | nil => cases member
  | cons fits _ ih =>
      rcases List.mem_cons.mp member with rfl | later
      · exact ⟨_, List.mem_cons_self, fits⟩
      · obtain ⟨letter, inside, same⟩ := ih later
        exact ⟨letter, .tail _ inside, same⟩

theorem Spells.head (spells : Spells text run) {char : Char} (isHead : run.head? = some char) :
    ∃ letter, text.head? = some letter ∧ sameLetter letter char = true := by
  cases spells with
  | nil => cases isHead
  | cons fits _ =>
      cases isHead
      exact ⟨_, rfl, fits⟩

theorem Spells.exists_head (spells : Spells text run) {letter : Char}
    (isHead : text.head? = some letter) :
    ∃ char, run.head? = some char ∧ sameLetter letter char = true := by
  cases spells with
  | nil => cases isHead
  | cons fits _ =>
      cases isHead
      exact ⟨_, rfl, fits⟩

theorem Spells.exists_last (spells : Spells text run) {letter : Char}
    (isLast : text.getLast? = some letter) :
    ∃ char, run.getLast? = some char ∧ sameLetter letter char = true := by
  have reversed : Spells text.reverse run.reverse := List.forall₂_reverse_iff.mpr spells
  rw [← List.head?_reverse] at isLast ⊢
  exact reversed.exists_head isLast

end Spelling

section Letters

theorem toNat_toUpper {letter : Char} (small : 97 ≤ letter.toNat ∧ letter.toNat ≤ 122) :
    letter.toUpper.toNat = letter.toNat - 32 := by
  have inside : 'a'.val ≤ letter.val ∧ letter.val ≤ 'z'.val := by
    simpa [UInt32.le_iff_toNat_le] using small
  have code : 97 ≤ letter.val.toNat ∧ letter.val.toNat ≤ 122 := small
  have distance : ('A'.val - 'a'.val).toNat = 2 ^ 32 - 32 := by decide
  have upper : letter.toUpper = ⟨letter.val + ('A'.val - 'a'.val), _⟩ := dif_pos inside
  rw [upper]
  show (letter.val + ('A'.val - 'a'.val)).toNat = letter.val.toNat - 32
  rw [UInt32.toNat_add, distance]
  omega

theorem isAlphanum_of_small {char : Char} (small : 97 ≤ char.toNat ∧ char.toNat ≤ 122) :
    char.isAlphanum = true :=
  isAlphanum_iff.mpr (Or.inl (isAlpha_iff.mpr (Or.inr (isLower_iff.mpr small))))

theorem isAlphanum_of_capital {char : Char} (capital : 65 ≤ char.toNat ∧ char.toNat ≤ 90) :
    char.isAlphanum = true :=
  isAlphanum_iff.mpr (Or.inl (isAlpha_iff.mpr (Or.inl (isUpper_iff.mpr capital))))

end Letters

variable [UnicodeData]

/-- A small letter is only spelled by word characters. -/
theorem isWordChar_of_sameLetter (standard : StandardLetters) {letter char : Char}
    (small : letter.isLower = true) (same : sameLetter letter char = true) :
    isWordChar char = true := by
  have low := isLower_iff.mp small
  rw [isWordChar, Bool.or_eq_true]
  left
  simp only [sameLetter, Bool.or_eq_true, Bool.and_eq_true, decide_eq_true_eq] at same
  rcases same with (((rfl | rfl) | ⟨-, kelvin⟩) | ⟨-, longS⟩) | ⟨-, dotted | dotless⟩
  · rw [standard.ascii _ (by omega)]
    exact isAlphanum_of_small low
  · have upper := toNat_toUpper low
    rw [standard.ascii _ (by omega)]
    exact isAlphanum_of_capital (by omega)
  · exact standard.others _ (.inl kelvin)
  · exact standard.others _ (.inr (.inl longS))
  · exact standard.others _ (.inr (.inr (.inl dotted)))
  · exact standard.others _ (.inr (.inr (.inr dotless)))

/-- A phrase stands alone in a text. -/
def HasPhrase (text : List Char) : Prop :=
  ∃ phrase ∈ errorPhrases, ∃ before run after, text = before ++ run ++ after ∧
    Spells phrase.toList run ∧ before.getLast?.any isWordChar = false ∧
    after.head?.any isWordChar = false

omit [UnicodeData] in
/-- A phrase begins and ends with a letter and has no bracket. -/
theorem errorPhrases_shape : ∀ phrase ∈ errorPhrases,
    phrase.toList.head?.any Char.isLower = true ∧ phrase.toList.getLast?.any Char.isLower = true ∧
      phrase.toList.all (fun letter => !sameLetter letter ']') = true := by
  decide

omit [UnicodeData] in
theorem head_sameLetter_blank : ∀ phrase ∈ errorPhrases,
    phrase.toList.head?.any (sameLetter · ' ') = false := by
  decide

/-- The spelling of a phrase begins and ends with a word character. -/
theorem Spells.ends (standard : StandardLetters) {phrase : String} {run : List Char}
    (member : phrase ∈ errorPhrases) (spells : Spells phrase.toList run) :
    run.head?.any isWordChar = true ∧ run.getLast?.any isWordChar = true := by
  obtain ⟨first, last, -⟩ := errorPhrases_shape phrase member
  obtain ⟨letter, isLast, small⟩ := (Option.any_eq_true _ _).mp last
  obtain ⟨char, found, same⟩ := spells.exists_last isLast
  have begins : run.head?.any isWordChar = true := by
    generalize phrase.toList = letters at first spells
    cases spells with
    | nil => cases first
    | cons fits _ => exact isWordChar_of_sameLetter standard first fits
  refine ⟨begins, ?_⟩
  rw [found]
  exact isWordChar_of_sameLetter standard small same

omit [UnicodeData] in
theorem head?_append_any {first second : List Char} {accepts : Char → Bool}
    (begins : first.head?.any accepts = true) : (first ++ second).head?.any accepts = true := by
  cases first with
  | nil => cases begins
  | cons char first => exact begins

/-! ## The search -/

/-- **The pattern is found exactly where a phrase stands alone.** -/
theorem search_errorPattern_iff (standard : StandardLetters) {text : List Char} :
    (errorPattern.search text).isSome ↔ HasPhrase text := by
  rw [search_isSome_iff]
  constructor
  · rintro ⟨before, rest, last, rfl, start, ⟨boundary, rfl⟩, middle, ⟨inner, reads, rfl⟩,
      boundary', rfl⟩
    obtain ⟨body, member, reads⟩ := reads_oneOf.mp reads
    obtain ⟨phrase, listed, rfl⟩ := List.mem_map.mp member
    obtain ⟨run, after, isRest, each, rfl⟩ := reads_cat_symbols_iff.mp reads
    obtain rfl : rest = run ++ after := isRest
    have spells : Spells phrase.toList run := each
    obtain ⟨first, last⟩ := spells.ends standard listed
    refine ⟨phrase, listed, before, run, after, (List.append_assoc _ _ _).symm, spells, ?_, ?_⟩
    · have split : (before.reverse.head?.any isWordChar !=
          (run ++ after).head?.any isWordChar) = true := boundary
      rw [head?_append_any first, List.head?_reverse] at split
      simpa using split
    · have past : (run.reverse ++ before.reverse).head?.any isWordChar = true := by
        rw [← List.head?_reverse] at last
        exact head?_append_any last
      have split : ((run.reverse ++ before.reverse).head?.any isWordChar !=
          after.head?.any isWordChar) = true := boundary'
      rw [past] at split
      simpa using split
  · rintro ⟨phrase, listed, before, run, after, rfl, spells, boundary, boundary'⟩
    obtain ⟨first, last⟩ := spells.ends standard listed
    rw [← List.head?_reverse] at boundary last
    refine ⟨before, run ++ after, _, List.append_assoc _ _ _, _, ⟨?_, rfl⟩, _, ⟨_,
      reads_oneOf.mpr ⟨_, List.mem_map_of_mem listed,
        reads_cat_symbols_iff.mpr ⟨run, after, rfl, spells, rfl⟩⟩, rfl⟩, ?_, rfl⟩
    · show (before.reverse.head?.any isWordChar != (run ++ after).head?.any isWordChar) = true
      rw [boundary, head?_append_any first]
      rfl
    · show ((run.reverse ++ before.reverse).head?.any isWordChar !=
        after.head?.any isWordChar) = true
      rw [boundary', head?_append_any last]
      rfl

/-! ## Two texts -/

/-- A text that ends in a bracket and a blank, or nothing. -/
def Closed (text : List Char) : Prop :=
  text = [] ∨ ∃ inside, text = inside ++ "] ".toList

omit [UnicodeData] in
/-- A part at the end of a closed text is the blank or has the bracket. -/
theorem blank_or_bracket {inside before run : List Char} (nonempty : run ≠ [])
    (split : inside ++ "] ".toList = before ++ run) : run = [' '] ∨ ']' ∈ run := by
  have reversed := congrArg List.reverse split
  rw [List.reverse_append, List.reverse_append] at reversed
  have letters : "] ".toList.reverse = [' ', ']'] := by decide
  rw [letters, List.cons_append, List.cons_append, List.nil_append] at reversed
  cases isRun : run.reverse with
  | nil => exact absurd (List.reverse_eq_nil_iff.mp isRun) nonempty
  | cons char earlier =>
      rw [isRun, List.cons_append, List.cons_eq_cons] at reversed
      obtain ⟨rfl, rest⟩ := reversed
      cases earlier with
      | nil =>
          left
          rw [← List.reverse_reverse run, isRun]
          rfl
      | cons other earlier =>
          rw [List.cons_append, List.cons_eq_cons] at rest
          right
          rw [← List.mem_reverse, isRun, ← rest.1]
          exact .tail _ List.mem_cons_self

omit [UnicodeData] in
theorem getLast?_any_of_append {first second : List Char} {accepts : Char → Bool}
    (none : (first ++ second).getLast?.any accepts = false) :
    second.getLast?.any accepts = false := by
  cases second with
  | nil => rfl
  | cons char second =>
      rwa [List.getLast?_append_of_ne_nil _ (List.cons_ne_nil _ _)] at none

omit [UnicodeData] in
/-- The spelling of a phrase has no bracket and does not begin with a blank. -/
theorem Spells.plain {phrase : String} {run : List Char} (member : phrase ∈ errorPhrases)
    (spells : Spells phrase.toList run) : ']' ∉ run ∧ run.head? ≠ some ' ' := by
  obtain ⟨-, -, bracketless⟩ := errorPhrases_shape phrase member
  constructor
  · intro bracket
    obtain ⟨letter, inside, same⟩ := spells.mem bracket
    have different := List.all_eq_true.mp bracketless letter inside
    rw [same] at different
    cases different
  · intro blank
    obtain ⟨letter, isHead, same⟩ := spells.head blank
    have different := head_sameLetter_blank phrase member
    rw [isHead] at different
    exact Bool.false_ne_true (different.symm.trans same)

theorem isWordChar_blank (standard : StandardLetters) : isWordChar ' ' = false := by
  rw [isWordChar, standard.ascii _ (by decide)]
  decide

/-- **No phrase stands where a closed text and another one meet.** -/
theorem hasPhrase_append_iff (standard : StandardLetters) {first second : List Char}
    (closed : Closed first) (free : ¬HasPhrase second) :
    HasPhrase (first ++ second) ↔ HasPhrase first := by
  constructor
  · rintro ⟨phrase, listed, before, run, after, split, spells, boundary, boundary'⟩
    rcases List.append_eq_append_iff.mp split with ⟨more, isBefore, rest⟩ | ⟨more, whole, rest⟩
    · rcases List.append_eq_append_iff.mp isBefore with
        ⟨part, isFirst, isRun⟩ | ⟨part, isBefore, isMore⟩
      · -- The spelling begins in the first text.
        by_cases inFirst : part = []
        · subst inFirst
          rw [List.nil_append] at isRun
          subst isRun
          exact absurd ⟨phrase, listed, [], run, after, rest, spells, rfl, boundary'⟩ free
        by_cases complete : more = []
        · subst complete
          rw [List.append_nil] at isRun
          subst isRun
          exact ⟨phrase, listed, before, run, [], by rw [List.append_nil, isFirst], spells,
            boundary, rfl⟩
        · obtain ⟨bracketless, notBlank⟩ := spells.plain listed
          rcases closed with none | ⟨inside, ends⟩
          · rw [none] at isFirst
            exact absurd (List.append_eq_nil_iff.mp isFirst.symm).2 inFirst
          · rcases blank_or_bracket inFirst (ends.symm.trans isFirst) with blank | bracket
            · rw [isRun, blank] at notBlank
              exact absurd rfl notBlank
            · rw [isRun] at bracketless
              exact absurd (List.mem_append_left _ bracket) bracketless
      · -- The spelling begins in the second text.
        rw [isMore] at rest
        rw [isBefore] at boundary
        exact absurd ⟨phrase, listed, part, run, after, rest, spells,
          getLast?_any_of_append boundary, boundary'⟩ free
    · refine ⟨phrase, listed, before, run, more, whole, spells, boundary, ?_⟩
      cases more with
      | nil => rfl
      | cons char more =>
          rw [rest] at boundary'
          exact boundary'
  · rintro ⟨phrase, listed, before, run, after, split, spells, boundary, boundary'⟩
    refine ⟨phrase, listed, before, run, after ++ second, ?_, spells, boundary, ?_⟩
    · rw [split, List.append_assoc]
    · cases after with
      | cons char after => exact boundary'
      | nil =>
          -- The first text ends in a blank and the spelling in a letter.
          rw [List.append_nil] at split
          obtain ⟨first', last⟩ := spells.ends standard listed
          rcases closed with rfl | ⟨inside, rfl⟩
          · rw [(List.append_eq_nil_iff.mp split.symm).2] at first'
            cases first'
          · have nonempty : run ≠ [] := by
              rintro rfl
              cases first'
            have same := congrArg List.getLast? split
            rw [List.getLast?_append_of_ne_nil _ nonempty,
              List.getLast?_append_of_ne_nil _ (by decide)] at same
            rw [← same] at last
            have blank : isWordChar ' ' = true := last
            rw [isWordChar_blank standard] at blank
            cases blank

/-! ## The single words -/

/-- A word of each phrase. -/
def explicitWords : List (List Char) :=
  ["failed".toList, "failure".toList, "error".toList, "unable".toList, "clean".toList,
    "shut".toList, "compatible".toList]

omit [UnicodeData] in
/-- The word of a phrase stands behind a blank and before one, or at its ends. -/
theorem exists_explicitWord : ∀ phrase ∈ errorPhrases, ∃ lead word tail,
    phrase.toList = lead ++ word ++ tail ∧ word ∈ explicitWords ∧ word.all Char.isLower = true ∧
      (lead = [] ∨ lead.getLast? = some ' ') ∧ (tail = [] ∨ tail.head? = some ' ') := by
  simp only [errorPhrases, List.forall_mem_cons, List.not_mem_nil, false_implies, implies_true,
    and_true]
  refine ⟨⟨[], "failed".toList, [], ?_⟩, ⟨[], "failure".toList, [], ?_⟩, ⟨[], "error".toList, [], ?_⟩,
    ⟨[], "unable".toList, [], ?_⟩, ⟨"not ".toList, "clean".toList, [], ?_⟩,
    ⟨"not ".toList, "shut".toList, " down properly".toList, ?_⟩,
    ⟨"not ".toList, "compatible".toList, [], ?_⟩⟩
  all_goals decide

/-- Only a blank spells a blank. -/
theorem notWord_of_blank (standard : StandardLetters) {char : Char}
    (same : sameLetter ' ' char = true) : isWordChar char = false := by
  have blank : char = ' ' := by
    simpa [sameLetter] using same
  rw [blank]
  exact isWordChar_blank standard

/-- **A text without the words has no phrase.** -/
theorem not_hasPhrase_of_quiet (standard : StandardLetters) {text : List Char}
    (quiet : WordScan.Quiet isWordChar sameLetter explicitWords text) : ¬HasPhrase text := by
  rintro ⟨phrase, listed, before, run, after, rfl, spells, boundary, boundary'⟩
  obtain ⟨lead, word, tail, parts, member, small, leads, tails⟩ :=
    exists_explicitWord phrase listed
  rw [parts] at spells
  obtain ⟨front, last, rfl, spellsFront, spellsTail⟩ := spells.split
  obtain ⟨first, core, rfl, spellsLead, spellsWord⟩ := spellsFront.split
  refine quiet.not_contains ⟨before ++ first, core, last ++ after, word,
    by simp only [List.append_assoc], member, spellsWord, ?_, ?_, ?_⟩
  · intro char inside
    obtain ⟨letter, among, same⟩ := spellsWord.mem inside
    exact isWordChar_of_sameLetter standard (List.all_eq_true.mp small letter among) same
  · rcases leads with rfl | blank
    · cases spellsLead
      rwa [List.append_nil]
    · obtain ⟨char, isLast, same⟩ := spellsLead.exists_last blank
      rw [List.getLast?_append, isLast]
      exact notWord_of_blank standard same
  · rcases tails with rfl | blank
    · cases spellsTail
      exact boundary'
    · obtain ⟨char, isHead, same⟩ := spellsTail.exists_head blank
      rw [List.head?_append, isHead]
      exact notWord_of_blank standard same

end HomeclusterInfra.NasLogs
