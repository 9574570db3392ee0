import HomeclusterInfra.Library.RegexReads

/-!
# Words that a text does not contain

A scanner follows the runs of word characters of a text and keeps what is left of
some words that may still be finished. It stops when a run was one of the words, so
a text that it reads to the end without finishing one contains none.

For a regular expression, triples say where the scanner stands behind every text
that the expression reads: the literal parts are scanned, a run of characters that
no word goes on with leaves nothing to finish, and the triples of the parts are put
together like the expression.
-/

set_option autoImplicit false

namespace HomeclusterInfra.WordScan

open Regex Regex.Rx

/-! ## The scanner -/

section Scanner

variable (isWord : Char → Bool) (same : Char → Char → Bool) (words : List (List Char))

/-- What is left of the words that go on with a character. -/
def narrow (left : List (List Char)) (char : Char) : List (List Char) :=
  left.filterMap fun
    | [] => none
    | letter :: rest => if same letter char then some rest else none

/-- Read one character. Behind a run of word characters all words are possible again,
unless the run was one of them. -/
def read (left : List (List Char)) (char : Char) : Option (List (List Char)) :=
  if isWord char then some (narrow same left char)
  else if left.contains [] then none
  else some words

/-- Read a text. -/
def scan : List (List Char) → List Char → Option (List (List Char))
  | left, [] => some left
  | left, char :: text => (read isWord same words left char).bind fun next => scan next text

/-- The scanner reads the text and no word is finished at its end. -/
def Quiet (text : List Char) : Prop :=
  ∃ left, scan isWord same words words text = some left ∧ [] ∉ left

/-- A run of word characters that is one of the words stands between other characters. -/
def Contains (text : List Char) : Prop :=
  ∃ before run after word, text = before ++ run ++ after ∧ word ∈ words ∧
    List.Forall₂ (fun letter char => same letter char = true) word run ∧
    (∀ char ∈ run, isWord char = true) ∧ before.getLast?.any isWord = false ∧
    after.head?.any isWord = false

variable {isWord same words} {left final : List (List Char)}

theorem scan_append (first second : List Char) :
    scan isWord same words left (first ++ second) =
      (scan isWord same words left first).bind fun middle =>
        scan isWord same words middle second := by
  induction first generalizing left with
  | nil => rfl
  | cons char first ih =>
      rw [List.cons_append, scan, scan]
      cases read isWord same words left char with
      | none => rfl
      | some next => exact ih

theorem scan_append_some {middle : List (List Char)} {first second : List Char}
    (begins : scan isWord same words left first = some middle) :
    scan isWord same words left (first ++ second) = scan isWord same words middle second := by
  rw [scan_append, begins, Option.bind_some]

/-- Two scanners that agree on the characters of a text agree on the text. -/
theorem scan_congr {isWord' : Char → Bool} {text : List Char}
    (agree : ∀ char ∈ text, isWord char = isWord' char) :
    scan isWord same words left text = scan isWord' same words left text := by
  induction text generalizing left with
  | nil => rfl
  | cons char text ih =>
      rw [List.forall_mem_cons] at agree
      have first : read isWord same words left char = read isWord' same words left char := by
        rw [read, read, agree.1]
      rw [scan, scan, first]
      cases read isWord' same words left char with
      | none => rfl
      | some next => exact ih agree.2

/-- Behind a character that is no word character all words are possible. -/
theorem eq_words_of_boundary {before : List Char} (other : before.getLast?.any isWord = false)
    (scanned : scan isWord same words words before = some left) : left = words := by
  rcases List.eq_nil_or_concat before with rfl | ⟨earlier, last, rfl⟩
  · exact (Option.some.inj scanned).symm
  · rw [List.concat_eq_append, scan_append] at scanned
    rw [List.concat_eq_append, List.getLast?_concat] at other
    obtain ⟨middle, -, ends⟩ := Option.bind_eq_some_iff.mp scanned
    obtain ⟨next, ends, done⟩ := Option.bind_eq_some_iff.mp ends
    have notWord : isWord last = false := other
    rw [read, notWord, if_neg Bool.false_ne_true] at ends
    split at ends
    · cases ends
    · exact (Option.some.inj (ends.trans done)).symm

/-- A word that is read is finished. -/
theorem exists_scan_run {word run : List Char}
    (spells : List.Forall₂ (fun letter char => same letter char = true) word run)
    (wordy : ∀ char ∈ run, isWord char = true) (possible : word ∈ left) :
    ∃ final, scan isWord same words left run = some final ∧ [] ∈ final := by
  induction spells generalizing left with
  | nil => exact ⟨left, rfl, possible⟩
  | @cons letter char word run first _ ih =>
      rw [List.forall_mem_cons] at wordy
      have narrowed : word ∈ narrow same left char :=
        List.mem_filterMap.mpr ⟨letter :: word, possible, if_pos first⟩
      obtain ⟨final, scanned, finished⟩ := ih wordy.2 narrowed
      refine ⟨final, ?_, finished⟩
      rw [scan, read, if_pos wordy.1]
      exact scanned

/-- **A quiet text contains none of the words.** -/
theorem Quiet.not_contains {text : List Char} (quiet : Quiet isWord same words text) :
    ¬Contains isWord same words text := by
  rintro ⟨before, run, after, word, rfl, member, spells, wordy, boundary, boundary'⟩
  obtain ⟨final, scanned, unfinished⟩ := quiet
  rw [List.append_assoc, scan_append] at scanned
  obtain ⟨first, begins, scanned⟩ := Option.bind_eq_some_iff.mp scanned
  obtain rfl := eq_words_of_boundary boundary begins
  have step : ∃ second, scan isWord same first first run = some second ∧ [] ∈ second :=
    exists_scan_run spells wordy member
  obtain ⟨second, runs, finished⟩ := step
  rw [scan_append_some runs] at scanned
  cases after with
  | nil =>
      cases scanned
      exact unfinished finished
  | cons char after =>
      have notWord : isWord char = false := boundary'
      have found : second.contains [] = true := List.contains_iff_mem.mpr finished
      rw [scan, read, notWord, if_neg Bool.false_ne_true, if_pos found] at scanned
      cases scanned

/-! ### Runs of one class -/

variable {accepts : Char → Bool}

/-- What a class leaves, it leaves again. -/
theorem scan_all {text : List Char} (all : ∀ char ∈ text, accepts char = true)
    (stays : ∀ char, accepts char = true → read isWord same words left char = some left) :
    scan isWord same words left text = some left := by
  induction text with
  | nil => rfl
  | cons char text ih =>
      rw [List.forall_mem_cons] at all
      rw [scan, stays char all.1]
      exact ih all.2

theorem scan_nonempty {text : List Char} (nonempty : text ≠ [])
    (all : ∀ char ∈ text, accepts char = true)
    (first : ∀ char, accepts char = true → read isWord same words left char = some final)
    (stays : ∀ char, accepts char = true → read isWord same words final char = some final) :
    scan isWord same words left text = some final := by
  cases text with
  | nil => exact absurd rfl nonempty
  | cons char text =>
      rw [List.forall_mem_cons] at all
      rw [scan, first char all.1]
      exact scan_all all.2 stays

/-- A run that is longer than the words leaves nothing. -/
theorem scan_long {text : List Char} (all : ∀ char ∈ text, isWord char = true)
    (long : ∀ word ∈ left, word.length < text.length) :
    scan isWord same words left text = some [] := by
  induction text generalizing left with
  | nil =>
      have none : left = [] := List.eq_nil_iff_forall_not_mem.mpr fun word member =>
        Nat.not_lt_zero _ (long word member)
      rw [none]
      rfl
  | cons char text ih =>
      rw [List.forall_mem_cons] at all
      rw [scan, read, if_pos all.1]
      refine ih all.2 fun word member => ?_
      obtain ⟨longer, possible, narrowed⟩ := List.mem_filterMap.mp member
      cases longer with
      | nil => cases narrowed
      | cons letter rest =>
          dsimp only at narrowed
          split at narrowed
          · cases narrowed
            exact Nat.lt_of_succ_lt_succ (long _ possible)
          · cases narrowed

end Scanner

/-! ## Expressions -/

section Triples

/-- Whatever is read from a position with the first property ends at one with the second. -/
def Triple (before : Position Char → Prop) (body : Rx Char) (after : Position Char → Prop) : Prop :=
  ∀ position final, body.Reads position final → before position → after final

variable {before middle after : Position Char → Prop} {first second body : Rx Char}

theorem Triple.seq (one : Triple before first middle) (two : Triple middle second after) :
    Triple before (.seq first second) after := by
  rintro position final ⟨between, reads, reads'⟩ holds
  exact two _ _ reads' (one _ _ reads holds)

theorem Triple.alt (one : Triple before first after) (two : Triple before second after) :
    Triple before (.alt first second) after := by
  rintro position final (reads | reads) holds
  · exact one _ _ reads holds
  · exact two _ _ reads holds

theorem Triple.oneOf {bodies : List (Rx Char)}
    (each : ∀ body ∈ bodies, Triple before body after) : Triple before (oneOf bodies) after := by
  induction bodies with
  | nil =>
      rintro position final ⟨_, -, none⟩
      cases none
  | cons body bodies ih =>
      rw [List.forall_mem_cons] at each
      cases bodies with
      | nil => exact each.1
      | cons other bodies => exact each.1.alt (ih each.2)

/-- Parts one after another, the last aside. -/
theorem Triple.cat_cons {bodies : List (Rx Char)} (one : Triple before body middle)
    (rest : Triple middle (cat bodies) after) : Triple before (cat (body :: bodies)) after := by
  cases bodies with
  | nil =>
      rintro position final reads holds
      exact rest final final rfl (one _ _ reads holds)
  | cons other bodies => exact one.seq rest

theorem Triple.cat_nil : Triple before (cat []) before := by
  rintro position final rfl holds
  exact holds

/-- A group keeps what does not depend on captures. -/
theorem Triple.group {index : Nat} (one : Triple before body after)
    (indifferent : ∀ position groups, after position → after { position with groups := groups }) :
    Triple before (.group index body) after := by
  rintro position final ⟨between, reads, rfl⟩ holds
  exact indifferent _ _ (one _ _ reads holds)

variable (isWord : Char → Bool) (same : Char → Char → Bool) (words : List (List Char))

/-- Where the scanner stands behind what was read. -/
def At (left : List (List Char)) (position : Position Char) : Prop :=
  scan isWord same words words position.past.reverse = some left

variable {isWord same words} {left final : List (List Char)} {accepts : Char → Bool}

/-- Reading a text that is scanned. -/
theorem At.through {position : Position Char} {text rest : List Char}
    (here : At isWord same words left position)
    (scanned : scan isWord same words left text = some final) :
    At isWord same words final (position.through text rest) := by
  rw [At, Position.through, List.reverse_append, List.reverse_reverse]
  exact (scan_append_some here).trans scanned

theorem triple_word {text : List Char} (scanned : scan isWord same words left text = some final) :
    Triple (At isWord same words left) (word text) (At isWord same words final) := by
  intro position last reads here
  obtain ⟨rest, -, rfl⟩ := reads_word_iff.mp reads
  exact here.through scanned

theorem triple_symbol
    (first : ∀ char, accepts char = true → read isWord same words left char = some final) :
    Triple (At isWord same words left) (symbol accepts) (At isWord same words final) := by
  intro position last reads here
  obtain ⟨found, rest, -, fits, rfl⟩ := reads_symbol_iff.mp reads
  refine here.through ?_
  rw [scan, first found fits]
  rfl

theorem triple_plus
    (first : ∀ char, accepts char = true → read isWord same words left char = some final)
    (stays : ∀ char, accepts char = true → read isWord same words final char = some final) :
    Triple (At isWord same words left) (plus (symbol accepts)) (At isWord same words final) := by
  intro position last reads here
  obtain ⟨run, rest, -, nonempty, all, rfl⟩ := reads_plus_symbol_iff.mp reads
  exact here.through (scan_nonempty nonempty all first stays)

/-- An expression that reads the whole of a text from the start leaves it quiet. -/
theorem Triple.quiet {input : List Char}
    (whole : Triple (At isWord same words words) body (At isWord same words left))
    (unfinished : [] ∉ left) (matched : (body.fullmatch input).isSome) :
    Quiet isWord same words input := by
  obtain ⟨last, reads, ended⟩ := fullmatch_isSome_iff.mp matched
  have text := reads_input body reads
  rw [ended, List.append_nil] at text
  have here : At isWord same words left last := whole _ _ reads rfl
  rw [At, text] at here
  exact ⟨left, here, unfinished⟩

end Triples

end HomeclusterInfra.WordScan
