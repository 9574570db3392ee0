import HomeclusterInfra.Library.Lines
import HomeclusterInfra.Tftp.RollbackSelectors

/-!
# Root arguments of a command line

The kernel takes the last `root=` argument of its command line. `_ROOT_ARG.findall`
counts the words of one form, but passes over a word that a single blank separates
from an argument without options. `sed` takes the last place of the line that reads
like an argument with options, inside of other words as well. Here is said on the
words of a line what each of the three finds, and when they find one release.
-/

set_option autoImplicit false

namespace HomeclusterInfra.Tftp

open Text Rollout

/-! ## The expression -/

/-- A text of one line. -/
structure Line where
  chars : List Char
  ended : Bool
  single : ∀ char ∈ chars, char ≠ '\n' ∧ char ≠ '\r'

def Line.text (line : Line) : List Char :=
  line.chars ++ if line.ended then ['\n'] else []

/-- `:/gentoo/([0-9]{8}-rpi[45])/nfs` at the beginning of what is left of a word,
with a comma or nothing behind it: the release, and what is behind it. -/
def releaseEnd (word : List Char) : Option (List Char × List Char) :=
  let release := (word.drop 9).take 13
  let behind := word.drop 26
  if ":/gentoo/".toList.isPrefixOf word && isSelector release &&
      "/nfs".toList.isPrefixOf (word.drop 22) && (behind.isEmpty || behind.head? == some ',') then
    some (release, behind)
  else none

/-- `root=nfs4:[^\s]*:/gentoo/([0-9]{8}-rpi[45])/nfs(?:,|\s|$)` of a word. -/
def wordRelease (word : List Char) : Option (List Char × List Char) :=
  if "root=nfs4:".toList.isPrefixOf word then lastSuffix releaseEnd (word.drop 10) else none

/-- The expression from `root=` on, at the beginning of a text: the release, and the
length of the match, which takes the comma or the blank. -/
def rootArgAt (text : List Char) : Option (List Char × Nat) :=
  let word := text.takeWhile fun char => !isSpace char
  (wordRelease word).map fun (release, behind) => (release, word.length - behind.length + 1)

/-- The expression at a place that is not the beginning of the line. -/
def rootArgAfter (text : List Char) : Option (List Char × Nat) :=
  match text with
  | [] => none
  | char :: rest =>
      if isSpace char then (rootArgAt rest).map fun (release, length) => (release, length + 1)
      else none

/-- The matches of a nonempty expression, from left to right, each behind the one
before. So many characters are passed over first. -/
def findAll {α : Type} (find : List Char → Option (α × Nat)) : Nat → List Char → List α
  | _, [] => []
  | skip + 1, _ :: rest => findAll find skip rest
  | 0, char :: rest =>
      match find (char :: rest) with
      | some (found, length) => found :: findAll find (length - 1) rest
      | none => findAll find 0 rest

/-- `_ROOT_ARG.findall(line)` -/
def rootArgs (line : List Char) : List (List Char) :=
  match rootArgAt line with
  | some (release, length) => release :: findAll rootArgAfter length line
  | none => findAll rootArgAfter 0 line

theorem lastSuffix_eq_none {α : Type} {find : List Char → Option α} {text : List Char}
    (none : lastSuffix find text = none) {before after : List Char}
    (parts : text = before ++ after) : find after = Option.none := by
  induction text generalizing before with
  | nil =>
      obtain ⟨rfl, rfl⟩ := List.append_eq_nil_iff.mp parts.symm
      exact none
  | cons char rest ih =>
      rw [lastSuffix] at none
      split at none
      next => cases none
      next missing =>
        cases before with
        | nil => rwa [List.nil_append, ← parts] at *
        | cons first before => exact ih missing (List.cons.inj parts).2

/-- What is found in a text is found in the last of its ends that has something. -/
theorem lastSuffix_eq_some {α : Type} {find : List Char → Option α} {text : List Char} {found : α}
    (isLast : lastSuffix find text = some found) :
    ∃ before after, text = before ++ after ∧ find after = some found ∧
      ∀ front back, text = front ++ back → find back ≠ none → front.length ≤ before.length := by
  induction text with
  | nil =>
      refine ⟨[], [], rfl, isLast, fun front back parts _ => ?_⟩
      rw [(List.append_eq_nil_iff.mp parts.symm).1]
  | cons char rest ih =>
      rw [lastSuffix] at isLast
      split at isLast
      next later inside =>
        obtain rfl := Option.some.inj isLast
        obtain ⟨before, after, parts, here, last⟩ := ih inside
        refine ⟨char :: before, after, by rw [parts, List.cons_append], here, ?_⟩
        intro front back split there
        cases front with
        | nil => exact Nat.zero_le _
        | cons first front =>
            exact Nat.succ_le_succ (last front back (List.cons.inj split).2 there)
      next missing =>
        refine ⟨[], char :: rest, rfl, isLast, fun front back split there => ?_⟩
        cases front with
        | nil => exact Nat.le_refl _
        | cons first front =>
            exact absurd (lastSuffix_eq_none missing (List.cons.inj split).2) there

theorem releaseEnd_eq_some {word release behind : List Char}
    (found : releaseEnd word = some (release, behind)) :
    word = ":/gentoo/".toList ++ release ++ "/nfs".toList ++ behind ∧ isSelector release = true ∧
      (behind = [] ∨ behind.head? = some ',') := by
  simp only [releaseEnd] at found
  split at found
  next holds =>
    simp only [Bool.and_eq_true, Bool.or_eq_true, List.isEmpty_iff, beq_iff_eq] at holds
    obtain ⟨⟨⟨start, form⟩, ends⟩, behindIs⟩ := holds
    cases found
    refine ⟨?_, form, behindIs⟩
    obtain ⟨rest, rfl⟩ := List.isPrefixOf_iff_prefix.mp start
    obtain ⟨tail, parts⟩ := List.isPrefixOf_iff_prefix.mp ends
    have nine : ":/gentoo/".toList.length = 9 := by decide
    have back : ∀ count, (":/gentoo/".toList ++ rest).drop (9 + count) = rest.drop count := by
      intro count
      rw [← nine, List.drop_append, List.drop_eq_nil_of_le (Nat.le_add_right _ _),
        List.nil_append, Nat.add_sub_cancel_left]
    have first := back 0
    have second := back 13
    have third := back 17
    simp only [Nat.add_zero, List.drop_zero, Nat.reduceAdd] at first second third
    rw [second] at parts
    rw [first, third]
    have last : rest.drop 17 = tail := by
      have four : "/nfs".toList.length = 4 := by decide
      rw [show 17 = 13 + 4 from rfl, ← List.drop_drop, ← parts, ← four, List.drop_left]
    rw [last, List.append_assoc, List.append_assoc, parts, List.take_append_drop]
  next => cases found

/-- An argument that the expression finds has this form. -/
theorem wordRelease_eq_some {word release behind : List Char}
    (found : wordRelease word = some (release, behind)) :
    ∃ server, word = "root=nfs4:".toList ++ server ++ ":/gentoo/".toList ++ release ++
        "/nfs".toList ++ behind ∧ isSelector release = true ∧
      (behind = [] ∨ behind.head? = some ',') := by
  unfold wordRelease at found
  split at found
  next start =>
    obtain ⟨rest, rfl⟩ := List.isPrefixOf_iff_prefix.mp start
    have ten : "root=nfs4:".toList.length = 10 := by decide
    rw [← ten, List.drop_left] at found
    obtain ⟨server, after, rfl, ends, -⟩ := lastSuffix_eq_some found
    obtain ⟨rfl, form, behindIs⟩ := releaseEnd_eq_some ends
    refine ⟨server, ?_, form, behindIs⟩
    simp only [List.append_assoc]
  next => cases found

/-! ## The arguments of a line -/

/-- A text is empty or begins with a blank. -/
def AtBlank (text : List Char) : Prop :=
  text = [] ∨ ∃ blank tail, text = blank :: tail ∧ isSpace blank = true

/-- A word of a text, and what stands before and behind it. -/
structure IsArgument (text before argument after : List Char) : Prop where
  parts : text = before ++ argument ++ after
  opens : before = [] ∨ ∃ front blank, before = front ++ [blank] ∧ isSpace blank = true
  closes : AtBlank after
  solid : ∀ char ∈ argument, isSpace char = false
  nonempty : argument ≠ []

section Arguments

variable {text before argument after release : List Char}

/-- **A word is one of the words of the text**, between those before and behind it. -/
theorem IsArgument.splitWords (stands : IsArgument text before argument after) :
    splitWords text = splitWords before ++ argument :: splitWords after := by
  have alone : Tftp.splitWords (argument ++ after) = argument :: Tftp.splitWords after := by
    rcases stands.closes with rfl | ⟨blank, rest, rfl, isBlank⟩
    · rw [List.append_nil]
      exact words_single stands.nonempty stands.solid
    · have own : Tftp.splitWords argument = [argument] :=
        words_single stands.nonempty stands.solid
      have behind : Tftp.splitWords (blank :: rest) = Tftp.splitWords rest :=
        words_blank isBlank rest
      rw [splitWords_append_blank isBlank, own, behind, List.singleton_append]
  rw [stands.parts, List.append_assoc]
  rcases stands.opens with rfl | ⟨front, blank, rfl, isBlank⟩
  · exact alone
  · have ahead := @splitWords_append_blank front [] blank isBlank
    have none : Tftp.splitWords [] = [] := rfl
    rw [List.append_assoc, List.singleton_append, splitWords_append_blank isBlank, alone, ahead,
      none, List.append_nil]

/-- The last root argument of a text that has one. -/
theorem IsArgument.rootArgument (stands : IsArgument text before argument after)
    (isRoot : "root=".toList.isPrefixOf argument = true) :
    rootArgument text = some ((rootArgument after).getD argument) := by
  rw [Tftp.rootArgument, stands.splitWords, List.filter_append, List.filter_cons_of_pos isRoot,
    List.getLast?_append, List.getLast?_cons, Option.some_or]
  rfl

/-- An argument that the expression finds is a root argument. -/
theorem isRoot_of_wordRelease {behind : List Char}
    (found : wordRelease argument = some (release, behind)) :
    "root=".toList.isPrefixOf argument = true := by
  obtain ⟨server, rfl, -⟩ := wordRelease_eq_some found
  rfl

end Arguments

/-! ## The arguments that are counted -/

section Counting

variable {word rest text before argument after release behind : List Char}

theorem findAll_drop {α : Type} {find : List Char → Option (α × Nat)} (skip : Nat)
    (text : List Char) : findAll find skip text = findAll find 0 (text.drop skip) := by
  induction text generalizing skip with
  | nil =>
      rw [List.drop_nil, findAll, findAll]
  | cons char rest ih =>
      cases skip with
      | zero => rfl
      | succ skip => exact ih skip

/-- Inside a word nothing is found. -/
theorem findAll_solid (solid : ∀ char ∈ word, isSpace char = false) (rest : List Char) :
    findAll rootArgAfter 0 (word ++ rest) = findAll rootArgAfter 0 rest := by
  induction word with
  | nil => rfl
  | cons char word ih =>
      rw [List.forall_mem_cons] at solid
      have none : rootArgAfter (char :: (word ++ rest)) = none := by
        rw [rootArgAfter, solid.1]
        rfl
      rw [List.cons_append, findAll, none]
      exact ih solid.2

/-- Behind a blank a text is read like a line. -/
theorem findAll_blank {blank : Char} (isBlank : isSpace blank = true) (rest : List Char) :
    findAll rootArgAfter 0 (blank :: rest) = rootArgs rest := by
  rw [findAll, rootArgAfter, if_pos isBlank, rootArgs]
  cases rootArgAt rest with
  | none => rfl
  | some found => rfl

theorem atBlank_dropWhile (text : List Char) :
    AtBlank (text.dropWhile fun char => !isSpace char) := by
  cases left : text.dropWhile fun char => !isSpace char with
  | nil => exact .inl rfl
  | cons blank tail =>
      have first := List.head?_dropWhile_not (fun char => !isSpace char) text
      rw [left] at first
      exact .inr ⟨blank, tail, rfl, by simpa using first⟩

/-- A text is a word and what is behind it, and behind the blank after the word it is
such a text again. -/
theorem words_induction {motive : List Char → Prop}
    (step : ∀ word rest, (∀ char ∈ word, isSpace char = false) → AtBlank rest →
      (∀ blank tail, rest = blank :: tail → motive tail) → motive (word ++ rest))
    (text : List Char) : motive text := by
  induction size : text.length using Nat.strong_induction_on generalizing text with
  | h size ih =>
      have parts := List.takeWhile_append_dropWhile (p := fun char => !isSpace char) (l := text)
      rw [← parts]
      refine step _ _ (fun char member => by simpa using List.mem_takeWhile_imp member)
        (atBlank_dropWhile text) fun blank tail left => ih tail.length ?_ tail rfl
      have shorter := congrArg List.length parts
      rw [left, List.length_append, List.length_cons] at shorter
      omega

theorem takeWhile_word (solid : ∀ char ∈ word, isSpace char = false) (ends : AtBlank rest) :
    (word ++ rest).takeWhile (fun char => !isSpace char) = word := by
  rw [List.takeWhile_append_of_pos fun char member => by rw [solid char member]; rfl]
  rcases ends with rfl | ⟨blank, tail, rfl, isBlank⟩
  · exact List.append_nil _
  · rw [List.takeWhile_cons_of_neg (by rw [isBlank]; exact Bool.false_ne_true), List.append_nil]

/-- Where another argument is looked for behind one that is found. The blank behind an
argument without options is part of the match, so the next word is passed over. -/
def searched (behind after : List Char) : List Char :=
  if behind = [] then (after.drop 1).dropWhile fun char => !isSpace char else after

theorem rootArgs_of_none (solid : ∀ char ∈ word, isSpace char = false) (ends : AtBlank rest)
    (none : wordRelease word = none) :
    rootArgs (word ++ rest) = findAll rootArgAfter 0 rest := by
  have start : rootArgAt (word ++ rest) = Option.none := by
    rw [rootArgAt, takeWhile_word solid ends]
    dsimp only
    rw [none, Option.map_none]
  rw [rootArgs, start]
  exact findAll_solid solid rest

theorem rootArgs_of_found (solid : ∀ char ∈ word, isSpace char = false) (ends : AtBlank rest)
    (found : wordRelease word = some (release, behind)) :
    rootArgs (word ++ rest) = release :: findAll rootArgAfter 0 (searched behind rest) := by
  have start : rootArgAt (word ++ rest) =
      some (release, word.length - behind.length + 1) := by
    rw [rootArgAt, takeWhile_word solid ends]
    dsimp only
    rw [found, Option.map_some]
  rw [rootArgs, start]
  dsimp only
  rw [findAll_drop]
  congr 1
  obtain ⟨server, parts, -, -⟩ := wordRelease_eq_some found
  generalize "root=nfs4:".toList ++ server ++ ":/gentoo/".toList ++ release ++ "/nfs".toList = front
    at parts
  cases behind with
  | nil =>
      -- the blank behind the word is passed over, then the next word
      have left : (word ++ rest).drop (word.length + 1) = rest.drop 1 := by
        rw [List.drop_append, List.drop_eq_nil_of_le (Nat.le_succ _), List.nil_append,
          Nat.add_sub_cancel_left]
      rw [List.length_nil, Nat.sub_zero, left, searched, if_pos rfl]
      conv_lhs => rw [← List.takeWhile_append_dropWhile (p := fun char => !isSpace char)
        (l := rest.drop 1)]
      exact findAll_solid (fun char member => by simpa using List.mem_takeWhile_imp member) _
  | cons comma options =>
      have left : (word ++ rest).drop (word.length - (comma :: options).length + 1) =
          options ++ rest := by
        have length : word.length - (comma :: options).length + 1 = (front ++ [comma]).length := by
          rw [parts, List.length_append, List.length_append, Nat.add_sub_cancel]
          rfl
        have split : word ++ rest = (front ++ [comma]) ++ (options ++ rest) := by
          rw [parts]
          simp only [List.append_assoc, List.cons_append, List.nil_append]
        rw [length, split, List.drop_left]
      rw [left, searched, if_neg (List.cons_ne_nil _ _)]
      refine findAll_solid (fun char member => solid char ?_) rest
      rw [parts]
      exact List.mem_append_right _ (List.mem_cons_of_mem _ member)

/-- No word of the text has the form of an argument that is counted. -/
def Unread (text : List Char) : Prop :=
  ∀ word ∈ splitWords text, wordRelease word = none

theorem unread_nil : Unread [] :=
  List.forall_mem_nil _

theorem unread_solid (solid : ∀ char ∈ word, isSpace char = false) :
    Unread word ↔ wordRelease word = none := by
  by_cases empty : word = []
  · subst empty
    exact iff_of_true unread_nil rfl
  · have own : splitWords word = [word] := words_single empty solid
    rw [Unread, own, List.forall_mem_singleton]

theorem unread_blank {blank : Char} (isBlank : isSpace blank = true) :
    Unread (before ++ blank :: after) ↔ Unread before ∧ Unread after := by
  rw [Unread, splitWords_append_blank isBlank, List.forall_mem_append, Unread, Unread]

theorem Unread.start (ends : AtBlank rest) (unread : Unread (word ++ rest)) : Unread word := by
  rcases ends with rfl | ⟨blank, tail, rfl, isBlank⟩
  · rwa [List.append_nil] at unread
  · exact ((unread_blank isBlank).mp unread).1

theorem rootArgs_eq_nil : rootArgs text = [] ↔ Unread text := by
  induction text using words_induction with
  | step word rest solid ends ih =>
      cases found : wordRelease word with
      | none =>
          rw [rootArgs_of_none solid ends found]
          rcases ends with rfl | ⟨blank, tail, rfl, isBlank⟩
          · rw [List.append_nil, unread_solid solid]
            exact iff_of_true rfl found
          · rw [findAll_blank isBlank, ih blank tail rfl, unread_blank isBlank, unread_solid solid,
              and_iff_right found]
      | some pair =>
          obtain ⟨release, behind⟩ := pair
          rw [rootArgs_of_found solid ends found]
          refine iff_of_false (List.cons_ne_nil _ _) fun unread => ?_
          rw [(unread_solid solid).mp (unread.start ends)] at found
          cases found

theorem findAll_eq_nil (starts : AtBlank rest) :
    findAll rootArgAfter 0 rest = [] ↔ Unread rest := by
  rcases starts with rfl | ⟨blank, tail, rfl, isBlank⟩
  · exact iff_of_true rfl unread_nil
  · have alone := @unread_blank [] tail blank isBlank
    rw [List.nil_append, and_iff_right unread_nil] at alone
    rw [findAll_blank isBlank, rootArgs_eq_nil, alone]

/-- The one argument of a line that is counted: the first of its form, with no other
one where another one is looked for. -/
structure Counted (text before argument after release : List Char) : Prop where
  stands : IsArgument text before argument after
  first : Unread before
  alone : ∃ behind, wordRelease argument = some (release, behind) ∧ Unread (searched behind after)

theorem atBlank_searched (ends : AtBlank after) : AtBlank (searched behind after) := by
  rw [searched]
  split
  next => exact atBlank_dropWhile _
  next => exact ends

/-- What stands before an argument, without words of the form, is passed over. -/
theorem rootArgs_of_unread (opens : before = [] ∨ ∃ front blank, before = front ++ [blank] ∧
    isSpace blank = true) (unread : Unread before) (text : List Char) :
    rootArgs (before ++ text) = rootArgs text := by
  induction before using words_induction with
  | step word rest solid ends ih =>
      have none := (unread_solid solid).mp (unread.start ends)
      rcases ends with rfl | ⟨blank, tail, rfl, isBlank⟩
      · rw [List.append_nil] at opens ⊢
        rcases opens with rfl | ⟨front, last, rfl, isBlank⟩
        · rfl
        · rw [solid last (List.mem_append_right _ (List.mem_singleton_self _))] at isBlank
          cases isBlank
      · have next : tail = [] ∨ ∃ front blank, tail = front ++ [blank] ∧ isSpace blank = true := by
          rcases List.eq_nil_or_concat' tail with rfl | ⟨front, last, rfl⟩
          · exact .inl rfl
          · refine .inr ⟨front, last, rfl, ?_⟩
            obtain empty | ⟨front', last', same, isBlank'⟩ := opens
            · exact absurd empty (List.append_ne_nil_of_right_ne_nil _ (List.cons_ne_nil _ _))
            · rw [← List.cons_append, ← List.append_assoc] at same
              rwa [(List.append_inj_right' same rfl |> List.singleton_inj.mp)]
        rw [List.append_assoc, List.cons_append, rootArgs_of_none solid
          (.inr ⟨blank, _, rfl, isBlank⟩) none, findAll_blank isBlank]
        exact ih blank tail rfl next ((unread_blank isBlank).mp unread).2

/-- **The first reader counts one argument** where only one word of the line has the
form, but for a word that a blank separates from that one, if it has no options. -/
theorem rootArgs_eq_singleton : rootArgs text = [release] ↔
    ∃ before argument after, Counted text before argument after release := by
  constructor
  · intro single
    induction text using words_induction with
    | step word rest solid ends ih =>
        cases found : wordRelease word with
        | none =>
            rw [rootArgs_of_none solid ends found] at single
            rcases ends with rfl | ⟨blank, tail, rfl, isBlank⟩
            · cases single
            · rw [findAll_blank isBlank] at single
              obtain ⟨before, argument, after, counted⟩ := ih blank tail rfl single
              refine ⟨word ++ blank :: before, argument, after, ⟨?_, .inr ?_,
                counted.stands.closes, counted.stands.solid, counted.stands.nonempty⟩, ?_,
                counted.alone⟩
              · rw [counted.stands.parts]
                simp only [List.append_assoc, List.cons_append]
              · rcases counted.stands.opens with rfl | ⟨front, last, rfl, isLast⟩
                · exact ⟨word, blank, rfl, isBlank⟩
                · exact ⟨word ++ blank :: front, last, by
                    rw [List.append_assoc, List.cons_append], isLast⟩
              · exact (unread_blank isBlank).mpr ⟨(unread_solid solid).mpr found, counted.first⟩
        | some pair =>
            obtain ⟨release', behind⟩ := pair
            rw [rootArgs_of_found solid ends found] at single
            obtain ⟨rfl, none⟩ := List.cons.inj single
            refine ⟨[], word, rest, ⟨rfl, .inl rfl, ends, solid, ?_⟩, unread_nil, behind, found,
              (findAll_eq_nil (atBlank_searched ends)).mp none⟩
            rintro rfl
            cases found
  · rintro ⟨before, argument, after, counted⟩
    obtain ⟨behind, found, unread⟩ := counted.alone
    have ends := counted.stands.closes
    rw [counted.stands.parts, List.append_assoc,
      rootArgs_of_unread counted.stands.opens counted.first,
      rootArgs_of_found counted.stands.solid ends found,
      (findAll_eq_nil (atBlank_searched ends)).mpr unread]

end Counting

/-! ## The place that `sed` takes -/

/-- A place of a line that reads `root=nfs4:<server>:/gentoo/<name>/nfs,`, with no blank
in it: at the beginning of a word or inside of one. -/
structure Place (line : List Char) where
  before : List Char
  server : List Char
  name : List Char
  after : List Char
  parts : line = before ++ ("root=nfs4:".toList ++ (server ++ (":/gentoo/".toList ++ (name ++
    ("/nfs,".toList ++ after)))))
  blankless : ' ' ∉ server ∧ ' ' ∉ name
  slashless : '/' ∉ name

/-- No place begins behind this one, and none that begins here has a longer server. -/
def Place.IsLast {line : List Char} (place : Place line) : Prop :=
  ∀ other : Place line, other.before.length ≤ place.before.length ∧
    (other.before.length = place.before.length → other.server.length ≤ place.server.length)

theorem takeWhile_name {name after : List Char} (slashless : '/' ∉ name) :
    (name ++ ("/nfs,".toList ++ after)).takeWhile (· != '/') = name := by
  rw [List.takeWhile_append_of_pos]
  · exact List.append_nil _
  · intro char member
    rw [bne_iff_ne]
    rintro rfl
    exact slashless member

theorem releaseAt_eq_some {text name : List Char} : releaseAt text = some name ↔
    '/' ∉ name ∧ ∃ after, text = ":/gentoo/".toList ++ (name ++ ("/nfs,".toList ++ after)) := by
  have nine : ":/gentoo/".toList.length = 9 := by decide
  constructor
  · intro found
    rw [releaseAt] at found
    split at found
    next start =>
      obtain ⟨rest, rfl⟩ := List.isPrefixOf_iff_prefix.mp start
      rw [← nine, List.drop_left] at found
      dsimp only at found
      split at found
      next ends =>
        obtain rfl := Option.some.inj found
        obtain ⟨after, parts⟩ := List.isPrefixOf_iff_prefix.mp ends
        refine ⟨fun slash => ?_, after, ?_⟩
        · simpa using List.mem_takeWhile_imp slash
        · have split := List.takeWhile_append_dropWhile (p := (· != '/')) (l := rest)
          have dropped : rest.drop (rest.takeWhile (· != '/')).length =
              rest.dropWhile (· != '/') := by
            conv_lhs => arg 2; rw [← split]
            exact List.drop_left
          rw [parts, dropped, split]
      next => cases found
    next => cases found
  · rintro ⟨slashless, after, rfl⟩
    have start : ":/gentoo/".toList.isPrefixOf (":/gentoo/".toList ++
        (name ++ ("/nfs,".toList ++ after))) = true :=
      List.isPrefixOf_iff_prefix.mpr (List.prefix_append _ _)
    have ends : "/nfs,".toList.isPrefixOf ("/nfs,".toList ++ after) = true :=
      List.isPrefixOf_iff_prefix.mpr (List.prefix_append _ _)
    rw [releaseAt, if_pos start, ← nine, List.drop_left]
    dsimp only
    rw [takeWhile_name slashless, List.drop_left, if_pos ends]

/-- What `sed` reads from a place on. -/
def ReadsFrom (text server name after : List Char) : Prop :=
  text = "root=nfs4:".toList ++ (server ++ (":/gentoo/".toList ++ (name ++
    ("/nfs,".toList ++ after)))) ∧ (' ' ∉ server ∧ ' ' ∉ name) ∧ '/' ∉ name

theorem ReadsFrom.run {text server name after : List Char}
    (reads : ReadsFrom text server name after) :
    (text.drop 10).takeWhile (· != ' ') = server ++ (":/gentoo/".toList ++ (name ++
      ("/nfs,".toList ++ after.takeWhile (· != ' ')))) := by
  obtain ⟨rfl, blankless, -⟩ := reads
  have ten : "root=nfs4:".toList.length = 10 := by decide
  have visible : ∀ {part : List Char}, ' ' ∉ part → ∀ char ∈ part, (char != ' ') = true := by
    intro part absent char member
    rw [bne_iff_ne]
    rintro rfl
    exact absent member
  rw [← ten, List.drop_left, List.takeWhile_append_of_pos (visible blankless.1),
    List.takeWhile_append_of_pos (visible (by decide)),
    List.takeWhile_append_of_pos (visible blankless.2),
    List.takeWhile_append_of_pos (visible (by decide))]

/-- `sed` reads on to the last `:/gentoo/` that goes on as it is to. -/
theorem rootAt_eq_some {text name : List Char} (found : rootAt text = some name) :
    ∃ server after, ReadsFrom text server name after ∧
      ∀ server' name' after', ReadsFrom text server' name' after' →
        server'.length ≤ server.length := by
  rw [rootAt] at found
  split at found
  next start =>
    obtain ⟨server, back, run, here, last⟩ := lastSuffix_eq_some found
    obtain ⟨slashless, after, rfl⟩ := releaseAt_eq_some.mp here
    obtain ⟨rest, rfl⟩ := List.isPrefixOf_iff_prefix.mp start
    have ten : "root=nfs4:".toList.length = 10 := by decide
    have split := List.takeWhile_append_dropWhile (p := (· != ' ')) (l := rest)
    have visible : ∀ char ∈ rest.takeWhile (· != ' '), char ≠ ' ' := fun char member => by
      simpa using List.mem_takeWhile_imp member
    have dropped : ("root=nfs4:".toList ++ rest).drop 10 = rest := by
      rw [← ten, List.drop_left]
    refine ⟨server, after ++ rest.dropWhile (· != ' '), ⟨?_, ⟨?_, ?_⟩, slashless⟩, ?_⟩
    · rw [dropped] at run
      rw [run] at split
      conv_lhs => rw [← split]
      simp only [List.append_assoc]
    · intro blank
      rw [dropped] at run
      exact visible ' ' (run ▸ List.mem_append_left _ blank) rfl
    · intro blank
      rw [dropped] at run
      exact visible ' ' (run ▸ List.mem_append_right _ (List.mem_append_right _
        (List.mem_append_left _ blank))) rfl
    · intro server' name' after' reads
      refine last server' _ reads.run fun none => ?_
      rw [releaseAt_eq_some.mpr ⟨reads.2.2, _, rfl⟩] at none
      cases none
  next => cases found

theorem rootAt_ne_none {text server name after : List Char}
    (reads : ReadsFrom text server name after) : rootAt text ≠ none := by
  intro none
  have start : "root=nfs4:".toList.isPrefixOf text = true := by
    rw [reads.1]
    exact List.isPrefixOf_iff_prefix.mpr (List.prefix_append _ _)
  rw [rootAt, if_pos start] at none
  have missing := lastSuffix_eq_none none reads.run
  rw [releaseAt_eq_some.mpr ⟨reads.2.2, _, rfl⟩] at missing
  cases missing

theorem rootfsOf_line (line : Line) : rootfsOf line.text = lastSuffix rootAt line.chars := by
  have single : '\n' ∉ line.chars := fun member => (line.single _ member).1 rfl
  rw [rootfsOf, Line.text]
  cases line.ended with
  | false =>
      rw [if_neg Bool.false_ne_true, List.append_nil, List.splitOn_eq_singleton single,
        List.findSome?_singleton]
  | true =>
      have two : (line.chars ++ ['\n']).splitOn '\n' = [line.chars, []] := by
        rw [List.splitOn_append_cons_self_of_not_mem single, List.splitOn_nil]
      rw [if_pos rfl, two, List.findSome?_cons]
      cases lastSuffix rootAt line.chars <;> rfl

/-- **`sed` takes the last place of the line.** -/
theorem rootfsOf_eq_some {line : Line} {name : List Char} :
    rootfsOf line.text = some name ↔
      ∃ place : Place line.chars, place.IsLast ∧ place.name = name := by
  have taken : ∀ {name}, rootfsOf line.text = some name →
      ∃ place : Place line.chars, place.IsLast ∧ place.name = name := by
    intro name found
    rw [rootfsOf_line] at found
    obtain ⟨before, back, parts, here, last⟩ := lastSuffix_eq_some found
    obtain ⟨server, after, reads, longest⟩ := rootAt_eq_some here
    refine ⟨⟨before, server, name, after, by rw [parts, reads.1], reads.2.1, reads.2.2⟩,
      fun other => ⟨?_, fun same => ?_⟩, rfl⟩
    · exact last other.before _ other.parts
        (rootAt_ne_none ⟨rfl, other.blankless, other.slashless⟩)
    · obtain ⟨-, whole⟩ := List.append_inj (parts.symm.trans other.parts) same.symm
      exact longest other.server other.name other.after
        ⟨whole, other.blankless, other.slashless⟩
  refine ⟨taken, ?_⟩
  rintro ⟨place, isLast, rfl⟩
  cases found : rootfsOf line.text with
  | none =>
      rw [rootfsOf_line] at found
      exact absurd (lastSuffix_eq_none found place.parts)
        (rootAt_ne_none ⟨rfl, place.blankless, place.slashless⟩)
  | some name =>
      obtain ⟨other, otherLast, rfl⟩ := taken found
      have begins := Nat.le_antisymm (isLast other).1 (otherLast place).1
      obtain ⟨-, whole⟩ := List.append_inj (other.parts.symm.trans place.parts) begins
      have behind := List.append_cancel_left whole
      have servers := Nat.le_antisymm ((isLast other).2 begins) ((otherLast place).2 begins.symm)
      obtain ⟨-, same⟩ := List.append_inj behind servers
      have names := List.append_cancel_left same
      have first := @takeWhile_name _ other.after other.slashless
      rw [names, takeWhile_name place.slashless] at first
      rw [first]

/-! ## One release of the line -/

/-- The root argument names a release: its root directory is `/gentoo/<release>/nfs`
on a server, whose name has no slash, and options follow a comma or a colon. -/
def NamesRelease (argument release : List Char) : Prop :=
  ∃ server options, argument = "root=nfs4:".toList ++ server ++ ":/gentoo/".toList ++ release ++
      "/nfs".toList ++ options ∧ '/' ∉ server ∧
    ∀ char, options.head? = some char → char = ',' ∨ char = ':'

/-- No word is a root argument. -/
def NoRoot (words : List (List Char)) : Prop :=
  ∀ word ∈ words, "root=".toList.isPrefixOf word = false

/-- The counted argument of a line is the last root argument and names its release, or
the last one behind it names the same release, and the last place of the line that
reads like an argument with options has no other release. -/
structure Unmistakable (line : Line) (argument after release : List Char) : Prop where
  last : (NoRoot (splitWords after) ∧ NamesRelease argument release) ∨
    ∃ front word back, splitWords after = front ++ word :: back ∧ NamesRelease word release ∧
      NoRoot back
  place : ∀ place : Place line.chars, place.IsLast →
    isSelector (rstripWhile isSpace place.name) = true → rstripWhile isSpace place.name = release

theorem NamesRelease.isRoot {argument release : List Char} (names : NamesRelease argument release) :
    "root=".toList.isPrefixOf argument = true := by
  obtain ⟨server, options, rfl, -⟩ := names
  rfl

theorem rootArgument_eq_none {text : List Char} :
    rootArgument text = none ↔ NoRoot (splitWords text) := by
  rw [rootArgument, List.getLast?_eq_none_iff, List.filter_eq_nil_iff, NoRoot]
  simp only [Bool.not_eq_true]

theorem rootArgument_eq_some {text word : List Char} : rootArgument text = some word ↔
    ∃ front back, splitWords text = front ++ word :: back ∧
      "root=".toList.isPrefixOf word = true ∧ NoRoot back := by
  rw [rootArgument, List.getLast?_eq_head?_reverse, ← List.filter_reverse, List.head?_filter,
    List.find?_eq_some_iff_append]
  constructor
  · rintro ⟨isRoot, back, front, parts, none⟩
    have whole := congrArg List.reverse parts
    rw [List.reverse_reverse, List.reverse_append, List.reverse_cons, List.append_assoc,
      List.singleton_append] at whole
    refine ⟨front.reverse, back.reverse, whole, isRoot, fun word member => ?_⟩
    simpa using none word (List.mem_reverse.mp member)
  · rintro ⟨front, back, parts, isRoot, none⟩
    refine ⟨isRoot, back.reverse, front.reverse, ?_, fun word member => ?_⟩
    · rw [parts, List.reverse_append, List.reverse_cons, List.append_assoc, List.singleton_append]
    · rw [none word (List.mem_reverse.mp member)]
      rfl

/-- The last root argument from a root argument on names a release. -/
theorem lastRoot_iff {argument after release : List Char} :
    NamesRelease ((rootArgument after).getD argument) release ↔
      (NoRoot (splitWords after) ∧ NamesRelease argument release) ∨
        ∃ front word back, splitWords after = front ++ word :: back ∧ NamesRelease word release ∧
          NoRoot back := by
  cases last : rootArgument after with
  | none =>
      have none := rootArgument_eq_none.mp last
      rw [Option.getD_none, and_iff_right none]
      refine ⟨.inl, fun either => either.resolve_right ?_⟩
      rintro ⟨front, word, back, parts, names, -⟩
      have apart := none word (parts ▸ List.mem_append_right _ List.mem_cons_self)
      rw [names.isRoot] at apart
      cases apart
  | some word =>
      rw [Option.getD_some]
      obtain ⟨front, back, parts, isRoot, none⟩ := rootArgument_eq_some.mp last
      constructor
      · exact fun names => .inr ⟨front, word, back, parts, names, none⟩
      · rintro (⟨noRoot, -⟩ | ⟨front', word', back', parts', names, none'⟩)
        · rw [rootArgument_eq_none.mpr noRoot] at last
          cases last
        · rw [rootArgument_eq_some.mpr ⟨front', back', parts', names.isRoot, none'⟩] at last
          rwa [← Option.some.inj last]

end HomeclusterInfra.Tftp
