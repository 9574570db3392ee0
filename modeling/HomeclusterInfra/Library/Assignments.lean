import HomeclusterInfra.Library.Lines
import HomeclusterInfra.Library.Shell
import Mathlib.Data.List.Nodup
import Mathlib.Data.List.Perm.Subperm

/-!
# Assignments

A text of lines that give keys their values, and a reader that knows the keys. The reader
returns what was printed, whatever it accepts: a value that breaks its line makes a line too many
or repeats a key.
-/

set_option autoImplicit false

namespace HomeclusterInfra.Assignments

open Text Shell

/-- A key and its value. -/
abbrev Entry : Type :=
  List Char × List Char

/-- A line that gives a key its value. -/
def assignment (entry : Entry) : List Char :=
  entry.1 ++ '=' :: entry.2

def print (entries : List Entry) : List Char :=
  unlines (entries.map assignment)

/-! ## The reader -/

section Reader

variable (fields : List (List Char)) (accepts : List Char → Bool)

/-- `line.split("=", 1)` -/
def split (line : List Char) : Entry :=
  (beforeFirst '=' line, afterFirst '=' line)

/-- The lines are taken one after another. A line without `=` is refused, and one whose key is
unknown or was seen, or whose value is not accepted. -/
def readLines : List (List Char) → List Entry → Option (List Entry)
  | [], parsed => some parsed
  | line :: lines, parsed =>
      if '=' ∉ line then none
      else if (split line).1 ∉ fields ∨ (split line).1 ∈ parsed.map Prod.fst ∨
          accepts (split line).2 = false then none
      else readLines lines (parsed ++ [split line])

/-- All keys are to be there. -/
def read (text : List Char) : Option (List Entry) :=
  (readLines fields accepts (splitlines text) []).filter fun parsed =>
    fields.all fun key => (parsed.map Prod.fst).contains key

end Reader

variable {fields : List (List Char)} {accepts : List Char → Bool} {text line : List Char}
  {lines : List (List Char)} {entry : Entry} {entries parsed seen : List Entry}

/-! ## What is read -/

theorem split_assignment (plain : '=' ∉ entry.1) : split (assignment entry) = entry := by
  rw [split, assignment, beforeFirst_append plain, afterFirst_append plain]

theorem assignment_split (marked : '=' ∈ line) : assignment (split line) = line := by
  rw [assignment, split, beforeFirst, afterFirst, if_pos marked]
  induction line with
  | nil => cases marked
  | cons char line ih =>
      by_cases mark : char = '='
      · rw [mark]
        rfl
      · have later : '=' ∈ line := (List.mem_cons.mp marked).resolve_left (Ne.symm mark)
        rw [List.takeWhile_cons_of_pos (by simpa using mark),
          List.dropWhile_cons_of_pos (by simpa using mark)]
        exact congrArg (char :: ·) (ih later)

theorem notMem_split (line : List Char) : '=' ∉ (split line).1 := by
  intro inside
  simpa using List.mem_takeWhile_imp inside

theorem mem_assignment (entry : Entry) : '=' ∈ assignment entry :=
  List.mem_append_right _ List.mem_cons_self

/-- What is known of entries that were read. -/
structure Admitted (fields : List (List Char)) (accepts : List Char → Bool)
    (entries : List Entry) : Prop where
  plain : ∀ entry ∈ entries, '=' ∉ entry.1
  known : ∀ entry ∈ entries, entry.1 ∈ fields
  distinct : (entries.map Prod.fst).Nodup
  accepted : ∀ entry ∈ entries, accepts entry.2 = true

theorem readLines_eq_some (admitted : Admitted fields accepts seen) :
    readLines fields accepts lines seen = some parsed ↔
      ∃ entries, parsed = seen ++ entries ∧ lines = entries.map assignment ∧
        Admitted fields accepts parsed := by
  induction lines generalizing seen with
  | nil =>
      rw [readLines]
      constructor
      · intro same
        cases same
        exact ⟨[], (List.append_nil _).symm, rfl, admitted⟩
      · rintro ⟨entries, rfl, none_left, -⟩
        rw [List.map_eq_nil_iff.mp none_left.symm, List.append_nil]
  | cons line lines ih =>
      rw [readLines]
      constructor
      · intro taken
        split at taken
        next => cases taken
        next marked =>
          rw [not_not] at marked
          split at taken
          next => cases taken
          next fits =>
            rw [not_or, not_or, not_not, Bool.not_eq_false] at fits
            obtain ⟨known, fresh, accepted⟩ := fits
            have more : Admitted fields accepts (seen ++ [split line]) := by
              refine ⟨?_, ?_, ?_, ?_⟩
              · exact List.forall_mem_append.mpr ⟨admitted.plain,
                  List.forall_mem_singleton.mpr (notMem_split line)⟩
              · exact List.forall_mem_append.mpr ⟨admitted.known,
                  List.forall_mem_singleton.mpr known⟩
              · rw [List.map_append, List.map_singleton, List.nodup_append]
                refine ⟨admitted.distinct, List.nodup_singleton _, ?_⟩
                intro key member other last same
                rw [List.mem_singleton] at last
                exact fresh (last ▸ same ▸ member)
              · exact List.forall_mem_append.mpr ⟨admitted.accepted,
                  List.forall_mem_singleton.mpr accepted⟩
            obtain ⟨entries, rfl, rfl, all⟩ := (ih more).mp taken
            refine ⟨split line :: entries, List.append_assoc .., ?_, all⟩
            rw [List.map_cons, assignment_split marked]
      · rintro ⟨entries, rfl, whole, all⟩
        cases entries with
        | nil => cases whole
        | cons entry entries =>
            obtain ⟨rfl, rfl⟩ := List.cons.inj whole
            have inside : entry ∈ seen ++ entry :: entries :=
              List.mem_append_right _ List.mem_cons_self
            have same := split_assignment (all.plain entry inside)
            have front : seen ++ entry :: entries = (seen ++ [entry]) ++ entries :=
              (List.append_assoc seen [entry] entries).symm
            have earlier : ∀ other ∈ seen ++ [entry], other ∈ seen ++ entry :: entries :=
              fun other member => front ▸ List.mem_append_left _ member
            rw [if_neg (not_not_intro (mem_assignment entry)), same, if_neg]
            · refine (ih ⟨fun other member => all.plain other (earlier other member),
                fun other member => all.known other (earlier other member), ?_,
                fun other member => all.accepted other (earlier other member)⟩).mpr
                  ⟨entries, front, rfl, all⟩
              refine all.distinct.sublist (List.Sublist.map _ ?_)
              exact front ▸ List.sublist_append_left _ _
            · rw [not_or, not_or, not_not, Bool.not_eq_false]
              refine ⟨all.known entry inside, fun member => ?_, all.accepted entry inside⟩
              have distinct := all.distinct
              rw [List.map_append, List.map_cons, List.nodup_append] at distinct
              exact distinct.2.2 _ member _ List.mem_cons_self rfl

/-- **What is read are the lines of the text**, with all keys and each of them once. -/
theorem read_eq_some : read fields accepts text = some parsed ↔
    splitlines text = parsed.map assignment ∧ Admitted fields accepts parsed ∧
      ∀ key ∈ fields, key ∈ parsed.map Prod.fst := by
  have nothing : Admitted fields accepts [] :=
    ⟨fun _ member => absurd member List.not_mem_nil, fun _ member => absurd member List.not_mem_nil,
      List.nodup_nil, fun _ member => absurd member List.not_mem_nil⟩
  rw [read, Option.filter_eq_some_iff, readLines_eq_some nothing, List.all_eq_true]
  simp only [List.contains_iff_mem, List.nil_append]
  constructor
  · rintro ⟨⟨entries, rfl, whole, admitted⟩, all⟩
    exact ⟨whole, admitted, all⟩
  · rintro ⟨whole, admitted, all⟩
    exact ⟨⟨parsed, rfl, whole, admitted⟩, all⟩

/-- Entries without line breaks are read back. -/
theorem read_print (admitted : Admitted fields accepts entries)
    (all : ∀ key ∈ fields, key ∈ entries.map Prod.fst)
    (whole : ∀ entry ∈ entries, ∀ char ∈ assignment entry, isLineBreak char = false) :
    read fields accepts (print entries) = some entries := by
  refine read_eq_some.mpr ⟨?_, admitted, all⟩
  exact splitlines_unlines (List.forall_mem_map.mpr whole)

theorem length_print_le {keyLength valueLength : Nat}
    (short : ∀ entry ∈ entries, entry.1.length ≤ keyLength ∧ entry.2.length ≤ valueLength) :
    (print entries).length ≤ entries.length * (keyLength + valueLength + 2) := by
  induction entries with
  | nil => exact Nat.zero_le _
  | cons entry entries ih =>
      obtain ⟨⟨key, value⟩, rest⟩ := List.forall_mem_cons.mp short
      have others := ih rest
      rw [print, unlines] at others
      rw [print, unlines, List.map_cons, List.flatMap_cons, List.length_append, List.length_append,
        assignment, List.length_append, List.length_cons, List.length_singleton, List.length_cons,
        Nat.succ_mul]
      omega

/-- Of entries without line breaks, some of which may be missing, all are read or none. -/
theorem eq_of_read_sublist {written : List Entry} (sublist : written.Sublist entries)
    (plain : ∀ entry ∈ entries, '=' ∉ entry.1)
    (whole : ∀ entry ∈ entries, ∀ char ∈ assignment entry, isLineBreak char = false)
    (distinct : fields.Nodup) (count : entries.length ≤ fields.length)
    (accepted : read fields accepts (print written) = some parsed) :
    written = entries ∧ parsed = entries := by
  obtain ⟨lines, admitted, all⟩ := read_eq_some.mp accepted
  rw [print, splitlines_unlines] at lines
  · have same : written = parsed := by
      have splits := congrArg (List.map split) lines
      rw [List.map_map, List.map_map, List.map_congr_left, List.map_id, List.map_congr_left,
        List.map_id] at splits
      · exact splits
      · exact fun entry member => split_assignment (admitted.plain entry member)
      · exact fun entry member => split_assignment (plain entry (sublist.subset member))
    have enough : fields.length ≤ parsed.length := by
      rw [← @List.length_map _ _ parsed Prod.fst]
      exact (List.subperm_of_subset distinct all).length_le
    have whole := sublist.eq_of_length_le (count.trans (same ▸ enough))
    exact ⟨whole, same.symm.trans whole⟩
  · exact List.forall_mem_map.mpr fun entry member => whole entry (sublist.subset member)

/-! ## Values that break their lines -/

theorem splitlinesFrom_newline (before rest : List Char) :
    splitlinesFrom before ('\n' :: rest) = before.reverse :: splitlinesFrom [] rest := by
  rw [splitlinesFrom]
  · rfl
  · intro _ same
    cases same

theorem splitlinesFrom_break {char : Char} (broken : isLineBreak char = true)
    (before : List Char) (alone : ∀ rest, char = '\r' → text = '\n' :: rest → False) :
    splitlinesFrom before (char :: text) = before.reverse :: splitlinesFrom [] text := by
  rw [splitlinesFrom, if_pos broken]
  exact alone

theorem splitlinesFrom_inside {char : Char} (inside : ¬ isLineBreak char = true)
    (before : List Char) :
    splitlinesFrom before (char :: text) = splitlinesFrom (char :: before) text := by
  rw [splitlinesFrom, if_neg inside]
  rintro rest rfl
  exact absurd (by decide) inside

/-- A line feed ends a line, whatever stands before it. -/
theorem splitlinesFrom_append (before text rest : List Char) :
    splitlinesFrom before (text ++ '\n' :: rest) =
      splitlinesFrom before (text ++ ['\n']) ++ splitlinesFrom [] rest := by
  induction before, text using splitlinesFrom.induct with
  | case1 before _ | case2 before _ =>
      rw [List.nil_append, List.nil_append, splitlinesFrom_newline, splitlinesFrom_newline]
      rfl
  | case3 before text ih =>
      rw [List.cons_append, List.cons_append, List.cons_append, List.cons_append, splitlinesFrom,
        splitlinesFrom, ih]
      rfl
  | case4 before char text alone broken ih =>
      by_cases last : char = '\r' ∧ text = []
      · obtain ⟨rfl, rfl⟩ := last
        rw [List.cons_append, List.nil_append, List.cons_append, List.nil_append, splitlinesFrom,
          splitlinesFrom]
        rfl
      · have apart : ∀ more rest, char = '\r' → text ++ '\n' :: more = '\n' :: rest → False := by
          intro more rest own same
          cases text with
          | nil => exact last ⟨own, rfl⟩
          | cons next text => exact alone text own (congrArg (· :: text) (List.cons.inj same).1)
        rw [List.cons_append, List.cons_append, splitlinesFrom_break broken before (apart rest),
          splitlinesFrom_break broken before (apart []), ih]
        rfl
  | case5 before char text _ inside ih =>
      rw [List.cons_append, List.cons_append, splitlinesFrom_inside inside,
        splitlinesFrom_inside inside, ih]

/-- Each line falls into lines of its own. -/
theorem splitlines_unlines_flatMap (lines : List (List Char)) :
    splitlines (unlines lines) = lines.flatMap fun line => splitlines (line ++ ['\n']) := by
  induction lines with
  | nil => rfl
  | cons line lines ih =>
      rw [unlines, List.flatMap_cons, List.append_assoc, List.singleton_append, splitlines,
        splitlinesFrom_append, List.flatMap_cons]
      exact congrArg (splitlines (line ++ ['\n']) ++ ·) ih

theorem splitlinesFrom_ne_nil (before line : List Char) :
    splitlinesFrom before (line ++ ['\n']) ≠ [] := by
  induction line generalizing before with
  | nil =>
      rw [List.nil_append, splitlinesFrom_newline]
      exact List.cons_ne_nil _ _
  | cons char line ih =>
      rw [List.cons_append, splitlinesFrom.eq_def]
      split
      next same => cases same
      next => exact List.cons_ne_nil _ _
      next same =>
        split
        next => exact List.cons_ne_nil _ _
        next =>
          cases same
          exact ih _

/-- A line that stays one line is read as it is, but for a carriage return at its end. -/
theorem of_splitlinesFrom_single {before line piece : List Char}
    (single : splitlinesFrom before (line ++ ['\n']) = [piece]) :
    before.reverse ++ line = piece ∨ before.reverse ++ line = piece ++ ['\r'] := by
  induction line generalizing before with
  | nil =>
      rw [List.nil_append, splitlinesFrom_newline] at single
      left
      rw [List.append_nil]
      exact (List.cons.inj single).1
  | cons char line ih =>
      by_cases broken : isLineBreak char = true
      · by_cases last : char = '\r' ∧ line = []
        · obtain ⟨rfl, rfl⟩ := last
          rw [List.cons_append, List.nil_append, splitlinesFrom] at single
          right
          rw [(List.cons.inj single).1]
        · exfalso
          by_cases feed : ∃ more, char = '\r' ∧ line = '\n' :: more
          · obtain ⟨more, rfl, rfl⟩ := feed
            rw [List.cons_append, List.cons_append, splitlinesFrom] at single
            exact splitlinesFrom_ne_nil [] more (List.cons.inj single).2
          · have alone : ∀ rest, char = '\r' → line ++ ['\n'] = '\n' :: rest → False := by
              intro rest own same
              cases line with
              | nil => exact last ⟨own, rfl⟩
              | cons next line =>
                  exact feed ⟨line, own, congrArg (· :: line) (List.cons.inj same).1⟩
            rw [List.cons_append, splitlinesFrom_break broken before alone] at single
            exact splitlinesFrom_ne_nil [] line (List.cons.inj single).2
      · rw [List.cons_append, splitlinesFrom_inside broken] at single
        have whole := ih single
        rw [List.reverse_cons, List.append_assoc] at whole
        exact whole

/-- A value that stood in a line, as it is read. -/
def IsReadAs (value found : List Char) : Prop :=
  value = found ∨ value = found ++ ['\r']

theorem length_le_pieces (lines : List (List Char)) :
    lines.length ≤ (lines.flatMap fun line => splitlines (line ++ ['\n'])).length := by
  induction lines with
  | nil => exact Nat.le_refl 0
  | cons line lines ih =>
      have some_piece := List.length_pos_of_ne_nil (splitlinesFrom_ne_nil [] line)
      rw [List.flatMap_cons, List.length_append, List.length_cons, splitlines]
      omega

/-- Where there are as many lines as were written, each is one of them. -/
theorem forall_readAs {lines : List (List Char)}
    (count : (lines.flatMap fun line => splitlines (line ++ ['\n'])).length = lines.length) :
    List.Forall₂ IsReadAs lines (lines.flatMap fun line => splitlines (line ++ ['\n'])) := by
  induction lines with
  | nil => exact .nil
  | cons line lines ih =>
      have some_piece := List.length_pos_of_ne_nil (splitlinesFrom_ne_nil [] line)
      have others := length_le_pieces lines
      rw [List.flatMap_cons, List.length_append, List.length_cons, splitlines] at count
      obtain ⟨piece, single⟩ := List.length_eq_one_iff.mp
        (show (splitlinesFrom [] (line ++ ['\n'])).length = 1 by omega)
      rw [List.flatMap_cons, splitlines, single]
      exact .cons (of_splitlinesFrom_single single) (ih (by omega))

theorem isReadAs_of_assignment {found : Entry} (plain : '=' ∉ entry.1) (plainFound : '=' ∉ found.1)
    (whole : IsReadAs (assignment entry) (assignment found)) :
    entry.1 = found.1 ∧ IsReadAs entry.2 found.2 := by
  have same := split_assignment plain
  rcases whole with whole | whole
  · rw [whole, split_assignment plainFound] at same
    rw [← same]
    exact ⟨rfl, Or.inl rfl⟩
  · have longer : assignment found ++ ['\r'] = assignment (found.1, found.2 ++ ['\r']) := by
      rw [assignment, assignment, List.append_assoc, List.cons_append]
    rw [whole, longer, @split_assignment (found.1, found.2 ++ ['\r']) plainFound] at same
    rw [← same]
    exact ⟨rfl, Or.inr rfl⟩

theorem lookup_of_forall₂ (distinct : (entries.map Prod.fst).Nodup)
    (each : List.Forall₂ (fun entry found => entry.1 = found.1 ∧ IsReadAs entry.2 found.2)
      entries parsed) :
    ∀ entry ∈ entries, ∃ found, parsed.lookup entry.1 = some found ∧ IsReadAs entry.2 found := by
  induction each with
  | nil => exact fun _ member => absurd member List.not_mem_nil
  | @cons first found entries parsed same rest ih =>
      obtain ⟨key, value⟩ := found
      obtain ⟨rfl, readAs⟩ := same
      rw [List.map_cons, List.nodup_cons] at distinct
      refine List.forall_mem_cons.mpr ⟨⟨value, List.lookup_cons_self, readAs⟩, ?_⟩
      intro entry member
      have other : (entry.1 == first.1) = false :=
        beq_false_of_ne fun same => distinct.1 (same ▸ List.mem_map_of_mem member)
      rw [List.lookup_cons, other]
      exact ih distinct.2 entry member

/-- **What is accepted was printed.** Where each key has a line of its own, no value can add one
that is read. -/
theorem printed_of_read (keys : (entries.map Prod.fst).Perm fields) (distinct : fields.Nodup)
    (plain : ∀ entry ∈ entries, '=' ∉ entry.1)
    (accepted : read fields accepts (print entries) = some parsed) :
    ∀ entry ∈ entries, ∃ found, parsed.lookup entry.1 = some found ∧ IsReadAs entry.2 found := by
  obtain ⟨whole, admitted, all⟩ := read_eq_some.mp accepted
  have sameKeys : (parsed.map Prod.fst).Perm fields :=
    (List.perm_ext_iff_of_nodup admitted.distinct distinct).mpr fun key =>
      ⟨fun member => by
        obtain ⟨entry, among, rfl⟩ := List.mem_map.mp member
        exact admitted.known entry among, all key⟩
  have count : parsed.length = entries.length := by
    rw [← @List.length_map _ _ parsed Prod.fst, ← @List.length_map _ _ entries Prod.fst]
    exact (sameKeys.trans keys.symm).length_eq
  rw [print, splitlines_unlines_flatMap] at whole
  have each := @forall_readAs (entries.map assignment) (by
    rw [whole, List.length_map, List.length_map, count])
  rw [whole, List.forall₂_map_left_iff, List.forall₂_map_right_iff] at each
  refine lookup_of_forall₂ (keys.symm.nodup distinct) ?_
  refine (List.forall₂_iff_zip.mp each).elim fun lengths pairs =>
    List.forall₂_iff_zip.mpr ⟨lengths, fun member => ?_⟩
  exact isReadAs_of_assignment (plain _ (List.of_mem_zip member).1)
    (admitted.plain _ (List.of_mem_zip member).2) (pairs member)

end HomeclusterInfra.Assignments
