import HomeclusterInfra.NasLogs.Rotation

/-!
# Polls of a growing file

A file that only grows is polled again and again, each poll beginning at the
cursor of the one before. Whatever the moments of the polls, the records are the
bytes from the first cursor to the last, no cursor stands behind an unfinished
line, and lines that are not grouped are cut as one reading of the whole file
would cut them. Grouping depends on the moments, but a record that is not the
first of its poll begins with its header, and no header is inside a record.
-/

set_option autoImplicit false

namespace HomeclusterInfra.NasLogs

open Text Checked Pieces

/-! ## Lines -/

section Lines

/-- A line with its line feed. -/
def IsLine (line : List UInt8) : Prop :=
  ∃ part, lineFeed ∉ part ∧ line = part ++ [lineFeed]

theorem splitOn_notMem {data : List UInt8} (unfinished : lineFeed ∉ data) :
    data.splitOn lineFeed = [data] :=
  List.splitOnP_eq_singleton fun byte member => by
    rw [beq_eq_false_iff_ne]
    rintro rfl
    exact unfinished member

theorem splitOn_line {part rest : List UInt8} (whole : lineFeed ∉ part) :
    (part ++ lineFeed :: rest).splitOn lineFeed = part :: rest.splitOn lineFeed :=
  List.splitOnP_append_cons_of_forall_mem (fun byte member => by
    rw [beq_eq_false_iff_ne]
    rintro rfl
    exact whole member) lineFeed (by decide) rest

/-- The line feed terminated lines of a text. -/
def rawLines (data : List UInt8) : List (List UInt8) :=
  (data.splitOn lineFeed).dropLast.map (· ++ [lineFeed])

theorem rawLines_line {line rest : List UInt8} (whole : IsLine line) :
    rawLines (line ++ rest) = line :: rawLines rest := by
  obtain ⟨part, finished, rfl⟩ := whole
  rw [rawLines, List.append_assoc, List.singleton_append, splitOn_line finished,
    List.dropLast_cons_of_ne_nil (List.splitOn_ne_nil _ _)]
  rfl

/-- Lines that are put together are the lines of the text. -/
theorem rawLines_flatten {lines : List (List UInt8)} (whole : ∀ line ∈ lines, IsLine line) :
    rawLines lines.flatten = lines := by
  induction lines with
  | nil => rfl
  | cons line lines ih =>
      rw [List.forall_mem_cons] at whole
      rw [List.flatten_cons, rawLines_line whole.1, ih whole.2]

variable {data longer : List UInt8} {offset : Nat}

theorem wholeLines_of_notMem (unfinished : lineFeed ∉ data.drop offset) :
    wholeLines data offset = [] := by
  rw [wholeLines, splitOn_notMem unfinished]
  rfl

theorem wholeLines_of_line {part rest : List UInt8} (whole : lineFeed ∉ part)
    (split : data.drop offset = part ++ lineFeed :: rest) :
    wholeLines data offset =
      (part ++ [lineFeed], offset + (part.length + 1)) ::
        wholeLines data (offset + (part.length + 1)) := by
  have later : data.drop (offset + (part.length + 1)) = rest := by
    rw [← List.drop_drop, split, List.append_cons]
    exact List.drop_left' (by rw [List.length_append, List.length_singleton])
  rw [wholeLines, split, splitOn_line whole,
    List.dropLast_cons_of_ne_nil (List.splitOn_ne_nil _ _), terminatedLines, wholeLines, later,
    List.length_append, List.length_singleton]

/-- A text has a first line or none. -/
theorem line_or_notMem (text : List UInt8) : lineFeed ∉ text ∨
    ∃ part rest, lineFeed ∉ part ∧ text = part ++ lineFeed :: rest := by
  by_cases member : lineFeed ∈ text
  · obtain ⟨part, rest, same, whole⟩ := List.eq_append_cons_of_mem member
    exact .inr ⟨part, rest, whole, same⟩
  · exact .inl member

/-- The rest becomes shorter with each line. -/
theorem length_drop_lt {part rest : List UInt8}
    (split : data.drop offset = part ++ lineFeed :: rest) :
    data.length - (offset + (part.length + 1)) < data.length - offset := by
  have length := congrArg List.length split
  rw [List.length_drop, List.length_append, List.length_cons] at length
  omega

/-- **Lines of a file are lines of the longer file**, which goes on where they end. -/
theorem wholeLines_grown (grows : data <+: longer) :
    wholeLines longer offset = wholeLines data offset ++
      wholeLines longer (stopAfter offset (wholeLines data offset)) := by
  obtain ⟨more, rfl⟩ := grows
  induction size : data.length - offset using Nat.strong_induction_on generalizing offset with
  | _ size ih =>
      rcases line_or_notMem (data.drop offset) with unfinished | ⟨part, rest, whole, split⟩
      · rw [wholeLines_of_notMem unfinished, List.nil_append, stopAfter_nil]
      · have shorter := length_drop_lt split
        have inside : offset ≤ data.length := by omega
        have longerSplit : (data ++ more).drop offset = part ++ lineFeed :: (rest ++ more) := by
          rw [List.drop_append_of_le_length inside, split, List.append_assoc, List.cons_append]
        rw [wholeLines_of_line whole split, wholeLines_of_line whole longerSplit, stopAfter_cons,
          List.cons_append]
        exact congrArg _ (ih _ (size ▸ shorter) rfl)

theorem isLine_of_mem_wholeLines {piece : List UInt8 × Nat}
    (member : piece ∈ wholeLines data offset) : IsLine piece.1 := by
  induction size : data.length - offset using Nat.strong_induction_on generalizing offset with
  | _ size ih =>
      rcases line_or_notMem (data.drop offset) with unfinished | ⟨part, rest, whole, split⟩
      · rw [wholeLines_of_notMem unfinished] at member
        cases member
      · rw [wholeLines_of_line whole split] at member
        rcases List.mem_cons.mp member with rfl | later
        · exact ⟨part, whole, rfl⟩
        · exact ih _ (size ▸ length_drop_lt split) later rfl

end Lines

/-! ## Groups -/

section Groups

variable {kind : Kind}

/-- A group is made of lines, and of these only the first may be a header. -/
def Shaped (kind : Kind) (group : Group) : Prop :=
  ∃ line more, group.raw = (line :: more).flatten ∧ (∀ part ∈ line :: more, IsLine part) ∧
    group.header = isHeader kind line ∧ ∀ part ∈ more, isHeader kind part = false

/-- The groups are shaped, and all but the earliest begin with a header. -/
structure Grouping (kind : Kind) (groups : List Group) : Prop where
  shaped : ∀ group ∈ groups, Shaped kind group
  headed : kind.grouped = true → ∀ group ∈ groups.dropLast, group.header = true

theorem Grouping.cons {groups : List Group} {group : Group} (grouping : Grouping kind groups)
    (shaped : Shaped kind group)
    (begins : kind.grouped = true → groups ≠ [] → group.header = true) :
    Grouping kind (group :: groups) where
  shaped := List.forall_mem_cons.mpr ⟨shaped, grouping.shaped⟩
  headed grouped := by
    cases groups with
    | nil =>
        intro other member
        cases member
    | cons next groups =>
        rw [List.dropLast_cons_of_ne_nil (List.cons_ne_nil _ _)]
        exact List.forall_mem_cons.mpr
          ⟨begins grouped (List.cons_ne_nil _ _), grouping.headed grouped⟩

/-- The last group can be replaced by one that begins alike. -/
theorem Grouping.replace {groups : List Group} {old group : Group}
    (grouping : Grouping kind (old :: groups)) (shaped : Shaped kind group)
    (same : group.header = old.header) : Grouping kind (group :: groups) where
  shaped := List.forall_mem_cons.mpr ⟨shaped, (List.forall_mem_cons.mp grouping.shaped).2⟩
  headed grouped := by
    have headed := grouping.headed grouped
    cases groups with
    | nil =>
        intro other member
        cases member
    | cons next groups =>
        rw [List.dropLast_cons_of_ne_nil (List.cons_ne_nil _ _)] at headed ⊢
        rw [List.forall_mem_cons] at headed ⊢
        exact ⟨same.trans headed.1, headed.2⟩

theorem Grouping.addLine {groups : List Group} {line : List UInt8 × Nat}
    (grouping : Grouping kind groups) (whole : IsLine line.1) :
    Grouping kind (addLine kind groups line) := by
  have single : Shaped kind ⟨line.1, line.2, isHeader kind line.1, 1⟩ :=
    ⟨line.1, [], by simp, by simpa using whole, rfl, fun _ none => absurd none List.not_mem_nil⟩
  unfold NasLogs.addLine
  split
  next last earlier _ plain =>
      obtain ⟨first, more, raw, lines, header, others⟩ := grouping.shaped last List.mem_cons_self
      refine grouping.replace ⟨first, more ++ [line.1], ?_, ?_, header, ?_⟩ rfl
      · show last.raw ++ line.1 = _
        rw [raw, ← List.cons_append, List.flatten_append, List.flatten_singleton]
      · rw [← List.cons_append]
        exact List.forall_mem_append.mpr ⟨lines, List.forall_mem_singleton.mpr whole⟩
      · exact List.forall_mem_append.mpr ⟨others, List.forall_mem_singleton.mpr plain⟩
  next other =>
      refine grouping.cons single fun grouped nonempty => ?_
      cases header : isHeader kind line.1 with
      | true => rfl
      | false =>
          obtain ⟨last, earlier, same⟩ := List.exists_cons_of_ne_nil nonempty
          exact (other last earlier grouped header same).elim

theorem grouping_lines {lines : Cutting UInt8} (whole : ∀ line ∈ lines, IsLine line.1) :
    Grouping kind (lines.foldl (addLine kind) []) := by
  have begins : Grouping kind [] :=
    ⟨fun _ none => absurd none List.not_mem_nil, fun _ _ none => absurd none List.not_mem_nil⟩
  generalize [] = groups at begins
  induction lines generalizing groups with
  | nil => exact begins
  | cons line lines ih =>
      rw [List.forall_mem_cons] at whole
      exact ih whole.2 _ (begins.addLine whole.1)

theorem Grouping.tail {group : Group} {groups : List Group}
    (grouping : Grouping kind (group :: groups)) : Grouping kind groups where
  shaped := (List.forall_mem_cons.mp grouping.shaped).2
  headed grouped := by
    have headed := grouping.headed grouped
    cases groups with
    | nil =>
        intro other member
        cases member
    | cons next groups =>
        rw [List.dropLast_cons_of_ne_nil (List.cons_ne_nil _ _)] at headed
        exact (List.forall_mem_cons.mp headed).2

theorem Grouping.dropLoneHeader {groups : List Group} (grouping : Grouping kind groups)
    (waits : Bool) : Grouping kind (dropLoneHeader waits groups) := by
  cases groups with
  | nil => exact grouping
  | cons last earlier =>
      rw [NasLogs.dropLoneHeader]
      split
      · exact grouping.tail
      · exact grouping

end Groups

/-! ## Records of one poll -/

section OnePoll

variable {kind : Kind} {data : List UInt8} {offset : Nat} {seenSize : Int}

theorem grouping_kept : Grouping kind (dropLoneHeader (!false && seenSize ≠ data.length)
    ((linesAfter data offset false).foldl (addLine kind) [])) := by
  refine (grouping_lines fun line member => ?_).dropLoneHeader _
  rw [linesAfter_eq, Bool.false_and, if_neg Bool.false_ne_true] at member
  exact isLine_of_mem_wholeLines member

/-- Every record is made of lines of which only the first may be a header. -/
theorem shaped_of_mem_completedRecords {piece : List UInt8 × Nat}
    (member : piece ∈ completedRecords data offset kind seenSize false) :
    ∃ line more, piece.1 = (line :: more).flatten ∧ (∀ part ∈ line :: more, IsLine part) ∧
      ∀ part ∈ more, isHeader kind part = false := by
  obtain ⟨group, kept, rfl⟩ := List.mem_map.mp member
  obtain ⟨line, more, raw, lines, -, others⟩ :=
    grouping_kept.shaped group (List.mem_reverse.mp kept)
  exact ⟨line, more, raw, lines, others⟩

/-- A record ends with a line feed. -/
theorem getLast?_of_mem_completedRecords {piece : List UInt8 × Nat}
    (member : piece ∈ completedRecords data offset kind seenSize false) :
    piece.1.getLast? = some lineFeed := by
  obtain ⟨line, more, raw, lines, -⟩ := shaped_of_mem_completedRecords member
  obtain ⟨part, -, last⟩ := lines _ (List.getLast_mem (List.cons_ne_nil line more))
  rw [raw, ← List.dropLast_append_getLast (List.cons_ne_nil line more), List.flatten_append,
    List.flatten_singleton, last, ← List.append_assoc, List.getLast?_concat]

/-- No header is inside a record. -/
theorem rawLines_tail_of_mem {piece : List UInt8 × Nat}
    (member : piece ∈ completedRecords data offset kind seenSize false) :
    (rawLines piece.1).flatten = piece.1 ∧
      ∀ part ∈ (rawLines piece.1).tail, isHeader kind part = false := by
  obtain ⟨line, more, raw, lines, others⟩ := shaped_of_mem_completedRecords member
  rw [raw, rawLines_flatten lines]
  exact ⟨rfl, others⟩

/-- A record that is not the first of its poll begins with a header. -/
theorem isHeader_of_mem_tail (grouped : kind.grouped = true) {piece : List UInt8 × Nat}
    (member : piece ∈ (completedRecords data offset kind seenSize false).tail) :
    ∃ line, (rawLines piece.1).head? = some line ∧ isHeader kind line = true := by
  rw [completedRecords, ← List.map_tail, List.tail_reverse] at member
  obtain ⟨group, kept, rfl⟩ := List.mem_map.mp member
  have later := List.mem_reverse.mp kept
  obtain ⟨line, more, raw, lines, header, -⟩ :=
    grouping_kept.shaped group (List.dropLast_subset _ later)
  refine ⟨line, ?_, ?_⟩
  · show (rawLines group.raw).head? = _
    rw [raw, rawLines_flatten lines]
    rfl
  · rw [← header]
    exact grouping_kept.headed grouped group later

/-- Lines that are not grouped are records. -/
theorem completedRecords_ungrouped (ungrouped : kind.grouped = false) :
    completedRecords data offset kind seenSize false = wholeLines data offset := by
  have noHeader (line : List UInt8) : isHeader kind line = false := by
    rw [Kind.grouped, Bool.or_eq_false_iff, decide_eq_false_iff_not] at ungrouped
    rw [isHeader, ungrouped.1, if_neg Bool.false_ne_true, if_neg ungrouped.2]
  have added (groups : List Group) (line : List UInt8 × Nat) :
      addLine kind groups line = ⟨line.1, line.2, false, 1⟩ :: groups := by
    unfold addLine
    rw [ungrouped, noHeader]
  have folded (lines : Cutting UInt8) (groups : List Group) :
      lines.foldl (addLine kind) groups =
        (lines.map fun line => ⟨line.1, line.2, false, 1⟩).reverse ++ groups := by
    induction lines generalizing groups with
    | nil => rfl
    | cons line lines ih =>
        rw [List.foldl_cons, added, ih, List.map_cons, List.reverse_cons, List.append_assoc]
        rfl
  have kept (waits : Bool) (lines : Cutting UInt8) :
      dropLoneHeader waits (lines.map fun line => (⟨line.1, line.2, false, 1⟩ : Group)).reverse =
        (lines.map fun line => (⟨line.1, line.2, false, 1⟩ : Group)).reverse := by
    rcases List.eq_nil_or_concat lines with rfl | ⟨front, last, rfl⟩
    · rfl
    · rw [List.concat_eq_append, List.map_append, List.reverse_append]
      rfl
  rw [completedRecords, linesAfter_eq, Bool.false_and, if_neg Bool.false_ne_true, folded,
    List.append_nil]
  rw [kept, List.reverse_reverse, List.map_map]
  exact List.map_id _

end OnePoll

/-! ## The last line feed -/

section LastLine

variable {data longer : List UInt8} {offset : Nat}

/-- The position behind the last line feed. -/
def lastLineEnd (data : List UInt8) : Nat :=
  (data.reverse.dropWhile (· ≠ lineFeed)).length

/-- The position is the beginning or stands behind a line feed. -/
def AtLine (data : List UInt8) (offset : Nat) : Prop :=
  offset = 0 ∨ (data.take offset).getLast? = some lineFeed

theorem length_dropWhile_append {α : Type} (drops : α → Bool) (first last : List α) :
    (last.dropWhile drops).length ≤ ((first ++ last).dropWhile drops).length := by
  induction first with
  | nil => exact Nat.le_refl _
  | cons item first ih =>
      rw [List.cons_append]
      by_cases dropped : drops item = true
      · rwa [List.dropWhile_cons_of_pos dropped]
      · have short := (List.dropWhile_sublist drops (l := last)).length_le
        rw [List.dropWhile_cons_of_neg dropped, List.length_cons, List.length_append]
        omega

theorem AtLine.le_lastLineEnd (atLine : AtLine data offset) (inside : offset ≤ data.length) :
    offset ≤ lastLineEnd data := by
  rcases atLine with rfl | last
  · exact Nat.zero_le _
  · have whole := length_dropWhile_append (· ≠ lineFeed) (data.drop offset).reverse
      (data.take offset).reverse
    rw [← List.reverse_append, List.take_append_drop] at whole
    have stays : (data.take offset).reverse.dropWhile (· ≠ lineFeed) =
        (data.take offset).reverse := by
      rw [← List.head?_reverse] at last
      obtain ⟨rest, same⟩ := List.head?_eq_some_iff.mp last
      rw [same, List.dropWhile_cons_of_neg (by simp)]
    rw [stays, List.length_reverse, List.length_take, Nat.min_eq_left inside] at whole
    exact whole

theorem AtLine.grown (atLine : AtLine data offset) (inside : offset ≤ data.length)
    (grows : data <+: longer) : AtLine longer offset := by
  obtain ⟨more, rfl⟩ := grows
  rw [AtLine, List.take_append_of_le_length inside]
  exact atLine

/-- A poll stops behind a line. -/
theorem AtLine.after_records {kind : Kind} {seenSize : Int} (atLine : AtLine data offset) :
    AtLine data (stopAfter offset (completedRecords data offset kind seenSize false)) := by
  have reads := reads_completedRecords data offset kind seenSize false
  rcases List.eq_nil_or_concat (completedRecords data offset kind seenSize false) with
    none | ⟨front, last, split⟩
  · rw [none]
    exact atLine
  · right
    have member : last ∈ completedRecords data offset kind seenSize false := by
      rw [split, List.concat_eq_append]
      exact List.mem_append_right _ (List.mem_singleton.mpr rfl)
    have ends := getLast?_of_mem_completedRecords member
    have nonempty : last.1 ≠ [] := by
      intro none
      rw [none] at ends
      cases ends
    have taken : data.take (stopAfter offset (completedRecords data offset kind seenSize false)) =
        data.take offset ++ text (completedRecords data offset kind seenSize false) := by
      have split := List.take_add (l := data) (i := offset)
        (j := stopAfter offset (completedRecords data offset kind seenSize false) - offset)
      rw [Nat.add_sub_cancel' reads.start_le] at split
      rw [split, reads.text_eq]
    rw [taken, split, List.concat_eq_append, text_append, text_cons, text_nil, List.append_nil,
      ← List.append_assoc, List.getLast?_append_of_ne_nil _ nonempty]
    exact ends

end LastLine

/-! ## Polls of one file -/

section Polls

variable [UnicodeData] {digest : List UInt8 → String} {kind : Kind}

/-- What a poll finds in the current file. -/
def Poll.content (poll : Poll digest) (kind : Kind) : List UInt8 :=
  (poll.snapshot.current kind).data

/-- The offset at which a poll leaves the cursor. -/
def Poll.stop (poll : Poll digest) (kind : Kind) : Nat :=
  currentStop digest poll.state poll.snapshot kind

/-- The records of a kind that a poll takes. -/
def Poll.taken (poll : Poll digest) (kind : Kind) : List (List UInt8) :=
  (kindRecords digest poll.state poll.snapshot kind).map Handled.raw

/-- A poll with the cursor of the one before, of the same file, which has grown. No
other generation is the same file. -/
structure Follows (kind : Kind) (before after : Poll digest) : Prop where
  carried : after.state.cursors kind = before.outbox.next.cursors kind
  identity : (after.snapshot.current kind).id = (before.snapshot.current kind).id
  alone : ∀ gen file, gen ≠ .current → after.snapshot.file kind gen = some file →
    file.id ≠ (after.snapshot.current kind).id
  grows : before.content kind <+: after.content kind

namespace Follows

variable {before after : Poll digest} (follows : Follows kind before after)

include follows

theorem cursor : after.state.cursors kind =
    some (cursorAt digest (before.snapshot.current kind) (before.stop kind)) :=
  follows.carried.trans (before.spec.cursors kind)

theorem matchesPrefix : matchesPrefix digest (after.snapshot.current kind)
    (cursorAt digest (before.snapshot.current kind) (before.stop kind)) = true := by
  have inside : before.stop kind ≤ (before.snapshot.current kind).data.length :=
    currentStop_le digest before.state before.snapshot kind
  obtain ⟨more, whole⟩ := follows.grows
  have whole : (before.snapshot.current kind).data ++ more =
      (after.snapshot.current kind).data := whole
  have length := congrArg List.length whole
  rw [List.length_append] at length
  rw [NasLogs.matchesPrefix, cursorAt, ← whole, List.take_append_of_le_length inside,
    List.length_append, beq_self_eq_true, Bool.and_true, decide_eq_true_eq]
  exact inside.trans (Nat.le_add_right _ _)

/-- **The poll goes on in the current file**, at the cursor of the one before. -/
theorem work : work digest after.snapshot kind (after.state.cursors kind) =
    (false, [(.current, after.snapshot.current kind, before.stop kind)]) := by
  rw [follows.cursor]
  rcases work_some digest after.snapshot kind
      (cursorAt digest (before.snapshot.current kind) (before.stop kind)) with
    ⟨-, unmatched⟩ | ⟨older, item, newer, whole, resumes, reading⟩
  · have member : (Gen.current, after.snapshot.current kind) ∈
        chronological after.snapshot kind := by
      rw [chronological_eq]
      exact List.mem_append_right _ (List.mem_singleton.mpr rfl)
    have none := unmatched _ member
    rw [follows.matchesPrefix] at none
    cases none
  · rw [chronological_eq] at whole resumes
    have same : item.2.id = (after.snapshot.current kind).id := by
      cases resumes with
      | byIdentity identity _ => exact identity.trans follows.identity.symm
      | byPrefix unidentified _ _ =>
          have none := unidentified (after.snapshot.current kind) (by simp) follows.identity
          rw [follows.matchesPrefix] at none
          cases none
    rcases List.eq_nil_or_concat newer with rfl | ⟨middle, last, rfl⟩
    · obtain ⟨-, last⟩ := List.append_inj' whole rfl
      obtain rfl : (Gen.current, after.snapshot.current kind) = item := List.singleton_inj.mp last
      rw [reading]
      rfl
    · rw [List.concat_eq_append, ← List.cons_append, ← List.append_assoc] at whole
      obtain ⟨rotated, -⟩ := List.append_inj' whole rfl
      have member : item ∈ rotatedFiles after.snapshot kind := by
        rw [rotated]
        exact List.mem_append_right _ List.mem_cons_self
      have rotatedGen := rotatedFiles_ne_current _ _ member
      rw [rotatedFiles, List.mem_filterMap] at member
      obtain ⟨gen, -, found⟩ := member
      obtain ⟨file, there, rfl⟩ := Option.map_eq_some_iff.mp found
      exact absurd same (follows.alone gen file rotatedGen there)

/-- The records that the poll takes. -/
theorem taken : after.taken kind =
    (completedRecords (after.content kind) (before.stop kind) kind (before.content kind).length
      false).map Prod.fst := by
  rw [Poll.taken, kindRecords, follows.work, List.flatMap_singleton, itemRecords, List.map_map,
    follows.cursor]
  exact List.map_id _

/-- Where the poll stops. -/
theorem stop : after.stop kind = stopAfter (before.stop kind)
    (completedRecords (after.content kind) (before.stop kind) kind (before.content kind).length
      false) := by
  rw [Poll.stop, currentStop, follows.work, follows.cursor]
  rfl

end Follows

/-! ## Whole runs -/

/-- The poll that takes a first cursor, and polls that follow it. -/
structure Watch (digest : List UInt8 → String) (kind : Kind) where
  first : Poll digest
  noCursor : first.state.cursors kind = none
  polls : List (Poll digest)
  followed : List.IsChain (Follows kind) (first :: polls)

namespace Watch

variable (watch : Watch digest kind)

/-- The last poll. -/
def last : Poll digest :=
  (watch.first :: watch.polls).getLast (List.cons_ne_nil _ _)

/-- The first cursor. -/
def start : Nat :=
  watch.first.stop kind

/-- The last cursor. -/
def stop : Nat :=
  watch.last.stop kind

/-- What the file has become. -/
def content : List UInt8 :=
  watch.last.content kind

/-- The records of all polls after the first. -/
def records : List (List UInt8) :=
  watch.polls.flatMap fun poll => poll.taken kind

end Watch

theorem stop_le_content (poll : Poll digest) : poll.stop kind ≤ (poll.content kind).length :=
  currentStop_le digest poll.state poll.snapshot kind

/-- Where a poll leaves a file: behind a line, and behind all lines when they are not
grouped. -/
structure Cut (kind : Kind) (content : List UInt8) (stop : Nat) : Prop where
  atLine : AtLine content stop
  read : kind.grouped = false → wholeLines content stop = []

omit [UnicodeData] in
theorem AtLine.cut {data : List UInt8} {offset : Nat} (atLine : AtLine data offset)
    (seenSize : Int) :
    Cut kind data (stopAfter offset (completedRecords data offset kind seenSize false)) where
  atLine := atLine.after_records
  read ungrouped := by
    have twice : wholeLines data offset = wholeLines data offset ++
        wholeLines data (stopAfter offset (wholeLines data offset)) :=
      wholeLines_grown (List.prefix_refl data)
    rw [completedRecords_ungrouped ungrouped]
    exact List.self_eq_append_right.mp twice

/-- What holds from the first cursor to the last. -/
structure Covered (kind : Kind) (start : Nat) (records : List (List UInt8)) (content : List UInt8)
    (stop : Nat) : Prop where
  text : records.flatten ++ content.drop stop = content.drop start
  cut : Cut kind content stop
  lines : kind.grouped = false → records = (wholeLines content start).map Prod.fst

omit [UnicodeData] in
theorem Covered.cons {start middle stop : Nat} {records : List (List UInt8)}
    {content : List UInt8} {seenSize : Int} {data : List UInt8}
    (inside : start ≤ data.length) (grows : data <+: content)
    (isMiddle : middle = stopAfter start (completedRecords data start kind seenSize false))
    (later : Covered kind middle records content stop) :
    Covered kind start ((completedRecords data start kind seenSize false).map Prod.fst ++ records)
      content stop where
  text := by
    have reads := reads_completedRecords data start kind seenSize false
    have stops := reads.stop_le inside
    have whole := reads.text_append_drop
    obtain ⟨more, rfl⟩ := grows
    rw [← isMiddle] at stops whole
    rw [List.flatten_append, List.append_assoc, later.text,
      List.drop_append_of_le_length stops, List.drop_append_of_le_length inside, ← List.append_assoc]
    exact congrArg (· ++ more) whole
  cut := later.cut
  lines ungrouped := by
    rw [later.lines ungrouped, isMiddle, completedRecords_ungrouped ungrouped, ← List.map_append,
      ← wholeLines_grown grows]

/-- **Polls that follow each other read the file from the first cursor to the last.** -/
theorem covered_of_isChain {polls : List (Poll digest)} {first : Poll digest}
    (followed : List.IsChain (Follows kind) (first :: polls))
    (cut : Cut kind (first.content kind) (first.stop kind)) :
    first.content kind <+: ((first :: polls).getLast (List.cons_ne_nil _ _)).content kind ∧
    Covered kind (first.stop kind) (polls.flatMap fun poll => poll.taken kind)
      (((first :: polls).getLast (List.cons_ne_nil _ _)).content kind)
      (((first :: polls).getLast (List.cons_ne_nil _ _)).stop kind) := by
  induction polls generalizing first with
  | nil =>
      refine ⟨List.prefix_refl _, rfl, cut, fun ungrouped => ?_⟩
      show [] = List.map Prod.fst (wholeLines (first.content kind) (first.stop kind))
      rw [cut.read ungrouped, List.map_nil]
  | cons next polls ih =>
      rw [List.isChain_cons_cons] at followed
      obtain ⟨follows, rest⟩ := followed
      have inside : first.stop kind ≤ (next.content kind).length :=
        (stop_le_content first).trans follows.grows.length_le
      have nextCut : Cut kind (next.content kind) (next.stop kind) := by
        rw [follows.stop]
        exact (cut.atLine.grown (stop_le_content first) follows.grows).cut _
      obtain ⟨grows, covered⟩ := ih rest nextCut
      rw [List.getLast_cons (List.cons_ne_nil _ _), List.flatMap_cons, follows.taken]
      exact ⟨follows.grows.trans grows, covered.cons inside grows follows.stop⟩

/-! ## Counting records -/

/-- The sum of the normal counters. -/
def countedRecords (ledger : Ledger) : Nat :=
  (ledger.normal.map Prod.snd).sum

omit [UnicodeData] in
theorem sum_bump (key : String) (counters : List (String × Nat)) :
    ((bump key counters).map Prod.snd).sum = (counters.map Prod.snd).sum + 1 := by
  induction counters with
  | nil => rfl
  | cons counter counters ih =>
      obtain ⟨name, count⟩ := counter
      rw [bump]
      split
      · simp only [List.map_cons, List.sum_cons]
        omega
      · simp only [List.map_cons, List.sum_cons, ih]
        omega

omit [UnicodeData] in
theorem sum_foldl_bump (keys : List String) (counters : List (String × Nat)) :
    ((keys.foldl (fun counts key => bump key counts) counters).map Prod.snd).sum =
      (counters.map Prod.snd).sum + keys.length := by
  induction keys generalizing counters with
  | nil => rfl
  | cons key keys ih =>
      rw [List.foldl_cons, ih, sum_bump, List.length_cons]
      omega

/-- Every record is sent or counted. -/
theorem Accounts.count {filterNormal : Bool} {base next : Ledger} {records : List Handled}
    {streams : List Stream} (accounts : Accounts filterNormal base records streams next) :
    next.sent + countedRecords next = base.sent + countedRecords base + records.length := by
  have sent := accounts.carried.length_eq
  have split : (records.filter fun record => (record.counter filterNormal).isNone).length +
      (records.filterMap (Handled.counter filterNormal)).length = records.length := by
    have counted : (fun record : Handled => (record.counter filterNormal).isSome) =
        fun record => decide ¬(record.counter filterNormal).isNone = true := by
      funext record
      cases record.counter filterNormal with
      | none => rfl
      | some key => rfl
    rw [List.length_filterMap_eq_countP, ← List.countP_eq_length_filter, counted,
      ← List.length_eq_countP_add_countP]
  rw [accounts.sent, countedRecords, accounts.normal, sum_foldl_bump, ← countedRecords]
  omega

/-- A poll sends or counts the records that it takes of all kinds. -/
theorem Poll.count (poll : Poll digest) :
    poll.outbox.next.sent + countedRecords poll.outbox.next =
      poll.state.sent + countedRecords poll.state.toLedger +
        (Kind.all.map fun kind => (poll.taken kind).length).sum := by
  rw [poll.spec.accounts.count, allRecords, List.length_flatMap]
  simp only [Poll.taken, List.length_map]

/-! ## Segmentation -/

/-- Every later poll follows another one. -/
theorem exists_before {polls : List (Poll digest)} {first poll : Poll digest}
    (followed : List.IsChain (Follows kind) (first :: polls)) (member : poll ∈ polls) :
    ∃ before, Follows kind before poll := by
  induction polls generalizing first with
  | nil => cases member
  | cons next polls ih =>
      rw [List.isChain_cons_cons] at followed
      rcases List.mem_cons.mp member with rfl | later
      · exact ⟨first, followed.1⟩
      · exact ih followed.2 later

/-- Where the first cursor is. -/
theorem Watch.cut_first (watch : Watch digest kind) :
    Cut kind (watch.first.content kind) (watch.first.stop kind) := by
  have stop : watch.first.stop kind = stopAfter 0
      (completedRecords (watch.first.content kind) 0 kind (-1) false) := by
    rw [Poll.stop, currentStop, watch.noCursor]
    rfl
  rw [stop]
  exact AtLine.cut (.inl rfl) _

/-- **The moments of the polls do not matter.** The records from the first cursor on
are the bytes up to the last, which does not stand behind an unfinished line; kinds
that are not grouped have the records of one reading; records of grouped kinds have
no header inside and begin with one unless they are the first of their poll; and
every poll sends or counts every record it takes. -/
theorem Watch.segmentation (watch : Watch digest kind) :
    watch.start ≤ watch.stop ∧ watch.stop ≤ lastLineEnd watch.content ∧
    watch.records.flatten = (watch.content.drop watch.start).take (watch.stop - watch.start) ∧
    (kind.grouped = false → ∀ seenSize, watch.records =
      (completedRecords watch.content watch.start kind seenSize false).map Prod.fst) ∧
    (kind.grouped = true → ∀ poll ∈ watch.polls,
      (∀ raw ∈ poll.taken kind, (rawLines raw).flatten = raw ∧
        ∀ line ∈ (rawLines raw).tail, isHeader kind line = false) ∧
      ∀ raw ∈ (poll.taken kind).tail,
        ∃ line, (rawLines raw).head? = some line ∧ isHeader kind line = true) ∧
    ∀ poll ∈ watch.first :: watch.polls,
      poll.outbox.next.sent + countedRecords poll.outbox.next =
        poll.state.sent + countedRecords poll.state.toLedger +
          (Kind.all.map fun kind => (poll.taken kind).length).sum := by
  obtain ⟨grows, covered⟩ := covered_of_isChain watch.followed watch.cut_first
  have inside : watch.stop ≤ watch.content.length := stop_le_content watch.last
  have startInside : watch.start ≤ watch.content.length :=
    (stop_le_content watch.first).trans grows.length_le
  have whole : watch.records.flatten ++ watch.content.drop watch.stop =
      watch.content.drop watch.start := covered.text
  have length := congrArg List.length whole
  rw [List.length_append, List.length_drop, List.length_drop] at length
  have start : watch.start ≤ watch.stop := by omega
  refine ⟨start, covered.cut.atLine.le_lastLineEnd inside, ?_, fun ungrouped seenSize => ?_,
    fun grouped poll member => ?_, fun poll _ => poll.count⟩
  · rw [← whole, List.take_left']
    omega
  · rw [completedRecords_ungrouped ungrouped]
    exact covered.lines ungrouped
  · obtain ⟨before, follows⟩ := exists_before watch.followed member
    rw [follows.taken]
    refine ⟨fun raw taken => ?_, fun raw taken => ?_⟩
    · obtain ⟨piece, there, rfl⟩ := List.mem_map.mp taken
      exact rawLines_tail_of_mem there
    · rw [← List.map_tail] at taken
      obtain ⟨piece, there, rfl⟩ := List.mem_map.mp taken
      exact isHeader_of_mem_tail grouped there

end Polls

/-! ## A file that grows by a line -/

/-- The kernel log has a line, the other files are empty. -/
def grownSnapshot : Snapshot where
  file kind gen := if gen = .current then
      some ⟨1, 1, 0, if kind = .kernel then [97, 10] else []⟩
    else none
  currentPresent _ := rfl

theorem prepare_grown_succeeds :
    (@prepare asciiData sampleDigest committedState grownSnapshot 0 true).toBool = true := by
  decide +kernel

theorem segmentation_of_growth :
    ∃ (_ : UnicodeData) (watch : Watch sampleDigest .kernel), watch.polls.length = 1 ∧
      watch.records.flatten =
        (watch.content.drop watch.start).take (watch.stop - watch.start) := by
  let _ : UnicodeData := asciiData
  obtain ⟨firstOutbox, first⟩ := exists_outbox rfl prepare_empty_succeeds
  obtain ⟨secondOutbox, second⟩ := exists_outbox rfl prepare_grown_succeeds
  let firstPoll : Poll sampleDigest := ⟨_, rfl, _, _, _, _, first⟩
  let secondPoll : Poll sampleDigest := ⟨_, rfl, _, _, _, _, second⟩
  have follows : Follows .kernel firstPoll secondPoll :=
    { carried := (firstPoll.spec.cursors .kernel).symm
      identity := rfl
      alone := by
        intro gen file other found
        have none : secondPoll.snapshot.file .kernel gen = none := if_neg other
        rw [none] at found
        cases found
      grows := List.nil_prefix }
  let watch : Watch sampleDigest .kernel :=
    ⟨firstPoll, rfl, [secondPoll], List.isChain_cons_cons.mpr ⟨follows, .singleton _⟩⟩
  exact ⟨asciiData, watch, rfl, watch.segmentation.2.2.1⟩

end HomeclusterInfra.NasLogs
