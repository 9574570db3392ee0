import HomeclusterInfra.Library.Shell
import HomeclusterInfra.Tftp.RootArguments

/-!
# Two readers of the live selectors

`pxe_live_selectors_readonly_status.py` and the shell probe of
`rpi5_common_kernel_live_selectors.yml` report the release that the path of a
board leads to and the one that its `cmdline.txt` names. Both are right, and report
the same, where the line is unmistakable.

A `cmdline.txt` has one line here, with or without a line end. Its text is decoded.
-/

set_option autoImplicit false

namespace HomeclusterInfra.Tftp

open Text Shell Rollout

/-! ## The root directory -/

/-- A `cmdline.txt` that can be read, itself or through a link. -/
structure Cmdline where
  isSymlink : Bool
  line : Line

/-- The path of a board. -/
inductive BoardPath where
  | link (target : List Char)
  /-- A directory, with the target of its `kernel8.img` where that is a link. -/
  | directory (kernelLink : Option (List Char)) (cmdline : Option Cmdline)
  | other

structure TftpRoot where
  board : List Char → BoardPath
  /-- The `cmdline.txt` of the directory that a path from the root leads to. -/
  under : List Char → Option Cmdline

/-! ## `_read_one` -/

/-- `dates/([0-9]{8}-rpi[45])` -/
def dateRelease (link : List Char) : Option (List Char) :=
  if "dates/".toList.isPrefixOf link && isSelector (link.drop 6) then some (link.drop 6) else none

/-- `\.\./dates/([0-9]{8}-rpi[45])/kernel8\.img` -/
def kernelRelease (link : List Char) : Option (List Char) :=
  if "../dates/".toList.isPrefixOf link && isSelector ((link.drop 9).take 13) &&
      link.drop 22 == "/kernel8.img".toList then
    some ((link.drop 9).take 13)
  else none

/-- `_read_one` -/
def readOne (root : TftpRoot) (boardHash : List Char) : Option Selector :=
  let found : Option (List Char × Option Cmdline) :=
    match root.board boardHash with
    | .link target =>
        (dateRelease target).map fun tftp => (tftp, root.under ("dates/".toList ++ tftp))
    | .directory (some link) cmdline => (kernelRelease link).map fun tftp => (tftp, cmdline)
    | _ => none
  match found with
  | some (tftp, some cmdline) =>
      if cmdline.isSymlink || 4096 < utf8Length cmdline.line.text then none
      else
        match rootArgs cmdline.line.text with
        | [rootfs] =>
            if isSelector tftp then some ⟨String.ofList tftp, String.ofList rootfs⟩ else none
        | _ => none
  | _ => none

/-! ## The shell probe -/

/-- `basename` -/
def basename (path : List Char) : List Char :=
  let path' := rstripWhile (· == '/') path
  if path'.isEmpty then path.take 1 else (path'.reverse.takeWhile (· != '/')).reverse

/-- `dirname` -/
def dirname (path : List Char) : List Char :=
  let parent := rstripWhile (· == '/') (rstripWhile (· != '/') (rstripWhile (· == '/') path))
  if !parent.isEmpty then parent else if path.head? == some '/' then ['/'] else ['.']

/-- The live selector probe, with the format checks of the play. -/
def shellProbe (root : TftpRoot) (boardHash : List Char) : Option Selector :=
  let found : Option (List Char × Option Cmdline) :=
    match root.board boardHash with
    | .link target => some (captured (basename (captured target)), root.under target)
    | .directory (some link) cmdline =>
        some (captured (basename (captured (dirname (captured link)))), cmdline)
    | _ => none
  match found with
  | some (tftp, some cmdline) =>
      (probeSelector (String.ofList tftp) cmdline.line.text).filter Selector.wellFormed
  | _ => none

/-! ## One release of the board -/

/-- The last part of a path is not cut. -/
theorem rstripWhile_slash {front name : List Char} (nonempty : name ≠ [])
    (solid : ∀ char ∈ name, char ≠ '/') :
    rstripWhile (· == '/') (front ++ '/' :: name) = front ++ '/' :: name := by
  refine rstripWhile_of_last fun last isLast => ?_
  rw [List.getLast?_append, List.getLast?_cons_of_ne_nil nonempty] at isLast
  obtain ⟨own, named⟩ := Option.isSome_iff_exists.mp (List.getLast?_isSome.mpr nonempty)
  rw [named, Option.some_or, Option.some.injEq] at isLast
  rw [← isLast]
  simpa using solid own (List.mem_of_mem_getLast? named)

theorem basename_append {front name : List Char} (nonempty : name ≠ [])
    (solid : ∀ char ∈ name, char ≠ '/') : basename (front ++ '/' :: name) = name := by
  have some : (front ++ '/' :: name).isEmpty = false := by
    rw [List.isEmpty_eq_false_iff]
    exact List.append_ne_nil_of_right_ne_nil _ (List.cons_ne_nil _ _)
  simp only [basename, rstripWhile_slash nonempty solid, some, Bool.false_eq_true, if_false]
  have backwards : (front ++ '/' :: name).reverse = name.reverse ++ '/' :: front.reverse := by
    rw [List.reverse_append, List.reverse_cons, List.append_assoc, List.singleton_append]
  rw [backwards, List.takeWhile_append_of_pos, List.takeWhile_cons_of_neg, List.append_nil,
    List.reverse_reverse]
  · decide
  · intro char member
    simpa using solid char (List.mem_reverse.mp member)

theorem dirname_append {front name : List Char} (nonempty : name ≠ [])
    (solid : ∀ char ∈ name, char ≠ '/') (ends : ∀ last, front.getLast? = some last → last ≠ '/')
    (some : front ≠ []) : dirname (front ++ '/' :: name) = front := by
  have parts : front ++ '/' :: name = (front ++ ['/']) ++ name := by
    rw [List.append_assoc, List.singleton_append]
  have parent : rstripWhile (· == '/') (rstripWhile (· != '/') (front ++ '/' :: name)) = front := by
    rw [parts, rstripWhile_append_of_pos, rstripWhile_concat, rstripWhile_append_of_pos,
      rstripWhile_of_last]
    · intro last isLast
      simpa using ends last isLast
    · simp
    · rfl
    · intro char member
      simpa using solid char member
  have visible : front.isEmpty = false := List.isEmpty_eq_false_iff.mpr some
  simp only [dirname, rstripWhile_slash nonempty solid, parent, visible, Bool.not_false, if_true]

section Selector

variable {release link : List Char}

/-- A release has no character that a path or the shell treats apart. -/
theorem solid_of_isSelector (form : isSelector release = true) :
    release ≠ [] ∧ ∀ char ∈ release, char ≠ '/' ∧ char ≠ '\n' ∧ char ≠ '\x00' ∧ char ≠ ' ' := by
  simp only [isSelector, Bool.and_eq_true, beq_iff_eq, List.all_eq_true, Bool.or_eq_true] at form
  obtain ⟨⟨length, digits⟩, generation⟩ := form
  have special : ∀ char ∈ ['/', '\n', '\x00', ' '], char.isDigit = false := by
    simp only [List.forall_mem_cons]
    exact ⟨rfl, rfl, rfl, rfl, List.forall_mem_nil _⟩
  have apart : ∀ char ∈ release, ∀ other ∈ ['/', '\n', '\x00', ' '], char ≠ other := by
    intro char member other isOther same
    rw [← List.take_append_drop 8 release] at member
    rcases List.mem_append.mp member with day | board
    · have digit := digits char day
      rw [same, special other isOther] at digit
      exact Bool.false_ne_true digit
    · have apartFrom : (['/', '\n', '\x00', ' '].all fun other =>
          !"-rpi4".toList.contains other && !"-rpi5".toList.contains other) = true := by decide
      have missing := List.all_eq_true.mp apartFrom other isOther
      simp only [Bool.and_eq_true, Bool.not_eq_true', List.contains_eq_mem,
        decide_eq_false_iff_not] at missing
      rcases generation with board' | board' <;> rw [board', same] at board
      · exact missing.1 board
      · exact missing.2 board
  refine ⟨?_, fun char member => ?_⟩
  · rintro rfl
    cases length
  · exact ⟨apart char member _ (by simp), apart char member _ (by simp),
      apart char member _ (by simp), apart char member _ (by simp)⟩

theorem dateRelease_eq_some (found : dateRelease link = some release) :
    link = "dates/".toList ++ release ∧ isSelector release = true := by
  unfold dateRelease at found
  split at found
  next holds =>
    rw [Bool.and_eq_true] at holds
    cases found
    obtain ⟨rest, rfl⟩ := List.isPrefixOf_iff_prefix.mp holds.1
    have six : "dates/".toList.length = 6 := by decide
    refine ⟨?_, holds.2⟩
    rw [← six, List.drop_left]
  next => cases found

theorem kernelRelease_eq_some (found : kernelRelease link = some release) :
    link = "../dates/".toList ++ release ++ "/kernel8.img".toList ∧ isSelector release = true := by
  unfold kernelRelease at found
  split at found
  next holds =>
    simp only [Bool.and_eq_true, beq_iff_eq] at holds
    obtain ⟨⟨start, form⟩, ends⟩ := holds
    cases found
    obtain ⟨rest, rfl⟩ := List.isPrefixOf_iff_prefix.mp start
    have nine : "../dates/".toList.length = 9 := by decide
    have tail : ("../dates/".toList ++ rest).drop 22 = rest.drop 13 := by
      rw [show 22 = 9 + 13 from rfl, ← List.drop_drop, ← nine, List.drop_left]
    have front : ("../dates/".toList ++ rest).drop 9 = rest := by
      rw [← nine, List.drop_left]
    refine ⟨?_, form⟩
    rw [front, ← ends, tail, List.append_assoc, List.take_append_drop]
  next => cases found

/-- **The shell finds the release of a board's path** where the first reader does. -/
theorem shell_release_of_link (found : dateRelease link = some release) :
    captured (basename (captured link)) = release := by
  obtain ⟨rfl, form⟩ := dateRelease_eq_some found
  obtain ⟨nonempty, solid⟩ := solid_of_isSelector form
  have own : captured release = release :=
    captured_eq_self (fun member => (solid _ member).2.2.1 rfl) fun member => (solid _ member).2.1 rfl
  have whole : captured ("dates/".toList ++ release) = "dates/".toList ++ release := by
    refine captured_eq_self (fun member => ?_) fun member => ?_
    all_goals rcases List.mem_append.mp member with front | back
    · exact absurd front (by decide)
    · exact (solid _ back).2.2.1 rfl
    · exact absurd front (by decide)
    · exact (solid _ back).2.1 rfl
  have parts : "dates/".toList ++ release = "dates".toList ++ '/' :: release := rfl
  rw [whole, parts, basename_append nonempty fun char member => (solid char member).1, own]

theorem shell_release_of_kernel (found : kernelRelease link = some release) :
    captured (basename (captured (dirname (captured link)))) = release := by
  obtain ⟨rfl, form⟩ := kernelRelease_eq_some found
  obtain ⟨nonempty, solid⟩ := solid_of_isSelector form
  have own : captured release = release :=
    captured_eq_self (fun member => (solid _ member).2.2.1 rfl) fun member => (solid _ member).2.1 rfl
  have plain : ∀ tail : List Char, '\x00' ∉ tail → '\n' ∉ tail →
      captured ("../dates/".toList ++ release ++ tail) = "../dates/".toList ++ release ++ tail := by
    intro tail noNul noNewline
    refine captured_eq_self (fun member => ?_) fun member => ?_
    all_goals rcases List.mem_append.mp member with front | back
    · rcases List.mem_append.mp front with front | middle
      · exact absurd front (by decide)
      · exact (solid _ middle).2.2.1 rfl
    · exact noNul back
    · rcases List.mem_append.mp front with front | middle
      · exact absurd front (by decide)
      · exact (solid _ middle).2.1 rfl
    · exact noNewline back
  have directory : dirname ("../dates/".toList ++ release ++ "/kernel8.img".toList) =
      "../dates/".toList ++ release := by
    have noSlash : ∀ char ∈ "kernel8.img".toList, char ≠ '/' := by
      rintro _ member rfl
      exact absurd member (by decide)
    refine @dirname_append _ "kernel8.img".toList (by decide) noSlash ?_ ?_
    · intro last isLast
      obtain ⟨final, isFinal⟩ := Option.isSome_iff_exists.mp (List.getLast?_isSome.mpr nonempty)
      rw [List.getLast?_append, isFinal, Option.some_or, Option.some.injEq] at isLast
      exact isLast ▸ (solid final (List.mem_of_mem_getLast? isFinal)).1
    · exact List.append_ne_nil_of_right_ne_nil _ nonempty
  have short := plain [] List.not_mem_nil List.not_mem_nil
  rw [List.append_nil] at short
  have parts : "../dates/".toList ++ release = "../dates".toList ++ '/' :: release := rfl
  rw [plain _ (by decide) (by decide), directory, short, parts,
    basename_append nonempty fun char member => (solid char member).1, own]

end Selector

/-! ## What each reader takes from the line -/

/-- A text behind another one is stripped alone, where something is left of it. -/
theorem rstripWhile_append_visible {α : Type} {drops : α → Bool} {text tail : List α}
    (visible : rstripWhile drops tail ≠ []) :
    rstripWhile drops (text ++ tail) = text ++ rstripWhile drops tail := by
  obtain ⟨gone, parts, dropped⟩ := rstripWhile_append drops tail
  obtain ⟨front, last, ends⟩ := (List.eq_nil_or_concat' _).resolve_left visible
  have kept : drops last = false := by
    have isLast : (rstripWhile drops tail).getLast? = some last := by
      rw [ends, List.getLast?_concat]
    rw [rstripWhile, List.getLast?_reverse] at isLast
    have first := List.head?_dropWhile_not drops tail.reverse
    rw [isLast] at first
    simpa using first
  conv_lhs => rw [parts]
  rw [← List.append_assoc, rstripWhile_append_of_pos dropped, ends, ← List.append_assoc,
    rstripWhile_concat _ kept]

section Probe

variable {tftp text : List Char}

/-- A printed selector has two columns, of which the first has no tab. -/
theorem parseProbe_eq_some {stdout front rest : List Char} {selector : Selector}
    (tabless : '\t' ∉ front) (printed : strip stdout = front ++ '\t' :: rest) :
    parseProbe stdout = some selector ↔
      '\t' ∉ rest ∧ selector = ⟨String.ofList front, String.ofList rest⟩ := by
  rw [parseProbe, printed, List.splitOn_append_cons_self_of_not_mem tabless]
  by_cases tab : '\t' ∈ rest
  · obtain ⟨before, after, rfl, -⟩ := List.eq_append_cons_of_mem tab
    rw [List.splitOn_append_cons_self]
    refine iff_of_false ?_ fun both => both.1 tab
    obtain ⟨first, others, one⟩ := List.exists_cons_of_ne_nil (List.splitOn_ne_nil '\t' before)
    obtain ⟨second, more, two⟩ := List.exists_cons_of_ne_nil (List.splitOn_ne_nil '\t' after)
    rw [one, two]
    cases others with
    | nil => exact nofun
    | cons => exact nofun
  · rw [List.splitOn_eq_singleton tab, and_iff_right tab, Option.some.injEq]
    exact eq_comm

/-- **The shell probe reports** the release that `sed` finds, without white space
at its end, where it has the form of one. -/
theorem probed_eq_some (form : isSelector tftp = true) {selector : Selector} :
    (probeSelector (String.ofList tftp) text).filter Selector.wellFormed = some selector ↔
      ∃ found, rootfsOf text = some found ∧ isSelector (rstripWhile isSpace found) = true ∧
        selector = ⟨String.ofList tftp, String.ofList (rstripWhile isSpace found)⟩ := by
  have solid := isSpace_of_isSelector form
  obtain ⟨nonempty, -⟩ := solid_of_isSelector form
  have named : String.ofList tftp ≠ "" := fun none => nonempty (by
    have chars := congrArg String.toList none
    rwa [String.toList_ofList] at chars)
  have tabless : '\t' ∉ tftp := fun member => absurd (solid _ member) (by decide)
  -- the printed line without the white space around it
  have printed : ∀ found : List Char, strip (tftp ++ '\t' :: found ++ ['\n']) =
      if rstripWhile isSpace found = [] then tftp else tftp ++ '\t' :: rstripWhile isSpace found := by
    intro found
    have front : (tftp ++ '\t' :: found ++ ['\n']).dropWhile isSpace =
        tftp ++ '\t' :: found ++ ['\n'] := by
      cases tftp with
      | nil => exact absurd rfl nonempty
      | cons first rest =>
          refine List.dropWhile_cons_of_neg ?_
          rw [solid first List.mem_cons_self]
          exact Bool.false_ne_true
    have lineFeed : ∀ item ∈ ['\n'], isSpace item = true := List.forall_mem_singleton.mpr rfl
    rw [strip, front, rstripWhile_append_of_pos lineFeed]
    split
    next blank =>
      obtain ⟨gone, parts, dropped⟩ := rstripWhile_append isSpace found
      rw [blank, List.nil_append] at parts
      rw [parts, rstripWhile_append_of_pos, rstripWhile_of_last]
      · exact fun last isLast => solid last (List.mem_of_mem_getLast? isLast)
      · rw [List.forall_mem_cons]
        exact ⟨rfl, dropped⟩
    next visible =>
      have parts : tftp ++ '\t' :: found = (tftp ++ ['\t']) ++ found := by
        rw [List.append_assoc, List.singleton_append]
      rw [parts, rstripWhile_append_visible visible, List.append_assoc, List.singleton_append]
  have accepted : ∀ field : List Char, Selector.wellFormed
      ⟨String.ofList tftp, String.ofList field⟩ = isSelector field := by
    intro field
    rw [Selector.wellFormed, String.toList_ofList, String.toList_ofList, form, Bool.true_and]
  unfold probeSelector
  cases rootfsOf text with
  | none => simp
  | some found =>
      simp only [Option.some.injEq, exists_eq_left', String.toList_ofList]
      by_cases blank : rstripWhile isSpace found = []
      · have formless : isSelector (rstripWhile isSpace found) = false := by
          rw [blank]
          rfl
        have refused : parseProbe (tftp ++ '\t' :: found ++ ['\n']) = none := by
          rw [parseProbe, printed, if_pos blank, List.splitOn_eq_singleton tabless]
        rw [refused, formless]
        simp
      · have filled : found.isEmpty = false := by
          rw [List.isEmpty_eq_false_iff]
          rintro rfl
          exact blank rfl
        rw [decide_eq_false named, filled, Bool.false_or, if_neg Bool.false_ne_true,
          Option.filter_eq_some_iff, parseProbe_eq_some tabless (by rw [printed, if_neg blank])]
        constructor
        · rintro ⟨⟨-, rfl⟩, formed⟩
          rw [accepted] at formed
          exact ⟨formed, rfl⟩
        · rintro ⟨isRelease, rfl⟩
          refine ⟨⟨fun member => ?_, rfl⟩, (accepted _).trans isRelease⟩
          exact absurd (isSpace_of_isSelector isRelease _ member) (by decide)

end Probe

/-! ## When both readers are right -/

/-- The path of the board leads to a release, and its `cmdline.txt` can be read. -/
inductive BoardReads (root : TftpRoot) (boardHash tftp : List Char) (cmdline : Cmdline) : Prop where
  | link (target : List Char) (isLink : root.board boardHash = .link target)
      (names : dateRelease target = some tftp) (there : root.under target = some cmdline)
  | directory (link : List Char)
      (isDirectory : root.board boardHash = .directory (some link) (some cmdline))
      (names : kernelRelease link = some tftp)

/-- `$host_dir/cmdline.txt` -/
def TftpRoot.cmdline (root : TftpRoot) (boardHash : List Char) : Option Cmdline :=
  match root.board boardHash with
  | .link target => root.under target
  | .directory _ cmdline => cmdline
  | .other => none

section Readers

variable {root : TftpRoot} {boardHash tftp : List Char} {cmdline : Cmdline}

theorem BoardReads.isSelector (reads : BoardReads root boardHash tftp cmdline) :
    isSelector tftp = true := by
  cases reads with
  | link target _ names _ => exact (dateRelease_eq_some names).2
  | directory link _ names => exact (kernelRelease_eq_some names).2

theorem BoardReads.served (reads : BoardReads root boardHash tftp cmdline) :
    root.cmdline boardHash = some cmdline := by
  cases reads with
  | link target isLink _ there =>
      rw [TftpRoot.cmdline, isLink]
      exact there
  | directory link isDirectory _ => rw [TftpRoot.cmdline, isDirectory]

/-- **What the first reader accepts.** -/
theorem readOne_eq_some {selector : Selector} : readOne root boardHash = some selector ↔
    ∃ tftp cmdline release, BoardReads root boardHash tftp cmdline ∧ cmdline.isSymlink = false ∧
      utf8Length cmdline.line.text ≤ 4096 ∧ rootArgs cmdline.line.text = [release] ∧
        selector = ⟨String.ofList tftp, String.ofList release⟩ := by
  -- the reader's pair of a release and a file
  have found : ∀ pair : List Char × Option Cmdline,
      (match root.board boardHash with
        | .link target =>
            (dateRelease target).map fun tftp => (tftp, root.under ("dates/".toList ++ tftp))
        | .directory (some link) cmdline => (kernelRelease link).map fun tftp => (tftp, cmdline)
        | _ => none) = some pair →
      ∀ cmdline, pair.2 = some cmdline → BoardReads root boardHash pair.1 cmdline := by
    intro pair isPair cmdline there
    split at isPair
    next target isLink =>
      obtain ⟨tftp, names, rfl⟩ := Option.map_eq_some_iff.mp isPair
      rw [← (dateRelease_eq_some names).1] at there
      exact .link target isLink names there
    next link own isDirectory =>
      obtain ⟨tftp, names, rfl⟩ := Option.map_eq_some_iff.mp isPair
      cases there
      exact .directory link isDirectory names
    next => cases isPair
  constructor
  · intro accepted
    simp only [readOne] at accepted
    split at accepted
    next tftp cmdline isPair =>
      have reads := found _ isPair cmdline rfl
      split at accepted
      next => cases accepted
      next plain =>
        simp only [Bool.or_eq_true, decide_eq_true_eq, not_or, Nat.not_lt] at plain
        split at accepted
        next release single =>
          rw [if_pos reads.isSelector] at accepted
          exact ⟨tftp, cmdline, release, reads, Bool.eq_false_of_not_eq_true plain.1, plain.2,
            single, (Option.some.inj accepted).symm⟩
        next => cases accepted
    next => cases accepted
  · rintro ⟨tftp, cmdline, release, reads, plain, short, single, rfl⟩
    have form := reads.isSelector
    have small : ¬(cmdline.isSymlink || decide (4096 < utf8Length cmdline.line.text)) = true := by
      rw [plain, Bool.false_or, decide_eq_true_eq]
      omega
    cases reads with
    | link target isLink names there =>
        have same := (dateRelease_eq_some names).1
        simp only [readOne, isLink, names, Option.map_some, ← same, there, if_neg small, single,
          form, if_true]
    | directory link isDirectory names =>
        simp only [readOne, isDirectory, names, Option.map_some, if_neg small, single, form,
          if_true]

/-- The shell reads the same file and finds the same release of the board. -/
theorem shellProbe_of_reads (reads : BoardReads root boardHash tftp cmdline) :
    shellProbe root boardHash =
      (probeSelector (String.ofList tftp) cmdline.line.text).filter Selector.wellFormed := by
  cases reads with
  | link target isLink names there =>
      simp only [shellProbe, isLink, shell_release_of_link names, there]
  | directory link isDirectory names =>
      simp only [shellProbe, isDirectory, shell_release_of_kernel names]

/-- **Both readers report what the node will boot, exactly where the line is
unmistakable**, whenever only one argument of it is counted. -/
theorem liveReaders_sound_iff (root : TftpRoot) (boardHash : List Char) :
    (∀ selector, readOne root boardHash = some selector →
      (∃ cmdline argument, root.cmdline boardHash = some cmdline ∧
        rootArgument cmdline.line.text = some argument ∧
          NamesRelease argument selector.rootfsRelease.toList) ∧
      ∀ other, shellProbe root boardHash = some other → other = selector) ↔
      ∀ tftp cmdline before argument after release, BoardReads root boardHash tftp cmdline →
        cmdline.isSymlink = false → utf8Length cmdline.line.text ≤ 4096 →
          Counted cmdline.line.text before argument after release →
            Unmistakable cmdline.line argument after release := by
  constructor
  · intro sound tftp cmdline before argument after release reads plain short counted
    have single := rootArgs_eq_singleton.mpr ⟨before, argument, after, counted⟩
    obtain ⟨⟨cmdline', last, same, isLast, names⟩, alike⟩ :=
      sound _ (readOne_eq_some.mpr ⟨tftp, cmdline, release, reads, plain, short, single, rfl⟩)
    obtain rfl := Option.some.inj (reads.served.symm.trans same)
    rw [String.toList_ofList] at names
    obtain ⟨behind, found, -⟩ := counted.alone
    rw [counted.stands.rootArgument (isRoot_of_wordRelease found)] at isLast
    refine ⟨lastRoot_iff.mp (Option.some.inj isLast ▸ names), fun place lastPlace form => ?_⟩
    have probed := (probed_eq_some reads.isSelector).mpr
      ⟨place.name, rootfsOf_eq_some.mpr ⟨place, lastPlace, rfl⟩, form, rfl⟩
    have equal := alike _ ((shellProbe_of_reads reads).trans probed)
    exact String.ofList_injective (Selector.mk.inj equal).2
  · intro unmistakable selector accepted
    obtain ⟨tftp, cmdline, release, reads, plain, short, single, rfl⟩ :=
      readOne_eq_some.mp accepted
    obtain ⟨before, argument, after, counted⟩ := rootArgs_eq_singleton.mp single
    have clear := unmistakable tftp cmdline before argument after release reads plain short counted
    refine ⟨?_, fun other isOther => ?_⟩
    · obtain ⟨behind, found, -⟩ := counted.alone
      refine ⟨cmdline, _, reads.served,
        counted.stands.rootArgument (isRoot_of_wordRelease found), ?_⟩
      rw [String.toList_ofList]
      exact lastRoot_iff.mpr clear.last
    · rw [shellProbe_of_reads reads, probed_eq_some reads.isSelector] at isOther
      obtain ⟨found, isFound, form, rfl⟩ := isOther
      obtain ⟨place, lastPlace, rfl⟩ := rootfsOf_eq_some.mp isFound
      rw [clear.place place lastPlace form]

end Readers

/-! Two root arguments with one blank between them, of which the first has no options. -/

def twoRoots : Line where
  chars := "root=nfs4:h:/gentoo/20261023-rpi5/nfs root=nfs4:h:/gentoo/20261022-rpi5/nfs,ro".toList
  ended := true
  single := by
    intro char member
    have plain := List.all_eq_true.mp (@toList_literal (fun chars =>
      chars.all (fun char => char != '\n' && char != '\r') = true) _ _ rfl (by decide)) char member
    simpa only [Bool.and_eq_true, bne_iff_ne] using plain

/-- A root directory in which every board is linked into one release. -/
def twoRootsTree : TftpRoot where
  board _ := .link "dates/20261023-rpi5".toList
  under _ := some ⟨false, twoRoots⟩

theorem rootArgument_twoRoots : rootArgument twoRoots.text =
    some "root=nfs4:h:/gentoo/20261022-rpi5/nfs,ro".toList := by
  decide +kernel

/-- **The second root argument is not counted**: the first reader reports the
release of the first one, the kernel and the shell probe take that of the second. -/
theorem second_root_not_counted :
    readOne twoRootsTree [] = some ⟨"20261023-rpi5", "20261023-rpi5"⟩ ∧
      shellProbe twoRootsTree [] = some ⟨"20261023-rpi5", "20261022-rpi5"⟩ ∧
        twoRootsTree.cmdline [] = some ⟨false, twoRoots⟩ ∧
          ∀ argument, rootArgument twoRoots.text = some argument →
            ¬NamesRelease argument "20261023-rpi5".toList := by
  refine ⟨by decide +kernel, by decide +kernel, rfl, fun argument isLast => ?_⟩
  rw [rootArgument_twoRoots] at isLast
  obtain rfl := Option.some.inj isLast
  rintro ⟨server, options, parts, -⟩
  have inside : "20261023-rpi5".toList <:+:
      "root=nfs4:h:/gentoo/20261022-rpi5/nfs,ro".toList :=
    ⟨"root=nfs4:".toList ++ server ++ ":/gentoo/".toList, "/nfs".toList ++ options, by
      rw [parts]
      simp only [List.append_assoc]⟩
  exact absurd inside (by decide +kernel)

end HomeclusterInfra.Tftp
