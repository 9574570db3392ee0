import HomeclusterInfra.Tftp.RootfsPrune

/-!
# Which root filesystems are deleted

A release that a run deletes should be unused, whatever the run could read. It is, exactly
where nothing was overlooked: a `cmdline.txt` or a mount that was not read, a kept release
that is a link into the deleted one, or a name with characters that no source is compared
with.

A mount is read if the mount table is, and the mount point is the second word of its line.
-/

set_option autoImplicit false

namespace HomeclusterInfra.Tftp.Prune

open Text Ranking

/-! ## Unused releases -/

/-- A value names a release, by itself or with blanks around it. -/
def Names (value name : List Char) : Prop :=
  value = name ∨ strip value = name

/-- The root file system of a host is that of its TFTP release where nothing else is said. -/
def PxeHost.configured (host : PxeHost) : List Char :=
  if (strip host.rootfsRelease).isEmpty then host.tftpRelease else host.rootfsRelease

/-- A mount is the second word of its line. -/
def MountLine.isPlain (mount : MountLine) : Bool :=
  !mount.source.isEmpty && mount.source.all (!isSpace ·) && (mangle mount.point).all (!isSpace ·)

section Unused

variable (settings : Settings) (host : Host)

/-- What must hold of a release that is deleted, whatever was read. -/
structure Unused (release : Release) : Prop where
  outranked : settings.keepGenerations ≤ (((releases host).filter fun other =>
    other.variant = release.variant ∧ release.key < other.key).length : Int)
  old : 0 < settings.minReleaseAgeDays → settings.minReleaseAgeDays ≤ ageDays host release
  notExplicit : ∀ value ∈ settings.explicitProtected, ¬Names value release.name
  notConfigured : ∀ pxeHost ∈ settings.pxeHosts, ¬Names pxeHost.configured release.name
  notActive : ∀ board ∈ boards host, ∀ cmdline ∈ board.cmdline,
    release.name ∉ rootArgs cmdline.text
  notMounted : ∀ mount ∈ host.mounts, isUnder (releasePath release.name) mount.point = false

/-- A run deletes unused releases only, and leaves the others as they are, also where
they are links. -/
def DeletesUnused : Prop :=
  (∀ release ∈ releases host, release.name ∈ (prune settings host).deleted →
    Unused settings host release) ∧
  ∀ entry ∈ host.entries, entry.name ∉ (prune settings host).deleted →
    entry ∈ (prune settings host).entries ∧
      ((readRelease host.decimal entry).isSome = true →
        ∀ into ∈ entry.leadsInto, into ∉ (prune settings host).deleted)

/-- The run gets to the deletion. -/
structure Runs : Prop where
  generations : 1 ≤ settings.keepGenerations
  age : 0 ≤ settings.minReleaseAgeDays
  apply : settings.apply = true
  confirmed : settings.confirm = settings.confirmValue
  root : host.rootIsDir = true

/-- No link that would be deleted comes before a release. -/
def Comes (item : Release × Nat) : Prop :=
  ∃ before after, ranked host = before ++ item :: after ∧
    ∀ earlier ∈ before, reasons settings host earlier.1 earlier.2 = [] →
      earlier.1.isSymlink = false

/-- No source names a release. -/
structure Unnamed (name : List Char) : Prop where
  explicit : ∀ value ∈ settings.explicitProtected, ¬Names value name
  configured : ∀ pxeHost ∈ settings.pxeHosts, ¬Names pxeHost.configured name
  active : ∀ text ∈ readCmdlines host, name ∉ rootArgs text

/-- What was not read, and a link, and a name that is not compared do not use a release. -/
structure StaysClear (release : Release) : Prop where
  unread : ∀ board ∈ boards host, ∀ cmdline ∈ board.cmdline,
    (cmdline.isFile && cmdline.opens) = false → release.name ∉ rootArgs cmdline.text
  unmounted : ∀ mount ∈ host.mounts,
    (host.mountsOpen && mount.isPlain && release.name.all isSafe) = false →
      isUnder (releasePath release.name) mount.point = false
  unlinked : ∀ entry ∈ host.entries, (readRelease host.decimal entry).isSome = true →
    entry.leadsInto ≠ some release.name
  unnamed : release.name.all isSafe = false → Unnamed settings host release.name

/-- Each release that nothing protects, and that the run comes to, stays clear. -/
def NothingOverlooked : Prop :=
  Runs settings host → ∀ item ∈ ranked host, reasons settings host item.1 item.2 = [] →
    item.1.isSymlink = false → Comes settings host item → StaysClear settings host item.1

end Unused

/-! ## Mounts that are seen -/

section Mounts

theorem mangle_append (front rest : List Char) :
    mangle (front ++ rest) = mangle front ++ mangle rest :=
  List.flatMap_append

theorem mangle_safe {text : List Char}
    (safe : ∀ char ∈ text, char ≠ ' ' ∧ char ≠ '\t' ∧ char ≠ '\n' ∧ char ≠ '\\') :
    mangle text = text := by
  induction text with
  | nil => rfl
  | cons char text ih =>
      rw [List.forall_mem_cons] at safe
      obtain ⟨⟨notBlank, notTab, notNewline, notSlash⟩, rest⟩ := safe
      rw [mangle, List.flatMap_cons, if_neg notBlank, if_neg notTab, if_neg notNewline,
        if_neg notSlash]
      exact congrArg (char :: ·) (ih rest)

theorem replaceBlanks_cons {char : Char} (notSlash : char ≠ '\\') (rest : List Char) :
    replaceBlanks (char :: rest) = char :: replaceBlanks rest := by
  rw [replaceBlanks]
  intro _ same
  cases same
  exact absurd rfl notSlash

theorem replaceBlanks_append {front : List Char} (safe : ∀ char ∈ front, char ≠ '\\')
    (rest : List Char) : replaceBlanks (front ++ rest) = front ++ replaceBlanks rest := by
  induction front with
  | nil => rfl
  | cons char front ih =>
      rw [List.forall_mem_cons] at safe
      rw [List.cons_append, replaceBlanks_cons safe.1, ih safe.2, List.cons_append]

theorem universalNewlines_cons {char : Char} (notReturn : char ≠ '\r') (rest : List Char) :
    universalNewlines (char :: rest) = char :: universalNewlines rest := by
  rw [universalNewlines]
  · intro _ same
    cases same
    exact absurd rfl notReturn
  · intro same
    exact absurd same notReturn

theorem universalNewlines_append {front : List Char} (solid : ∀ char ∈ front, char ≠ '\r')
    (rest : List Char) : universalNewlines (front ++ rest) = front ++ universalNewlines rest := by
  induction front with
  | nil => rfl
  | cons char front ih =>
      rw [List.forall_mem_cons] at solid
      rw [List.cons_append, universalNewlines_cons solid.1, ih solid.2, List.cons_append]

/-- A line end that is read as one ends a line. -/
theorem universalNewlines_line (front : List Char) : ∃ body, ∀ rest,
    universalNewlines (front ++ '\n' :: rest) = body ++ '\n' :: universalNewlines rest := by
  induction front using universalNewlines.induct with
  | case1 front ih =>
      obtain ⟨body, reads⟩ := ih
      exact ⟨'\n' :: body, fun rest => congrArg ('\n' :: ·) (reads rest)⟩
  | case2 front notNewline ih =>
      obtain ⟨body, reads⟩ := ih
      cases front with
      | nil => exact ⟨[], fun rest => rfl⟩
      | cons char front =>
          refine ⟨'\n' :: body, fun rest => ?_⟩
          rw [List.cons_append, List.cons_append, universalNewlines]
          · exact congrArg ('\n' :: ·) (reads rest)
          · intro _ same
            cases same
            exact notNewline _ rfl
  | case3 char front notPair notReturn ih =>
      obtain ⟨body, reads⟩ := ih
      refine ⟨char :: body, fun rest => ?_⟩
      rw [List.cons_append, universalNewlines_cons notReturn, reads, List.cons_append]
  | case4 => exact ⟨[], fun rest => rfl⟩

/-- Lines that end are read as lines of their own. -/
theorem splitOn_universalNewlines {before : List Char}
    (ended : before = [] ∨ ∃ front, before = front ++ ['\n']) :
    ∃ lines, ∀ rest, (universalNewlines (before ++ rest)).splitOn '\n' =
      lines ++ (universalNewlines rest).splitOn '\n' := by
  rcases ended with rfl | ⟨front, rfl⟩
  · exact ⟨[], fun rest => rfl⟩
  · obtain ⟨body, reads⟩ := universalNewlines_line front
    refine ⟨body.splitOn '\n', fun rest => ?_⟩
    rw [List.append_assoc, List.singleton_append, reads, List.splitOn_append_cons_self]

/-- The beginning of a line is the beginning of the first piece. -/
theorem splitOn_beginning {front : List Char} (single : '\n' ∉ front) (rest : List Char) :
    ∃ tail later, (front ++ rest).splitOn '\n' = (front ++ tail) :: later := by
  by_cases broken : '\n' ∈ rest
  · obtain ⟨tail, after, rfl, unbroken⟩ := List.eq_append_cons_of_mem broken
    refine ⟨tail, after.splitOn '\n', ?_⟩
    rw [← List.append_assoc, List.splitOn_append_cons_self_of_not_mem]
    exact fun member => (List.mem_append.mp member).elim single unbroken
  · refine ⟨rest, [], List.splitOn_eq_singleton fun member => ?_⟩
    exact (List.mem_append.mp member).elim single broken

/-- The characters of a clean name, and the slash, stand for themselves. -/
theorem releasePath_safe {name : List Char} (safe : name.all isSafe = true) :
    ∀ char ∈ releasePath name, char ≠ ' ' ∧ char ≠ '\t' ∧ char ≠ '\n' ∧ char ≠ '\\' := by
  have marks : ∀ char, (isSafe char || char == '/') = true →
      char ≠ ' ' ∧ char ≠ '\t' ∧ char ≠ '\n' ∧ char ≠ '\\' := by
    rintro char accepted
    refine ⟨?_, ?_, ?_, ?_⟩ <;> rintro rfl <;> exact absurd accepted (by decide)
  intro char member
  rcases List.mem_append.mp member with root | inside
  · have inRoot : "/srv/gentoo/".toList.all (fun char => isSafe char || char == '/') = true := by
      decide
    exact marks char (List.all_eq_true.mp inRoot char root)
  · refine marks char ?_
    rw [List.all_eq_true.mp safe char inside, Bool.true_or]

theorem mangle_ne_nil {text : List Char} (nonempty : text ≠ []) : mangle text ≠ [] := by
  cases text with
  | nil => exact absurd rfl nonempty
  | cons char text =>
      rw [mangle, List.flatMap_cons]
      refine List.append_ne_nil_of_left_ne_nil ?_ _
      split_ifs <;> exact List.cons_ne_nil _ _

/-- The lines of some mounts end. -/
theorem ended_mountLines (mounts : List MountLine) :
    mounts.flatMap MountLine.text = [] ∨
      ∃ front, mounts.flatMap MountLine.text = front ++ ['\n'] := by
  rcases List.eq_nil_or_concat' mounts with rfl | ⟨earlier, last, rfl⟩
  · exact Or.inl rfl
  · refine Or.inr ⟨earlier.flatMap MountLine.text ++
      (last.source ++ ' ' :: (mangle last.point ++ ' ' :: last.rest)), ?_⟩
    simp [MountLine.text]

/-- A mount point of the table is among those that are found. -/
theorem mem_mountPoints {host : Host} (opens : host.mountsOpen = true) {mount : MountLine}
    (member : mount ∈ host.mounts) (plain : mount.isPlain = true) (named : mount.point ≠ []) :
    replaceBlanks (mangle mount.point) ∈ mountPoints host := by
  rw [MountLine.isPlain, Bool.and_eq_true, Bool.and_eq_true] at plain
  obtain ⟨⟨hasSource, solidSource⟩, solidPoint⟩ := plain
  have sourced : mount.source ≠ [] := by simpa using hasSource
  have source : ∀ char ∈ mount.source, isSpace char = false := by simpa using solidSource
  have point : ∀ char ∈ mangle mount.point, isSpace char = false := by simpa using solidPoint
  obtain ⟨first, later, parts⟩ := List.append_of_mem member
  let front := mount.source ++ ([' '] ++ (mangle mount.point ++ [' ']))
  have solid : ∀ char ∈ front, char ≠ '\r' ∧ char ≠ '\n' := by
    intro char inside
    have noBreak : ∀ char, isSpace char = false → char ≠ '\r' ∧ char ≠ '\n' := by
      refine fun char solid => ⟨?_, ?_⟩ <;> rintro rfl <;> exact absurd solid (by decide)
    rcases List.mem_append.mp inside with inSource | inside
    · exact noBreak char (source char inSource)
    · rcases List.mem_append.mp inside with blank | inside
      · rw [List.mem_singleton.mp blank]
        decide
      · rcases List.mem_append.mp inside with inPoint | blank
        · exact noBreak char (point char inPoint)
        · rw [List.mem_singleton.mp blank]
          decide
  obtain ⟨lines, reads⟩ := splitOn_universalNewlines (ended_mountLines first)
  obtain ⟨tail, others, pieces⟩ := splitOn_beginning (fun inside => (solid _ inside).2 rfl)
    (universalNewlines (mount.rest ++ ['\n'] ++ later.flatMap MountLine.text))
  have whole : (universalNewlines (mountTable host)).splitOn '\n' =
      lines ++ (front ++ tail) :: others := by
    have table : mountTable host = first.flatMap MountLine.text ++
        (front ++ (mount.rest ++ ['\n'] ++ later.flatMap MountLine.text)) := by
      simp [mountTable, parts, MountLine.text, front]
    rw [table, reads, universalNewlines_append fun char inside => (solid char inside).1, pieces]
  have line : words (front ++ tail) = mount.source :: mangle mount.point :: words tail := by
    have blank : ∀ char ∈ [' '], isSpace char = true := List.forall_mem_singleton.mpr rfl
    have mangled : mangle mount.point ≠ [] := mangle_ne_nil named
    rw [show front ++ tail = mount.source ++ ([' '] ++ (mangle mount.point ++ ([' '] ++ tail))) by
      simp [front], words_word sourced source (List.cons_ne_nil _ _) blank,
      words_word mangled point (List.cons_ne_nil _ _) blank]
  rw [mountPoints, if_pos opens, whole]
  refine List.mem_filterMap.mpr ⟨front ++ tail, ?_, ?_⟩
  · exact List.mem_append_right _ List.mem_cons_self
  · rw [line]

/-- What is at or below a path of plain characters stays so through the table. -/
theorem isUnder_replaceBlanks {path point : List Char}
    (safe : ∀ char ∈ path, char ≠ ' ' ∧ char ≠ '\t' ∧ char ≠ '\n' ∧ char ≠ '\\')
    (under : isUnder path point = true) :
    isUnder path (replaceBlanks (mangle point)) = true := by
  have kept : ∀ rest, replaceBlanks (mangle (path ++ rest)) =
      path ++ replaceBlanks (mangle rest) := by
    intro rest
    rw [mangle_append, mangle_safe safe, replaceBlanks_append fun char member =>
      (safe char member).2.2.2]
  rw [isUnder, Bool.or_eq_true, beq_iff_eq, List.isPrefixOf_iff_prefix] at under ⊢
  rcases under with rfl | ⟨rest, rfl⟩
  · refine Or.inl ?_
    have own := kept []
    rw [List.append_nil] at own
    rw [own]
    exact List.append_nil _
  · refine Or.inr ⟨replaceBlanks (mangle rest), ?_⟩
    rw [List.append_assoc, List.append_assoc, kept]
    rfl

/-- **A mount is seen** if the mount table can be read and its line is plain. -/
theorem hasMountUnder_of_mount {host : Host} (opens : host.mountsOpen = true) {mount : MountLine}
    (member : mount ∈ host.mounts) (plain : mount.isPlain = true) {name : List Char}
    (safe : name.all isSafe = true) (under : isUnder (releasePath name) mount.point = true) :
    hasMountUnder host (releasePath name) = true := by
  have named : mount.point ≠ [] := by
    intro empty
    rw [empty] at under
    exact Bool.noConfusion under
  exact List.any_eq_true.mpr ⟨_, mem_mountPoints opens member plain named,
    isUnder_replaceBlanks (releasePath_safe safe) under⟩

end Mounts

/-! ## Which releases are ranked -/

section Ranked

variable {settings : Settings} {host : Host}

theorem name_readRelease {decimal : Char → Option Nat} {entry : RootEntry} {release : Release}
    (read : readRelease decimal entry = some release) :
    release.name = entry.name ∧ entry.name ≠ [] := by
  rw [readRelease] at read
  split at read
  · split at read
    next long =>
      have nonempty : entry.name ≠ [] := by
        intro empty
        rw [empty] at long
        exact absurd long (by simp)
      split at read
      · obtain rfl := Option.some.inj read
        exact ⟨rfl, nonempty⟩
      · cases read
    next => cases read
  · cases read

theorem isSymlink_readRelease {decimal : Char → Option Nat} {entry : RootEntry}
    {release : Release} (read : readRelease decimal entry = some release) :
    release.isSymlink = entry.isSymlink := by
  rw [readRelease] at read
  split at read
  · split at read
    · split at read
      · obtain rfl := Option.some.inj read
        rfl
      · cases read
    · cases read
  · cases read

/-- The names of the releases are distinct. -/
theorem nodup_names : ((releases host).map Release.name).Nodup := by
  have names : ∀ entries : List RootEntry, ((entries.filterMap (readRelease host.decimal)).map
      Release.name).Sublist (entries.map RootEntry.name) := by
    intro entries
    induction entries with
    | nil => exact List.Sublist.slnil
    | cons entry entries ih =>
        cases read : readRelease host.decimal entry with
        | none =>
            rw [List.filterMap_cons_none read, List.map_cons]
            exact ih.cons _
        | some release =>
            rw [List.filterMap_cons_some read, List.map_cons, List.map_cons,
              (name_readRelease read).1]
            exact ih.cons_cons _
  exact (names host.entries).nodup host.distinct

theorem eq_of_name {first second : Release} (one : first ∈ releases host)
    (two : second ∈ releases host) (same : first.name = second.name) : first = second :=
  List.inj_on_of_nodup_map nodup_names one two same

theorem mem_rankedVariant {variant : List Char} {release : Release} {rank : Nat}
    (member : (release, rank) ∈ rankedVariant host variant) :
    1 ≤ rank ∧ (greatestFirst Release.key ((releases host).filter fun release =>
      release.variant = variant))[rank - 1]? = some release :=
  List.mk_mem_zipIdx_iff_le_and_getElem?_sub.mp member

theorem mem_ranked {release : Release} {rank : Nat} (member : (release, rank) ∈ ranked host) :
    (release, rank) ∈ rankedVariant host release.variant ∧ release ∈ releases host := by
  obtain ⟨variant, -, inside⟩ := List.mem_flatMap.mp member
  have found := List.mem_of_getElem? (mem_rankedVariant inside).2
  obtain ⟨isRelease, same⟩ := List.mem_filter.mp (mem_greatestFirst.mp found)
  rw [of_decide_eq_true same]
  exact ⟨inside, isRelease⟩

/-- A rank counts the newer releases of the variant. -/
theorem rank_le {release : Release} {rank : Nat} (member : (release, rank) ∈ ranked host) :
    rank ≤ ((releases host).filter fun other =>
      other.variant = release.variant ∧ release.key < other.key).length + 1 := by
  obtain ⟨positive, found⟩ := mem_rankedVariant (mem_ranked member).1
  have distinct : (((releases host).filter fun other =>
      other.variant = release.variant).map Release.key).Nodup := by
    refine List.Nodup.map_on (fun first one second two same => ?_)
      (nodup_names.of_map.filter _)
    exact eq_of_name (List.mem_of_mem_filter one) (List.mem_of_mem_filter two)
      (congrArg (fun key => (ofLex key).2) same)
  have counted := position_le_greater distinct found
  rw [List.filter_filter] at counted
  have same : ((releases host).filter fun other => decide (release.key < other.key) &&
      decide (other.variant = release.variant)) = (releases host).filter fun other =>
        other.variant = release.variant ∧ release.key < other.key := by
    refine List.filter_congr fun other _ => ?_
    rw [Bool.decide_and, Bool.and_comm]
  rw [same] at counted
  omega

/-! ## What a run deletes -/

theorem deleted_pruneLoop (items : List (Release × Nat)) (outcome : Outcome) :
    outcome.deleted ⊆ (pruneLoop settings host items outcome).deleted := by
  induction items generalizing outcome with
  | nil => exact List.Subset.refl _
  | cons item rest ih =>
      rw [pruneLoop]
      split
      · exact ih outcome
      · split
        · split
          · exact List.Subset.refl _
          · exact fun name member => ih _ (List.mem_append_left _ member)
        · exact ih outcome

/-- What is not deleted stays as it is. -/
theorem entries_pruneLoop (items : List (Release × Nat)) {outcome : Outcome} {entry : RootEntry}
    (here : entry ∈ outcome.entries)
    (kept : entry.name ∉ (pruneLoop settings host items outcome).deleted) :
    entry ∈ (pruneLoop settings host items outcome).entries := by
  induction items generalizing outcome with
  | nil => exact here
  | cons item rest ih =>
      rw [pruneLoop] at kept ⊢
      split at kept
      next stays =>
        rw [if_pos stays]
        exact ih here kept
      next goes =>
        rw [if_neg goes]
        split at kept
        next applies =>
          rw [if_pos applies]
          split at kept
          next link =>
            rw [if_pos link]
            exact here
          next real =>
            rw [if_neg real]
            refine ih (List.mem_filter.mpr ⟨here, decide_eq_true fun same => ?_⟩) kept
            refine kept (deleted_pruneLoop rest _ ?_)
            rw [same]
            exact List.mem_append_right _ (List.mem_singleton.mpr rfl)
        next shows =>
          rw [if_neg shows]
          exact ih here kept

/-- A run deletes what nothing protects, up to the first link. -/
theorem mem_deleted_pruneLoop (applies : settings.apply = true) (items : List (Release × Nat))
    {outcome : Outcome} {name : List Char} :
    name ∈ (pruneLoop settings host items outcome).deleted ↔ name ∈ outcome.deleted ∨
      ∃ before item after, items = before ++ item :: after ∧
        (∀ earlier ∈ before, reasons settings host earlier.1 earlier.2 = [] →
          earlier.1.isSymlink = false) ∧
        reasons settings host item.1 item.2 = [] ∧ item.1.isSymlink = false ∧
          item.1.name = name := by
  induction items generalizing outcome with
  | nil =>
      refine ⟨Or.inl, fun either => either.elim id ?_⟩
      rintro ⟨before, item, after, parts, -⟩
      exact absurd parts.symm (List.append_ne_nil_of_right_ne_nil _ (List.cons_ne_nil _ _))
  | cons item rest ih =>
      have tail : (∃ before chosen after, item :: rest = before ++ chosen :: after ∧
          (∀ earlier ∈ before, reasons settings host earlier.1 earlier.2 = [] →
            earlier.1.isSymlink = false) ∧
          reasons settings host chosen.1 chosen.2 = [] ∧ chosen.1.isSymlink = false ∧
            chosen.1.name = name) ↔
          (reasons settings host item.1 item.2 = [] ∧ item.1.isSymlink = false ∧
            item.1.name = name) ∨
          ((reasons settings host item.1 item.2 = [] → item.1.isSymlink = false) ∧
            ∃ before chosen after, rest = before ++ chosen :: after ∧
              (∀ earlier ∈ before, reasons settings host earlier.1 earlier.2 = [] →
                earlier.1.isSymlink = false) ∧
              reasons settings host chosen.1 chosen.2 = [] ∧ chosen.1.isSymlink = false ∧
                chosen.1.name = name) := by
        constructor
        · rintro ⟨before, chosen, after, parts, passed, here⟩
          cases before with
          | nil =>
              rw [List.nil_append, List.cons.injEq] at parts
              exact .inl (parts.1 ▸ here)
          | cons first before =>
              rw [List.cons_append, List.cons.injEq] at parts
              refine .inr ⟨parts.1 ▸ passed first (List.mem_cons_self ..), before, chosen, after,
                parts.2, fun earlier member => passed earlier (List.mem_cons_of_mem _ member), here⟩
        · rintro (here | ⟨first, before, chosen, after, parts, passed, here⟩)
          · exact ⟨[], item, rest, rfl, fun _ never => absurd never List.not_mem_nil, here⟩
          · exact ⟨item :: before, chosen, after, parts ▸ rfl,
              List.forall_mem_cons.mpr ⟨first, passed⟩, here⟩
      rw [tail, pruneLoop]
      by_cases goes : reasons settings host item.1 item.2 = []
      · rw [if_neg (by simp [goes]), if_pos applies]
        cases link : item.1.isSymlink with
        | true =>
            rw [if_pos rfl]
            refine ⟨Or.inl, fun either => either.elim id ?_⟩
            rintro (⟨-, real, -⟩ | ⟨real, -⟩)
            · exact Bool.noConfusion real
            · exact Bool.noConfusion (real goes)
        | false =>
            rw [if_neg Bool.false_ne_true, ih, List.mem_append, List.mem_singleton, or_assoc]
            refine or_congr Iff.rfl (or_congr ?_ ?_)
            · exact ⟨fun same => ⟨goes, rfl, same.symm⟩, fun here => here.2.2.symm⟩
            · exact ⟨fun later => ⟨fun _ => rfl, later⟩, And.right⟩
      · rw [if_pos (by simp [goes]), ih]
        refine or_congr Iff.rfl ⟨fun later => .inr ⟨fun empty => absurd empty goes, later⟩, ?_⟩
        rintro (⟨empty, -⟩ | ⟨-, later⟩)
        · exact absurd empty goes
        · exact later

/-- Without permission nothing is deleted. -/
theorem deleted_pruneLoop_of_not (shows : settings.apply = false) (items : List (Release × Nat))
    (outcome : Outcome) :
    (pruneLoop settings host items outcome).deleted = outcome.deleted := by
  induction items with
  | nil => rfl
  | cons item rest ih =>
      rw [pruneLoop, shows, if_neg Bool.false_ne_true, ite_self, ih]

/-- The names that a run deletes. -/
theorem mem_deleted_prune {name : List Char} : name ∈ (prune settings host).deleted ↔
    Runs settings host ∧ ∃ item ∈ ranked host, reasons settings host item.1 item.2 = [] ∧
      item.1.isSymlink = false ∧ Comes settings host item ∧ item.1.name = name := by
  have found : (∃ before item after, ranked host = before ++ item :: after ∧
      (∀ earlier ∈ before, reasons settings host earlier.1 earlier.2 = [] →
        earlier.1.isSymlink = false) ∧
      reasons settings host item.1 item.2 = [] ∧ item.1.isSymlink = false ∧
        item.1.name = name) ↔
      ∃ item ∈ ranked host, reasons settings host item.1 item.2 = [] ∧
        item.1.isSymlink = false ∧ Comes settings host item ∧ item.1.name = name := by
    constructor
    · rintro ⟨before, item, after, parts, passed, empty, real, same⟩
      refine ⟨item, ?_, empty, real, ⟨before, after, parts, passed⟩, same⟩
      rw [parts]
      exact List.mem_append_right _ (List.mem_cons_self ..)
    · rintro ⟨item, -, empty, real, ⟨before, after, parts, passed⟩, same⟩
      exact ⟨before, item, after, parts, passed, empty, real, same⟩
  rw [prune, ← found]
  split
  next valid =>
    split
    next refused =>
      refine iff_of_false List.not_mem_nil fun runs => ?_
      rw [runs.1.confirmed, bne_self_eq_false, Bool.and_false] at refused
      exact Bool.false_ne_true refused
    next permitted =>
      split
      next isRoot =>
        cases applies : settings.apply with
        | true =>
            have confirmed : settings.confirm = settings.confirmValue := by
              rw [applies, Bool.true_and, bne_iff_ne, ne_eq, not_not] at permitted
              exact permitted
            rw [mem_deleted_pruneLoop applies, and_iff_right
              ⟨valid.1, valid.2, applies, confirmed, isRoot⟩]
            exact or_iff_right List.not_mem_nil
        | false =>
            rw [deleted_pruneLoop_of_not applies]
            refine iff_of_false List.not_mem_nil fun runs => ?_
            exact Bool.noConfusion (applies.symm.trans runs.1.apply)
      next missing =>
        exact iff_of_false List.not_mem_nil fun runs => missing runs.1.root
  next invalid =>
    exact iff_of_false List.not_mem_nil fun runs => invalid ⟨runs.1.generations, runs.1.age⟩

/-! ## What the sources protect -/

theorem reasons_eq_nil {release : Release} {rank : Nat} :
    reasons settings host release rank = [] ↔ ¬(rank : Int) ≤ settings.keepGenerations ∧
      ¬(0 < settings.minReleaseAgeDays ∧
        ageDays host release < settings.minReleaseAgeDays) ∧
      isProtected settings host release.name = false ∧
        hasMountUnder host (releasePath release.name) = false := by
  simp only [reasons, List.append_eq_nil_iff, ite_eq_right_iff, List.cons_ne_nil, imp_false,
    Bool.not_eq_true, and_assoc]

theorem isSpace_of_isSafe {char : Char} (safe : isSafe char = true) : isSpace char = false := by
  rw [isSafe, Bool.or_eq_true, Bool.or_eq_true, Bool.or_eq_true, beq_iff_eq, beq_iff_eq,
    beq_iff_eq] at safe
  rcases safe with ((alphanum | rfl) | rfl) | rfl
  · exact (isVisible_of_isAlphanum alphanum).notSpace
  · rfl
  · rfl
  · rfl

/-- A name of safe characters is clean. -/
theorem cleanRelease_of_safe {name : List Char} (safe : name.all isSafe = true) :
    cleanRelease name = name := by
  have solid : ∀ char ∈ name, isSpace char = false := fun char inside =>
    isSpace_of_isSafe (List.all_eq_true.mp safe char inside)
  have whole : strip name = name := strip_of_solid solid
  rw [cleanRelease, whole, if_pos safe]

/-- A clean name is protected by every value that names it. -/
theorem cleanRelease_of_names {value name : List Char} (safe : name.all isSafe = true)
    (names : Names value name) : cleanRelease value = name := by
  rcases names with rfl | rfl
  · exact cleanRelease_of_safe safe
  · exact if_pos safe

/-- The protected release of a host is the one that it is configured with, if that is clean. -/
theorem release_of_configured {pxeHost : PxeHost} {name : List Char}
    (safe : name.all isSafe = true) (nonempty : name ≠ [])
    (names : Names pxeHost.configured name) : pxeHost.release = name := by
  rw [PxeHost.configured] at names
  rw [PxeHost.release]
  split at names
  next missing =>
    have absent : cleanRelease pxeHost.rootfsRelease = [] := by
      rw [cleanRelease, List.isEmpty_iff.mp missing]
      rfl
    rw [absent, if_pos List.isEmpty_nil]
    exact cleanRelease_of_names safe names
  next =>
    rw [cleanRelease_of_names safe names, if_neg (by simpa using nonempty)]

theorem isProtected_of_mem {name : List Char} (nonempty : name ≠ [])
    (member : name ∈ protectedNames settings host) : isProtected settings host name = true := by
  rw [isProtected, List.contains_iff_mem.mpr member, Bool.and_true]
  cases name with
  | nil => exact absurd rfl nonempty
  | cons => rfl

/-- The texts that were read are those of the boards whose file is seen and can be read. -/
theorem mem_readCmdlines {board : Board} (isBoard : board ∈ boards host) {cmdline : Cmdline}
    (has : cmdline ∈ board.cmdline) (read : (cmdline.isFile && cmdline.opens) = true) :
    cmdline.text ∈ readCmdlines host := by
  refine List.mem_filterMap.mpr ⟨board, isBoard, ?_⟩
  rw [Option.mem_def.mp has, Option.filter_some, if_pos read, Option.map_some]

/-- A clean release that is not protected is named by no source that was read. -/
theorem unnamed_of_unprotected {name : List Char} (safe : name.all isSafe = true)
    (nonempty : name ≠ []) (unprotected : isProtected settings host name = false) :
    Unnamed settings host name := by
  have absent : name ∉ protectedNames settings host := fun member =>
    Bool.noConfusion (unprotected.symm.trans (isProtected_of_mem nonempty member))
  simp only [protectedNames, List.mem_append, not_or] at absent
  obtain ⟨⟨⟨explicit, -⟩, hosts⟩, cmdlines⟩ := absent
  refine ⟨fun value member names => explicit ?_, fun pxeHost member names => hosts ?_,
    fun text member names => cmdlines ?_⟩
  · exact List.mem_map.mpr ⟨value, member, cleanRelease_of_names safe names⟩
  · exact List.mem_map.mpr ⟨pxeHost, member, release_of_configured safe nonempty names⟩
  · exact List.mem_flatMap.mpr
      ⟨text, member, List.mem_map.mpr ⟨name, names, cleanRelease_of_safe safe⟩⟩

/-- What stays clear is unused, if nothing that was read protects it. -/
theorem unused_of_staysClear {release : Release} {rank : Nat}
    (member : (release, rank) ∈ ranked host)
    (free : reasons settings host release rank = []) (clear : StaysClear settings host release) :
    Unused settings host release := by
  obtain ⟨outranked, old, unprotected, unseen⟩ := reasons_eq_nil.mp free
  have counted := rank_le member
  obtain ⟨entry, -, read⟩ := List.mem_filterMap.mp (mem_ranked member).2
  obtain ⟨sameName, named⟩ := name_readRelease read
  have nonempty : release.name ≠ [] := sameName ▸ named
  have unnamed : Unnamed settings host release.name := by
    cases safe : release.name.all isSafe with
    | true => exact unnamed_of_unprotected safe nonempty unprotected
    | false => exact clear.unnamed safe
  refine ⟨by omega, fun wanted => ?_, unnamed.explicit, unnamed.configured, ?_, ?_⟩
  · exact not_lt.mp fun young => old ⟨wanted, young⟩
  · intro board isBoard cmdline has
    cases wasRead : cmdline.isFile && cmdline.opens with
    | true => exact unnamed.active _ (mem_readCmdlines isBoard has wasRead)
    | false => exact clear.unread board isBoard cmdline has wasRead
  · intro mount isMount
    cases isSeen : host.mountsOpen && mount.isPlain && release.name.all isSafe with
    | false => exact clear.unmounted mount isMount isSeen
    | true =>
        rw [Bool.and_eq_true, Bool.and_eq_true] at isSeen
        refine (Bool.not_eq_true _).mp fun under => ?_
        have found := hasMountUnder_of_mount isSeen.1.1 isMount isSeen.1.2 isSeen.2 under
        exact Bool.noConfusion (unseen.symm.trans found)

/-- No release that is kept is a link into one that a run deletes, if it deletes unused
releases only. -/
theorem staysClear_of_unused {release : Release} (unused : Unused settings host release)
    (unlinked : ∀ entry ∈ host.entries, (readRelease host.decimal entry).isSome = true →
      entry.leadsInto ≠ some release.name) : StaysClear settings host release where
  unread board isBoard cmdline has _ := unused.notActive board isBoard cmdline has
  unmounted mount isMount _ := unused.notMounted mount isMount
  unlinked := unlinked
  unnamed _ := by
    refine ⟨unused.notExplicit, unused.notConfigured, fun text member names => ?_⟩
    obtain ⟨board, isBoard, found⟩ := List.mem_filterMap.mp member
    obtain ⟨cmdline, filtered, isText⟩ := Option.map_eq_some_iff.mp found
    have has := (Option.filter_eq_some_iff.mp filtered).1
    exact unused.notActive board isBoard cmdline has (isText ▸ names)

/-- What is not deleted is left. -/
theorem entries_prune {entry : RootEntry} (here : entry ∈ host.entries)
    (kept : entry.name ∉ (prune settings host).deleted) :
    entry ∈ (prune settings host).entries := by
  rw [prune] at kept ⊢
  split at kept
  next valid =>
    rw [if_pos valid]
    split at kept
    next refused =>
      rw [if_pos refused]
      exact here
    next permitted =>
      rw [if_neg permitted]
      split at kept
      next isRoot =>
        rw [if_pos isRoot]
        exact entries_pruneLoop _ here kept
      next missing =>
        rw [if_neg missing]
        exact here
  next invalid =>
    rw [if_neg invalid]
    exact here

/-- A link is not deleted. -/
theorem kept_of_leadsInto {entry : RootEntry} {into : List Char} (here : entry ∈ host.entries)
    (leads : entry.leadsInto = some into) : entry.name ∉ (prune settings host).deleted := by
  intro deleted
  obtain ⟨-, item, member, -, real, -, same⟩ := mem_deleted_prune.mp deleted
  obtain ⟨own, isEntry, read⟩ := List.mem_filterMap.mp (mem_ranked member).2
  obtain ⟨sameName, -⟩ := name_readRelease read
  obtain rfl := List.inj_on_of_nodup_map host.distinct isEntry here (sameName.symm.trans same)
  rw [isSymlink_readRelease read] at real
  rw [RootEntry.isSymlink] at real
  rw [RootEntry.leadsInto] at leads
  cases kind : own.kind with
  | plain =>
      rw [kind] at leads
      cases leads
  | link =>
      rw [kind] at real
      cases real

/-- **A run deletes unused releases only exactly where it overlooks nothing**: no
release that it deletes is used by a `cmdline.txt` or a mount that it did not read, or
named where its name is not compared. -/
theorem deletesUnused_iff (settings : Settings) (host : Host) :
    DeletesUnused settings host ↔ NothingOverlooked settings host := by
  constructor
  · rintro ⟨unused, kept⟩ runs item member free real comes
    have isRelease := (mem_ranked member).2
    have deleted : item.1.name ∈ (prune settings host).deleted :=
      mem_deleted_prune.mpr ⟨runs, item, member, free, real, comes, rfl⟩
    refine staysClear_of_unused (unused item.1 isRelease deleted) fun entry here isSome leads => ?_
    exact (kept entry here (kept_of_leadsInto here leads)).2 isSome item.1.name leads deleted
  · intro overlooked
    refine ⟨fun release isRelease deleted => ?_, fun entry here kept =>
      ⟨entries_prune here kept, fun isSome into leads deleted => ?_⟩⟩
    · obtain ⟨runs, item, member, free, real, comes, same⟩ := mem_deleted_prune.mp deleted
      obtain rfl := eq_of_name (mem_ranked member).2 isRelease same
      exact unused_of_staysClear member free (overlooked runs item member free real comes)
    · obtain ⟨runs, item, member, free, real, comes, rfl⟩ := mem_deleted_prune.mp deleted
      exact (overlooked runs item member free real comes).unlinked entry here isSome leads

end Ranked

/-! ## A `cmdline.txt` that cannot be read -/

def sampleSettings : Settings where
  keepGenerations := 1
  minReleaseAgeDays := 0
  apply := true
  confirm := ['y', 'e', 's']
  confirmValue := ['y', 'e', 's']
  explicitProtected := []
  gentooRelease := []
  pxeHosts := []

/-- Two releases, and a board that boots the older one. -/
def sampleHost : Host where
  rootIsDir := true
  entries :=
    [⟨"20260101".toList, .plain, true, true, []⟩, ⟨"20260102".toList, .plain, true, true, []⟩]
  distinct := by decide
  tftpRoot := some [⟨"0a1b2c3d".toList, some ⟨"/gentoo/20260101/nfs".toList, true, false⟩⟩]
  mounts := []
  mountsOpen := true
  decimal char := if char.isDigit then some (char.toNat - 48) else none
  today := ⟨2026, 3, 1⟩

/-- The release that the board boots is deleted. -/
theorem not_deletesUnused_sample : ¬ DeletesUnused sampleSettings sampleHost := by
  rintro ⟨unused, -⟩
  have clear := unused ⟨"20260101".toList, ⟨2026, 1, 1⟩, "base".toList, false⟩
    (by decide +kernel) (by decide +kernel)
  exact clear.notActive ⟨"0a1b2c3d".toList, some ⟨"/gentoo/20260101/nfs".toList, true, false⟩⟩
    (by decide +kernel) _ rfl (by decide +kernel)

end HomeclusterInfra.Tftp.Prune
