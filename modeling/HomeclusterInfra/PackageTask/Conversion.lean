import HomeclusterInfra.Library.Chunks
import HomeclusterInfra.Library.Checked
import HomeclusterInfra.Library.Regex
import HomeclusterInfra.Library.Text

/-!
# Converting a package task

`convert_openwrt_package_task.py` replaces one task of a task file, which installs
or removes packages, by an inclusion of the role `openwrt_package`. It finds the
task by its name and lets it reach to the next `- name:` line at the same
indentation. Of the keyed chunks in between it drops those that the role replaces.

An error is the message of `SystemExit`.
-/

set_option autoImplicit false

namespace HomeclusterInfra.PackageTask

open Text Checked Chunks Regex Regex.Rx

/-! ## Lines -/

/-- `str.splitlines(keepends=True)`, where `line` holds what was read of the line, last
character first. -/
def splitlinesKeepFrom : List Char → List Char → List (List Char)
  | line, [] => if line.isEmpty then [] else [line.reverse]
  | line, '\r' :: '\n' :: rest => ('\n' :: '\r' :: line).reverse :: splitlinesKeepFrom [] rest
  | line, char :: rest =>
      if isLineBreak char then (char :: line).reverse :: splitlinesKeepFrom [] rest
      else splitlinesKeepFrom (char :: line) rest

/-- `str.splitlines(keepends=True)` -/
def splitlinesKeep (text : List Char) : List (List Char) :=
  splitlinesKeepFrom [] text

theorem flatten_splitlinesKeepFrom (line text : List Char) :
    (splitlinesKeepFrom line text).flatten = line.reverse ++ text := by
  induction line, text using splitlinesKeepFrom.induct with
  | case1 line empty =>
      rw [splitlinesKeepFrom, if_pos empty, List.isEmpty_iff.mp empty]
      rfl
  | case2 line visible =>
      rw [splitlinesKeepFrom, if_neg visible, List.append_nil]
      exact List.flatten_singleton
  | case3 line rest ih =>
      rw [splitlinesKeepFrom, List.flatten_cons, ih]
      simp
  | case4 line char rest apart isBreak ih =>
      rw [splitlinesKeepFrom, if_pos isBreak, List.flatten_cons, ih]
      · simp
      · exact apart
  | case5 line char rest apart inside ih =>
      rw [splitlinesKeepFrom, if_neg inside, ih]
      · simp
      · exact apart

/-- **The lines make up the text.** -/
theorem flatten_splitlinesKeep (text : List Char) : (splitlinesKeep text).flatten = text :=
  flatten_splitlinesKeepFrom [] text

/-! ## The task -/

/-- The indentation of a line. -/
def indentation (line : List Char) : List Char :=
  line.takeWhile isSpace

/-- `^(\s*)- name: <task name>\n?$` -/
def isHeader (taskName line : List Char) : Bool :=
  let rest := line.drop (indentation line).length
  let header := "- name: ".toList ++ taskName
  rest == header || rest == header ++ ['\n']

/-- `^<indent>- name: ` -/
def isNextTask (indent line : List Char) : Bool :=
  (indent ++ "- name: ".toList).isPrefixOf line

structure TaskBlock where
  start : Nat
  stop : Nat
  indent : List Char
  lines : List (List Char)

/-- `find_task_block` -/
def findTaskBlock (lines : List (List Char)) (taskName : List Char) :
    Except (List Char) TaskBlock :=
  let start := (lines.takeWhile fun line => !isHeader taskName line).length
  match lines.drop start with
  | [] => .error ("task not found: ".toList ++ taskName)
  | header :: rest =>
      let own := rest.takeWhile fun line => !isNextTask (indentation header) line
      .ok ⟨start, start + 1 + own.length, indentation header, header :: own⟩

/-- `[A-Za-z0-9_.-]` -/
def isKeyChar (char : Char) : Bool :=
  char.isAlphanum || char == '_' || char == '.' || char == '-'

/-- `top_level_key`: `^<indent>  ([A-Za-z0-9_.-]+):(?:\s|$)` -/
def topLevelKey (indent line : List Char) : Option (List Char) :=
  if (indent ++ [' ', ' ']).isPrefixOf line then
    let rest := line.drop (indent.length + 2)
    let key := rest.takeWhile isKeyChar
    match rest.drop key.length with
    | ':' :: more =>
        if !key.isEmpty && (more.isEmpty || more.head?.any isSpace) then some key else none
    | _ => none
  else none

/-- `top_level_chunks` -/
def topLevelChunks (block : TaskBlock) : List (List Char × List (List Char)) :=
  chunks (topLevelKey block.indent) (block.lines.drop 1)

/-! ## The package expression -/

section Expression

variable [UnicodeData]

/-- `derive_loop_expression` -/
def deriveLoopExpression (block : TaskBlock) : Option (List Char) :=
  (topLevelChunks block).findSome? fun (key, chunk) =>
    if key == "loop".toList then
      chunk.head?.map fun line => strip ((line.dropWhile (· != ':')).drop 1)
    else none

/-- `^<indent>    name:\s*(.+?)\s*$`, where the value is stripped. -/
def nameValue (indent line : List Char) : Option (List Char) :=
  let head := indent ++ "    name:".toList
  if head.isPrefixOf line && (line.drop head.length).any (· != '\n') then
    some (strip (line.drop head.length))
  else none

/-- The ways to write the item of a loop. -/
def itemExpressions : List (List Char) :=
  ["\"\x7b\x7b item \x7d\x7d\"", "'\x7b\x7b item \x7d\x7d'", "\x7b\x7b item \x7d\x7d"].map
    String.toList

def isQuote (char : Char) : Bool :=
  char == '\'' || char == '"'

/-- What the name of an `opkg` chunk says. -/
def nameExpression (value : List Char) : Option (List Char) :=
  if itemExpressions.contains value then none
  else
    let value := if value.head?.any isQuote && value.getLast?.any isQuote then
      (value.drop 1).dropLast else value
    if "\x7b\x7b".toList.isPrefixOf value then some value
    else some ("['".toList ++ value ++ "']".toList)

/-- `derive_opkg_name_expression` -/
def deriveOpkgNameExpression (block : TaskBlock) : Option (List Char) :=
  let opkg := (topLevelChunks block).filter fun chunk => chunk.1 == "ansible.builtin.opkg".toList
  ((opkg.flatMap Prod.snd).findSome? (nameValue block.indent)).bind nameExpression

def isWordChar (char : Char) : Bool :=
  UnicodeData.isAlnum char || char == '_'

/-- `\b` -/
def wordBoundary : Rx Char :=
  .look fun past rest => past.head?.any isWordChar != rest.head?.any isWordChar

/-- `\bopkg\s+remove\s+([A-Za-z0-9_.+-]+)\b` -/
def removePattern : Rx Char :=
  cat [wordBoundary, .word "opkg".toList, plus (symbol isSpace), .word "remove".toList,
    plus (symbol isSpace), group 1 (plus (symbol fun char => isKeyChar char || char == '+')),
    wordBoundary]

/-- `derive_remove_expression` -/
def deriveRemoveExpression (block : TaskBlock) : Option (List Char) :=
  (removePattern.search block.lines.flatten).map fun (_, after) =>
    "['".toList ++ after.captured 1 ++ "']".toList

def isNameStart (char : Char) : Bool :=
  char.isAlpha || char == '_'

/-- `^[A-Za-z_][A-Za-z0-9_]*(\s*\|.*)?$` of a stripped text. -/
def isBareExpression (value : List Char) : Bool :=
  let rest := (value.drop 1).dropWhile fun char => char.isAlphanum || char == '_'
  let filter := rest.dropWhile isSpace
  value.head?.any isNameStart &&
    (rest.isEmpty || (filter.head? == some '|' && !filter.contains '\n'))

/-- `normalize_package_expression` -/
def normalizePackageExpression (raw : List Char) : Except (List Char) (List Char) :=
  let value := strip raw
  if value.isEmpty then .error "package expression is empty".toList
  else if value.head?.any isQuote then .ok value
  else if "\x7b\x7b".toList.isPrefixOf value && "\x7d\x7d".toList.isSuffixOf value then
    .ok ('"' :: value ++ ['"'])
  else if value.head? == some '[' || value.head? == some '\x7b' then .ok value
  else if isBareExpression value then
    .ok ("\"\x7b\x7b ".toList ++ value ++ " \x7d\x7d\"".toList)
  else .ok value

end Expression

/-! ## The conversion -/

/-- `--state` -/
inductive State where
  | present
  | absent
deriving DecidableEq

def State.text : State → List Char
  | .present => "present".toList
  | .absent => "absent".toList

/-- `CONSUMED_KEYS` -/
def consumedKeys : List (List Char) :=
  ["ansible.builtin.opkg", "ansible.builtin.shell", "loop", "loop_control", "register",
    "changed_when", "failed_when"].map String.toList

/-- The key of a chunk that the conversion keeps. -/
def isPreserved (key : List Char) : Bool :=
  !consumedKeys.contains key

/-- `default_update_cache` -/
def defaultUpdateCache : State → List Char
  | .absent => "false".toList
  | .present => "\"\x7b\x7b openwrt_opkg_update | default(true) \x7d\x7d\"".toList

section Conversion

variable [UnicodeData]

/-- `validate_supported_source` -/
def validateSupportedSource (block : TaskBlock) (state : State) : Except (List Char) Unit :=
  let keys := (topLevelChunks block).map Prod.fst
  if keys.contains "ansible.builtin.opkg".toList then
    require (keys.contains "loop".toList || (deriveOpkgNameExpression block).isSome)
      "opkg conversion requires a loop package list or literal package name".toList
  else
    require (state == .absent && keys.contains "ansible.builtin.shell".toList &&
        (deriveRemoveExpression block).isSome)
      "supported source task not found: expected opkg loop or raw opkg remove task".toList

/-- The package expression that is given, or the one that can be derived. -/
def chosenExpression (block : TaskBlock) (packageExpression : Option (List Char)) (state : State) :
    Option (List Char) :=
  packageExpression <|> deriveLoopExpression block <|> deriveOpkgNameExpression block <|>
    if state = .absent then deriveRemoveExpression block else none

/-- The lines that include the role. -/
def includeLines (indent names : List Char) (state : State) (updateCache : List Char) :
    List (List Char) :=
  ["  ansible.builtin.include_role:\n".toList, "    name: openwrt_package\n".toList,
    "  vars:\n".toList, "    openwrt_package_names: ".toList ++ names ++ ['\n'],
    "    openwrt_package_state: ".toList ++ state.text ++ ['\n'],
    "    openwrt_package_update_cache: ".toList ++ updateCache ++ ['\n']].map (indent ++ ·)

/-- `convert_block` -/
def convertBlock (block : TaskBlock) (packageExpression : Option (List Char)) (state : State)
    (updateCache : Option (List Char)) : Except (List Char) (List (List Char)) := do
  validateSupportedSource block state
  let expression ← (chosenExpression block packageExpression state).elim
    (.error "package expression could not be derived; pass --package-expression".toList) .ok
  let names ← normalizePackageExpression expression
  let cache := updateCache.filter fun value => !value.isEmpty
  let preserved := (topLevelChunks block).filter fun chunk => isPreserved chunk.1
  return block.lines.take 1 ++
    includeLines block.indent names state (cache.getD (defaultUpdateCache state)) ++
      preserved.flatMap Prod.snd

/-- The lines that `convert_text` joins. -/
def convertLines (text taskName : List Char) (packageExpression : Option (List Char))
    (state : State) (updateCache : Option (List Char)) : Except (List Char) (List (List Char)) := do
  let lines := splitlinesKeep text
  let block ← findTaskBlock lines taskName
  let converted ← convertBlock block packageExpression state updateCache
  return lines.take block.start ++ converted ++ lines.drop block.stop

/-- `convert_text` -/
def convertText (text taskName : List Char) (packageExpression : Option (List Char))
    (state : State) (updateCache : Option (List Char)) : Except (List Char) (List Char) :=
  (convertLines text taskName packageExpression state updateCache).map List.flatten

end Conversion

/-! ## The lines of a task -/

/-- A line of a list item whose dash stands behind `indent`: a blank one, or one that is
indented deeper. -/
def belongs (indent line : List Char) : Bool :=
  line.all isSpace || indent.length < (indentation line).length

/-- The first task of a name: its header, its own lines, and what stands before and
behind it. -/
structure TaskAt (lines : List (List Char)) (taskName : List Char) (before : List (List Char))
    (header : List Char) (own after : List (List Char)) : Prop where
  parts : lines = before ++ header :: (own ++ after)
  first : ∀ line ∈ before, isHeader taskName line = false
  named : isHeader taskName header = true
  own : ∀ line ∈ own, belongs (indentation header) line = true
  ends : ∀ line, after.head? = some line → belongs (indentation header) line = false

section Lines

variable {indent line rest : List Char}

theorem indentation_append {char : Char} (blank : ∀ char ∈ indent, isSpace char = true)
    (visible : isSpace char = false) : indentation (indent ++ char :: rest) = indent := by
  rw [indentation, List.takeWhile_append_of_pos blank, List.takeWhile_cons_of_neg, List.append_nil]
  rw [visible]
  exact Bool.false_ne_true

theorem indentation_blank (line : List Char) : ∀ char ∈ indentation line, isSpace char = true :=
  fun _ member => List.mem_takeWhile_imp member

/-- A line that begins with more blanks belongs to the item. -/
theorem belongs_of_deeper (blank : ∀ char ∈ indent, isSpace char = true) {first : Char}
    (isBlank : isSpace first = true) : belongs indent (indent ++ first :: rest) = true := by
  have deeper : indentation (indent ++ first :: rest) = indent ++ first :: indentation rest := by
    rw [indentation, List.takeWhile_append_of_pos blank, List.takeWhile_cons_of_pos isBlank]
    rfl
  rw [belongs, deeper, Bool.or_eq_true, decide_eq_true_eq, List.length_append, List.length_cons]
  exact .inr (by omega)

theorem not_belongs_of_isNextTask (blank : ∀ char ∈ indent, isSpace char = true)
    (next : isNextTask indent line = true) : belongs indent line = false := by
  obtain ⟨rest, rfl⟩ := List.isPrefixOf_iff_prefix.mp next
  have dash : indent ++ "- name: ".toList ++ rest = indent ++ '-' :: (" name: ".toList ++ rest) := by
    rw [List.append_assoc]
    rfl
  have visible : (indent ++ '-' :: (" name: ".toList ++ rest)).all isSpace = false := by
    rw [List.all_append, List.all_cons]
    exact Bool.and_false _
  rw [dash, belongs, visible, indentation_append blank (by rfl)]
  simp

/-- A line with a key belongs to the item. -/
theorem topLevelKey_of_not_belongs (blank : ∀ char ∈ indent, isSpace char = true)
    (foreign : belongs indent line = false) : topLevelKey indent line = none := by
  unfold topLevelKey
  rw [if_neg]
  intro deeper
  obtain ⟨rest, rfl⟩ := List.isPrefixOf_iff_prefix.mp deeper
  rw [List.append_assoc, List.cons_append, belongs_of_deeper blank (by rfl)] at foreign
  exact Bool.false_ne_true foreign.symm

theorem isNextTask_of_isHeader {taskName : List Char} (named : isHeader taskName line = true) :
    isNextTask (indentation line) line = true := by
  have parts := @List.takeWhile_append_dropWhile _ isSpace line
  have back : line.drop (indentation line).length = line.dropWhile isSpace :=
    (congrArg (List.drop (indentation line).length) parts.symm).trans List.drop_left
  simp only [isHeader, back, Bool.or_eq_true, beq_iff_eq] at named
  refine List.isPrefixOf_iff_prefix.mpr ?_
  rcases named with ends | ends
  · exact ⟨taskName, by rw [List.append_assoc, ← ends]; exact parts⟩
  · refine ⟨taskName ++ ['\n'], ?_⟩
    rw [List.append_assoc, ← List.append_assoc _ taskName, ← ends]
    exact parts

theorem belongs_of_mem_includeLines {names updateCache : List Char} {state : State}
    (blank : ∀ char ∈ indent, isSpace char = true)
    (member : line ∈ includeLines indent names state updateCache) : belongs indent line = true := by
  obtain ⟨tail, listed, rfl⟩ := List.mem_map.mp member
  have begins : ∃ rest, tail = ' ' :: rest := by
    simp only [List.mem_cons, List.not_mem_nil, or_false] at listed
    rcases listed with rfl | rfl | rfl | rfl | rfl | rfl <;> exact ⟨_, rfl⟩
  obtain ⟨rest, rfl⟩ := begins
  exact belongs_of_deeper blank (by rfl)

end Lines

/-! ## What a conversion leaves alone -/

section Frame

variable {lines before own after output : List (List Char)} {text taskName header : List Char}

/-- The lines from the end of the task to the next `- name:` line at its indentation. -/
def foreignLines (indent : List Char) (after : List (List Char)) : List (List Char) :=
  after.takeWhile fun line => !isNextTask indent line

/-- No line is dropped that does not belong to the task: there is none before the next
`- name:` line at its indentation, or the last key of the task is one that the
conversion keeps, and so is every key that it finds in those lines. -/
def NothingDropped (indent : List Char) (own after : List (List Char)) : Prop :=
  foreignLines indent after = [] ∨
    ((own.filterMap (topLevelKey indent)).getLast?.any isPreserved = true ∧
      ∀ line ∈ foreignLines indent after, ∀ key, topLevelKey indent line = some key →
        isPreserved key = true)

/-- **The task that is found.** -/
theorem findTaskBlock_of_taskAt (stands : TaskAt lines taskName before header own after) :
    findTaskBlock lines taskName = .ok
      ⟨before.length, before.length + 1 + (own ++ foreignLines (indentation header) after).length,
        indentation header, header :: (own ++ foreignLines (indentation header) after)⟩ := by
  have blank := indentation_blank header
  have front : lines.takeWhile (fun line => !isHeader taskName line) = before := by
    rw [stands.parts, List.takeWhile_append_of_pos, List.takeWhile_cons_of_neg, List.append_nil]
    · rw [stands.named]
      decide
    · intro line member
      rw [stands.first line member]
      rfl
  have block : (own ++ after).takeWhile (fun line => !isNextTask (indentation header) line) =
      own ++ foreignLines (indentation header) after := by
    refine List.takeWhile_append_of_pos fun line member => ?_
    cases next : isNextTask (indentation header) line with
    | false => rfl
    | true =>
        have foreign := not_belongs_of_isNextTask blank next
        rw [stands.own line member] at foreign
        cases foreign
  simp only [findTaskBlock, front]
  rw [stands.parts, List.drop_left]
  simp only [block]

/-- What a conversion puts in the place of a block. -/
theorem convertBlock_eq_ok [UnicodeData] {block : TaskBlock}
    {packageExpression updateCache : Option (List Char)} {state : State}
    {converted : List (List Char)}
    (returns : convertBlock block packageExpression state updateCache = .ok converted) :
    ∃ names cache, converted = block.lines.take 1 ++
      includeLines block.indent names state cache ++
        kept (topLevelKey block.indent) isPreserved false (block.lines.drop 1) := by
  unfold convertBlock at returns
  simp only [bind_eq_ok, pure_eq_ok] at returns
  obtain ⟨_, _, _, _, names, _, rfl⟩ := returns
  rw [topLevelChunks, flatMap_chunks isPreserved]
  exact ⟨names, _, rfl⟩

/-- The first foreign line is none of the lines that the conversion writes. -/
theorem foreign_not_mem (stands : TaskAt lines taskName before header own after)
    {first names cache : List Char} {state : State} {rest : List (List Char)}
    (foreign : foreignLines (indentation header) after = first :: rest) :
    belongs (indentation header) first = false ∧
      first ∉ [header] ++ includeLines (indentation header) names state cache ++
        kept (topLevelKey (indentation header)) isPreserved false own := by
  have blank := indentation_blank header
  have member : first ∈ foreignLines (indentation header) after := by
    rw [foreign]
    exact List.mem_cons_self
  have isFirst : after.head? = some first := by
    obtain ⟨behind, parts⟩ := List.takeWhile_prefix (p := fun line =>
      !isNextTask (indentation header) line) (l := after)
    rw [← foreignLines, foreign] at parts
    rw [← parts]
    rfl
  have outside := stands.ends first isFirst
  refine ⟨outside, fun written => ?_⟩
  rcases List.mem_append.mp written with written | isKept
  · rcases List.mem_append.mp written with isHeader | included
    · have other := List.mem_takeWhile_imp member
      rw [List.mem_singleton.mp isHeader, isNextTask_of_isHeader stands.named] at other
      cases other
    · rw [belongs_of_mem_includeLines blank included] at outside
      cases outside
  · rw [stands.own first (mem_of_mem_kept isKept)] at outside
    cases outside

/-- The lines before the task stay, and so do those behind its block. -/
theorem convertLines_of_taskAt [UnicodeData] {packageExpression updateCache : Option (List Char)}
    {state : State} (stands : TaskAt (splitlinesKeep text) taskName before header own after)
    (returns : convertLines text taskName packageExpression state updateCache = .ok output) :
    ∃ names cache behind, foreignLines (indentation header) after ++ behind = after ∧
      output = before ++ ([header] ++ includeLines (indentation header) names state cache ++
        kept (topLevelKey (indentation header)) isPreserved false
          (own ++ foreignLines (indentation header) after)) ++ behind := by
  unfold convertLines at returns
  simp only [findTaskBlock_of_taskAt stands, bind_eq_ok, pure_eq_ok, Except.ok.injEq,
    exists_eq_left'] at returns
  obtain ⟨converted, returns, rfl⟩ := returns
  obtain ⟨names, cache, rfl⟩ := convertBlock_eq_ok returns
  obtain ⟨behind, parts⟩ := List.takeWhile_prefix (p := fun line =>
    !isNextTask (indentation header) line) (l := after)
  rw [← foreignLines] at parts
  have whole : splitlinesKeep text =
      (before ++ header :: (own ++ foreignLines (indentation header) after)) ++ behind := by
    rw [stands.parts, List.append_assoc, List.cons_append, List.append_assoc, parts]
  have front : (splitlinesKeep text).take before.length = before := by
    rw [stands.parts, List.take_left]
  have back : (splitlinesKeep text).drop
      (before.length + 1 + (own ++ foreignLines (indentation header) after).length) = behind := by
    rw [whole]
    refine List.drop_left' ?_
    simp only [List.length_append, List.length_cons]
    omega
  refine ⟨names, cache, behind, parts, ?_⟩
  simp only [front, back, List.take_succ_cons, List.take_zero, List.drop_succ_cons,
    List.drop_zero]

/-- **What stands before the task stays in the text, and so does what stands from the next item
with a name on.** -/
theorem convertText_frame [UnicodeData] {packageExpression updateCache : Option (List Char)}
    {state : State} {result : List Char}
    (stands : TaskAt (splitlinesKeep text) taskName before header own after)
    (returns : convertText text taskName packageExpression state updateCache = .ok result) :
    ∃ task behind, foreignLines (indentation header) after ++ behind = after ∧
      text = before.flatten ++
        (header :: (own ++ foreignLines (indentation header) after)).flatten ++ behind.flatten ∧
      result = before.flatten ++ task ++ behind.flatten := by
  rw [convertText] at returns
  cases converted : convertLines text taskName packageExpression state updateCache with
  | error failure =>
      rw [converted] at returns
      cases returns
  | ok output =>
      rw [converted] at returns
      cases returns
      obtain ⟨names, cache, behind, parts, rfl⟩ := convertLines_of_taskAt stands converted
      refine ⟨_, behind, parts, ?_, by rw [List.flatten_append, List.flatten_append]⟩
      have lines : splitlinesKeep text =
          before ++ header :: (own ++ foreignLines (indentation header) after) ++ behind := by
        rw [stands.parts, List.append_assoc, List.cons_append, List.append_assoc, parts]
      rw [← List.flatten_append, ← List.flatten_append, ← lines, flatten_splitlinesKeep]

/-- **Every other line of the file stays in its place exactly when nothing that is not
the task's is dropped.** -/
theorem convertLines_frame_iff [UnicodeData] {packageExpression updateCache : Option (List Char)}
    {state : State} (stands : TaskAt (splitlinesKeep text) taskName before header own after)
    (returns : convertLines text taskName packageExpression state updateCache = .ok output) :
    (∃ task, output = before ++ task ++ after) ↔
      NothingDropped (indentation header) own after := by
  obtain ⟨names, cache, behind, parts, rfl⟩ := convertLines_of_taskAt stands returns
  clear returns
  rw [kept_append]
  rw [NothingDropped, ← keepsAfter_false]
  generalize isForeign : foreignLines (indentation header) after = foreign at parts
  -- what is written is compared with a task and the foreign lines
  have cancel : ∀ written : List (List Char), (∃ task, before ++ written ++ behind =
      before ++ task ++ after) ↔ ∃ task, written = task ++ foreign := by
    intro written
    refine exists_congr fun task => ?_
    rw [← parts, List.append_assoc, List.append_assoc, List.append_cancel_left_eq,
      ← List.append_assoc, List.append_cancel_right_eq]
  rw [cancel]
  cases foreign with
  | nil => exact iff_of_true ⟨_, (List.append_nil _).symm⟩ (.inl rfl)
  | cons first rest =>
      obtain ⟨outside, apart⟩ := @foreign_not_mem _ _ _ _ _ _ stands first names cache state rest
        isForeign
      have unkeyed := topLevelKey_of_not_belongs (indentation_blank header) outside
      rw [or_iff_right (List.cons_ne_nil _ _), ← kept_eq_self_iff unkeyed]
      constructor
      · rintro ⟨task, same⟩
        rw [← List.append_assoc] at same
        refine eq_of_append_eq_append (kept_sublist _ _) ?_ same
        rintro _ ⟨⟩
        exact apart
      · intro whole
        rw [whole, ← List.append_assoc]
        exact ⟨_, rfl⟩

end Frame

/-! A task without a name behind the named one. -/

/-- Installs a package; a second task of the same list follows. -/
def twoTasks : List Char :=
  "- name: A\n  ansible.builtin.opkg:\n    name: git\n- debug:\n".toList

theorem taskAt_twoTasks : TaskAt (splitlinesKeep twoTasks) ['A'] [] "- name: A\n".toList
    ["  ansible.builtin.opkg:\n".toList, "    name: git\n".toList] ["- debug:\n".toList] where
  parts := by decide +kernel
  first := fun _ member => absurd member List.not_mem_nil
  named := by decide +kernel
  own := by decide +kernel
  ends := by
    intro line isFirst
    cases isFirst
    decide +kernel

/-- **The second task is lost**: its line is not among those that the conversion of the
first one returns. -/
theorem second_task_lost :
    TaskAt (splitlinesKeep twoTasks) ['A'] [] "- name: A\n".toList
        ["  ansible.builtin.opkg:\n".toList, "    name: git\n".toList] ["- debug:\n".toList] ∧
      ∃ output, @convertLines asciiData twoTasks ['A'] none .present none = .ok output ∧
        "- debug:\n".toList ∉ output := by
  refine ⟨taskAt_twoTasks, ?_⟩
  have lost : (@convertLines asciiData twoTasks ['A'] none .present none).toOption.any
      (fun output => !output.contains "- debug:\n".toList) = true := by
    decide +kernel
  obtain ⟨output, returns, absent⟩ := (Option.any_eq_true _ _).mp lost
  exact ⟨output, toOption_eq_some.mp returns, by simpa using absent⟩

theorem convertLines_frame_iff_twoTasks : ∃ output,
    @convertLines asciiData twoTasks ['A'] none .present none = .ok output ∧
      ((∃ task, output = [] ++ task ++ ["- debug:\n".toList]) ↔
        NothingDropped (indentation "- name: A\n".toList)
          ["  ansible.builtin.opkg:\n".toList, "    name: git\n".toList]
            ["- debug:\n".toList]) := by
  have returns : (@convertLines asciiData twoTasks ['A'] none .present none).toOption.isSome =
      true := by
    decide +kernel
  obtain ⟨output, isOutput⟩ := Option.isSome_iff_exists.mp returns
  have accepted := toOption_eq_some.mp isOutput
  exact ⟨output, accepted, @convertLines_frame_iff _ _ _ _ _ _ _ asciiData _ _ _
    taskAt_twoTasks accepted⟩

end HomeclusterInfra.PackageTask
