import HomeclusterInfra.Library.Awk
import HomeclusterInfra.Library.Overlay
import HomeclusterInfra.Library.Shell
import Mathlib.Logic.Function.Basic

/-!
# The EEPROM configuration of a Raspberry Pi

`rpi-eeprom-boot-order-apply.sh` writes the wanted `KEY=value` pairs to a file and has
one `awk` program read that file and the current configuration. The program is
modelled rule by rule, with its arrays as maps. It sets the last pair of each key over
the lines of the current configuration, and so a second run finds nothing to change.
-/

set_option autoImplicit false

namespace HomeclusterInfra.GentooRootfs.Eeprom

open Text Shell Awk Overlay

/-! ## The desired pairs -/

/-- `[A-Z0-9_]` -/
def isKeyChar (char : Char) : Bool :=
  char.isUpper || char.isDigit || char = '_'

/-- What the `case` on a key lets through. -/
def isKey (key : List Char) : Bool :=
  !key.isEmpty && key.all isKeyChar

def pairLine (pair : List Char × List Char) : List Char :=
  pair.1 ++ '=' :: pair.2

/-- The file of desired pairs. -/
def pairsFile (pairs : List (List Char × List Char)) : List Char :=
  unlines (pairs.map pairLine)

/-! ## The `awk` program -/

/-- The variables of the program, and what it has printed. -/
structure Merge where
  desired : List Char → Option (List Char)
  wanted : List Char → Bool
  keys : List (List Char)
  seen : List Char → Bool
  printed : List (List Char)

def Merge.start : Merge :=
  ⟨fun _ => none, fun _ => false, [], fun _ => false, []⟩

/-- `/^[A-Z0-9_]+=/` -/
def isAssignment (record : List Char) : Bool :=
  isKey (record.takeWhile isKeyChar) && (record.dropWhile isKeyChar).head? = some '='

/-- `NR == FNR` -/
def Merge.want (state : Merge) (record : List Char) : Merge :=
  let key := beforeFirst '=' record
  let state := { state with desired := Function.update state.desired key (some record) }
  if state.wanted key then state
  else
    { state with
      keys := state.keys ++ [key]
      wanted := Function.update state.wanted key true }

/-- The rules for the second file. -/
def Merge.pass (state : Merge) (record : List Char) : Merge :=
  let key := beforeFirst '=' record
  if isAssignment record && (state.desired key).isSome then
    { state with
      printed := state.printed ++ [(state.desired key).getD []]
      seen := Function.update state.seen key true }
  else { state with printed := state.printed ++ [record] }

/-- The records of one file, after `before` records of the files in front of it. -/
def readFile (before : Nat) : Nat → List (List Char) → Merge → Merge
  | _, [], state => state
  | fnr, record :: records, state =>
      readFile before (fnr + 1) records
        (if before + fnr = fnr then state.want record else state.pass record)

/-- `END` -/
def Merge.finish (state : Merge) : List (List Char) :=
  state.printed ++
    (state.keys.filter (!state.seen ·)).map fun key => (state.desired key).getD []

def mergeRecords (pairs current : List (List Char)) : List (List Char) :=
  (readFile pairs.length 1 current (readFile 0 1 pairs .start)).finish

/-! ## One run -/

/-- The staged configuration, none where the run ends for lack of pairs. -/
def staged (pairs : List (List Char × List Char)) (current : List Char) : Option (List Char) :=
  if pairsFile pairs = [] then none
  else some (unlines (mergeRecords (records (pairsFile pairs)) (records current)))

/-- What a run reports of the configuration. -/
inductive Report where
  | noKeys
  | unchanged
  | withoutBootfs
  | applied (config : List Char)
deriving DecidableEq

def manageConfig (isPi4 bootfsReady : Bool) (pairs : List (List Char × List Char))
    (current : List Char) : Report :=
  match staged pairs current with
  | none => .noKeys
  | some desired =>
      if current = desired then .unchanged
      else if isPi4 && !bootfsReady then .withoutBootfs
      else .applied desired

/-! ## Lines and pairs -/

/-- A line of a configuration. -/
structure Line where
  text : List Char
  single : '\n' ∉ text
deriving DecidableEq

def configText (lines : List Line) : List Char :=
  unlines (lines.map Line.text)

/-- A pair of the words in `RPI_EEPROM_CONFIG_KEYS`: only valid keys pass the `case`, and a value
that is set stands on one line. -/
structure Pair where
  key : List Char
  value : List Char
  valid : isKey key = true
  single : '\n' ∉ value

def Pair.raw (pair : Pair) : List Char × List Char :=
  (pair.key, pair.value)

/-- The key that a line assigns to. -/
def Line.key (line : Line) : Option (List Char) :=
  if isAssignment line.text then some (beforeFirst '=' line.text) else none

/-- The last pair of a key. -/
def lastPair (pairs : List Pair) (key : List Char) : Option Pair :=
  pairs.reverse.find? (·.key = key)

/-- A line that assigns to the key of some pair. -/
def IsManaged (pairs : List Pair) (line : Line) : Prop :=
  ∃ pair ∈ pairs, line.key = some pair.key

instance (pairs : List Pair) : DecidablePred (IsManaged pairs) := fun _ =>
  List.decidableBEx _ _

section Keys

variable {key value : List Char}

theorem newline_notMem_key (valid : isKey key = true) : '\n' ∉ key := by
  intro member
  rw [isKey, Bool.and_eq_true, List.all_eq_true] at valid
  exact absurd (valid.2 '\n' member) (by decide)

theorem equals_notMem_key (valid : isKey key = true) : '=' ∉ key := by
  intro member
  rw [isKey, Bool.and_eq_true, List.all_eq_true] at valid
  exact absurd (valid.2 '=' member) (by decide)

theorem beforeFirst_pairLine (valid : isKey key = true) :
    beforeFirst '=' (pairLine (key, value)) = key :=
  beforeFirst_append (equals_notMem_key valid) value

theorem isAssignment_pairLine (valid : isKey key = true) :
    isAssignment (pairLine (key, value)) = true := by
  have chars : ∀ char ∈ key, isKeyChar char = true := by
    rw [isKey, Bool.and_eq_true, List.all_eq_true] at valid
    exact valid.2
  have head : (pairLine (key, value)).takeWhile isKeyChar = key := by
    rw [pairLine, List.takeWhile_append_of_pos chars,
      List.takeWhile_cons_of_neg (by decide), List.append_nil]
  have rest : (pairLine (key, value)).dropWhile isKeyChar = '=' :: value := by
    rw [pairLine, List.dropWhile_append_of_pos chars, List.dropWhile_cons_of_neg (by decide)]
  rw [isAssignment, head, valid, rest]
  rfl

/-- What the pattern of an assignment finds. -/
theorem exists_pairLine_of_isAssignment {text : List Char} (assigns : isAssignment text = true) :
    ∃ key value, isKey key = true ∧ text = pairLine (key, value) := by
  rw [isAssignment, Bool.and_eq_true, decide_eq_true_eq] at assigns
  obtain ⟨valid, next⟩ := assigns
  obtain ⟨value, rest⟩ := List.head?_eq_some_iff.mp next
  refine ⟨text.takeWhile isKeyChar, value, valid, ?_⟩
  rw [pairLine, ← rest, List.takeWhile_append_dropWhile]

/-- **A line assigns to a key exactly if it is the key, an equals sign and a value.** -/
theorem key_eq_some {line : Line} :
    line.key = some key ↔ isKey key = true ∧ ∃ value, line.text = pairLine (key, value) := by
  constructor
  · intro has
    rw [Line.key] at has
    split at has
    next assigns =>
      obtain ⟨other, value, valid, text⟩ := exists_pairLine_of_isAssignment assigns
      rw [text, beforeFirst_pairLine valid, Option.some_inj] at has
      subst has
      exact ⟨valid, value, text⟩
    next => cases has
  · rintro ⟨valid, value, text⟩
    rw [Line.key, text, if_pos (isAssignment_pairLine valid), beforeFirst_pairLine valid]

end Keys

/-! ## What the program prints -/

def Pair.line (pair : Pair) : Line where
  text := pairLine pair.raw
  single := by
    rw [pairLine, List.mem_append, List.mem_cons]
    rintro (inKey | equals | inValue)
    · exact newline_notMem_key pair.valid inKey
    · exact absurd equals (by decide)
    · exact pair.single inValue

/-- The line that is wanted for a key. -/
def wantedLine (pairs : List Pair) (key : List Char) : Option Line :=
  (lastPair pairs key).map Pair.line

/-- The state after the file of pairs. -/
def afterPairs (pairs : List Pair) : Merge :=
  (pairs.map (·.line.text)).foldl .want .start

/-- The lines of the staged configuration. -/
def merged (pairs : List Pair) (lines : List Line) : List Line :=
  overlay Line.key (wantedLine pairs) (afterPairs pairs).keys lines

theorem Pair.key_line (pair : Pair) : pair.line.key = some pair.key :=
  key_eq_some.mpr ⟨pair.valid, pair.value, rfl⟩

theorem Pair.beforeFirst_line (pair : Pair) : beforeFirst '=' pair.line.text = pair.key :=
  beforeFirst_pairLine pair.valid

/-! ### The file of pairs -/

section Fields

variable (state : Merge) (record : List Char)

theorem Merge.want_desired : (state.want record).desired =
    Function.update state.desired (beforeFirst '=' record) (some record) := by
  simp only [Merge.want]
  split <;> rfl

theorem Merge.want_keys : (state.want record).keys =
    if state.wanted (beforeFirst '=' record) then state.keys
    else state.keys ++ [beforeFirst '=' record] := by
  simp only [Merge.want]
  split <;> rfl

theorem Merge.want_wanted (key : List Char) : (state.want record).wanted key = true ↔
    state.wanted key = true ∨ key = beforeFirst '=' record := by
  simp only [Merge.want]
  split
  next had =>
    refine ⟨Or.inl, ?_⟩
    rintro (is | rfl)
    · exact is
    · exact had
  next => grind [Function.update_apply]

theorem Merge.want_seen : (state.want record).seen = state.seen := by
  simp only [Merge.want]
  split <;> rfl

theorem Merge.want_printed : (state.want record).printed = state.printed := by
  simp only [Merge.want]
  split <;> rfl

end Fields

theorem lastPair_concat (pairs : List Pair) (pair : Pair) (key : List Char) :
    lastPair (pairs ++ [pair]) key = if pair.key = key then some pair else lastPair pairs key := by
  rw [lastPair, List.reverse_append, List.reverse_singleton, List.singleton_append,
    List.find?_cons]
  by_cases same : pair.key = key
  · rw [decide_eq_true same, if_pos same]
  · rw [decide_eq_false same, if_neg same]
    rfl

/-- The file of pairs has been read as far as `pairs`. -/
structure Wants (pairs : List Pair) (state : Merge) : Prop where
  desired : ∀ key, state.desired key = (wantedLine pairs key).map Line.text
  wanted : ∀ key, state.wanted key = true ↔ key ∈ state.keys
  keys : ∀ key, key ∈ state.keys ↔ ∃ pair ∈ pairs, pair.key = key
  seen : ∀ key, state.seen key = false
  printed : state.printed = []

/-- One pair. -/
theorem Wants.want {pairs : List Pair} {state : Merge} (wants : Wants pairs state) (pair : Pair) :
    Wants (pairs ++ [pair]) (state.want pair.line.text) := by
  have key : beforeFirst '=' pair.line.text = pair.key := pair.beforeFirst_line
  have listed : ∀ other, other ∈ (state.want pair.line.text).keys ↔
      other ∈ state.keys ∨ other = pair.key := by
    intro other
    rw [Merge.want_keys, key]
    split
    next had =>
      refine ⟨Or.inl, ?_⟩
      rintro (member | rfl)
      · exact member
      · exact (wants.wanted _).mp had
    next => rw [List.mem_append, List.mem_singleton]
  constructor
  case desired =>
    intro other
    rw [Merge.want_desired, key, Function.update_apply, wants.desired, wantedLine, wantedLine,
      lastPair_concat]
    by_cases same : other = pair.key
    · rw [if_pos same, if_pos same.symm]
      rfl
    · rw [if_neg same, if_neg (Ne.symm same)]
  case wanted =>
    intro other
    rw [Merge.want_wanted, key, listed, wants.wanted]
  case keys =>
    intro other
    rw [listed, wants.keys]
    constructor
    · rintro (⟨earlier, member, rfl⟩ | rfl)
      · exact ⟨earlier, List.mem_append_left _ member, rfl⟩
      · exact ⟨pair, List.mem_append_right _ List.mem_cons_self, rfl⟩
    · rintro ⟨any, member, rfl⟩
      rcases List.mem_append.mp member with earlier | last
      · exact Or.inl ⟨any, earlier, rfl⟩
      · rw [List.mem_singleton.mp last]
        exact Or.inr rfl
  case seen => rw [Merge.want_seen]; exact wants.seen
  case printed => rw [Merge.want_printed]; exact wants.printed

theorem wants_afterPairs (pairs : List Pair) : Wants pairs (afterPairs pairs) := by
  induction pairs using List.reverseRecOn with
  | nil => exact ⟨fun _ => rfl, by simp [afterPairs, Merge.start], by simp [afterPairs, Merge.start],
      fun _ => rfl, rfl⟩
  | append_singleton pairs pair ih =>
      have last : afterPairs (pairs ++ [pair]) = (afterPairs pairs).want pair.line.text := by
        rw [afterPairs, List.map_append, List.foldl_append]
        rfl
      rw [last]
      exact ih.want pair

theorem readFile_pairs (fnr : Nat) (records : List (List Char)) (state : Merge) :
    readFile 0 fnr records state = records.foldl .want state := by
  induction records generalizing fnr state with
  | nil => rfl
  | cons record records ih => rw [readFile, if_pos (Nat.zero_add fnr), ih, List.foldl_cons]

/-! ### The current configuration -/

theorem readFile_current {before : Nat} (some : before ≠ 0) (fnr : Nat)
    (records : List (List Char)) (state : Merge) :
    readFile before fnr records state = records.foldl .pass state := by
  induction records generalizing fnr state with
  | nil => rfl
  | cons record records ih =>
      rw [readFile, if_neg (by omega), ih, List.foldl_cons]

/-- A line whose key is desired gives way. -/
theorem Merge.pass_of_desired {state : Merge} {line : Line} {key text : List Char}
    (has : line.key = some key) (is : state.desired key = some text) :
    state.pass line.text =
      { state with
        printed := state.printed ++ [text]
        seen := Function.update state.seen key true } := by
  obtain ⟨valid, value, same⟩ := key_eq_some.mp has
  rw [Merge.pass, same, beforeFirst_pairLine valid, isAssignment_pairLine valid, is]
  rfl

/-- Any other line is printed. -/
theorem Merge.pass_of_not_desired {state : Merge} {line : Line}
    (unmanaged : line.key.bind state.desired = none) :
    state.pass line.text = { state with printed := state.printed ++ [line.text] } := by
  rw [Merge.pass]
  refine if_neg fun wanted => ?_
  rw [Bool.and_eq_true] at wanted
  obtain ⟨assigns, desired⟩ := wanted
  rw [Line.key, if_pos assigns, Option.bind_some] at unmanaged
  rw [unmanaged] at desired
  cases desired

/-- The current configuration has been read as far as `lines`. -/
structure Passed (pairs : List Pair) (lines : List Line) (state : Merge) : Prop where
  desired : state.desired = (afterPairs pairs).desired
  keys : state.keys = (afterPairs pairs).keys
  seen : ∀ key, (wantedLine pairs key).isSome →
    (state.seen key = true ↔ some key ∈ lines.map Line.key)
  printed : state.printed = (lines.map (settle Line.key (wantedLine pairs))).map Line.text

/-- One line. -/
theorem Passed.pass {pairs : List Pair} {lines : List Line} {state : Merge}
    (passed : Passed pairs lines state) (line : Line) :
    Passed pairs (lines ++ [line]) (state.pass line.text) := by
  have desired : ∀ key, state.desired key = (wantedLine pairs key).map Line.text := by
    rw [passed.desired]
    exact (wants_afterPairs pairs).desired
  have settles : ∀ text, (settle Line.key (wantedLine pairs) line).text = text →
      state.printed ++ [text] =
        ((lines ++ [line]).map (settle Line.key (wantedLine pairs))).map Line.text := by
    rintro _ rfl
    rw [passed.printed, List.map_append, List.map_append]
    rfl
  have occurs : ∀ key, some key ∈ (lines ++ [line]).map Line.key ↔
      some key ∈ lines.map Line.key ∨ line.key = some key := by
    intro key
    rw [List.map_append, List.mem_append, List.map_singleton, List.mem_singleton, eq_comm]
  rcases wanted_or_unmanaged Line.key (wantedLine pairs) line with
    ⟨key, given, has, is⟩ | unmanaged
  · have text : state.desired key = some given.text := by rw [desired, is]; rfl
    rw [Merge.pass_of_desired has text]
    refine ⟨passed.desired, passed.keys, fun other managed => ?_,
      settles given.text (congrArg Line.text (settle_of_wanted has is))⟩
    rw [occurs, has, Option.some_inj, ← passed.seen other managed]
    show Function.update state.seen key true other = true ↔ _
    by_cases same : other = key
    · rw [same, Function.update_self]
      exact ⟨fun _ => Or.inr rfl, fun _ => rfl⟩
    · rw [Function.update_of_ne same]
      exact ⟨Or.inl, fun either => either.resolve_right (Ne.symm same)⟩
  · have quiet : line.key.bind state.desired = none := by
      rcases has : line.key with - | key
      · rfl
      · rw [Unmanaged, has, Option.bind_some] at unmanaged
        rw [Option.bind_some, desired, unmanaged]
        rfl
    rw [Merge.pass_of_not_desired quiet]
    refine ⟨passed.desired, passed.keys, fun other managed => ?_,
      settles line.text (congrArg Line.text (settle_of_unmanaged unmanaged))⟩
    rw [occurs, ← passed.seen other managed]
    refine ⟨Or.inl, fun either => either.resolve_right fun has => ?_⟩
    rw [Unmanaged, has, Option.bind_some] at unmanaged
    rw [unmanaged] at managed
    cases managed

theorem passed_current (pairs : List Pair) (lines : List Line) :
    Passed pairs lines ((lines.map Line.text).foldl .pass (afterPairs pairs)) := by
  induction lines using List.reverseRecOn with
  | nil =>
      refine ⟨rfl, rfl, fun key _ => ?_, (wants_afterPairs pairs).printed⟩
      show (afterPairs pairs).seen key = true ↔ some key ∈ []
      rw [(wants_afterPairs pairs).seen]
      exact ⟨fun no => (by cases no), fun no => absurd no List.not_mem_nil⟩
  | append_singleton lines line ih =>
      rw [List.map_append, List.foldl_append]
      exact ih.pass line

theorem isSome_wantedLine {pairs : List Pair} {key : List Char} :
    (wantedLine pairs key).isSome ↔ ∃ pair ∈ pairs, pair.key = key := by
  rw [wantedLine, Option.isSome_map, lastPair, List.find?_isSome]
  simp only [List.mem_reverse, decide_eq_true_eq]

theorem keyed_wantedLine (pairs : List Pair) : Keyed Line.key (wantedLine pairs) := by
  intro key line is
  obtain ⟨pair, found, rfl⟩ := Option.map_eq_some_iff.mp is
  rw [lastPair] at found
  have same : pair.key = key := by simpa using List.find?_some found
  rw [Pair.key_line, same]

theorem all_keys_wanted (pairs : List Pair) :
    ∀ key ∈ (afterPairs pairs).keys, (wantedLine pairs key).isSome := by
  intro key member
  exact isSome_wantedLine.mpr (((wants_afterPairs pairs).keys key).mp member)

/-- **The program sets the last pairs over the current lines.** -/
theorem mergeRecords_eq {pairs : List Pair} (nonempty : pairs ≠ []) (lines : List Line) :
    mergeRecords (pairs.map (·.line.text)) (lines.map Line.text) =
      (merged pairs lines).map Line.text := by
  have passed := passed_current pairs lines
  have absent : missing Line.key (afterPairs pairs).keys lines = (afterPairs pairs).keys.filter
      (!((lines.map Line.text).foldl Merge.pass (afterPairs pairs)).seen ·) := by
    apply List.filter_congr
    intro key member
    have seen := passed.seen key (all_keys_wanted pairs key member)
    simp only [← seen, Bool.not_eq_true, Bool.decide_eq_false]
  have added : ((missing Line.key (afterPairs pairs).keys lines).filterMap
      (wantedLine pairs)).map Line.text = (missing Line.key (afterPairs pairs).keys lines).map
        fun key => ((afterPairs pairs).desired key).getD [] := by
    rw [List.map_filterMap, ← List.filterMap_eq_map]
    apply List.filterMap_congr
    intro key member
    obtain ⟨line, is⟩ :=
      Option.isSome_iff_exists.mp (all_keys_wanted pairs key (mem_missing.mp member).1)
    show _ = some (((afterPairs pairs).desired key).getD [])
    rw [(wants_afterPairs pairs).desired, is]
    rfl
  rw [mergeRecords, readFile_pairs, List.length_map,
    readFile_current (by rwa [Ne, List.length_eq_zero_iff]), ← afterPairs, Merge.finish,
    passed.printed, passed.keys, passed.desired, ← absent, ← added, merged, overlay,
    List.map_append]

/-! ## Staging -/

variable {pairs : List Pair} {lines : List Line}

theorem pairsFile_raw (pairs : List Pair) :
    pairsFile (pairs.map Pair.raw) = unlines (pairs.map (·.line.text)) := by
  rw [pairsFile, List.map_map]
  rfl

theorem records_configText (lines : List Line) : records (configText lines) = lines.map Line.text := by
  apply records_unlines
  intro text member
  obtain ⟨line, _, rfl⟩ := List.mem_map.mp member
  exact line.single

theorem records_pairsFile (pairs : List Pair) :
    records (pairsFile (pairs.map Pair.raw)) = pairs.map (·.line.text) := by
  rw [pairsFile_raw]
  apply records_unlines
  intro text member
  obtain ⟨pair, _, rfl⟩ := List.mem_map.mp member
  exact pair.line.single

theorem pairsFile_eq_nil : pairsFile (pairs.map Pair.raw) = [] ↔ pairs = [] := by
  cases pairs with
  | nil => exact ⟨fun _ => rfl, fun _ => rfl⟩
  | cons pair pairs => simp [pairsFile, unlines]

/-- **What is staged.** -/
theorem staged_eq (pairs : List Pair) (lines : List Line) :
    staged (pairs.map Pair.raw) (configText lines) =
      if pairs = [] then none else some (configText (merged pairs lines)) := by
  simp only [staged, pairsFile_eq_nil, records_pairsFile, records_configText]
  split
  next => rfl
  next nonempty => rw [mergeRecords_eq nonempty, configText]

theorem isManaged_iff {line : Line} :
    IsManaged pairs line ↔ ¬Unmanaged Line.key (wantedLine pairs) line := by
  constructor
  · rintro ⟨pair, member, has⟩ unmanaged
    have wanted := isSome_wantedLine.mpr ⟨pair, member, rfl⟩
    rw [Unmanaged, has, Option.bind_some] at unmanaged
    rw [unmanaged] at wanted
    cases wanted
  · intro managed
    rcases wanted_or_unmanaged Line.key (wantedLine pairs) line with
      ⟨key, given, has, is⟩ | unmanaged
    · obtain ⟨pair, member, rfl⟩ := isSome_wantedLine.mp (Option.isSome_of_eq_some is)
      exact ⟨pair, member, has⟩
    · exact absurd unmanaged managed

/-- What is staged is staged again as it is. -/
theorem staged_again {text : List Char}
    (stages : staged (pairs.map Pair.raw) (configText lines) = some text) :
    staged (pairs.map Pair.raw) text = some text := by
  have nonempty : pairs ≠ [] := by
    rintro rfl
    cases stages
  rw [staged_eq, if_neg nonempty, Option.some_inj] at stages
  rw [← stages, staged_eq, if_neg nonempty]
  exact congrArg (fun lines => some (configText lines))
    (overlay_overlay (keyed_wantedLine pairs) (all_keys_wanted pairs))

theorem manageConfig_staged (isPi4 bootfsReady : Bool) {pairs : List (List Char × List Char)}
    {text : List Char} (again : staged pairs text = some text) :
    manageConfig isPi4 bootfsReady pairs text = .unchanged := by
  rw [manageConfig, again]
  exact if_pos rfl

/-- **Staging touches only managed keys, and a second run finds nothing to change.** -/
theorem staged_lines {text : List Char}
    (stages : staged (pairs.map Pair.raw) (configText lines) = some text) :
    ∃ stagedLines : List Line, text = configText stagedLines ∧
      stagedLines.filter (¬IsManaged pairs ·) = lines.filter (¬IsManaged pairs ·) ∧
      (∀ line ∈ stagedLines, ∀ key pair, line.key = some key → lastPair pairs key = some pair →
        line.text = key ++ '=' :: pair.value) ∧
      (∀ pair ∈ pairs, ∃ line ∈ stagedLines, line.key = some pair.key) ∧
      staged (pairs.map Pair.raw) text = some text ∧
      ∀ isPi4 bootfsReady,
        manageConfig isPi4 bootfsReady (pairs.map Pair.raw) text = .unchanged := by
  have again := staged_again stages
  have nonempty : pairs ≠ [] := by
    rintro rfl
    cases stages
  rw [staged_eq, if_neg nonempty, Option.some_inj] at stages
  subst stages
  have keyed := keyed_wantedLine pairs
  refine ⟨merged pairs lines, rfl, ?_, ?_, ?_, again, ?_⟩
  · simp only [isManaged_iff, not_not]
    exact filter_unmanaged_overlay keyed
  · intro line member key pair has last
    have is : wantedLine pairs key = some pair.line := by rw [wantedLine, last]; rfl
    obtain rfl := eq_wanted_of_mem_overlay keyed member has is
    rw [Pair.key_line, Option.some_inj] at has
    subst has
    rfl
  · intro pair member
    have listed := ((wants_afterPairs pairs).keys pair.key).mpr ⟨pair, member, rfl⟩
    exact List.mem_map.mp (mem_keys_overlay keyed (all_keys_wanted pairs) listed)
  · exact fun isPi4 bootfsReady => manageConfig_staged isPi4 bootfsReady again

/-- The order gives way, the missing key is appended and the comment stays. -/
theorem staged_lines_order :
    let pairs : List Pair := [⟨"ORDER".toList, "0xf21".toList, by rfl, by decide⟩,
      ⟨"NET".toList, "1".toList, by rfl, by decide⟩]
    let staging := "#ORDER=2\nORDER=0xf21\nNET=1\n".toList
    manageConfig true true (pairs.map Pair.raw) "#ORDER=2\nORDER=1\n".toList =
        .applied staging ∧
      manageConfig true true (pairs.map Pair.raw) staging = .unchanged := by
  intro pairs staging
  refine ⟨by decide +kernel, ?_⟩
  obtain ⟨_, _, _, _, _, _, unchanged⟩ := @staged_lines pairs
    [⟨"#ORDER=2".toList, by decide⟩, ⟨"ORDER=1".toList, by decide⟩] staging (by decide +kernel)
  exact unchanged true true

end HomeclusterInfra.GentooRootfs.Eeprom
