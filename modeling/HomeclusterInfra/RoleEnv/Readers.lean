import HomeclusterInfra.AnsiblePull.Wrapper
import HomeclusterInfra.GentooRootfs.SshHostKeys
import HomeclusterInfra.RoleEnv.OptionValue

/-!
# Reading role.env

`pxe-ssh-host-keys.sh` looks for a value on the lines of role.env, and other scripts look for a
role among those of its list. Whatever the option says, a value that was written is read back,
and for a client that is known by names every script finds what the catalog says of it.
-/

set_option autoImplicit false

namespace HomeclusterInfra.RoleEnv

open Text Shell Awk PxeCatalog GentooRootfs.SshHostKeys

/-! ## Lists between commas -/

section Listed

variable {name : List Char} {entries : List (List Char)}

/-- `case ",${list}," in *",${name},"*)` -/
def isListed (list name : List Char) : Prop :=
  (',' :: name ++ [',']) <:+: (',' :: list ++ [','])

instance (list name : List Char) : Decidable (isListed list name) :=
  inferInstanceAs (Decidable (_ <:+: _))

theorem isListed_of_mem (among : name ∈ entries) : isListed ([','].intercalate entries) name := by
  induction entries with
  | nil => cases among
  | cons first rest ih =>
      cases rest with
      | nil =>
          rw [List.mem_singleton.mp among, List.intercalate_singleton]
          exact List.infix_rfl
      | cons second rest =>
          have whole : ',' :: [','].intercalate (first :: second :: rest) ++ [','] =
              (',' :: first) ++ (',' :: [','].intercalate (second :: rest) ++ [',']) := by
            rw [List.intercalate_cons_cons]
            simp only [List.cons_append, List.append_assoc, List.nil_append]
          rw [isListed, whole]
          rcases List.mem_cons.mp among with rfl | later
          · exact ⟨[], [','].intercalate (second :: rest) ++ [','], by
              simp only [List.nil_append, List.cons_append, List.append_assoc]⟩
          · exact (ih later).trans (List.suffix_append _ _).isInfix

/-- The names of a list are those that stand between two commas of it. -/
theorem isListed_iff (commaless : ∀ entry ∈ entries, ',' ∉ entry) (some_entry : entries ≠ [])
    (nonempty : name ≠ []) (plain : ',' ∉ name) :
    isListed ([','].intercalate entries) name ↔ name ∈ entries := by
  refine ⟨fun listed => ?_, isListed_of_mem⟩
  obtain ⟨before, after, whole⟩ := listed
  have pieces := congrArg (List.splitOn ',') whole
  have split : before ++ (',' :: name ++ [',']) ++ after =
      before ++ ',' :: (name ++ ',' :: after) := by
    simp only [List.cons_append, List.append_assoc, List.nil_append]
  have ends : ',' :: [','].intercalate entries ++ [','] =
      [] ++ ',' :: ([','].intercalate entries ++ ',' :: []) := rfl
  rw [split, ends, List.splitOn_append_cons_self, List.splitOn_append_cons_self,
    splitOn_of_notMem plain, List.splitOn_append_cons_self, List.splitOn_append_cons_self,
    List.splitOn_intercalate ',' commaless some_entry, List.splitOn_nil] at pieces
  have among : name ∈ [[]] ++ (entries ++ [[]]) :=
    pieces ▸ List.mem_append_right _ List.mem_cons_self
  simpa only [List.cons_append, List.nil_append, List.mem_cons, List.mem_append,
    List.not_mem_nil, or_false, nonempty, false_or] using among

end Listed

/-! ## Roles -/

/-- `has_role` of `pxe-k3s-stg-token.sh`, of the values of `ROLES` and `ROLE`. -/
def hasRole (roles role name : List Char) : Prop :=
  isListed (orRole roles role) name

/-- `has_role` of the stage wrapper. -/
def hasListedRole (rolesCsv name : List Char) : Bool :=
  rolesCsv ≠ [] && isListed rolesCsv name

/-- What the stage wrapper does. -/
inductive StageEnd where
  | runs (role : List Char)
  | skipped
  | failed
deriving DecidableEq

/-- `select_k3s_role` -/
def selectK3sRole (nodeStage rolesCsv : List Char) : StageEnd :=
  if nodeStage = "prod".toList then
    if hasListedRole rolesCsv "k3s_prd_server".toList then .runs "k3s_prd_server".toList
    else .skipped
  else if hasListedRole rolesCsv "k3s_stg_server".toList then .runs "k3s_stg_server".toList
  else if hasListedRole rolesCsv "k3s_stg_agent".toList then .runs "k3s_stg_agent".toList
  else .skipped

/-- `role_for_stage` -/
def roleForStage (nodeStage rolesCsv stage : List Char) : StageEnd :=
  if stage = "base".toList then .runs "base".toList
  else if stage = "storage".toList then
    if nodeStage = "prod".toList then .runs "k3s_prd_storage".toList
    else .runs "k3s_stg_storage".toList
  else if stage = "k3s".toList || stage = "k3s-converge".toList then
    selectK3sRole nodeStage rolesCsv
  else if stage = "terraform".toList then .runs "terraform_stg".toList
  else .failed

/-- `homecluster-ansible-stage-wrapper.sh`, of the values of `STAGE` and `ROLES`. -/
def stageWrapper (nodeStage roles stage : List Char) : StageEnd :=
  let rolesCsv := roles.filter fun char => !isPerlSpace char
  if stage = [] then .failed
  else
    match roleForStage nodeStage rolesCsv stage with
    | .runs role => if hasListedRole rolesCsv role then .runs role else .skipped
    | .skipped => .skipped
    | .failed => .failed

/-- The roles that a stage can stand for. -/
def stageRoles (nodeStage : List Char) : List (List Char) :=
  if nodeStage = "prod".toList then
    ["base", "k3s_prd_storage", "k3s_prd_server", "terraform_stg"].map String.toList
  else
    ["base", "k3s_stg_storage", "k3s_stg_server", "k3s_stg_agent", "terraform_stg"].map
      String.toList

theorem mem_stageRoles {nodeStage rolesCsv stage role : List Char}
    (chosen : roleForStage nodeStage rolesCsv stage = .runs role) :
    role ∈ stageRoles nodeStage := by
  rw [roleForStage] at chosen
  rw [stageRoles]
  by_cases production : nodeStage = "prod".toList
  · rw [if_pos production]
    simp only [if_pos production, selectK3sRole] at chosen
    split_ifs at chosen <;> cases chosen <;> decide
  · rw [if_neg production]
    simp only [if_neg production, selectK3sRole] at chosen
    split_ifs at chosen <;> cases chosen <;> decide

/-- A stage runs a role of its own that is among the roles of the node. -/
theorem listed_of_stageWrapper {nodeStage roles stage role : List Char}
    (started : stageWrapper nodeStage roles stage = .runs role) :
    role ∈ stageRoles nodeStage ∧ isListed (roles.filter fun char => !isPerlSpace char) role := by
  rw [stageWrapper] at started
  split at started
  next => cases started
  next =>
    split at started
    next chosen same =>
      split at started
      next found =>
        cases started
        rw [hasListedRole, Bool.and_eq_true, decide_eq_true_eq, decide_eq_true_eq] at found
        exact ⟨mem_stageRoles same, found.2⟩
      next => cases started
    next => cases started
    next => cases started

/-! ## Lines -/

/-- The values that stand on lines of their own, under their names. -/
def EnvFile.entries (env : EnvFile) : List (String × List Char) :=
  [("OVERLAY_ID", env.overlayId), ("ROLE", env.role), ("ROLES", env.roles),
    ("STAGE", env.stage)].filter (·.2 ≠ [])

def entryLine (entry : String × List Char) : List Char :=
  entry.1.toList ++ '=' :: entry.2

theorem flatMap_envLine (pairs : List (String × List Char)) :
    pairs.flatMap (fun pair => envLine pair.1 pair.2) =
      unlines ((pairs.filter (·.2 ≠ [])).map entryLine) := by
  induction pairs with
  | nil => rfl
  | cons pair pairs ih =>
      rw [List.flatMap_cons, ih, envLine]
      split
      next empty => rw [List.filter_cons_of_neg (by simpa using empty), List.nil_append]
      next nonempty =>
        rw [List.filter_cons_of_pos (by simpa using nonempty), List.map_cons]
        rfl

/-- The lines of the values, and after them that of the option. -/
theorem EnvFile.text_eq (env : EnvFile) :
    env.text = unlines (env.entries.map entryLine) ++ envLine "RAW_OPTION_224" env.raw := by
  rw [EnvFile.entries, ← flatMap_envLine, EnvFile.text]
  simp only [List.flatMap_cons, List.flatMap_nil, List.append_nil, List.append_assoc]

theorem records_unlines_append {lines : List (List Char)} (single : ∀ line ∈ lines, '\n' ∉ line)
    (rest : List Char) : records (unlines lines ++ rest) = lines ++ records rest := by
  have nonempty := List.splitOn_ne_nil '\n' rest
  rw [records, records, splitOn_unlines single, List.getLast?_append_of_ne_nil _ nonempty]
  split
  next => rw [List.dropLast_append_of_ne_nil nonempty]
  next => rfl

/-- What stands under a name is the value of the first line with it. -/
theorem find_entryLine {entries : List (String × List Char)} {entry : String × List Char}
    (marked : ∀ entry ∈ entries, '=' ∉ entry.1.toList) (distinct : (entries.map Prod.fst).Nodup)
    (among : entry ∈ entries) :
    (entries.map entryLine).find? (beforeFirst '=' · = entry.1.toList) =
      some (entryLine entry) := by
  induction entries with
  | nil => cases among
  | cons first rest ih =>
      rw [List.forall_mem_cons] at marked
      rw [List.map_cons, List.nodup_cons] at distinct
      have key : beforeFirst '=' (entryLine first) = first.1.toList :=
        beforeFirst_append marked.1 first.2
      rw [List.map_cons]
      rcases List.mem_cons.mp among with rfl | later
      · exact List.find?_cons_of_pos (by simpa using key)
      · rw [List.find?_cons_of_neg, ih marked.2 distinct.2 later]
        have other : first.1 ≠ entry.1 := fun same =>
          distinct.1 (same ▸ List.mem_map_of_mem later)
        rw [decide_eq_true_eq, key, String.toList_inj]
        exact other

/-- The values of the lines are on one line each. -/
def EnvFile.OneLine (env : EnvFile) : Prop :=
  ∀ entry ∈ env.entries, '\n' ∉ entry.2

/-- A value that is written on one line is read back. -/
theorem roleEnvValue_text {env : EnvFile} (oneLine : env.OneLine) {entry : String × List Char}
    (among : entry ∈ env.entries) : roleEnvValue env.text entry.1.toList = entry.2 := by
  have names : ∀ entry ∈ env.entries, '=' ∉ entry.1.toList ∧ '\n' ∉ entry.1.toList := by
    intro entry member
    have known : entry.1 ∈ ["OVERLAY_ID", "ROLE", "ROLES", "STAGE"] := by
      have listed := List.mem_map_of_mem (f := Prod.fst) (List.mem_of_mem_filter member)
      exact listed
    have all : ∀ key ∈ ["OVERLAY_ID", "ROLE", "ROLES", "STAGE"],
        '=' ∉ key.toList ∧ '\n' ∉ key.toList := by decide
    exact all entry.1 known
  have distinct : (env.entries.map Prod.fst).Nodup :=
    (List.Sublist.map Prod.fst List.filter_sublist).nodup
      (show ["OVERLAY_ID", "ROLE", "ROLES", "STAGE"].Nodup by decide)
  have single : ∀ line ∈ env.entries.map entryLine, '\n' ∉ line := by
    intro line member inside
    obtain ⟨entry, there, rfl⟩ := List.mem_map.mp member
    rcases List.mem_append.mp inside with key | value
    · exact (names entry there).2 key
    · rcases List.mem_cons.mp value with same | value
      · cases same
      · exact oneLine entry there value
  have found := find_entryLine (fun entry there => (names entry there).1) distinct among
  have reads : (records env.text).find? (beforeFirst '=' · = entry.1.toList) =
      some (entryLine entry) := by
    rw [env.text_eq, records_unlines_append single, List.find?_append, found]
    rfl
  rw [roleEnvValue, reads]
  dsimp only
  have key : beforeFirst '=' (entryLine entry) = entry.1.toList :=
    beforeFirst_append (names entry among).1 entry.2
  have whole : entryLine entry = (entry.1.toList ++ ['=']) ++ entry.2 := by
    rw [entryLine, List.append_assoc]
    rfl
  rw [key, whole]
  exact List.drop_left' (by rw [List.length_append, List.length_singleton])

/-! ## What is written is one line -/

structure Identity.OneLine (identity : Identity) : Prop where
  overlayId : '\n' ∉ identity.overlayId
  role : '\n' ∉ identity.role
  roles : '\n' ∉ identity.roles
  stage : '\n' ∉ identity.stage

theorem EnvFile.oneLine {env : EnvFile} (identity : env.toIdentity.OneLine) : env.OneLine := by
  have all : ∀ entry ∈ [("OVERLAY_ID", env.overlayId), ("ROLE", env.role), ("ROLES", env.roles),
      ("STAGE", env.stage)], '\n' ∉ entry.2 := by
    simp only [List.forall_mem_cons]
    exact ⟨identity.overlayId, identity.role, identity.roles, identity.stage, fun _ member =>
      absurd member List.not_mem_nil⟩
  exact fun entry member => all entry (List.mem_of_mem_filter member)

theorem mem_of_mem_afterFirst {mark char : Char} {value : List Char}
    (member : char ∈ afterFirst mark value) : char ∈ value := by
  rw [afterFirst] at member
  split at member
  next => exact (List.dropWhile_sublist _).mem (List.mem_of_mem_tail member)
  next => exact member

theorem assignField_oneLine {identity : Identity} {field : List Char}
    (oneLine : identity.OneLine) (single : '\n' ∉ field) :
    (assignField identity field).OneLine := by
  have value : '\n' ∉ afterFirst '=' (without [' ', '\t'] field) := fun member =>
    single (mem_without.mp (mem_of_mem_afterFirst member)).1
  rw [assignField]
  split
  next => exact oneLine
  next =>
    dsimp only
    split
    next => exact { oneLine with overlayId := value }
    next =>
      split
      next => exact { oneLine with role := value }
      next =>
        split
        next => exact { oneLine with roles := value }
        next =>
          split
          next => exact { oneLine with stage := value }
          next => exact oneLine

theorem parseFields_oneLine {defaultStage : List Char} {fields : List (List Char)}
    (stage : '\n' ∉ defaultStage) (single : ∀ field ∈ fields, '\n' ∉ field) :
    (parseFields defaultStage fields).OneLine := by
  have folded : ∀ identity : Identity, identity.OneLine →
      (fields.foldl assignField identity).OneLine := by
    induction fields with
    | nil => exact fun _ oneLine => oneLine
    | cons field fields ih =>
        rw [List.forall_mem_cons] at single
        exact fun identity oneLine => ih single.2 _ (assignField_oneLine oneLine single.1)
  have parsed := folded ⟨[], [], [], defaultStage⟩
    ⟨List.not_mem_nil, List.not_mem_nil, List.not_mem_nil, stage⟩
  rw [parseFields]
  split
  next => exact { parsed with roles := parsed.role }
  next => exact parsed

theorem writeRole_oneLine {defaultStage value : List Char} (stage : '\n' ∉ defaultStage)
    {env : EnvFile} (written : writeRole defaultStage value = some env) : env.OneLine := by
  rw [writeRole, Option.ite_none_left_eq_some] at written
  obtain ⟨-, same⟩ := written
  refine EnvFile.oneLine ?_
  rw [← Option.some.inj same]
  refine parseFields_oneLine stage fun field among inside => ?_
  have other := (mem_of_mem_splitOn among inside).2
  rw [beq_self_eq_true] at other
  cases other

/-- **Whatever the option says, each value that is written is read back under its name.** -/
theorem written_readBack (defaultStage value : List Char) (stage : '\n' ∉ defaultStage)
    (env : EnvFile) (written : writeRole defaultStage value = some env) :
    ∀ entry ∈ env.entries, roleEnvValue env.text entry.1.toList = entry.2 :=
  fun _ among => roleEnvValue_text (writeRole_oneLine stage written) among

theorem written_readBack_sample : ∃ env : EnvFile,
    writeRole [] "overlay_id=pi5,role=base".toList = some env ∧
      roleEnvValue env.text "OVERLAY_ID".toList = "pi5".toList := by
  have written : writeRole [] "overlay_id=pi5,role=base".toList =
      some ⟨⟨"pi5".toList, "base".toList, "base".toList, []⟩,
        "overlay_id=pi5,role=base".toList⟩ := by decide +kernel
  exact ⟨_, written, written_readBack [] _ (by decide) _ written ("OVERLAY_ID", "pi5".toList)
    (by decide)⟩

/-! ## Clients -/

section Clients

variable [UnicodeData] {defaultStage value : List Char} {hostname : String} {cfg : Vars}

/-- The roles of a client, which are its role where it has no list. -/
def listedRoles (cfg : Vars) : List (List Char) :=
  if roleEntries cfg = [] then [(clientRole cfg).cleanString.toList]
  else (roleEntries cfg).map String.toList

theorem expected_roles (named : Named hostname cfg) :
    (expected (clientIdentity hostname cfg)).roles = [','].intercalate (listedRoles cfg) := by
  rw [expected, orRole, listedRoles, clientIdentity]
  dsimp only
  by_cases unlisted : roleEntries cfg = []
  · rw [if_pos unlisted, unlisted, List.map_nil, List.intercalate_nil, if_pos rfl,
      List.intercalate_singleton]
  · rw [if_neg unlisted, if_neg]
    obtain ⟨first, rest, whole⟩ := List.exists_cons_of_ne_nil unlisted
    have name := (isName_spec (named.entries first (whole ▸ List.mem_cons_self))).1
    rw [whole, List.map_cons]
    cases rest with
    | nil => rwa [List.map_nil, List.intercalate_singleton]
    | cons second rest =>
        rw [List.map_cons, List.intercalate_cons_cons]
        exact fun empty => name (List.append_eq_nil_iff.mp (List.append_eq_nil_iff.mp empty).1).1

theorem listedRoles_names (named : Named hostname cfg) :
    listedRoles cfg ≠ [] ∧ ∀ entry ∈ listedRoles cfg, isName entry = true := by
  rw [listedRoles]
  split
  next => exact ⟨List.cons_ne_nil _ _, List.forall_mem_singleton.mpr named.role⟩
  next listed =>
    exact ⟨fun empty => listed (List.map_eq_nil_iff.mp empty),
      List.forall_mem_map.mpr named.entries⟩

omit [UnicodeData] in
theorem isName_chars {text : List Char} (name : isName text = true) :
    ',' ∉ text ∧ '\x00' ∉ text ∧ '\n' ∉ text ∧ text.all isOverlayChar = true := by
  rw [isName, Bool.and_eq_true, List.all_eq_true] at name
  have nameless : [',', '\x00', '\n'].any (fun char =>
      char.isAlphanum || char = '_' || char = '-' || char = '.') = false := by
    decide
  have missing : ∀ char ∈ [',', '\x00', '\n'], char ∉ text := fun char among inside =>
    List.any_eq_false.mp nameless char among (name.2 char inside)
  refine ⟨missing _ (by decide), missing _ (by decide), missing _ (by decide), ?_⟩
  rw [List.all_eq_true]
  intro char member
  have each := name.2 char member
  simp only [Bool.or_eq_true, decide_eq_true_eq] at each
  simp only [isOverlayChar, List.contains_eq_mem, List.mem_cons, List.not_mem_nil, or_false,
    Bool.or_eq_true, decide_eq_true_eq]
  rcases each with ((letter | low) | dash) | dot
  · exact .inl letter
  · exact .inr (.inl low)
  · exact .inr (.inr (.inr dash))
  · exact .inr (.inr (.inl dot))

omit [UnicodeData] in
theorem isPerlSpace_of_isName {text : List Char} (name : isName text = true) {char : Char}
    (member : char ∈ text) : isPerlSpace char = false := by
  rw [isName, Bool.and_eq_true, List.all_eq_true] at name
  have each := name.2 char member
  simp only [Bool.or_eq_true, decide_eq_true_eq] at each
  rcases each with ((letter | rfl) | rfl) | rfl
  · have visible := isVisible_of_isAlphanum letter
    rw [isPerlSpace, Bool.or_eq_false_iff, decide_eq_false_iff_not, Bool.and_eq_false_iff,
      decide_eq_false_iff_not, decide_eq_false_iff_not]
    refine ⟨?_, Or.inr ?_⟩
    · rintro rfl
      exact absurd visible.1 (by decide)
    · have low := visible.1
      omega
  · decide
  · decide
  · decide

omit [UnicodeData] in
theorem isName_of_mem_stageRoles {nodeStage role : List Char}
    (among : role ∈ stageRoles nodeStage) : isName role = true := by
  have all : ∀ role ∈ ["base", "k3s_prd_storage", "k3s_prd_server", "k3s_stg_storage",
      "k3s_stg_server", "k3s_stg_agent", "terraform_stg"].map String.toList,
        isName role = true := by decide
  refine all role ?_
  rw [stageRoles] at among
  split at among
  next => exact List.Sublist.mem among (by decide)
  next => exact List.Sublist.mem among (by decide)

omit [UnicodeData] in
/-- The name of an overlay that is written is the one that the store is looked up by. -/
theorem overlayIdOf_text {env : EnvFile} (oneLine : env.OneLine)
    (isOverlay : isName env.overlayId = true) :
    overlayIdOf (some env.text) true = .ok env.overlayId := by
  obtain ⟨-, noNul, noNewline, chars⟩ := isName_chars isOverlay
  have nonempty := (isName_spec isOverlay).1
  have among : ("OVERLAY_ID", env.overlayId) ∈ env.entries :=
    List.mem_filter.mpr ⟨List.mem_cons_self, by simpa using nonempty⟩
  have read := roleEnvValue_text oneLine among
  rw [overlayIdOf, read, captured_eq_self noNul noNewline, chars]
  simp only [List.isEmpty_eq_false_iff.mpr nonempty, Bool.not_true, Bool.or_self,
    Bool.false_eq_true, if_false]

/-- The names that are found in the roles of a client are those it lists. -/
theorem isListed_listedRoles (named : Named hostname cfg) {name : List Char}
    (isName : isName name = true) :
    isListed ([','].intercalate (listedRoles cfg)) name ↔ name ∈ listedRoles cfg := by
  obtain ⟨some_role, names⟩ := listedRoles_names named
  exact isListed_iff (fun entry among => (isName_chars (names entry among)).1) some_role
    (isName_spec isName).1 (isName_chars isName).1

theorem intercalate_listedRoles_ne_nil (named : Named hostname cfg) :
    [','].intercalate (listedRoles cfg) ≠ [] := by
  obtain ⟨some_role, names⟩ := listedRoles_names named
  intro empty
  obtain ⟨first, among⟩ := List.exists_mem_of_ne_nil _ some_role
  have found := isListed_of_mem among
  rw [empty] at found
  have short := found.length_le
  have long := List.length_pos_of_ne_nil (isName_spec (names first among)).1
  simp only [List.cons_append, List.nil_append, List.length_cons, List.length_append,
    List.length_nil] at short
  omega

/-- The stage wrapper has no blanks to remove. -/
theorem filter_listedRoles (named : Named hostname cfg) :
    (([','].intercalate (listedRoles cfg)).filter fun char => !isPerlSpace char) =
      [','].intercalate (listedRoles cfg) := by
  rw [List.filter_eq_self]
  intro char member
  rw [Bool.not_eq_true']
  rcases Formats.mem_intercalate member with rfl | ⟨entry, among, inside⟩
  · decide
  · exact isPerlSpace_of_isName ((listedRoles_names named).2 entry among) inside

omit [UnicodeData] in
/-- The wrapper goes on for a role that is among the roles, and does nothing for another. -/
theorem wrapper_eq_listed {run : AnsiblePull.Run} (some_role : run.role ≠ [])
    (nonempty : run.roles ≠ []) :
    AnsiblePull.wrapper run =
      if isListed run.roles run.role then do
        let outcome ← AnsiblePull.settle run
        AnsiblePull.finish run outcome
      else pure () := by
  rw [AnsiblePull.wrapper, if_neg some_role]
  split
  next skipped => exact (if_neg skipped.2).symm
  next goesOn => exact (if_pos (not_not.mp fun unlisted => goesOn ⟨nonempty, unlisted⟩)).symm

/-- **What the catalog says of a client reaches the scripts of its node**: the store of its host
keys has the name of its overlay, a script finds the roles that the client lists and no others,
and no other role is run. -/
theorem option_reachesScripts (named : Named hostname cfg)
    (survives : Survives defaultStage (clientIdentity hostname cfg))
    (stage : '\n' ∉ defaultStage) (accepted : Accepted (optionValue hostname cfg) value) :
    ∃ env, writeRole defaultStage value = some env ∧
      overlayIdOf (some env.text) true = .ok (overlayId hostname cfg).toList ∧
      (∀ name, isName name = true →
        (hasRole env.roles env.role name ↔ name ∈ listedRoles cfg)) ∧
      (∀ stage role, stageWrapper env.stage env.roles stage = .runs role →
        role ∈ listedRoles cfg ∧ role ∈ stageRoles (clientStage cfg).toList) ∧
      ∀ run : AnsiblePull.Run, run.roles = env.roles → isName run.role = true →
        AnsiblePull.wrapper run =
          if run.role ∈ listedRoles cfg then do
            let outcome ← AnsiblePull.settle run
            AnsiblePull.finish run outcome
          else pure () := by
  obtain ⟨env, written, same⟩ :=
    Option.map_eq_some_iff.mp (writeRole_accepted named survives accepted)
  have overlay : env.overlayId = (overlayId hostname cfg).toList :=
    congrArg Identity.overlayId same
  have roles : env.roles = [','].intercalate (listedRoles cfg) :=
    (congrArg Identity.roles same).trans (expected_roles named)
  have nodeStage : env.stage = (clientStage cfg).toList := congrArg Identity.stage same
  have nonempty := intercalate_listedRoles_ne_nil named
  refine ⟨env, written, ?_, fun name isName => ?_, fun stage role started => ?_,
    fun run same isName => ?_⟩
  · have isOverlay : isName env.overlayId = true := by
      rw [overlay]
      exact named.overlayId
    rw [← overlay]
    exact overlayIdOf_text (writeRole_oneLine stage written) isOverlay
  · rw [hasRole, orRole, roles, if_neg nonempty]
    exact isListed_listedRoles named isName
  · obtain ⟨among, found⟩ := listed_of_stageWrapper started
    rw [roles, filter_listedRoles named] at found
    rw [nodeStage] at among
    exact ⟨(isListed_listedRoles named (isName_of_mem_stageRoles among)).mp found, among⟩
  · rw [roles] at same
    rw [wrapper_eq_listed (isName_spec isName).1 (same ▸ nonempty), same]
    exact if_congr (isListed_listedRoles named isName) rfl rfl

end Clients

theorem option_reachesScripts_pi5 :
    ∃ _ : UnicodeData, ∃ env, writeRole [] (optionValue "pi5" (stagingClient "pi5-node.1")) =
        some env ∧
      overlayIdOf (some env.text) true = .ok "pi5-node.1".toList ∧
      hasRole env.roles env.role "k3s_stg_agent".toList := by
  let _ : UnicodeData := asciiData
  obtain ⟨env, written, overlay, roles, -⟩ := option_reachesScripts named_stagingClient
    survives_stagingClient (by decide) .plain
  have named : (overlayId "pi5" (stagingClient "pi5-node.1")).toList = "pi5-node.1".toList := by
    decide +kernel
  exact ⟨asciiData, env, written, named ▸ overlay, (roles _ (by decide)).mpr (by decide +kernel)⟩

end HomeclusterInfra.RoleEnv
