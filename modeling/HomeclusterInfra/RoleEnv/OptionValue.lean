import HomeclusterInfra.Library.Formats
import HomeclusterInfra.PxeCatalog.Catalog
import HomeclusterInfra.RoleEnv.Writer

/-!
# The option value of a client

The catalog names a client in the text of DHCP option 224. The fields of the
text have other values than names with commas or equals signs, so the scripts
on the node split it where the catalog joined it. What they recover of a value
is the value itself, except that `pxe-write-role.sh` removes the letter `x`
from a text, and that all scripts leave a field out whose value is its own
name.
-/

set_option autoImplicit false

namespace HomeclusterInfra.RoleEnv

open Text Python Shell PxeCatalog

/-! ## The catalog -/

section Catalog

variable [UnicodeData]

/-- The configuration of the overlay of a client. -/
def overlayCfg (cfg : Vars) : Vars :=
  clientSection cfg "overlay" "overlay_client"

/-- `role`, as `_build_generated_client` determines it. -/
def clientRole (cfg : Vars) : Value :=
  match firstPresent [(overlayCfg cfg).get "role", cfg.get "role"] with
  | .none => (valueAt cfg "roles").asList.head?.getD .none
  | role => role

/-- The cleaned entries of the list of roles. -/
def roleEntries (cfg : Vars) : List String :=
  ((firstPresent [cfg.get "roles", (overlayCfg cfg).get "roles"]).asList.map
    Value.cleanString).filter (· ≠ "")

/-- The stage of a client. -/
def clientStage (cfg : Vars) : String :=
  (firstPresent [cfg.get "stage", cfg.get "tftp_stage"]).cleanString

/-- The texts by which a client is known. -/
def clientIdentity (hostname : String) (cfg : Vars) : Identity where
  overlayId := (overlayId hostname cfg).toList
  role := (clientRole cfg).cleanString.toList
  roles := [','].intercalate ((roleEntries cfg).map String.toList)
  stage := (clientStage cfg).toList

/-- A field of the option. -/
def optionField (key : String) (value : List Char) : List Char :=
  key.toList ++ '=' :: value

/-- The fields of the option; those without a value are left out. -/
def optionFields (identity : Identity) : List (List Char) :=
  [optionField "overlay_id" identity.overlayId] ++
    ([("role", identity.role), ("roles", identity.roles), ("stage", identity.stage)].filter
      fun field => field.2 ≠ []).map fun field => optionField field.1 field.2

/-- The explicit option value of a client. -/
def explicitOption (cfg : Vars) : String :=
  (firstPresent [(overlayCfg cfg).get "option_value", cfg.get "option_value"]).cleanString

/-- `_option_value_for_client` -/
def optionValue (hostname : String) (cfg : Vars) : List Char :=
  if explicitOption cfg ≠ "" then (explicitOption cfg).toList
  else [','].intercalate (optionFields (clientIdentity hostname cfg))

/-- A string of letters, digits, `_`, `-` and `.` that is not empty. -/
def isName (text : List Char) : Bool :=
  !text.isEmpty && text.all fun char =>
    char.isAlphanum || char = '_' || char = '-' || char = '.'

/-- A client without an explicit option value, known by names. -/
structure Named (hostname : String) (cfg : Vars) : Prop where
  implicit : explicitOption cfg = ""
  overlayId : isName (clientIdentity hostname cfg).overlayId = true
  role : isName (clientIdentity hostname cfg).role = true
  entries : ∀ entry ∈ roleEntries cfg, isName entry.toList = true
  stage : isName (clientIdentity hostname cfg).stage = true

/-- The forms in which `pxe-write-role.sh` accepts the text of an option. -/
inductive Accepted (text : List Char) : List Char → Prop where
  | plain : Accepted text text
  | quoted : Accepted text ('"' :: text ++ ['"'])
  | hex (digits : List Char) (areHex : isHexLine digits = true) (packed : packHex digits = text) :
      Accepted text digits
  | prefixed (digits : List Char) (areHex : isHexLine digits = true)
      (packed : packHex digits = text) : Accepted text ("0x".toList ++ digits)

/-- The roles of a client without a list are its role. -/
def orRole (roles role : List Char) : List Char :=
  if roles = [] then role else roles

/-- What role.env is to say of a client. -/
def expected (identity : Identity) : Identity :=
  { identity with roles := orRole identity.roles identity.role }

/-- The option of a client names it to every script. -/
structure RoundTrips (paths : List Char → List (List Char)) (defaultStage : List Char)
    (hostname : String) (cfg : Vars) : Prop where
  writer : ∀ value, Accepted (optionValue hostname cfg) value →
    (writeRole defaultStage value).map EnvFile.toIdentity =
      some (expected (clientIdentity hostname cfg))
  dispatcher : (dispatcherHook paths defaultStage (optionValue hostname cfg)).map
    EnvFile.toIdentity = some (expected (clientIdentity hostname cfg))
  dhcpcd : (dhcpcdHook paths defaultStage (optionValue hostname cfg)).map
    EnvFile.toIdentity = some (expected (clientIdentity hostname cfg))

end Catalog

/-! ## Splitting what was joined -/

section Splitting

variable {value tail key : List Char}

/-- Behind a comma inside a value no field starts. -/
theorem startsField_value (plain : '=' ∉ value) (ends : tail = [] ∨ tail.head? = some ',') :
    startsField (value ++ tail) = false := by
  have stops : ((value ++ tail).dropWhile isFieldChar).head? ≠ some '=' := by
    induction value with
    | nil =>
        rcases ends with rfl | comma
        · simp
        · obtain ⟨rest, rfl⟩ := List.head?_eq_some_iff.1 comma
          rw [List.nil_append, List.dropWhile_cons_of_neg (by decide), List.head?_cons]
          decide
    | cons char value ih =>
        rw [List.mem_cons, not_or] at plain
        rw [List.cons_append]
        by_cases inside : isFieldChar char = true
        · rw [List.dropWhile_cons_of_pos inside]
          exact ih plain.2
        · rw [List.dropWhile_cons_of_neg inside, List.head?_cons]
          exact fun same => plain.1 (Option.some.inj same).symm
  rw [startsField, Bool.and_eq_false_iff]
  exact .inr (beq_false_of_ne stops)

theorem startsField_key (nonempty : key ≠ []) (areChars : ∀ char ∈ key, isFieldChar char = true)
    (rest : List Char) : startsField (key ++ '=' :: rest) = true := by
  rw [startsField, List.takeWhile_append_of_pos areChars, List.dropWhile_append_of_pos areChars,
    List.dropWhile_cons_of_neg (by decide), List.head?_cons]
  simp [nonempty]

theorem breakFields_value (plain : '=' ∉ value) (ends : tail = [] ∨ tail.head? = some ',') :
    breakFields (value ++ tail) = value ++ breakFields tail := by
  induction value with
  | nil => rfl
  | cons char value ih =>
      rw [List.mem_cons, not_or] at plain
      rw [List.cons_append, breakFields, startsField_value plain.2 ends, Bool.and_false, ih plain.2]
      rfl

theorem breakFields_plain (plain : ',' ∉ key) (rest : List Char) :
    breakFields (key ++ rest) = key ++ breakFields rest := by
  induction key with
  | nil => rfl
  | cons char key ih =>
      rw [List.mem_cons, not_or] at plain
      rw [List.cons_append, breakFields, ih plain.2, if_neg]
      · rfl
      · simpa using fun same : char = ',' => absurd same.symm plain.1

/-- A field: a name, an equals sign, and a value without characters that split. -/
structure IsField (field : List Char) : Prop where
  parts : ∃ key value, field = key ++ '=' :: value ∧ key ≠ [] ∧
    (∀ char ∈ key, isFieldChar char = true) ∧ '=' ∉ value
  noNewline : '\n' ∉ field
  noGlob : field.any isGlobChar = false

/-- The joined fields are broken where they were joined. -/
theorem breakFields_intercalate {fields : List (List Char)}
    (areFields : ∀ field ∈ fields, IsField field) :
    breakFields ([','].intercalate fields) = ['\n'].intercalate fields := by
  have comma : ∀ {key : List Char}, (∀ char ∈ key, isFieldChar char = true) → ',' ∉ key :=
    fun areChars member => absurd (areChars ',' member) (by decide)
  induction fields with
  | nil => rfl
  | cons field fields ih =>
      rw [List.forall_mem_cons] at areFields
      obtain ⟨key, value, rfl, nonempty, areChars, plain⟩ := areFields.1.parts
      have one : ∀ tail : List Char, tail = [] ∨ tail.head? = some ',' →
          breakFields (key ++ '=' :: value ++ tail) = key ++ '=' :: value ++ breakFields tail := by
        intro tail ends
        rw [List.append_assoc, breakFields_plain (comma areChars), List.cons_append, breakFields,
          breakFields_value plain ends]
        simp
      cases fields with
      | nil => simpa [breakFields] using one [] (.inl rfl)
      | cons next fields =>
          obtain ⟨name, _, begins, some, chars, -⟩ := (areFields.2 next List.mem_cons_self).parts
          have starts : startsField ([','].intercalate (next :: fields)) = true := by
            cases fields with
            | nil =>
                rw [List.intercalate_singleton, begins]
                exact startsField_key some chars _
            | cons other fields =>
                rw [List.intercalate_cons_cons, begins, List.append_assoc, List.append_assoc,
                  List.cons_append]
                exact startsField_key some chars _
          have later := ih areFields.2
          rw [List.intercalate_cons_cons, List.intercalate_cons_cons, List.append_assoc _ [','] _,
            List.singleton_append, one _ (.inr rfl), breakFields, starts, later]
          simp

theorem splitOn_fields {fields : List (List Char)} (some : fields ≠ [])
    (areFields : ∀ field ∈ fields, IsField field) :
    (breakFields ([','].intercalate fields)).splitOn '\n' = fields := by
  rw [breakFields_intercalate areFields]
  exact List.splitOn_intercalate '\n' (fun field member => (areFields field member).noNewline) some

/-- The hooks split into the same fields. -/
theorem splitFields_eq {paths : List Char → List (List Char)} {fields : List (List Char)}
    (some : fields ≠ []) (areFields : ∀ field ∈ fields, IsField field) :
    splitFields paths ([','].intercalate fields) = fields := by
  have nonempty : fields.filter (· ≠ []) = fields := by
    rw [List.filter_eq_self]
    intro field member
    obtain ⟨key, value, rfl, -⟩ := (areFields field member).parts
    simp
  rw [splitFields, splitOn_fields some areFields, nonempty]
  induction fields with
  | nil => rfl
  | cons field fields ih =>
      rw [List.forall_mem_cons] at areFields
      rw [List.flatMap_cons, expandPaths, areFields.1.noGlob, Bool.false_and]
      cases fields with
      | nil => rfl
      | cons next fields =>
          rw [ih (by simp) areFields.2 (List.filter_eq_self.2 fun other member => ?_)]
          · rfl
          · exact (List.filter_eq_self.1 nonempty) other (.tail _ member)

end Splitting

/-! ## What a script recovers -/

section Recovery

/-- The characters that a script treats in a special way anywhere in an option. -/
def special : List Char :=
  ['\n', ' ', '\t', '*', '?', '[', '\\', '"', '\x00']

/-- A value that no script cuts. -/
def Plain (value : List Char) : Prop :=
  ∀ char ∈ value, char ∉ '=' :: special

/-- The same change of all four values. -/
def Identity.map (change : List Char → List Char) (identity : Identity) : Identity :=
  ⟨change identity.overlayId, change identity.role, change identity.roles, change identity.stage⟩

structure Identity.Plain (identity : Identity) : Prop where
  overlayId : RoleEnv.Plain identity.overlayId
  role : RoleEnv.Plain identity.role
  roles : RoleEnv.Plain identity.roles
  stage : RoleEnv.Plain identity.stage

/-- The names and values of the fields of an option, with or without a list of roles. -/
def fieldPairs (listed : Bool) (sent : Identity) : List (String × List Char) :=
  [("overlay_id", sent.overlayId), ("role", sent.role)] ++
    (if listed then [("roles", sent.roles)] else []) ++ [("stage", sent.stage)]

/-- The fields of an option. -/
def fieldsOf (listed : Bool) (sent : Identity) : List (List Char) :=
  (fieldPairs listed sent).map fun pair => optionField pair.1 pair.2

/-- What is left of a value: nothing new when it is the name of its field. -/
def recover (key : String) (value before : List Char) : List Char :=
  if value = key.toList then before else value

/-- What a script makes of the fields. -/
def recovered (defaultStage : List Char) (listed : Bool) (sent : Identity) : Identity :=
  let role := recover "role" sent.role []
  let roles := if listed then recover "roles" sent.roles [] else []
  { overlayId := recover "overlay_id" sent.overlayId []
    role := role
    roles := orRole roles role
    stage := recover "stage" sent.stage defaultStage }

/-- The names of the fields. -/
def fieldKeys : List String :=
  ["overlay_id", "role", "roles", "stage"]

theorem fieldKeys_chars : ∀ key ∈ fieldKeys,
    key.toList ≠ [] ∧ (∀ char ∈ key.toList, isFieldChar char = true) ∧
      (∀ char ∈ key.toList, char ∉ ['=', 'x', 'X', ','] ++ special) ∧
        String.ofList (key.toList.map Char.toLower) = key := by
  have each : fieldKeys.all (fun key => !key.toList.isEmpty && key.toList.all isFieldChar &&
      key.toList.all (fun char => !(['=', 'x', 'X', ','] ++ special).contains char) &&
      String.ofList (key.toList.map Char.toLower) == key) = true := by
    decide
  intro key isKey
  have one := List.all_eq_true.mp each key isKey
  simp only [Bool.and_eq_true, Bool.not_eq_true', List.isEmpty_eq_false_iff, List.all_eq_true,
    beq_iff_eq, List.contains_eq_mem, decide_eq_false_iff_not] at one
  exact ⟨one.1.1.1, one.1.1.2, one.1.2, one.2⟩

variable {key : String} {value : List Char}

/-- A character that is not special is no pattern and no blank. -/
theorem ordinary {char : Char} (apart : char ∉ special) :
    ¬ isGlobChar char = true ∧ char ∉ [' ', '\t'] := by
  simp only [special, List.mem_cons, List.not_mem_nil, or_false, not_or] at apart
  simp [isGlobChar, apart]

theorem Plain.isField (plain : Plain value) (isKey : key ∈ fieldKeys) :
    IsField (optionField key value) := by
  obtain ⟨nonempty, areChars, clean, -⟩ := fieldKeys_chars key isKey
  refine ⟨⟨key.toList, value, rfl, nonempty, areChars, ?_⟩, ?_, ?_⟩
  · exact fun member => plain '=' member (by decide)
  · rw [optionField, List.mem_append, List.mem_cons]
    rintro (inKey | same | inValue)
    · exact clean _ inKey (by decide)
    · cases same
    · exact plain _ inValue (by decide)
  · rw [optionField, List.any_append, List.any_cons, Bool.or_eq_false_iff, Bool.or_eq_false_iff]
    refine ⟨List.any_eq_false.2 fun char member => ?_, by decide,
      List.any_eq_false.2 fun char member => ?_⟩
    · exact (ordinary fun inside => clean char member (List.mem_append_right _ inside)).1
    · exact (ordinary fun inside => plain char member (.tail _ inside)).1

/-- Without blanks in it a field is taken apart at the equals sign. -/
theorem assignField_eq (isKey : key ∈ fieldKeys) (plain : Plain value) (identity : Identity) :
    assignField identity (optionField key value) =
      if key.toList = value then identity
      else if key = "overlay_id" then { identity with overlayId := value }
      else if key = "role" then { identity with role := value }
      else if key = "roles" then { identity with roles := value }
      else { identity with stage := value } := by
  obtain ⟨nonempty, areChars, clean, lower⟩ := fieldKeys_chars key isKey
  have noMark : '=' ∉ key.toList := fun member => clean _ member (by decide)
  have kept : without [' ', '\t'] (optionField key value) = optionField key value := by
    rw [without_eq_self]
    intro char member
    rw [optionField, List.mem_append, List.mem_cons] at member
    rcases member with inKey | rfl | inValue
    · exact (ordinary fun inside => clean char inKey (List.mem_append_right _ inside)).2
    · decide
    · exact (ordinary fun inside => plain char inValue (.tail _ inside)).2
  have before : beforeFirst '=' (optionField key value) = key.toList :=
    beforeFirst_append noMark value
  have after : afterFirst '=' (optionField key value) = value := afterFirst_append noMark value
  have some : optionField key value ≠ [] := by simp [optionField]
  simp only [assignField, kept, before, after, some, nonempty, lower, decide_false, Bool.false_or,
    decide_eq_true_eq]
  by_cases same : key.toList = value
  · rw [if_pos same, if_pos same]
  · rw [if_neg same, if_neg same]
    simp only [fieldKeys, List.mem_cons, List.not_mem_nil, or_false] at isKey
    rcases isKey with rfl | rfl | rfl | rfl <;> rfl

theorem assignField_overlayId (plain : Plain value) (identity : Identity) :
    assignField identity (optionField "overlay_id" value) =
      { identity with overlayId := recover "overlay_id" value identity.overlayId } := by
  rw [assignField_eq (by decide) plain, recover]
  by_cases same : value = "overlay_id".toList
  · rw [if_pos same.symm, if_pos same]
  · rw [if_neg (Ne.symm same), if_neg same]
    rfl

theorem assignField_role (plain : Plain value) (identity : Identity) :
    assignField identity (optionField "role" value) =
      { identity with role := recover "role" value identity.role } := by
  rw [assignField_eq (by decide) plain, recover]
  by_cases same : value = "role".toList
  · rw [if_pos same.symm, if_pos same]
  · rw [if_neg (Ne.symm same), if_neg same]
    rfl

theorem assignField_roles (plain : Plain value) (identity : Identity) :
    assignField identity (optionField "roles" value) =
      { identity with roles := recover "roles" value identity.roles } := by
  rw [assignField_eq (by decide) plain, recover]
  by_cases same : value = "roles".toList
  · rw [if_pos same.symm, if_pos same]
  · rw [if_neg (Ne.symm same), if_neg same]
    rfl

theorem assignField_stage (plain : Plain value) (identity : Identity) :
    assignField identity (optionField "stage" value) =
      { identity with stage := recover "stage" value identity.stage } := by
  rw [assignField_eq (by decide) plain, recover]
  by_cases same : value = "stage".toList
  · rw [if_pos same.symm, if_pos same]
  · rw [if_neg (Ne.symm same), if_neg same]
    rfl

/-- **What a script makes of the fields of an option.** -/
theorem parseFields_fieldsOf (defaultStage : List Char) (listed : Bool) {sent : Identity}
    (plain : sent.Plain) :
    parseFields defaultStage (fieldsOf listed sent) = recovered defaultStage listed sent := by
  have whole : (fieldsOf listed sent).foldl assignField ⟨[], [], [], defaultStage⟩ =
      ⟨recover "overlay_id" sent.overlayId [], recover "role" sent.role [],
        if listed then recover "roles" sent.roles [] else [],
        recover "stage" sent.stage defaultStage⟩ := by
    cases listed with
    | false =>
        simp only [fieldsOf, fieldPairs, Bool.false_eq_true, if_false, List.append_nil,
          List.cons_append, List.nil_append, List.map_cons, List.map_nil, List.foldl_cons,
          List.foldl_nil, assignField_overlayId plain.overlayId, assignField_role plain.role,
          assignField_stage plain.stage]
    | true =>
        simp only [fieldsOf, fieldPairs, if_true, List.cons_append, List.nil_append,
          List.map_cons, List.map_nil, List.foldl_cons, List.foldl_nil,
          assignField_overlayId plain.overlayId, assignField_role plain.role,
          assignField_roles plain.roles, assignField_stage plain.stage]
  rw [parseFields, whole]
  simp only [recovered, orRole]
  split_ifs <;> rfl

end Recovery

/-! ## The forms of an option -/

section Accepting

variable {listed : Bool} {sent : Identity} {defaultStage : List Char}

/-- The text of the fields. -/
def optionText (listed : Bool) (sent : Identity) : List Char :=
  [','].intercalate (fieldsOf listed sent)

/-- A value without the letter that separates hexadecimal digits. -/
def withoutX (value : List Char) : List Char :=
  without ['X'] (without ['x'] value)

theorem mem_withoutX {char : Char} {value : List Char} (member : char ∈ withoutX value) :
    char ∈ value :=
  (mem_without.1 (mem_without.1 member).1).1

theorem withoutX_eq_self {value : List Char} :
    withoutX value = value ↔ 'x' ∉ value ∧ 'X' ∉ value := by
  constructor
  · intro same
    constructor
    · intro member
      rw [← same] at member
      exact absurd (mem_without.1 (mem_without.1 member).1).2 (by decide)
    · intro member
      rw [← same] at member
      exact absurd (mem_without.1 member).2 (by decide)
  · rintro ⟨noSmall, noCapital⟩
    have small : without ['x'] value = value := without_eq_self.2 fun char member => by
      simpa using fun same : char = 'x' => noSmall (same ▸ member)
    rw [withoutX, small]
    exact without_eq_self.2 fun char member => by
      simpa using fun same : char = 'X' => noCapital (same ▸ member)

theorem Identity.Plain.map {change : List Char → List Char} (plain : sent.Plain)
    (keeps : ∀ value, ∀ char ∈ change value, char ∈ value) : (sent.map change).Plain :=
  ⟨fun char member => plain.overlayId char (keeps _ char member),
    fun char member => plain.role char (keeps _ char member),
    fun char member => plain.roles char (keeps _ char member),
    fun char member => plain.stage char (keeps _ char member)⟩

theorem fieldPairs_spec (plain : sent.Plain) :
    ∀ pair ∈ fieldPairs listed sent, pair.1 ∈ fieldKeys ∧ RoleEnv.Plain pair.2 := by
  have overlay := plain.overlayId
  have role := plain.role
  have roles := plain.roles
  have stage := plain.stage
  cases listed <;> simp [fieldPairs, fieldKeys, overlay, role, roles, stage]

theorem fieldsOf_areFields (plain : sent.Plain) :
    ∀ field ∈ fieldsOf listed sent, IsField field := by
  intro field member
  obtain ⟨pair, among, rfl⟩ := List.mem_map.1 member
  obtain ⟨isKey, plainValue⟩ := fieldPairs_spec plain pair among
  exact plainValue.isField isKey

theorem fieldsOf_ne_nil : fieldsOf listed sent ≠ [] := by
  simp [fieldsOf, fieldPairs]

/-- The text holds no character that a script treats in a special way. -/
theorem optionText_clean (plain : sent.Plain) :
    ∀ char ∈ optionText listed sent, char ∉ special := by
  intro char member inside
  rcases Formats.mem_intercalate member with rfl | ⟨field, among, here⟩
  · exact absurd inside (by decide)
  · obtain ⟨pair, isPair, rfl⟩ := List.mem_map.1 among
    obtain ⟨isKey, plainValue⟩ := fieldPairs_spec plain pair isPair
    obtain ⟨-, -, cleanKey, -⟩ := fieldKeys_chars pair.1 isKey
    rw [optionField, List.mem_append, List.mem_cons] at here
    rcases here with inKey | rfl | inValue
    · exact cleanKey char inKey (List.mem_append_right _ inside)
    · exact absurd inside (by decide)
    · exact plainValue char inValue (.tail _ inside)

theorem optionText_begins : (optionText listed sent).head? = some 'o' := by
  cases listed <;>
    simp [optionText, fieldsOf, fieldPairs, optionField, List.intercalate_cons_cons]

/-- An equals sign is in the text. -/
theorem optionText_mark : '=' ∈ optionText listed sent := by
  cases listed <;>
    simp [optionText, fieldsOf, fieldPairs, optionField, List.intercalate_cons_cons]

/-- Removing the separators leaves a text of the same form. -/
theorem without_intercalate {marks : List Char} (noComma : ',' ∉ marks)
    (fields : List (List Char)) :
    without marks ([','].intercalate fields) = [','].intercalate (fields.map (without marks)) := by
  induction fields with
  | nil => rfl
  | cons field fields ih =>
      cases fields with
      | nil => simp
      | cons next fields =>
          rw [List.intercalate_cons_cons, without_append, without_append, ih, List.map_cons,
            List.map_cons, List.map_cons, List.intercalate_cons_cons, without_cons noComma]
          rfl

theorem withoutX_optionText :
    withoutX (optionText listed sent) = optionText listed (sent.map withoutX) := by
  have field : ∀ key ∈ fieldKeys, ∀ value,
      withoutX (optionField key value) = optionField key (withoutX value) := by
    intro key isKey value
    obtain ⟨-, -, clean, -⟩ := fieldKeys_chars key isKey
    have same : withoutX key.toList = key.toList :=
      withoutX_eq_self.2 ⟨fun member => clean _ member (by decide),
        fun member => clean _ member (by decide)⟩
    rw [withoutX] at same ⊢
    rw [optionField, without_append, without_cons (by decide), without_append, same,
      without_cons (by decide)]
    rfl
  have fields : (fieldsOf listed sent).map withoutX = fieldsOf listed (sent.map withoutX) := by
    have overlay := field "overlay_id" (by decide)
    have role := field "role" (by decide)
    have roles := field "roles" (by decide)
    have stage := field "stage" (by decide)
    cases listed <;> simp [fieldsOf, fieldPairs, overlay, role, roles, stage, Identity.map]
  rw [optionText, optionText, ← fields, withoutX, without_intercalate (by decide),
    without_intercalate (by decide), List.map_map]
  rfl

/-- A text with an equals sign is not taken for hexadecimal digits. -/
theorem decodeHex_text {value : List Char} (mark : '=' ∈ value) (noNewline : '\n' ∉ value) :
    decodeHex value = value := by
  have one := splitOn_of_notMem noNewline
  have noHex : isHexLine value = false := by
    rw [isHexLine, Bool.and_eq_false_iff]
    right
    exact List.all_eq_false.2 ⟨'=', mark, by decide⟩
  rw [decodeHex, one, List.any_cons, noHex]
  rfl

theorem optionText_ne_nil : optionText listed sent ≠ [] := by
  intro empty
  have mark := @optionText_mark listed sent
  rw [empty] at mark
  cases mark

theorem unquote_plain {value : List Char} (noQuote : '"' ∉ value) : unquote value = value := by
  rw [unquote, dropMark_of_notMem noQuote]
  exact dropHead_of_notMem (List.mem_singleton_self _) noQuote

theorem unquote_quoted (value : List Char) : unquote ('"' :: value ++ ['"']) = value := by
  rw [unquote, dropMark_append]
  exact dropHead_append ['"'] value

/-- What a script takes out of the text of the fields. -/
theorem mapFields_optionText (plain : sent.Plain) :
    mapFields (optionText listed sent) = fieldsOf listed sent :=
  splitOn_fields fieldsOf_ne_nil (fieldsOf_areFields plain)

theorem decodeHex_optionText (plain : sent.Plain) :
    decodeHex (optionText listed sent) = optionText listed sent :=
  decodeHex_text optionText_mark fun member => optionText_clean plain _ member (by decide)

/-- A text that is not a number loses its separators. -/
theorem normalize_optionText :
    normalize (optionText listed sent) = optionText listed (sent.map withoutX) := by
  have kept : ∀ head : List Char, head.head? = some '0' →
      dropHead head (optionText listed sent) = optionText listed sent := by
    intro head zero
    rw [dropHead, if_neg]
    intro isPrefix
    obtain ⟨more, rfl⟩ := List.head?_eq_some_iff.1 zero
    obtain ⟨rest, begins⟩ := List.head?_eq_some_iff.1 (@optionText_begins listed sent)
    rw [begins] at isPrefix
    exact absurd (List.isPrefixOf_iff_prefix.1 isPrefix) (by simp)
  rw [normalize, kept _ rfl, kept _ rfl, ← withoutX_optionText]
  rfl

/-- The text, in quotes or not. -/
theorem writeRole_optionText (plain : sent.Plain) {value : List Char}
    (inside : unquote value = optionText listed sent) :
    (writeRole defaultStage value).map EnvFile.toIdentity =
      some (recovered defaultStage listed (sent.map withoutX)) := by
  have sentPlain := plain.map fun _ _ member => mem_withoutX member
  rw [writeRole, inside, if_neg optionText_ne_nil, normalize_optionText]
  simp only [decodeHex_optionText sentPlain, mapFields_optionText sentPlain,
    parseFields_fieldsOf _ _ sentPlain, Option.map_some]

/-- What hexadecimal digits are not made of. -/
theorem notMem_of_isHexLine {digits : List Char} (areHex : isHexLine digits = true) {char : Char}
    (other : isHexDigit char = false) : char ∉ digits := by
  rw [isHexLine, Bool.and_eq_true, List.all_eq_true] at areHex
  intro member
  rw [areHex.2 char member] at other
  cases other

theorem decodeLine_hex {digits : List Char} (areHex : isHexLine digits = true) :
    decodeLine digits = packHex digits := by
  have noSpace : ∀ char, isHexDigit char = true → isPerlSpace char = false := by
    intro char hex
    simp only [isHexDigit, Char.isDigit, Bool.or_eq_true, Bool.and_eq_true, decide_eq_true_eq,
      ge_iff_le, Char.le_def, UInt32.le_iff_toNat_le] at hex
    have code : 48 ≤ char.val.toNat := by
      rcases hex with (digit | small) | capital
      · exact digit.1
      · exact le_trans (by decide) small.1
      · exact le_trans (by decide) capital.1
    have apart : char ≠ ' ' := by
      rintro rfl
      exact absurd code (by decide)
    simp only [isPerlSpace, apart, decide_false, Bool.false_or, Bool.and_eq_false_iff,
      decide_eq_false_iff_not]
    exact .inr (by
      have same : char.toNat = char.val.toNat := rfl
      omega)
  have kept : digits.filter (fun char => !isPerlSpace char) = digits := by
    rw [List.filter_eq_self]
    intro char member
    rw [isHexLine, Bool.and_eq_true, List.all_eq_true] at areHex
    rw [noSpace char (areHex.2 char member)]
    rfl
  rw [isHexLine, Bool.and_eq_true, Bool.and_eq_true] at areHex
  simp only [decodeLine, kept, areHex.1.1, areHex.2, Bool.and_self, if_true]

/-- Hexadecimal digits, with a prefix or without. -/
theorem writeRole_hex (plain : sent.Plain) {value digits : List Char}
    (areHex : isHexLine digits = true) (packed : packHex digits = optionText listed sent)
    (inside : unquote value ≠ [])
    (stripped : dropHead "0X".toList (dropHead "0x".toList (unquote value)) = digits) :
    (writeRole defaultStage value).map EnvFile.toIdentity =
      some (recovered defaultStage listed sent) := by
  have noX : withoutX digits = digits :=
    withoutX_eq_self.2 ⟨notMem_of_isHexLine areHex (by decide),
      notMem_of_isHexLine areHex (by decide)⟩
  have normal : normalize (unquote value) = digits := by
    rw [normalize, stripped]
    exact noX
  have one := splitOn_of_notMem (notMem_of_isHexLine areHex (by decide : isHexDigit '\n' = false))
  have printed : captured ([digits].flatMap decodeLine) = optionText listed sent := by
    rw [List.flatMap_singleton, decodeLine_hex areHex, packed]
    exact captured_eq_self (fun member => optionText_clean plain _ member (by decide))
      (fun member => optionText_clean plain _ member (by decide))
  have decoded : decodeHex digits = optionText listed sent := by
    rw [decodeHex, one, List.any_cons, areHex, Bool.true_or, if_pos rfl]
    simp only [printed, if_neg optionText_ne_nil]
  rw [writeRole, if_neg inside, normal, decoded]
  simp only [mapFields_optionText plain, parseFields_fieldsOf _ _ plain, Option.map_some]

theorem hookFields_optionText (paths : List Char → List (List Char)) (plain : sent.Plain) :
    (hookFields paths defaultStage (optionText listed sent)).map EnvFile.toIdentity =
      some (recovered defaultStage listed sent) := by
  rw [hookFields, if_neg optionText_ne_nil]
  simp only [optionText, splitFields_eq fieldsOf_ne_nil (fieldsOf_areFields plain),
    parseFields_fieldsOf _ _ plain, Option.map_some]

end Accepting

/-! ## Clients -/

section Clients

/-- No separator of hexadecimal digits is in a value. -/
def NoX (value : List Char) : Prop :=
  'x' ∉ value ∧ 'X' ∉ value

/-- The values that come through: none with the letter `x`, none that is the
name of its field. Roles that are named `roles` come through for a role of that
name, and a stage that is left out when it is the default. -/
structure Survives (defaultStage : List Char) (identity : Identity) : Prop where
  overlayId : NoX identity.overlayId ∧ identity.overlayId ≠ "overlay_id".toList
  role : NoX identity.role ∧ identity.role ≠ "role".toList
  roles : NoX identity.roles ∧
    (identity.roles = "roles".toList → identity.role = "roles".toList)
  stage : (NoX identity.stage ∧ identity.stage ≠ "stage".toList) ∨
    (withoutX identity.stage = "stage".toList ∧ defaultStage = identity.stage)

theorem recover_eq_iff {key : String} {sent value : List Char} (nonempty : value ≠ []) :
    recover key sent [] = value ↔ sent = value ∧ value ≠ key.toList := by
  rw [recover]
  split
  next same =>
      constructor
      · intro empty
        exact absurd empty.symm nonempty
      · rintro ⟨rfl, other⟩
        exact absurd same other
  next other =>
      constructor
      · rintro rfl
        exact ⟨rfl, other⟩
      · exact fun both => both.1

theorem recover_stage_iff {defaultStage stage : List Char} :
    recover "stage" (withoutX stage) defaultStage = stage ↔
      (NoX stage ∧ stage ≠ "stage".toList) ∨
        (withoutX stage = "stage".toList ∧ defaultStage = stage) := by
  rw [recover]
  split
  next same =>
      constructor
      · exact fun left => .inr ⟨same, left⟩
      · rintro (⟨noX, other⟩ | ⟨-, left⟩)
        · rw [withoutX_eq_self.2 noX] at same
          exact absurd same other
        · exact left
  next other =>
      constructor
      · intro kept
        refine .inl ⟨withoutX_eq_self.1 kept, ?_⟩
        rwa [kept] at other
      · rintro (⟨noX, -⟩ | ⟨same, -⟩)
        · exact withoutX_eq_self.2 noX
        · exact absurd same other

/-- Roles are recovered when they have no `x`, and from the role when they are
named like the field. -/
theorem recovered_roles_iff {role roles : List Char} (some : roles ≠ []) (noX : NoX role) :
    orRole (recover "roles" (withoutX roles) []) role = roles ↔
      NoX roles ∧ (roles = "roles".toList → role = "roles".toList) := by
  rw [orRole]
  by_cases lost : recover "roles" (withoutX roles) [] = []
  · rw [if_pos lost]
    constructor
    · rintro rfl
      refine ⟨noX, fun same => same⟩
    · rintro ⟨kept, same⟩
      rw [withoutX_eq_self.2 kept, recover] at lost
      split at lost
      next named => rw [same named, named]
      next => exact absurd lost some
  · rw [if_neg lost, recover_eq_iff some]
    constructor
    · rintro ⟨kept, other⟩
      exact ⟨withoutX_eq_self.1 kept, fun same => absurd same other⟩
    · rintro ⟨kept, -⟩
      refine ⟨withoutX_eq_self.2 kept, fun same => lost ?_⟩
      rw [withoutX_eq_self.2 kept, recover, if_pos same]

theorem Identity.ext_iff' {one other : Identity} : one = other ↔
    one.overlayId = other.overlayId ∧ one.role = other.role ∧ one.roles = other.roles ∧
      one.stage = other.stage := by
  constructor
  · rintro rfl
    exact ⟨rfl, rfl, rfl, rfl⟩
  · obtain ⟨overlayId, role, roles, stage⟩ := one
    rintro ⟨rfl, rfl, rfl, rfl⟩
    rfl

variable {defaultStage : List Char} {identity : Identity}

/-- The text form comes through exactly for the values that survive. -/
theorem recovered_withoutX_iff (overlaySome : identity.overlayId ≠ [])
    (roleSome : identity.role ≠ []) :
    recovered defaultStage (identity.roles ≠ []) (identity.map withoutX) = expected identity ↔
      Survives defaultStage identity := by
  have roles : NoX identity.role → (orRole
      (if identity.roles ≠ [] then recover "roles" (withoutX identity.roles) [] else [])
      identity.role = orRole identity.roles identity.role ↔
        NoX identity.roles ∧
          (identity.roles = "roles".toList → identity.role = "roles".toList)) := by
    intro noX
    by_cases none : identity.roles = []
    · simp [none, NoX]
    · rw [if_pos none, recovered_roles_iff none noX |>.symm]
      simp only [orRole, none, if_false]
  simp only [Identity.ext_iff', recovered, expected, Identity.map, recover_stage_iff,
    recover_eq_iff overlaySome, recover_eq_iff roleSome, withoutX_eq_self, decide_eq_true_eq]
  constructor
  · rintro ⟨overlay, role, listed, stage⟩
    have kept : recover "role" (withoutX identity.role) [] = identity.role :=
      (recover_eq_iff roleSome).2 ⟨withoutX_eq_self.2 role.1, role.2⟩
    rw [kept] at listed
    exact ⟨overlay, role, (roles role.1).1 listed, stage⟩
  · rintro ⟨overlay, role, listed, stage⟩
    have kept : recover "role" (withoutX identity.role) [] = identity.role :=
      (recover_eq_iff roleSome).2 ⟨withoutX_eq_self.2 role.1, role.2⟩
    rw [kept]
    exact ⟨overlay, role, (roles role.1).2 listed, stage⟩

/-- Surviving values come through in hexadecimal as well. -/
theorem Survives.recovered (survives : Survives defaultStage identity) :
    recovered defaultStage (identity.roles ≠ []) identity = expected identity := by
  obtain ⟨overlay, role, roles, stage⟩ := survives
  have roleKept : recover "role" identity.role [] = identity.role := if_neg role.2
  simp only [Identity.ext_iff', RoleEnv.recovered, expected, roleKept, decide_eq_true_eq]
  refine ⟨if_neg overlay.2, trivial, ?_, ?_⟩
  · by_cases none : identity.roles = []
    · simp [none]
    · have kept := (recovered_roles_iff none role.1).2 roles
      rw [withoutX_eq_self.2 roles.1] at kept
      rw [if_pos none, kept, orRole, if_neg none]
  · rw [recover]
    split
    next same =>
        rcases stage with ⟨-, other⟩ | ⟨-, left⟩
        · exact absurd same other
        · exact left
    next => rfl

variable [UnicodeData] {hostname : String} {cfg : Vars}

omit [UnicodeData] in
theorem isName_spec {text : List Char} (name : isName text = true) :
    text ≠ [] ∧ RoleEnv.Plain text := by
  rw [isName, Bool.and_eq_true, List.all_eq_true] at name
  refine ⟨by simpa using name.1, fun char member inside => ?_⟩
  have nameless : ('=' :: special).any (fun char =>
      char.isAlphanum || char = '_' || char = '-' || char = '.') = false := by
    decide
  exact List.any_eq_false.mp nameless char inside (name.2 char member)

theorem Named.plain (named : Named hostname cfg) : (clientIdentity hostname cfg).Plain where
  overlayId := (isName_spec named.overlayId).2
  role := (isName_spec named.role).2
  roles := by
    intro char member inside
    rcases Formats.mem_intercalate member with rfl | ⟨field, among, here⟩
    · exact absurd inside (by decide)
    · obtain ⟨entry, isEntry, rfl⟩ := List.mem_map.1 among
      exact (isName_spec (named.entries entry isEntry)).2 char here inside
  stage := (isName_spec named.stage).2

theorem Named.optionValue_eq (named : Named hostname cfg) :
    optionValue hostname cfg = optionText ((clientIdentity hostname cfg).roles ≠ [])
      (clientIdentity hostname cfg) := by
  have roleSome := (isName_spec named.role).1
  have stageSome := (isName_spec named.stage).1
  rw [optionValue, if_neg (not_not.2 named.implicit), optionText]
  congr 1
  by_cases none : (clientIdentity hostname cfg).roles = []
  · simp [optionFields, fieldsOf, fieldPairs, none, roleSome, stageSome]
  · simp [optionFields, fieldsOf, fieldPairs, none, roleSome, stageSome]

theorem Named.noQuote (named : Named hostname cfg) :
    '"' ∉ optionText ((clientIdentity hostname cfg).roles ≠ []) (clientIdentity hostname cfg) :=
  fun member => optionText_clean named.plain _ member (by decide)

/-- Values that survive are written as they are, whatever the form of the option. -/
theorem writeRole_accepted (named : Named hostname cfg)
    (survives : Survives defaultStage (clientIdentity hostname cfg)) {value : List Char}
    (accepted : Accepted (optionValue hostname cfg) value) :
    (writeRole defaultStage value).map EnvFile.toIdentity =
      some (expected (clientIdentity hostname cfg)) := by
  have plain := named.plain
  have noQuote := named.noQuote
  have kept := (recovered_withoutX_iff (isName_spec named.overlayId).1
    (isName_spec named.role).1).2 survives
  rw [named.optionValue_eq] at accepted
  cases accepted with
  | plain => rw [writeRole_optionText plain (unquote_plain noQuote), kept]
  | quoted => rw [writeRole_optionText plain (unquote_quoted _), kept]
  | hex _ areHex packed =>
      have noQuoteHex := notMem_of_isHexLine areHex (by decide : isHexDigit '"' = false)
      have some : value ≠ [] := by
        rintro rfl
        cases areHex
      rw [writeRole_hex plain areHex packed, survives.recovered]
      · rwa [unquote_plain noQuoteHex]
      · rw [unquote_plain noQuoteHex,
          dropHead_of_notMem (by decide : 'x' ∈ "0x".toList)
            (notMem_of_isHexLine areHex (by decide)),
          dropHead_of_notMem (by decide : 'X' ∈ "0X".toList)
            (notMem_of_isHexLine areHex (by decide))]
  | prefixed digits areHex packed =>
      have noQuoteHex : '"' ∉ "0x".toList ++ digits := by
        simpa using notMem_of_isHexLine areHex (by decide : isHexDigit '"' = false)
      rw [writeRole_hex plain areHex packed, survives.recovered]
      · rw [unquote_plain noQuoteHex]
        simp
      · rw [unquote_plain noQuoteHex, dropHead_append,
          dropHead_of_notMem (by decide : 'X' ∈ "0X".toList)
            (notMem_of_isHexLine areHex (by decide))]

/-- **The option of a client comes through to every script, in every form,
exactly when its values survive.** -/
theorem option_roundTrips_iff (named : Named hostname cfg)
    (paths : List Char → List (List Char)) (defaultStage : List Char) :
    RoundTrips paths defaultStage hostname cfg ↔
      Survives defaultStage (clientIdentity hostname cfg) := by
  have plain := named.plain
  have text := named.optionValue_eq
  constructor
  · intro trips
    have written := trips.writer _ .plain
    rw [text, writeRole_optionText plain (unquote_plain named.noQuote)] at written
    exact (recovered_withoutX_iff (isName_spec named.overlayId).1
      (isName_spec named.role).1).1 (Option.some.inj written)
  · intro survives
    refine ⟨fun value accepted => writeRole_accepted named survives accepted, ?_, ?_⟩
    · rw [text, dispatcherHook, unquote_plain named.noQuote, hookFields_optionText paths plain,
        survives.recovered]
    · rw [text, dhcpcdHook, hookFields_optionText paths plain, survives.recovered]

end Clients

/-- A staging client with two roles. -/
def stagingClient (overlay : String) : Vars :=
  [("overlay_id", .str overlay), ("roles", .list [.str "base", .str "k3s_stg_agent"]),
    ("stage", .str "stg")]

theorem named_stagingClient : @Named asciiData "pi5" (stagingClient "pi5-node.1") := by
  let _ : UnicodeData := asciiData
  exact ⟨by decide +kernel, by decide +kernel, by decide +kernel, by decide +kernel,
    by decide +kernel⟩

theorem survives_stagingClient :
    Survives [] (@clientIdentity asciiData "pi5" (stagingClient "pi5-node.1")) := by
  let _ : UnicodeData := asciiData
  refine ⟨⟨?_, ?_⟩, ⟨?_, ?_⟩, ⟨?_, ?_⟩, .inl ⟨?_, ?_⟩⟩
  · exact ⟨by decide +kernel, by decide +kernel⟩
  · decide +kernel
  · exact ⟨by decide +kernel, by decide +kernel⟩
  · decide +kernel
  · exact ⟨by decide +kernel, by decide +kernel⟩
  · decide +kernel
  · exact ⟨by decide +kernel, by decide +kernel⟩
  · decide +kernel

theorem option_roundTrips_pi5 :
    ∃ _ : UnicodeData, RoundTrips (fun _ => []) [] "pi5" (stagingClient "pi5-node.1") := by
  let _ : UnicodeData := asciiData
  exact ⟨asciiData, (option_roundTrips_iff named_stagingClient _ _).2 survives_stagingClient⟩

/-- A client named `pxe5` becomes `pe5`. -/
theorem option_loses_x :
    ∃ _ : UnicodeData, Named "pxe5" (stagingClient "pxe5") ∧
      (writeRole [] (optionValue "pxe5" (stagingClient "pxe5"))).map
        (fun env => String.ofList env.overlayId) = some "pe5" ∧
      ¬ RoundTrips (fun _ => []) [] "pxe5" (stagingClient "pxe5") := by
  let _ : UnicodeData := asciiData
  refine ⟨asciiData, ⟨by decide +kernel, by decide +kernel, by decide +kernel, by decide +kernel,
    by decide +kernel⟩, by decide +kernel, fun trips => ?_⟩
  have written := trips.writer _ .plain
  revert written
  decide +kernel

end HomeclusterInfra.RoleEnv
