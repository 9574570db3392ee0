import HomeclusterInfra.Library.Mapping
import HomeclusterInfra.NasLogs.WarningWords

/-!
# Suppressed messages that are warnings

A reviewed pattern matches what is left of a message without its time stamp and
bracket, while the severity is read from the whole message. No text that a reviewed
pattern of an unlabelled kind matches has an explicit word. So a suppressed message
is a warning exactly when the removed part has such a word or, for `hal`, when the
message mentions a timeout and does not end in the raw value zero.
-/

set_option autoImplicit false

namespace HomeclusterInfra.NasLogs

open Text Regex Regex.Rx WordScan

variable [UnicodeData]

/-! ## What the patterns read -/

section Patterns

/-- A word character of ASCII. -/
def asciiWord (char : Char) : Bool :=
  char.isAlphanum || char = '_'

/-- Scan an ASCII text for the explicit words. -/
def asciiScan (left : List (List Char)) (text : List Char) : Option (List (List Char)) :=
  if text.all fun char => char.toNat < 128 then scan asciiWord sameLetter explicitWords left text
  else none

/-- The scanner for the explicit words has come to a place where these are left. -/
def Calm (left : List (List Char)) : Position Char → Prop :=
  At isWordChar sameLetter explicitWords left

variable (standard : StandardLetters) {left final : List (List Char)}
include standard

theorem isWordChar_eq {char : Char} (ascii : char.toNat < 128) : isWordChar char = asciiWord char := by
  rw [isWordChar, asciiWord, standard.ascii char ascii]

theorem scan_eq {text : List Char} (scanned : asciiScan left text = some final) :
    scan isWordChar sameLetter explicitWords left text = some final := by
  unfold asciiScan at scanned
  split at scanned
  next ascii =>
      rw [← scanned]
      exact scan_congr fun char member =>
        isWordChar_eq standard (of_decide_eq_true (List.all_eq_true.mp ascii char member))
  next => cases scanned

/-- A literal behind which all words are possible. -/
theorem triple_lit {chars : List Char} (scanned : asciiScan left chars = some explicitWords) :
    Triple (Calm left) (lit (String.ofList chars)) (Calm explicitWords) := by
  rw [lit, String.toList_ofList]
  exact triple_word (scan_eq standard scanned)

/-- A literal that ends inside a run that is no word. -/
theorem triple_stem {chars : List Char} (scanned : asciiScan left chars = some []) :
    Triple (Calm left) (lit (String.ofList chars)) (Calm []) := by
  rw [lit, String.toList_ofList]
  exact triple_word (scan_eq standard scanned)

/-- A literal text outside a pattern. -/
theorem scan_literal {chars : List Char} (scanned : asciiScan left chars = some final) :
    scan isWordChar sameLetter explicitWords left (String.ofList chars).toList = some final := by
  rw [String.toList_ofList]
  exact scan_eq standard scanned

/-- No word goes on with one of these characters. -/
def Inert (left : List (List Char)) (chars : String) : Bool :=
  chars.toList.all fun char => asciiScan left [char] == some []

theorem read_inert {chars : String} (inert : Inert left chars = true) :
    ∀ char ∈ chars.toList, read isWordChar sameLetter explicitWords left char = some [] := by
  intro char member
  have here := List.all_eq_true.mp inert char member
  have single := scan_eq standard (beq_iff_eq.mp here)
  rw [scan] at single
  cases step : read isWordChar sameLetter explicitWords left char with
  | none =>
      rw [step] at single
      cases single
  | some next =>
      rw [step] at single
      exact single

theorem triple_among {text : String} (inert : Inert left text = true) :
    Triple (Calm left) (among text) (Calm []) :=
  triple_symbol fun char member =>
    read_inert standard inert char (List.contains_iff_mem.mp member)

omit [UnicodeData] standard in
theorem mem_digits {char : Char} (isDigit : char.isDigit = true) :
    char ∈ "0123456789".toList := by
  have range : 48 ≤ char.toNat ∧ char.toNat ≤ 57 := by
    simpa [Char.isDigit, UInt32.le_iff_toNat_le] using isDigit
  have all : ∀ code < 58, 48 ≤ code → Char.ofNat code ∈ "0123456789".toList := by decide
  rw [← Char.ofNat_toNat char]
  exact all _ (by omega) range.1

omit [UnicodeData] standard in
theorem inert_digits : Inert explicitWords "0123456789" = true ∧ Inert [] "0123456789" = true := by
  exact ⟨by rfl, by rfl⟩

/-- Behind digits no word can be finished. -/
theorem triple_digits : Triple (Calm explicitWords) digits (Calm []) :=
  triple_plus (fun char isDigit => read_inert standard inert_digits.1 char (mem_digits isDigit))
    fun char isDigit => read_inert standard inert_digits.2 char (mem_digits isDigit)

theorem triple_moreDigits : Triple (Calm []) digits (Calm []) :=
  triple_plus (fun char isDigit => read_inert standard inert_digits.2 char (mem_digits isDigit))
    fun char isDigit => read_inert standard inert_digits.2 char (mem_digits isDigit)

theorem triple_plusHexDigit : Triple (Calm []) (plus hexDigit) (Calm []) := by
  have inert : Inert [] "0123456789ABCDEFabcdef" = true := by rfl
  exact triple_plus
    (fun char member => read_inert standard inert char (List.contains_iff_mem.mp member))
    fun char member => read_inert standard inert char (List.contains_iff_mem.mp member)

theorem triple_plusLowHexDigit :
    Triple (Calm []) (plus (among "0123456789abcdef")) (Calm []) := by
  have inert : Inert [] "0123456789abcdef" = true := by rfl
  exact triple_plus
    (fun char member => read_inert standard inert char (List.contains_iff_mem.mp member))
    fun char member => read_inert standard inert char (List.contains_iff_mem.mp member)

omit standard in
theorem triple_calmGroup {index : Nat} {body : Rx Char}
    (whole : Triple (Calm left) body (Calm final)) :
    Triple (Calm left) (group index body) (Calm final) :=
  whole.group fun _ _ here => here

omit standard in
theorem triple_skip {body : Rx Char} (whole : Triple (Calm left) body (Calm left)) :
    Triple (Calm left) (optional body) (Calm left) :=
  whole.alt fun _ _ same here => same ▸ here

/-- The scanner comes to the end and no word is finished. -/
def Ends (position : Position Char) : Prop :=
  ∃ left, Calm left position ∧ [] ∉ left

omit [UnicodeData] standard in
theorem Calm.ends [UnicodeData] {body : Rx Char} (whole : Triple (Calm left) body (Calm final))
    (unfinished : final.contains [] = false) : Triple (Calm left) body Ends := by
  intro position last reads here
  refine ⟨final, whole _ _ reads here, fun finished => ?_⟩
  rw [List.contains_iff_mem.mpr finished] at unfinished
  cases unfinished

theorem ends_raidHealthy : Triple (Calm explicitWords)
    (cat [lit "md_get_status: /dev/md", digits, lit " : status=0, progress=100.000000."]) Ends :=
  Calm.ends (.cat_cons (triple_stem standard (by rfl)) <|
    .cat_cons (triple_moreDigits standard) <|
    .cat_cons (triple_lit standard (by rfl)) .cat_nil) rfl

theorem ends_diskConfOk : Triple (Calm explicitWords)
    (lit "NAS_Disk_Check_Conf: ret = 0, wwnP = (null).") Ends :=
  Calm.ends (triple_lit standard (by rfl)) rfl

theorem ends_diskConfCall : Triple (Calm explicitWords)
    (cat [lit "NAS_Disk_Check_Conf: got call with (0x", among "1234",
      lit ", /mnt/HDA_ROOT/.conf)."]) Ends :=
  Calm.ends (.cat_cons (triple_stem standard (by rfl)) <|
    .cat_cons (triple_among standard (by rfl)) <|
    .cat_cons (triple_lit standard (by rfl)) .cat_nil) rfl

theorem ends_volumeEnumeration : Triple (Calm explicitWords)
    (cat [lit "Do_Get_Volume_Func: index = ", digits, lit ", count=", digits, lit "."]) Ends :=
  Calm.ends (.cat_cons (triple_lit standard (by rfl)) <|
    .cat_cons (triple_digits standard) <|
    .cat_cons (triple_lit standard (by rfl)) <|
    .cat_cons (triple_digits standard) <|
    .cat_cons (triple_lit standard (by rfl)) .cat_nil) rfl

theorem ends_deviceLookup : Triple (Calm explicitWords)
    (cat [lit "PD_Get_Sys_Name: Retrieve pd_sys_name value from /etc/enclosure_", digits,
      lit ".conf!"]) Ends :=
  Calm.ends (.cat_cons (triple_stem standard (by rfl)) <|
    .cat_cons (triple_moreDigits standard) <|
    .cat_cons (triple_lit standard (by rfl)) .cat_nil) rfl

theorem ends_healthPredictionStarted : Triple (Calm explicitWords)
    (lit "SDM_Health_Predict:Start to predict sata disk") Ends :=
  Calm.ends (triple_stem standard (by rfl)) rfl

theorem ends_deviceEnumeration : Triple (Calm explicitWords)
    (cat [lit "SDM: ",
      group 1 (oneOf [
        cat [lit "total enc = ", digits],
        cat [lit "scan ", digits, lit "th enc, total enc = ", digits],
        cat [lit "enc = ", digits, lit " is ", group 2 (optional (lit "not ")), lit "internal."],
        cat [lit "start predict enc = ", digits, lit " port = ", digits, lit " device"]])])
    Ends := by
  refine .cat_cons (triple_lit standard (by rfl)) ?_
  refine .cat_cons (.group (.oneOf ?_) fun _ _ here => here) .cat_nil
  simp only [List.forall_mem_cons, List.not_mem_nil, false_implies, implies_true, and_true]
  refine ⟨?_, ?_, ?_, ?_⟩
  · exact Calm.ends (.cat_cons (triple_lit standard (by rfl)) <|
      .cat_cons (triple_digits standard) .cat_nil) rfl
  · exact Calm.ends (.cat_cons (triple_lit standard (by rfl)) <|
      .cat_cons (triple_digits standard) <|
      .cat_cons (triple_lit standard (by rfl)) <|
      .cat_cons (triple_digits standard) .cat_nil) rfl
  · exact Calm.ends (.cat_cons (triple_lit standard (by rfl)) <|
      .cat_cons (triple_digits standard) <|
      .cat_cons (triple_lit standard (by rfl)) <|
      .cat_cons (triple_calmGroup (triple_skip (triple_lit standard (by rfl)))) <|
      .cat_cons (triple_lit standard (by rfl)) .cat_nil) rfl
  · exact Calm.ends (.cat_cons (triple_lit standard (by rfl)) <|
      .cat_cons (triple_digits standard) <|
      .cat_cons (triple_lit standard (by rfl)) <|
      .cat_cons (triple_digits standard) <|
      .cat_cons (triple_stem standard (by rfl)) .cat_nil) rfl

theorem ends_enumPattern : Triple (Calm explicitWords) enumPattern Ends := by
  have names : Triple (Calm []) (group 1 (oneOf [lit "General", lit "Data"])) (Calm []) := by
    refine triple_calmGroup (.oneOf ?_)
    simp only [List.forall_mem_cons, List.not_mem_nil, false_implies, implies_true, and_true]
    exact ⟨triple_stem standard (by rfl), triple_stem standard (by rfl)⟩
  exact Calm.ends (.cat_cons (triple_stem standard (by rfl)) <|
    .cat_cons names <|
    .cat_cons (triple_stem standard (by rfl)) <|
    .cat_cons (triple_plusHexDigit standard) <|
    .cat_cons (triple_lit standard (by rfl)) .cat_nil) rfl

theorem ends_hdPattern : Triple (Calm explicitWords) hdPattern Ends :=
  Calm.ends (.cat_cons (triple_lit standard (by rfl)) <|
    .cat_cons (triple_among standard (by rfl)) <|
    .cat_cons (triple_lit standard (by rfl)) .cat_nil) rfl

theorem ends_blkPattern : Triple (Calm explicitWords) blkPattern Ends := by
  have first : scan isWordChar sameLetter explicitWords explicitWords
      "Blk_Dev_Generate_Mount_Point: mount point for \"/dev/mapper/cachedev1\" is ".toList =
        some explicitWords := scan_literal standard (by rfl)
  have second : scan isWordChar sameLetter explicitWords explicitWords
      "\"/share/CACHEDEV1_DATA\", is_internal is 1.".toList = some explicitWords :=
    scan_literal standard (by rfl)
  have whole : Triple (Calm explicitWords) blkPattern (Calm explicitWords) := by
    rw [blkPattern, lit, String.toList_append]
    exact triple_word ((scan_append_some first).trans second)
  exact Calm.ends whole rfl

theorem ends_poolSizePattern : Triple (Calm explicitWords) poolSizePattern Ends :=
  Calm.ends (.cat_cons (triple_lit standard (by rfl)) <|
    .cat_cons (triple_calmGroup (triple_digits standard)) <|
    .cat_cons (triple_lit standard (by rfl)) <|
    .cat_cons (triple_calmGroup (triple_digits standard)) <|
    .cat_cons (triple_lit standard (by rfl)) <|
    .cat_cons (triple_calmGroup (triple_digits standard)) <|
    .cat_cons (triple_lit standard (by rfl)) <|
    .cat_cons (triple_calmGroup (triple_digits standard)) .cat_nil) rfl

theorem ends_poolFullPattern : Triple (Calm explicitWords) poolFullPattern Ends :=
  Calm.ends (.cat_cons (triple_lit standard (by rfl)) <|
    .cat_cons (triple_calmGroup (triple_digits standard)) <|
    .cat_cons (triple_lit standard (by rfl)) <|
    .cat_cons (triple_calmGroup (triple_digits standard)) <|
    .cat_cons (triple_lit standard (by rfl)) .cat_nil) rfl

theorem ends_ledPattern : Triple (Calm explicitWords) ledPattern Ends := by
  have events : Triple (Calm []) (oneOf [lit "1000", lit "2000"]) (Calm []) := by
    refine .oneOf ?_
    simp only [List.forall_mem_cons, List.not_mem_nil, false_implies, implies_true, and_true]
    exact ⟨triple_stem standard (by rfl), triple_stem standard (by rfl)⟩
  exact Calm.ends (.cat_cons (triple_stem standard (by rfl)) <|
    .cat_cons events <|
    .cat_cons (triple_stem standard (by rfl)) .cat_nil) rfl

theorem hexDigit_word {char : Char} (member : "0123456789ABCDEFabcdef".toList.contains char = true) :
    isWordChar char = true := by
  have plain : ("0123456789ABCDEFabcdef".toList.all fun char =>
      char.toNat < 128 && asciiWord char) = true := by rfl
  have here := List.all_eq_true.mp plain char (List.contains_iff_mem.mp member)
  rw [Bool.and_eq_true, decide_eq_true_eq] at here
  rw [isWordChar_eq standard here.1]
  exact here.2

/-- The back reference reads what the group has read: it leaves nothing to finish. -/
theorem ends_diskConfMatch : Triple (Calm explicitWords)
    (cat [lit "NAS_Disk_Check_Conf: HAL disk WWN(", group 1 (cat [lit "0x", among "1234"]),
      lit "): ", exactly 16 hexDigit, lit " match conf WWN, the last dev_id(", backref 1,
      lit ")!"]) Ends := by
  rintro position last ⟨first, reads₁, second, ⟨inner, ⟨_, reads₂, reads₃⟩, rfl⟩, third, reads₄,
    fourth, reads₅, fifth, reads₆, sixth, ⟨captured, isCaptured, reads₇⟩, reads₈⟩ here
  have calm₁ : Calm explicitWords first := triple_lit standard (by rfl) _ _ reads₁ here
  have zero : scan isWordChar sameLetter explicitWords explicitWords "0x".toList = some [] :=
    scan_literal standard (by rfl)
  obtain ⟨rest₂, -, rfl⟩ := reads_word_iff.mp reads₂
  obtain ⟨digit, rest₃, -, fits, rfl⟩ := reads_symbol_iff.mp reads₃
  have one : scan isWordChar sameLetter explicitWords [] [digit] = some [] := by
    have inert : Inert [] "1234" = true := by rfl
    rw [scan, read_inert standard inert digit (List.contains_iff_mem.mp fits)]
    rfl
  have calm₃ : Calm [] ((first.through "0x".toList rest₂).through [digit] rest₃) :=
    At.through (At.through calm₁ zero) one
  have calm₄ : Calm explicitWords third :=
    triple_lit standard (by rfl) _ _ reads₄ calm₃
  obtain ⟨rest₄, -, rfl⟩ := reads_word_iff.mp reads₄
  obtain ⟨run, rest₅, -, length, hex, rfl⟩ := reads_exactly_symbol_iff.mp reads₅
  have long : scan isWordChar sameLetter explicitWords explicitWords run = some [] := by
    refine scan_long (fun char member => hexDigit_word standard (hex char member)) ?_
    rw [length]
    decide
  have calm₆ : Calm explicitWords fifth :=
    triple_lit standard (by rfl) _ _ reads₆ (calm₄.through long)
  obtain ⟨rest₆, -, rfl⟩ := reads_word_iff.mp reads₆
  have caught : (((first.through "0x".toList rest₂).through [digit] rest₃).readSince first) =
      captured := Option.some.inj isCaptured
  rw [Position.through_append, Position.readSince_through] at caught
  subst caught
  obtain ⟨rest₇, -, rfl⟩ := readWord_eq_some reads₇
  exact Calm.ends (triple_lit standard (by rfl)) rfl _ _ reads₈
    (calm₆.through ((scan_append_some zero).trans one))

/-! ### Texts and attributes -/

theorem scan_readCommands : ∀ command ∈ readCommands, ∃ final,
    scan isWordChar sameLetter explicitWords explicitWords command.toList = some final ∧
      (final = [] ∨ final = explicitWords) := by
  simp only [readCommands, List.forall_mem_cons, List.not_mem_nil, false_implies, implies_true,
    and_true]
  refine ⟨⟨[], ?_, .inl rfl⟩, ⟨explicitWords, ?_, .inr rfl⟩, ⟨[], ?_, .inl rfl⟩,
    ⟨explicitWords, ?_, .inr rfl⟩, ⟨[], ?_, .inl rfl⟩, ⟨[], ?_, .inl rfl⟩, ⟨[], ?_, .inl rfl⟩,
    ⟨[], ?_, .inl rfl⟩, ⟨[], ?_, .inl rfl⟩, ⟨[], ?_, .inl rfl⟩, ⟨[], ?_, .inl rfl⟩⟩
  all_goals exact scan_literal standard (by rfl)

theorem quiet_readSuccess {text : String} (member : text ∈ readSuccess) :
    Quiet isWordChar sameLetter explicitWords text.toList := by
  obtain ⟨command, listed, rfl⟩ := List.mem_map.mp member
  obtain ⟨final, scanned, known⟩ := scan_readCommands standard command listed
  have lead : scan isWordChar sameLetter explicitWords explicitWords "Perform cmd \"".toList =
      some explicitWords := scan_literal standard (by rfl)
  have tail : scan isWordChar sameLetter explicitWords final
      "\" OK, cmd_rsp=0, reason code:0.".toList = some explicitWords := by
    rcases known with rfl | rfl
    · exact scan_literal standard (by rfl)
    · exact scan_literal standard (by rfl)
  refine ⟨explicitWords, ?_, by decide⟩
  rw [String.toList_append, String.toList_append, List.append_assoc, scan_append_some lead,
    scan_append_some scanned]
  exact tail

/-- The attributes that can be normal. -/
def normalAttributes : List String :=
  (zeroAttributes ++ counterAttributes ++ temperatureAttributes).map Prod.snd

theorem scan_normalAttributes {name : String} (listed : name ∈ normalAttributes) :
    scan isWordChar sameLetter explicitWords explicitWords name.toList = some [] := by
  have all : (normalAttributes.all fun name =>
      asciiScan explicitWords name.toList == some []) = true := by rfl
  exact scan_eq standard (beq_iff_eq.mp (List.all_eq_true.mp all name listed))

omit [UnicodeData] standard in
/-- A name that is found for an attribute is one of the table. -/
theorem mem_of_lookup {table : List (Nat × String)} {ident : Nat} {name : String}
    (found : (table.lookup ident == some name) = true) : name ∈ table.map Prod.snd :=
  List.mem_map.mpr ⟨_, Keyed.mem_of_lookup (beq_iff_eq.mp found), rfl⟩

/-- A text that is read as an attribute with one of the names has no explicit word. -/
theorem quiet_smart {body : List Char} {found : Position Char}
    (matched : smartPattern.fullmatch body = some found)
    (listed : String.ofList (found.captured 2) ∈ normalAttributes) :
    Quiet isWordChar sameLetter explicitWords body := by
  obtain ⟨reads, ended⟩ := fullmatch_sound matched
  have text := reads_input _ reads
  obtain ⟨first, reads₁, second, reads₂, third, reads₃, _, reads₄, fifth, reads₅, _, reads₆, _,
    reads₇, _, reads₈, _, reads₉, _, reads₁₀, _, reads₁₁, _, reads₁₂, _, reads₁₃, reads₁₄⟩ := reads
  have calm₁ : Calm explicitWords first := triple_lit standard (by rfl) _ _ reads₁ rfl
  have calm₂ : Calm [] second := triple_calmGroup (triple_digits standard) _ _ reads₂ calm₁
  have calm₃ : Calm explicitWords third := triple_lit standard (by rfl) _ _ reads₃ calm₂
  obtain ⟨name, rest₄, -, -, -, rfl⟩ := reads_group_plus_iff.mp reads₄
  have tail : Triple (Calm []) (cat [lit ", status_flag = 0x", plus (among "0123456789abcdef"),
      lit ", value = ", group 3 digits, lit ",worst = ", group 4 digits, lit ", thresh = ",
      group 5 digits, lit ",raw = ", group 6 digits]) (Calm []) :=
    .cat_cons (triple_stem standard (by rfl)) <|
      .cat_cons (triple_plusLowHexDigit standard) <|
      .cat_cons (triple_lit standard (by rfl)) <|
      .cat_cons (triple_calmGroup (triple_digits standard)) <|
      .cat_cons (triple_lit standard (by rfl)) <|
      .cat_cons (triple_calmGroup (triple_digits standard)) <|
      .cat_cons (triple_lit standard (by rfl)) <|
      .cat_cons (triple_calmGroup (triple_digits standard)) <|
      .cat_cons (triple_lit standard (by rfl)) <|
      .cat_cons (triple_calmGroup (triple_digits standard)) .cat_nil
  have same : found.captured 2 = name := by
    obtain ⟨rest₅, -, rfl⟩ := reads_word_iff.mp reads₅
    obtain ⟨_, rest₆, -, -, -, rfl⟩ := reads_plus_symbol_iff.mp reads₆
    obtain ⟨rest₇, -, rfl⟩ := reads_word_iff.mp reads₇
    obtain ⟨_, rest₈, -, -, -, rfl⟩ := reads_group_plus_iff.mp reads₈
    obtain ⟨rest₉, -, rfl⟩ := reads_word_iff.mp reads₉
    obtain ⟨_, rest₁₀, -, -, -, rfl⟩ := reads_group_plus_iff.mp reads₁₀
    obtain ⟨rest₁₁, -, rfl⟩ := reads_word_iff.mp reads₁₁
    obtain ⟨_, rest₁₂, -, -, -, rfl⟩ := reads_group_plus_iff.mp reads₁₂
    obtain ⟨rest₁₃, -, rfl⟩ := reads_word_iff.mp reads₁₃
    obtain ⟨_, rest₁₄, -, -, -, rfl⟩ := reads_group_plus_iff.mp reads₁₄
    rfl
  have known := scan_normalAttributes standard listed
  rw [same, String.toList_ofList] at known
  have calm₄ : Calm [] (third.through name rest₄) := At.through calm₃ known
  have last : Calm [] found := tail _ _ ⟨fifth, reads₅, _, reads₆, _, reads₇, _, reads₈, _, reads₉, _,
    reads₁₀, _, reads₁₁, _, reads₁₂, _, reads₁₃, reads₁₄⟩ calm₄
  rw [ended, List.append_nil] at text
  rw [Calm, At, text] at last
  exact ⟨[], last, by simp⟩

/-! ### All reviewed bodies -/

omit standard in
theorem quiet_of_ends {body : Rx Char} {text : List Char}
    (whole : Triple (Calm explicitWords) body Ends) (matched : (body.fullmatch text).isSome) :
    Quiet isWordChar sameLetter explicitWords text := by
  obtain ⟨last, reads, ended⟩ := fullmatch_isSome_iff.mp matched
  obtain ⟨left, here, unfinished⟩ := whole _ _ reads rfl
  have input := reads_input body reads
  rw [ended, List.append_nil] at input
  rw [Calm, At, input] at here
  exact ⟨left, here, unfinished⟩

theorem quiet_textRules {rule : Kind × String × Rx Char} (listed : rule ∈ textRules)
    (other : rule.1 ≠ .kernel) : Triple (Calm explicitWords) rule.2.2 Ends := by
  simp only [textRules, List.mem_cons, List.not_mem_nil, or_false] at listed
  rcases listed with rfl | rfl | rfl | rfl | rfl | rfl | rfl | rfl | rfl
  · exact ends_raidHealthy standard
  · exact ends_diskConfOk standard
  · exact ends_diskConfCall standard
  · exact ends_diskConfMatch standard
  · exact ends_volumeEnumeration standard
  · exact ends_deviceLookup standard
  · exact ends_deviceEnumeration standard
  · exact ends_healthPredictionStarted standard
  · exact absurd rfl other

theorem quiet_storageNormal {body : List Char} {name : String}
    (normal : storageNormal body = some name) :
    Quiet isWordChar sameLetter explicitWords body := by
  unfold storageNormal at normal
  split at normal
  next command =>
      obtain ⟨text, listed, same⟩ := List.any_eq_true.mp command
      rw [beq_iff_eq] at same
      exact same ▸ quiet_readSuccess standard listed
  next =>
      split at normal
      next matched => exact quiet_of_ends (ends_enumPattern standard) matched
      next =>
          split at normal
          next matched => exact quiet_of_ends (ends_hdPattern standard) matched
          next =>
              split at normal
              next matched => exact quiet_of_ends (ends_blkPattern standard) matched
              next =>
                  split at normal
                  next found matched =>
                      exact quiet_of_ends (ends_poolSizePattern standard)
                        (Option.isSome_iff_exists.mpr ⟨found, matched⟩)
                  next =>
                      split at normal
                      next found matched =>
                          exact quiet_of_ends (ends_poolFullPattern standard)
                            (Option.isSome_iff_exists.mpr ⟨found, matched⟩)
                      next => cases normal

theorem quiet_halNormal {body : List Char} {name : String}
    (normal : halNormal body = some name) : Quiet isWordChar sameLetter explicitWords body := by
  unfold halNormal at normal
  split at normal
  next matched => exact quiet_of_ends (ends_ledPattern standard) matched
  next =>
      split at normal
      · cases normal
      next found matched =>
          refine quiet_smart standard matched ?_
          dsimp only at normal
          rw [normalAttributes, List.map_append, List.map_append]
          split_ifs at normal with _ zero counter temperature
          · rw [Bool.and_eq_true] at zero
            exact List.mem_append_left _ (List.mem_append_left _ (mem_of_lookup zero.1))
          · exact List.mem_append_left _ (List.mem_append_right _ (mem_of_lookup counter))
          · rw [Bool.and_eq_true] at temperature
            exact List.mem_append_right _
              (List.mem_map_of_mem (List.contains_iff_mem.mp temperature.1))

/-- **No body of a reviewed message has an explicit word.** -/
theorem quiet_bodyPattern {kind : Kind} {body : List Char} {name : String} (other : kind ≠ .kernel)
    (normal : bodyPattern kind body = some name) :
    Quiet isWordChar sameLetter explicitWords body := by
  unfold bodyPattern at normal
  split at normal
  next rule found =>
      have matched := List.find?_some found
      rw [Bool.and_eq_true, decide_eq_true_eq] at matched
      refine quiet_of_ends (quiet_textRules standard (List.mem_of_find?_eq_some found) ?_)
        matched.2
      rw [matched.1]
      exact other
  next =>
      split at normal
      · exact quiet_storageNormal standard normal
      · exact quiet_halNormal standard normal
      · cases normal

end Patterns

/-! ## Suppressed warnings -/

section Suppressed

/-- What is removed from a message before it is compared with the patterns. -/
def removedPrefix (message : List Char) : List Char :=
  message.take (message.length - (stripPrefix message).length)

/-- The message mentions the timeout attribute. -/
def mentionsTimeout (message : List Char) : Bool :=
  ((lit "Command_Timeout").search message).isSome

/-- The message ends in the raw value zero. -/
def endsRawZero (message : List Char) : Bool :=
  ((cat [lit "raw = 0", star space, eol]).search message).isSome

/-- The level that `prepare` passes for a message. -/
def passedLevel (kind : Kind) (message : List Char) : String :=
  if kind = .kernel then severity kind message else "unknown"

theorem stripPrefix_split (message : List Char) :
    message = removedPrefix message ++ stripPrefix message ∧ Closed (removedPrefix message) := by
  unfold removedPrefix stripPrefix
  split
  next found matched =>
      have reads := matchPrefix_sound matched
      have input : found.past.reverse ++ found.rest = message := reads_input _ reads
      obtain ⟨_, -, _, -, _, -, middle, _, ends⟩ := reads
      obtain ⟨rest, -, isFound⟩ := reads_word_iff.mp ends
      have past : found.past.reverse = middle.past.reverse ++ "] ".toList := by
        rw [isFound, Position.through, List.reverse_append, List.reverse_reverse]
      have length : message.length - found.rest.length = found.past.reverse.length := by
        rw [← input, List.length_append]
        omega
      rw [length]
      have removed : message.take found.past.reverse.length = found.past.reverse := by
        conv_lhs => rw [← input]
        exact List.take_left
      rw [removed]
      exact ⟨input.symm, .inr ⟨_, past⟩⟩
  next =>
      rw [Nat.sub_self]
      exact ⟨rfl, .inl rfl⟩

theorem severity_of_other {kind : Kind} (other : kind ≠ .kernel) (message : List Char) :
    severity kind message = if (errorPattern.search message).isSome then "error"
      else if kind = .hal ∧ mentionsTimeout message = true ∧ endsRawZero message = false then "warn"
      else "unknown" := by
  have zero : ((cat [lit "raw = 0", star space, eol]).search message).isNone =
      !endsRawZero message := by
    rw [endsRawZero]
    cases (cat [lit "raw = 0", star space, eol]).search message <;> rfl
  unfold severity
  simp only [if_neg other, zero, mentionsTimeout, Bool.and_eq_true, decide_eq_true_eq,
    Bool.not_eq_true', and_assoc]
  congr

/-- **When a suppressed message is no warning.** A message that a reviewed pattern
suppresses has no warning level exactly when it is a kernel message, or the part
removed from it has no explicit word and, for `hal`, a message that mentions the
timeout attribute ends in the raw value zero. -/
theorem suppressed_quiet_iff (standard : StandardLetters) {kind : Kind} {message : List Char}
    {name : String} (normal : normalPattern kind message (passedLevel kind message) = some name) :
    severity kind message ∉ badLevels ↔ kind = .kernel ∨
      ((errorPattern.search (removedPrefix message)).isSome = false ∧
        (kind = .hal → mentionsTimeout message = true → endsRawZero message = true)) := by
  unfold normalPattern at normal
  split at normal
  · cases normal
  next harmless =>
    by_cases native : kind = .kernel
    · refine iff_of_true ?_ (.inl native)
      rw [passedLevel, if_pos native] at harmless
      exact fun bad => harmless (List.contains_iff_mem.mpr bad)
    · rw [if_neg native] at normal
      obtain ⟨split, closed⟩ := stripPrefix_split message
      have free := not_hasPhrase_of_quiet standard (quiet_bodyPattern standard native normal)
      have search : (errorPattern.search message).isSome ↔
          (errorPattern.search (removedPrefix message)).isSome := by
        rw [search_errorPattern_iff standard, search_errorPattern_iff standard]
        conv_lhs => rw [split]
        exact hasPhrase_append_iff standard closed free
      have levels : "error" ∈ badLevels ∧ "warn" ∈ badLevels ∧ "unknown" ∉ badLevels := by decide
      rw [severity_of_other native, or_iff_right native]
      by_cases explicit : (errorPattern.search message).isSome
      · rw [if_pos explicit, search.mp explicit]
        exact iff_of_false (not_not_intro levels.1) fun both => Bool.noConfusion both.1
      · rw [if_neg explicit, Bool.eq_false_iff.mpr (mt search.mpr explicit)]
        split
        next warned =>
            refine iff_of_false (not_not_intro levels.2.1) fun both => ?_
            have raw := both.2 warned.1 warned.2.1
            rw [warned.2.2] at raw
            cases raw
        next allowed =>
            refine iff_of_true levels.2.2 ⟨rfl, fun isHal mentions => ?_⟩
            by_contra other
            exact allowed ⟨isHal, mentions, Bool.eq_false_iff.mpr other⟩

end Suppressed

/-! ## Two warnings that are suppressed -/

section Examples

omit [UnicodeData]

/-- ASCII, and the other forms of `k`, `s` and `i`. -/
@[reducible] def letterData : UnicodeData where
  isDecimal char := char.isDigit
  isAlnum char := char.isAlphanum ||
    [0x212a, 0x17f, 0x130, 0x131].contains char.toNat
  isPrintable char := 32 ≤ char.toNat && char.toNat < 127

theorem letterData_standard : @StandardLetters letterData := by
  let _ : UnicodeData := letterData
  constructor
  · intro char ascii
    have other : [0x212a, 0x17f, 0x130, 0x131].contains char.toNat = false := by
      simp only [List.contains_eq_mem, List.mem_cons, List.not_mem_nil, or_false,
        decide_eq_false_iff_not]
      omega
    show (char.isAlphanum || [0x212a, 0x17f, 0x130, 0x131].contains char.toNat) = char.isAlphanum
    rw [other, Bool.or_false]
  · intro char listed
    show (char.isAlphanum || [0x212a, 0x17f, 0x130, 0x131].contains char.toNat) = true
    rw [Bool.or_eq_true]
    right
    simpa using listed

/-- The bracket says `error`. -/
def bracketWarning : List Char :=
  "2026-01-01 00:00:00 [error] SDM_Health_Predict:Start to predict sata disk".toList

/-- The raw value zero is written with two digits. -/
def timeoutWarning : List Char :=
  ("id = 188, name = Command_Timeout, status_flag = 0x32, value = 100,worst = 100, thresh = 0," ++
    "raw = 00").toList

theorem suppressed_warnings :
    ∃ (_ : UnicodeData), StandardLetters ∧
      normalPattern .sdmd bracketWarning (passedLevel .sdmd bracketWarning) =
        some "health_prediction_started" ∧
      severity .sdmd bracketWarning ∈ badLevels ∧
      normalPattern .hal timeoutWarning (passedLevel .hal timeoutWarning) =
        some "smart_counter_zero" ∧
      severity .hal timeoutWarning ∈ badLevels := by
  refine ⟨letterData, letterData_standard, ?_⟩
  decide +kernel

theorem suppressed_quiet_iff_started :
    ∃ (_ : UnicodeData),
      severity .sdmd "SDM_Health_Predict:Start to predict sata disk".toList ∉ badLevels := by
  let _ : UnicodeData := letterData
  have normal : normalPattern .sdmd "SDM_Health_Predict:Start to predict sata disk".toList
      (passedLevel .sdmd "SDM_Health_Predict:Start to predict sata disk".toList) =
        some "health_prediction_started" := by decide +kernel
  refine ⟨letterData, (suppressed_quiet_iff letterData_standard normal).mpr (.inr ⟨?_, ?_⟩)⟩
  · decide +kernel
  · intro isHal
    cases isHal

end Examples

end HomeclusterInfra.NasLogs
