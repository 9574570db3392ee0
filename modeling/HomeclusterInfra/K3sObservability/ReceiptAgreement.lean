import HomeclusterInfra.K3sObservability.ReceiptReaders
import Mathlib.Tactic.Linarith

/-!
# When the readers of a receipt agree

A receipt is read by the runs that follow and by the observer. Under a clock that does not
step they agree about it exactly where both revisions are one line each, no later bundle of
the same boot repeats the revision of the receipt as one of several lines, and the observer
believes the times that it meets.
-/

set_option autoImplicit false

namespace HomeclusterInfra.K3sObservability.ApplyReceipt

open Text Shell Awk HexGroups

/-! ## Bundles that repeat another one -/

/-- Both revisions are one line each. -/
def Identity.IsPlain (identity : Identity) : Prop :=
  '\n' ∉ identity.infraRevision ∧ '\n' ∉ identity.inventoryRevision

/-- A bundle with the same infra revision, whose inventory revision is several lines. The
first of them begins as the other revision, and the line of the receipt with that revision
is among them. -/
structure Identity.Repeats (other identity : Identity) : Prop where
  infra : other.infraRevision = identity.infraRevision
  several : '\n' ∈ other.inventoryRevision
  start : ((linesOf other.inventoryRevision).headD []).take 12 =
    identity.inventoryRevision.take 12
  among : "INVENTORY_REVISION=".toList ++ identity.inventoryRevision ∈
    linesOf ("INVENTORY_REVISION=".toList ++ other.inventoryRevision)

section Repeated

variable {identity other : Identity}

theorem length_revision {revision : List Char} (form : isRevision revision = true) :
    revision.length = 40 :=
  Nat.succ.inj (length_groups form)

theorem mem_linesOf_front {front text value : List Char} (single : '\n' ∉ front) :
    front ++ value ∈ linesOf (front ++ text) ↔
      value = (linesOf text).headD [] ∨ front ++ value ∈ (linesOf text).tail := by
  obtain ⟨head, tail, lines⟩ := List.exists_cons_of_ne_nil (List.splitOn_ne_nil '\n' text)
  have whole : linesOf text = head :: tail := lines
  rw [linesOf_append single whole, whole, List.mem_cons, List.append_cancel_left_eq,
    List.headD_cons, List.tail_cons]

theorem length_bundleId (checked : identity.Checked) (plain : identity.IsPlain) :
    identity.bundleId.length = 25 := by
  have one := length_revision (checked.infra_isRevision plain.1)
  have two := length_revision (checked.inventory_isRevision plain.2)
  rw [checked.bundle_single plain.1 plain.2, List.length_append, List.length_cons,
    List.length_take, List.length_take, one, two]
  rfl

/-- The line of a receipt with its bundle id, among those that are looked for: the other
infra revision is one line, and the two ids begin alike. -/
theorem bundle_among_iff (checked : identity.Checked) (plain : identity.IsPlain)
    (otherChecked : other.Checked) :
    "BUNDLE_ID=".toList ++ identity.bundleId ∈ linesOf ("BUNDLE_ID=".toList ++ other.bundleId) ↔
      '\n' ∉ other.infraRevision ∧ identity.bundleId = other.infraRevision.take 12 ++
        '-' :: ((linesOf other.inventoryRevision).headD []).take 12 := by
  obtain ⟨init, last, head, tail, one, two, bundle⟩ := otherChecked.linesOf_bundle
  have length := length_bundleId checked plain
  have tooShort : ∀ line : List Char, line.length ≤ 25 →
      "BUNDLE_ID=".toList ++ identity.bundleId ≠ line := by
    rintro line short rfl
    rw [List.length_append, length] at short
    exact absurd short (by decide)
  have cut : ∀ line : List Char, (line.take 12).length ≤ 12 := List.length_take_le 12
  rw [mem_linesOf_front (by decide), bundle, two, List.headD_cons]
  cases init with
  | nil =>
      have whole : other.infraRevision = last := by
        rw [← @List.intercalate_splitOn _ other.infraRevision _ _ '\n']
        rw [linesOf] at one
        rw [one, List.nil_append, List.intercalate_singleton]
      have among : last ∈ linesOf other.infraRevision := by
        rw [one]
        exact List.mem_append_right _ List.mem_cons_self
      have single : '\n' ∉ last := fun newline => (mem_of_mem_linesOf among newline).2 rfl
      rw [whole, List.map_nil, List.nil_append, List.headD_cons, List.tail_cons]
      refine ⟨fun found => ⟨single, ?_⟩, fun found => Or.inl found.2⟩
      refine found.resolve_right fun later => ?_
      obtain ⟨line, -, same⟩ := List.mem_map.mp later
      exact tooShort _ ((cut line).trans (by decide)) same.symm
  | cons first init =>
      have several : '\n' ∈ other.infraRevision := by
        by_contra single
        have lengths := congrArg List.length ((linesOf_single single).symm.trans one)
        rw [List.length_append, List.length_cons] at lengths
        exact absurd lengths (by simp)
      refine iff_of_false (fun found => ?_) fun found => found.1 several
      rw [List.map_cons, List.cons_append, List.headD_cons, List.tail_cons] at found
      rcases found with same | later
      · have short := cut first
        rw [← same, length] at short
        exact absurd short (by decide)
      · rcases List.mem_append.mp later with before | after
        · obtain ⟨line, -, same⟩ := List.mem_map.mp before
          exact tooShort _ ((cut line).trans (by decide)) same.symm
        · rcases List.mem_cons.mp after with meeting | afterwards
          · refine tooShort _ ?_ meeting
            have lengthLast := cut last
            have lengthHead := cut head
            rw [List.length_append, List.length_cons]
            omega
          · obtain ⟨line, -, same⟩ := List.mem_map.mp afterwards
            exact tooShort _ ((cut line).trans (by decide)) same.symm

/-- **The three lines of a bundle are found in its own receipt, and in that of a bundle which
it repeats.** -/
theorem found_iff (checked : identity.Checked) (plain : identity.IsPlain)
    (otherChecked : other.Checked) :
    ("BUNDLE_ID=".toList ++ identity.bundleId ∈
          linesOf ("BUNDLE_ID=".toList ++ other.bundleId) ∧
        "INFRA_REVISION=".toList ++ identity.infraRevision ∈
          linesOf ("INFRA_REVISION=".toList ++ other.infraRevision) ∧
        "INVENTORY_REVISION=".toList ++ identity.inventoryRevision ∈
          linesOf ("INVENTORY_REVISION=".toList ++ other.inventoryRevision)) ↔
      other = identity ∨ other.Repeats identity := by
  have bundle := checked.bundle_single plain.1 plain.2
  rw [bundle_among_iff checked plain otherChecked]
  constructor
  · rintro ⟨⟨single, sameId⟩, infra, inventory⟩
    have sameInfra : other.infraRevision = identity.infraRevision := by
      rw [mem_linesOf_front (by decide), linesOf_single single, List.headD_cons,
        List.tail_cons] at infra
      exact (infra.resolve_right List.not_mem_nil).symm
    rw [bundle, sameInfra, List.append_cancel_left_eq, List.cons.injEq] at sameId
    by_cases several : '\n' ∈ other.inventoryRevision
    · exact Or.inr ⟨sameInfra, several, sameId.2.symm, inventory⟩
    · rw [mem_linesOf_front (by decide), linesOf_single several, List.headD_cons,
        List.tail_cons] at inventory
      have sameInventory := (inventory.resolve_right List.not_mem_nil).symm
      have otherBundle := otherChecked.bundle_single single several
      rw [sameInfra, sameInventory, ← bundle] at otherBundle
      refine Or.inl ?_
      obtain ⟨bundleId, infraRevision, inventoryRevision⟩ := other
      obtain ⟨ownBundle, ownInfra, ownInventory⟩ := identity
      exact (Identity.mk.injEq ..).mpr ⟨otherBundle, sameInfra, sameInventory⟩
  · rintro (rfl | repeats)
    · rw [linesOf_single plain.2, List.headD_cons]
      refine ⟨⟨plain.1, bundle⟩, ?_, ?_⟩
      · rw [mem_linesOf_front (by decide), linesOf_single plain.1]
        exact Or.inl rfl
      · rw [mem_linesOf_front (by decide), linesOf_single plain.2]
        exact Or.inl rfl
    · rw [repeats.infra, repeats.start]
      refine ⟨⟨plain.1, bundle⟩, ?_, repeats.among⟩
      rw [mem_linesOf_front (by decide), linesOf_single plain.1]
      exact Or.inl rfl

end Repeated

/-! ## The lines of a receipt -/

section Lines

variable {bootId first : BootId} {identity other : Identity} {epoch : Nat}

theorem notMem_bootId (bootId : BootId) : '\n' ∉ bootId.val :=
  notMem_groups bootId.property rfl

theorem length_bootId (bootId : BootId) : bootId.val.length = 36 :=
  Nat.succ.inj (length_groups bootId.property)

theorem length_natText (short : epoch < 10 ^ 16) : (natText epoch).length ≤ 16 :=
  (Nat.length_toDigits_le_iff (by decide) (by decide)).2 short

theorem notMem_append {front text : List Char} {char : Char} (inFront : char ∉ front)
    (inText : char ∉ text) : char ∉ front ++ text := fun member =>
  (List.mem_append.mp member).elim inFront inText

theorem bundle_notMem (checked : identity.Checked) (plain : identity.IsPlain) :
    '\n' ∉ identity.bundleId := by
  rw [checked.bundle_single plain.1 plain.2]
  refine notMem_append (fun member => plain.1 (List.mem_of_mem_take member)) fun member => ?_
  rcases List.mem_cons.mp member with dash | inside
  · exact absurd dash (by decide)
  · exact plain.2 (List.mem_of_mem_take inside)

/-- The lines of a plain identity are one line each. -/
theorem receiptLines_single (checked : identity.Checked) (plain : identity.IsPlain) :
    ∀ line ∈ receiptLines first identity epoch, '\n' ∉ line := by
  simp only [receiptLines, List.forall_mem_cons]
  refine ⟨by decide, by decide, notMem_append (by decide) (notMem_bootId first),
    notMem_append (by decide) (bundle_notMem checked plain), notMem_append (by decide) plain.1,
    notMem_append (by decide) plain.2, notMem_append (by decide) (notMem_natText rfl),
    fun _ member => absurd member List.not_mem_nil⟩

/-- The seven newlines, and those of the identity. -/
theorem count_receiptText (first : BootId) (identity : Identity) (epoch : Nat) :
    (receiptText first identity epoch).count '\n' = 7 + (identity.bundleId.count '\n' +
      identity.infraRevision.count '\n' + identity.inventoryRevision.count '\n') := by
  have boot : first.val.count '\n' = 0 := List.count_eq_zero.mpr (notMem_bootId first)
  have digits : (natText epoch).count '\n' = 0 := List.count_eq_zero.mpr (notMem_natText rfl)
  have names : schemaLine.count '\n' = 0 ∧ scopeLine.count '\n' = 0 ∧
      "BOOT_ID=".toList.count '\n' = 0 ∧ "BUNDLE_ID=".toList.count '\n' = 0 ∧
      "INFRA_REVISION=".toList.count '\n' = 0 ∧ "INVENTORY_REVISION=".toList.count '\n' = 0 ∧
      "APPLIED_AT_EPOCH=".toList.count '\n' = 0 := by decide
  obtain ⟨schema, scope, bootName, bundleName, infraName, inventoryName, epochName⟩ := names
  rw [receiptText, count_unlines]
  simp only [receiptLines, List.map_cons, List.map_nil, List.sum_cons, List.sum_nil,
    List.count_append, List.length_cons, List.length_nil, boot, digits, schema, scope, bootName,
    bundleName, infraName, inventoryName, epochName]
  omega

/-- **A receipt of seven lines has a plain identity.** -/
theorem plain_of_count (seven : (receiptText first identity epoch).count '\n' = 7) :
    identity.IsPlain := by
  rw [count_receiptText] at seven
  exact ⟨List.count_eq_zero.mp (by omega), List.count_eq_zero.mp (by omega)⟩

theorem length_receiptText (checked : identity.Checked) (plain : identity.IsPlain)
    (short : epoch < 10 ^ 16) : (receiptText first identity epoch).length ≤ 1024 := by
  have bundle := length_bundleId checked plain
  have infra := length_revision (checked.infra_isRevision plain.1)
  have inventory := length_revision (checked.inventory_isRevision plain.2)
  have boot := length_bootId first
  have digits := length_natText short
  have names : schemaLine.length = 45 ∧ scopeLine.length = 53 ∧ "BOOT_ID=".toList.length = 8 ∧
      "BUNDLE_ID=".toList.length = 10 ∧ "INFRA_REVISION=".toList.length = 15 ∧
      "INVENTORY_REVISION=".toList.length = 19 ∧ "APPLIED_AT_EPOCH=".toList.length = 17 := by
    decide
  obtain ⟨schema, scope, bootName, bundleName, infraName, inventoryName, epochName⟩ := names
  simp only [receiptText, unlines, receiptLines, List.flatMap_cons, List.flatMap_nil,
    List.length_append, List.length_cons, List.length_nil, bundle, infra, inventory, boot, schema,
    scope, bootName, bundleName, infraName, inventoryName, epochName]
  omega

theorem isEpochLine_natText (short : epoch < 10 ^ 16) :
    isEpochLine ("APPLIED_AT_EPOCH=".toList ++ natText epoch) = true := by
  have front : ("APPLIED_AT_EPOCH=".toList ++ natText epoch).drop 17 = natText epoch :=
    @List.drop_left _ "APPLIED_AT_EPOCH=".toList (natText epoch)
  simp only [isEpochLine, front, Bool.and_eq_true, List.isPrefixOf_iff_prefix, decide_eq_true_eq,
    List.all_eq_true, Bool.not_eq_true', List.isEmpty_eq_false_iff]
  exact ⟨⟨⟨List.prefix_append _ _, natText_ne_nil epoch⟩, length_natText short⟩,
    fun char member => natText_isDigit member⟩

/-- **A receipt with a plain identity matches the runs of its boot with its bundle, and with
those that repeat it.** -/
theorem matchesReceipt_iff (checked : identity.Checked) (plain : identity.IsPlain)
    (otherChecked : other.Checked) (short : epoch < 10 ^ 16) :
    matchesReceipt bootId other (receiptText first identity epoch) = true ↔
      bootId = first ∧ (other = identity ∨ other.Repeats identity) := by
  have seven : (receiptText first identity epoch).count '\n' = 7 := by
    rw [count_receiptText, List.count_eq_zero.mpr (bundle_notMem checked plain),
      List.count_eq_zero.mpr plain.1, List.count_eq_zero.mpr plain.2]
  have read : records (receiptText first identity epoch) = receiptLines first identity epoch :=
    records_unlines (receiptLines_single checked plain)
  have epochLine : grepLine isEpochLine ("APPLIED_AT_EPOCH=".toList ++ natText epoch) = true := by
    rw [grepLine_single (notMem_append (by decide) (notMem_natText rfl))]
    exact isEpochLine_natText short
  have boot : grepFixed ("BOOT_ID=".toList ++ bootId.val)
      (some ("BOOT_ID=".toList ++ first.val)) = true ↔ bootId = first := by
    rw [grepFixed_single (notMem_append (by decide) (notMem_bootId bootId)),
      List.append_cancel_left_eq]
    exact ⟨fun same => Subtype.ext same.symm, fun same => congrArg Subtype.val same.symm⟩
  rw [← found_iff checked plain otherChecked, ← boot, ← grepFixed_iff, ← grepFixed_iff,
    ← grepFixed_iff]
  simp only [matchesReceipt, sedLine, read, Bool.and_eq_true, decide_eq_true_eq]
  constructor
  · rintro ⟨⟨⟨⟨⟨-, bootFound⟩, bundle⟩, infra⟩, inventory⟩, -⟩
    exact ⟨bootFound, bundle, infra, inventory⟩
  · rintro ⟨bootFound, bundle, infra, inventory⟩
    exact ⟨⟨⟨⟨⟨⟨⟨⟨length_receiptText checked plain short, seven⟩,
      (grepFixed_single (by decide)).mpr rfl⟩, (grepFixed_single (by decide)).mpr rfl⟩,
      bootFound⟩, bundle⟩, infra⟩, inventory⟩, epochLine⟩

end Lines

/-! ## The observer and a receipt -/

section Observer

variable {first : BootId} {identity : Identity} {epoch : Nat} {readings : Readings}

/-- Seven lines are read. -/
theorem count_of_readReceipt {raw : List Char} {values : List (List Char)}
    (read : readReceipt raw = some values) : raw.count '\n' = 7 := by
  rw [readReceipt] at read
  split at read
  next => cases read
  next =>
    split at read
    next => cases read
    next newlines =>
      split at read
      next => cases read
      next =>
        split at read
        next => cases read
        next seven =>
          rw [Bool.or_eq_true, Bool.or_eq_true, not_or, not_or, bne_iff_ne, not_not] at newlines
          obtain ⟨front, rfl⟩ := List.getLast?_eq_some_iff.mp newlines.1.1
          rw [List.dropLast_concat, length_splitOn, bne_iff_ne, not_not] at seven
          rw [List.count_append, List.count_singleton_self]
          exact seven

theorem isVisible_receiptLines (checked : identity.Checked) (plain : identity.IsPlain) :
    ∀ line ∈ receiptLines first identity epoch, ∀ char ∈ line, isVisible char = true := by
  have named : ∀ {front text : List Char}, front.all isVisible = true →
      (∀ char ∈ text, isVisible char = true) → ∀ char ∈ front ++ text, isVisible char = true :=
    fun one two char member =>
      (List.mem_append.mp member).elim (List.all_eq_true.mp one char) (two char)
  have infra := isVisible_groups (checked.infra_isRevision plain.1)
  have inventory := isVisible_groups (checked.inventory_isRevision plain.2)
  have bundle : ∀ char ∈ identity.bundleId, isVisible char = true := by
    rw [checked.bundle_single plain.1 plain.2]
    intro char member
    rcases List.mem_append.mp member with before | after
    · exact infra char (List.mem_of_mem_take before)
    · rcases List.mem_cons.mp after with rfl | later
      · rfl
      · exact inventory char (List.mem_of_mem_take later)
  have digits : ∀ char ∈ natText epoch, isVisible char = true := fun char member =>
    isVisible_of_isHex (Bool.or_eq_true _ _ |>.mpr (Or.inl (natText_isDigit member)))
  simp only [receiptLines, List.forall_mem_cons]
  exact ⟨List.all_eq_true.mp (by decide), List.all_eq_true.mp (by decide),
    named (by decide) (isVisible_groups first.property), named (by decide) bundle,
    named (by decide) infra, named (by decide) inventory, named (by decide) digits,
    fun _ member => absurd member List.not_mem_nil⟩

theorem readField_line {name front value : List Char} (named : front = name ++ ['='])
    (something : 0 < value.length) (short : front.length + value.length ≤ 160) :
    readField name (front ++ value) = some value := by
  have prefixed : front.isPrefixOf (front ++ value) = true := by
    rw [List.isPrefixOf_iff_prefix]
    exact List.prefix_append _ _
  rw [← List.length_append] at short
  rw [readField, ← named]
  simp only [prefixed, List.drop_left, short, decide_true, Bool.and_true, Bool.true_and,
    Bool.not_eq_true', List.isEmpty_eq_false_iff.mpr (List.ne_nil_of_length_pos something),
    if_true]

/-- Seven visible lines are read field by field. -/
theorem readReceipt_unlines {init : List (List Char)} {last : List Char}
    (visible : ∀ line ∈ init ++ [last], ∀ char ∈ line, isVisible char = true)
    (small : (unlines (init ++ [last])).length ≤ 1024) (seven : (init ++ [last]).length = 7) :
    readReceipt (unlines (init ++ [last])) =
      (fieldNames.zip (init ++ [last])).mapM fun entry => readField entry.1 entry.2 := by
  have text : ∀ char ∈ unlines (init ++ [last]), char = '\n' ∨ isVisible char = true := by
    intro char member
    rcases mem_unlines member with newline | ⟨line, among, inside⟩
    · exact Or.inl newline
    · exact Or.inr (visible line among char inside)
  have single : ∀ line ∈ init ++ [last], '\n' ∉ line := fun line among newline =>
    absurd (visible line among _ newline) (by decide)
  rw [unlines_concat] at small text ⊢
  have return_notMem : '\r' ∉ unlines init ++ last ++ ['\n'] := fun member =>
    (text _ member).elim (by decide) (by decide)
  have nul_notMem : '\x00' ∉ unlines init ++ last ++ ['\n'] := fun member =>
    (text _ member).elim (by decide) (by decide)
  have ascii : (unlines init ++ last).all (fun char => char.toNat < 128) = true := by
    rw [List.all_eq_true]
    intro char member
    rw [decide_eq_true_eq]
    rcases text char (List.mem_append_left _ member) with rfl | seen
    · decide
    · rw [isVisible, Bool.and_eq_true, decide_eq_true_eq, decide_eq_true_eq] at seen
      omega
  have pieces : (unlines init ++ last).splitOn '\n' = init ++ [last] := by
    rw [splitOn_unlines fun line among => single line (List.mem_append_left _ among),
      splitOn_of_notMem (single last (List.mem_append_right _ List.mem_cons_self))]
  have names : fieldNames.length = 7 := rfl
  rw [readReceipt, List.dropLast_concat, List.getLast?_concat, pieces, seven, names, ascii,
    if_neg, if_neg, if_neg, if_neg]
  · exact fun different => absurd rfl (bne_iff_ne.mp different)
  · exact Bool.false_ne_true
  · rw [Bool.or_eq_true, Bool.or_eq_true, List.contains_iff_mem, List.contains_iff_mem]
    rintro ((last_ne | inside) | inside)
    · exact absurd last_ne (by decide)
    · exact return_notMem inside
    · exact nul_notMem inside
  · rw [Bool.or_eq_true, List.isEmpty_iff, decide_eq_true_eq]
    rintro (empty | long)
    · exact List.append_ne_nil_of_right_ne_nil _ (List.cons_ne_nil _ _) empty
    · exact absurd small (Nat.not_le_of_lt long)

/-- **The fields of a receipt with a plain identity are read.** -/
theorem readReceipt_receiptText (checked : identity.Checked) (plain : identity.IsPlain)
    (short : epoch < 10 ^ 16) : readReceipt (receiptText first identity epoch) =
      some ["homecluster-terraform-apply-receipt-v1".toList,
        "terraform_apply_success_not_helm_state_attested".toList, first.val, identity.bundleId,
        identity.infraRevision, identity.inventoryRevision, natText epoch] := by
  have read := @readReceipt_unlines (receiptLines first identity epoch).dropLast
    ("APPLIED_AT_EPOCH=".toList ++ natText epoch) (isVisible_receiptLines checked plain)
    (length_receiptText checked plain short) rfl
  have bundle := length_bundleId checked plain
  have infra := length_revision (checked.infra_isRevision plain.1)
  have inventory := length_revision (checked.inventory_isRevision plain.2)
  have boot := length_bootId first
  have digits := length_natText short
  have something : 0 < (natText epoch).length := List.length_pos_iff.mpr (natText_ne_nil epoch)
  have schemaField : readField "SCHEMA".toList schemaLine =
      some "homecluster-terraform-apply-receipt-v1".toList := by decide
  have scopeField : readField "SCOPE".toList scopeLine =
      some "terraform_apply_success_not_helm_state_attested".toList := by decide
  have bootField : readField "BOOT_ID".toList ("BOOT_ID=".toList ++ first.val) =
      some first.val := readField_line (by decide) (by omega) (by rw [boot]; decide)
  have bundleField : readField "BUNDLE_ID".toList ("BUNDLE_ID=".toList ++ identity.bundleId) =
      some identity.bundleId := readField_line (by decide) (by omega) (by rw [bundle]; decide)
  have infraField : readField "INFRA_REVISION".toList
      ("INFRA_REVISION=".toList ++ identity.infraRevision) = some identity.infraRevision :=
    readField_line (by decide) (by omega) (by rw [infra]; decide)
  have inventoryField : readField "INVENTORY_REVISION".toList
      ("INVENTORY_REVISION=".toList ++ identity.inventoryRevision) =
        some identity.inventoryRevision :=
    readField_line (by decide) (by omega) (by rw [inventory]; decide)
  have epochField : readField "APPLIED_AT_EPOCH".toList
      ("APPLIED_AT_EPOCH=".toList ++ natText epoch) = some (natText epoch) :=
    readField_line (by decide) something
      ((Nat.add_le_add_left digits _).trans (by decide))
  refine read.trans ?_
  simp only [fieldNames, receiptLines, List.dropLast, List.cons_append, List.nil_append,
    List.zip_cons_cons, List.zip_nil_right, List.mapM_cons, List.mapM_nil, schemaField,
    scopeField, bootField, bundleField, infraField, inventoryField, epochField]
  rfl

theorem bundleId_isBundleId (checked : identity.Checked) (plain : identity.IsPlain) :
    isBundleId identity.bundleId = true := by
  have infra := checked.infra_isRevision plain.1
  have inventory := checked.inventory_isRevision plain.2
  have cut : ∀ {revision : List Char}, isRevision revision = true →
      (∀ char ∈ revision.take 12, isHex char = true) ∧ (revision.take 12).length = 12 := by
    intro revision form
    refine ⟨fun char member => isHex_of_single form char (List.mem_of_mem_take member), ?_⟩
    rw [List.length_take, length_revision form]
    rfl
  rw [checked.bundle_single plain.1 plain.2]
  exact isHexGroups_cons (cut infra).1 (cut infra).2
    (isHexGroups_single (cut inventory).1 (cut inventory).2)

/-- **What the observer makes of a receipt with a plain identity.** -/
theorem snapshot_receiptText (checked : identity.Checked) (plain : identity.IsPlain)
    (short : epoch < 10 ^ 16) :
    snapshot first readings (receiptText first identity epoch) = some (identity, epoch) ↔
      isPlausible readings = true ∧ isTimely readings epoch = true ∧
        isRepresentable epoch = true ∧ isRepresentable readings.now = true := by
  have bundleForm := bundleId_isBundleId checked plain
  have infraForm := checked.infra_isRevision plain.1
  have inventoryForm := checked.inventory_isRevision plain.2
  have digits : (natText epoch).all Char.isDigit = true :=
    List.all_eq_true.mpr fun char member => natText_isDigit member
  have few : ¬ 16 < (natText epoch).length := Nat.not_lt_of_le (length_natText short)
  have bundle := checked.bundle_single plain.1 plain.2
  rw [snapshot, readReceipt_receiptText checked plain short]
  simp only [bundleForm, infraForm, inventoryForm, ← bundle, digits, few, digitsValue_natText,
    bne_self_eq_false, Bool.not_true, Bool.or_self, Bool.false_eq_true, if_false, decide_false,
    Bool.not_eq_true', Bool.or_eq_true, Option.ite_none_left_eq_some, not_or, Bool.not_eq_false,
    and_true]

/-- The times of a receipt that is accepted, and that it was read. -/
theorem of_snapshot {raw : List Char} {found : Identity × Nat}
    (accepted : snapshot first readings raw = some found) :
    raw.count '\n' = 7 ∧ isPlausible readings = true ∧ isTimely readings found.2 = true ∧
      isRepresentable readings.now = true := by
  rw [snapshot] at accepted
  split at accepted
  next => cases accepted
  next likely =>
    rw [Bool.not_eq_true, Bool.not_eq_false'] at likely
    split at accepted
    next read =>
      refine ⟨count_of_readReceipt read, likely, ?_⟩
      split at accepted
      next => cases accepted
      next =>
        split at accepted
        next => cases accepted
        next =>
          split at accepted
          next => cases accepted
          next timely =>
            split at accepted
            next => cases accepted
            next representable =>
              rw [Bool.not_eq_true, Bool.not_eq_false'] at timely
              rw [Bool.or_eq_true, not_or, Bool.not_eq_true, Bool.not_eq_true,
                Bool.not_eq_false', Bool.not_eq_false'] at representable
              cases accepted
              exact ⟨timely, representable.2⟩
    next => cases accepted

end Observer

/-! ## A clock that does not step -/

/-- What a clock that does not step shows of a receipt that was written since the boot. The
epoch is the clock in whole seconds, and the time of a file may lag behind a little. -/
structure Readings.Steady (readings : Readings) (epoch : Nat) : Prop where
  running : 0 ≤ readings.uptime
  started : readings.uptime < readings.now
  sinceBoot : readings.now - readings.uptime ≤ epoch + 1
  read : epoch ≤ readings.now
  written : epoch ≤ readings.mtime + 1
  before : readings.mtime ≤ readings.now

/-- The bounds of the observer that no steady clock keeps by itself. -/
structure Readings.Bounded (readings : Readings) (epoch : Nat) : Prop where
  uptime : readings.uptime ≤ 5 * 365 * 86400
  quick : readings.mtime ≤ epoch + 30
  year : readings.now < 253402300800

section Clock

variable {epoch : Nat} {readings : Readings}

theorem Readings.Steady.isTimely_iff (steady : readings.Steady epoch) :
    isTimely readings epoch = true ↔ readings.mtime ≤ epoch + 30 := by
  have sinceBoot := steady.sinceBoot
  have written := steady.written
  have before := steady.before
  simp only [isTimely, Bool.and_eq_true, decide_eq_true_eq, abs_le]
  constructor
  · rintro ⟨-, -, late⟩
    linarith
  · intro quick
    refine ⟨⟨⟨?_, ?_⟩, ?_⟩, ?_, ?_⟩ <;> linarith

theorem Readings.Steady.short (steady : readings.Steady epoch)
    (representable : isRepresentable readings.now = true) :
    epoch < 10 ^ 16 ∧ isRepresentable epoch = true := by
  rw [isRepresentable, decide_eq_true_eq] at representable ⊢
  have small := steady.read.trans_lt representable
  refine ⟨?_, small⟩
  have bound : epoch < 253402300800 := by exact_mod_cast small
  omega

/-- **Under a steady clock the checks of the times are these bounds.** -/
theorem Readings.Steady.believed_iff (steady : readings.Steady epoch) :
    (isPlausible readings = true ∧ isTimely readings epoch = true ∧
      isRepresentable epoch = true ∧ isRepresentable readings.now = true) ↔
        readings.Bounded epoch := by
  rw [steady.isTimely_iff]
  constructor
  · rintro ⟨likely, quick, -, year⟩
    simp only [isPlausible, Bool.and_eq_true, decide_eq_true_eq] at likely
    exact ⟨likely.1.2, quick, of_decide_eq_true year⟩
  · rintro ⟨uptime, quick, year⟩
    have representable : isRepresentable readings.now = true := decide_eq_true year
    refine ⟨?_, quick, (steady.short representable).2, representable⟩
    simp only [isPlausible, Bool.and_eq_true, decide_eq_true_eq]
    exact ⟨⟨steady.running, uptime⟩, steady.started⟩

end Clock

/-! ## The readers agree -/

/-- What a later run and the observer make of the receipt of a first run. -/
structure Agrees (first : Run) (identity : Identity) (content : List Char) (later : Run)
    (readings : Readings) : Prop where
  skips : later.bootId = first.bootId → readBundle later.staged = some identity →
    apply later (.receipt content) = (.skipped, .receipt content)
  keeps : later.bootId ≠ first.bootId ∨ readBundle later.staged ≠ some identity →
    (apply later (.receipt content)).1 ≠ .skipped ∧
      (apply later (.receipt content)).2 = .receipt content
  observed : snapshot first.bootId readings content = some (identity, first.epoch)

/-- A later run of the same boot meets a bundle that repeats the one of the receipt. -/
def RepeatedBy (first : Run) (identity : Identity) (later : Run) : Prop :=
  later.bootId = first.bootId ∧
    ∃ other, readBundle later.staged = some other ∧ other.Repeats identity

section Agreement

variable {first later : Run} {identity : Identity} {content : List Char} {readings : Readings}

theorem publish_eq_some (published : publish first identity = some content) :
    content = receiptText first.bootId identity first.epoch := by
  rw [publish] at published
  split at published
  next => cases published
  next =>
    split at published
    next => cases published
    next =>
      split at published
      next => cases published
      next =>
        split at published
        next => cases published
        next =>
          split at published
          next =>
            cases published
            rfl
          next => cases published

/-- A run that publishes has read a bundle, and prints its identity. -/
theorem apply_absent (published : apply first .absent = (.applied, .receipt content)) :
    ∃ identity, readBundle first.staged = some identity ∧
      content = receiptText first.bootId identity first.epoch := by
  rw [apply] at published
  split at published
  next => cases published
  next identity bundle =>
    refine ⟨identity, bundle, ?_⟩
    simp only at published
    split at published
    next => cases published
    next =>
      split at published
      next => cases published
      next written =>
        cases published
        exact publish_eq_some written

/-- What a run does that meets a receipt. -/
theorem apply_receipt (later : Run) (content : List Char) :
    apply later (.receipt content) =
      ((if (readBundle later.staged).any fun other => matchesReceipt later.bootId other content
        then .skipped else .failed), .receipt content) := by
  rw [apply]
  cases readBundle later.staged with
  | none => rfl
  | some other =>
      rw [Option.any_some]
      simp only
      split
      next => rfl
      next => rfl

/-- **A run skips for a receipt with a plain identity in the boot of the receipt, with its
bundle or one that repeats it.** -/
theorem skipped_iff (checked : identity.Checked) (plain : identity.IsPlain)
    (short : first.epoch < 10 ^ 16) :
    (apply later (.receipt (receiptText first.bootId identity first.epoch))).1 = .skipped ↔
      later.bootId = first.bootId ∧ (readBundle later.staged = some identity ∨
        ∃ other, readBundle later.staged = some other ∧ other.Repeats identity) := by
  rw [apply_receipt]
  cases read : readBundle later.staged with
  | none =>
      refine iff_of_false (fun skipped => by cases skipped) ?_
      rintro ⟨-, same | ⟨other, same, -⟩⟩ <;> cases same
  | some other =>
      have matching := @matchesReceipt_iff later.bootId first.bootId identity other first.epoch
        checked plain (checked_of_readBundle read) short
      rw [Option.any_some, Option.some.injEq]
      constructor
      · intro skipped
        simp only at skipped
        split at skipped
        next found =>
          refine ⟨(matching.mp found).1, (matching.mp found).2.imp_right fun repeats => ?_⟩
          exact ⟨other, rfl, repeats⟩
        next => cases skipped
      · rintro ⟨boot, same⟩
        refine if_pos (matching.mpr ⟨boot, same.imp_right ?_⟩)
        rintro ⟨another, same, repeats⟩
        cases same
        exact repeats

/-- **The readers of a receipt agree exactly where both revisions are one line each, the later
run meets no bundle that repeats them, and the times keep the bounds of the observer.** -/
theorem agrees_iff (bundle : readBundle first.staged = some identity)
    (published : apply first .absent = (.applied, .receipt content))
    (steady : readings.Steady first.epoch) :
    Agrees first identity content later readings ↔
      identity.IsPlain ∧ ¬ RepeatedBy first identity later ∧ readings.Bounded first.epoch := by
  obtain ⟨same, read, rfl⟩ := apply_absent published
  cases Option.some.inj (bundle.symm.trans read)
  have checked := checked_of_readBundle bundle
  constructor
  · rintro ⟨skips, keeps, observed⟩
    obtain ⟨seven, likely, timely, representable⟩ := of_snapshot observed
    have plain := plain_of_count seven
    obtain ⟨short, year⟩ := steady.short representable
    refine ⟨plain, ?_, steady.believed_iff.mp ⟨likely, timely, year, representable⟩⟩
    rintro ⟨boot, other, otherBundle, repeats⟩
    have skipped := (skipped_iff checked plain short).mpr
      ⟨boot, Or.inr ⟨other, otherBundle, repeats⟩⟩
    refine (keeps (Or.inr fun same => ?_)).1 skipped
    cases Option.some.inj (otherBundle.symm.trans same)
    exact plain.2 repeats.several
  · rintro ⟨plain, notRepeated, bounded⟩
    obtain ⟨likely, timely, year, representable⟩ := steady.believed_iff.mpr bounded
    have short := (steady.short representable).1
    have skipped := @skipped_iff first later identity checked plain short
    have kept := congrArg Prod.snd (apply_receipt later
      (receiptText first.bootId identity first.epoch))
    refine ⟨fun boot same => ?_, fun different => ⟨fun isSkipped => ?_, kept⟩, ?_⟩
    · exact Prod.ext (skipped.mpr ⟨boot, Or.inl same⟩) kept
    · obtain ⟨boot, same | repeated⟩ := skipped.mp isSkipped
      · exact different.elim (fun other => other boot) fun other => other same
      · exact notRepeated ⟨boot, repeated⟩
    · exact (snapshot_receiptText checked plain short).mpr
        ⟨likely, timely, year, representable⟩

end Agreement

/-- A bundle with two revisions of one line. -/
def completedIdentity : Identity :=
  ⟨List.replicate 12 'a' ++ '-' :: List.replicate 12 'b', List.replicate 40 'a',
    List.replicate 40 'b'⟩

/-- A run of it. -/
def completedRun : Run :=
  let identity := completedIdentity
  let staged : Staged := ⟨true, identity.bundleId, identity.bundleId, identity.infraRevision,
    identity.infraRevision, identity.inventoryRevision, ['1'], ['1']⟩
  ⟨staged, ⟨"01234567-89ab-cdef-0123-456789abcdef".toList, by decide⟩, true, staged, 1000, true⟩

/-- The readers of its receipt agree, a minute after the boot. -/
theorem agrees_completedRun : Agrees completedRun completedIdentity
    (receiptText completedRun.bootId completedIdentity 1000) completedRun ⟨60, 1010, 1000⟩ := by
  have bundle : readBundle completedRun.staged = some completedIdentity := by rfl
  have plain : completedIdentity.IsPlain := ⟨by decide, by decide⟩
  refine (agrees_iff bundle (by rfl) ?_).mpr ⟨plain, ?_, ?_⟩
  · exact ⟨by norm_num, by norm_num, by norm_num [completedRun], by norm_num [completedRun],
      by norm_num [completedRun], by norm_num⟩
  · rintro ⟨-, other, same, repeats⟩
    cases Option.some.inj (bundle.symm.trans same)
    exact plain.2 repeats.several
  · exact ⟨by norm_num, by norm_num [completedRun], by norm_num⟩

end HomeclusterInfra.K3sObservability.ApplyReceipt
