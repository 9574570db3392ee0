import HomeclusterInfra.K3sObservability.ApplyReceipt
import Mathlib.Data.List.Infix
import Mathlib.Tactic.NormNum

/-!
# When the readers of a receipt agree

A receipt is read by the runs that follow and by the observer. They agree about it exactly
where both revisions are one line each and no later bundle repeats the revision of the
receipt as one of several lines, in a time that the observer believes.
-/

set_option autoImplicit false

namespace HomeclusterInfra.K3sObservability.ApplyReceipt

open Text Shell Awk HexGroups

/-! ## Visible characters -/

/-- `[ -~]` -/
def isVisible (char : Char) : Bool :=
  32 ≤ char.toNat && char.toNat < 127

theorem isVisible_of_isHex {char : Char} (hex : isHex char = true) : isVisible char = true := by
  obtain ⟨low, high⟩ := isHex_visible hex
  rw [isVisible, Bool.and_eq_true, decide_eq_true_eq, decide_eq_true_eq]
  exact ⟨by omega, high⟩

theorem isVisible_groups {line : List Char} {lengths : List Nat}
    (groups : isHexGroups lengths line = true) :
    ∀ char ∈ line, isVisible char = true := by
  intro char member
  rcases mem_groups groups member with hex | rfl
  · exact isVisible_of_isHex hex
  · rfl

/-! ## Lines -/

section Lines

variable {text line : List Char}

theorem linesOf_single (single : '\n' ∉ text) : linesOf text = [text] :=
  List.splitOn_eq_singleton single

theorem grepLine_single {accepts : List Char → Bool} (single : '\n' ∉ text) :
    grepLine accepts text = accepts text := by
  rw [grepLine, linesOf_single single, List.any_cons, List.any_nil, Bool.or_false]

theorem grepFixed_iff {pattern found : List Char} :
    grepFixed pattern (some found) = true ↔ found ∈ linesOf pattern := by
  rw [grepFixed, Option.any_some, List.contains_iff_mem]

theorem grepFixed_single {pattern found : List Char} (single : '\n' ∉ pattern) :
    grepFixed pattern (some found) = true ↔ found = pattern := by
  rw [grepFixed_iff, linesOf_single single, List.mem_singleton]

/-- The characters of a line are those of the text but for newlines. -/
theorem mem_of_mem_linesOf {char : Char} (among : line ∈ linesOf text) (member : char ∈ line) :
    char ∈ text ∧ char ≠ '\n' := by
  obtain ⟨inside, other⟩ := mem_of_mem_splitOn among member
  exact ⟨inside, beq_eq_false_iff_ne.mp other⟩

/-- A text in front of another one is in front of its first line. -/
theorem linesOf_append {front head : List Char} {tail : List (List Char)} (single : '\n' ∉ front)
    (lines : linesOf text = head :: tail) : linesOf (front ++ text) = (front ++ head) :: tail := by
  have alone : front.splitOn '\n' = [] ++ [front] := linesOf_single single
  exact splitOn_append alone lines

/-- The last line of a text that does not end with a newline is not empty. -/
theorem linesOf_concat {last : Char} (notNewline : last ≠ '\n') (front : List Char) :
    ∃ init rest, linesOf (front ++ [last]) = init ++ [rest ++ [last]] := by
  obtain ⟨init, rest, pieces⟩ := (List.eq_nil_or_concat (front.splitOn '\n')).resolve_left
    (List.splitOn_ne_nil _ _)
  rw [List.concat_eq_append] at pieces
  have single : [last].splitOn '\n' = [[last]] :=
    List.splitOn_eq_singleton fun member => notNewline (List.mem_singleton.mp member).symm
  exact ⟨init, rest, splitOn_append pieces single⟩

/-- A captured text that is not empty ends with another character. -/
theorem exists_last (something : text ≠ []) (kept : captured text = text) :
    ∃ front last, text = front ++ [last] ∧ last ≠ '\n' := by
  obtain ⟨front, last, rfl⟩ := (List.eq_nil_or_concat text).resolve_left something
  rw [List.concat_eq_append] at kept ⊢
  refine ⟨front, last, rfl, ?_⟩
  rintro rfl
  exact (captured_eq_self_iff.mp kept).2 List.getLast?_concat

/-- Its records are its lines. -/
theorem records_eq_linesOf (something : text ≠ []) (kept : captured text = text) :
    records text = linesOf text := by
  obtain ⟨front, last, rfl, notNewline⟩ := exists_last something kept
  obtain ⟨init, rest, lines⟩ := linesOf_concat notNewline front
  rw [linesOf] at lines
  rw [records, linesOf, lines, if_neg]
  rw [List.getLast?_concat, Option.some.injEq]
  exact List.append_ne_nil_of_right_ne_nil _ (List.cons_ne_nil _ _)

/-- The first characters of each line. -/
theorem linesOf_cut12 (something : text ≠ []) (kept : captured text = text) :
    linesOf (cut12 text) = (linesOf text).map (List.take 12) ∧ cut12 text ≠ [] := by
  obtain ⟨front, last, rfl, notNewline⟩ := exists_last something kept
  obtain ⟨init, rest, lines⟩ := linesOf_concat notNewline front
  have nonempty : (rest ++ [last]).take 12 ≠ [] := by
    cases rest with
    | nil => exact List.cons_ne_nil _ _
    | cons => exact List.cons_ne_nil _ _
  have cut : (linesOf (front ++ [last])).map (List.take 12) =
      init.map (List.take 12) ++ [(rest ++ [last]).take 12] := by
    rw [lines, List.map_append, List.map_singleton]
  have plain : ∀ line ∈ init.map (List.take 12) ++ [(rest ++ [last]).take 12],
      '\n' ∉ line ∧ '\x00' ∉ line := by
    intro line member
    rw [← cut] at member
    obtain ⟨whole, among, rfl⟩ := List.mem_map.mp member
    refine ⟨fun newline => ?_, fun nul => ?_⟩
    · exact (mem_of_mem_linesOf among (List.mem_of_mem_take newline)).2 rfl
    · exact (captured_eq_self_iff.mp kept).1 (mem_of_mem_linesOf among (List.mem_of_mem_take nul)).1
  have whole : cut12 (front ++ [last]) =
      unlines (init.map (List.take 12)) ++ (rest ++ [last]).take 12 := by
    rw [cut12, records_eq_linesOf something kept, cut]
    exact captured_unlines plain nonempty
  rw [whole, cut]
  refine ⟨?_, List.append_ne_nil_of_right_ne_nil _ nonempty⟩
  have single := fun line member => (plain line (List.mem_append_left _ member)).1
  rw [linesOf, splitOn_unlines single, List.splitOn_eq_singleton]
  exact (plain _ (List.mem_append_right _ List.mem_cons_self)).1

theorem cut12_single (something : text ≠ []) (kept : captured text = text)
    (single : '\n' ∉ text) : cut12 text = text.take 12 := by
  have lines := (linesOf_cut12 something kept).1
  rw [linesOf_single single, List.map_singleton] at lines
  have whole := @List.intercalate_splitOn _ (cut12 text) _ _ '\n'
  rw [linesOf] at lines
  rw [← whole, lines, List.intercalate_singleton]

end Lines

/-! ## Identities -/

/-- What the checks of a bundle leave of its identity. -/
structure Identity.Checked (identity : Identity) : Prop where
  infra : captured identity.infraRevision = identity.infraRevision
  inventory : captured identity.inventoryRevision = identity.inventoryRevision
  infraForm : grepLine isRevision identity.infraRevision = true
  inventoryForm : grepLine isRevision identity.inventoryRevision = true
  bundle : identity.bundleId =
    expectedBundleId identity.infraRevision identity.inventoryRevision

/-- **A bundle that is read is checked.** -/
theorem checked_of_readBundle {staged : Staged} {identity : Identity}
    (read : readBundle staged = some identity) : identity.Checked := by
  rw [readBundle] at read
  split at read
  next => cases read
  next =>
    split at read
    next => cases read
    next =>
      split at read
      next => cases read
      next =>
        split at read
        next => cases read
        next =>
          split at read
          next => cases read
          next forms =>
            split at read
            next => cases read
            next sameId =>
              split at read
              next => cases read
              next =>
                cases read
                rw [Bool.or_eq_true, not_or, Bool.not_eq_true', Bool.not_eq_true',
                  Bool.not_eq_false, Bool.not_eq_false] at forms
                rw [bne_iff_ne, not_not] at sameId
                exact ⟨captured_captured _, captured_captured _, forms.1, forms.2, sameId⟩

namespace Identity.Checked

variable {identity other : Identity}

theorem infra_ne_nil (checked : identity.Checked) : identity.infraRevision ≠ [] := by
  intro empty
  have form := checked.infraForm
  rw [empty] at form
  exact absurd form (by decide)

theorem inventory_ne_nil (checked : identity.Checked) : identity.inventoryRevision ≠ [] := by
  intro empty
  have form := checked.inventoryForm
  rw [empty] at form
  exact absurd form (by decide)

/-- The two cut revisions are captured as they are. -/
theorem bundle_eq (checked : identity.Checked) : identity.bundleId =
    cut12 identity.infraRevision ++ '-' :: cut12 identity.inventoryRevision := by
  rw [checked.bundle, expectedBundleId]
  refine captured_eq_self_iff.mpr ⟨fun nul => ?_, fun last => ?_⟩
  · rcases List.mem_append.mp nul with inside | inside
    · exact (captured_eq_self_iff.mp (captured_captured _)).1 inside
    · rcases List.mem_cons.mp inside with dash | inside
      · exact absurd dash (by decide)
      · exact (captured_eq_self_iff.mp (captured_captured _)).1 inside
  · have something := (linesOf_cut12 checked.inventory_ne_nil checked.inventory).2
    rw [List.getLast?_append_of_ne_nil _ (List.cons_ne_nil _ _),
      List.getLast?_cons_of_ne_nil something] at last
    exact (captured_eq_self_iff.mp (captured_captured _)).2 last

/-- The lines of a bundle id: those of the two revisions, cut, and one where they meet. -/
theorem linesOf_bundle (checked : identity.Checked) : ∃ init last head tail,
    linesOf identity.infraRevision = init ++ [last] ∧
      linesOf identity.inventoryRevision = head :: tail ∧
      linesOf identity.bundleId = init.map (List.take 12) ++
        (last.take 12 ++ '-' :: head.take 12) :: tail.map (List.take 12) := by
  obtain ⟨init, last, one⟩ := (List.eq_nil_or_concat (linesOf identity.infraRevision)).resolve_left
    (List.splitOn_ne_nil _ _)
  obtain ⟨head, tail, two⟩ := List.exists_cons_of_ne_nil
    (List.splitOn_ne_nil '\n' identity.inventoryRevision)
  rw [List.concat_eq_append] at one
  refine ⟨init, last, head, tail, one, two, ?_⟩
  have cutOne := (linesOf_cut12 checked.infra_ne_nil checked.infra).1
  have cutTwo := (linesOf_cut12 checked.inventory_ne_nil checked.inventory).1
  rw [one, List.map_append, List.map_singleton] at cutOne
  have second : linesOf ('-' :: cut12 identity.inventoryRevision) =
      ('-' :: head.take 12) :: tail.map (List.take 12) := by
    refine @linesOf_append _ ['-'] _ _ (by decide) (cutTwo.trans ?_)
    rw [linesOf, two, List.map_cons]
  rw [checked.bundle_eq]
  exact splitOn_append cutOne second

theorem infra_isRevision (checked : identity.Checked) (single : '\n' ∉ identity.infraRevision) :
    isRevision identity.infraRevision = true :=
  (grepLine_single single).symm.trans checked.infraForm

theorem inventory_isRevision (checked : identity.Checked)
    (single : '\n' ∉ identity.inventoryRevision) : isRevision identity.inventoryRevision = true :=
  (grepLine_single single).symm.trans checked.inventoryForm

/-- Revisions of one line make a bundle id of one line. -/
theorem bundle_single (checked : identity.Checked) (infra : '\n' ∉ identity.infraRevision)
    (inventory : '\n' ∉ identity.inventoryRevision) : identity.bundleId =
      identity.infraRevision.take 12 ++ '-' :: identity.inventoryRevision.take 12 := by
  rw [checked.bundle_eq, cut12_single checked.infra_ne_nil checked.infra infra,
    cut12_single checked.inventory_ne_nil checked.inventory inventory]

end Identity.Checked

end HomeclusterInfra.K3sObservability.ApplyReceipt
