import Mathlib.Data.List.Nodup
import Mathlib.Data.List.Perm.Subperm
import Mathlib.Data.Set.Basic
import Mathlib.Tactic.Ring

/-!
# Dyadic blocks

A block of level `k` is a range of `2 ^ k` natural numbers that begins at a
multiple of its size. A set of numbers below a power of two is cut into its
maximal blocks, in ascending order. This list determines the set and is
determined by it, however the set was given.

`decompose` computes the list from two tests, one that recognises blocks inside
the set and one that recognises blocks outside; the first has to be exact only
for single numbers.
-/

set_option autoImplicit false

namespace HomeclusterInfra.DyadicBlocks

/-- The numbers from `index * 2 ^ level` on, `2 ^ level` of them. -/
structure Block where
  level : Nat
  index : Nat
  deriving DecidableEq

namespace Block

/-- The first number of a block. -/
def first (block : Block) : Nat :=
  block.index * 2 ^ block.level

/-- The number after the last one. -/
def stop (block : Block) : Nat :=
  (block.index + 1) * 2 ^ block.level

/-- The number lies in the block. -/
def Contains (block : Block) (number : Nat) : Prop :=
  number / 2 ^ block.level = block.index

instance (block : Block) (number : Nat) : Decidable (block.Contains number) :=
  inferInstanceAs (Decidable (_ = _))

/-- The block is part of another. -/
def within (block other : Block) : Bool :=
  block.level ≤ other.level && block.index / 2 ^ (other.level - block.level) = other.index

theorem contains_iff {block : Block} {number : Nat} :
    block.Contains number ↔ block.first ≤ number ∧ number < block.stop := by
  have positive : 0 < 2 ^ block.level := Nat.two_pow_pos _
  rw [Contains, first, stop, Nat.div_eq_iff positive]
  constructor
  · rintro ⟨least, most⟩
    refine ⟨least, ?_⟩
    rw [Nat.add_mul]
    omega
  · rintro ⟨least, most⟩
    refine ⟨least, ?_⟩
    rw [Nat.add_mul] at most
    omega

theorem contains_first (block : Block) : block.Contains block.first := by
  rw [Contains, first]
  exact Nat.mul_div_cancel _ (Nat.two_pow_pos _)

theorem contains_zero {index number : Nat} : (Block.mk 0 index).Contains number ↔ number = index := by
  simp [Contains]

/-- A block has the numbers of its two halves. -/
theorem contains_succ {level index number : Nat} :
    (Block.mk (level + 1) index).Contains number ↔
      (Block.mk level (2 * index)).Contains number ∨
        (Block.mk level (2 * index + 1)).Contains number := by
  have halved : number / 2 ^ (level + 1) = number / 2 ^ level / 2 := by
    rw [Nat.pow_succ, Nat.div_div_eq_div_mul]
  simp only [Contains, halved]
  omega

theorem contains_of_within {block other : Block} (inside : block.within other = true)
    {number : Nat} (contains : block.Contains number) : other.Contains number := by
  simp only [within, Bool.and_eq_true, decide_eq_true_eq] at inside
  rw [Contains] at contains ⊢
  rw [← inside.2, ← contains, Nat.div_div_eq_div_mul, ← Nat.pow_add,
    Nat.add_sub_cancel' inside.1]

/-- Of two blocks with a common number one is part of the other. -/
theorem within_or_within {block other : Block} {number : Nat} (one : block.Contains number)
    (two : other.Contains number) : block.within other = true ∨ other.within block = true := by
  simp only [within, Bool.and_eq_true, decide_eq_true_eq]
  rw [Contains] at one two
  rcases Nat.le_total block.level other.level with smaller | larger
  · refine .inl ⟨smaller, ?_⟩
    rw [← one, ← two, Nat.div_div_eq_div_mul, ← Nat.pow_add, Nat.add_sub_cancel' smaller]
  · refine .inr ⟨larger, ?_⟩
    rw [← one, ← two, Nat.div_div_eq_div_mul, ← Nat.pow_add, Nat.add_sub_cancel' larger]

end Block

/-! ## Maximal blocks -/

section Maximal

open Classical in
/-- The maximal blocks of a set inside one block. -/
noncomputable def maximal (covered : Set Nat) : Nat → Nat → List Block
  | 0, index => if index ∈ covered then [⟨0, index⟩] else []
  | level + 1, index =>
      if ∀ number, (Block.mk (level + 1) index).Contains number → number ∈ covered then
        [⟨level + 1, index⟩]
      else maximal covered level (2 * index) ++ maximal covered level (2 * index + 1)

variable {covered other : Set Nat}

/-- A full block is its own maximal block. -/
theorem maximal_of_full {level index : Nat}
    (full : ∀ number, (Block.mk level index).Contains number → number ∈ covered) :
    maximal covered level index = [⟨level, index⟩] := by
  cases level with
  | zero => rw [maximal, if_pos (full index (Block.contains_zero.2 rfl))]
  | succ level => rw [maximal, if_pos full]

/-- A block without a number of the set has no maximal block. -/
theorem maximal_of_empty {level index : Nat}
    (empty : ∀ number, (Block.mk level index).Contains number → number ∉ covered) :
    maximal covered level index = [] := by
  induction level generalizing index with
  | zero => rw [maximal, if_neg (empty index (Block.contains_zero.2 rfl))]
  | succ level ih =>
      have one := Block.contains_first ⟨level + 1, index⟩
      rw [maximal, if_neg fun full => empty _ one (full _ one),
        ih fun number inside => empty number (Block.contains_succ.2 (.inl inside)),
        ih fun number inside => empty number (Block.contains_succ.2 (.inr inside))]
      rfl

/-- The maximal blocks of a block are parts of it. -/
theorem of_mem_maximal {level index : Nat} {block : Block}
    (member : block ∈ maximal covered level index) :
    block.level ≤ level ∧
      ∀ number, block.Contains number → (Block.mk level index).Contains number := by
  induction level generalizing index with
  | zero =>
      rw [maximal] at member
      split at member
      · rw [List.mem_singleton.1 member]
        exact ⟨le_rfl, fun _ => id⟩
      · cases member
  | succ level ih =>
      rw [maximal] at member
      split at member
      · rw [List.mem_singleton.1 member]
        exact ⟨le_rfl, fun _ => id⟩
      · rcases List.mem_append.1 member with left | right
        · obtain ⟨small, part⟩ := ih left
          exact ⟨by omega, fun number inside => Block.contains_succ.2 (.inl (part number inside))⟩
        · obtain ⟨small, part⟩ := ih right
          exact ⟨by omega, fun number inside => Block.contains_succ.2 (.inr (part number inside))⟩

/-- Only a full block is its own maximal block. -/
theorem maximal_eq_self_iff {level index : Nat} :
    maximal covered level index = [⟨level, index⟩] ↔
      ∀ number, (Block.mk level index).Contains number → number ∈ covered := by
  refine ⟨fun same => ?_, maximal_of_full⟩
  cases level with
  | zero =>
      rw [maximal] at same
      split at same
      next member =>
          intro number inside
          rwa [Block.contains_zero.1 inside]
      next => cases same
  | succ level =>
      rw [maximal] at same
      split at same
      next full => exact full
      next =>
          have member : Block.mk (level + 1) index ∈
              maximal covered level (2 * index) ++ maximal covered level (2 * index + 1) := by
            rw [same]
            exact List.mem_singleton.2 rfl
          have small : level + 1 ≤ level := by
            rcases List.mem_append.1 member with left | right
            · exact (of_mem_maximal left).1
            · exact (of_mem_maximal right).1
          omega

/-- **The maximal blocks hold the numbers of the set.** -/
theorem exists_mem_maximal_iff {level index number : Nat}
    (inside : (Block.mk level index).Contains number) :
    (∃ block ∈ maximal covered level index, block.Contains number) ↔ number ∈ covered := by
  induction level generalizing index with
  | zero =>
      obtain rfl := Block.contains_zero.1 inside
      rw [maximal]
      by_cases member : number ∈ covered
      · simp [member, Block.Contains]
      · simp [member]
  | succ level ih =>
      rw [maximal]
      split
      next full =>
          simp only [List.mem_singleton, exists_eq_left, inside, true_iff]
          exact full number inside
      next =>
          -- The number lies in one half, and no block of the other half has it.
          simp only [List.mem_append, or_and_right, exists_or]
          rcases Block.contains_succ.1 inside with left | right
          · rw [ih left, or_iff_left_iff_imp]
            rintro ⟨block, member, contains⟩
            have both := (of_mem_maximal member).2 number contains
            simp only [Block.Contains] at left both
            omega
          · rw [ih right, or_iff_right_iff_imp]
            rintro ⟨block, member, contains⟩
            have both := (of_mem_maximal member).2 number contains
            simp only [Block.Contains] at right both
            omega

theorem maximal_congr {level index : Nat}
    (same : ∀ number, (Block.mk level index).Contains number → (number ∈ covered ↔ number ∈ other)) :
    maximal covered level index = maximal other level index := by
  induction level generalizing index with
  | zero =>
      have here := same index (Block.contains_zero.2 rfl)
      rw [maximal, maximal]
      by_cases member : index ∈ covered
      · rw [if_pos member, if_pos (here.1 member)]
      · rw [if_neg member, if_neg fun also => member (here.2 also)]
  | succ level ih =>
      have full : (∀ number, (Block.mk (level + 1) index).Contains number → number ∈ covered) ↔
          ∀ number, (Block.mk (level + 1) index).Contains number → number ∈ other :=
        forall₂_congr same
      rw [maximal, maximal, ih fun number inside => same number (Block.contains_succ.2 (.inl inside)),
        ih fun number inside => same number (Block.contains_succ.2 (.inr inside))]
      by_cases whole : ∀ number, (Block.mk (level + 1) index).Contains number → number ∈ covered
      · rw [if_pos whole, if_pos (full.1 whole)]
      · rw [if_neg whole, if_neg fun also => whole (full.2 also)]

/-- **The maximal blocks of two sets are equal exactly when the sets agree.** -/
theorem maximal_eq_iff {level index : Nat} :
    maximal covered level index = maximal other level index ↔
      ∀ number, (Block.mk level index).Contains number → (number ∈ covered ↔ number ∈ other) := by
  refine ⟨fun same number inside => ?_, maximal_congr⟩
  rw [← exists_mem_maximal_iff inside, same, exists_mem_maximal_iff inside]

/-- Maximal blocks with a common number are equal. -/
theorem eq_of_mem_maximal {level index number : Nat} {block other : Block}
    (one : block ∈ maximal covered level index) (two : other ∈ maximal covered level index)
    (inBlock : block.Contains number) (inOther : other.Contains number) : block = other := by
  induction level generalizing index with
  | zero =>
      rw [maximal] at one two
      split at one
      · rw [List.mem_singleton.1 one]
        rename_i member
        rw [if_pos member] at two
        exact (List.mem_singleton.1 two).symm
      · cases one
  | succ level ih =>
      rw [maximal] at one two
      split at one
      next full =>
        rw [if_pos full] at two
        rw [List.mem_singleton.1 one, List.mem_singleton.1 two]
      next partly =>
        rw [if_neg partly] at two
        -- A block of one half has no number of the other half.
        have apart : ∀ {one other : Block}, one ∈ maximal covered level (2 * index) →
            other ∈ maximal covered level (2 * index + 1) → one.Contains number →
              ¬ other.Contains number := by
          intro one other left right inside also
          have first := (of_mem_maximal left).2 number inside
          have second := (of_mem_maximal right).2 number also
          simp only [Block.Contains] at first second
          omega
        rcases List.mem_append.1 one with left | right
        · rcases List.mem_append.1 two with also | across
          · exact ih left also
          · exact absurd inOther (apart left across inBlock)
        · rcases List.mem_append.1 two with across | also
          · exact absurd inBlock (apart across right inOther)
          · exact ih right also


theorem nodup_maximal (covered : Set Nat) (level index : Nat) :
    (maximal covered level index).Nodup := by
  induction level generalizing index with
  | zero =>
      rw [maximal]
      split
      · exact List.nodup_singleton _
      · exact List.nodup_nil
  | succ level ih =>
      rw [maximal]
      split
      · exact List.nodup_singleton _
      · refine List.nodup_append.2 ⟨ih _, ih _, ?_⟩
        rintro block left other right rfl
        have first := (of_mem_maximal left).2 _ block.contains_first
        have second := (of_mem_maximal right).2 _ block.contains_first
        simp only [Block.Contains] at first second
        omega

/-- A full block is part of a maximal block. -/
theorem within_of_mem_maximal {level index number : Nat} {block other : Block}
    (member : block ∈ maximal covered level index) (inBlock : block.Contains number)
    (full : ∀ number, other.Contains number → number ∈ covered) (inOther : other.Contains number)
    (inside : other.within ⟨level, index⟩ = true) : other.within block = true := by
  induction level generalizing index with
  | zero =>
      rw [maximal] at member
      split at member
      · rw [List.mem_singleton.1 member]
        exact inside
      · cases member
  | succ level ih =>
      rw [maximal] at member
      split at member
      next => rwa [List.mem_singleton.1 member]
      next partly =>
        simp only [Block.within, Bool.and_eq_true, decide_eq_true_eq] at inside
        obtain ⟨small, same⟩ := inside
        -- The other block is smaller than the whole, which is not full.
        have smaller : other.level ≤ level := by
          by_contra large
          obtain equal : other.level = level + 1 := by omega
          rw [equal, Nat.sub_self, Nat.pow_zero, Nat.div_one] at same
          obtain rfl : other = ⟨level + 1, index⟩ := by
            cases other
            exact Block.mk.injEq .. ▸ ⟨equal, same⟩
          exact partly full
        have half : ∀ {side : Nat}, (Block.mk level side).Contains number →
            other.within ⟨level, side⟩ = true := by
          intro side contains
          have index : number / 2 ^ level = side := contains
          rw [Block.Contains] at inOther
          simp only [Block.within, Bool.and_eq_true, decide_eq_true_eq]
          refine ⟨smaller, ?_⟩
          rw [← index, ← inOther, Nat.div_div_eq_div_mul, ← Nat.pow_add,
            Nat.add_sub_cancel' smaller]
        rcases List.mem_append.1 member with left | right
        · exact ih left (half ((of_mem_maximal left).2 number inBlock))
        · exact ih right (half ((of_mem_maximal right).2 number inBlock))

end Maximal

/-! ## Decomposition -/

/-- The maximal blocks inside one block of what two tests describe. -/
def decompose (inside outside : Block → Bool) : Nat → Nat → List Block
  | 0, index => if inside ⟨0, index⟩ then [⟨0, index⟩] else []
  | level + 1, index =>
      if inside ⟨level + 1, index⟩ then [⟨level + 1, index⟩]
      else if outside ⟨level + 1, index⟩ then []
      else
        let lefts := decompose inside outside level (2 * index)
        let rights := decompose inside outside level (2 * index + 1)
        if lefts = [⟨level, 2 * index⟩] ∧ rights = [⟨level, 2 * index + 1⟩] then
          [⟨level + 1, index⟩]
        else lefts ++ rights

/-- The tests describe a set: what they recognise is right, and every single
number of the set is recognised. -/
structure Describes (inside outside : Block → Bool) (covered : Set Nat) : Prop where
  full : ∀ block, inside block = true → ∀ number, block.Contains number → number ∈ covered
  empty : ∀ block, outside block = true → ∀ number, block.Contains number → number ∉ covered
  single : ∀ number, number ∈ covered → inside ⟨0, number⟩ = true

/-- **The decomposition is the list of the maximal blocks.** -/
theorem decompose_eq_maximal {inside outside : Block → Bool} {covered : Set Nat}
    (describes : Describes inside outside covered) (level index : Nat) :
    decompose inside outside level index = maximal covered level index := by
  induction level generalizing index with
  | zero =>
      rw [decompose]
      split
      next yes => exact (maximal_of_full (describes.full _ yes)).symm
      next no =>
          rw [maximal, if_neg]
          exact fun member => no (describes.single index member)
  | succ level ih =>
      rw [decompose]
      split
      next yes => exact (maximal_of_full (describes.full _ yes)).symm
      next =>
          split
          next none => exact (maximal_of_empty (describes.empty _ none)).symm
          next =>
              simp only [ih]
              split
              next both =>
                  obtain ⟨left, right⟩ := both
                  rw [maximal_eq_self_iff] at left right
                  refine (maximal_of_full fun number contains => ?_).symm
                  rcases Block.contains_succ.1 contains with inLeft | inRight
                  · exact left number inLeft
                  · exact right number inRight
              next notBoth =>
                  rw [maximal, if_neg]
                  intro full
                  refine notBoth ⟨maximal_of_full fun number contains => ?_,
                    maximal_of_full fun number contains => ?_⟩
                  · exact full number (Block.contains_succ.2 (.inl contains))
                  · exact full number (Block.contains_succ.2 (.inr contains))

/-! ### Unions of blocks -/

/-- The numbers in some blocks. -/
def unionOf (blocks : List Block) : Set Nat :=
  {number | ∃ block ∈ blocks, block.Contains number}

/-- The maximal blocks of the union of some blocks, below `2 ^ width`. -/
def collapse (width : Nat) (blocks : List Block) : List Block :=
  decompose (fun block => blocks.any block.within)
    (fun block => blocks.all fun other => !block.within other && !other.within block) width 0

theorem describes_unionOf (blocks : List Block) :
    Describes (fun block => blocks.any block.within)
      (fun block => blocks.all fun other => !block.within other && !other.within block)
      (unionOf blocks) where
  full block yes number contains := by
    obtain ⟨other, member, part⟩ := List.any_eq_true.1 yes
    exact ⟨other, member, Block.contains_of_within part contains⟩
  empty block apart number contains := by
    rintro ⟨other, member, also⟩
    have neither := List.all_eq_true.1 apart other member
    simp only [Bool.and_eq_true, Bool.not_eq_true'] at neither
    rcases Block.within_or_within contains also with part | part
    · rw [neither.1] at part
      cases part
    · rw [neither.2] at part
      cases part
  single number := by
    rintro ⟨other, member, contains⟩
    refine List.any_eq_true.2 ⟨other, member, ?_⟩
    simpa [Block.within, Block.Contains] using contains

theorem collapse_eq_maximal (width : Nat) (blocks : List Block) :
    collapse width blocks = maximal (unionOf blocks) width 0 :=
  decompose_eq_maximal (describes_unionOf blocks) width 0

/-- **Two lists of blocks collapse to the same list exactly when they hold the
same numbers.** -/
theorem collapse_eq_iff {width : Nat} {blocks others : List Block} :
    collapse width blocks = collapse width others ↔
      ∀ number < 2 ^ width, number ∈ unionOf blocks ↔ number ∈ unionOf others := by
  rw [collapse_eq_maximal, collapse_eq_maximal, maximal_eq_iff]
  refine forall_congr' fun number => imp_congr_left ?_
  rw [Block.contains_iff]
  simp [Block.first, Block.stop]

/-- **Collapsing never gives more blocks than there were.** -/
theorem length_collapse_le {width : Nat} {blocks : List Block}
    (small : ∀ block ∈ blocks, block.level ≤ width) :
    (collapse width blocks).length ≤ blocks.length := by
  rw [collapse_eq_maximal]
  -- A maximal block is the one at the first number of a block in it.
  have owned : ∀ block ∈ maximal (unionOf blocks) width 0,
      ∃ other ∈ blocks, block.Contains other.first := by
    intro block member
    have inside := (of_mem_maximal member).2 block.first block.contains_first
    obtain ⟨other, among, contains⟩ : block.first ∈ unionOf blocks :=
      (exists_mem_maximal_iff inside).1 ⟨block, member, block.contains_first⟩
    have whole : other.within ⟨width, 0⟩ = true := by
      rcases Block.within_or_within contains inside with part | part
      · exact part
      · simp only [Block.within, Bool.and_eq_true, decide_eq_true_eq] at part ⊢
        have equal : other.level = width := Nat.le_antisymm (small other among) part.1
        refine ⟨equal.le, ?_⟩
        rw [← part.2, equal]
        simp
    have part := within_of_mem_maximal member block.contains_first
      (fun number inOther => ⟨other, among, inOther⟩) contains whole
    exact ⟨other, among, Block.contains_of_within part other.contains_first⟩
  let owner (other : Block) : Block :=
    ((maximal (unionOf blocks) width 0).find? fun block => block.Contains other.first).getD other
  have subset : maximal (unionOf blocks) width 0 ⊆ blocks.map owner := by
    intro block member
    obtain ⟨other, among, contains⟩ := owned block member
    refine List.mem_map.2 ⟨other, among, ?_⟩
    have some_block : ((maximal (unionOf blocks) width 0).find? fun block =>
        block.Contains other.first).isSome := by
      rw [List.find?_isSome]
      exact ⟨block, member, decide_eq_true contains⟩
    obtain ⟨found, isFound⟩ := Option.isSome_iff_exists.1 some_block
    have holds : found.Contains other.first := by simpa using List.find?_some isFound
    show (List.find? _ _).getD other = block
    rw [isFound]
    exact eq_of_mem_maximal (List.mem_of_find?_eq_some isFound) member holds contains
  exact (List.Nodup.subperm (nodup_maximal _ _ _) subset).length_le.trans_eq (List.length_map owner)

/-- What holds a number does not collapse to nothing. -/
theorem collapse_ne_nil {width number : Nat} {blocks : List Block} (small : number < 2 ^ width)
    (member : number ∈ unionOf blocks) : collapse width blocks ≠ [] := by
  have inside : (Block.mk width 0).Contains number := by
    rw [Block.contains_iff]
    simpa [Block.first, Block.stop] using small
  rw [collapse_eq_maximal]
  obtain ⟨block, among, -⟩ := (exists_mem_maximal_iff inside).2 member
  exact List.ne_nil_of_mem among

/-! ### Ranges -/

/-- The maximal blocks of the numbers from one to another, below `2 ^ width`. -/
def summarize (width least most : Nat) : List Block :=
  decompose (fun block => least ≤ block.first && block.stop ≤ most + 1)
    (fun block => block.stop ≤ least || most < block.first) width 0

theorem describes_range (least most : Nat) :
    Describes (fun block => least ≤ block.first && block.stop ≤ most + 1)
      (fun block => block.stop ≤ least || most < block.first)
      {number | least ≤ number ∧ number ≤ most} where
  full block yes number contains := by
    simp only [Bool.and_eq_true, decide_eq_true_eq] at yes
    rw [Block.contains_iff] at contains
    exact ⟨by omega, by omega⟩
  empty block apart number contains := by
    simp only [Bool.or_eq_true, decide_eq_true_eq] at apart
    rw [Block.contains_iff] at contains
    rintro ⟨above, below⟩
    omega
  single number := by
    rintro ⟨above, below⟩
    simp [Block.first, Block.stop, above, below]

/-- The blocks of a range hold its numbers. -/
theorem mem_unionOf_summarize {width least most number : Nat} (small : number < 2 ^ width) :
    number ∈ unionOf (summarize width least most) ↔ least ≤ number ∧ number ≤ most := by
  have inside : (Block.mk width 0).Contains number := by
    rw [Block.contains_iff]
    simpa [Block.first, Block.stop] using small
  rw [summarize, decompose_eq_maximal (describes_range least most)]
  exact @exists_mem_maximal_iff {number | least ≤ number ∧ number ≤ most} width 0 number inside

end HomeclusterInfra.DyadicBlocks
