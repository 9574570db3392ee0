import Mathlib.Data.List.Basic

/-!
# Cutting a list into pieces

A reader cuts a list into consecutive pieces and remembers the position after
each. `Consecutive` says that the positions are right. Such a cutting reads its
list from the start position on without a hole: the text of the pieces is as
long as the way from the start to the last position, and what remains of the
list begins where the last piece ends.
-/

set_option autoImplicit false

namespace HomeclusterInfra.Pieces

variable {α : Type}

/-- Pieces in their order, each with the position after it. -/
abbrev Cutting (α : Type) := List (List α × Nat)

/-- Each piece ends as far after the one before it as it is long. -/
def Consecutive : Nat → Cutting α → Prop
  | _, [] => True
  | start, piece :: pieces => piece.2 = start + piece.1.length ∧ Consecutive piece.2 pieces

/-- The pieces put together. -/
def text (pieces : Cutting α) : List α :=
  (pieces.map Prod.fst).flatten

/-- The position after the last piece. -/
def stopAfter (start : Nat) (pieces : Cutting α) : Nat :=
  (pieces.getLast?.map Prod.snd).getD start

@[simp] theorem text_nil : text ([] : Cutting α) = [] :=
  rfl

@[simp] theorem text_cons (piece : List α × Nat) (pieces : Cutting α) :
    text (piece :: pieces) = piece.1 ++ text pieces :=
  rfl

@[simp] theorem text_append (first second : Cutting α) :
    text (first ++ second) = text first ++ text second := by
  simp [text]

@[simp] theorem stopAfter_nil (start : Nat) : stopAfter start ([] : Cutting α) = start :=
  rfl

@[simp] theorem stopAfter_cons (start : Nat) (piece : List α × Nat) (pieces : Cutting α) :
    stopAfter start (piece :: pieces) = stopAfter piece.2 pieces := by
  cases pieces with
  | nil => rfl
  | cons next pieces =>
      simp only [stopAfter, List.getLast?_cons_cons]
      rw [List.getLast?_cons]
      rfl

theorem consecutive_append {start : Nat} {first second : Cutting α} :
    Consecutive start (first ++ second) ↔
      Consecutive start first ∧ Consecutive (stopAfter start first) second := by
  induction first generalizing start with
  | nil => simp [Consecutive]
  | cons piece first ih =>
      simp only [List.cons_append, Consecutive, stopAfter_cons]
      rw [ih]
      tauto

/-- **The last position is where the text of the pieces ends.** -/
theorem Consecutive.stopAfter_eq {start : Nat} {pieces : Cutting α}
    (consecutive : Consecutive start pieces) :
    stopAfter start pieces = start + (text pieces).length := by
  induction pieces generalizing start with
  | nil => rfl
  | cons piece pieces ih =>
      rw [stopAfter_cons, ih consecutive.2, consecutive.1, text_cons, List.length_append]
      omega

/-- A piece may be joined to the one before it. -/
theorem Consecutive.join {start middle stop : Nat} {pieces rest : Cutting α} {last next : List α}
    (consecutive : Consecutive start (pieces ++ (last, middle) :: (next, stop) :: rest)) :
    Consecutive start (pieces ++ (last ++ next, stop) :: rest) := by
  rw [consecutive_append] at consecutive ⊢
  obtain ⟨earlier, atLast, atNext, later⟩ := consecutive
  refine ⟨earlier, ?_, later⟩
  simp only at atLast atNext ⊢
  rw [atNext, atLast, List.length_append]
  omega

/-! ## Reading a list -/

/-- The pieces are cut from a list, beginning at a position. -/
structure Reads (data : List α) (start : Nat) (pieces : Cutting α) : Prop where
  consecutive : Consecutive start pieces
  beginning : text pieces <+: data.drop start

namespace Reads

variable {data : List α} {start : Nat} {pieces : Cutting α}

/-- Leading pieces are cut from the same list. -/
theorem dropLast {last : Cutting α} (reads : Reads data start (pieces ++ last)) :
    Reads data start pieces := by
  refine ⟨(consecutive_append.1 reads.consecutive).1, ?_⟩
  have whole := reads.beginning
  rw [text_append] at whole
  exact (List.prefix_append _ _).trans whole

/-- The text of the pieces is what stands between the two positions. -/
theorem text_eq (reads : Reads data start pieces) :
    text pieces = (data.drop start).take (stopAfter start pieces - start) := by
  rw [reads.consecutive.stopAfter_eq, Nat.add_sub_cancel_left]
  exact (List.prefix_iff_eq_take.1 reads.beginning)

/-- A reader never goes back. -/
theorem start_le (reads : Reads data start pieces) : start ≤ stopAfter start pieces := by
  rw [reads.consecutive.stopAfter_eq]
  exact Nat.le_add_right _ _

/-- A reader that begins inside the list stops inside it. -/
theorem stop_le (reads : Reads data start pieces) (inside : start ≤ data.length) :
    stopAfter start pieces ≤ data.length := by
  have short := reads.beginning.length_le
  rw [List.length_drop] at short
  rw [reads.consecutive.stopAfter_eq]
  omega

/-- **The text and what remains make up the list from the start on.** -/
theorem text_append_drop (reads : Reads data start pieces) :
    text pieces ++ data.drop (stopAfter start pieces) = data.drop start := by
  obtain ⟨rest, whole⟩ := reads.beginning
  rw [reads.consecutive.stopAfter_eq, ← List.drop_drop, ← whole, List.drop_left]

end Reads

/-! ## Lines -/

/-- The parts between separators, each but the last with its separator, and the
last part make up the list. -/
theorem flatten_terminated [BEq α] [LawfulBEq α] (separator : α) (data : List α) :
    (((data.splitOn separator).dropLast.map (· ++ [separator])).flatten ++
      (data.splitOn separator).getLast (List.splitOn_ne_nil separator data)) = data := by
  have joined : ∀ (parts : List (List α)) (nonempty : parts ≠ []),
      ((parts.dropLast.map (· ++ [separator])).flatten ++ parts.getLast nonempty) =
        [separator].intercalate parts := by
    intro parts
    induction parts with
    | nil => intro nonempty; exact absurd rfl nonempty
    | cons part parts ih =>
        intro nonempty
        cases parts with
        | nil => simp [List.intercalate]
        | cons next parts =>
            rw [List.dropLast_cons_of_ne_nil (List.cons_ne_nil next parts), List.map_cons,
              List.flatten_cons, List.append_assoc, List.getLast_cons (List.cons_ne_nil next parts),
              ih (List.cons_ne_nil next parts)]
            simp [List.intercalate, List.intersperse]
  rw [joined]
  exact List.intercalate_splitOn separator

end HomeclusterInfra.Pieces
