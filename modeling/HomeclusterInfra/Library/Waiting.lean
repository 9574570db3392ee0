import Mathlib.Order.Nat

/-!
# Waiting in rounds

A loop asks in each round whether something is ready, and otherwise whether it is too
late. It ends with the first round in which one of both is so. The second question is
not asked in a round that is ready.

Often a single good answer is not enough. The counter that a bad answer resets has at
least some value exactly if that many answers before were good.
-/

set_option autoImplicit false

namespace HomeclusterInfra.Waiting

variable (ready late : Nat → Bool)

/-- Wait from a round on, for at most `fuel` rounds: whether it got ready, and in which
round the loop ended. -/
def wait : Nat → Nat → Option (Bool × Nat)
  | 0, _ => none
  | fuel + 1, round =>
      if ready round then some (true, round)
      else if late round then some (false, round)
      else wait fuel (round + 1)

variable {ready late} {fuel round last : Nat}

/-- **A loop ends badly when it gets late before it is ready.** -/
theorem wait_of_late (begun : round ≤ last) (isLate : late last = true)
    (notReady : ∀ between, round ≤ between → between ≤ last → ready between = false)
    (enough : last < round + fuel) : ∃ ended, wait ready late fuel round = some (false, ended) := by
  induction fuel generalizing round with
  | zero => omega
  | succ fuel ih =>
      rw [wait, if_neg (by rw [notReady round le_rfl begun]; exact Bool.false_ne_true)]
      by_cases here : late round = true
      · exact ⟨round, if_pos here⟩
      · rw [if_neg here]
        have later : round ≠ last := fun same => here (same ▸ isLate)
        exact ih (by omega) (fun between begins => notReady between (by omega)) (by omega)

/-- A loop that ends does so with more rounds allowed, too. -/
theorem wait_mono {more : Nat} {ended : Bool × Nat} (within : fuel ≤ more)
    (done : wait ready late fuel round = some ended) : wait ready late more round = some ended := by
  induction fuel generalizing round more with
  | zero => cases done
  | succ fuel ih =>
      obtain ⟨more, rfl⟩ : ∃ before, more = before + 1 := ⟨more - 1, by omega⟩
      rw [wait] at done ⊢
      split at done
      next here => rw [if_pos here, done]
      next here =>
        rw [if_neg here]
        split at done
        next tooLate => rw [if_pos tooLate, done]
        next early =>
          rw [if_neg early]
          exact ih (Nat.le_of_succ_le_succ within) done

/-! ## Consecutive good answers -/

/-- How many answers in a row are good before a round. -/
def streak (good : Nat → Bool) : Nat → Nat
  | 0 => 0
  | round + 1 => if good round then streak good round + 1 else 0

/-- **A streak is that many good answers in a row.** -/
theorem le_streak_iff {good : Nat → Bool} {count round : Nat} :
    count ≤ streak good round ↔
      count ≤ round ∧ ∀ earlier, round - count ≤ earlier → earlier < round →
        good earlier = true := by
  induction round generalizing count with
  | zero =>
      rw [streak]
      exact ⟨fun none_there => ⟨none_there, fun _ _ before => absurd before (Nat.not_lt_zero _)⟩,
        And.left⟩
  | succ round ih =>
      rw [streak]
      by_cases here : good round = true
      · rw [if_pos here]
        cases count with
        | zero => exact iff_of_true (Nat.zero_le _) ⟨Nat.zero_le _, fun _ _ _ => by omega⟩
        | succ count =>
            rw [Nat.succ_le_succ_iff, ih, Nat.succ_le_succ_iff, Nat.succ_sub_succ]
            refine and_congr_right fun _ => ⟨fun before earlier after inside => ?_,
              fun all earlier after inside => all earlier after (by omega)⟩
            rcases Nat.lt_succ_iff_lt_or_eq.mp inside with strictly | rfl
            · exact before earlier after strictly
            · exact here
      · rw [if_neg here]
        constructor
        · intro none_there
          exact ⟨by omega, fun _ _ _ => by omega⟩
        · rintro ⟨within, all⟩
          by_contra some_there
          exact here (all round (by omega) (Nat.lt_succ_self round))

theorem streak_succ_of_good {good : Nat → Bool} {round : Nat} (here : good round = true) :
    streak good (round + 1) = streak good round + 1 :=
  if_pos here

/-- Wait from a round on for a number of good answers in a row, of which some were
there before: whether they came, and in which round the loop ended. -/
def settle (good late : Nat → Bool) (needed : Nat) : Nat → Nat → Nat → Option (Bool × Nat)
  | 0, _, _ => none
  | fuel + 1, round, passed =>
      if good round && needed ≤ passed + 1 then some (true, round)
      else if late round then some (false, round)
      else settle good late needed fuel (round + 1) (if good round then passed + 1 else 0)

variable {good late : Nat → Bool} {needed fuel round last : Nat}

/-- **A loop that ends well ends on a streak.** -/
theorem streak_of_settle
    (ended : settle good late needed fuel round (streak good round) = some (true, last)) :
    needed ≤ streak good (last + 1) := by
  induction fuel generalizing round with
  | zero => cases ended
  | succ fuel ih =>
      rw [settle] at ended
      split at ended
      next enough =>
        cases ended
        rw [Bool.and_eq_true, decide_eq_true_eq] at enough
        rw [streak_succ_of_good enough.1]
        exact enough.2
      next =>
        split at ended
        next => cases ended
        next => exact ih ended

/-- **A loop ends badly when it gets late before there is a streak.** -/
theorem settle_of_late (begun : round ≤ last) (isLate : late last = true)
    (short : ∀ between, round ≤ between → between ≤ last → streak good (between + 1) < needed)
    (enough : last < round + fuel) :
    ∃ ended, settle good late needed fuel round (streak good round) = some (false, ended) := by
  induction fuel generalizing round with
  | zero => omega
  | succ fuel ih =>
      have goesOn : ¬ (good round && decide (needed ≤ streak good round + 1)) = true := by
        rw [Bool.and_eq_true, decide_eq_true_eq]
        rintro ⟨here, settled⟩
        have tooShort := short round le_rfl begun
        rw [streak_succ_of_good here] at tooShort
        omega
      rw [settle, if_neg goesOn]
      by_cases here : late round = true
      · exact ⟨round, if_pos here⟩
      · rw [if_neg here]
        have later : round ≠ last := fun same => here (same ▸ isLate)
        exact ih (by omega) (fun between begins => short between (by omega)) (by omega)

end HomeclusterInfra.Waiting
