import Mathlib.Order.Bounds.Basic
import Mathlib.Data.Nat.Basic
import Mathlib.Order.MinMax

/-! # A queue that serves one item a round

    `arrived k` items have come by the end of round `k`, and a round serves one
    item if there is one.  The number served is the least of the bounds that the
    rounds give: what had come by round `j`, and one for every round after it
    (`served_isLeast`).  So the queue is empty after round `k` exactly if no
    stretch of rounds that ends there brought more items than it has rounds
    (`served_eq_arrived_iff`).

    Nothing here mentions the program. -/

namespace Backlog

/-- The number of items served in the first `k` rounds. -/
def served (arrived : Nat → Nat) : Nat → Nat
  | 0 => 0
  | k + 1 => min (served arrived k + 1) (arrived (k + 1))

variable {arrived : Nat → Nat} {j k : Nat}

/-- From any round on at most one item a round is served, and none before it has
    arrived. -/
theorem served_le (h₀ : arrived 0 = 0) (hj : j ≤ k) :
    served arrived k ≤ arrived j + (k - j) := by
  induction k with
  | zero =>
      have hzero : j = 0 := Nat.le_zero.mp hj
      rw [hzero, h₀]
      exact Nat.le_refl 0
  | succ k ih =>
      rcases Nat.lt_or_eq_of_le hj with hlt | heq
      · have hk := ih (Nat.lt_succ_iff.mp hlt)
        have hround : served arrived (k + 1) ≤ served arrived k + 1 := min_le_left _ _
        omega
      · rw [heq, Nat.sub_self]
        exact min_le_right _ _

/-- Some round's bound is reached: the last one that left the queue empty. -/
theorem served_attains (h₀ : arrived 0 = 0) (k : Nat) :
    ∃ j, j ≤ k ∧ served arrived k = arrived j + (k - j) := by
  induction k with
  | zero => exact ⟨0, Nat.le_refl 0, h₀.symm⟩
  | succ k ih =>
      obtain ⟨j, hj, hserved⟩ := ih
      rcases min_choice (served arrived k + 1) (arrived (k + 1)) with hbusy | hidle
      · refine ⟨j, Nat.le_succ_of_le hj, ?_⟩
        rw [served, hbusy, hserved]
        omega
      · refine ⟨k + 1, Nat.le_refl _, ?_⟩
        rw [served, hidle, Nat.sub_self]
        rfl

/-- **THE LAW OF THE QUEUE**. -/
theorem served_isLeast (h₀ : arrived 0 = 0) (k : Nat) :
    IsLeast {n | ∃ j, j ≤ k ∧ n = arrived j + (k - j)} (served arrived k) := by
  refine ⟨served_attains h₀ k, ?_⟩
  rintro n ⟨j, hj, hn⟩
  rw [hn]
  exact served_le h₀ hj

/-- What is served has arrived. -/
theorem served_le_arrived (h₀ : arrived 0 = 0) (k : Nat) :
    served arrived k ≤ arrived k := by
  have hle := served_le h₀ (Nat.le_refl k)
  rwa [Nat.sub_self, Nat.add_zero] at hle

/-- **EMPTY QUEUES**. -/
theorem served_eq_arrived_iff (h₀ : arrived 0 = 0) (k : Nat) :
    served arrived k = arrived k ↔ ∀ j, j ≤ k → arrived k ≤ arrived j + (k - j) := by
  constructor
  · intro h j hj
    rw [← h]
    exact served_le h₀ hj
  · intro h
    obtain ⟨j, hj, hserved⟩ := served_attains h₀ k
    refine Nat.le_antisymm (served_le_arrived h₀ k) ?_
    rw [hserved]
    exact h j hj

end Backlog
