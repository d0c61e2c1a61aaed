import Mathlib.Analysis.Complex.Exponential
import Mathlib.Analysis.Complex.Trigonometric
import Mathlib.Tactic.LinearCombination
import Mathlib.Tactic.FieldSimp

/-! # The integer part of a multiple of a sine

    A table of the numbers `⌊s · |sin k|⌋` is checked with integers only.  The
    series of `exp (k·i)`, cut after `n` terms and multiplied with `n!`, is a pair
    of integers (`series`), and what is cut off is at most `2 · k ^ n`
    (`abs_sin_sub_le`); so two integer inequalities decide the integer part
    (`Pins`, `floor_abs_sin`).

    Nothing here mentions the program. -/

namespace SineTable

open Finset

/-- `n!` times the first `n` terms of the series at `k·i`, and its power. -/
structure Series where
  re : ℤ
  im : ℤ
  powRe : ℤ
  powIm : ℤ

/-- One more term. -/
def Series.next (k n : ℕ) (p : Series) : Series :=
  { re := (n + 1) * (p.re + p.powRe)
    im := (n + 1) * (p.im + p.powIm)
    powRe := -(k * p.powIm)
    powIm := k * p.powRe }

/-- The first terms of the series, added up. -/
def series (k : ℕ) : ℕ → Series
  | 0 => { re := 0, im := 0, powRe := 1, powIm := 0 }
  | n + 1 => (series k n).next k n

/-- `T` is the integer part of `s · |sin k|`, as far as `n` terms can tell. -/
def Pins (s k n T : ℕ) : Prop :=
  2 * k ≤ n + 1 ∧ (T * n.factorial : ℤ) ≤ s * (|(series k n).im| - 2 * k ^ n) ∧
    s * (|(series k n).im| + 2 * k ^ n) < (T + 1) * n.factorial

instance (s k n T : ℕ) : Decidable (Pins s k n T) :=
  inferInstanceAs (Decidable (_ ∧ _ ∧ _))

section

variable {s k n T : ℕ}

theorem series_pow :
    ((series k n).powRe + (series k n).powIm * Complex.I : ℂ)
      = (k * Complex.I) ^ n := by
  induction n with
  | zero => simp [series]
  | succ n ih =>
      rw [pow_succ, ← ih]
      simp only [series, Series.next, Int.cast_neg, Int.cast_mul, Int.cast_natCast]
      linear_combination (-(k : ℂ) * (series k n).powIm) * Complex.I_sq

/-- What the integers are. -/
theorem series_sum :
    ((series k n).re + (series k n).im * Complex.I : ℂ)
      = n.factorial * ∑ m ∈ range n, (k * Complex.I) ^ m / m.factorial := by
  induction n with
  | zero => simp [series]
  | succ n ih =>
      have hfact : (n.factorial : ℂ) ≠ 0 := Nat.cast_ne_zero.mpr n.factorial_ne_zero
      have hterm : (n.factorial : ℂ) * ((k * Complex.I) ^ n / n.factorial)
          = (k * Complex.I) ^ n := mul_div_cancel₀ _ hfact
      rw [sum_range_succ, Nat.factorial_succ, Nat.cast_mul, mul_assoc, mul_add, ← ih,
        hterm, ← series_pow]
      simp only [series, Series.next]
      push_cast
      ring

/-- **WHAT IS CUT OFF**: the integers are the sine, up to `2 · k ^ n`. -/
theorem abs_sin_sub_le (hk : 2 * k ≤ n + 1) :
    |n.factorial * Real.sin k - (series k n).im| ≤ 2 * (k : ℝ) ^ n := by
  have hnorm : ‖(k * Complex.I : ℂ)‖ = k := by
    rw [Complex.norm_mul, Complex.norm_natCast, Complex.norm_I, mul_one]
  have hfact : (0 : ℝ) < n.factorial := Nat.cast_pos.mpr n.factorial_pos
  have hsmall : ‖(k * Complex.I : ℂ)‖ / n.succ ≤ 1 / 2 := by
    rw [hnorm, div_le_div_iff₀ (by positivity) two_pos, Nat.succ_eq_add_one]
    exact_mod_cast (by omega : k * 2 ≤ 1 * (n + 1))
  have hbound := Complex.exp_bound' hsmall
  rw [hnorm] at hbound
  -- the imaginary part of the difference, times `n!`
  have him : n.factorial * Real.sin k - (series k n).im
      = n.factorial * (Complex.exp (k * Complex.I)
          - ∑ m ∈ range n, (k * Complex.I) ^ m / m.factorial).im := by
    have hsum := congrArg Complex.im (@series_sum k n)
    have hexp : (Complex.exp (k * Complex.I)).im = Real.sin k := by
      rw [← Complex.ofReal_natCast, Complex.exp_ofReal_mul_I_im]
    rw [Complex.sub_im, hexp, mul_sub]
    congr 1
    simpa using hsum
  rw [him, abs_mul, abs_of_pos hfact]
  calc n.factorial * |(Complex.exp (k * Complex.I)
          - ∑ m ∈ range n, (k * Complex.I) ^ m / m.factorial).im|
      ≤ n.factorial * (k ^ n / n.factorial * 2) :=
        mul_le_mul_of_nonneg_left ((Complex.abs_im_le_norm _).trans hbound) hfact.le
    _ = 2 * (k : ℝ) ^ n := by
        field_simp

/-- **THE CHECK IS SOUND**. -/
theorem floor_abs_sin (h : Pins s k n T) : ⌊s * |Real.sin k|⌋₊ = T := by
  obtain ⟨hk, hlow, hhigh⟩ := h
  have hfact : (0 : ℝ) < n.factorial := Nat.cast_pos.mpr n.factorial_pos
  have hs : (0 : ℝ) ≤ s := Nat.cast_nonneg s
  have hlow' : (T * n.factorial : ℝ) ≤ s * (|((series k n).im : ℝ)| - 2 * k ^ n) := by
    exact_mod_cast hlow
  have hhigh' : (s : ℝ) * (|((series k n).im : ℝ)| + 2 * k ^ n) < (T + 1) * n.factorial := by
    exact_mod_cast hhigh
  have hnear := (abs_abs_sub_abs_le _ _).trans (abs_sin_sub_le hk)
  rw [abs_mul, abs_of_pos hfact, abs_le] at hnear
  obtain ⟨hbelow, habove⟩ := hnear
  rw [Nat.floor_eq_iff (mul_nonneg hs (abs_nonneg _))]
  refine ⟨?_, ?_⟩
  · refine le_of_mul_le_mul_right (hlow'.trans ?_) hfact
    calc (s : ℝ) * (|((series k n).im : ℝ)| - 2 * k ^ n)
        ≤ s * (n.factorial * |Real.sin k|) :=
          mul_le_mul_of_nonneg_left (by linarith) hs
      _ = s * |Real.sin k| * n.factorial := by ring
  · refine lt_of_mul_lt_mul_right (lt_of_le_of_lt ?_ hhigh') hfact.le
    calc s * |Real.sin k| * n.factorial
        = s * (n.factorial * |Real.sin k|) := by ring
      _ ≤ s * (|((series k n).im : ℝ)| + 2 * k ^ n) :=
          mul_le_mul_of_nonneg_left (by linarith) hs

end

end SineTable
