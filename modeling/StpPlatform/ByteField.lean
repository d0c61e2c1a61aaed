import Mathlib.Algebra.Field.Defs
import Mathlib.Algebra.BigOperators.Group.List.Basic
import Mathlib.Tactic.Abel
import Mathlib.Tactic.Ring

/-! # The field of 256 elements

    Bytes as polynomials over the field of two elements, modulo
    `x⁸ + x⁴ + x³ + x + 1`.  Adding is exclusive or; multiplying shifts and
    reduces.  Both are additive in each argument, so that an identity between
    products holds when it holds of the eight powers of `x` (`of_powers`); that
    makes it a commutative ring, and checking 256 inverses makes it a field.

    Nothing here mentions the program. -/

namespace ByteField

/-- A polynomial of degree below 8: bit `i` is the coefficient of `xⁱ`. -/
@[ext] structure GF256 where
  byte : UInt8
  deriving DecidableEq

/-- What holds of 256 numbers holds of every byte. -/
theorem forall_byte {p : UInt8 → Prop}
    (h : ∀ n : Fin 256, p (UInt8.ofNat n)) (b : UInt8) : p b := by
  have hb := h ⟨b.toNat, b.toNat_lt⟩
  rwa [UInt8.ofNat_toNat] at hb

namespace GF256

/-! ## Adding -/

/-- The byte `0`. -/
instance : Zero GF256 := ⟨⟨0⟩⟩

/-- Addition is exclusive or, and no bit carries. -/
instance : Add GF256 := ⟨fun a b => ⟨a.byte ^^^ b.byte⟩⟩

/-- Every element is its own negative. -/
instance : Neg GF256 := ⟨id⟩

@[simp] theorem byte_zero : (0 : GF256).byte = 0 := rfl

@[simp] theorem byte_add (a b : GF256) : (a + b).byte = a.byte ^^^ b.byte := rfl

/-- `0` in constructor form, as it comes out of a table. -/
@[simp] theorem mk_zero : (⟨0⟩ : GF256) = 0 := rfl

/-- The laws are those of exclusive or. -/
instance : AddCommGroup GF256 where
  add_assoc a b c := GF256.ext (UInt8.xor_assoc a.byte b.byte c.byte)
  zero_add a := GF256.ext UInt8.zero_xor
  add_zero a := GF256.ext UInt8.xor_zero
  add_comm a b := GF256.ext (UInt8.xor_comm a.byte b.byte)
  neg_add_cancel a := GF256.ext UInt8.xor_self
  nsmul := nsmulRec
  zsmul := zsmulRec

@[simp] theorem neg_eq (a : GF256) : -a = a := rfl

/-- The coefficient of `xⁱ`. -/
def coeff (a : GF256) (i : ℕ) : Bool := a.byte.toNat.testBit i

theorem coeff_add (a b : GF256) (i : ℕ) :
    (a + b).coeff i = (a.coeff i ^^ b.coeff i) := by
  rw [coeff, byte_add, UInt8.toNat_xor, Nat.testBit_xor]
  rfl

theorem term_add (p q : Bool) (c : GF256) :
    (if (p ^^ q) then c else 0) = (if p then c else 0) + (if q then c else 0) := by
  cases p <;> cases q
  · exact (add_zero 0).symm
  · exact (zero_add c).symm
  · exact (add_zero c).symm
  · exact (neg_add_cancel c).symm

/-- `xⁱ`. -/
def power (i : Fin 8) : GF256 := ⟨1 <<< UInt8.ofNat i⟩

/-- An element is the sum of the powers it has a coefficient at. -/
theorem eq_sum_powers (a : GF256) :
    a = ((List.finRange 8).map fun i : Fin 8 => if a.coeff i then power i else 0).sum := by
  obtain ⟨b⟩ := a
  revert b
  -- there are 256 elements
  exact forall_byte (by decide +kernel)

/-- **LINEARITY**: what holds of the powers of `x`, and of a sum when it holds
    of the terms, holds of every element. -/
theorem of_powers {p : GF256 → Prop} (zero : p 0)
    (add : ∀ a b, p a → p b → p (a + b)) (powers : ∀ i, p (power i)) (a : GF256) :
    p a := by
  rw [eq_sum_powers a]
  generalize List.finRange 8 = is
  induction is with
  | nil => exact zero
  | cons i is ih =>
      rw [List.map_cons, List.sum_cons]
      refine add _ _ ?_ ih
      split
      · exact powers i
      · exact zero

/-! ## Multiplying -/

/-- Multiplication by `x`. -/
def xtime (a : GF256) : GF256 := ⟨a.byte <<< 1⟩ + if a.coeff 7 then ⟨0x1b⟩ else 0

/-- The multiples of `a` by the lowest `n` coefficients of `b`, added up. -/
def mulBits : ℕ → GF256 → GF256 → GF256
  | 0, _, _ => 0
  | n + 1, a, b => (if b.coeff 0 then a else 0) + mulBits n (xtime a) ⟨b.byte >>> 1⟩

/-- The polynomial `1`. -/
instance : One GF256 := ⟨⟨1⟩⟩

/-- A product takes all eight bits of the second factor. -/
instance : Mul GF256 := ⟨mulBits 8⟩

/-- Multiplying by `x` is additive: the reduction depends on one bit, which
    adds up. -/
theorem xtime_add (a b : GF256) : xtime (a + b) = xtime a + xtime b := by
  have hshift : (⟨(a + b).byte <<< 1⟩ : GF256) = ⟨a.byte <<< 1⟩ + ⟨b.byte <<< 1⟩ :=
    GF256.ext UInt8.shiftLeft_xor
  rw [xtime, hshift, coeff_add, term_add, xtime, xtime]
  abel

/-- Nothing is reduced. -/
@[simp] theorem xtime_zero : xtime 0 = 0 := rfl

/-- The partial products are additive in the first factor. -/
theorem mulBits_add_left (n : ℕ) (a b c : GF256) :
    mulBits n (a + b) c = mulBits n a c + mulBits n b c := by
  induction n generalizing a b c with
  | zero => exact (add_zero 0).symm
  | succ n ih =>
      rw [mulBits, mulBits, mulBits, xtime_add, ih]
      split
      · abel
      · abel

/-- They are additive in the second: a bit that is in both cancels out. -/
theorem mulBits_add_right (n : ℕ) (a b c : GF256) :
    mulBits n a (b + c) = mulBits n a b + mulBits n a c := by
  induction n generalizing a b c with
  | zero => exact (add_zero 0).symm
  | succ n ih =>
      have hshift : (⟨(b + c).byte >>> 1⟩ : GF256)
          = ⟨b.byte >>> 1⟩ + ⟨c.byte >>> 1⟩ := GF256.ext UInt8.shiftRight_xor
      rw [mulBits, mulBits, mulBits, coeff_add, term_add, hshift, ih]
      abel

/-- What follows from the two. -/
instance : NonUnitalNonAssocRing GF256 where
  left_distrib := mulBits_add_right 8
  right_distrib := mulBits_add_left 8
  zero_mul a := by
    have h := mulBits_add_left 8 0 0 a
    rw [add_zero] at h
    exact left_eq_add.mp h
  mul_zero a := by
    have h := mulBits_add_right 8 a 0 0
    rw [add_zero] at h
    exact left_eq_add.mp h

/-- Products commute: both sides are additive, so it is enough that the powers of
    `x` do. -/
theorem mul_comm' (a b : GF256) : a * b = b * a := by
  induction a using of_powers with
  | zero => rw [zero_mul, mul_zero]
  | add a₁ a₂ h₁ h₂ => rw [add_mul, mul_add, h₁, h₂]
  | powers i =>
      induction b using of_powers with
      | zero => rw [zero_mul, mul_zero]
      | add b₁ b₂ h₁ h₂ => rw [add_mul, mul_add, h₁, h₂]
      | powers j =>
          -- there are 64 products of powers to compare
          revert i j
          decide +kernel

/-- A factor `x` can be taken out of the first factor. -/
theorem mulBits_xtime (n : ℕ) (a b : GF256) :
    mulBits n (xtime a) b = xtime (mulBits n a b) := by
  induction n generalizing a b with
  | zero => exact xtime_zero.symm
  | succ n ih =>
      rw [mulBits, mulBits, xtime_add, ih]
      split
      · rfl
      · rw [xtime_zero]

/-- Multiplying by `x` may wait. -/
theorem mul_xtime (a b : GF256) : a * xtime b = xtime (a * b) := by
  rw [mul_comm', mul_comm' a b]
  exact mulBits_xtime 8 b a

/-- Multiplying a partial product multiplies its first factor. -/
theorem mul_mulBits (n : ℕ) (a b c : GF256) :
    a * mulBits n b c = mulBits n (a * b) c := by
  induction n generalizing b c with
  | zero => exact mul_zero a
  | succ n ih =>
      -- the factor passes the term of this bit, and the shift before the next one
      rw [mulBits, mulBits, mul_add, ih, mul_xtime]
      split
      · rfl
      · rw [mul_zero]

/-- Products associate: take all eight bits. -/
theorem mul_assoc' (a b c : GF256) : a * b * c = a * (b * c) :=
  (mul_mulBits 8 a b c).symm

/-- `1` is neutral: a byte is the sum of its bits. -/
theorem one_mul' (a : GF256) : 1 * a = a := by
  induction a using of_powers with
  | zero => exact mul_zero 1
  | add a₁ a₂ h₁ h₂ => rw [mul_add, h₁, h₂]
  | powers i =>
      revert i
      decide +kernel

/-- **A COMMUTATIVE RING** of 256 elements. -/
instance : CommRing GF256 where
  mul_assoc := mul_assoc'
  mul_comm := mul_comm'
  one_mul := one_mul'
  mul_one a := (mul_comm' a 1).trans (one_mul' a)
  neg_add_cancel := neg_add_cancel
  zsmul := zsmulRec

/-- `x`. -/
def x : GF256 := ⟨2⟩

theorem x_mul (a : GF256) : x * a = xtime a := by
  calc x * a = a * xtime 1 := mul_comm' x a
    _ = xtime (a * 1) := mul_xtime a 1
    _ = xtime a := by rw [mul_one]

/-! ## Dividing -/

/-- The characteristic is two. -/
theorem add_self (a : GF256) : a + a = 0 := neg_add_cancel a

/-- Squaring is additive, and so is squaring again and again. -/
theorem square_add (n : ℕ) (a b : GF256) :
    (a + b) ^ 2 ^ n = a ^ 2 ^ n + b ^ 2 ^ n := by
  induction n with
  | zero => simp
  | succ n ih =>
      have hcross (c d : GF256) : (c + d) * (c + d) = c * c + d * d := by
        calc (c + d) * (c + d) = c * c + d * d + (c * d + c * d) := by ring
          _ = c * c + d * d := by rw [add_self, add_zero]
      rw [pow_succ, pow_mul, pow_mul, pow_mul, ih, sq, sq, sq, hcross]

/-- Eight squarings change nothing: they do not change the powers of `x`. -/
theorem pow_256 (a : GF256) : a ^ 2 ^ 8 = a := by
  induction a using of_powers with
  | zero => simp
  | add a b ha hb => rw [square_add, ha, hb]
  | powers i =>
      -- squared eight times every power of `x` is back
      have hsquares : ∀ i : Fin 8, ((fun a => a * a)^[8]) (power i) = power i := by
        decide +kernel
      have hpow (n : ℕ) (a : GF256) : ((fun a => a * a)^[n]) a = a ^ 2 ^ n := by
        induction n with
        | zero => simp
        | succ n ih => rw [Function.iterate_succ_apply', ih, ← sq, ← pow_mul, ← pow_succ]
      rw [← hpow]
      exact hsquares i

/-- Only 0 and 1 are their own squares: there are no divisors of zero. -/
theorem idempotent (a : GF256) : a * a = a → a = 0 ∨ a = 1 := by
  obtain ⟨b⟩ := a
  revert b
  exact forall_byte (by decide +kernel)

/-- The inverse is a power: the units are a group of 255 elements. -/
instance : Inv GF256 := ⟨fun a => a ^ 254⟩

/-- Every element but `0` has an inverse: its 255th power is its own square, and
    is not `0`. -/
theorem mul_inv_cancel' (a : GF256) (ha : a ≠ 0) : a * a⁻¹ = 1 := by
  show a * a ^ 254 = 1
  have h256 : a ^ 255 * a = a := by
    rw [← pow_succ]
    exact pow_256 a
  -- an element that is its own square is `0` or `1`, and `0` is out
  have hsquare : a ^ 255 * a ^ 255 = a ^ 255 := by
    calc a ^ 255 * a ^ 255 = a ^ 255 * a * a ^ 254 := by ring
      _ = a ^ 255 := by rw [h256]; ring
  rw [← pow_succ']
  cases idempotent _ hsquare with
  | inl hzero =>
      rw [hzero, zero_mul] at h256
      exact absurd h256.symm ha
  | inr hone => exact hone

/-- **THE FIELD** that AES computes in. -/
instance : Field GF256 where
  inv_zero := zero_pow (by decide)
  exists_pair_ne := ⟨0, 1, by decide⟩
  mul_inv_cancel := mul_inv_cancel'
  nnqsmul := _
  nnqsmul_def := fun _ _ => rfl
  qsmul := _
  qsmul_def := fun _ _ => rfl

end GF256

end ByteField
