import Mathlib.Algebra.Group.Fin.Basic
import Mathlib.Data.Matrix.Mul
import Mathlib.LinearAlgebra.Matrix.Notation
import StpPlatform.ByteField
import StpPlatform.SubstitutionNetwork

/-! # Rijndael

    The cipher AES is, in its own terms.  A state is a matrix over the field
    of 256 elements, and the layers of a round are what algebra makes of them:
    inverses and an affine map, a rotation of the rows, a product of matrices.
    They are a network (`network`), so that the inverse cipher needs no proof of
    its own, and neither does running it with the loop of the cipher.

    Words of the key schedule are columns; `roundKey` cuts it into states.

    Nothing here mentions the program. -/

namespace Rijndael

open ByteField ByteField.GF256 SubstitutionNetwork

/-! ## The substitution -/

/-- Rotation of a byte. -/
def rotl (b k : UInt8) : UInt8 := (b <<< k) ||| (b >>> (8 - k))

/-- The affine map of the S-box. -/
def affine (a : GF256) : GF256 :=
  ⟨a.byte ^^^ rotl a.byte 1 ^^^ rotl a.byte 2 ^^^ rotl a.byte 3 ^^^ rotl a.byte 4
    ^^^ 0x63⟩

/-- The way back: rotations and a constant again. -/
def invAffine (a : GF256) : GF256 :=
  ⟨rotl a.byte 1 ^^^ rotl a.byte 3 ^^^ rotl a.byte 6 ^^^ 0x05⟩

/-- It undoes the affine map, on every byte. -/
@[simp] theorem invAffine_affine (a : GF256) : invAffine (affine a) = a := by
  obtain ⟨b⟩ := a
  revert b
  exact forall_byte (by decide +kernel)

/-- And is undone by it. -/
@[simp] theorem affine_invAffine (a : GF256) : affine (invAffine a) = a := by
  obtain ⟨b⟩ := a
  revert b
  exact forall_byte (by decide +kernel)

/-- The S-box: an inverse, and the affine map of it. -/
def sbox : Equiv.Perm GF256 where
  toFun a := affine a⁻¹
  invFun a := (invAffine a)⁻¹
  left_inv a := by simp
  right_inv a := by simp

/-- The S-box is known by a multiplication, without computing an inverse. -/
theorem sbox_eq {a b : GF256}
    (h : if a = 0 then invAffine b = 0 else a * invAffine b = 1) : sbox a = b := by
  rw [← affine_invAffine b]
  refine congrArg affine ?_
  split at h
  -- the S-box takes `0` for the inverse of `0`
  case isTrue ha => rw [h, ha, inv_zero]
  case isFalse => exact inv_eq_of_mul_eq_one_right h

/-! ## The layers of a round -/

/-- The state: bytes in rows and columns. -/
abbrev State := Matrix (Fin 4) (Fin 4) GF256

/-- The S-box, byte by byte. -/
def subBytes : Equiv.Perm State where
  toFun s := s.map sbox
  invFun s := s.map sbox.symm
  left_inv s := Matrix.ext fun r c => sbox.symm_apply_apply (s r c)
  right_inv s := Matrix.ext fun r c => sbox.apply_symm_apply (s r c)

/-- Row `r` is rotated `r` places to the left. -/
def shiftRows : Equiv.Perm State where
  toFun s := Matrix.of fun r c => s r (c + r)
  invFun s := Matrix.of fun r c => s r (c - r)
  left_inv s := Matrix.ext fun r c => congrArg (s r) (sub_add_cancel c r)
  right_inv s := Matrix.ext fun r c => congrArg (s r) (add_sub_cancel_right c r)

section

variable (s : State) (r c : Fin 4)

@[simp] theorem subBytes_apply : subBytes s r c = sbox (s r c) := rfl

@[simp] theorem subBytes_symm_apply : subBytes.symm s r c = sbox.symm (s r c) := rfl

@[simp] theorem shiftRows_apply : shiftRows s r c = s r (c + r) := rfl

@[simp] theorem shiftRows_symm_apply : shiftRows.symm s r c = s r (c - r) := rfl

end

/-- What a column is multiplied with. -/
def mixMatrix : State :=
  !![x, x + 1, 1, 1;
     1, x, x + 1, 1;
     1, 1, x, x + 1;
     x + 1, 1, 1, x]

/-- The matrix that undoes `mixMatrix`. -/
def invMixMatrix : State :=
  let e := x ^ 3 + x ^ 2 + x
  let b := x ^ 3 + x + 1
  let d := x ^ 3 + x ^ 2 + 1
  let n := x ^ 3 + 1
  !![e, b, d, n;
     n, e, b, d;
     d, n, e, b;
     b, d, n, e]

/-- Sixteen products over the field. -/
theorem invMix_mix : invMixMatrix * mixMatrix = 1 := by
  decide +kernel

theorem mix_invMix : mixMatrix * invMixMatrix = 1 := by
  decide +kernel

/-- The columns, multiplied with the matrix. -/
def mixColumns : State ≃+ State where
  toFun s := mixMatrix * s
  invFun s := invMixMatrix * s
  left_inv s := by
    show invMixMatrix * (mixMatrix * s) = s
    rw [← Matrix.mul_assoc, invMix_mix, Matrix.one_mul]
  right_inv s := by
    show mixMatrix * (invMixMatrix * s) = s
    rw [← Matrix.mul_assoc, mix_invMix, Matrix.one_mul]
  map_add' s t := Matrix.mul_add mixMatrix s t

/-- **RIJNDAEL** is a substitution network. -/
def network : Network State where
  sub := subBytes
  shift := shiftRows
  mix := mixColumns
  shift_sub _ := rfl

/-! ## The key schedule -/

/-- A word of the key schedule. -/
abbrev Word := Fin 4 → GF256

/-- The substitution on a word. -/
def subWord (w : Word) : Word := fun r => sbox (w r)

/-- The bytes of a word, turned by one. -/
def rotWord (w : Word) : Word := fun r => w (r + 1)

/-- The round constants. -/
def rcon (j : ℕ) : Word := ![x ^ (j - 1), 0, 0, 0]

/-- What the word before contributes to word `i`, the key having `nk` words. -/
def fromPrevious (nk i : ℕ) (w : Word) : Word :=
  if i % nk = 0 then subWord (rotWord w) + rcon (i / nk)
  else if 6 < nk ∧ i % nk = 4 then subWord w
  else w

/-- Word `i` of the key schedule. -/
def keyWord (nk : ℕ) (key : ℕ → Word) (i : ℕ) : Word :=
  if i < nk ∨ nk = 0 then key i
  else keyWord nk key (i - nk) + fromPrevious nk i (keyWord nk key (i - 1))
termination_by i
decreasing_by all_goals omega

theorem keyWord_of_lt {nk i : ℕ} (key : ℕ → Word) (h : i < nk) :
    keyWord nk key i = key i := by
  rw [keyWord, if_pos (Or.inl h)]

/-- A word `nk` places on is the sum of the old one and of what its predecessor
    contributes. -/
theorem keyWord_add {nk : ℕ} (key : ℕ → Word) (i : ℕ) (h : 0 < nk) :
    keyWord nk key (i + nk) = keyWord nk key i
      + fromPrevious nk (i + nk) (keyWord nk key (i + nk - 1)) := by
  rw [keyWord, if_neg (by omega), Nat.add_sub_cancel]

/-- Four words are a state, column by column. -/
def roundKey (w : ℕ → Word) (i : ℕ) : State := Matrix.of fun r c => w (4 * i + c) r

/-- Full rounds: one less than the rounds of a key of `nk` words. -/
def fullRounds (nk : ℕ) : ℕ := nk + 5

/-- The cipher under a key of `nk` words. -/
def cipher (nk : ℕ) (key : ℕ → Word) : State → State :=
  network.cipher (fullRounds nk) (roundKey (keyWord nk key))

/-- The inverse cipher. -/
def invCipher (nk : ℕ) (key : ℕ → Word) : State → State :=
  network.decipher (fullRounds nk) (roundKey (keyWord nk key))

/-! ## Columns as numbers of 32 bits -/

/-- How far the byte of row `r` is from the lowest. -/
def place : Fin 4 → UInt32 := ![24, 16, 8, 0]

/-- A number as a column, its most significant byte in row 0. -/
def column (w : UInt32) : Word := fun r => ⟨(w >>> place r).toUInt8⟩

/-- A column as a number. -/
def pack (v : Word) : UInt32 :=
  ((v 0).byte.toUInt32 <<< place 0) ^^^ ((v 1).byte.toUInt32 <<< place 1)
    ^^^ ((v 2).byte.toUInt32 <<< place 2) ^^^ ((v 3).byte.toUInt32 <<< place 3)

/-- A number of which only the byte of row `r` is left. -/
def only (r : Fin 4) : UInt32 := 0xff <<< place r

/-- Exclusive or of numbers is addition of columns. -/
theorem column_xor (a b : UInt32) : column (a ^^^ b) = column a + column b := by
  funext r
  refine GF256.ext ?_
  rw [column, UInt32.shiftRight_xor, UInt32.toUInt8_xor]
  rfl

theorem column_and_only (w : UInt32) (i : Fin 4) :
    column (w &&& only i) = Pi.single i (column w i) := by
  funext r
  refine GF256.ext ?_
  -- the mask of a row meets that row's byte and no other
  have honly : ∀ i r : Fin 4,
      (only i >>> place r).toUInt8 = if r = i then -1 else 0 := by
    decide +kernel
  rw [column, UInt32.shiftRight_and, UInt32.toUInt8_and, honly, Pi.single_apply]
  split
  case isTrue heq => rw [heq, UInt8.and_neg_one]; rfl
  case isFalse => exact UInt8.and_zero

/-- A byte shifted to its place is a column with one entry. -/
theorem column_place (b : UInt8) (i : Fin 4) :
    column (b.toUInt32 <<< place i) = Pi.single i ⟨b⟩ := by
  funext r
  rw [Pi.single_apply]
  revert b i r
  refine forall_byte ?_
  decide +kernel

theorem sum_singles (v : Word) :
    Pi.single 0 (v 0) + Pi.single 1 (v 1) + Pi.single 2 (v 2) + Pi.single 3 (v 3)
      = v := by
  rw [← Fin.sum_univ_four fun r => Pi.single r (v r), Finset.univ_sum_single]

@[simp] theorem column_pack (v : Word) : column (pack v) = v := by
  rw [pack, column_xor, column_xor, column_xor, column_place, column_place,
    column_place, column_place]
  exact sum_singles v

/-! ## States as bytes -/

/-- The bytes of a block fill the state column by column. -/
def ofBytes (bs : List UInt8) : State := Matrix.of fun r c => ⟨bs.getD (4 * c + r) 0⟩

/-- The bytes of a state, column by column. -/
def toBytes (s : State) : List UInt8 :=
  (List.finRange 4).flatMap fun c => (List.finRange 4).map fun r => (s r c).byte

theorem ofBytes_toBytes (s : State) : ofBytes (toBytes s) = s := by
  refine Matrix.ext fun r c => ?_
  fin_cases r <;> fin_cases c <;> rfl

theorem toBytes_ofBytes {bs : List UInt8} (h : bs.length = 16) :
    toBytes (ofBytes bs) = bs := by
  match bs, h with
  | [_, _, _, _, _, _, _, _, _, _, _, _, _, _, _, _], _ => rfl

@[simp] theorem length_toBytes (s : State) : (toBytes s).length = 16 := rfl

end Rijndael
