import StpPlatform.BlockHash
import StpPlatform.ByteOrder
import Mathlib.Analysis.SpecialFunctions.Trigonometric.Basic
import Mathlib.Data.List.Range

/-! # The MD5 digest

    What MD5 is, apart from any program.  One step does the same thing 64 times:
    it turns the four words round by one place and puts a new word in.  Which
    word of the block it takes, how far it shifts and what it mixes with are
    formulas in the number of the step, and the constant is the integer part of
    `2 ^ 32 · |sin i|` (`sine`).  The message is padded with its length in bits
    (`padding`), and the blocks are taken in one by one.

    Nothing here mentions the program. -/

namespace Md5Digest

open BlockHash ByteOrder

/-- The words `A`, `B`, `C`, `D`. -/
abbrev State := UInt32 × UInt32 × UInt32 × UInt32

/-- A word, rotated to the left. -/
def rotl (x : UInt32) (n : Nat) : UInt32 := ⟨x.toBitVec.rotateLeft n⟩

/-- The function of step `i`. -/
def mixing (i : Nat) (b c d : UInt32) : UInt32 :=
  match i / 16 with
  | 0 => (b &&& c) ||| (~~~b &&& d)
  | 1 => (b &&& d) ||| (c &&& ~~~d)
  | 2 => b ^^^ c ^^^ d
  | _ => c ^^^ (b ||| ~~~d)

/-- The word of the block that step `i` takes. -/
def wordIndex (i : Nat) : Nat :=
  match i / 16 with
  | 0 => i
  | 1 => (5 * i + 1) % 16
  | 2 => (3 * i + 5) % 16
  | _ => 7 * i % 16

/-- The shifts of a round, which it goes through four times. -/
def shifts (i : Nat) : List Nat :=
  match i / 16 with
  | 0 => [7, 12, 17, 22]
  | 1 => [5, 9, 14, 20]
  | 2 => [4, 11, 16, 23]
  | _ => [6, 10, 15, 21]

/-- The rotation of step `i`. -/
def shift (i : Nat) : Nat := (shifts i).getD (i % 4) 0

/-- The constant of step `i`. -/
noncomputable def sine (i : Nat) : UInt32 :=
  UInt32.ofNat ⌊((2 ^ 32 : Nat) : ℝ) * |Real.sin ((i + 1 : Nat) : ℝ)|⌋₊

/-- Word `k` of a block, least significant byte first. -/
def word (block : List UInt8) (k : Nat) : UInt32 :=
  UInt32.ofNat (Endian.little.load ((block.drop (4 * k)).take 4))

/-- Step `i`. -/
noncomputable def step (block : List UInt8) (s : State) (i : Nat) : State :=
  let (a, b, c, d) := s
  (d, b + rotl (a + mixing i b c d + word block (wordIndex i) + sine i) (shift i), b, c)

/-- A block taken into the state. -/
noncomputable def compress (s : State) (block : List UInt8) : State :=
  s + (List.range 64).foldl (step block) s

/-- The state at the beginning. -/
def initial : State := (0x67452301, 0xefcdab89, 0x98badcfe, 0x10325476)

/-- A one bit, and zeros up to eight bytes before the end of a block. -/
def fill (m : Nat) : List UInt8 := 0x80 :: List.replicate ((119 - m % 64) % 64) 0

/-- The padding of MD5; it tells lengths below `2 ^ 61` apart. -/
def padding : Padding UInt8 64 where
  fill := fill
  code m := Endian.little.store64 (8 * m)
  width := 8
  limit := 2 ^ 61
  width_pos := by decide
  width_le := by decide
  code_length _ := rfl
  code_injective := by
    intro m k hm hk h
    have hnet : toNetwork64 (8 * m) = toNetwork64 (8 * k) := List.reverse_injective h
    have hnum := congrArg ofNetwork hnet
    rw [ofNetwork_toNetwork64 (by omega), ofNetwork_toNetwork64 (by omega)] at hnum
    omega
  whole := by
    intro m
    rw [fill, List.length_cons, List.length_replicate]
    omega

/-- The digest of a message: four words, least significant byte first. -/
noncomputable def digest (message : List UInt8) : List UInt8 :=
  let (a, b, c, d) := padding.digest compress initial message
  Endian.little.store32 a.toNat ++ Endian.little.store32 b.toNat
    ++ Endian.little.store32 c.toNat ++ Endian.little.store32 d.toNat

/-- Bytes as hexadecimal digits. -/
def hex (bs : List UInt8) : List Char :=
  bs.flatMap (fun b => [Nat.digitChar (b.toNat / 16), Nat.digitChar (b.toNat % 16)])

end Md5Digest
