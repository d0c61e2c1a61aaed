import StpPlatform.AesCore

/-! # The rounds of AES

    A word of the code is a column of the state.  The four bytes that a column of
    the next state comes from are looked up in four tables (`indices`), and what
    the tables give, added up, is a row of a matrix times a column
    (`column_mixColumn`, `column_invMixColumn`): the rounds of both directions are
    those of a network and of its inverse (`encrypt_refines`, `decrypt_refines`).
    From there on the two are one loop (`blockLoop_refines`). -/

namespace AesCore

open ByteField ByteField.GF256 Rijndael SubstitutionNetwork AesTables

/-! ## Words -/

/-- The lowest byte of a word, as the code masks it. -/
theorem and_ff (w : UInt32) : w &&& 0xff = w.toUInt8.toUInt32 := by
  refine UInt32.toNat_inj.mp ?_
  rw [UInt32.toNat_and, UInt8.toNat_toUInt32, UInt32.toNat_toUInt8]
  exact Nat.and_two_pow_sub_one_eq_mod w.toNat 8

/-- The subscript of `Te0` is the topmost byte, row `0` of the column. -/
theorem index_0 (w : UInt32) : w >>> 24 = (column w 0).byte.toUInt32 := by
  -- what is shifted down to one byte need not be masked
  have hlt : (w >>> 24).toNat < 2 ^ 8 := by
    rw [UInt32.toNat_shiftRight, Nat.shiftRight_eq_div_pow]
    have h := w.toNat_lt
    show w.toNat / 2 ^ 24 < 2 ^ 8
    omega
  refine UInt32.toNat_inj.mp ?_
  show _ = (w >>> 24).toUInt8.toUInt32.toNat
  rw [UInt8.toNat_toUInt32, UInt32.toNat_toUInt8, Nat.mod_eq_of_lt hlt]

/-- The subscript of `Te1` is row `1` of the column. -/
theorem index_1 (w : UInt32) : (w >>> 16) &&& 0xff = (column w 1).byte.toUInt32 :=
  and_ff (w >>> 16)

theorem index_2 (w : UInt32) : (w >>> 8) &&& 0xff = (column w 2).byte.toUInt32 :=
  and_ff (w >>> 8)

/-- The subscript of `Te3` is row `3`, the lowest byte. -/
theorem index_3 (w : UInt32) : w &&& 0xff = (column w 3).byte.toUInt32 := by
  have hshift : w >>> 0 = w := by simp
  rw [and_ff]
  show _ = (w >>> 0).toUInt8.toUInt32
  rw [hshift]

/-- Four bytes, put together. -/
theorem column_bytes (a b c d : UInt8) :
    column ((a.toUInt32 <<< 24) ^^^ (b.toUInt32 <<< 16) ^^^ (c.toUInt32 <<< 8)
      ^^^ d.toUInt32) = ![⟨a⟩, ⟨b⟩, ⟨c⟩, ⟨d⟩] := by
  have hplace : d.toUInt32 <<< place 3 = d.toUInt32 := by simp [place]
  have hpack := column_pack ![⟨a⟩, ⟨b⟩, ⟨c⟩, ⟨d⟩]
  rw [pack, show (![⟨a⟩, ⟨b⟩, ⟨c⟩, ⟨d⟩] : Word) 3 = ⟨d⟩ from rfl, hplace] at hpack
  exact hpack

/-- `GETU32` puts four bytes of the text under each other. -/
theorem column_getU32 (pt : List UInt8) (i : ℕ) :
    column (getU32 pt i) = fun r : Fin 4 => ⟨pt.getD (i + r) 0⟩ := by
  rw [getU32, column_bytes]
  funext r
  fin_cases r <;> rfl

/-- `PUTU32` writes a column from the top. -/
theorem putU32_eq (st : UInt32) :
    putU32 st = (List.finRange 4).map fun r => (column st r).byte := by
  have hplace : st >>> place 3 = st := by simp [place]
  show putU32 st = [(column st 0).byte, (column st 1).byte, (column st 2).byte,
    (st >>> place 3).toUInt8]
  rw [hplace]
  rfl

/-! ## Columns through the tables -/

section

variable (b₀ b₁ b₂ b₃ : UInt8) (w₀ w₁ w₂ w₃ : UInt32)

/-- **THE LAST ROUND'S TABLES**: masked and joined, the four entries are the
    column's bytes after `SubBytes`. -/
theorem column_subColumn :
    column (subColumn b₀.toUInt32 b₁.toUInt32 b₂.toUInt32 b₃.toUInt32)
      = ![sbox ⟨b₀⟩, sbox ⟨b₁⟩, sbox ⟨b₂⟩, sbox ⟨b₃⟩] := by
  -- each mask keeps the byte of its entry whose factor is one
  have hmasks : subColumn b₀.toUInt32 b₁.toUInt32 b₂.toUInt32 b₃.toUInt32
      = (entry (te 2) b₀.toUInt32 &&& only 0) ^^^ (entry (te 3) b₁.toUInt32 &&& only 1)
        ^^^ (entry (te 0) b₂.toUInt32 &&& only 2)
        ^^^ (entry (te 1) b₃.toUInt32 &&& only 3) := rfl
  rw [hmasks, ← sum_singles ![sbox ⟨b₀⟩, sbox ⟨b₁⟩, sbox ⟨b₂⟩, sbox ⟨b₃⟩]]
  simp [column_xor, column_and_only, entry_te, mixMatrix]

/-- **THE OTHER ROUNDS' TABLES**: the four entries added up are a row of
    `MixColumns` after `SubBytes`. -/
theorem column_mixColumn (r : Fin 4) :
    column (mixColumn b₀.toUInt32 b₁.toUInt32 b₂.toUInt32 b₃.toUInt32) r
      = mixMatrix r 0 * sbox ⟨b₀⟩ + mixMatrix r 1 * sbox ⟨b₁⟩
        + mixMatrix r 2 * sbox ⟨b₂⟩ + mixMatrix r 3 * sbox ⟨b₃⟩ := by
  have htables : mixColumn b₀.toUInt32 b₁.toUInt32 b₂.toUInt32 b₃.toUInt32
      = entry (te 0) b₀.toUInt32 ^^^ entry (te 1) b₁.toUInt32
        ^^^ entry (te 2) b₂.toUInt32 ^^^ entry (te 3) b₃.toUInt32 := rfl
  rw [htables, column_xor, column_xor, column_xor, entry_te, entry_te, entry_te, entry_te]
  rfl

/-- `Td4` does to a column what `InvSubBytes` does. -/
theorem column_invSubColumn :
    column (invSubColumn b₀.toUInt32 b₁.toUInt32 b₂.toUInt32 b₃.toUInt32)
      = ![sbox.symm ⟨b₀⟩, sbox.symm ⟨b₁⟩, sbox.symm ⟨b₂⟩, sbox.symm ⟨b₃⟩] := by
  rw [invSubColumn, column_bytes, UInt8.toNat_toUInt32, UInt8.toNat_toUInt32,
    UInt8.toNat_toUInt32, UInt8.toNat_toUInt32, entry_td4, entry_td4, entry_td4, entry_td4]

/-- The entries of `Td0` to `Td3` add up to a row of `InvMixColumns` after
    `InvSubBytes`. -/
theorem column_invMixColumn (r : Fin 4) :
    column (invMixColumn b₀.toUInt32 b₁.toUInt32 b₂.toUInt32 b₃.toUInt32) r
      = invMixMatrix r 0 * sbox.symm ⟨b₀⟩ + invMixMatrix r 1 * sbox.symm ⟨b₁⟩
        + invMixMatrix r 2 * sbox.symm ⟨b₂⟩ + invMixMatrix r 3 * sbox.symm ⟨b₃⟩ := by
  have htables : invMixColumn b₀.toUInt32 b₁.toUInt32 b₂.toUInt32 b₃.toUInt32
      = entry (td 0) b₀.toUInt32 ^^^ entry (td 1) b₁.toUInt32
        ^^^ entry (td 2) b₂.toUInt32 ^^^ entry (td 3) b₃.toUInt32 := rfl
  rw [htables, column_xor, column_xor, column_xor, entry_td, entry_td, entry_td, entry_td]
  rfl

/-- The four indices of a round, as bytes of the four words they come from. -/
theorem indices (f : UInt32 → UInt32 → UInt32 → UInt32 → UInt32) :
    f (w₀ >>> 24) ((w₁ >>> 16) &&& 0xff) ((w₂ >>> 8) &&& 0xff) (w₃ &&& 0xff)
      = f (column w₀ 0).byte.toUInt32 (column w₁ 1).byte.toUInt32
        (column w₂ 2).byte.toUInt32 (column w₃ 3).byte.toUInt32 := by
  rw [index_0 w₀, index_1 w₁, index_2 w₂, index_3 w₃]

end

/-! ## The rounds -/

/-- The words of a key as columns. -/
def ofWords (w : ℕ → UInt32) : State := Matrix.of fun r c => column (w c) r

/-- The columns `s0` to `s3` by number. -/
def Columns.get (s : Columns) : Fin 4 → UInt32 := ![s.s0, s.s1, s.s2, s.s3]

/-- The state that the four words stand for, a column in each. -/
def Columns.state (s : Columns) : State := Matrix.of fun r c => column (s.get c) r

theorem Columns.state_apply (s : Columns) (r c : Fin 4) :
    s.state r c = column (s.get c) r := rfl

/-- A full round and the last round compute those of a network. -/
structure Refines (N : Network State) (round last : Round) : Prop where
  round : ∀ rk s, (round rk s).state = N.round (ofWords rk) s.state
  last : ∀ rk s, (last rk s).state = N.shift (N.sub s.state) + ofWords rk

/-- The words that one column of a round comes from. -/
theorem encryptRound_get (rk : ℕ → UInt32) (s : Columns) (c : Fin 4) :
    (encryptRound rk s).get c
      = mixColumn (s.get c >>> 24) ((s.get (c + 1) >>> 16) &&& 0xff)
        ((s.get (c + 2) >>> 8) &&& 0xff) (s.get (c + 3) &&& 0xff) ^^^ rk c := by
  fin_cases c <;> rfl

/-- Column `c` of the last round: as in `encryptRound_get`, without `MixColumns`. -/
theorem encryptLast_get (rk : ℕ → UInt32) (s : Columns) (c : Fin 4) :
    (encryptLast rk s).get c
      = subColumn (s.get c >>> 24) ((s.get (c + 1) >>> 16) &&& 0xff)
        ((s.get (c + 2) >>> 8) &&& 0xff) (s.get (c + 3) &&& 0xff) ^^^ rk c := by
  fin_cases c <;> rfl

/-- Deciphering, the rows come from the columns before: the shift goes back. -/
theorem decryptRound_get (rk : ℕ → UInt32) (s : Columns) (c : Fin 4) :
    (decryptRound rk s).get c
      = invMixColumn (s.get c >>> 24) ((s.get (c - 1) >>> 16) &&& 0xff)
        ((s.get (c - 2) >>> 8) &&& 0xff) (s.get (c - 3) &&& 0xff) ^^^ rk c := by
  fin_cases c <;> rfl

/-- The last round of deciphering, without `InvMixColumns`. -/
theorem decryptLast_get (rk : ℕ → UInt32) (s : Columns) (c : Fin 4) :
    (decryptLast rk s).get c
      = invSubColumn (s.get c >>> 24) ((s.get (c - 1) >>> 16) &&& 0xff)
        ((s.get (c - 2) >>> 8) &&& 0xff) (s.get (c - 3) &&& 0xff) ^^^ rk c := by
  fin_cases c <;> rfl

/-- **THE ROUNDS OF `AES_encrypt`** are those of the cipher. -/
theorem encrypt_refines : Refines network encryptRound encryptLast where
  round rk s := by
    refine Matrix.ext fun r c => ?_
    show column ((encryptRound rk s).get c) r
      = (mixMatrix * shiftRows (subBytes s.state)) r c + column (rk c) r
    rw [encryptRound_get, indices _ _ _ _ mixColumn, column_xor, Pi.add_apply,
      column_mixColumn, Matrix.mul_apply, Fin.sum_univ_four]
    simp only [shiftRows_apply, subBytes_apply, Columns.state_apply, add_zero]
  last rk s := by
    refine Matrix.ext fun r c => ?_
    show column ((encryptLast rk s).get c) r
      = shiftRows (subBytes s.state) r c + column (rk c) r
    -- without the mixing an element of the column is one entry
    rw [encryptLast_get, indices _ _ _ _ subColumn, column_xor, Pi.add_apply,
      column_subColumn, shiftRows_apply, subBytes_apply, Columns.state_apply]
    fin_cases r <;> simp

/-- **THE ROUNDS OF `AES_decrypt`** are those of the cipher of the inverse
    network. -/
theorem decrypt_refines : Refines network.inverse decryptRound decryptLast where
  round rk s := by
    refine Matrix.ext fun r c => ?_
    show column ((decryptRound rk s).get c) r
      = (invMixMatrix * shiftRows.symm (subBytes.symm s.state)) r c + column (rk c) r
    rw [decryptRound_get, indices _ _ _ _ invMixColumn, column_xor, Pi.add_apply,
      column_invMixColumn, Matrix.mul_apply, Fin.sum_univ_four]
    simp only [shiftRows_symm_apply, subBytes_symm_apply, Columns.state_apply, sub_zero]
  last rk s := by
    refine Matrix.ext fun r c => ?_
    show column ((decryptLast rk s).get c) r
      = shiftRows.symm (subBytes.symm s.state) r c + column (rk c) r
    rw [decryptLast_get, indices _ _ _ _ invSubColumn, column_xor, Pi.add_apply,
      column_invSubColumn, shiftRows_symm_apply, subBytes_symm_apply,
      Columns.state_apply]
    fin_cases r <;> simp

/-! ## A block -/

/-- The round keys that a program's words are. -/
def keyState (rk : RdKey) : ℕ → State := roundKey fun m => column (getWord rk m)

/-- Four words of the schedule from word `4 i` on are round key `i`. -/
theorem ofWords_fromWord (rk : RdKey) (i : ℕ) :
    ofWords (fromWord rk (4 * i)) = keyState rk i := rfl

section

variable {N : Network State} {round last : Round} {rk : RdKey} {s₀ : State}

/-- Two rounds of the cipher in each turn, the induction being on the turns that
    are left. -/
theorem blockLoop_refines (h : Refines N round last) (r : ℕ) {i : ℕ} {s : Columns}
    (hs : s.state = N.rounds (keyState rk) s₀ i) :
    (blockLoop round last rk (r + 1) (4 * i) s).state
      = N.cipher (i + 2 * r + 1) (keyState rk) s₀ := by
  induction r generalizing i s with
  | zero =>
      -- the last turn has one full round, and the round without mixing
      have hround : (round (fromWord rk (4 * (i + 1))) s).state
          = N.rounds (keyState rk) s₀ (i + 1) := by
        rw [h.round, hs, ofWords_fromWord]
        rfl
      show (last (fromWord rk (4 * (i + 2)))
        (round (fromWord rk (4 * (i + 1))) s)).state = _
      rw [h.last, hround, ofWords_fromWord]
      rfl
  | succ r ih =>
      -- any other turn has two full rounds, and then there is one turn less
      have hrounds : (round (fromWord rk (4 * (i + 2)))
          (round (fromWord rk (4 * (i + 1))) s)).state
          = N.rounds (keyState rk) s₀ (i + 2) := by
        rw [h.round, h.round, hs, ofWords_fromWord, ofWords_fromWord]
        rfl
      have hturns : i + 2 * (r + 1) + 1 = i + 2 + 2 * r + 1 := by omega
      rw [hturns, ← ih hrounds]
      rfl

/-- What is written at the end are the bytes of the state, column by column. -/
theorem toBytes_state (s : Columns) :
    putU32 s.s0 ++ putU32 s.s1 ++ putU32 s.s2 ++ putU32 s.s3 = toBytes s.state := by
  rw [putU32_eq, putU32_eq, putU32_eq, putU32_eq]
  rfl

/-- **A BLOCK** goes through the cipher of the network, under the words of the
    key; `turns` is half the number of rounds. -/
theorem cryptBlock_refines (h : Refines N round last) (inp : List UInt8) (key : AesKey)
    (turns : ℕ) (hrounds : key.rounds >>> 1 = turns + 1) :
    cryptBlock round last inp key
      = toBytes (N.cipher (2 * turns + 1) (keyState key.rdKey) (ofBytes inp)) := by
  have hstart : Columns.state
      ⟨getU32 inp 0 ^^^ getWord key.rdKey 0, getU32 inp 4 ^^^ getWord key.rdKey 1,
        getU32 inp 8 ^^^ getWord key.rdKey 2, getU32 inp 12 ^^^ getWord key.rdKey 3⟩
      = N.rounds (keyState key.rdKey) (ofBytes inp) 0 := by
    -- before the first round the key is added to the text, word by word
    refine Matrix.ext fun r c => ?_
    rw [Columns.state_apply]
    show _ = (⟨inp.getD (4 * c + r) 0⟩ : GF256) + column (getWord key.rdKey (4 * 0 + c)) r
    fin_cases c <;> simp [Columns.get, column_xor, column_getU32]
  rw [cryptBlock, toBytes_state, hrounds]
  refine congrArg toBytes ?_
  have hloop := blockLoop_refines h turns hstart
  rw [Nat.zero_add] at hloop
  exact hloop

end

end AesCore
