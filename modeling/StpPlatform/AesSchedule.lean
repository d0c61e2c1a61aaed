import StpPlatform.AesRounds

/-! # The key schedules of AES

    `AES_set_encrypt_key` writes the words of Rijndael's key expansion, one after
    the other: `Scheduled` says how many are there, and every write adds one.
    `AES_set_decrypt_key` turns the round keys round and mixes back all but the
    first and the last, which makes them the keys of the inverse network. -/

namespace AesCore

open ByteField ByteField.GF256 Rijndael SubstitutionNetwork AesTables

/-! ## One word -/

/-- An assignment to a word below 60 changes that word and no other. -/
theorem getWord_setWord (rk : RdKey) {i : ℕ} (h : i < 60) (w : UInt32) (j : ℕ) :
    getWord (setWord rk i w) j = if j = i then w else getWord rk j := by
  have hsize : i < rk.toArray.size := by rwa [Vector.size_toArray]
  rw [getWord, setWord, Vector.toArray_setIfInBounds, Array.getD_eq_getD_getElem?,
    Array.getElem?_setIfInBounds]
  by_cases heq : i = j
  · rw [if_pos heq, if_pos hsize, if_pos heq.symm]
    rfl
  · rw [if_neg heq, if_neg fun h => heq h.symm, getWord, Array.getD_eq_getD_getElem?]

/-- The first `n` words are those of the schedule of a key of `nk` words; the
    others are what they were in `rk₀`. -/
structure Scheduled (nk : ℕ) (key : ℕ → Word) (rk₀ : RdKey) (n : ℕ) (rk : RdKey) :
    Prop where
  words : ∀ m < n, column (getWord rk m) = keyWord nk key m
  rest : ∀ m ≥ n, getWord rk m = getWord rk₀ m

section

variable {nk : ℕ} {key : ℕ → Word} {rk₀ : RdKey} {n : ℕ} {rk : RdKey}

/-- The next word is written as the schedule has it. -/
theorem Scheduled.setWord (h : Scheduled nk key rk₀ n rk) (hn : n < 60) {w : UInt32}
    (hw : column w = keyWord nk key n) :
    Scheduled nk key rk₀ (n + 1) (setWord rk n w) where
  words m hm := by
    rw [getWord_setWord rk hn]
    split
    case isTrue heq => rw [hw, heq]
    case isFalse hne => exact h.words m (by omega)
  rest m hm := by
    rw [getWord_setWord rk hn, if_neg (by omega), h.rest m (by omega)]

/-- What a word is after the expansion of `p / nk` blocks. -/
theorem keyWord_block (nk : ℕ) (key : ℕ → Word) (i : ℕ) {k : ℕ} (hk : k < nk) :
    keyWord nk key (nk * i + nk + k) = keyWord nk key (nk * i + k)
      + (if k = 0 then subWord (rotWord (keyWord nk key (nk * i + nk - 1)))
            + Rijndael.rcon (i + 1)
          else if 6 < nk ∧ k = 4 then subWord (keyWord nk key (nk * i + nk + k - 1))
          else keyWord nk key (nk * i + nk + k - 1)) := by
  have hindex : nk * i + nk + k = nk * i + k + nk := by omega
  -- `k` is the place in the block, and `i + 1` its number
  have hmod : (nk * i + nk + k) % nk = k := by
    rw [← Nat.mul_succ, Nat.mul_add_mod, Nat.mod_eq_of_lt hk]
  have hdiv : (nk * i + nk + k) / nk = i + 1 := by
    rw [← Nat.mul_succ, Nat.mul_add_div (by omega), Nat.div_eq_of_lt hk]
  rw [hindex, keyWord_add key (nk * i + k) (by omega), ← hindex, fromPrevious, hmod, hdiv]
  by_cases h0 : k = 0
  · rw [if_pos h0, if_pos h0, h0]
    rfl
  · rw [if_neg h0, if_neg h0]

/-- A word that is the sum of two earlier ones, as most of them are. -/
theorem Scheduled.chain {i k : ℕ} (h : Scheduled nk key rk₀ (nk * i + nk + k) rk)
    (hk : k < nk) (h0 : k ≠ 0) (h4 : ¬(6 < nk ∧ k = 4)) (hlt : nk * i + nk + k < 60) :
    Scheduled nk key rk₀ (nk * i + nk + (k + 1)) (chain (nk * i) nk k rk) := by
  refine h.setWord hlt ?_
  rw [column_xor, h.words _ (by omega), h.words _ (by omega), keyWord_block nk key i hk, if_neg h0,
    if_neg h4]

/-- The substitution of a word, its bytes turned by one. -/
theorem column_subRot (temp : UInt32) :
    column (subColumn ((temp >>> 16) &&& 0xff) ((temp >>> 8) &&& 0xff) (temp &&& 0xff)
      (temp >>> 24)) = subWord (rotWord (column temp)) := by
  rw [index_0, index_1, index_2, index_3, column_subColumn]
  funext r
  fin_cases r <;> rfl

/-- The substitution of a word as it stands. -/
theorem column_sub (temp : UInt32) :
    column (subColumn (temp >>> 24) ((temp >>> 16) &&& 0xff) ((temp >>> 8) &&& 0xff)
      (temp &&& 0xff)) = subWord (column temp) := by
  rw [index_0, index_1, index_2, index_3, column_subColumn]
  funext r
  fin_cases r <;> rfl

/-- The four words that every turn of the loop writes. -/
theorem Scheduled.expandFour {i : ℕ} (h : Scheduled nk key rk₀ (nk * i + nk) rk)
    (hnk : 4 ≤ nk) (hi : i < 10) (hlt : nk * i + nk + 3 < 60) :
    Scheduled nk key rk₀ (nk * i + nk + 4) (expandFour nk i rk) := by
  -- the first of the four is the one with the rotation and the constant
  have hfirst : Scheduled nk key rk₀ (nk * i + nk + 1) (AesCore.setWord rk (nk * i + nk)
      (getWord rk (nk * i)
        ^^^ subColumn ((getWord rk (nk * i + nk - 1) >>> 16) &&& 0xff)
          ((getWord rk (nk * i + nk - 1) >>> 8) &&& 0xff)
          (getWord rk (nk * i + nk - 1) &&& 0xff) (getWord rk (nk * i + nk - 1) >>> 24)
        ^^^ AesTables.rcon.getD i 0)) := by
    refine h.setWord (by omega) ?_
    have hword := keyWord_block nk key i (k := 0) (by omega)
    rw [Nat.add_zero, Nat.add_zero, if_pos rfl] at hword
    rw [column_xor, column_xor, column_subRot, column_rcon hi, h.words _ (by omega),
      h.words _ (by omega), hword, add_assoc]
  have h1 := hfirst.chain (k := 1) (by omega) (by omega) (by omega) (by omega)
  have h2 := h1.chain (k := 2) (by omega) (by omega) (by omega) (by omega)
  exact h2.chain (k := 3) (by omega) (by omega) (by omega) (by omega)

/-- What a turn writes after them: nothing for a key of four words, two
    words for one of six, four for one of eight, the first of which is
    substituted once more. -/
theorem Scheduled.expandRest {i : ℕ} (h : Scheduled nk key rk₀ (nk * i + nk + 4) rk)
    (hnk : nk = 4 ∨ nk = 6 ∨ nk = 8) (hlt : nk * (i + 1) + nk < 61) :
    Scheduled nk key rk₀ (nk * (i + 1) + nk) (expandRest nk i rk) := by
  rw [Nat.mul_succ] at hlt ⊢
  obtain rfl | rfl | rfl := hnk
  · -- a key of four words is done
    exact h
  · -- two more words for a key of six
    have h4 := h.chain (k := 4) (by omega) (by omega) (by omega) (by omega)
    exact h4.chain (k := 5) (by omega) (by omega) (by omega) (by omega)
  · -- the middle word of eight is substituted without a rotation
    have hmiddle : Scheduled 8 key rk₀ (8 * i + 8 + 5) (AesCore.setWord rk (8 * i + 12)
        (getWord rk (8 * i + 4)
          ^^^ subColumn (getWord rk (8 * i + 11) >>> 24)
            ((getWord rk (8 * i + 11) >>> 16) &&& 0xff)
            ((getWord rk (8 * i + 11) >>> 8) &&& 0xff)
            (getWord rk (8 * i + 11) &&& 0xff))) := by
      refine h.setWord (by omega) ?_
      have hword := keyWord_block 8 key i (k := 4) (by omega)
      rw [if_neg (by omega), if_pos (by omega)] at hword
      rw [column_xor, column_sub, h.words _ (by omega), h.words _ (by omega), hword]
      rfl
    have h5 := hmiddle.chain (k := 5) (by omega) (by omega) (by omega) (by omega)
    have h6 := h5.chain (k := 6) (by omega) (by omega) (by omega) (by omega)
    exact h6.chain (k := 7) (by omega) (by omega) (by omega) (by omega)

/-- The loop, the induction being on the expansions that are left. -/
theorem Scheduled.expandLoop (hnk : nk = 4 ∨ nk = 6 ∨ nk = 8) (left : ℕ) {i : ℕ}
    {rk : RdKey} (h : Scheduled nk key rk₀ (nk * i + nk) rk) (hi : i + left < 10)
    (hlt : nk * (i + left) + nk + 3 < 60) :
    Scheduled nk key rk₀ (nk * (i + left) + nk + 4) (expandLoop nk (left + 1) i rk) := by
  induction left generalizing i rk with
  | zero => exact h.expandFour (by omega) hi hlt
  | succ left ih =>
      -- one turn, and as many turns from the next block on
      have hsum : i + (left + 1) = i + 1 + left := by omega
      have hmul : nk * (i + 1 + left) = nk * (i + 1) + nk * left := Nat.mul_add _ _ _
      have hmul' : nk * (i + 1) = nk * i + nk := Nat.mul_succ _ _
      rw [hsum] at hi hlt ⊢
      have hfour := h.expandFour (by omega) (by omega) (by omega)
      exact ih (hfour.expandRest hnk (by omega)) hi hlt

/-- The words of a key, as columns. -/
def keyColumns (userKey : List UInt8) (i : ℕ) : Word :=
  fun r => ⟨userKey.getD (4 * i + r) 0⟩

/-- The first words are read from the key. -/
theorem scheduled_loadKey (userKey : List UInt8) (hn : n ≤ nk) (hnk : nk ≤ 60) :
    Scheduled nk (keyColumns userKey) rk₀ n (loadKey userKey n rk₀) := by
  induction n with
  | zero => exact ⟨fun m hm => absurd hm m.not_lt_zero, fun m _ => rfl⟩
  | succ n ih =>
      refine (ih (by omega)).setWord (by omega) ?_
      rw [column_getU32, keyWord_of_lt _ (by omega)]
      rfl

end

/-- **`AES_set_encrypt_key`** accepts the three sizes, and makes of the key the
    words of Rijndael's schedule; it writes no others. -/
theorem aesSetEncryptKey_scheduled {nk : ℕ} (hnk : nk = 4 ∨ nk = 6 ∨ nk = 8)
    (userKey : List UInt8) (key : AesKey) :
    ∃ rk, aesSetEncryptKey (some userKey) (32 * nk) (some key) = (0, some ⟨rk, nk + 6⟩)
      ∧ Scheduled nk (keyColumns userKey) key.rdKey (4 * (nk + 7)) rk := by
  obtain rfl | rfl | rfl := hnk
  · have hkey : Scheduled 4 (keyColumns userKey) key.rdKey (4 * 0 + 4) _ :=
      scheduled_loadKey userKey le_rfl (by omega)
    exact ⟨_, rfl, hkey.expandLoop (Or.inl rfl) 9 (by omega) (by omega)⟩
  · have hkey : Scheduled 6 (keyColumns userKey) key.rdKey (6 * 0 + 6) _ :=
      scheduled_loadKey userKey le_rfl (by omega)
    exact ⟨_, rfl, hkey.expandLoop (Or.inr (Or.inl rfl)) 7 (by omega) (by omega)⟩
  · have hkey : Scheduled 8 (keyColumns userKey) key.rdKey (8 * 0 + 8) _ :=
      scheduled_loadKey userKey le_rfl (by omega)
    exact ⟨_, rfl, hkey.expandLoop (Or.inr (Or.inr rfl)) 6 (by omega) (by omega)⟩

/-! ## The decryption schedule -/

/-- Where the word `m` comes from in a swap. -/
def swapIndex (i j m : ℕ) : ℕ := if m = j then i else if m = i then j else m

/-- The word at a place after a swap is the one of the place it comes from. -/
theorem getWord_swapWords (rk : RdKey) {i j : ℕ} (hi : i < 60) (hj : j < 60) (m : ℕ) :
    getWord (swapWords i j rk) m = getWord rk (swapIndex i j m) := by
  rw [swapWords, getWord_setWord _ hj, getWord_setWord _ hi, swapIndex]
  split
  · rfl
  · split
    · rfl
    · rfl

/-- A swap of two words moves at most one word of a block. -/
theorem swapIndex_block (a b q : ℕ) {s t : ℕ} (hs : s < 4) (ht : t < 4) :
    swapIndex (4 * a + s) (4 * b + s) (4 * q + t)
      = 4 * (if t = s then swapIndex a b q else q) + t := by
  unfold swapIndex
  split_ifs <;> omega

/-- Four swaps are a swap of blocks. -/
theorem swapIndex_four (a b q : ℕ) {t : ℕ} (ht : t < 4) :
    swapIndex (4 * a) (4 * b) (swapIndex (4 * a + 1) (4 * b + 1)
        (swapIndex (4 * a + 2) (4 * b + 2) (swapIndex (4 * a + 3) (4 * b + 3)
          (4 * q + t))))
      = 4 * swapIndex a b q + t := by
  have h0 (q : ℕ) : swapIndex (4 * a) (4 * b) (4 * q + t)
      = 4 * (if t = 0 then swapIndex a b q else q) + t :=
    @swapIndex_block a b q 0 t (by omega) ht
  rw [swapIndex_block a b q (by omega) ht, swapIndex_block a b _ (by omega) ht,
    swapIndex_block a b _ (by omega) ht, h0]
  obtain rfl | rfl | rfl | rfl : t = 0 ∨ t = 1 ∨ t = 2 ∨ t = 3 := by omega
  · rfl
  · rfl
  · rfl
  · rfl

/-- Where block `q` comes from when blocks `a` to `b` are turned round. -/
def turnBlock (a b q : ℕ) : ℕ := if a ≤ q ∧ q ≤ b then a + b - q else q

/-- Turning a range round is turning what is inside and swapping its ends. -/
theorem swapIndex_turnBlock {a b : ℕ} (h : a < b) (q : ℕ) :
    swapIndex a b (turnBlock (a + 1) (b - 1) q) = turnBlock a b q := by
  unfold swapIndex turnBlock
  split_ifs <;> omega

/-- The loop, from outside to inside. -/
theorem getWord_invertOrder {a b : ℕ} (rk : RdKey) (hb : b < 15) (q : ℕ) {t : ℕ}
    (ht : t < 4) :
    getWord (invertOrder (4 * a) (4 * b) rk) (4 * q + t)
      = getWord rk (4 * turnBlock a b q + t) := by
  induction hd : b - a using Nat.strong_induction_on generalizing a b rk with
  | _ d ih =>
      rw [invertOrder]
      split
      -- the ends are swapped, and what lies between is turned round
      case isTrue hlt =>
        have hback : 4 * b - 4 = 4 * (b - 1) := by omega
        have hon : 4 * a + 4 = 4 * (a + 1) := by omega
        rw [hback, hon, ih (b - 1 - (a + 1)) (by omega) _ (by omega) rfl,
          getWord_swapWords _ (by omega) (by omega),
          getWord_swapWords _ (by omega) (by omega),
          getWord_swapWords _ (by omega) (by omega),
          getWord_swapWords _ (by omega) (by omega), swapIndex_four a b _ ht,
          swapIndex_turnBlock (by omega)]
      -- the indices have met
      case isFalse hge =>
        have hturn : turnBlock a b q = q := by
          unfold turnBlock
          split_ifs <;> omega
        rw [hturn]

/-- `Te1[x] & 0xff` is the S-box. -/
theorem subByte_index (b : UInt8) : subByte b.toUInt32 = (sbox ⟨b⟩).byte.toUInt32 := by
  have h := congrFun (entry_te 1 b) 3
  rw [subByte, index_3]
  have hone : mixMatrix 3 1 = 1 := rfl
  rw [hone, one_mul] at h
  rw [show te1 = te 1 from rfl, h]

/-- A word of a key is multiplied with the inverse matrix: the S-box is there to
    be undone. -/
theorem column_invMixWord (w : UInt32) (r : Fin 4) :
    column (invMixWord w) r = invMixMatrix r 0 * column w 0 + invMixMatrix r 1 * column w 1
      + invMixMatrix r 2 * column w 2 + invMixMatrix r 3 * column w 3 := by
  have hcancel (a : GF256) : sbox.symm ⟨(sbox ⟨a.byte⟩).byte⟩ = a :=
    sbox.symm_apply_apply a
  rw [invMixWord, index_0, index_1, index_2, index_3, subByte_index, subByte_index,
    subByte_index, subByte_index, column_invMixColumn, hcancel, hcancel, hcancel, hcancel]

/-- One word is multiplied, the others stay. -/
theorem getWord_invMixAt (rk : RdKey) {i : ℕ} (h : i < 60) (m : ℕ) :
    getWord (invMixAt i rk) m = if m = i then invMixWord (getWord rk m) else getWord rk m := by
  rw [invMixAt, getWord_setWord rk h]
  split
  case isTrue heq => rw [heq]
  case isFalse => rfl

/-- **ALL ROUND KEYS BUT THE FIRST AND THE LAST** are multiplied. -/
theorem getWord_invMixKeys (rk : RdKey) {n : ℕ} (h : n < 15) (m : ℕ) :
    getWord (invMixKeys n rk) m
      = if 4 ≤ m ∧ m < 4 * (n + 1) then invMixWord (getWord rk m) else getWord rk m := by
  induction n with
  | zero => rw [if_neg (by omega)]; rfl
  | succ n ih =>
      rw [invMixKeys, getWord_invMixAt _ (by omega), getWord_invMixAt _ (by omega),
        getWord_invMixAt _ (by omega), getWord_invMixAt _ (by omega), ih (by omega)]
      split_ifs <;> first | omega | rfl

/-- The round keys of `AES_set_decrypt_key`. -/
theorem keyState_decrypt (rk : RdKey) {n : ℕ} (hn : n < 14) {i : ℕ} (hi : i ≤ n + 1) :
    keyState (invMixKeys n (invertOrder 0 (4 * (n + 1)) rk)) i
      = network.inverseKeys n (keyState rk) i := by
  have hturn : turnBlock 0 (n + 1) i = n + 1 - i := by
    unfold turnBlock
    split_ifs <;> omega
  have hword (c : Fin 4) : getWord (invertOrder 0 (4 * (n + 1)) rk) (4 * i + c)
      = getWord rk (4 * (n + 1 - i) + c) := by
    have h := @getWord_invertOrder 0 (n + 1) rk (by omega) i c c.isLt
    rwa [hturn] at h
  refine Matrix.ext fun r c => ?_
  show column (getWord (invMixKeys n (invertOrder 0 (4 * (n + 1)) rk)) (4 * i + c)) r = _
  rw [getWord_invMixKeys _ (by omega), hword, Network.inverseKeys]
  have hc := c.isLt
  -- the first and the last round key are only moved
  by_cases hends : i = 0 ∨ i = n + 1
  · rw [if_neg (by omega), if_pos hends]
    rfl
  · rw [if_pos (by omega), if_neg hends, column_invMixWord]
    show _ = (invMixMatrix * keyState rk (n + 1 - i)) r c
    rw [Matrix.mul_apply, Fin.sum_univ_four]
    rfl

end AesCore
