import StpPlatform.AesSchedule

/-! # AES is Rijndael

    The code of `aes_core.c` against the cipher in its own terms: `AES_encrypt`
    under a key of `AES_set_encrypt_key` is the cipher (`aesEncrypt_cipher`), and
    `AES_decrypt` under one of `AES_set_decrypt_key` is the inverse cipher
    (`aesDecrypt_invCipher`), although it runs the loop of the other and never
    takes a round back.  So each undoes the other (`aes_inverse`).

    What the caller's `AES_KEY` held before is in none of the results. -/

namespace AesCore

open ByteField Rijndael SubstitutionNetwork

/-- The sizes of a key that are accepted. -/
inductive KeySize where
  | bits128
  | bits192
  | bits256
  deriving DecidableEq, Repr

/-- `bits`, in words. -/
def KeySize.words : KeySize → ℕ
  | .bits128 => 4
  | .bits192 => 6
  | .bits256 => 8

theorem KeySize.words_cases (size : KeySize) :
    size.words = 4 ∨ size.words = 6 ∨ size.words = 8 := by
  cases size with
  | bits128 => exact Or.inl rfl
  | bits192 => exact Or.inr (Or.inl rfl)
  | bits256 => exact Or.inr (Or.inr rfl)

/-- The full rounds, as turns of the loop. -/
theorem KeySize.turns (size : KeySize) :
    ∃ turns, (size.words + 6) >>> 1 = turns + 1
      ∧ 2 * turns + 1 = fullRounds size.words := by
  cases size with
  | bits128 => exact ⟨4, rfl, rfl⟩
  | bits192 => exact ⟨5, rfl, rfl⟩
  | bits256 => exact ⟨6, rfl, rfl⟩

/-- **NOTHING ELSE IS ACCEPTED**: a null pointer and another size are refused,
    and then the key is left alone. -/
theorem aesSetEncryptKey_status (userKey : Option (List UInt8)) (bits : Int)
    (key : Option AesKey) :
    (∃ bytes k size, userKey = some bytes ∧ key = some k
        ∧ bits = 32 * (KeySize.words size : Int)
        ∧ (aesSetEncryptKey userKey bits key).1 = 0)
      ∨ ((aesSetEncryptKey userKey bits key).1 < 0
        ∧ (aesSetEncryptKey userKey bits key).2 = key) := by
  match userKey, key with
  | none, _ => exact Or.inr ⟨Int.negSucc_lt_zero 0, rfl⟩
  | some _, none => exact Or.inr ⟨Int.negSucc_lt_zero 0, rfl⟩
  | some bytes, some k =>
      rw [aesSetEncryptKey]
      by_cases h128 : bits = 128
      · exact Or.inl ⟨bytes, k, .bits128, rfl, rfl, h128, by rw [h128]; rfl⟩
      · by_cases h192 : bits = 192
        · exact Or.inl ⟨bytes, k, .bits192, rfl, rfl, h192, by rw [h192]; rfl⟩
        · by_cases h256 : bits = 256
          · exact Or.inl ⟨bytes, k, .bits256, rfl, rfl, h256, by rw [h256]; rfl⟩
          · rw [if_pos ⟨h128, h192, h256⟩]
            exact Or.inr ⟨Int.negSucc_lt_zero 1, rfl⟩

section

variable {size : KeySize} {userKey : List UInt8} {rk₀ rk : RdKey}

/-- The round keys of the code are those of the schedule. -/
theorem keyState_scheduled
    (h : Scheduled size.words (keyColumns userKey) rk₀ (4 * (size.words + 7)) rk)
    {i : ℕ} (hi : i ≤ fullRounds size.words + 1) :
    keyState rk i = roundKey (keyWord size.words (keyColumns userKey)) i := by
  refine Matrix.ext fun r c => ?_
  have hc := c.isLt
  rw [fullRounds] at hi
  exact congrFun (h.words (4 * i + c) (by omega)) r

theorem aesEncrypt_scheduled
    (h : Scheduled size.words (keyColumns userKey) rk₀ (4 * (size.words + 7)) rk)
    (block : List UInt8) :
    aesEncrypt block ⟨rk, size.words + 6⟩
      = toBytes (cipher size.words (keyColumns userKey) (ofBytes block)) := by
  obtain ⟨turns, hturns, hfull⟩ := size.turns
  rw [aesEncrypt, cryptBlock_refines encrypt_refines block _ turns hturns, hfull]
  refine congrArg toBytes ?_
  exact network.cipher_congr (fun i hi => keyState_scheduled h hi) _

/-- The schedule of the decryption, turned round and mixed back. -/
theorem aesDecrypt_scheduled
    (h : Scheduled size.words (keyColumns userKey) rk₀ (4 * (size.words + 7)) rk)
    (block : List UInt8) :
    aesDecrypt block ⟨invMixKeys (fullRounds size.words)
        (invertOrder 0 (4 * (fullRounds size.words + 1)) rk), size.words + 6⟩
      = toBytes (invCipher size.words (keyColumns userKey) (ofBytes block)) := by
  obtain ⟨turns, hturns, hfull⟩ := size.turns
  have hn : fullRounds size.words < 14 := by
    cases size <;> decide
  rw [aesDecrypt, cryptBlock_refines decrypt_refines block _ turns hturns, hfull, invCipher,
    ← Network.cipher_inverse]
  refine congrArg toBytes (network.inverse.cipher_congr (fun i hi => ?_) _)
  rw [keyState_decrypt rk hn hi, Network.inverseKeys, Network.inverseKeys,
    keyState_scheduled h (Nat.sub_le _ _)]

end

section

variable (size : KeySize) (userKey : List UInt8)

/-- The two keys that are made of the same bytes. -/
theorem aesKeys (key key' : AesKey) :
    ∃ ek dk, aesSetEncryptKey (some userKey) (32 * size.words) (some key) = (0, some ek)
      ∧ aesSetDecryptKey (some userKey) (32 * size.words) (some key') = (0, some dk)
      ∧ (∀ block, aesEncrypt block ek
        = toBytes (cipher size.words (keyColumns userKey) (ofBytes block)))
      ∧ ∀ block, aesDecrypt block dk
        = toBytes (invCipher size.words (keyColumns userKey) (ofBytes block)) := by
  obtain ⟨rk, hset, hwords⟩ := aesSetEncryptKey_scheduled size.words_cases userKey key
  obtain ⟨rk', hset', hwords'⟩ := aesSetEncryptKey_scheduled size.words_cases userKey key'
  refine ⟨_, ⟨_, size.words + 6⟩, hset, ?_, aesEncrypt_scheduled hwords,
    aesDecrypt_scheduled hwords'⟩
  rw [aesSetDecryptKey, hset']
  rfl

/-- **`AES_encrypt`** is the cipher of Rijndael. -/
theorem aesEncrypt_cipher (key : AesKey) :
    ∃ ek, aesSetEncryptKey (some userKey) (32 * size.words) (some key) = (0, some ek)
      ∧ ∀ block, aesEncrypt block ek
        = toBytes (cipher size.words (keyColumns userKey) (ofBytes block)) := by
  obtain ⟨ek, _, hset, -, hencrypt, -⟩ := aesKeys size userKey key key
  exact ⟨ek, hset, hencrypt⟩

/-- **`AES_decrypt`** is Rijndael's inverse cipher. -/
theorem aesDecrypt_invCipher (key : AesKey) :
    ∃ dk, aesSetDecryptKey (some userKey) (32 * size.words) (some key) = (0, some dk)
      ∧ ∀ block, aesDecrypt block dk
        = toBytes (invCipher size.words (keyColumns userKey) (ofBytes block)) := by
  obtain ⟨_, dk, -, hset, -, hdecrypt⟩ := aesKeys size userKey key key
  exact ⟨dk, hset, hdecrypt⟩

/-- **EACH UNDOES THE OTHER**, for keys of every size. -/
theorem aes_inverse (key key' : AesKey) :
    ∃ ek dk, aesSetEncryptKey (some userKey) (32 * size.words) (some key) = (0, some ek)
      ∧ aesSetDecryptKey (some userKey) (32 * size.words) (some key') = (0, some dk)
      ∧ ∀ block, block.length = 16 →
        aesDecrypt (aesEncrypt block ek) dk = block
          ∧ aesEncrypt (aesDecrypt block dk) ek = block := by
  obtain ⟨ek, dk, hset, hset', hencrypt, hdecrypt⟩ := aesKeys size userKey key key'
  refine ⟨ek, dk, hset, hset', fun block hlen => ⟨?_, ?_⟩⟩
  · rw [hencrypt, hdecrypt, ofBytes_toBytes, invCipher, cipher, Network.decipher_cipher,
      toBytes_ofBytes hlen]
  · rw [hencrypt, hdecrypt, ofBytes_toBytes, invCipher, cipher, Network.cipher_decipher,
      toBytes_ofBytes hlen]

end

end AesCore
