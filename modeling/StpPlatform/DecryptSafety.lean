import StpPlatform.StpCrypto

/-! # `DecryptCipher` on any cipher text

    What arrives as a cipher text is whatever somebody sent: not base64, base64
    of nothing, of a length that is no multiple of a block, or of blocks that
    decrypt to anything.  `DecryptEffect` is everything that a call can do, and
    `decryptCipher_effect` says that a call does one of these and never leaves
    the memory; `decrypt_safe` reads off that it is safe.

    What it accepts is another matter.  The length that the last four bytes name
    is only compared with the length of the blocks, so it may reach into those
    four bytes, be zero, or leave blocks over: `length_consistent_iff`. -/

namespace DecryptSafety

open ByteMemory ByteOrder Base64 StpCrypto

/-! ## What is decrypted -/

/-- The blocks of a decoded text, decrypted. -/
def decryptedBlocks (aes : Aes) (x : List UInt8) : List UInt8 :=
  (List.range (x.length / 16)).flatMap (fun i =>
    aes.decrypt (aes.setDecryptKey getStpCryptKey.2 256)
      (read (Block.ofList x).bytes (16 * i) 16))

/-- The number in the last four bytes. -/
def trailer (aes : Aes) (x : List UInt8) : UInt32 :=
  readUint32 ((decryptedBlocks aes x).drop (x.length - 4))

/-- The output block of a text of `n` bytes. -/
structure Plain (aes : Aes) (x : List UInt8) (n : UInt32) (out : Block) : Prop where
  size : out.size = x.length + 1
  fits : n.toNat ≤ x.length
  text : out.load 0 (n.toNat + 1)
    = some ((decryptedBlocks aes x).take n.toNat ++ [0])

/-- **EVERYTHING A CALL CAN DO** with a cipher text that decodes to `x`. -/
inductive DecryptEffect (aes : Aes) (x : List UInt8) : Decrypted → Prop where
  | empty (h : x = []) : DecryptEffect aes x ⟨-2, none, none⟩
  | ragged (h : x.length % 16 ≠ 0) : DecryptEffect aes x ⟨-3, none, none⟩
  | overlong (hpos : 16 ≤ x.length) (hwhole : x.length % 16 = 0)
      (h : x.length < (trailer aes x).toNat) :
      DecryptEffect aes x ⟨-4, none, some (trailer aes x)⟩
  | accepted (out : Block) (hpos : 16 ≤ x.length) (hwhole : x.length % 16 = 0)
      (h : Plain aes x (trailer aes x) out) :
      DecryptEffect aes x ⟨0, some out, some (trailer aes x)⟩

section

variable {aes : Aes} {x : List UInt8}

/-- The block loop decrypts all blocks, within both buffers. -/
theorem decryptLoop_spec (hwhole : x.length % 16 = 0)
    (hlt : x.length + 1 < 0x100000000) (heap : Bytes) :
    ∃ pTmp, cryptBlocks (aes.decrypt (aes.setDecryptKey getStpCryptKey.2 256))
        (Block.ofList x) (x.length / 16) ⟨x.length + 1, heap⟩ = some pTmp
      ∧ pTmp.size = x.length + 1
      ∧ read pTmp.bytes 0 x.length = decryptedBlocks aes x := by
  have hsixteen : 16 * (x.length / 16) = x.length := by omega
  obtain ⟨pTmp, hcrypt, hsize, hblocks⟩ := @cryptBlocks_spec
    (aes.decrypt (aes.setDecryptKey getStpCryptKey.2 256)) (Block.ofList x)
    ⟨x.length + 1, heap⟩ (x.length / 16) (aes.length_decrypt _)
    (Nat.le_of_eq hsixteen)
    (by show _ ≤ x.length + 1; omega)
    (by omega)
  refine ⟨pTmp, hcrypt, hsize, ?_⟩
  have hread := read_flatMap hblocks
  rw [hsixteen] at hread
  exact hread

/-- The trailer is read where the last block ends. -/
theorem trailer_spec {pTmp : Block} (hpos : 16 ≤ x.length)
    (hsize : pTmp.size = x.length + 1)
    (hread : read pTmp.bytes 0 x.length = decryptedBlocks aes x) :
    ∃ bs, pTmp.load (x.length - 4) 4 = some bs
      ∧ readUint32 bs = trailer aes x := by
  refine ⟨read pTmp.bytes (x.length - 4) 4, load_some (by omega), ?_⟩
  have hlast := read_drop pTmp.bytes 0 (x.length - 4) 4
  rw [Nat.sub_add_cancel (by omega), hread, Nat.zero_add] at hlast
  rw [trailer, hlast]

/-- The terminating zero is stored behind the text. -/
theorem plain_spec {pTmp : Block} {n : UInt32} (hle : n.toNat ≤ x.length)
    (hsize : pTmp.size = x.length + 1)
    (hread : read pTmp.bytes 0 x.length = decryptedBlocks aes x) :
    ∃ out, pTmp.store n.toNat [0] = some out ∧ Plain aes x n out := by
  have hroom : n.toNat + ([0] : List UInt8).length ≤ pTmp.size := by
    rw [hsize, List.length_singleton]
    omega
  refine ⟨_, store_some hroom, hsize, hle, ?_⟩
  have hin : 0 + (n.toNat + 1) ≤ pTmp.size := by omega
  rw [@load_some ⟨pTmp.size, write pTmp.bytes n.toNat [0]⟩ _ _ hin, read_append,
    Nat.zero_add]
  refine congrArg some (congrArg₂ (· ++ ·) ?_ (read_write_self rfl))
  show read (write _ _ _) 0 n.toNat = _
  rw [read_write_apart (Or.inl (by omega)), ← hread, read_take hle]

end

/-! ## One call -/

/-- What a cipher text of `len` bytes decodes to. -/
def decoded (cipher : Bytes) (len : UInt32) : List UInt8 :=
  base64Decode (read cipher 0 len.toNat)

section

variable (aes : Aes) (heap cipher : Bytes) {len : UInt32}

/-- `nLen + 1` is no 32-bit overflow, since base64 shrinks. -/
theorem length_decoded_lt (len : UInt32) :
    (decoded cipher len).length + 1 < 0x100000000 := by
  have hshrinks := length_base64Decode_le (read cipher 0 len.toNat)
  have hlen := len.toNat_lt
  rw [length_read] at hshrinks
  rw [decoded]
  omega

/-- **A CALL RETURNS**, whatever it is given, and does one of these. -/
theorem decryptCipher_effect (hlen : 0 < len.toNat) :
    ∃ r, decryptCipher aes heap (some cipher) len = .ok r
      ∧ DecryptEffect aes (decoded cipher len) r := by
  have hlt := length_decoded_lt cipher len
  obtain ⟨x, hx⟩ : ∃ x, x = decoded cipher len := ⟨_, rfl⟩
  -- the checks are taken in the order of the code
  have hdecode : base64Decode (read cipher 0 len.toNat) = x := hx.symm
  rw [← hx] at hlt ⊢
  have hpos := not_le_zero hlen
  obtain ⟨nLen, hnLen⟩ : ∃ nLen, nLen = UInt32.ofNat x.length := ⟨_, rfl⟩
  have hcount : nLen.toNat = x.length := by
    rw [hnLen]
    exact UInt32.toNat_ofNat_of_lt' (show x.length < 0x100000000 by omega)
  by_cases hzero : nLen = 0
  · refine ⟨⟨-2, none, none⟩, ?_, .empty ?_⟩
    · simp only [decryptCipher, if_neg hpos, hdecode, ← hnLen, if_pos hzero]
    · rw [hzero] at hcount
      exact List.length_eq_zero_iff.mp hcount.symm
  · have hrest : (nLen % 16).toNat = x.length % 16 := by
      rw [UInt32.toNat_mod, hcount]
      rfl
    by_cases hragged : nLen % 16 ≠ 0
    · refine ⟨⟨-3, none, none⟩, ?_, .ragged ?_⟩
      · simp only [decryptCipher, if_neg hpos, hdecode, ← hnLen, if_neg hzero,
          if_pos hragged]
      · intro hwhole
        rw [hwhole] at hrest
        exact hragged (UInt32.toNat_inj.mp hrest)
    · have hwhole : x.length % 16 = 0 := by
        rw [← hrest, not_not.mp hragged]
        rfl
      have hsixteen : 16 ≤ x.length := by
        have hne : x.length ≠ 0 := by
          intro h0
          rw [← hcount] at h0
          exact hzero (UInt32.toNat_inj.mp h0)
        omega
      have hrounds : (nLen / 16).toNat = x.length / 16 := by
        rw [UInt32.toNat_div, hcount]
        rfl
      have hmalloc : (nLen + 1).toNat = x.length + 1 := by
        rw [UInt32.toNat_add, hcount]
        exact Nat.mod_eq_of_lt hlt
      obtain ⟨pTmp, hcrypt, hsize, hread⟩ :=
        @decryptLoop_spec aes x hwhole hlt heap
      obtain ⟨bs, hload, hnumber⟩ := trailer_spec hsixteen hsize hread
      by_cases hover : trailer aes x > nLen
      · refine ⟨⟨-4, none, some (trailer aes x)⟩, ?_, .overlong hsixteen hwhole ?_⟩
        · simp only [decryptCipher, if_neg hpos, hdecode, ← hnLen, if_neg hzero,
            if_neg hragged, hrounds, hmalloc, hcrypt, hcount, hload, hnumber,
            if_pos hover, inBounds_some, ok_bind]
        · rw [← hcount]
          exact hover
      · have hle : (trailer aes x).toNat ≤ x.length := by
          rw [← hcount]
          exact Nat.le_of_not_lt hover
        obtain ⟨out, hstore, hplain⟩ := plain_spec hle hsize hread
        refine ⟨⟨0, some out, some (trailer aes x)⟩, ?_,
          .accepted out hsixteen hwhole hplain⟩
        simp only [decryptCipher, if_neg hpos, hdecode, ← hnLen, if_neg hzero,
          if_neg hragged, hrounds, hmalloc, hcrypt, hcount, hload, hnumber,
          if_neg hover, hstore, inBounds_some, ok_bind]

/-- A call kept to the decoded text and the output buffer: nothing wrapped, the
    trailer was there, and a text that is returned is decrypted from the blocks. -/
structure DecryptSafe (aes : Aes) (x : List UInt8) (r : Decrypted) : Prop where
  noWrap : x.length + 1 < 0x100000000
  indices : ∀ i, i < x.length / 16 → i * 16 % 0x100000000 = i * 16
  trailer : r.ret = 0 ∨ r.ret = -4 → 4 ≤ x.length
  plain : r.ret = 0 → ∃ n out, r = ⟨0, some out, some n⟩ ∧ Plain aes x n out

/-- **HOSTILE INPUT**: on every cipher text, and whatever its blocks decrypt to,
    a call stays inside its memory, where another access would be a fault. -/
theorem decrypt_safe (hlen : 1 ≤ len.toNat) :
    ∃ r, decryptCipher aes heap (some cipher) len = .ok r
      ∧ DecryptSafe aes (decoded cipher len) r := by
  obtain ⟨r, hcall, heffect⟩ := decryptCipher_effect aes heap cipher hlen
  have hlt := length_decoded_lt cipher len
  refine ⟨r, hcall, hlt, ?_, ?_, ?_⟩
  · -- no block starts beyond 32 bits
    intro i hi
    exact Nat.mod_eq_of_lt (by omega)
  · cases heffect with
    | empty _ =>
        exact fun hret => absurd hret (show ¬ ((-2 : Int) = 0 ∨ (-2 : Int) = -4)
          by decide)
    | ragged _ =>
        exact fun hret => absurd hret (show ¬ ((-3 : Int) = 0 ∨ (-3 : Int) = -4)
          by decide)
    | overlong hpos _ _ => exact fun _ => by omega
    | accepted out hpos _ _ => exact fun _ => by omega
  · cases heffect with
    | empty _ => exact fun hret => absurd hret (by decide)
    | ragged _ => exact fun hret => absurd hret (by decide)
    | overlong _ _ _ =>
        exact fun hret => absurd hret (show ¬ (-4 : Int) = 0 by decide)
    | accepted out _ _ hplain => exact fun _ => ⟨_, out, rfl, hplain⟩

/-- The cipher text of the library's own test, which is accepted. -/
def acceptedText : Bytes :=
  (Block.ofList (ascii "JuNFSmY0Hdn9fSDiLrBds3WXrZFfV+UBo37vcxL/NUY=")).bytes

theorem decrypt_safe_testCipher :
    ∃ r, decryptCipher testAes (fun _ => 0) (some acceptedText) 44 = .ok r
      ∧ r.ret = 0 ∧ DecryptSafe testAes (decoded acceptedText 44) r := by
  obtain ⟨r, hcall, hsafe⟩ :=
    decrypt_safe testAes (fun _ => 0) acceptedText (show 1 ≤ UInt32.toNat 44 by decide)
  have haccepted : (decryptCipher testAes (fun _ => 0) (some acceptedText) 44).map
      Decrypted.ret = .ok 0 := by
    decide +kernel
  rw [hcall] at haccepted
  exact ⟨r, hcall, Except.ok.inj haccepted, hsafe⟩

/-! ## The lengths that are accepted -/

/-- A length that is accepted is one for which `EncryptPlain` makes just as many
    blocks. -/
def AcceptsConsistent (len : UInt32) : Prop :=
  ∀ r, decryptCipher aes heap (some cipher) len = .ok r → r.ret = 0 →
    ∃ n, r.plainLen = some n ∧ 1 ≤ n.toNat
      ∧ (decoded cipher len).length = encryptLength n.toNat

/-- The trailer names a length that is refused, or one that leaves room for the
    trailer in the last block and no block over. -/
def TrailerFits (x : List UInt8) : Prop :=
  x.length < (trailer aes x).toNat
    ∨ (1 ≤ (trailer aes x).toNat ∧ (trailer aes x).toNat + 4 ≤ x.length
      ∧ x.length < (trailer aes x).toNat + 20)

/-- Whole blocks are as many as a text needs exactly if text and trailer fill
    them up to less than one block. -/
theorem eq_encryptLength_iff {m n : Nat} (hwhole : m % 16 = 0) :
    m = encryptLength n ↔ n + 4 ≤ m ∧ m < n + 20 := by
  rw [encryptLength]
  constructor
  · intro hm
    omega
  · rintro ⟨hlow, hhigh⟩
    omega

/-- **LENGTHS ARE CONSISTENT** exactly on the cipher texts that are refused or
    have a trailer that fits their blocks. -/
theorem length_consistent_iff (len : UInt32) :
    AcceptsConsistent aes heap cipher len
      ↔ decoded cipher len = [] ∨ (decoded cipher len).length % 16 ≠ 0
        ∨ TrailerFits aes (decoded cipher len) := by
  by_cases hlen : 0 < len.toNat
  · obtain ⟨r, hcall, heffect⟩ := decryptCipher_effect aes heap cipher hlen
    have hiff : AcceptsConsistent aes heap cipher len
        ↔ (r.ret = 0 → ∃ n, r.plainLen = some n ∧ 1 ≤ n.toNat
          ∧ (decoded cipher len).length = encryptLength n.toNat) := by
      constructor
      · exact fun hok => hok r hcall
      · intro hok r' hcall'
        rw [← Except.ok.inj (hcall.symm.trans hcall')]
        exact hok
    rw [hiff]
    cases heffect with
    | empty h => exact iff_of_true (fun hret => absurd hret (by decide)) (Or.inl h)
    | ragged h =>
        exact iff_of_true (fun hret => absurd hret (by decide)) (Or.inr (Or.inl h))
    | overlong _ _ h =>
        exact iff_of_true
          (fun hret => absurd hret (show ¬ (-4 : Int) = 0 by decide))
          (Or.inr (Or.inr (Or.inl h)))
    | accepted out hpos hwhole hplain =>
        have hfits := hplain.fits
        constructor
        · intro hok
          obtain ⟨n, hn, hone, henc⟩ := hok rfl
          rw [← Option.some.inj hn] at hone henc
          exact Or.inr (Or.inr (Or.inr
            ⟨hone, (eq_encryptLength_iff hwhole).mp henc⟩))
        · rintro (hnil | hragged | hover | ⟨hone, hroom⟩) _
          · rw [hnil, List.length_nil] at hpos
            omega
          · exact absurd hwhole hragged
          · omega
          · exact ⟨_, rfl, hone, (eq_encryptLength_iff hwhole).mpr hroom⟩
  · -- nothing is decoded from an empty text
    have hnil : decoded cipher len = [] := by
      have hzero : len.toNat = 0 := by omega
      rw [decoded, hzero]
      rfl
    refine iff_of_true ?_ (Or.inl hnil)
    intro r hcall hret
    have hle : len ≤ 0 := Nat.le_of_not_lt hlen
    simp only [decryptCipher, if_pos hle] at hcall
    cases hcall
    exact absurd hret (by decide)

end

/-- The block `0 … 0 16`, and AES's block for it. -/
def fullBlock : List UInt8 := List.replicate 15 0 ++ [16]

def fullCipher : List UInt8 :=
  [0x07, 0xd4, 0xe8, 0xe0, 0x7b, 0x7e, 0x9b, 0x2f,
    0x66, 0x1e, 0x86, 0x3f, 0x77, 0x58, 0x07, 0xd8]

/-- AES on this block, and nothing on other blocks. -/
def fullCrypt (block : List UInt8) : List UInt8 :=
  if block = fullBlock then fullCipher
  else if block = fullCipher then fullBlock
  else if block.length = 16 then block
  else List.replicate 16 0

theorem length_fullCrypt (block : List UInt8) : (fullCrypt block).length = 16 := by
  rw [fullCrypt]
  split
  · rfl
  · split
    · rfl
    · split
      · assumption
      · rfl

/-- The block functions of the witness. -/
def fullAes : Aes where
  AesKey := Unit
  setEncryptKey := fun _ _ => ()
  setDecryptKey := fun _ _ => ()
  encrypt := fun _ => fullCrypt
  decrypt := fun _ => fullCrypt
  length_encrypt := fun _ => length_fullCrypt
  length_decrypt := fun _ => length_fullCrypt

/-- The cipher text of this block. -/
def fullText : Bytes := (Block.ofList (ascii "B9To4Ht+my9mHoY/d1gH2A==")).bytes

/-- **THE TRAILER IS RETURNED** with the text when it names the length of the
    blocks. -/
theorem trailer_returned :
    ∃ out, decryptCipher fullAes (fun _ => 0) (some fullText) 24
        = .ok ⟨0, some out, some 16⟩
      ∧ out.load 0 16 = some fullBlock
      ∧ ¬ AcceptsConsistent fullAes (fun _ => 0) fullText 24 := by
  obtain ⟨out, hcall, hload⟩ : ∃ out, decryptCipher fullAes (fun _ => 0)
      (some fullText) 24 = .ok ⟨0, some out, some 16⟩
        ∧ out.load 0 16 = some fullBlock :=
    ⟨_, rfl, by decide +kernel⟩
  refine ⟨out, hcall, hload, ?_⟩
  intro hok
  obtain ⟨n, hn, -, henc⟩ := hok _ hcall rfl
  rw [← Option.some.inj hn] at henc
  exact absurd henc (by decide +kernel)

end DecryptSafety
