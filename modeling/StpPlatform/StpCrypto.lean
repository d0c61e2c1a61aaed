import StpPlatform.ByteMemory
import StpPlatform.ByteOrder
import StpPlatform.Base64

/-! # The encryption library (`stpcrypto/stp_crypto`)

    `encryptPlain` puts the plain text and, in the last four bytes, its length
    into whole blocks, encrypts them one by one and writes them as base64;
    `decryptCipher` goes the other way.  All lengths and indices are `uint32_t`,
    and an access outside the memory that was allocated is a fault.

    AES is a parameter: its two key schedules, and a block of 16 bytes encrypted
    or decrypted under one.  `malloc` succeeds; what the memory it gives holds
    is a parameter too.  The `token` arguments are not read. -/

namespace StpCrypto

open ByteMemory ByteOrder Base64

/-! ## AES -/

/-- What `stputil/security/aes` is to the library. -/
structure Aes where
  AesKey : Type
  setEncryptKey : (userKey : List UInt8) → (bits : Nat) → AesKey
  setDecryptKey : (userKey : List UInt8) → (bits : Nat) → AesKey
  encrypt : AesKey → List UInt8 → List UInt8
  decrypt : AesKey → List UInt8 → List UInt8
  length_encrypt : ∀ key block, (encrypt key block).length = 16
  length_decrypt : ∀ key block, (decrypt key block).length = 16

/-- **AES-256 DECRYPTS** what it encrypted under the same key, block by block. -/
def Aes.Inverts (aes : Aes) : Prop :=
  ∀ userKey block, userKey.length = 32 → block.length = 16 →
    aes.decrypt (aes.setDecryptKey userKey 256)
      (aes.encrypt (aes.setEncryptKey userKey 256) block) = block

/-- `bool GetStpCryptKey(std::string&)`; the result is not looked at. -/
def getStpCryptKey : Bool × List UInt8 :=
  (false, ascii "12345678901234567890123456789012")

/-! ## Lengths -/

/-- `void WriteUint32(uchar_t*, uint32_t)`: the bytes it writes. -/
def writeUint32 (data : UInt32) : List UInt8 := toNetwork32 data.toNat

/-- `uint32_t ReadUint32(uchar_t*)`. -/
def readUint32 (buf : List UInt8) : UInt32 := UInt32.ofNat (ofNetwork buf)

/-- The `blocks` of a plain text. -/
def blockCount (plainLen : UInt32) : UInt32 :=
  let remain := plainLen % 16
  let blocks := (plainLen + 15) / 16
  if remain > 12 ∨ remain = 0 then blocks + 1 else blocks

/-- A number is read back. -/
theorem readUint32_writeUint32 (data : UInt32) :
    readUint32 (writeUint32 data) = data := by
  rw [readUint32, writeUint32, ofNetwork_toNetwork32 data.toNat_lt,
    UInt32.ofNat_toNat]

/-! ## Encryption and decryption -/

/-- An access that may be outside the memory. -/
def inBounds {α : Type} : Option α → Except Fault α
  | none => .error .outOfBounds
  | some a => .ok a

/-- The first `n` rounds of a block loop. -/
def cryptBlocks (crypt : List UInt8 → List UInt8) (src : Block) :
    Nat → Block → Option Block
  | 0, dst => some dst
  | i + 1, dst =>
      match cryptBlocks crypt src i dst with
      | none => none
      | some dst =>
          match src.load (i * 16 % 0x100000000) 16 with
          | none => none
          | some block => dst.store (i * 16 % 0x100000000) (crypt block)

/-- What `EncryptPlain` returns, and what it stores in its results. -/
structure Encrypted where
  ret : Int
  cipher : Option Block
  cipherLen : Option UInt32

/-- `int EncryptPlain(const char*, uint32_t, char**, uint32_t&, const char*)`;
    `gClntOrSvr` is `g_clnt_or_svr`, and `heap i` is what the memory of the
    `i`-th `malloc` holds. -/
def encryptPlain (aes : Aes) (ndebug : Bool) (heap : Nat → Bytes)
    (gClntOrSvr : Int) (plain : Option Bytes) (plainLen : UInt32) :
    Except Fault Encrypted :=
  match plain with
  | none => .ok ⟨-1, none, none⟩
  | some plain =>
      if plainLen ≤ 0 then .ok ⟨-1, none, none⟩
      else if gClntOrSvr = -1 then .ok ⟨-1, none, none⟩
      else do
        let blocks := blockCount plainLen
        let encryptLen := blocks * 16
        let pData ← inBounds ((Block.zeroed encryptLen.toNat).store 0
          (read plain 0 plainLen.toNat))
        let pData ← inBounds (pData.store (encryptLen.toNat - 4)
          (writeUint32 plainLen))
        let aesKey := aes.setEncryptKey getStpCryptKey.2 256
        let pEncData ← inBounds (cryptBlocks (aes.encrypt aesKey) pData
          blocks.toNat ⟨encryptLen.toNat, heap 0⟩)
        let strDec ← base64Encode ndebug (read pEncData.bytes 0 encryptLen.toNat)
        let cipherLen := UInt32.ofNat strDec.length
        let pTmp ← inBounds (Block.store ⟨(cipherLen + 1).toNat, heap 1⟩ 0
          (strDec.take cipherLen.toNat))
        let pTmp ← inBounds (pTmp.store cipherLen.toNat [0])
        .ok ⟨0, some pTmp, some cipherLen⟩

/-- What `DecryptCipher` returns, and what it stores in its results. -/
structure Decrypted where
  ret : Int
  plain : Option Block
  plainLen : Option UInt32

/-- `int DecryptCipher(const char*, uint32_t, char**, uint32_t&, char**)`. -/
def decryptCipher (aes : Aes) (heap : Bytes) (cipher : Option Bytes)
    (cipherLen : UInt32) : Except Fault Decrypted :=
  match cipher with
  | none => .ok ⟨-1, none, none⟩
  | some cipher =>
      if cipherLen ≤ 0 then .ok ⟨-1, none, none⟩
      else
        let strResult := base64Decode (read cipher 0 cipherLen.toNat)
        let nLen := UInt32.ofNat strResult.length
        if nLen = 0 then .ok ⟨-2, none, none⟩
        else if nLen % 16 ≠ 0 then .ok ⟨-3, none, none⟩
        else do
          let blocks := nLen / 16
          let aesKey := aes.setDecryptKey getStpCryptKey.2 256
          let pTmp ← inBounds (cryptBlocks (aes.decrypt aesKey)
            (Block.ofList strResult) blocks.toNat ⟨(nLen + 1).toNat, heap⟩)
          let trailer ← inBounds (pTmp.load (nLen.toNat - 4) 4)
          let plainLen := readUint32 trailer
          if plainLen > nLen then .ok ⟨-4, none, some plainLen⟩
          else do
            let pTmp ← inBounds (pTmp.store plainLen.toNat [0])
            .ok ⟨0, some pTmp, some plainLen⟩

/-! ## The padding -/

/-- What the blocks of a plain text take: room for the text and four bytes. -/
def encryptLength (n : Nat) : Nat := (n + 4 + 15) / 16 * 16

/-- The length of the cipher text. -/
def cipherLength (n : Nat) : Nat := (encryptLength n + 2) / 3 * 4

/-- The code's rule, by what remains of the last block. -/
theorem blocks_of_remain (n : Nat) :
    (n + 4 + 15) / 16
      = (n + 15) / 16 + if 12 < n % 16 ∨ n % 16 = 0 then 1 else 0 := by
  have hneeded : (n + 4 + 15) / 16 = n / 16 + if 12 < n % 16 then 2 else 1 := by
    split <;> omega
  have hused : (n + 15) / 16 = n / 16 + if n % 16 = 0 then 0 else 1 := by
    split <;> omega
  rw [hneeded, hused]
  split <;> split <;> split <;> omega

section

variable {n : UInt32}

/-- **THE BLOCKS** are those that the text and its length need. -/
theorem blockCount_toNat (h : n.toNat + 15 < 0x100000000) :
    (blockCount n).toNat = (n.toNat + 4 + 15) / 16 := by
  have hremain : (n % 16).toNat = n.toNat % 16 := UInt32.toNat_mod n 16
  have hsum : ((n + 15) / 16).toNat = (n.toNat + 15) / 16 := by
    rw [UInt32.toNat_div, UInt32.toNat_add]
    show (n.toNat + 15) % 0x100000000 / 16 = _
    rw [Nat.mod_eq_of_lt h]
  have hmore : n % 16 > 12 ∨ n % 16 = 0
      ↔ 12 < n.toNat % 16 ∨ n.toNat % 16 = 0 := by
    rw [← hremain, ← UInt32.toNat_inj]
    exact Iff.rfl
  rw [blockCount, blocks_of_remain]
  by_cases hextra : n % 16 > 12 ∨ n % 16 = 0
  · rw [if_pos hextra, if_pos (hmore.mp hextra), UInt32.toNat_add, hsum]
    show ((n.toNat + 15) / 16 + 1) % 0x100000000 = _
    omega
  · rw [if_neg hextra, if_neg (fun h => hextra (hmore.mpr h)), hsum]
    rfl

theorem encryptLength_toNat (h : n.toNat + 19 < 0x100000000) :
    (blockCount n * 16).toNat = encryptLength n.toNat := by
  rw [UInt32.toNat_mul, blockCount_toNat (by omega)]
  show (n.toNat + 4 + 15) / 16 * 16 % 0x100000000 = (n.toNat + 4 + 15) / 16 * 16
  omega

end

/-! ## The block loops -/

section

variable {crypt : List UInt8 → List UInt8} {src dst : Block} {n : Nat}

/-- **A BLOCK LOOP** puts each block, changed, where it was. -/
theorem cryptBlocks_spec (hcrypt : ∀ block, (crypt block).length = 16)
    (hsrc : 16 * n ≤ src.size) (hdst : 16 * n ≤ dst.size)
    (hn : 16 * n ≤ 0x100000000) :
    ∃ dst', cryptBlocks crypt src n dst = some dst' ∧ dst'.size = dst.size
      ∧ ∀ i, i < n → read dst'.bytes (16 * i) 16
        = crypt (read src.bytes (16 * i) 16) := by
  induction n with
  | zero =>
      refine ⟨dst, rfl, rfl, ?_⟩
      intro i hi
      exact absurd hi (Nat.not_lt_zero i)
  | succ n ih =>
      obtain ⟨mid, hmid, hsize, hblocks⟩ := ih (by omega) (by omega) (by omega)
      have hoff : n * 16 % 0x100000000 = 16 * n := by omega
      have hlen : (crypt (read src.bytes (16 * n) 16)).length = 16 := hcrypt _
      have hload : src.load (16 * n) 16 = some (read src.bytes (16 * n) 16) :=
        load_some (by omega)
      have hstore : mid.store (16 * n) (crypt (read src.bytes (16 * n) 16))
          = some ⟨mid.size, write mid.bytes (16 * n)
              (crypt (read src.bytes (16 * n) 16))⟩ :=
        store_some (by omega)
      refine ⟨⟨mid.size, write mid.bytes (16 * n)
        (crypt (read src.bytes (16 * n) 16))⟩, ?_, hsize, ?_⟩
      · simp only [cryptBlocks, hmid, hoff, hload]
        exact hstore
      · intro i hi
        rcases Nat.lt_succ_iff_lt_or_eq.mp hi with hi | hi
        · -- an earlier block is left alone
          rw [← hblocks i hi]
          exact read_write_apart (by omega)
        · rw [hi]
          exact read_write_self hlen

end

/-! ## Encryption -/

/-- The text and its length in whole blocks. -/
structure Packed (plain : Bytes) (n : UInt32) (b : Block) : Prop where
  size : b.size = encryptLength n.toNat
  text : read b.bytes 0 n.toNat = read plain 0 n.toNat
  trailer : read b.bytes (encryptLength n.toNat - 4) 4 = writeUint32 n

/-- A block of `cipherLen + 1` bytes that holds a text of `cipherLen`. -/
structure HoldsText (b : Block) (text : List UInt8) : Prop where
  size : b.size = text.length + 1
  chars : read b.bytes 0 text.length = text
  terminated : b.bytes text.length = 0

section

variable {n : UInt32}

theorem packed_stores (plain : Bytes) (hn : n.toNat + 19 < 0x100000000) :
    ∃ b b', (Block.zeroed (encryptLength n.toNat)).store 0 (read plain 0 n.toNat)
        = some b
      ∧ b.store (encryptLength n.toNat - 4) (writeUint32 n) = some b'
      ∧ Packed plain n b' := by
  have hroom : n.toNat + 4 ≤ encryptLength n.toNat := by
    rw [encryptLength]
    omega
  have hfirst := @store_some (Block.zeroed (encryptLength n.toNat)) 0
    (read plain 0 n.toNat) (by
      rw [length_read, Nat.zero_add]
      show _ ≤ encryptLength n.toNat
      omega)
  have hsecond := @store_some ⟨encryptLength n.toNat, write (fun _ => 0) 0
    (read plain 0 n.toNat)⟩ (encryptLength n.toNat - 4) (writeUint32 n) (by
      show encryptLength n.toNat - 4 + 4 ≤ encryptLength n.toNat
      omega)
  refine ⟨_, _, hfirst, hsecond, rfl, ?_, ?_⟩
  · show read (write _ _ _) 0 n.toNat = _
    rw [read_write_apart (Or.inl (by omega))]
    exact read_write_self length_read
  · exact read_write_self rfl

/-- A text that fits is stored with a zero behind it. -/
theorem holdsText_stores (text : List UInt8) (heap : Bytes) :
    ∃ b b', Block.store ⟨text.length + 1, heap⟩ 0 text = some b
      ∧ b.store text.length [0] = some b' ∧ HoldsText b' text := by
  have hfirst := @store_some ⟨text.length + 1, heap⟩ 0 text (by
    show 0 + text.length ≤ text.length + 1
    omega)
  have hsecond := @store_some ⟨text.length + 1, write heap 0 text⟩ text.length [0]
    (Nat.le_refl _)
  refine ⟨_, _, hfirst, hsecond, rfl, ?_, ?_⟩
  · show read (write _ _ _) 0 text.length = text
    rw [read_write_apart (Or.inl (by omega))]
    exact read_write_self rfl
  · exact @write_inside _ text.length 0 [0] Nat.zero_lt_one

end

@[simp] theorem inBounds_some {α : Type} (a : α) : inBounds (some a) = .ok a := rfl

@[simp] theorem ok_bind {α β : Type} (a : α) (f : α → Except Fault β) :
    (Except.ok a >>= f) = f a := rfl

theorem not_le_zero {n : UInt32} (h : 0 < n.toNat) : ¬ n ≤ 0 := by
  intro hle
  have hle' : n.toNat ≤ 0 := hle
  omega

/-- The encrypted blocks of a text packed with its length. -/
structure Sealed (aes : Aes) (plain : Bytes) (n : UInt32) (enc : List UInt8) :
    Prop where
  length : enc.length = encryptLength n.toNat
  blocks : ∃ pData, Packed plain n pData
    ∧ ∀ i, i < (n.toNat + 4 + 15) / 16 →
      read (Block.ofList enc).bytes (16 * i) 16
        = aes.encrypt (aes.setEncryptKey getStpCryptKey.2 256)
          (read pData.bytes (16 * i) 16)

section

variable {aes : Aes} {ndebug : Bool} {heap : Nat → Bytes} {gClntOrSvr : Int}
  {plain : Bytes} {n : UInt32}

/-- A run of bytes, read from the bytes themselves. -/
theorem read_ofList_read {m : Bytes} {total off k : Nat} (h : off + k ≤ total) :
    read (Block.ofList (read m 0 total)).bytes off k = read m off k := by
  refine read_congr ?_
  intro i hi
  have hlt : off + i < (read m 0 total).length := by
    rw [length_read]
    omega
  show (read m 0 total).getD (off + i) 0 = m (off + i)
  rw [List.getD_eq_getElem _ _ hlt, getElem_read, Nat.zero_add]

/-- `EncryptPlain` up to `strEnc`, the encrypted blocks. -/
def strEnc (aes : Aes) (heap : Nat → Bytes) (plain : Bytes) (plainLen : UInt32) :
    Except Fault (List UInt8) := do
  let blocks := blockCount plainLen
  let encryptLen := blocks * 16
  let pData ← inBounds ((Block.zeroed encryptLen.toNat).store 0
    (read plain 0 plainLen.toNat))
  let pData ← inBounds (pData.store (encryptLen.toNat - 4) (writeUint32 plainLen))
  let aesKey := aes.setEncryptKey getStpCryptKey.2 256
  let pEncData ← inBounds (cryptBlocks (aes.encrypt aesKey) pData blocks.toNat
    ⟨encryptLen.toNat, heap 0⟩)
  .ok (read pEncData.bytes 0 encryptLen.toNat)

/-- A call that passes the checks, from the encrypted blocks on. -/
theorem encryptPlain_eq (hg : gClntOrSvr ≠ -1) (hn : 0 < n.toNat) :
    encryptPlain aes ndebug heap gClntOrSvr (some plain) n = (do
      let enc ← strEnc aes heap plain n
      let strDec ← base64Encode ndebug enc
      let cipherLen := UInt32.ofNat strDec.length
      let pTmp ← inBounds (Block.store ⟨(cipherLen + 1).toNat, heap 1⟩ 0
        (strDec.take cipherLen.toNat))
      let pTmp ← inBounds (pTmp.store cipherLen.toNat [0])
      .ok ⟨0, some pTmp, some cipherLen⟩) := by
  simp only [encryptPlain, if_neg (not_le_zero hn), if_neg hg, strEnc, bind_assoc,
    ok_bind]

/-- **THE BLOCKS ARE SEALED** when their length has 32 bits. -/
theorem strEnc_ok (hwrap : n.toNat + 19 < 0x100000000) :
    ∃ enc, strEnc aes heap plain n = .ok enc ∧ Sealed aes plain n enc := by
  have hlen : (blockCount n * 16).toNat = encryptLength n.toNat :=
    encryptLength_toNat hwrap
  have hblocks : (blockCount n).toNat = (n.toNat + 4 + 15) / 16 :=
    blockCount_toNat (by omega)
  obtain ⟨pText, pData, hfirst, hsecond, hpacked⟩ := packed_stores plain hwrap
  obtain ⟨pEncData, hcrypt, -, henc⟩ := @cryptBlocks_spec
    (aes.encrypt (aes.setEncryptKey getStpCryptKey.2 256)) pData
    ⟨encryptLength n.toNat, heap 0⟩ ((n.toNat + 4 + 15) / 16)
    (aes.length_encrypt _)
    (by rw [hpacked.size, encryptLength]; omega)
    (by show _ ≤ encryptLength n.toNat; rw [encryptLength]; omega)
    (by omega)
  refine ⟨read pEncData.bytes 0 (encryptLength n.toNat), ?_, length_read, pData,
    hpacked, ?_⟩
  · simp only [strEnc, hlen, hblocks, hfirst, hsecond, hcrypt, inBounds_some, ok_bind]
  · intro i hi
    rw [read_ofList_read (by rw [encryptLength]; omega)]
    exact henc i hi

/-- The base64 text of sealed blocks. -/
theorem base64Encode_sealed {enc : List UInt8} (ndebug : Bool)
    (hsealed : Sealed aes plain n enc) (hwrap : n.toNat + 19 < 0x100000000) :
    ∃ text ds, base64Encode ndebug enc = .ok text ∧ TextOf enc ds text
      ∧ text.length = cipherLength n.toNat := by
  have henclen := hsealed.length
  obtain ⟨text, ds, hbase64, htext⟩ := base64Encode_text (x := enc) ndebug
    (by
      intro hnil
      rw [hnil, encryptLength, List.length_nil] at henclen
      omega)
    (by rw [henclen, encryptLength]; omega)
  refine ⟨text, ds, hbase64, htext, ?_⟩
  rw [htext.length, henclen, cipherLength]

/-- **ENCRYPTION SUCCEEDS** on every text whose cipher text has a 32-bit length. -/
theorem encryptPlain_ok (hg : gClntOrSvr ≠ -1) (hn : 0 < n.toNat)
    (hfits : cipherLength n.toNat < 0x100000000) :
    ∃ enc ds text cipher,
      encryptPlain aes ndebug heap gClntOrSvr (some plain) n
          = .ok ⟨0, some cipher, some (UInt32.ofNat text.length)⟩
        ∧ strEnc aes heap plain n = .ok enc ∧ base64Encode ndebug enc = .ok text
        ∧ Sealed aes plain n enc ∧ TextOf enc ds text ∧ HoldsText cipher text
        ∧ text.length = cipherLength n.toNat := by
  have hwrap : n.toNat + 19 < 0x100000000 := by
    rw [cipherLength, encryptLength] at hfits
    omega
  obtain ⟨enc, henc, hsealed⟩ := @strEnc_ok aes heap plain n hwrap
  obtain ⟨text, ds, hbase64, htext, htextlen⟩ :=
    base64Encode_sealed ndebug hsealed hwrap
  have hcount : (UInt32.ofNat text.length).toNat = text.length :=
    UInt32.toNat_ofNat_of_lt' (by rw [htextlen]; exact hfits)
  -- `malloc` is asked for one byte more, and that does not wrap either
  have hmalloc : (UInt32.ofNat text.length + 1).toNat = text.length + 1 := by
    rw [UInt32.toNat_add, hcount]
    show (text.length + 1) % 0x100000000 = _
    rw [cipherLength] at htextlen hfits
    omega
  obtain ⟨pChars, cipher, hchars, hzero, hholds⟩ :=
    holdsText_stores text (heap 1)
  refine ⟨enc, ds, text, cipher, ?_, henc, hbase64, hsealed, htext, hholds,
    htextlen⟩
  rw [encryptPlain_eq hg hn]
  simp only [henc, hbase64, hcount, hmalloc, List.take_length, hchars, hzero,
    inBounds_some, ok_bind]

theorem encryptLength_eq (n : Nat) :
    encryptLength n = 16 * ((n + 4 + 15) / 16) := by
  rw [encryptLength, Nat.mul_comm]

/-- The arithmetic of `DecryptCipher` on the length of whole blocks. -/
theorem decodedLength {nLen : UInt32} {m : Nat}
    (hcount : nLen.toNat = encryptLength m)
    (hlen : encryptLength m + 1 < 0x100000000) :
    nLen ≠ 0 ∧ nLen % 16 = 0 ∧ (nLen / 16).toNat = (m + 4 + 15) / 16
      ∧ (nLen + 1).toNat = encryptLength m + 1 := by
  have hsixteen := encryptLength_eq m
  refine ⟨?_, ?_, ?_, ?_⟩
  · intro hzero
    rw [hzero] at hcount
    have hcount' : 0 = encryptLength m := hcount
    omega
  · refine UInt32.toNat_inj.mp ?_
    rw [UInt32.toNat_mod, hcount, hsixteen]
    exact Nat.mul_mod_right 16 _
  · rw [UInt32.toNat_div, hcount, hsixteen]
    exact Nat.mul_div_cancel_left _ (by decide)
  · rw [UInt32.toNat_add, hcount]
    exact Nat.mod_eq_of_lt hlen

/-- **BLOCK BY BLOCK** what was packed comes back. -/
theorem decrypted_blocks {enc : List UInt8} (hinv : aes.Inverts)
    (hsealed : Sealed aes plain n enc)
    (hlen : encryptLength n.toNat < 0x100000000) (heap : Bytes) :
    ∃ pTmp, cryptBlocks (aes.decrypt (aes.setDecryptKey getStpCryptKey.2 256))
        (Block.ofList enc) ((n.toNat + 4 + 15) / 16)
        ⟨encryptLength n.toNat + 1, heap⟩ = some pTmp
      ∧ pTmp.size = encryptLength n.toNat + 1
      ∧ read pTmp.bytes 0 n.toNat = read plain 0 n.toNat
      ∧ read pTmp.bytes (encryptLength n.toNat - 4) 4 = writeUint32 n := by
  obtain ⟨pData, hpacked, hblocks⟩ := hsealed.blocks
  have henclen := hsealed.length
  have hsixteen := encryptLength_eq n.toNat
  obtain ⟨pTmp, hcrypt, hsize, hdec⟩ := @cryptBlocks_spec
    (aes.decrypt (aes.setDecryptKey getStpCryptKey.2 256)) (Block.ofList enc)
    ⟨encryptLength n.toNat + 1, heap⟩ ((n.toNat + 4 + 15) / 16)
    (aes.length_decrypt _)
    (by show _ ≤ enc.length; omega)
    (by show _ ≤ encryptLength n.toNat + 1; omega)
    (by omega)
  -- block by block the decryption undoes the encryption
  have hsame : read pTmp.bytes 0 (encryptLength n.toNat)
      = read pData.bytes 0 (encryptLength n.toNat) := by
    rw [hsixteen]
    refine read_of_blocks ?_
    intro i hi
    rw [hdec i hi, hblocks i hi]
    exact hinv _ _ rfl length_read
  have hbytes : ∀ off k, off + k ≤ encryptLength n.toNat →
      read pTmp.bytes off k = read pData.bytes off k := by
    intro off k hk
    refine read_congr ?_
    intro i hi
    have hbyte := apply_of_read hsame (show off + i < encryptLength n.toNat by omega)
    rw [Nat.zero_add] at hbyte
    exact hbyte
  refine ⟨pTmp, hcrypt, hsize, ?_, ?_⟩
  · rw [hbytes 0 _ (by omega), hpacked.text]
  · rw [hbytes _ _ (by omega), hpacked.trailer]

/-- **DECRYPTION** gives a sealed text back. -/
theorem decryptCipher_ok {enc text : List UInt8} {ds : List Nat} {cipher : Bytes}
    {len : UInt32} {heap : Bytes} (hinv : aes.Inverts)
    (hlen : encryptLength n.toNat + 1 < 0x100000000)
    (hsealed : Sealed aes plain n enc) (htext : TextOf enc ds text)
    (hpos : 0 < len.toNat) (hread : read cipher 0 len.toNat = text) :
    ∃ out, decryptCipher aes heap (some cipher) len = .ok ⟨0, some out, some n⟩
      ∧ out.load 0 (n.toNat + 1) = some (read plain 0 n.toNat ++ [0]) := by
  have henclen := hsealed.length
  have hroom : n.toNat + 4 ≤ encryptLength n.toNat := by
    rw [encryptLength]
    omega
  obtain ⟨nLen, hnLen⟩ : ∃ nLen, nLen = UInt32.ofNat enc.length := ⟨_, rfl⟩
  have hcount : nLen.toNat = encryptLength n.toNat := by
    rw [hnLen, henclen]
    exact UInt32.toNat_ofNat_of_lt'
      (show encryptLength n.toNat < 0x100000000 by omega)
  obtain ⟨hnonzero, hwhole, hrounds, hmalloc⟩ := decodedLength hcount hlen
  obtain ⟨pTmp, hcrypt, hsize, hplain, htrailer⟩ :=
    decrypted_blocks hinv hsealed (by omega) heap
  have hload : pTmp.load (encryptLength n.toNat - 4) 4 = some (writeUint32 n) := by
    rw [load_some (by omega), htrailer]
  have hstore : pTmp.store n.toNat [0]
      = some ⟨pTmp.size, write pTmp.bytes n.toNat [0]⟩ :=
    store_some (by rw [hsize, List.length_singleton]; omega)
  -- the trailer is no longer than the cipher, so `-4` is not returned
  have hle : ¬ n > nLen := by
    intro hgt
    have hgt' : nLen.toNat < n.toNat := hgt
    omega
  have hpos' := not_le_zero hpos
  refine ⟨⟨pTmp.size, write pTmp.bytes n.toNat [0]⟩, ?_, ?_⟩
  · simp only [decryptCipher, if_neg hpos', hread, base64Decode_text htext, ← hnLen,
      if_neg hnonzero, hwhole, ne_eq, not_true_eq_false, if_false, hrounds, hmalloc,
      hcrypt, hcount, hload, readUint32_writeUint32, if_neg hle, hstore,
      inBounds_some, ok_bind]
  · have hin : 0 + (n.toNat + 1) ≤ pTmp.size := by omega
    rw [@load_some ⟨pTmp.size, write pTmp.bytes n.toNat [0]⟩ _ _ hin, read_append,
      Nat.zero_add]
    refine congrArg some (congrArg₂ (· ++ ·) ?_ (read_write_self rfl))
    show read (write _ _ _) 0 n.toNat = _
    rw [read_write_apart (Or.inl (by omega)), hplain]

/-- Base64 text has no zero byte. -/
theorem text_ne_zero {enc text : List UInt8} {ds : List Nat}
    (h : TextOf enc ds text) : (0 : UInt8) ∉ text := by
  obtain ⟨k, hchars⟩ := h.chars
  rw [hchars]
  intro hmem
  rcases List.mem_append.mp hmem with hmem | hmem
  · obtain ⟨d, hd, hzero⟩ := List.mem_map.mp hmem
    obtain ⟨-, -, hrev⟩ := reverse_b64Char (h.digits d hd)
    rw [hzero] at hrev
    have hlt := h.digits d hd
    have hrev' : 64 = d := hrev
    omega
  · cases List.eq_of_mem_replicate hmem

theorem readCString_of_holdsText {b : Block} {text : List UInt8}
    (h : HoldsText b text) (hzero : (0 : UInt8) ∉ text) :
    readCString b.bytes 0 b.size = some text := by
  refine @readCString_of_read _ _ _ _ [] ?_ hzero
  rw [h.size, read_append, h.chars, Nat.zero_add]
  refine congrArg (text ++ ·) ?_
  rw [← h.terminated]
  rfl

/-- **DECRYPTION UNDOES ENCRYPTION**, for every text of `n` bytes whose cipher
    text has a 32-bit length. -/
theorem decrypt_encrypt (hinv : aes.Inverts) (ndebug : Bool) (heap : Nat → Bytes)
    (heap' : Bytes) (hg : gClntOrSvr ≠ -1) (hn : 1 ≤ n.toNat)
    (hfits : cipherLength n.toNat < 0x100000000) :
    ∃ cipher len,
      encryptPlain aes ndebug heap gClntOrSvr (some plain) n
          = .ok ⟨0, some cipher, some len⟩
        ∧ len.toNat = cipherLength n.toNat
        ∧ readCString cipher.bytes 0 cipher.size
          = some (read cipher.bytes 0 len.toNat)
        ∧ ∃ out, decryptCipher aes heap' (some cipher.bytes) len
            = .ok ⟨0, some out, some n⟩
          ∧ out.load 0 (n.toNat + 1) = some (read plain 0 n.toNat ++ [0]) := by
  obtain ⟨enc, ds, text, cipher, hcall, -, -, hsealed, htext, hholds, hlen⟩ :=
    @encryptPlain_ok aes ndebug heap gClntOrSvr plain n hg hn hfits
  have hcount : (UInt32.ofNat text.length).toNat = text.length :=
    UInt32.toNat_ofNat_of_lt' (by rw [hlen]; exact hfits)
  have hread : read cipher.bytes 0 (UInt32.ofNat text.length).toNat = text := by
    rw [hcount]
    exact hholds.chars
  refine ⟨cipher, UInt32.ofNat text.length, hcall, by rw [hcount, hlen], ?_, ?_⟩
  · rw [hread]
    exact readCString_of_holdsText hholds (text_ne_zero htext)
  · have hpad : encryptLength n.toNat + 1 < 0x100000000 := by
      rw [cipherLength] at hfits
      omega
    have hpos : 0 < (UInt32.ofNat text.length).toNat := by
      rw [hcount, hlen, cipherLength, encryptLength]
      omega
    exact decryptCipher_ok hinv hpad hsealed htext hpos hread

end

/-- The text of the library's own test, as two blocks with its length, and the
    blocks AES makes of them under the key. -/
def testBlock : List UInt8 := ascii "1234qwerty4321" ++ [0, 0]

def testBlock' : List UInt8 := List.replicate 15 0 ++ [14]

def testCipher : List UInt8 :=
  [0x26, 0xe3, 0x45, 0x4a, 0x66, 0x34, 0x1d, 0xd9,
    0xfd, 0x7d, 0x20, 0xe2, 0x2e, 0xb0, 0x5d, 0xb3]

def testCipher' : List UInt8 :=
  [0x75, 0x97, 0xad, 0x91, 0x5f, 0x57, 0xe5, 0x01,
    0xa3, 0x7e, 0xef, 0x73, 0x12, 0xff, 0x35, 0x46]

/-- AES on the blocks of the test, and nothing on other blocks. -/
def testCrypt (block : List UInt8) : List UInt8 :=
  if block = testBlock then testCipher
  else if block = testBlock' then testCipher'
  else if block = testCipher then testBlock
  else if block = testCipher' then testBlock'
  else if block.length = 16 then block
  else List.replicate 16 0

theorem length_testCrypt (block : List UInt8) : (testCrypt block).length = 16 := by
  rw [testCrypt]
  split
  · rfl
  · split
    · rfl
    · split
      · rfl
      · split
        · rfl
        · split
          · assumption
          · rfl

/-- The block functions of the example. -/
def testAes : Aes where
  AesKey := Unit
  setEncryptKey := fun _ _ => ()
  setDecryptKey := fun _ _ => ()
  encrypt := fun _ => testCrypt
  decrypt := fun _ => testCrypt
  length_encrypt := fun _ => length_testCrypt
  length_decrypt := fun _ => length_testCrypt

theorem testAes_inverts : testAes.Inverts := by
  intro _ block _ hlen
  show testCrypt (testCrypt block) = block
  by_cases h₁ : block = testBlock
  · rw [h₁]
    rfl
  · by_cases h₂ : block = testBlock'
    · rw [h₂]
      rfl
    · by_cases h₃ : block = testCipher
      · rw [h₃]
        rfl
      · by_cases h₄ : block = testCipher'
        · rw [h₄]
          rfl
        · simp only [testCrypt, if_neg h₁, if_neg h₂, if_neg h₃, if_neg h₄,
            if_pos hlen]

theorem decrypt_encrypt_testText :
    ∃ cipher len,
      encryptPlain testAes false (fun _ _ => 0) 0
          (some (Block.ofList (ascii "1234qwerty4321")).bytes) 14
          = .ok ⟨0, some cipher, some len⟩
        ∧ len.toNat = cipherLength 14
        ∧ readCString cipher.bytes 0 cipher.size
          = some (read cipher.bytes 0 len.toNat)
        ∧ ∃ out, decryptCipher testAes (fun _ => 0) (some cipher.bytes) len
            = .ok ⟨0, some out, some 14⟩
          ∧ out.load 0 (14 + 1)
            = some (read (Block.ofList (ascii "1234qwerty4321")).bytes 0 14 ++ [0]) :=
  decrypt_encrypt testAes_inverts false (fun _ _ => 0) (fun _ => 0)
    (show (0 : Int) ≠ -1 by decide) (show 1 ≤ UInt32.toNat 14 by decide)
    (show cipherLength 14 < 0x100000000 by decide)

end StpCrypto
