import StpPlatform.AesCorrect
import StpPlatform.StpCrypto

/-! # The encryption library with its AES

    `EncryptPlain` and `DecryptCipher` over the code of `aes_core.c`: nothing is
    assumed of AES any more (`codeAes_inverts`).  The cipher text is the blocks of
    the padded text, each through Rijndael under the one key (`encryptPlain_ecb`).

    There is no more to it, and that can be seen from outside: the cipher text
    does not depend on anything but the text (`cipher_eq_iff`), and two of its
    blocks are equal when two blocks of the text are (`cipher_blocks_eq_iff`). -/

namespace CryptoAes

open ByteMemory Base64 StpCrypto AesCore Rijndael

/-- The code of `stputil/security/aes`, an `AES_KEY` of the caller holding `junk`
    before it is set. -/
def codeAes (junk : AesKey) : Aes where
  AesKey := AesKey
  setEncryptKey userKey bits := (aesSetEncryptKey (some userKey) bits (some junk)).2.getD junk
  setDecryptKey userKey bits := (aesSetDecryptKey (some userKey) bits (some junk)).2.getD junk
  encrypt key block := aesEncrypt block key
  decrypt key block := aesDecrypt block key
  length_encrypt _ _ := rfl
  length_decrypt _ _ := rfl

/-- One block through the cipher, under the library's key. -/
def rijndael (block : List UInt8) : List UInt8 :=
  toBytes (cipher 8 (keyColumns getStpCryptKey.2) (ofBytes block))

/-- Its inverse, on blocks as bytes. -/
def invRijndael (block : List UInt8) : List UInt8 :=
  toBytes (invCipher 8 (keyColumns getStpCryptKey.2) (ofBytes block))

section

variable (junk : AesKey)

/-- **ENCRYPTION OF ONE BLOCK** with the schedule that `AES_set_encrypt_key`
    makes. -/
theorem codeAes_encrypt :
    (codeAes junk).encrypt ((codeAes junk).setEncryptKey getStpCryptKey.2 256)
      = rijndael := by
  obtain ⟨ek, _, hset, -, hencrypt, -⟩ :=
    aesKeys .bits256 getStpCryptKey.2 junk junk
  have hkey : (codeAes junk).setEncryptKey getStpCryptKey.2 256 = ek :=
    congrArg (fun p => p.2.getD junk) hset
  rw [hkey]
  exact funext hencrypt

/-- **DECRYPTION OF ONE BLOCK** with that of `AES_set_decrypt_key`. -/
theorem codeAes_decrypt :
    (codeAes junk).decrypt ((codeAes junk).setDecryptKey getStpCryptKey.2 256)
      = invRijndael := by
  obtain ⟨_, dk, -, hset, -, hdecrypt⟩ :=
    aesKeys .bits256 getStpCryptKey.2 junk junk
  have hkey : (codeAes junk).setDecryptKey getStpCryptKey.2 256 = dk :=
    congrArg (fun p => p.2.getD junk) hset
  rw [hkey]
  exact funext hdecrypt

/-- **WHAT THE LIBRARY RELIES ON** holds of the code. -/
theorem codeAes_inverts : (codeAes junk).Inverts := by
  intro userKey block _ hlen
  obtain ⟨ek, dk, hset, hset', hencrypt, hdecrypt⟩ := aesKeys .bits256 userKey junk junk
  have hkey : (codeAes junk).setEncryptKey userKey 256 = ek :=
    congrArg (fun p => p.2.getD junk) hset
  have hkey' : (codeAes junk).setDecryptKey userKey 256 = dk :=
    congrArg (fun p => p.2.getD junk) hset'
  rw [hkey, hkey']
  show aesDecrypt (aesEncrypt block ek) dk = block
  rw [hencrypt, hdecrypt, ofBytes_toBytes, invCipher, cipher,
    SubstitutionNetwork.Network.decipher_cipher, toBytes_ofBytes hlen]

end

theorem invRijndael_rijndael {block : List UInt8} (h : block.length = 16) :
    invRijndael (rijndael block) = block := by
  rw [invRijndael, rijndael, ofBytes_toBytes, invCipher, cipher,
    SubstitutionNetwork.Network.decipher_cipher, toBytes_ofBytes h]

theorem rijndael_inj {block block' : List UInt8} (h : block.length = 16)
    (h' : block'.length = 16) (heq : rijndael block = rijndael block') :
    block = block' := by
  rw [← invRijndael_rijndael h, heq, invRijndael_rijndael h']

/-! ## The padded text -/

/-- The memory of `pData`: the text, zeros, and the length. -/
def padded (plain : Bytes) (n : UInt32) : Bytes :=
  write (write (fun _ => 0) 0 (read plain 0 n.toNat)) (encryptLength n.toNat - 4)
    (writeUint32 n)

/-- How many blocks it has. -/
def padCount (n : UInt32) : ℕ := (n.toNat + 4 + 15) / 16

/-- Its blocks, enciphered. -/
def ecb (plain : Bytes) (n : UInt32) : List UInt8 :=
  (List.range (padCount n)).flatMap fun i => rijndael (read (padded plain n) (16 * i) 16)

section

variable {junk : AesKey} {heap : Nat → Bytes} {plain plain' : Bytes} {n n' : UInt32}

theorem length_rijndael (block : List UInt8) : (rijndael block).length = 16 := rfl

/-- **THE BLOCKS** that `EncryptPlain` writes. -/
theorem strEnc_ecb (hwrap : n.toNat + 19 < 0x100000000) :
    strEnc (codeAes junk) heap plain n = .ok (ecb plain n) := by
  have hlen : (blockCount n * 16).toNat = encryptLength n.toNat :=
    encryptLength_toNat hwrap
  have hblocks : (blockCount n).toNat = padCount n := blockCount_toNat (by omega)
  have hsixteen : encryptLength n.toNat = 16 * padCount n := encryptLength_eq n.toNat
  have hroom : n.toNat + 4 ≤ encryptLength n.toNat := by
    rw [encryptLength]
    omega
  have hfirst : (Block.zeroed (encryptLength n.toNat)).store 0 (read plain 0 n.toNat)
      = some ⟨encryptLength n.toNat, write (fun _ => 0) 0 (read plain 0 n.toNat)⟩ :=
    store_some (by
      rw [length_read, Nat.zero_add]
      show _ ≤ encryptLength n.toNat
      omega)
  have hsecond : Block.store
      ⟨encryptLength n.toNat, write (fun _ => 0) 0 (read plain 0 n.toNat)⟩
      (encryptLength n.toNat - 4) (writeUint32 n)
      = some ⟨encryptLength n.toNat, padded plain n⟩ :=
    store_some (by
      show encryptLength n.toNat - 4 + 4 ≤ encryptLength n.toNat
      omega)
  obtain ⟨pEncData, hcrypt, -, henc⟩ := @cryptBlocks_spec rijndael
    ⟨encryptLength n.toNat, padded plain n⟩ ⟨encryptLength n.toNat, heap 0⟩ (padCount n)
    length_rijndael
    (by show _ ≤ encryptLength n.toNat; omega)
    (by show _ ≤ encryptLength n.toNat; omega)
    (by rw [encryptLength] at hsixteen; omega)
  have hread : read pEncData.bytes 0 (encryptLength n.toNat) = ecb plain n := by
    rw [hsixteen, ecb]
    exact read_flatMap henc
  simp only [strEnc, hlen, hblocks, hfirst, inBounds_some, ok_bind, hsecond,
    codeAes_encrypt, hcrypt, hread]

/-- The text that is returned, and what it is the base64 of. -/
theorem encryptPlain_code (ndebug : Bool) {gClntOrSvr : Int} (hg : gClntOrSvr ≠ -1)
    (hn : 1 ≤ n.toNat) (hfits : cipherLength n.toNat < 0x100000000) :
    ∃ cipher len ds, encryptPlain (codeAes junk) ndebug heap gClntOrSvr (some plain) n
        = .ok ⟨0, some cipher, some len⟩
      ∧ TextOf (ecb plain n) ds (read cipher.bytes 0 len.toNat)
      ∧ base64Encode ndebug (ecb plain n) = .ok (read cipher.bytes 0 len.toNat)
      ∧ Sealed (codeAes junk) plain n (ecb plain n) := by
  have hwrap : n.toNat + 19 < 0x100000000 := by
    rw [cipherLength, encryptLength] at hfits
    omega
  obtain ⟨enc, ds, text, cipher, hcall, henc, hbase64, hsealed, htext, hholds, hlen⟩ :=
    @encryptPlain_ok (codeAes junk) ndebug heap gClntOrSvr plain n hg hn hfits
  have hecb : enc = ecb plain n := Except.ok.inj (henc.symm.trans (strEnc_ecb hwrap))
  have hcount : (UInt32.ofNat text.length).toNat = text.length :=
    UInt32.toNat_ofNat_of_lt' (by rw [hlen]; exact hfits)
  refine ⟨cipher, _, ds, hcall, ?_, ?_, ?_⟩
  · rw [hcount, hholds.chars, ← hecb]
    exact htext
  · rw [hcount, hholds.chars, ← hecb]
    exact hbase64
  · rw [← hecb]
    exact hsealed

/-- What `DecryptCipher` returns for a text of `EncryptPlain`. -/
theorem decryptCipher_code {ds : List Nat} {cipher : Bytes} {len : UInt32} {heap' : Bytes}
    (hn : 1 ≤ n.toNat) (hfits : cipherLength n.toNat < 0x100000000)
    (hsealed : Sealed (codeAes junk) plain n (ecb plain n))
    (htext : TextOf (ecb plain n) ds (read cipher 0 len.toNat)) :
    ∃ out, decryptCipher (codeAes junk) heap' (some cipher) len
        = .ok ⟨0, some out, some n⟩
      ∧ out.load 0 (n.toNat + 1) = some (read plain 0 n.toNat ++ [0]) := by
  have hpad : encryptLength n.toNat + 1 < 0x100000000 := by
    rw [cipherLength] at hfits
    omega
  have hpos : 0 < len.toNat := by
    have hlen := htext.length
    rw [length_read, hsealed.length, encryptLength] at hlen
    omega
  exact decryptCipher_ok (codeAes_inverts junk) hpad hsealed htext hpos rfl

end

/-! ## What can be seen from outside -/

/-- The `i`-th block of 16 bytes. -/
def blockAt (x : List UInt8) (i : ℕ) : List UInt8 := (x.drop (16 * i)).take 16

/-- So many blocks are so many times 16 bytes. -/
theorem length_flatMap_blocks {f : ℕ → List UInt8} (hf : ∀ i, (f i).length = 16) (k : ℕ) :
    ((List.range k).flatMap f).length = 16 * k := by
  induction k with
  | zero => rfl
  | succ k ih =>
      rw [List.range_succ, List.flatMap_append, List.length_append, ih,
        List.flatMap_singleton, hf]
      omega

/-- A block of blocks that were put one behind the other. -/
theorem blockAt_flatMap {f : ℕ → List UInt8} (hf : ∀ i, (f i).length = 16) {i k : ℕ}
    (h : i < k) : blockAt ((List.range k).flatMap f) i = f i := by
  induction k with
  | zero => exact absurd h i.not_lt_zero
  | succ k ih =>
      have hlen := length_flatMap_blocks hf
      rw [blockAt, List.range_succ, List.flatMap_append, List.flatMap_singleton]
      obtain hlt | rfl := Nat.lt_succ_iff_lt_or_eq.mp h
      · rw [List.drop_append_of_le_length (by rw [hlen]; omega),
          List.take_append_of_le_length (by rw [List.length_drop, hlen]; omega)]
        exact ih hlt
      · rw [List.drop_left' (hlen i), List.take_of_length_le (by rw [hf])]

section

variable {plain plain' : Bytes} {n n' : UInt32}

/-- Block `i` of the cipher is made of block `i` of the padded text alone. -/
theorem blockAt_ecb {i : ℕ} (h : i < padCount n) :
    blockAt (ecb plain n) i = rijndael (read (padded plain n) (16 * i) 16) :=
  blockAt_flatMap (fun _ => rfl) h

theorem length_ecb : (ecb plain n).length = 16 * padCount n :=
  length_flatMap_blocks (fun _ => rfl) (padCount n)

/-- The padded text begins with the text. -/
theorem read_padded_text : read (padded plain n) 0 n.toNat = read plain 0 n.toNat := by
  have hroom : n.toNat + 4 ≤ encryptLength n.toNat := by
    rw [encryptLength]
    omega
  rw [padded, read_write_apart (Or.inl (by omega))]
  exact read_write_self length_read

/-- A padded text names the text, its length being in the last bytes. -/
theorem padded_inj (hcount : padCount n = padCount n')
    (h : read (padded plain n) 0 (16 * padCount n)
      = read (padded plain' n') 0 (16 * padCount n)) :
    read plain 0 n.toNat = read plain' 0 n'.toNat := by
  have hsize : encryptLength n.toNat = 16 * padCount n := encryptLength_eq n.toNat
  have hsize' : encryptLength n'.toNat = 16 * padCount n := by
    rw [hcount]
    exact encryptLength_eq n'.toNat
  have hbytes : ∀ off k, off + k ≤ 16 * padCount n →
      read (padded plain n) off k = read (padded plain' n') off k := by
    intro off k hk
    refine read_congr fun i hi => ?_
    have hbyte := apply_of_read h (show off + i < 16 * padCount n by omega)
    rwa [Nat.zero_add] at hbyte
  have hroom : n.toNat + 4 ≤ encryptLength n.toNat := by
    rw [encryptLength]
    omega
  have htrailer : writeUint32 n = writeUint32 n' := by
    have hlast := hbytes (encryptLength n.toNat - 4) 4 (by omega)
    have hown : read (padded plain' n') (encryptLength n.toNat - 4) 4 = writeUint32 n' := by
      rw [hsize, ← hsize']
      exact read_write_self rfl
    rw [hown] at hlast
    rw [← hlast]
    exact (read_write_self rfl).symm
  have hn : n = n' := by
    rw [← readUint32_writeUint32 n, htrailer, readUint32_writeUint32]
  have htext := hbytes 0 n.toNat (by omega)
  rw [read_padded_text] at htext
  rw [htext, hn, read_padded_text]

/-- Enciphered blocks are equal when the blocks are. -/
theorem blockAt_ecb_eq_iff {i j : ℕ} (hi : i < padCount n) (hj : j < padCount n') :
    blockAt (ecb plain n) i = blockAt (ecb plain' n') j
      ↔ read (padded plain n) (16 * i) 16 = read (padded plain' n') (16 * j) 16 := by
  rw [blockAt_ecb hi, blockAt_ecb hj]
  exact ⟨rijndael_inj length_read length_read, congrArg rijndael⟩

/-- The blocks name the text: its length is in the last of them. -/
theorem ecb_eq_iff :
    ecb plain n = ecb plain' n' ↔ read plain 0 n.toNat = read plain' 0 n'.toNat := by
  constructor
  · intro heq
    have hcount : padCount n = padCount n' := by
      have hlen := congrArg List.length heq
      rw [length_ecb, length_ecb] at hlen
      omega
    refine padded_inj hcount (read_of_blocks fun i hi => ?_)
    refine (blockAt_ecb_eq_iff hi (hcount ▸ hi)).mp ?_
    rw [heq]
  · intro heq
    have hn : n = n' := by
      have hlen := congrArg List.length heq
      rw [length_read, length_read] at hlen
      exact UInt32.toNat_inj.mp hlen
    have hpadded : padded plain n = padded plain' n' := by
      rw [padded, padded, heq, hn]
    rw [ecb, ecb, hpadded, hn]

end

/-- An `AES_KEY` that holds zeros, and the text of the library's own test. -/
def zeroKey : AesKey := ⟨Vector.replicate 60 0, 0⟩

/-- The text of the library's own test. -/
def testText : Bytes := (Block.ofList (ascii "1234qwerty4321")).bytes

/-- **THE LIBRARY IS RIJNDAEL, BLOCK BY BLOCK**: what `EncryptPlain` returns is
    the base64 of the blocks of the padded text, each through AES-256 under the
    constant key, and `DecryptCipher` makes the text of it again. -/
theorem encryptPlain_ecb (junk : AesKey) (ndebug : Bool) (heap : Nat → Bytes)
    (heap' : Bytes) (plain : Bytes) {n : UInt32} {gClntOrSvr : Int} (hg : gClntOrSvr ≠ -1)
    (hn : 1 ≤ n.toNat) (hfits : cipherLength n.toNat < 0x100000000) :
    ∃ cipher len, encryptPlain (codeAes junk) ndebug heap gClntOrSvr (some plain) n
        = .ok ⟨0, some cipher, some len⟩
      ∧ base64Encode ndebug (ecb plain n) = .ok (read cipher.bytes 0 len.toNat)
      ∧ base64Decode (read cipher.bytes 0 len.toNat) = ecb plain n
      ∧ ∃ out, decryptCipher (codeAes junk) heap' (some cipher.bytes) len
          = .ok ⟨0, some out, some n⟩
        ∧ out.load 0 (n.toNat + 1) = some (read plain 0 n.toNat ++ [0]) := by
  -- the bytes that the code computes are these blocks
  obtain ⟨cipher, len, ds, hcall, htext, hbase64, hsealed⟩ :=
    @encryptPlain_code junk heap plain n ndebug gClntOrSvr hg hn hfits
  exact ⟨cipher, len, hcall, hbase64, base64Decode_text htext,
    decryptCipher_code hn hfits hsealed htext⟩

/-- A text of one block, which needs a second one for its length. -/
theorem encryptPlain_ecb_testText :
    ∃ cipher len, encryptPlain (codeAes zeroKey) false (fun _ _ => 0) 0 (some testText) 14
        = .ok ⟨0, some cipher, some len⟩
      ∧ base64Encode false (ecb testText 14) = .ok (read cipher.bytes 0 len.toNat)
      ∧ base64Decode (read cipher.bytes 0 len.toNat) = ecb testText 14
      ∧ ∃ out, decryptCipher (codeAes zeroKey) (fun _ => 0) (some cipher.bytes) len
          = .ok ⟨0, some out, some 14⟩
        ∧ out.load 0 (14 + 1) = some (read testText 0 14 ++ [0]) :=
  encryptPlain_ecb zeroKey false (fun _ _ => 0) (fun _ => 0) testText
    (show (0 : Int) ≠ -1 by decide) (show 1 ≤ UInt32.toNat 14 by decide)
    (show cipherLength 14 < 0x100000000 by decide)

/-- **ENCRYPTION IS A FUNCTION OF THE TEXT**, and a different one for each: two
    calls, whatever their memory held, return the same cipher text exactly for
    the same text. -/
theorem cipher_eq_iff (junk junk' : AesKey) (ndebug : Bool) (heap heap' : Nat → Bytes)
    (plain plain' : Bytes) {n n' : UInt32} {gClntOrSvr gClntOrSvr' : Int}
    (hg : gClntOrSvr ≠ -1) (hg' : gClntOrSvr' ≠ -1)
    (hn : 1 ≤ n.toNat) (hn' : 1 ≤ n'.toNat)
    (hfits : cipherLength n.toNat < 0x100000000)
    (hfits' : cipherLength n'.toNat < 0x100000000) :
    ∃ cipher len cipher' len',
      encryptPlain (codeAes junk) ndebug heap gClntOrSvr (some plain) n
          = .ok ⟨0, some cipher, some len⟩
        ∧ encryptPlain (codeAes junk') ndebug heap' gClntOrSvr' (some plain') n'
          = .ok ⟨0, some cipher', some len'⟩
        ∧ (read cipher.bytes 0 len.toNat = read cipher'.bytes 0 len'.toNat
          ↔ read plain 0 n.toNat = read plain' 0 n'.toNat) := by
  obtain ⟨cipher, len, ds, hcall, htext, hbase64, -⟩ :=
    @encryptPlain_code junk heap plain n ndebug gClntOrSvr hg hn hfits
  obtain ⟨cipher', len', ds', hcall', htext', hbase64', -⟩ :=
    @encryptPlain_code junk' heap' plain' n' ndebug gClntOrSvr' hg' hn' hfits'
  refine ⟨cipher, len, cipher', len', hcall, hcall', Iff.trans ?_ ecb_eq_iff⟩
  constructor
  · -- both directions go through the blocks
    intro heq
    rw [← base64Decode_text htext, heq, base64Decode_text htext']
  · intro heq
    rw [heq, hbase64'] at hbase64
    exact (Except.ok.inj hbase64).symm

/-- Of the same text once 14 and once 13 bytes. -/
theorem cipher_eq_iff_testText :
    ∃ cipher len cipher' len',
      encryptPlain (codeAes zeroKey) false (fun _ _ => 0) 0 (some testText) 14
          = .ok ⟨0, some cipher, some len⟩
        ∧ encryptPlain (codeAes zeroKey) false (fun _ _ => 1) 1 (some testText) 13
          = .ok ⟨0, some cipher', some len'⟩
        ∧ (read cipher.bytes 0 len.toNat = read cipher'.bytes 0 len'.toNat
          ↔ read testText 0 14 = read testText 0 13) :=
  cipher_eq_iff zeroKey zeroKey false (fun _ _ => 0) (fun _ _ => 1) testText testText
    (show (0 : Int) ≠ -1 by decide) (show (1 : Int) ≠ -1 by decide)
    (show 1 ≤ UInt32.toNat 14 by decide) (show 1 ≤ UInt32.toNat 13 by decide)
    (show cipherLength 14 < 0x100000000 by decide)
    (show cipherLength 13 < 0x100000000 by decide)

/-- **EQUAL BLOCKS SHOW**: of any two texts, or of one, two blocks of 16 bytes
    are equal exactly when the same two blocks under the base64 are. -/
theorem cipher_blocks_eq_iff (junk junk' : AesKey) (ndebug : Bool)
    (heap heap' : Nat → Bytes) (plain plain' : Bytes) {n n' : UInt32} {gClntOrSvr gClntOrSvr' : Int}
    (hg : gClntOrSvr ≠ -1) (hg' : gClntOrSvr' ≠ -1)
    (hn : 1 ≤ n.toNat) (hn' : 1 ≤ n'.toNat)
    (hfits : cipherLength n.toNat < 0x100000000)
    (hfits' : cipherLength n'.toNat < 0x100000000) :
    ∃ cipher len cipher' len',
      encryptPlain (codeAes junk) ndebug heap gClntOrSvr (some plain) n
          = .ok ⟨0, some cipher, some len⟩
        ∧ encryptPlain (codeAes junk') ndebug heap' gClntOrSvr' (some plain') n'
          = .ok ⟨0, some cipher', some len'⟩
        ∧ ∀ i j, i < padCount n → j < padCount n' →
          (blockAt (base64Decode (read cipher.bytes 0 len.toNat)) i
              = blockAt (base64Decode (read cipher'.bytes 0 len'.toNat)) j
            ↔ read (padded plain n) (16 * i) 16 = read (padded plain' n') (16 * j) 16) := by
  obtain ⟨cipher, len, ds, hcall, htext, -, -⟩ :=
    @encryptPlain_code junk heap plain n ndebug gClntOrSvr hg hn hfits
  obtain ⟨cipher', len', ds', hcall', htext', -, -⟩ :=
    @encryptPlain_code junk' heap' plain' n' ndebug gClntOrSvr' hg' hn' hfits'
  refine ⟨cipher, len, cipher', len', hcall, hcall', fun i j hi hj => ?_⟩
  rw [base64Decode_text htext, base64Decode_text htext']
  exact blockAt_ecb_eq_iff hi hj

/-- And the blocks that coincide. -/
theorem cipher_blocks_eq_iff_testText :
    ∃ cipher len cipher' len',
      encryptPlain (codeAes zeroKey) false (fun _ _ => 0) 0 (some testText) 14
          = .ok ⟨0, some cipher, some len⟩
        ∧ encryptPlain (codeAes zeroKey) false (fun _ _ => 1) 1 (some testText) 13
          = .ok ⟨0, some cipher', some len'⟩
        ∧ ∀ i j, i < padCount 14 → j < padCount 13 →
          (blockAt (base64Decode (read cipher.bytes 0 len.toNat)) i
              = blockAt (base64Decode (read cipher'.bytes 0 len'.toNat)) j
            ↔ read (padded testText 14) (16 * i) 16
              = read (padded testText 13) (16 * j) 16) :=
  cipher_blocks_eq_iff zeroKey zeroKey false (fun _ _ => 0) (fun _ _ => 1) testText testText
    (show (0 : Int) ≠ -1 by decide) (show (1 : Int) ≠ -1 by decide)
    (show 1 ≤ UInt32.toNat 14 by decide) (show 1 ≤ UInt32.toNat 13 by decide)
    (show cipherLength 14 < 0x100000000 by decide)
    (show cipherLength 13 < 0x100000000 by decide)

end CryptoAes
