import StpPlatform.CryptoAes
import StpPlatform.DecryptSafety

/-! # Cipher texts put together from blocks of others

    The blocks of a cipher text are enciphered one by one and nothing is signed,
    so whoever has seen cipher texts can make more of them without the key: any
    blocks of them in any order, closed by the last block of one that is not
    longer than the whole.  `DecryptCipher` returns the text that the blocks
    spell, with that block's length (`spliced_decrypts`). -/

namespace CipherSplicing

open ByteMemory Base64 StpCrypto DecryptSafety CryptoAes

/-! ## Blocks of texts -/

/-- A block of a text: which text, and which of its blocks. -/
structure Piece where
  plain : Bytes
  plainLen : UInt32
  index : ℕ

/-- What it says: 16 bytes of the padded text. -/
def Piece.block (p : Piece) : List UInt8 :=
  read (padded p.plain p.plainLen) (16 * p.index) 16

/-- It is the last one, with the length of the text. -/
def Piece.Closes (p : Piece) : Prop := p.index + 1 = padCount p.plainLen

/-- `c` is that block of a cipher text that `EncryptPlain` returned for the text,
    on whatever occasion. -/
structure CutFrom (junk : AesCore.AesKey) (p : Piece) (c : List UInt8) : Prop where
  fits : cipherLength p.plainLen.toNat < 0x100000000
  index : p.index < padCount p.plainLen
  returned : ∃ ndebug heap gClntOrSvr cipher len,
    encryptPlain (codeAes junk) ndebug heap gClntOrSvr (some p.plain) p.plainLen
        = .ok ⟨0, some cipher, some len⟩
      ∧ c = blockAt (base64Decode (read cipher.bytes 0 len.toNat)) p.index

section

variable {junk junk' : AesCore.AesKey} {p : Piece} {c : List UInt8}

/-- A call that returns `0` passed the checks. -/
theorem checks_of_encrypted {ndebug : Bool} {heap : ℕ → Bytes} {gClntOrSvr : Int}
    {plain : Bytes} {n : UInt32} {aes : Aes} {cipher : Option Block} {len : Option UInt32}
    (hcall : encryptPlain aes ndebug heap gClntOrSvr (some plain) n
      = .ok ⟨0, cipher, len⟩) : gClntOrSvr ≠ -1 ∧ 1 ≤ n.toNat := by
  rw [encryptPlain] at hcall
  by_cases hn : n ≤ 0
  · rw [if_pos hn] at hcall
    cases hcall
  · rw [if_neg hn] at hcall
    by_cases hg : gClntOrSvr = -1
    · rw [if_pos hg] at hcall
      cases hcall
    · exact ⟨hg, Nat.lt_of_not_le hn⟩

/-- **A PIECE OF A CIPHER TEXT** is the piece of the text, enciphered. -/
theorem CutFrom.eq_rijndael (h : CutFrom junk p c) : c = rijndael p.block := by
  obtain ⟨ndebug, heap, gClntOrSvr, cipher, len, hcall, hc⟩ := h.returned
  obtain ⟨hg, hn⟩ := checks_of_encrypted hcall
  obtain ⟨cipher', len', ds, hcall', htext, -, -⟩ :=
    @encryptPlain_code junk heap p.plain p.plainLen ndebug gClntOrSvr hg hn h.fits
  have hsame := Except.ok.inj (hcall.symm.trans hcall')
  have hcipher : cipher = cipher' := Option.some.inj (congrArg Encrypted.cipher hsame)
  have hlen : len = len' := Option.some.inj (congrArg Encrypted.cipherLen hsame)
  rw [hc, hcipher, hlen, base64Decode_text htext, blockAt_ecb h.index, Piece.block]

/-- Every block of a text can be had: somebody encrypts the text. -/
theorem cutFrom_rijndael (hn : 1 ≤ p.plainLen.toNat)
    (hfits : cipherLength p.plainLen.toNat < 0x100000000)
    (hindex : p.index < padCount p.plainLen) : CutFrom junk p (rijndael p.block) := by
  have hg : (0 : Int) ≠ -1 := by decide
  obtain ⟨cipher, len, ds, hcall, htext, -, -⟩ :=
    @encryptPlain_code junk (fun _ _ => 0) p.plain p.plainLen true 0 hg hn hfits
  refine ⟨hfits, hindex, true, fun _ _ => 0, 0, cipher, len, hcall, ?_⟩
  rw [base64Decode_text htext, blockAt_ecb hindex, Piece.block]

/-- The last piece ends with the length of its text. -/
theorem Piece.Closes.trailer (h : p.Closes) : p.block.drop 12 = writeUint32 p.plainLen := by
  have hclose : p.index + 1 = padCount p.plainLen := h
  have hsize : encryptLength p.plainLen.toNat = 16 * padCount p.plainLen :=
    encryptLength_eq p.plainLen.toNat
  have hend : 16 * p.index + 12 = encryptLength p.plainLen.toNat - 4 := by omega
  rw [Piece.block, show 16 = 12 + 4 from rfl, read_drop, hend]
  exact read_write_self rfl

end

/-! ## Decryption, block by block -/

/-- A run of the bytes of a string. -/
theorem read_ofList {x : List UInt8} {off n : ℕ} (h : off + n ≤ x.length) :
    read (Block.ofList x).bytes off n = (x.drop off).take n := by
  refine List.ext_getElem ?_ ?_
  · rw [length_read, List.length_take, List.length_drop]
    omega
  · intro i hi _
    rw [length_read] at hi
    rw [getElem_read, List.getElem_take, List.getElem_drop]
    exact List.getD_eq_getElem _ _ (by omega)

section

variable {junk : AesCore.AesKey} {k : ℕ} {text : ℕ → List UInt8}

/-- What is enciphered block by block is deciphered block by block, whatever the
    blocks have to do with each other. -/
theorem decryptedBlocks_rijndael (htext : ∀ i, (text i).length = 16) :
    decryptedBlocks (codeAes junk) ((List.range k).flatMap fun i => rijndael (text i))
      = (List.range k).flatMap text := by
  have hsixteen : ∀ i, (rijndael (text i)).length = 16 := fun _ => rfl
  have hlen := length_flatMap_blocks hsixteen k
  rw [decryptedBlocks, codeAes_decrypt, hlen, Nat.mul_div_cancel_left k (by decide)]
  refine List.flatMap_congr fun i hi => ?_
  have hlt : i < k := List.mem_range.mp hi
  rw [read_ofList (by rw [hlen]; omega)]
  show invRijndael (blockAt _ i) = text i
  rw [blockAt_flatMap hsixteen hlt]
  exact invRijndael_rijndael (htext i)

/-- The last four bytes of whole blocks are those of the last one. -/
theorem drop_flatMap_blocks (htext : ∀ i, (text i).length = 16) :
    ((List.range (k + 1)).flatMap text).drop (16 * (k + 1) - 4) = (text k).drop 12 := by
  have hlen := length_flatMap_blocks htext k
  rw [List.range_succ, List.flatMap_append, List.flatMap_singleton, List.drop_append,
    List.drop_of_length_le (by rw [hlen]; omega), hlen, List.nil_append]
  refine congrArg (fun m => (text k).drop m) ?_
  omega

end

/-! ## Splicing -/

/-- The text of a string is what the string is decoded from. -/
theorem decoded_text {x text : List UInt8} {ds : List ℕ} (htext : TextOf x ds text)
    (hlt : text.length < 0x100000000) :
    decoded (Block.ofList text).bytes (UInt32.ofNat text.length) = x := by
  have hcount : (UInt32.ofNat text.length).toNat = text.length :=
    UInt32.toNat_ofNat_of_lt' hlt
  rw [decoded, hcount, read_ofList (by omega), List.drop_zero, List.take_length]
  exact base64Decode_text htext

/-- The bytes of the pieces, one behind the other. -/
def spell (k : ℕ) (pieces : ℕ → Piece) : List UInt8 :=
  (List.range k).flatMap fun i => (pieces i).block

section

variable {junk junk' : AesCore.AesKey} {k : ℕ} {pieces : ℕ → Piece}
  {c : ℕ → List UInt8}

/-- What the pieces cut from cipher texts spell, and the length at its end. -/
theorem decrypted_pieces (hcut : ∀ i, i ≤ k → CutFrom junk (pieces i) (c i))
    (hlast : (pieces k).Closes) :
    ((List.range (k + 1)).flatMap c).length = 16 * (k + 1) ∧
      decryptedBlocks (codeAes junk') ((List.range (k + 1)).flatMap c)
        = spell (k + 1) pieces ∧
      trailer (codeAes junk') ((List.range (k + 1)).flatMap c) = (pieces k).plainLen := by
  have hblock : ∀ i, (pieces i).block.length = 16 := fun _ => length_read
  have hpieces : (List.range (k + 1)).flatMap c
      = (List.range (k + 1)).flatMap fun i => rijndael (pieces i).block := by
    refine List.flatMap_congr fun i hi => ?_
    exact (hcut i (Nat.le_of_lt_succ (List.mem_range.mp hi))).eq_rijndael
  have hlen : ((List.range (k + 1)).flatMap c).length = 16 * (k + 1) := by
    rw [hpieces]
    exact length_flatMap_blocks (fun _ => rfl) (k + 1)
  have hspell : decryptedBlocks (codeAes junk') ((List.range (k + 1)).flatMap c)
      = spell (k + 1) pieces := by
    rw [hpieces]
    exact decryptedBlocks_rijndael hblock
  refine ⟨hlen, hspell, ?_⟩
  rw [trailer, hspell, hlen, spell, drop_flatMap_blocks hblock, hlast.trailer,
    readUint32_writeUint32]

end

/-- **CUT AND PASTE**: pieces of cipher texts, closed by the last piece of one,
    have a base64 text that `DecryptCipher` takes for a text of that one's
    length if there are so many bytes, and refuses otherwise; what it returns is
    what the pieces spell. -/
theorem spliced_decrypts (junk junk' : AesCore.AesKey) (ndebug : Bool) (heap : Bytes)
    {k : ℕ} {pieces : ℕ → Piece} {c : ℕ → List UInt8}
    (hcut : ∀ i, i ≤ k → CutFrom junk (pieces i) (c i)) (hlast : (pieces k).Closes)
    (hfits : (16 * (k + 1) + 2) / 3 * 4 < 0x100000000) :
    ∃ forged, base64Encode ndebug ((List.range (k + 1)).flatMap c) = .ok forged ∧
      ((pieces k).plainLen.toNat ≤ 16 * (k + 1) →
        ∃ out, decryptCipher (codeAes junk') heap (some (Block.ofList forged).bytes)
            (UInt32.ofNat forged.length) = .ok ⟨0, some out, some (pieces k).plainLen⟩
          ∧ out.load 0 ((pieces k).plainLen.toNat + 1)
            = some ((spell (k + 1) pieces).take (pieces k).plainLen.toNat ++ [0])) ∧
      (16 * (k + 1) < (pieces k).plainLen.toNat →
        decryptCipher (codeAes junk') heap (some (Block.ofList forged).bytes)
          (UInt32.ofNat forged.length) = .ok ⟨-4, none, some (pieces k).plainLen⟩) := by
  obtain ⟨hlen, hspell, htrailer⟩ := @decrypted_pieces junk junk' k pieces c hcut hlast
  obtain ⟨x, hx⟩ : ∃ x, x = (List.range (k + 1)).flatMap c := ⟨_, rfl⟩
  rw [← hx] at hlen hspell htrailer ⊢
  obtain ⟨forged, ds, hencode, htext⟩ := base64Encode_text (x := x) ndebug
    (by
      intro hnil
      rw [hnil, List.length_nil] at hlen
      omega)
    (by omega)
  have hlt : forged.length < 0x100000000 := by
    rw [htext.length, hlen]
    exact hfits
  obtain ⟨r, hcall, heffect⟩ := @decryptCipher_effect (codeAes junk') heap
    (Block.ofList forged).bytes (UInt32.ofNat forged.length)
    (by
      rw [UInt32.toNat_ofNat_of_lt' hlt, htext.length, hlen]
      omega)
  rw [decoded_text htext hlt] at heffect
  refine ⟨forged, hencode, ?_⟩
  rw [hcall]
  cases heffect with
  | empty h =>
      rw [h, List.length_nil] at hlen
      omega
  | ragged h =>
      rw [hlen] at h
      omega
  | overlong _ _ h =>
      rw [htrailer, hlen] at h
      rw [htrailer]
      exact ⟨fun hle => absurd hle (Nat.not_le_of_lt h), fun _ => rfl⟩
  | accepted out _ _ h =>
      have hle := h.fits
      have hload := h.text
      rw [htrailer, hlen] at hle
      rw [htrailer, hspell] at hload
      rw [htrailer]
      exact ⟨fun _ => ⟨out, rfl, hload⟩, fun hlt => absurd hle (Nat.not_le_of_lt hlt)⟩

/-- Another text of two blocks. -/
def otherText : Bytes := (Block.ofList (ascii "drop table cryptos")).bytes

/-- Its first block, and the last one of `testText`. -/
def swapped : ℕ → Piece
  | 0 => ⟨otherText, 18, 0⟩
  | _ => ⟨testText, 14, 1⟩

theorem spliced_decrypts_swapped :
    ∃ forged, base64Encode false
        ((List.range 2).flatMap fun i => rijndael (swapped i).block) = .ok forged ∧
      (14 ≤ 16 * 2 →
        ∃ out, decryptCipher (codeAes zeroKey) (fun _ => 0)
            (some (Block.ofList forged).bytes) (UInt32.ofNat forged.length) = .ok ⟨0, some out, some 14⟩
          ∧ out.load 0 (14 + 1) = some ((spell 2 swapped).take 14 ++ [0])) ∧
      (16 * 2 < 14 →
        decryptCipher (codeAes zeroKey) (fun _ => 0) (some (Block.ofList forged).bytes)
          (UInt32.ofNat forged.length) = .ok ⟨-4, none, some 14⟩) :=
  @spliced_decrypts zeroKey zeroKey false (fun _ => 0) 1 swapped
    (fun i => rijndael (swapped i).block)
    (fun i hi => by
      match i with
      | 0 =>
          exact cutFrom_rijndael (show 1 ≤ UInt32.toNat 18 by decide)
            (show cipherLength 18 < 0x100000000 by decide) (show 0 < padCount 18 by decide)
      | 1 =>
          exact cutFrom_rijndael (show 1 ≤ UInt32.toNat 14 by decide)
            (show cipherLength 14 < 0x100000000 by decide) (show 1 < padCount 14 by decide))
    (show 1 + 1 = padCount 14 by decide) (by decide)

example : (spell 2 swapped).take 14 = ascii "drop table cry" := by decide +kernel

end CipherSplicing
