import StpPlatform.StpCrypto

/-! # The lengths that `EncryptPlain` computes

    All of them are `uint32_t`: `plain_len + 15`, the number of blocks times 16,
    and the length of the base64 text, which is cast.  Text and trailer must fit
    into the memory that is allocated for the blocks, and `cipher_len` must be
    the length of the text.

    `lengths_true_iff` says up to where this is so.  The cast is the first to
    fail, at 3 GiB less 19 bytes: from there on the base64 text has 4 GiB and
    more.  Just below 4 GiB the blocks' length wraps to zero. -/

namespace EncryptLengths

open ByteMemory ByteOrder Base64 StpCrypto

/-- The lengths of a call are those of the integers: whole blocks with room for
    text and trailer, and the length of the base64 text. -/
structure LengthsTrue (aes : Aes) (ndebug : Bool) (heap : Nat → Bytes)
    (gClntOrSvr : Int) (plain : Bytes) (n : UInt32) : Prop where
  whole : (blockCount n * 16).toNat % 16 = 0
  room : n.toNat + 4 ≤ (blockCount n * 16).toNat
  cipherLen : ∃ enc text r len, strEnc aes heap plain n = .ok enc
    ∧ base64Encode ndebug enc = .ok text
    ∧ encryptPlain aes ndebug heap gClntOrSvr (some plain) n = .ok r
    ∧ r.cipherLen = some len ∧ len.toNat = text.length

/-- The last length whose cipher text is shorter than 4 GiB. -/
theorem cipherLength_lt_iff (n : Nat) :
    cipherLength n < 0x100000000 ↔ n ≤ 0xbfffffec := by
  rw [cipherLength, encryptLength]
  omega

section

variable {aes : Aes} {ndebug : Bool} {heap : Nat → Bytes} {gClntOrSvr : Int}
  {plain : Bytes} {n : UInt32}

/-- A multiple of 16 that is a `uint32_t` leaves no room for longer texts. -/
theorem wraps_not (h : LengthsTrue aes ndebug heap gClntOrSvr plain n) :
    n.toNat + 19 < 0x100000000 := by
  have hwhole := h.whole
  have hroom := h.room
  have hlt := (blockCount n * 16).toNat_lt
  omega

/-- **THE LENGTHS ARE TRUE** exactly up to 3 GiB less 20 bytes. -/
theorem lengths_true_iff (hg : gClntOrSvr ≠ -1) (hn : 1 ≤ n.toNat) :
    LengthsTrue aes ndebug heap gClntOrSvr plain n ↔ n.toNat ≤ 0xbfffffec := by
  rw [← cipherLength_lt_iff]
  constructor
  · intro h
    have hwrap := wraps_not h
    obtain ⟨enc, text, r, len, henc, hbase64, -, -, hlen⟩ := h.cipherLen
    -- the text that the call encodes is the text of the sealed blocks
    obtain ⟨enc', henc', hsealed⟩ := @strEnc_ok aes heap plain n hwrap
    rw [Except.ok.inj (henc'.symm.trans henc)] at hsealed
    obtain ⟨text', ds, hbase64', -, htext⟩ :=
      base64Encode_sealed ndebug hsealed hwrap
    rw [Except.ok.inj (hbase64'.symm.trans hbase64), ← hlen] at htext
    rw [← htext]
    exact len.toNat_lt
  · intro hfits
    obtain ⟨enc, ds, text, cipher, hcall, henc, hbase64, -, -, -, htext⟩ :=
      @encryptPlain_ok aes ndebug heap gClntOrSvr plain n hg hn hfits
    have hwrap : n.toNat + 19 < 0x100000000 := by
      rw [cipherLength, encryptLength] at hfits
      omega
    have hlen : (blockCount n * 16).toNat = encryptLength n.toNat :=
      encryptLength_toNat hwrap
    refine ⟨?_, ?_, enc, text, _, _, henc, hbase64, hcall, rfl, ?_⟩
    · rw [hlen, encryptLength_eq]
      exact Nat.mul_mod_right 16 _
    · rw [hlen, encryptLength]
      omega
    · exact UInt32.toNat_ofNat_of_lt' (by rw [htext]; exact hfits)

end

theorem lengths_true_iff_testText :
    LengthsTrue testAes false (fun _ _ => 0) 0
        (Block.ofList (ascii "1234qwerty4321")).bytes 14
      ↔ UInt32.toNat 14 ≤ 0xbfffffec :=
  lengths_true_iff (show (0 : Int) ≠ -1 by decide)
    (show 1 ≤ UInt32.toNat 14 by decide)

/-- Almost 4 GiB of text. -/
def longText : Bytes := fun _ => 97

/-- **THE BLOCKS WRAP TO NOTHING** for a text of `2^32 - 15` bytes, which is then
    copied into the memory of zero bytes. -/
theorem blocks_wrap :
    (blockCount 0xfffffff1 * 16).toNat = 0
      ∧ encryptPlain testAes false (fun _ _ => 0) 0 (some longText) 0xfffffff1
        = .error .outOfBounds
      ∧ ¬ LengthsTrue testAes false (fun _ _ => 0) 0 longText 0xfffffff1 := by
  have hzero : (blockCount 0xfffffff1 * 16).toNat = 0 := by decide
  have hfull : (Block.zeroed 0).store 0
      (read longText 0 (UInt32.toNat 0xfffffff1)) = none := by
    refine if_neg ?_
    rw [length_read]
    show ¬ 0 + 0xfffffff1 ≤ 0
    omega
  refine ⟨hzero, ?_, ?_⟩
  · rw [encryptPlain_eq (show (0 : Int) ≠ -1 by decide)
      (show 0 < UInt32.toNat 0xfffffff1 by decide)]
    simp only [strEnc, hzero, hfull]
    rfl
  · intro h
    have hroom := h.room
    rw [hzero] at hroom
    omega

end EncryptLengths
