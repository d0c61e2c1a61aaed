import StpPlatform.LabelledRun
import StpPlatform.StpCrypto

/-! # The calls of the encryption library (`stpcrypto/stp_crypto.h`)

    The library keeps one number, `g_clnt_or_svr`: `-1` until it is initialised.
    `EncryptPlain` refuses every text while it is `-1`, and `InitStpCrypto`, which
    checks that it is called for a client or a server, is there to set it.

    A history is a list of calls, with whatever arguments.  `enabled_iff` says
    what encryption depends on, which is that number alone; `gClntOrSvr_after`
    says what becomes of it over a history, which is nothing. -/

namespace StpCryptoApi

open LabelledRun ByteMemory Base64 StpCrypto

/-- `g_clnt_or_svr` when the library is loaded. -/
def gClntOrSvrStart : Int := -1

/-- `int InitStpCrypto(int)`: what it returns, and `g_clnt_or_svr` after it. -/
def initStpCrypto (clntOrSvr gClntOrSvr : Int) : Int × Int :=
  let res := match clntOrSvr with
    | 0 => 0
    | 1 => 0
    | _ => -1
  (res, gClntOrSvr)

/-- A call with its arguments; `heap` is what fresh memory holds. -/
inductive ApiCall where
  | initStpCrypto (clntOrSvr : Int)
  | encryptPlain (heap : Nat → Bytes) (plain : Option Bytes) (plainLen : UInt32)
  | decryptCipher (heap : Bytes) (cipher : Option Bytes) (cipherLen : UInt32)
  | free (ptr : Option Block)

/-- What a call gives back. -/
inductive ApiReply where
  | initialised (ret : Int)
  | encrypted (result : Except Fault Encrypted)
  | decrypted (result : Except Fault Decrypted)
  | freed

/-- A call: its reply, and `g_clnt_or_svr` after it. -/
def call (aes : Aes) (ndebug : Bool) (gClntOrSvr : Int) : ApiCall → ApiReply × Int
  | .initStpCrypto clntOrSvr =>
      let (ret, g) := initStpCrypto clntOrSvr gClntOrSvr
      (.initialised ret, g)
  | .encryptPlain heap plain plainLen =>
      (.encrypted (encryptPlain aes ndebug heap gClntOrSvr plain plainLen),
        gClntOrSvr)
  | .decryptCipher heap cipher cipherLen =>
      (.decrypted (decryptCipher aes heap cipher cipherLen), gClntOrSvr)
  | .free _ => (.freed, gClntOrSvr)

/-- `g_clnt_or_svr` after the calls of a history. -/
def gClntOrSvrAfter (aes : Aes) (ndebug : Bool) (calls : List ApiCall) : Int :=
  after (fun g c => (call aes ndebug g c).2) gClntOrSvrStart calls

/-- Every text whose cipher text has a 32-bit length is encrypted. -/
def Enabled (aes : Aes) (ndebug : Bool) (gClntOrSvr : Int) : Prop :=
  ∀ heap plain n, 1 ≤ n.toNat → cipherLength n.toNat < 0x100000000 →
    ∃ r, (call aes ndebug gClntOrSvr (.encryptPlain heap (some plain) n)).1
      = .encrypted (.ok r) ∧ r.ret = 0

section

variable {aes : Aes} {ndebug : Bool}

/-- The guard: an uninitialised library refuses every text. -/
theorem encryptPlain_refused (heap : Nat → Bytes) (plain : Option Bytes)
    (n : UInt32) :
    encryptPlain aes ndebug heap (-1) plain n = .ok ⟨-1, none, none⟩ := by
  cases plain with
  | none => rfl
  | some plain =>
      by_cases hn : n ≤ 0
      · simp only [encryptPlain, if_pos hn]
      · simp only [encryptPlain, if_neg hn, if_true]

/-- **ENCRYPTION WORKS** exactly while the number is not `-1`. -/
theorem enabled_iff (gClntOrSvr : Int) :
    Enabled aes ndebug gClntOrSvr ↔ gClntOrSvr ≠ -1 := by
  constructor
  · intro h hg
    obtain ⟨r, hr, hret⟩ := h (fun _ _ => 0) (fun _ => 97) 1
      (show 1 ≤ UInt32.toNat 1 by decide) (show cipherLength 1 < 0x100000000 by decide)
    rw [hg, call, encryptPlain_refused] at hr
    cases hr
    cases hret
  · intro hg heap plain n hn hfits
    obtain ⟨enc, ds, text, cipher, hcall, -⟩ :=
      @encryptPlain_ok aes ndebug heap gClntOrSvr plain n hg hn hfits
    exact ⟨_, congrArg ApiReply.encrypted hcall, rfl⟩

/-- No call assigns the number. -/
theorem call_gClntOrSvr (g : Int) (c : ApiCall) : (call aes ndebug g c).2 = g := by
  cases c <;> rfl

/-- **NO HISTORY INITIALISES THE LIBRARY**. -/
theorem gClntOrSvr_after (calls : List ApiCall) :
    gClntOrSvrAfter aes ndebug calls = -1 := by
  refine always_after (fun g => g = -1) rfl ?_ calls
  intro g c hg
  exact (call_gClntOrSvr g c).trans hg

/-- **INITIALISATION ENABLES NOTHING**: wherever in a history `InitStpCrypto` is
    called for a client or a server it returns `0`, and every text that is
    encrypted after it is refused. -/
theorem init_enables_never (pre post : List ApiCall) {clntOrSvr : Int}
    (hc : clntOrSvr = 0 ∨ clntOrSvr = 1) :
    (call aes ndebug (gClntOrSvrAfter aes ndebug pre)
        (.initStpCrypto clntOrSvr)).1 = .initialised 0
      ∧ ¬ Enabled aes ndebug
          (gClntOrSvrAfter aes ndebug (pre ++ .initStpCrypto clntOrSvr :: post))
      ∧ ∀ heap plain n,
          (call aes ndebug
            (gClntOrSvrAfter aes ndebug (pre ++ .initStpCrypto clntOrSvr :: post))
            (.encryptPlain heap (some plain) n)).1
          = .encrypted (.ok ⟨-1, none, none⟩) := by
  refine ⟨?_, ?_, ?_⟩
  · rcases hc with hc | hc <;> rw [hc] <;> rfl
  · rw [enabled_iff, gClntOrSvr_after]
    decide
  · intro heap plain n
    rw [gClntOrSvr_after]
    exact congrArg ApiReply.encrypted (encryptPlain_refused heap (some plain) n)

end

/-- A server tries to encrypt, initialises the library, and tries again. -/
def serverTries : List ApiCall :=
  let text := (Block.ofList (ascii "1234qwerty4321")).bytes
  [.encryptPlain (fun _ _ => 0) (some text) 14, .initStpCrypto 1,
    .encryptPlain (fun _ _ => 0) (some text) 14, .free none]

theorem init_enables_never_client :
    (call testAes false (gClntOrSvrAfter testAes false serverTries)
        (.initStpCrypto 0)).1 = .initialised 0
      ∧ ¬ Enabled testAes false
          (gClntOrSvrAfter testAes false (serverTries ++ .initStpCrypto 0 :: serverTries))
      ∧ ∀ heap plain n,
          (call testAes false
            (gClntOrSvrAfter testAes false
              (serverTries ++ .initStpCrypto 0 :: serverTries))
            (.encryptPlain heap (some plain) n)).1
          = .encrypted (.ok ⟨-1, none, none⟩) :=
  init_enables_never serverTries serverTries (Or.inl rfl)

/-- A client initialises the library, then encrypts the text of the library's own
    test: the first call returns `0`, the second `-1`. -/
theorem initialised_refuses :
    (call testAes false gClntOrSvrStart (.initStpCrypto 0)).1 = .initialised 0
      ∧ (call testAes false (gClntOrSvrAfter testAes false [.initStpCrypto 0])
          (.encryptPlain (fun _ _ => 0)
            (some (Block.ofList (ascii "1234qwerty4321")).bytes) 14)).1
        = .encrypted (.ok ⟨-1, none, none⟩)
      ∧ ¬ ∀ pre post c, c = 0 ∨ c = 1 →
          (call testAes false (gClntOrSvrAfter testAes false pre)
            (.initStpCrypto c)).1 = .initialised 0 →
          Enabled testAes false
            (gClntOrSvrAfter testAes false (pre ++ .initStpCrypto c :: post)) := by
  refine ⟨rfl, rfl, ?_⟩
  intro h
  obtain ⟨r, hr, hret⟩ := h [] [] 0 (Or.inl rfl) rfl (fun _ _ => 0)
    (Block.ofList (ascii "1234qwerty4321")).bytes 14
    (show 1 ≤ UInt32.toNat 14 by decide) (show cipherLength 14 < 0x100000000 by decide)
  cases hr
  cases hret

end StpCryptoApi
