import StpPlatform.Base64
import Mathlib.Logic.Relation

/-! # What the two directions of base64 promise

    `base64_decode` is liberal: it passes over `=` and white space wherever they
    stand.  So a text may be padded, broken into lines or stripped, and still
    decodes to the string it was made of (`decode_edited`); the accumulators may
    wrap on the way.

    `base64_encode` asserts at its end that at most two places of the text were
    left for padding.  The comparison subtracts in `size_t`, and the empty string
    has no two places: `encode_safe_iff` says that it is the only string the
    assertion fails on. -/

namespace Base64Laws

open BitStream ByteMemory Base64

/-! ## Decoding a text that was edited -/

/-- A character to skip more, or one less, anywhere. -/
inductive Edit {α : Type} (skip : α → Prop) : List α → List α → Prop where
  | insert (pre post : List α) (c : α) (hc : skip c) :
      Edit skip (pre ++ post) (pre ++ c :: post)
  | delete (pre post : List α) (c : α) (hc : skip c) :
      Edit skip (pre ++ c :: post) (pre ++ post)

/-- What is skipped can be left out. -/
theorem filter_drop_mid {α : Type} {skip : α → Prop} [DecidablePred skip]
    (pre post : List α) {c : α} (hc : skip c) :
    (pre ++ c :: post).filter (fun c => ¬ skip c)
      = (pre ++ post).filter (fun c => ¬ skip c) := by
  rw [List.filter_append, List.filter_append,
    List.filter_cons_of_neg (by simp [hc])]

/-- **EDITS KEEP** what is not skipped. -/
theorem filter_of_edits {α : Type} {skip : α → Prop} [DecidablePred skip]
    {text s : List α} (h : Relation.ReflTransGen (Edit skip) text s) :
    s.filter (fun c => ¬ skip c) = text.filter (fun c => ¬ skip c) := by
  induction h with
  | refl => rfl
  | tail _ hedit ih =>
      rw [← ih]
      cases hedit with
      | insert pre post c hc => exact filter_drop_mid pre post hc
      | delete pre post c hc => exact (filter_drop_mid pre post hc).symm

/-- `isspace(c) || c == '='`. -/
def Skipped (c : UInt8) : Prop := isSpace c = true ∨ c = equalsSign

instance : DecidablePred Skipped := fun c =>
  inferInstanceAs (Decidable (isSpace c = true ∨ c = equalsSign))

/-- The loop does not see what it skips. -/
theorem chars_filter (cs : List UInt8) : ∀ s : Decoder,
    s.chars (cs.filter (fun c => ¬ Skipped c)) = s.chars cs := by
  induction cs with
  | nil =>
      intro s
      rfl
  | cons c cs ih =>
      intro s
      by_cases hc : Skipped c
      · have hskip : isSpace c = true ∨ c = equalsSign := hc
        rw [List.filter_cons_of_neg (by simp [hc]), ih, Decoder.chars, Decoder.char,
          if_pos hskip]
      · rw [List.filter_cons_of_pos (by simp [hc]), Decoder.chars, Decoder.chars]
        cases s.char c with
        | none => rfl
        | some s' => exact ih s'

theorem base64Decode_filter (ascdata : List UInt8) :
    base64Decode (ascdata.filter (fun c => ¬ Skipped c)) = base64Decode ascdata := by
  rw [base64Decode, base64Decode, chars_filter]

/-- **DECODING IS LIBERAL**: every string but the empty one has a text, and comes
    back from it however many `=` and white spaces are put in or taken out. -/
theorem decode_edited (ndebug : Bool) {x : List UInt8} (hne : x ≠ [])
    (hlen : x.length ≤ 0xffffffffffffffff / 4 * 3) :
    ∃ text, base64Encode ndebug x = .ok text
      ∧ ∀ s, Relation.ReflTransGen (Edit Skipped) text s → base64Decode s = x := by
  obtain ⟨text, ds, hencode, htext⟩ := base64Encode_text ndebug hne hlen
  refine ⟨text, hencode, ?_⟩
  intro s hs
  calc base64Decode s
      = base64Decode (s.filter (fun c => ¬ Skipped c)) :=
        (base64Decode_filter s).symm
    _ = base64Decode (text.filter (fun c => ¬ Skipped c)) := by
        rw [filter_of_edits hs]
    _ = base64Decode text := base64Decode_filter text
    _ = x := base64Decode_text htext

/-- The padding of a text is taken out and a line break put into it. -/
theorem decode_edited_lineBreak :
    base64Encode false (ascii "Base6") = .ok (ascii "QmFzZTY=")
      ∧ base64Decode (ascii "QmFz\nZTY") = ascii "Base6" := by
  have hencode : base64Encode false (ascii "Base6") = .ok (ascii "QmFzZTY=") := by
    decide
  obtain ⟨text, htext, hedits⟩ :=
    decode_edited false (show ascii "Base6" ≠ [] by decide) (by decide)
  cases htext.symm.trans hencode
  have hcut : Edit Skipped (ascii "QmFzZTY=") (ascii "QmFzZTY") :=
    .delete (ascii "QmFzZTY") [] equalsSign (by decide)
  have hbreak : Edit Skipped (ascii "QmFzZTY") (ascii "QmFz\nZTY") :=
    .insert (ascii "QmFz") (ascii "ZTY") 10 (by decide)
  exact ⟨hencode, hedits _ (.tail (.single hcut) hbreak)⟩

/-! ## The assertions of the encoder -/

/-- What holds at the end of `base64_encode`, where `x` passed the size check. -/
structure EncodeSafe (x : List UInt8) (s₁ s₂ : Encoder) : Prop where
  bytes : (⟨List.replicate ((x.length + 2) / 3 * 4) equalsSign, 0, 0, 0⟩
    : Encoder).bytes x = .ok s₁
  trailing : 0 < s₁.bitsCollected → s₁.bitsCollected < 6
  trail : s₁.trail false = .ok s₂
  lower : sizeSub s₂.retval.length 2 ≤ s₂.outpos
  upper : s₂.outpos ≤ s₂.retval.length
  length : s₂.retval.length = 4 * ((x.length + 2) / 3)
  padded : ∃ chars, s₂.retval
      = chars ++ List.replicate ((3 - x.length % 3) % 3) equalsSign
    ∧ equalsSign ∉ chars
  returned : base64Encode false x = .ok s₂.retval

theorem equalsSign_notMem {ds : List Nat} (hds : ∀ d ∈ ds, d < 64) :
    equalsSign ∉ ds.map b64Char := by
  intro hmem
  obtain ⟨d, hd, heq⟩ := List.mem_map.mp hmem
  exact (reverse_b64Char (hds d hd)).1 (Or.inr heq)

/-- The empty string ends in the first assertion. -/
theorem base64Encode_nil : base64Encode false [] = .error .assertion := by
  have hwrap : sizeSub 0 2 = 0xfffffffffffffffe := by decide
  have hlow : assert false (0 ≥ sizeSub 0 2) = .error .assertion := by
    rw [hwrap]
    exact if_neg (by decide)
  rw [base64Encode, if_neg (by decide)]
  simp only [List.length_nil, Nat.zero_add, Encoder.bytes, Encoder.trail,
    Nat.lt_irrefl, if_false, show 2 / 3 * 4 = 0 from rfl, List.replicate_zero, hlow]

/-- The places that the digits leave are those for padding. -/
theorem places_left (n : Nat) :
    (n + 2) / 3 * 4 - (4 * n + 2) / 3 = (3 - n % 3) % 3 := by
  have hrest : n % 3 = 0 ∨ n % 3 = 1 ∨ n % 3 = 2 := by omega
  rcases hrest with hrest | hrest | hrest
  · rw [show (3 - n % 3) % 3 = 0 by rw [hrest]]
    omega
  · rw [show (3 - n % 3) % 3 = 2 by rw [hrest]]
    omega
  · rw [show (3 - n % 3) % 3 = 1 by rw [hrest]]
    omega

/-- **THE ASSERTIONS HOLD** for every string but the empty one, with the writes
    inside the text and the padding the text needs. -/
theorem encode_safe_iff {x : List UInt8}
    (hlen : x.length ≤ 0xffffffffffffffff / 4 * 3) :
    (∃ s₁ s₂, EncodeSafe x s₁ s₂) ↔ x ≠ [] := by
  constructor
  · rintro ⟨s₁, s₂, hsafe⟩ hnil
    have hret := hsafe.returned
    rw [hnil, base64Encode_nil] at hret
    cases hret
  · intro hne
    obtain ⟨s₁, s₂, ds, hbytes, hbits, htrail, h, z, hz, hstream⟩ :=
      encoder_run false x
    obtain ⟨hlow, hhigh⟩ := outpos_bounds h hz hstream hne hlen
    refine ⟨s₁, s₂, hbytes, fun _ => hbits, htrail, hlow, hhigh, ?_, ?_, ?_⟩
    · rw [h.length, Nat.mul_comm]
    · refine ⟨ds.map b64Char, ?_, equalsSign_notMem h.digits⟩
      rw [h.retval, length_digits hz hstream, places_left]
    · exact base64Encode_of_run hlen hbytes htrail hlow hhigh

theorem encode_safe_iff_fiveBytes : ∃ s₁ s₂, EncodeSafe (ascii "Base6") s₁ s₂ :=
  (encode_safe_iff (by decide)).mpr (by decide)

/-- **THE EMPTY STRING ABORTS**: `outpos` is `0`, and `0 - 2` the largest
    multiple of two that a `size_t` holds. -/
theorem empty_string_aborts :
    ([] : List UInt8).length ≤ 0xffffffffffffffff / 4 * 3
      ∧ sizeSub 0 2 = 0xfffffffffffffffe
      ∧ base64Encode false [] = .error .assertion
      ∧ ¬ ∃ s₁ s₂, EncodeSafe [] s₁ s₂ := by
  refine ⟨by decide, by decide, base64Encode_nil, ?_⟩
  rintro ⟨s₁, s₂, hsafe⟩
  cases base64Encode_nil.symm.trans hsafe.returned

end Base64Laws
