import StpPlatform.BitStream
import StpPlatform.ByteMemory

/-! # Base64 (`stputil/security/base64`)

    The encoder writes into a text that it has filled with `=` before, and the
    decoder passes over `=` and white space.  Both loops keep their bits in an
    `unsigned int` of 32 bits out of whose top the old ones are shifted; each is
    a shift register, so what the encoder writes is the stream of its input's
    bits, six at a time (`encoded_fold`), and the decoder reads that stream back
    (`decoded_fold`), whatever the length.

    `size_t` has 64 bits.  The assertions are live unless `NDEBUG` is defined. -/

namespace Base64

open BitStream ByteMemory

/-- How a run can end other than by returning. -/
inductive Fault where
  | assertion
  | outOfBounds
  deriving DecidableEq, Repr

/-- `assert(cond)`. -/
def assert (ndebug : Bool) (cond : Prop) [Decidable cond] : Except Fault Unit :=
  if ndebug = true ∨ cond then .ok () else .error .assertion

/-- `b64_table`. -/
def b64Table : List UInt8 :=
  ascii "ABCDEFGHIJKLMNOPQRSTUVWXYZabcdefghijklmnopqrstuvwxyz0123456789+/"

/-- `reverse_table`. -/
def reverseTable : List Nat :=
  [64, 64, 64, 64, 64, 64, 64, 64, 64, 64, 64, 64, 64, 64, 64, 64,
    64, 64, 64, 64, 64, 64, 64, 64, 64, 64, 64, 64, 64, 64, 64, 64,
    64, 64, 64, 64, 64, 64, 64, 64, 64, 64, 64, 62, 64, 64, 64, 63,
    52, 53, 54, 55, 56, 57, 58, 59, 60, 61, 64, 64, 64, 64, 64, 64,
    64, 0, 1, 2, 3, 4, 5, 6, 7, 8, 9, 10, 11, 12, 13, 14,
    15, 16, 17, 18, 19, 20, 21, 22, 23, 24, 25, 64, 64, 64, 64, 64,
    64, 26, 27, 28, 29, 30, 31, 32, 33, 34, 35, 36, 37, 38, 39, 40,
    41, 42, 43, 44, 45, 46, 47, 48, 49, 50, 51, 64, 64, 64, 64, 64]

/-- `b64_table[n]`; the callers mask the index. -/
def b64Char (n : Nat) : UInt8 := b64Table.getD n 0

/-- The character `=`. -/
def equalsSign : UInt8 := 61

/-- `isspace` in the C locale. -/
def isSpace (c : UInt8) : Bool := (9 ≤ c ∧ c ≤ 13) ∨ c = 32

/-! ## `base64_encode` -/

/-- The variables of `base64_encode`. -/
structure Encoder where
  retval : List UInt8
  outpos : Nat
  bitsCollected : Nat
  accumulator : Nat

/-- `retval[outpos++] = b64_table[n]`. -/
def Encoder.put (s : Encoder) (n : Nat) : Except Fault Encoder :=
  if s.outpos < s.retval.length then
    .ok { s with
      retval := s.retval.set s.outpos (b64Char n)
      outpos := s.outpos + 1 }
  else .error .outOfBounds

/-- The inner loop, for at most `fuel` rounds; each takes six bits. -/
def Encoder.drain : Nat → Encoder → Except Fault Encoder
  | 0, s => .ok s
  | fuel + 1, s =>
      if 6 ≤ s.bitsCollected then
        let s := { s with bitsCollected := s.bitsCollected - 6 }
        match s.put ((s.accumulator >>> s.bitsCollected) &&& 0x3f) with
        | .error e => .error e
        | .ok s => s.drain fuel
      else .ok s

/-- One round of the outer loop. -/
def Encoder.byte (s : Encoder) (b : UInt8) : Except Fault Encoder :=
  let s := { s with
    accumulator := (s.accumulator <<< 8 ||| b.toNat) % 0x100000000
    bitsCollected := s.bitsCollected + 8 }
  s.drain s.bitsCollected

/-- Any trailing bits that are missing. -/
def Encoder.trail (ndebug : Bool) (s : Encoder) : Except Fault Encoder :=
  if 0 < s.bitsCollected then
    match assert ndebug (s.bitsCollected < 6) with
    | .error e => .error e
    | .ok () =>
        let s := { s with
          accumulator :=
            (s.accumulator <<< (6 - s.bitsCollected)) % 0x100000000 }
        s.put (s.accumulator &&& 0x3f)
  else .ok s

/-- The outer loop. -/
def Encoder.bytes (s : Encoder) : List UInt8 → Except Fault Encoder
  | [] => .ok s
  | b :: bs =>
      match s.byte b with
      | .error e => .error e
      | .ok s => s.bytes bs

/-- `a - b` in `size_t`. -/
def sizeSub (a b : Nat) : Nat := (a + 0x10000000000000000 - b) % 0x10000000000000000

/-- `string base64_encode(const string&)`. -/
def base64Encode (ndebug : Bool) (bindata : List UInt8) :
    Except Fault (List UInt8) :=
  if bindata.length > 0xffffffffffffffff / 4 * 3 then .ok []
  else
    let retval := List.replicate ((bindata.length + 2) / 3 * 4) equalsSign
    match (⟨retval, 0, 0, 0⟩ : Encoder).bytes bindata with
    | .error e => .error e
    | .ok s =>
        match s.trail ndebug with
        | .error e => .error e
        | .ok s =>
            match assert ndebug (s.outpos ≥ sizeSub s.retval.length 2) with
            | .error e => .error e
            | .ok () =>
                match assert ndebug (s.outpos ≤ s.retval.length) with
                | .error e => .error e
                | .ok () => .ok s.retval

/-! ## `base64_decode` -/

/-- The variables of `base64_decode`. -/
structure Decoder where
  retval : List UInt8
  bitsCollected : Nat
  accumulator : Nat

/-- One round of the loop, or `return ""`.  A byte from `0x80` on is a negative
    `char`. -/
def Decoder.char (s : Decoder) (c : UInt8) : Option Decoder :=
  if isSpace c = true ∨ c = equalsSign then some s
  else if c.toNat > 127 ∨ reverseTable.getD c.toNat 64 > 63 then none
  else
    let s := { s with
      accumulator :=
        (s.accumulator <<< 6 ||| reverseTable.getD c.toNat 64) % 0x100000000
      bitsCollected := s.bitsCollected + 6 }
    if s.bitsCollected ≥ 8 then
      let s := { s with bitsCollected := s.bitsCollected - 8 }
      some { s with
        retval := s.retval
          ++ [UInt8.ofNat ((s.accumulator >>> s.bitsCollected) &&& 0xff)] }
    else some s

/-- The loop over the characters; `none` once one of them throws. -/
def Decoder.chars (s : Decoder) : List UInt8 → Option Decoder
  | [] => some s
  | c :: cs =>
      match s.char c with
      | none => none
      | some s => s.chars cs

/-- `string base64_decode(const string&)`. -/
def base64Decode (ascdata : List UInt8) : List UInt8 :=
  match (⟨[], 0, 0⟩ : Decoder).chars ascdata with
  | none => []
  | some s => s.retval

/-! ## What the encoder writes -/

/-- The two locals that the encoder shifts bits through. -/
def Encoder.register (s : Encoder) : Register where
  acc := s.accumulator
  bits := s.bitsCollected

/-- The bits of a string. -/
def bitStream (x : List UInt8) : List Bool := stream 8 (x.map UInt8.toNat)

/-- The text is filled with `ds` so far, out of `total` characters. -/
structure Filled (total : Nat) (ds : List Nat) (s : Encoder) : Prop where
  retval : s.retval
    = ds.map b64Char ++ List.replicate (total - ds.length) equalsSign
  outpos : s.outpos = ds.length
  room : ds.length ≤ total
  digits : ∀ d ∈ ds, d < 64

/-- The bits of `x` are in the text and in the register. -/
structure Encoded (total : Nat) (x : List UInt8) (ds : List Nat) (s : Encoder) :
    Prop where
  filled : Filled total ds s
  bits : bitStream x = stream 6 ds ++ s.register.pending

section

variable {total n : Nat} {x : List UInt8} {ds : List Nat}
  {s : Encoder}

theorem length_bitStream (x : List UInt8) : (bitStream x).length = 8 * x.length := by
  rw [bitStream, length_stream, List.length_map]

theorem Encoded.length (h : Encoded total x ds s) :
    8 * x.length = 6 * ds.length + s.bitsCollected := by
  have hlen := congrArg List.length h.bits
  rw [length_bitStream, List.length_append, length_stream, Register.pending,
    length_bitsOf] at hlen
  exact hlen

/-- The register is no part of the text. -/
theorem Filled.of_eq {s' : Encoder} (h : Filled total ds s)
    (hret : s'.retval = s.retval) (hout : s'.outpos = s.outpos) :
    Filled total ds s' :=
  ⟨hret.trans h.retval, hout.trans h.outpos, h.room, h.digits⟩

/-- A character more, and nothing else changes. -/
theorem put_ok (h : Filled total ds s) (hroom : ds.length < total) (hn : n < 64) :
    ∃ s', s.put n = .ok s' ∧ Filled total (ds ++ [n]) s'
      ∧ s'.register = s.register := by
  obtain ⟨k, hk⟩ : ∃ k, total - ds.length = k + 1 :=
    ⟨total - ds.length - 1, by omega⟩
  -- the place the character goes to is the first of those still empty
  have hret := h.retval
  rw [hk, List.replicate_succ] at hret
  have hlen : s.outpos < s.retval.length := by
    rw [h.outpos, hret, List.length_append, List.length_map, List.length_cons]
    omega
  refine ⟨_, if_pos hlen, ⟨?_, ?_, ?_, ?_⟩, rfl⟩
  · show s.retval.set s.outpos (b64Char n) = _
    rw [hret, h.outpos, List.set_append_right _ _ (by rw [List.length_map]),
      List.length_map, Nat.sub_self, List.set_cons_zero, List.map_append,
      List.append_assoc, List.length_append, List.length_singleton,
      show total - (ds.length + 1) = k by omega]
    rfl
  · show s.outpos + 1 = (ds ++ [n]).length
    rw [h.outpos, List.length_append, List.length_singleton]
  · rw [List.length_append, List.length_singleton]
    exact hroom
  · intro d hd
    rcases List.mem_append.mp hd with hd | hd
    · exact h.digits d hd
    · rw [List.mem_singleton.mp hd]
      exact hn

/-- The inner loop writes six bits a round until fewer are left. -/
theorem encoded_drain (fuel : Nat) :
    ∀ (ds : List Nat) (s : Encoder), Encoded total x ds s →
      8 * x.length ≤ 6 * total → s.bitsCollected ≤ fuel →
      ∃ s' ds', s.drain fuel = .ok s' ∧ Encoded total x ds' s'
        ∧ s'.bitsCollected < 6 := by
  induction fuel with
  | zero =>
      intro ds s h _ hfuel
      exact ⟨s, ds, rfl, h, by omega⟩
  | succ fuel ih =>
      intro ds s h htotal hfuel
      rw [Encoder.drain]
      by_cases hsix : 6 ≤ s.bitsCollected
      · have hlen := h.length
        -- only the register changes before `put`
        have hfilled : Filled total ds
            { s with bitsCollected := s.bitsCollected - 6 } :=
          h.filled.of_eq rfl rfl
        obtain ⟨s', hput, hfilled', hreg⟩ := put_ok hfilled (by omega)
          (front_lt 6 s.register)
        have hput' : Encoder.put { s with bitsCollected := s.bitsCollected - 6 }
            ((s.accumulator >>> (s.bitsCollected - 6)) &&& 0x3f) = .ok s' := hput
        have hreg' : s'.register = s.register.pop 6 := hreg
        have hbits : s'.bitsCollected = s.bitsCollected - 6 :=
          congrArg Register.bits hreg'
        rw [if_pos hsix]
        simp only [hput']
        refine ih (ds ++ [s.register.front 6]) s' ⟨hfilled', ?_⟩ htotal (by omega)
        rw [stream_concat, List.append_assoc, hreg', ← pending_pop hsix]
        exact h.bits
      · rw [if_neg hsix]
        exact ⟨s, ds, rfl, h, by omega⟩

/-- **A ROUND** of the outer loop takes a byte in. -/
theorem encoded_byte (h : Encoded total x ds s) (hbits : s.bitsCollected < 6)
    {b : UInt8} (htotal : 8 * (x.length + 1) ≤ 6 * total) :
    ∃ s' ds', s.byte b = .ok s' ∧ Encoded total (x ++ [b]) ds' s'
      ∧ s'.bitsCollected < 6 := by
  refine encoded_drain (s.bitsCollected + 8) ds _ ⟨?_, ?_⟩ ?_ (Nat.le_refl _)
  · exact h.filled.of_eq rfl rfl
  · have hpush : bitStream (x ++ [b])
        = stream 6 ds ++ (s.register.push 32 8 b.toNat).pending := by
      rw [pending_push b.toNat_lt (by show s.bitsCollected + 8 ≤ 32; omega),
        ← List.append_assoc, ← h.bits, bitStream, List.map_append]
      exact stream_concat 8 _ _
    exact hpush
  · rw [List.length_append, List.length_singleton]
    exact htotal

/-- The outer loop takes all bytes in. -/
theorem encoded_fold (bs : List UInt8) :
    ∀ (x : List UInt8) (ds : List Nat) (s : Encoder), Encoded total x ds s →
      s.bitsCollected < 6 → 8 * (x.length + bs.length) ≤ 6 * total →
      ∃ s' ds', s.bytes bs = .ok s' ∧ Encoded total (x ++ bs) ds' s'
        ∧ s'.bitsCollected < 6 := by
  induction bs with
  | nil =>
      intro x ds s h hbits _
      rw [List.append_nil]
      exact ⟨s, ds, rfl, h, hbits⟩
  | cons b bs ih =>
      intro x ds s h hbits htotal
      rw [List.length_cons] at htotal
      -- one byte leaves fewer than six bits for the next turn
      obtain ⟨s₁, ds₁, hbyte, h₁, hbits₁⟩ :=
        encoded_byte h hbits (b := b) (by omega)
      obtain ⟨s₂, ds₂, hrest, h₂, hbits₂⟩ := ih (x ++ [b]) ds₁ s₁ h₁ hbits₁ (by
        rw [List.length_append, List.length_singleton]
        omega)
      rw [List.append_assoc] at h₂
      refine ⟨s₂, ds₂, ?_, h₂, hbits₂⟩
      rw [Encoder.bytes, hbyte]
      exact hrest

/-- The text of a string: its bits, six a character, filled up with zeros, and
    then `=` to a whole number of quantums. -/
structure TextOf (x : List UInt8) (ds : List Nat) (text : List UInt8) : Prop where
  chars : ∃ k, text = ds.map b64Char ++ List.replicate k equalsSign
  length : text.length = (x.length + 2) / 3 * 4
  digits : ∀ d ∈ ds, d < 64
  bits : ∃ z, z < 6 ∧ stream 6 ds = bitStream x ++ List.replicate z false

/-- The last character takes what is left in the register. -/
theorem encoded_trail (ndebug : Bool) (h : Encoded total x ds s) (hbits : s.bitsCollected < 6)
    (htotal : 8 * x.length ≤ 6 * total) :
    ∃ s' ds', s.trail ndebug = .ok s' ∧ Filled total ds' s'
      ∧ ∃ z, z < 6 ∧ stream 6 ds' = bitStream x ++ List.replicate z false := by
  have hlen := h.length
  by_cases hpos : 0 < s.bitsCollected
  · have hassert : assert ndebug (s.bitsCollected < 6) = .ok () :=
      if_pos (Or.inr hbits)
    obtain ⟨n, hn⟩ : ∃ n, n
        = (s.accumulator <<< (6 - s.bitsCollected)) % 0x100000000 := ⟨_, rfl⟩
    have hfilled : Filled total ds { s with accumulator := n } :=
      h.filled.of_eq rfl rfl
    have hmask : n &&& 0x3f < 64 := by
      rw [show (0x3f : Nat) = 2 ^ 6 - 1 from rfl, Nat.and_two_pow_sub_one_eq_mod]
      exact Nat.mod_lt n (by decide)
    obtain ⟨s', hput, hfilled', -⟩ := put_ok hfilled (by omega) hmask
    refine ⟨s', ds ++ [n &&& 0x3f], ?_, hfilled', 6 - s.bitsCollected,
      by omega, ?_⟩
    · rw [Encoder.trail, if_pos hpos, hassert]
      simp only [← hn]
      exact hput
    · -- the bits that were left, and as many zeros as six lacks
      have hsix : bitsOf 6 (n &&& 0x3f) = s.register.pending
          ++ List.replicate (6 - s.bitsCollected) false := by
        have hshift := bitsOf_shiftLeft (6 - s.bitsCollected) s.bitsCollected
          s.accumulator
        rw [Nat.add_sub_cancel' (Nat.le_of_lt hbits)] at hshift
        rw [show (0x3f : Nat) = 2 ^ 6 - 1 from rfl, bitsOf_and_mask, hn,
          show (0x100000000 : Nat) = 2 ^ 32 from rfl, bitsOf_mod (by decide)]
        exact hshift
      rw [stream_concat, hsix, ← List.append_assoc, ← h.bits]
  · refine ⟨s, ds, if_neg hpos, h.filled, 0, by decide, ?_⟩
    have hnil : s.register.pending = [] := by
      rw [Register.pending, show s.register.bits = 0 from Nat.eq_zero_of_not_pos hpos]
      rfl
    have hstream := h.bits
    rw [hnil, List.append_nil] at hstream
    rw [hstream, List.replicate_zero, List.append_nil]

theorem sizeSub_eq {a b : Nat} (hle : b ≤ a) (hlt : a < 0x10000000000000000) :
    sizeSub a b = a - b := by
  rw [sizeSub]
  omega

/-- The two loops of `base64_encode`, on every string that passes its size check. -/
theorem encoder_run (ndebug : Bool) (x : List UInt8) :
    ∃ s₁ s₂ ds, (⟨List.replicate ((x.length + 2) / 3 * 4) equalsSign, 0, 0, 0⟩
        : Encoder).bytes x = .ok s₁
      ∧ s₁.bitsCollected < 6 ∧ s₁.trail ndebug = .ok s₂
      ∧ Filled ((x.length + 2) / 3 * 4) ds s₂
      ∧ ∃ z, z < 6 ∧ stream 6 ds = bitStream x ++ List.replicate z false := by
  obtain ⟨total, htotal⟩ : ∃ total, total = (x.length + 2) / 3 * 4 := ⟨_, rfl⟩
  have hstart : Encoded total [] []
      ⟨List.replicate total equalsSign, 0, 0, 0⟩ :=
    ⟨⟨rfl, rfl, Nat.zero_le total, fun _ hd => absurd hd List.not_mem_nil⟩, rfl⟩
  obtain ⟨s₁, ds₁, hbytes, h₁, hbits₁⟩ := encoded_fold x [] [] _ hstart
    (show 0 < 6 by decide) (by rw [List.length_nil]; omega)
  rw [List.nil_append] at h₁
  obtain ⟨s₂, ds₂, htrail, h₂, hz⟩ := encoded_trail ndebug h₁ hbits₁ (by omega)
  rw [← htotal]
  exact ⟨s₁, s₂, ds₂, hbytes, hbits₁, htrail, h₂, hz⟩

/-- How many characters the bits of a string take. -/
theorem length_digits {z : Nat} (hz : z < 6)
    (hbits : stream 6 ds = bitStream x ++ List.replicate z false) :
    ds.length = (4 * x.length + 2) / 3 := by
  have hcount := congrArg List.length hbits
  rw [length_stream, List.length_append, length_bitStream,
    List.length_replicate] at hcount
  omega

/-- The text keeps its length. -/
theorem Filled.length (h : Filled total ds s) : s.retval.length = total := by
  have hroom := h.room
  rw [h.retval, List.length_append, List.length_map, List.length_replicate]
  omega

/-- A run whose assertions hold returns its text. -/
theorem base64Encode_of_run {ndebug : Bool} {s₁ s₂ : Encoder}
    (hlen : x.length ≤ 0xffffffffffffffff / 4 * 3)
    (hbytes : (⟨List.replicate ((x.length + 2) / 3 * 4) equalsSign, 0, 0, 0⟩
      : Encoder).bytes x = .ok s₁)
    (htrail : s₁.trail ndebug = .ok s₂)
    (hlow : sizeSub s₂.retval.length 2 ≤ s₂.outpos)
    (hhigh : s₂.outpos ≤ s₂.retval.length) :
    base64Encode ndebug x = .ok s₂.retval := by
  have hlow' : assert ndebug (s₂.outpos ≥ sizeSub s₂.retval.length 2) = .ok () :=
    if_pos (Or.inr hlow)
  have hhigh' : assert ndebug (s₂.outpos ≤ s₂.retval.length) = .ok () :=
    if_pos (Or.inr hhigh)
  rw [base64Encode, if_neg (Nat.not_lt.mpr hlen)]
  simp only [hbytes, htrail, hlow', hhigh']

/-- At most two places are left for padding. -/
theorem outpos_bounds {z : Nat} (h : Filled ((x.length + 2) / 3 * 4) ds s) (hz : z < 6)
    (hbits : stream 6 ds = bitStream x ++ List.replicate z false) (hne : x ≠ [])
    (hlen : x.length ≤ 0xffffffffffffffff / 4 * 3) :
    sizeSub s.retval.length 2 ≤ s.outpos ∧ s.outpos ≤ s.retval.length := by
  have hpos : 0 < x.length := List.length_pos_iff.mpr hne
  have hcount := length_digits hz hbits
  have hout := h.outpos
  rw [h.length]
  refine ⟨?_, ?_⟩
  · rw [sizeSub_eq (by omega) (by omega)]
    omega
  · omega

/-- **THE TEXT** of every string but the empty one. -/
theorem base64Encode_text (ndebug : Bool) (hne : x ≠ [])
    (hlen : x.length ≤ 0xffffffffffffffff / 4 * 3) :
    ∃ text ds, base64Encode ndebug x = .ok text ∧ TextOf x ds text := by
  obtain ⟨s₁, s₂, ds, hbytes, -, htrail, h, z, hz, hbits⟩ := encoder_run ndebug x
  obtain ⟨hlow, hhigh⟩ := outpos_bounds h hz hbits hne hlen
  exact ⟨s₂.retval, ds, base64Encode_of_run hlen hbytes htrail hlow hhigh,
    ⟨_, h.retval⟩, h.length, h.digits, z, hz, hbits⟩

end

/-! ## What the decoder reads -/

/-- The two locals that the decoder shifts bits through. -/
def Decoder.register (s : Decoder) : Register where
  acc := s.accumulator
  bits := s.bitsCollected

/-- The bits of the characters so far are in the result and in the register. -/
structure Decoded (ds : List Nat) (s : Decoder) : Prop where
  short : s.bitsCollected < 8
  bits : stream 6 ds = bitStream s.retval ++ s.register.pending

/-- The decoder's table undoes the encoder's. -/
theorem reverse_b64Char {d : Nat} (h : d < 64) :
    ¬ (isSpace (b64Char d) = true ∨ b64Char d = equalsSign)
      ∧ (b64Char d).toNat ≤ 127 ∧ reverseTable.getD (b64Char d).toNat 64 = d := by
  have hall : ∀ d : Fin 64,
      ¬ (isSpace (b64Char d) = true ∨ b64Char d = equalsSign)
        ∧ (b64Char d).toNat ≤ 127
        ∧ reverseTable.getD (b64Char d).toNat 64 = d := by decide +kernel
  exact hall ⟨d, h⟩

section

variable {x : List UInt8} {ds : List Nat} {s : Decoder}

/-- **A ROUND** of the decoder's loop takes six bits in. -/
theorem decoded_char (h : Decoded ds s) {d : Nat} (hd : d < 64) :
    ∃ s', s.char (b64Char d) = some s' ∧ Decoded (ds ++ [d]) s' := by
  obtain ⟨hskip, hascii, hrev⟩ := reverse_b64Char hd
  have hshort := h.short
  have hpush : stream 6 (ds ++ [d])
      = bitStream s.retval ++ (s.register.push 32 6 d).pending := by
    rw [pending_push hd (by show s.bitsCollected + 6 ≤ 32; omega),
      ← List.append_assoc, ← h.bits]
    exact stream_concat 6 ds d
  rw [Decoder.char, if_neg hskip, hrev, if_neg (by omega)]
  by_cases height : 8 ≤ s.bitsCollected + 6
  · refine ⟨_, if_pos height, ?_, ?_⟩
    · show s.bitsCollected + 6 - 8 < 8
      omega
    · -- eight bits are ready and go out
      have hpop : (s.register.push 32 6 d).pending
          = bitsOf 8 ((s.register.push 32 6 d).front 8)
            ++ ((s.register.push 32 6 d).pop 8).pending := pending_pop height
      have hbyte := front_lt 8 (s.register.push 32 6 d)
      rw [hpush, hpop, ← List.append_assoc]
      refine congrArg (· ++ _) ?_
      show _ = bitStream (s.retval ++ [UInt8.ofNat
        ((s.register.push 32 6 d).front 8)])
      rw [bitStream, bitStream, List.map_append, List.map_singleton, stream_concat,
        UInt8.toNat_ofNat', Nat.mod_eq_of_lt hbyte]
  · -- fewer, which stay in the register
    refine ⟨_, if_neg height, ?_, hpush⟩
    show s.bitsCollected + 6 < 8
    omega

/-- The loop takes all characters in. -/
theorem decoded_fold (cs : List Nat) :
    ∀ (ds : List Nat) (s : Decoder), Decoded ds s → (∀ c ∈ cs, c < 64) →
      ∃ s', Decoded (ds ++ cs) s'
        ∧ ∀ rest, s.chars (cs.map b64Char ++ rest) = s'.chars rest := by
  induction cs with
  | nil =>
      intro ds s h _
      rw [List.append_nil]
      exact ⟨s, h, fun _ => rfl⟩
  | cons c cs ih =>
      intro ds s h hcs
      obtain ⟨s₁, hchar, h₁⟩ := decoded_char h (hcs c List.mem_cons_self)
      obtain ⟨s₂, h₂, hrest⟩ := ih (ds ++ [c]) s₁ h₁
        (fun d hd => hcs d (List.mem_cons_of_mem c hd))
      rw [List.append_assoc] at h₂
      refine ⟨s₂, h₂, ?_⟩
      intro rest
      rw [List.map_cons, List.cons_append, Decoder.chars, hchar]
      exact hrest rest

/-- Padding is passed over. -/
theorem chars_padding (s : Decoder) (k : Nat) :
    s.chars (List.replicate k equalsSign) = some s := by
  induction k with
  | zero => rfl
  | succ k ih =>
      rw [List.replicate_succ, Decoder.chars, Decoder.char, if_pos (Or.inr rfl)]
      exact ih

/-- **THE TEXT IS DECODED** to the string it is the text of. -/
theorem base64Decode_text {text : List UInt8} (h : TextOf x ds text) :
    base64Decode text = x := by
  obtain ⟨k, htext⟩ := h.chars
  obtain ⟨z, hz, hbits⟩ := h.bits
  obtain ⟨s, hs, hchars⟩ := decoded_fold ds [] ⟨[], 0, 0⟩ ⟨by decide, rfl⟩ h.digits
  rw [base64Decode, htext, hchars, chars_padding]
  rw [List.nil_append] at hs
  have hbytes : ∀ xs : List UInt8, ∀ n ∈ xs.map UInt8.toNat, n < 2 ^ 8 := by
    intro xs n hn
    obtain ⟨b, -, hb⟩ := List.mem_map.mp hn
    rw [← hb]
    exact b.toNat_lt
  have hsame := stream_injective (hbytes s.retval) (hbytes x)
    (by rw [Register.pending, length_bitsOf]; exact hs.short)
    (by rw [List.length_replicate]; omega) (hs.bits.symm.trans hbits)
  exact (List.map_inj_right (fun _ _ => UInt8.toNat_inj.mp)).mp hsame

/-- A character gives at most six bits, whatever it is. -/
theorem char_bits {s' : Decoder} {c : UInt8} (h : s.char c = some s') :
    8 * s'.retval.length + s'.bitsCollected
      ≤ 8 * s.retval.length + s.bitsCollected + 6 := by
  rw [Decoder.char] at h
  by_cases hskip : isSpace c = true ∨ c = equalsSign
  · rw [if_pos hskip] at h
    cases h
    omega
  · rw [if_neg hskip] at h
    by_cases hbad : c.toNat > 127 ∨ reverseTable.getD c.toNat 64 > 63
    · rw [if_pos hbad] at h
      cases h
    · rw [if_neg hbad] at h
      by_cases height : 8 ≤ s.bitsCollected + 6
      · simp only [ge_iff_le, if_pos height, Option.some.injEq] at h
        rw [← h, List.length_append, List.length_singleton]
        show 8 * (s.retval.length + 1) + (s.bitsCollected + 6 - 8) ≤ _
        omega
      · simp only [ge_iff_le, if_neg height, Option.some.injEq] at h
        rw [← h]
        exact Nat.le_refl _

theorem chars_bits (cs : List UInt8) : ∀ (s s' : Decoder), s.chars cs = some s' →
    8 * s'.retval.length + s'.bitsCollected
      ≤ 8 * s.retval.length + s.bitsCollected + 6 * cs.length := by
  induction cs with
  | nil =>
      intro s s' h
      cases h
      exact Nat.le_refl _
  | cons c cs ih =>
      intro s s' h
      rw [Decoder.chars] at h
      cases hchar : s.char c with
      | none =>
          rw [hchar] at h
          cases h
      | some s₁ =>
          rw [hchar] at h
          have hone := char_bits hchar
          have hrest := ih s₁ s' h
          rw [List.length_cons]
          omega

/-- **WHAT IS DECODED** is at most three bytes for four characters, on any
    text. -/
theorem length_base64Decode_le (ascdata : List UInt8) :
    8 * (base64Decode ascdata).length ≤ 6 * ascdata.length := by
  rw [base64Decode]
  cases hchars : (⟨[], 0, 0⟩ : Decoder).chars ascdata with
  | none => exact Nat.zero_le _
  | some s =>
      have hbits : 8 * s.retval.length + s.bitsCollected
          ≤ 8 * 0 + 0 + 6 * ascdata.length :=
        chars_bits ascdata ⟨[], 0, 0⟩ s hchars
      show 8 * s.retval.length ≤ _
      omega

end

end Base64
