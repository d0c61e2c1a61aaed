import StpPlatform.Md5Stream

/-! # MD5, the results

    `MD5_Final` gives the digest of what the context has taken in, so
    `MD5_Calculate` writes the digest of its content in hexadecimal
    (`md5Calculate_digest`), and a message that comes in pieces has the digest of
    the whole (`md5_in_pieces`).  Two contents with one digest lead to two blocks
    and states that `MD5_Transform` does not tell apart (`md5_collision`); such
    contents are known, and two of them are the example. -/

namespace StpMd5

open BlockHash ByteOrder
open ByteMemory (Bytes read write)

/-! ## `MD5_Final` -/

section

variable {context : Context} {msg : List UInt8} {m : Nat}

/-- **INIT**: nothing has been hashed. -/
theorem represents_init (context : Context) : Represents (md5Init context) [] where
  state_eq := rfl
  buffer_eq := rfl
  count0_eq := rfl
  count1_eq := rfl

/-- The two counters as bytes are the length in bits. -/
theorem encode_count :
    md5Encode [UInt32.ofNat (8 * m), UInt32.ofNat (8 * m / 2 ^ 32)]
      = Md5Digest.padding.code m := by
  have hcode : Md5Digest.padding.code m
      = (toNetwork32 (8 * m)).reverse ++ (toNetwork32 (8 * m / 2 ^ 32)).reverse := rfl
  have hword : ∀ x, encodeWord (UInt32.ofNat x) = (toNetwork32 x).reverse := by
    intro x
    rw [encodeWord_eq, ← toNetwork32_mod x, UInt32.toNat_ofNat']
    rfl
  rw [hcode, md5Encode, List.flatMap_cons, List.flatMap_cons, List.flatMap_nil, hword, hword,
    List.append_nil]

/-- What `MD5_Final` takes from `PADDING`. -/
theorem take_padding {index padLen : UInt32} (hindex : index.toNat = m % 64)
    (hpad : padLen = if index < 56 then 56 - index else 120 - index) :
    padLen.toNat ≤ padding.length ∧ padding.take padLen.toNat = Md5Digest.padding.fill m := by
  -- `56 - index` or `120 - index`: to the next place that is 56 modulo 64
  have hlen : padLen.toNat = (119 - m % 64) % 64 + 1 := by
    have hlt := Nat.mod_lt m (by decide : 0 < 64)
    rw [hpad]
    by_cases hsmall : index < 56
    · have hsmall' : index.toNat < 56 := UInt32.lt_iff_toNat_lt.mp hsmall
      have hsub : (56 - index).toNat = 56 - index.toNat :=
        UInt32.toNat_sub_of_le _ _ (UInt32.le_iff_toNat_le.mpr hsmall'.le)
      rw [if_pos hsmall, hsub]
      omega
    · have hlarge : ¬ index.toNat < 56 := fun h => hsmall (UInt32.lt_iff_toNat_lt.mpr h)
      have hle : index.toNat ≤ 120 := by omega
      have hsub : (120 - index).toNat = 120 - index.toNat :=
        UInt32.toNat_sub_of_le _ _ (UInt32.le_iff_toNat_le.mpr hle)
      rw [if_neg hsmall, hsub]
      omega
  have hfill : Md5Digest.padding.fill m = 0x80 :: List.replicate ((119 - m % 64) % 64) 0 := rfl
  refine ⟨?_, ?_⟩
  · rw [hlen, padding, List.length_cons, List.length_replicate]
    omega
  · rw [hlen, hfill, padding, List.take_succ_cons, List.take_replicate,
      Nat.min_eq_left (by omega)]

/-- The words of the digest. -/
def digestWords (msg : List UInt8) : Words := Md5Digest.padding.digest md5Transform start msg

/-- The bytes that `MD5_Encode` makes of a state. -/
def encodeWords (w : Words) : List UInt8 := md5Encode [w.a, w.b, w.c, w.d]

/-- **FINAL**: the padded message is taken in, and the context is cleared. -/
theorem md5Final_eq (hrep : Represents context msg) :
    md5Final context = some (zeroed, encodeWords (digestWords msg)) := by
  have hindex : ((context.count0 >>> 3) &&& 0x3f).toNat = msg.length % 64 := by
    rw [hrep.count0_eq, toNat_index]
  obtain ⟨hpad, htake⟩ := take_padding hindex rfl
  have hpadLt := Nat.lt_of_le_of_lt hpad (by decide : padding.length < 65)
  -- the padding goes in
  obtain ⟨context₁, hupdate₁, hrep₁⟩ := update_represents hrep hpad (by omega)
  have hbits : md5Encode [context.count0, context.count1]
      = Md5Digest.padding.code msg.length := by
    rw [hrep.count0_eq, hrep.count1_eq, encode_count]
  have height : (8 : UInt32).toNat = (Md5Digest.padding.code msg.length).length := rfl
  have hcode := Md5Digest.padding.code_length msg.length
  have hwidth : Md5Digest.padding.width = 8 := rfl
  -- and the length, which ends a block
  obtain ⟨context₂, hupdate₂, hrep₂⟩ := update_represents hrep₁ height.le (by omega)
  have hstate : context₂.state = digestWords msg := by
    rw [hrep₂.state_eq, htake, height, List.take_length]
    rfl
  rw [md5Final, hupdate₁, hbits]
  dsimp only
  rw [hupdate₂]
  dsimp only
  rw [hstate, encodeWords]

/-- **THE DIGEST** of the specification. -/
theorem encode_digestWords (msg : List UInt8) :
    encodeWords (digestWords msg) = Md5Digest.digest msg := by
  have htuple : (digestWords msg).tuple
      = Md5Digest.padding.digest Md5Digest.compress Md5Digest.initial msg :=
    map_chain (fun s _ hlen => tuple_md5Transform s hlen)
  rw [Md5Digest.digest, ← htuple]
  simp only [encodeWords, md5Encode, List.flatMap_cons, List.flatMap_nil, encodeWord_eq, List.append_nil,
    List.append_assoc, Words.tuple]

end

/-! ## `MD5_Calculate` -/

/-- Hexadecimal digits as characters in memory. -/
def hexText (bs : List UInt8) : List UInt8 :=
  (Md5Digest.hex bs).map (fun c => UInt8.ofNat c.toNat)

/-- `sprintf` of one digit writes it and a zero byte. -/
theorem sprintfHex_eq {m : Bytes} {off v : Nat} (hv : v < 16) :
    sprintfHex m off v = write m off [UInt8.ofNat (Nat.digitChar v).toNat, 0] := by
  rw [sprintfHex, Nat.toDigits_of_lt_base hv]
  rfl

/-- The two halves of a byte. -/
theorem toNat_nibbles : ∀ b : UInt8,
    ((b &&& 0xF0) >>> 4).toNat = b.toNat / 16 ∧ (b &&& 0x0F).toNat = b.toNat % 16 := by
  have hall : ∀ n < 256, ((UInt8.ofNat n &&& 0xF0) >>> 4).toNat = n / 16 ∧
      (UInt8.ofNat n &&& 0x0F).toNat = n % 16 := by
    decide +kernel
  intro b
  have hb := hall b.toNat b.toNat_lt
  rwa [UInt8.ofNat_toNat] at hb

theorem hexText_append (bs bs' : List UInt8) : hexText (bs ++ bs') = hexText bs ++ hexText bs' := by
  rw [hexText, Md5Digest.hex, List.flatMap_append, List.map_append]
  rfl

theorem length_hexText (bs : List UInt8) : (hexText bs).length = 2 * bs.length := by
  induction bs with
  | nil => rfl
  | cons b bs ih =>
      rw [← List.singleton_append, hexText_append, List.length_append, ih, List.length_append]
      show 2 + _ = 2 * (1 + _)
      omega

/-- One byte: two digits and the zero behind them. -/
theorem sprintfByte_eq (m : Bytes) (b : UInt8) (i : Nat) :
    sprintfByte m (b, i) = write m (2 * i) (hexText [b] ++ [0]) := by
  obtain ⟨hhigh, hlow⟩ := toNat_nibbles b
  have hb := b.toNat_lt
  rw [sprintfByte, hhigh, hlow, sprintfHex_eq (by omega), sprintfHex_eq (by omega)]
  exact @ByteMemory.write_over m (2 * i) [UInt8.ofNat (Nat.digitChar (b.toNat / 16)).toNat] [0]
    [UInt8.ofNat (Nat.digitChar (b.toNat % 16)).toNat, 0] (Nat.le_succ 1)

/-- **THE LOOP OVER THE BYTES**: every byte goes behind those before it. -/
theorem sprintf_eq (m : Bytes) :
    ∀ (bs pre : List UInt8),
      (bs.zipIdx pre.length).foldl sprintfByte (write m 0 (hexText pre ++ [0]))
        = write m 0 (hexText (pre ++ bs) ++ [0]) := by
  intro bs
  induction bs with
  | nil =>
      intro pre
      rw [List.append_nil]
      rfl
  | cons b bs ih =>
      intro pre
      -- the two digits go over the zero byte of the one before
      have hstep : sprintfByte (write m 0 (hexText pre ++ [0])) (b, pre.length)
          = write m 0 (hexText (pre ++ [b]) ++ [0]) := by
        rw [sprintfByte_eq, ← length_hexText, ← Nat.zero_add (hexText pre).length,
          ByteMemory.write_over (Nat.le_add_left 1 _), hexText_append, List.append_assoc]
      have hlen : pre.length + 1 = (pre ++ [b]).length := by
        rw [List.length_append, List.length_singleton]
      rw [List.zipIdx_cons, List.foldl_cons, hstep, hlen, ih, List.append_assoc]
      rfl

/-- The memory at `md5`, whatever the local context holds. -/
theorem md5Calculate_words (context : Context) {pContent : List UInt8} {nLen : UInt32}
    (md5 : Bytes) (hlen : nLen.toNat ≤ pContent.length) :
    md5Calculate context pContent nLen md5
      = some (write md5 0
          (hexText (encodeWords (digestWords (pContent.take nLen.toNat))) ++ [0])) := by
  obtain ⟨context₁, hupdate, hrep⟩ := update_represents (represents_init context) hlen
    (Nat.lt_of_le_of_lt (Nat.le_of_eq (Nat.zero_add _)) nLen.toNat_lt)
  rw [List.nil_append] at hrep
  rw [md5Calculate, hupdate]
  dsimp only
  rw [md5Final_eq hrep]
  dsimp only
  -- the first byte makes the zero at the end that the others move
  cases hbytes : encodeWords (digestWords (pContent.take nLen.toNat)) with
  | nil => exact absurd hbytes (List.cons_ne_nil _ _)
  | cons b bs =>
      have hrest := sprintf_eq md5 bs [b]
      rw [List.zipIdx_cons, List.foldl_cons, sprintfByte_eq]
      exact congrArg some hrest

/-- **CALCULATE**: 32 hexadecimal digits of the digest and a zero byte, for every
    content and whatever the local context holds; nothing else is written. -/
theorem md5Calculate_digest (context : Context) {pContent : List UInt8} {nLen : UInt32}
    (md5 : Bytes) (hlen : nLen.toNat ≤ pContent.length) :
    md5Calculate context pContent nLen md5
      = some (write md5 0 (hexText (Md5Digest.digest (pContent.take nLen.toNat)) ++ [0])) := by
  rw [md5Calculate_words context md5 hlen, encode_digestWords]

/-- Two known bytes, and what the digest is there. -/
theorem md5Calculate_digest_ab :
    md5Calculate zeroed [0x61, 0x62] 2 (fun _ => 0)
        = some (write (fun _ => 0) 0 (hexText (Md5Digest.digest [0x61, 0x62]) ++ [0])) ∧
      (md5Calculate zeroed [0x61, 0x62] 2 (fun _ => 0)).map (read · 0 4)
        = some [0x31, 0x38, 0x37, 0x65] :=
  ⟨md5Calculate_digest zeroed _ (by decide), by decide +kernel⟩

/-! ## A message in pieces -/

/-- `MD5_Update` for one piece after the other. -/
def feed : Context → List (List UInt8 × UInt32) → Option Context
  | context, [] => some context
  | context, (buf, len) :: pieces =>
      match md5Update context buf len with
      | none => none
      | some context => feed context pieces

/-- What the pieces hold together. -/
def content (pieces : List (List UInt8 × UInt32)) : List UInt8 :=
  pieces.flatMap (fun p => p.1.take p.2.toNat)

/-- No piece is too long for the index that it finds, `m` bytes being taken in. -/
def Room : Nat → List (List UInt8 × UInt32) → Prop
  | _, [] => True
  | m, (_, len) :: pieces => m % 64 + len.toNat < 2 ^ 32 ∧ Room (m + len.toNat) pieces

/-- **THE RUN**: by induction on the pieces. -/
theorem feed_represents :
    ∀ {pieces : List (List UInt8 × UInt32)} {context : Context} {msg : List UInt8},
      Represents context msg → (∀ p ∈ pieces, p.2.toNat ≤ p.1.length) →
      (Room msg.length pieces ∧ ∃ context', feed context pieces = some context' ∧
          Represents context' (msg ++ content pieces)) ∨
        (¬ Room msg.length pieces ∧ feed context pieces = none) := by
  intro pieces
  induction pieces with
  | nil =>
      intro context msg hrep _
      refine Or.inl ⟨trivial, context, rfl, ?_⟩
      rwa [content, List.flatMap_nil, List.append_nil]
  | cons p pieces ih =>
      obtain ⟨buf, len⟩ := p
      intro context msg hrep hbuf
      have hlen : len.toNat ≤ buf.length := hbuf (buf, len) List.mem_cons_self
      have hlater : ∀ p ∈ pieces, p.2.toNat ≤ p.1.length :=
        fun p hp => hbuf p (List.mem_cons_of_mem _ hp)
      -- the index and the length are added in 32 bits
      by_cases hroom : msg.length % 64 + len.toNat < 2 ^ 32
      · obtain ⟨context₁, hupdate, hrep₁⟩ := update_represents hrep hlen hroom
        have hmsg : (msg ++ buf.take len.toNat).length = msg.length + len.toNat := by
          rw [List.length_append, List.length_take]
          omega
        have hfeed : feed context ((buf, len) :: pieces) = feed context₁ pieces := by
          rw [feed, hupdate]
        rw [hfeed]
        rcases ih hrep₁ hlater with ⟨hroom', context', hrun, hrep'⟩ | ⟨hroom', hrun⟩
        · rw [hmsg] at hroom'
          refine Or.inl ⟨⟨hroom, hroom'⟩, context', hrun, ?_⟩
          rwa [content, List.flatMap_cons, ← List.append_assoc]
        · rw [hmsg] at hroom'
          exact Or.inr ⟨fun h => hroom' h.2, hrun⟩
      · refine Or.inr ⟨fun h => hroom h.1, ?_⟩
        rw [feed, update_none hrep (by omega)]

/-- **IN PIECES**: cut anyhow, the message has the digest of the whole; and the
    calls come back exactly where no piece is too long for the index it finds. -/
theorem md5_in_pieces (context : Context) {pieces : List (List UInt8 × UInt32)}
    (hbuf : ∀ p ∈ pieces, p.2.toNat ≤ p.1.length) :
    ((feed (md5Init context) pieces).isSome ↔ Room 0 pieces) ∧
      ∀ context', feed (md5Init context) pieces = some context' →
        md5Final context' = some (zeroed, Md5Digest.digest (content pieces)) := by
  have hrun := feed_represents (represents_init context) hbuf
  rw [List.nil_append, List.length_nil] at hrun
  rcases hrun with ⟨hroom, context₁, hfeed, hrep⟩ | ⟨hroom, hfeed⟩
  · rw [hfeed]
    refine ⟨iff_of_true rfl hroom, ?_⟩
    rintro _ ⟨⟩
    rw [md5Final_eq hrep, encode_digestWords]
  · rw [hfeed]
    refine ⟨iff_of_false Bool.false_ne_true hroom, ?_⟩
    rintro _ ⟨⟩

/-- Two pieces that fill a block between them. -/
theorem md5_in_pieces_two :
    ((feed (md5Init zeroed) [(List.replicate 40 1, 40), (List.replicate 40 2, 30)]).isSome
        ↔ Room 0 [(List.replicate 40 1, 40), (List.replicate 40 2, 30)]) ∧
      ∀ context', feed (md5Init zeroed) [(List.replicate 40 1, 40), (List.replicate 40 2, 30)]
          = some context' →
        md5Final context' = some (zeroed, Md5Digest.digest
          (content [(List.replicate 40 1, 40), (List.replicate 40 2, 30)])) :=
  md5_in_pieces zeroed (by decide)

/-! ## Collisions -/

theorem digitChar_injective : ∀ m < 16, ∀ n < 16,
    UInt8.ofNat (Nat.digitChar m).toNat = UInt8.ofNat (Nat.digitChar n).toNat → m = n := by
  decide +kernel

theorem hexText_injective : ∀ {bs bs' : List UInt8}, hexText bs = hexText bs' → bs = bs' := by
  intro bs
  induction bs with
  | nil =>
      intro bs' h
      have hlen := congrArg List.length h
      rw [length_hexText, length_hexText] at hlen
      exact (List.length_eq_zero_iff.mp (by simpa using hlen.symm)).symm
  | cons b bs ih =>
      intro bs' h
      cases bs' with
      | nil => exact absurd h (List.cons_ne_nil _ _)
      | cons b' bs' =>
          obtain ⟨hhigh, h⟩ := List.cons.inj h
          obtain ⟨hlow, h⟩ := List.cons.inj h
          have hb := b.toNat_lt
          have hb' := b'.toNat_lt
          -- the digits tell the two halves of the byte
          have hdiv := digitChar_injective _ (by omega) _ (by omega) hhigh
          have hmod := digitChar_injective _ (by omega) _ (by omega) hlow
          rw [ih h, UInt8.toNat_inj.mp (by omega : b.toNat = b'.toNat)]

theorem encodeWord_injective {v v' : UInt32} (h : encodeWord v = encodeWord v') : v = v' := by
  rw [encodeWord_eq, encodeWord_eq] at h
  have hnet : toNetwork32 v.toNat = toNetwork32 v'.toNat := List.reverse_injective h
  refine UInt32.toNat_inj.mp ?_
  rw [← ofNetwork_toNetwork32 v.toNat_lt, hnet, ofNetwork_toNetwork32 v'.toNat_lt]

theorem encodeWords_injective {w w' : Words} (h : encodeWords w = encodeWords w') : w = w' := by
  -- every word has four bytes
  obtain ⟨ha, h⟩ := List.append_inj h rfl
  obtain ⟨hb, h⟩ := List.append_inj h rfl
  obtain ⟨hc, h⟩ := List.append_inj h rfl
  obtain ⟨hd, -⟩ := List.append_inj h rfl
  cases w
  cases w'
  cases encodeWord_injective ha
  cases encodeWord_injective hb
  cases encodeWord_injective hc
  cases encodeWord_injective hd
  rfl

/-- **COLLISIONS GO BACK TO `MD5_Transform`**: two contents with the same 32 digits
    meet, on the way, two different states and blocks that it does not tell apart. -/
theorem md5_collision {context context' : Context} {x y : List UInt8} {nx ny : UInt32}
    {mx my : Bytes} (hx : nx.toNat ≤ x.length) (hy : ny.toNat ≤ y.length)
    (hne : x.take nx.toNat ≠ y.take ny.toNat)
    (h : (md5Calculate context x nx mx).map (read · 0 32)
      = (md5Calculate context' y ny my).map (read · 0 32)) :
    Collides md5Transform 64 start (Md5Digest.padding.padded (x.take nx.toNat))
      (Md5Digest.padding.padded (y.take ny.toNat)) := by
  have hread : ∀ (m : Bytes) (w : Words), read (write m 0 (hexText (encodeWords w) ++ [0])) 0 32
      = hexText (encodeWords w) := by
    intro m w
    have hlen : (hexText (encodeWords w)).length = 32 := length_hexText _
    rw [← ByteMemory.read_take (by decide : 32 ≤ 33), ByteMemory.read_write_self, List.take_left' hlen]
    rw [List.length_append, hlen]
    rfl
  rw [md5Calculate_words _ _ hx, md5Calculate_words _ _ hy, Option.map_some, Option.map_some,
    hread, hread] at h
  have hwords := encodeWords_injective (hexText_injective (Option.some.inj h))
  have hlimit : ∀ (z : List UInt8) (n : UInt32),
      (z.take n.toNat).length < Md5Digest.padding.limit := by
    intro z n
    have hn := n.toNat_lt
    have hle := List.length_take_le n.toNat z
    show _ < 2 ^ 61
    omega
  exact Md5Digest.padding.collides_of_digest_eq (by decide) (hlimit x nx) (hlimit y ny) hne hwords

/-- Two contents of two blocks, apart in six bytes. -/
def leftContent : List UInt8 :=
  [ 0xd1, 0x31, 0xdd, 0x02, 0xc5, 0xe6, 0xee, 0xc4, 0x69, 0x3d, 0x9a, 0x06, 0x98, 0xaf, 0xf9, 0x5c,
    0x2f, 0xca, 0xb5, 0x87, 0x12, 0x46, 0x7e, 0xab, 0x40, 0x04, 0x58, 0x3e, 0xb8, 0xfb, 0x7f, 0x89,
    0x55, 0xad, 0x34, 0x06, 0x09, 0xf4, 0xb3, 0x02, 0x83, 0xe4, 0x88, 0x83, 0x25, 0x71, 0x41, 0x5a,
    0x08, 0x51, 0x25, 0xe8, 0xf7, 0xcd, 0xc9, 0x9f, 0xd9, 0x1d, 0xbd, 0xf2, 0x80, 0x37, 0x3c, 0x5b,
    0xd8, 0x82, 0x3e, 0x31, 0x56, 0x34, 0x8f, 0x5b, 0xae, 0x6d, 0xac, 0xd4, 0x36, 0xc9, 0x19, 0xc6,
    0xdd, 0x53, 0xe2, 0xb4, 0x87, 0xda, 0x03, 0xfd, 0x02, 0x39, 0x63, 0x06, 0xd2, 0x48, 0xcd, 0xa0,
    0xe9, 0x9f, 0x33, 0x42, 0x0f, 0x57, 0x7e, 0xe8, 0xce, 0x54, 0xb6, 0x70, 0x80, 0xa8, 0x0d, 0x1e,
    0xc6, 0x98, 0x21, 0xbc, 0xb6, 0xa8, 0x83, 0x93, 0x96, 0xf9, 0x65, 0x2b, 0x6f, 0xf7, 0x2a, 0x70 ]

/-- The same but for six bytes. -/
def rightContent : List UInt8 :=
  [ 0xd1, 0x31, 0xdd, 0x02, 0xc5, 0xe6, 0xee, 0xc4, 0x69, 0x3d, 0x9a, 0x06, 0x98, 0xaf, 0xf9, 0x5c,
    0x2f, 0xca, 0xb5, 0x07, 0x12, 0x46, 0x7e, 0xab, 0x40, 0x04, 0x58, 0x3e, 0xb8, 0xfb, 0x7f, 0x89,
    0x55, 0xad, 0x34, 0x06, 0x09, 0xf4, 0xb3, 0x02, 0x83, 0xe4, 0x88, 0x83, 0x25, 0xf1, 0x41, 0x5a,
    0x08, 0x51, 0x25, 0xe8, 0xf7, 0xcd, 0xc9, 0x9f, 0xd9, 0x1d, 0xbd, 0x72, 0x80, 0x37, 0x3c, 0x5b,
    0xd8, 0x82, 0x3e, 0x31, 0x56, 0x34, 0x8f, 0x5b, 0xae, 0x6d, 0xac, 0xd4, 0x36, 0xc9, 0x19, 0xc6,
    0xdd, 0x53, 0xe2, 0x34, 0x87, 0xda, 0x03, 0xfd, 0x02, 0x39, 0x63, 0x06, 0xd2, 0x48, 0xcd, 0xa0,
    0xe9, 0x9f, 0x33, 0x42, 0x0f, 0x57, 0x7e, 0xe8, 0xce, 0x54, 0xb6, 0x70, 0x80, 0x28, 0x0d, 0x1e,
    0xc6, 0x98, 0x21, 0xbc, 0xb6, 0xa8, 0x83, 0x93, 0x96, 0xf9, 0x65, 0xab, 0x6f, 0xf7, 0x2a, 0x70 ]

set_option maxRecDepth 4000 in
/-- Two contents of two blocks each, with the same digest. -/
theorem md5_collision_twoBlocks :
    Collides md5Transform 64 start (Md5Digest.padding.padded (leftContent.take 128))
      (Md5Digest.padding.padded (rightContent.take 128)) :=
  @md5_collision zeroed zeroed leftContent rightContent 128 128 (fun _ => 0) (fun _ => 0)
    (by decide) (by decide) (by decide) (by decide +kernel)

end StpMd5
