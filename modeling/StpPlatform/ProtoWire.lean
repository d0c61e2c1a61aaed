import Mathlib.Algebra.BigOperators.Group.List.Basic
import Mathlib.Data.Nat.Bitwise

/-! # The protocol buffer wire format

    A message on the wire is a sequence of fields, each a tag (field number and
    wire type) and a value: a varint of at most ten bytes, eight or four bytes,
    or a length and so many bytes.  `decode` reads the fields back, `decode_encode`
    is the round trip, and `length_encode_le` bounds the size of a message by its
    contents.

    The reader is that of the C++ runtime 2.5.0, on any bytes.  Of a tag or a
    length it keeps 32 bits; it passes over what has no place in the message,
    groups with all that is in them; a string must be there in full, while a
    sub-message that claims to be longer than what is left ends where that ends.

    Nothing here mentions the program. -/

namespace ProtoWire

/-! ## Varints -/

/-- Seven bits a byte, low bits first, for at most so many bytes. -/
def varintFuel : Nat → Nat → List UInt8
  | 0, _ => []
  | fuel + 1, n =>
      if n < 0x80 then [UInt8.ofNat n]
      else UInt8.ofNat (n % 0x80 + 0x80) :: varintFuel fuel (n / 0x80)

/-- A number of up to 64 bits. -/
def varint (n : Nat) : List UInt8 := varintFuel 10 n

/-- Seven bits from each byte, up to one without the continuation bit. -/
def readVarintFuel : Nat → List UInt8 → Option (Nat × List UInt8)
  | 0, _ => none
  | _ + 1, [] => none
  | fuel + 1, b :: bs =>
      if b.toNat < 0x80 then some (b.toNat, bs)
      else
        match readVarintFuel fuel bs with
        | none => none
        | some (n, rest) => some (b.toNat - 0x80 + 0x80 * n, rest)

/-- The varint at the front, and what follows it. -/
def readVarint (bs : List UInt8) : Option (Nat × List UInt8) :=
  readVarintFuel 10 bs

/-- A varint takes no more bytes than it may. -/
theorem length_varintFuel_le (fuel : Nat) :
    ∀ n, (varintFuel fuel n).length ≤ fuel := by
  induction fuel with
  | zero => exact fun _ => Nat.le_refl 0
  | succ fuel ih =>
      intro n
      rw [varintFuel]
      split
      · exact Nat.succ_le_succ (Nat.zero_le fuel)
      · exact Nat.succ_le_succ (ih (n / 0x80))

/-- **TEN BYTES** are enough for a varint. -/
theorem length_varint_le (n : Nat) : (varint n).length ≤ 10 :=
  length_varintFuel_le 10 n

/-- A number that fits a byte is kept by it. -/
theorem toNat_ofNat_lt {n : Nat} (h : n < 0x100) : (UInt8.ofNat n).toNat = n := by
  rw [UInt8.toNat_ofNat']
  exact Nat.mod_eq_of_lt h

/-- The reader undoes the writer: by induction on the bytes that are left. -/
theorem readVarintFuel_varintFuel (fuel : Nat) :
    ∀ (n : Nat) (rest : List UInt8), n < 0x80 ^ (fuel + 1) →
      readVarintFuel (fuel + 1) (varintFuel (fuel + 1) n ++ rest) = some (n, rest) := by
  induction fuel with
  | zero =>
      intro n rest hn
      rw [Nat.pow_one] at hn
      rw [varintFuel, if_pos hn, List.singleton_append, readVarintFuel,
        toNat_ofNat_lt (by omega), if_pos hn]
  | succ fuel ih =>
      intro n rest hn
      by_cases hlast : n < 0x80
      · rw [varintFuel, if_pos hlast, List.singleton_append, readVarintFuel,
          toNat_ofNat_lt (by omega), if_pos hlast]
      · -- a byte with the continuation bit, then the rest of the number
        have hbyte : n % 0x80 + 0x80 < 0x100 := by omega
        have hrest : n / 0x80 < 0x80 ^ (fuel + 1) := by
          rw [Nat.pow_succ] at hn
          exact Nat.div_lt_of_lt_mul (by rw [Nat.mul_comm]; exact hn)
        rw [varintFuel, if_neg hlast, List.cons_append, readVarintFuel,
          toNat_ofNat_lt hbyte, if_neg (by omega), ih _ rest hrest]
        simp only [Option.some.injEq, Prod.mk.injEq, and_true]
        omega

/-- **VARINTS** are read back, whatever follows them. -/
theorem readVarint_varint {n : Nat} (h : n < 0x10000000000000000)
    (rest : List UInt8) : readVarint (varint n ++ rest) = some (n, rest) :=
  readVarintFuel_varintFuel 9 n rest (Nat.lt_of_lt_of_le h (by decide))

/-- A varint takes at least one byte. -/
theorem readVarintFuel_length_lt {fuel : Nat} : ∀ {bs rest : List UInt8} {n : Nat},
    readVarintFuel fuel bs = some (n, rest) → rest.length < bs.length := by
  induction fuel with
  | zero =>
      intro bs rest n h
      cases h
  | succ fuel ih =>
      intro bs rest n h
      cases bs with
      | nil => cases h
      | cons b bs =>
          rw [readVarintFuel] at h
          split at h
          · cases h
            exact Nat.lt_succ_self _
          · cases hrec : readVarintFuel fuel bs with
            | none =>
                rw [hrec] at h
                cases h
            | some r =>
                rw [hrec] at h
                cases h
                exact Nat.lt_succ_of_lt (ih hrec)

/-- A tag or a length: the low 32 bits of a varint. -/
def readVarint32 (bs : List UInt8) : Option (Nat × List UInt8) :=
  (readVarint bs).map (fun r => (r.1 % 0x100000000, r.2))

/-- A tag or a length is read back. -/
theorem readVarint32_varint {n : Nat} (h : n < 0x100000000) (rest : List UInt8) :
    readVarint32 (varint n ++ rest) = some (n, rest) := by
  rw [readVarint32, readVarint_varint (by omega), Option.map_some,
    Nat.mod_eq_of_lt h]

/-- A tag or a length takes at least one byte. -/
theorem readVarint32_length_lt {bs rest : List UInt8} {n : Nat}
    (h : readVarint32 bs = some (n, rest)) : rest.length < bs.length := by
  obtain ⟨r, hr, heq⟩ := Option.map_eq_some_iff.mp h
  cases heq
  exact readVarintFuel_length_lt hr

/-! ## Values behind a tag -/

/-- The bytes of a string: a length with bit 31 is negative and refused, and so
    is one that goes beyond the message. -/
def readBytes (bs : List UInt8) : Option (List UInt8 × List UInt8) :=
  match readVarint32 bs with
  | none => none
  | some (n, rest) =>
      if 0x80000000 ≤ n ∨ rest.length < n then none
      else some (rest.take n, rest.drop n)

/-- The bytes of a sub-message: what its length allows of what is left.  A
    negative length allows all of it. -/
def readMessage (bs : List UInt8) : Option (List UInt8 × List UInt8) :=
  match readVarint32 bs with
  | none => none
  | some (n, rest) =>
      if 0x80000000 ≤ n then some (rest, []) else some (rest.take n, rest.drop n)

/-- A value of fixed size is passed over. -/
def skipFixed (size : Nat) (bs : List UInt8) : Option (List UInt8) :=
  if bs.length < size then none else some (bs.drop size)

/-- Pass over a value that is not a group. -/
def skipValue (wireType : Nat) (bs : List UInt8) : Option (List UInt8) :=
  match wireType with
  | 0 => (readVarint bs).map Prod.snd
  | 1 => skipFixed 8 bs
  | 2 => (readBytes bs).map Prod.snd
  | 5 => skipFixed 4 bs
  | _ => none

/-- Pass over the rest of group `number`, up to the tag that ends it; `depth` more
    groups may be opened inside one another. -/
def skipGroup (number : Nat) : Nat → Nat → List UInt8 → Option (List UInt8)
  | _, 0, _ => none
  | depth, fuel + 1, bs =>
      match readVarint32 bs with
      | none => none
      | some (tag, rest) =>
          if tag = 0 then none
          -- the end of a group, which must be this one
          else if tag % 8 = 4 then if tag / 8 = number then some rest else none
          else if tag % 8 = 3 then
            match depth with
            | 0 => none
            | depth + 1 =>
                match skipGroup (tag / 8) depth fuel rest with
                | none => none
                | some rest => skipGroup number (depth + 1) fuel rest
          else
            match skipValue (tag % 8) rest with
            | none => none
            | some rest => skipGroup number depth fuel rest

/-- A string is read back, whatever follows it. -/
theorem readBytes_append {bs : List UInt8} (h : bs.length < 0x80000000)
    (rest : List UInt8) :
    readBytes (varint bs.length ++ (bs ++ rest)) = some (bs, rest) := by
  rw [readBytes, readVarint32_varint (by omega)]
  simp only [List.length_append]
  rw [if_neg (by omega), List.take_left, List.drop_left]

theorem readMessage_append {bs : List UInt8} (h : bs.length < 0x80000000)
    (rest : List UInt8) :
    readMessage (varint bs.length ++ (bs ++ rest)) = some (bs, rest) := by
  rw [readMessage, readVarint32_varint (by omega)]
  simp only [if_neg (show ¬ 0x80000000 ≤ bs.length by omega), List.take_left,
    List.drop_left]

theorem skipFixed_length_le {size : Nat} {bs rest : List UInt8}
    (h : skipFixed size bs = some rest) : rest.length ≤ bs.length := by
  rw [skipFixed] at h
  split at h
  · cases h
  · cases h
    rw [List.length_drop]
    omega

theorem readBytes_length_le {bs value rest : List UInt8}
    (h : readBytes bs = some (value, rest)) : rest.length ≤ bs.length := by
  rw [readBytes] at h
  cases hr : readVarint32 bs with
  | none =>
      rw [hr] at h
      cases h
  | some r =>
      have hlt := readVarint32_length_lt hr
      simp only [hr] at h
      split at h
      · cases h
      · cases h
        rw [List.length_drop]
        omega

theorem readMessage_length_le {bs value rest : List UInt8}
    (h : readMessage bs = some (value, rest)) : rest.length ≤ bs.length := by
  rw [readMessage] at h
  cases hr : readVarint32 bs with
  | none =>
      rw [hr] at h
      cases h
  | some r =>
      have hlt := readVarint32_length_lt hr
      simp only [hr] at h
      split at h
      · cases h
        exact Nat.zero_le _
      · cases h
        rw [List.length_drop]
        omega

/-- No value gives bytes back to the message. -/
theorem skipValue_length_le {wireType : Nat} {bs rest : List UInt8}
    (h : skipValue wireType bs = some rest) : rest.length ≤ bs.length := by
  rw [skipValue.eq_def] at h
  split at h
  · obtain ⟨r, hr, heq⟩ := Option.map_eq_some_iff.mp h
    rw [← heq]
    exact Nat.le_of_lt (readVarintFuel_length_lt hr)
  · exact skipFixed_length_le h
  · obtain ⟨r, hr, heq⟩ := Option.map_eq_some_iff.mp h
    rw [← heq]
    exact readBytes_length_le hr
  · exact skipFixed_length_le h
  · cases h

/-- A group that was passed over took bytes of the message. -/
theorem skipGroup_length_le : ∀ {fuel number depth : Nat} {bs rest : List UInt8},
    skipGroup number depth fuel bs = some rest → rest.length ≤ bs.length := by
  intro fuel
  induction fuel with
  | zero =>
      intro number depth bs rest h
      cases h
  | succ fuel ih =>
      intro number depth bs rest h
      rw [skipGroup.eq_def] at h
      cases hr : readVarint32 bs with
      | none =>
          simp only [hr] at h
          cases h
      | some r =>
          obtain ⟨tag, rest₁⟩ := r
          have hlt := readVarint32_length_lt hr
          simp only [hr] at h
          split at h
          · cases h
          · split at h
            · split at h
              · cases h
                omega
              · cases h
            · split at h
              · -- a group inside this one
                cases depth with
                | zero => cases h
                | succ depth =>
                    cases hin : skipGroup (tag / 8) depth fuel rest₁ with
                    | none =>
                        simp only [hin] at h
                        cases h
                    | some rest₂ =>
                        simp only [hin] at h
                        have hin' := ih hin
                        have hout := ih h
                        omega
              · cases hv : skipValue (tag % 8) rest₁ with
                | none =>
                    simp only [hv] at h
                    cases h
                | some rest₂ =>
                    simp only [hv] at h
                    have hval := skipValue_length_le hv
                    have hout := ih h
                    omega

/-- **ENOUGH FUEL** is the length of what is left: more changes nothing. -/
theorem skipGroup_fuel : ∀ {fuel fuel' number depth : Nat} {bs : List UInt8},
    bs.length ≤ fuel → bs.length ≤ fuel' →
      skipGroup number depth fuel bs = skipGroup number depth fuel' bs := by
  have hnil : ∀ number depth fuel, skipGroup number depth fuel [] = none := by
    intro number depth fuel
    cases fuel with
    | zero => rw [skipGroup]
    | succ fuel =>
        rw [skipGroup.eq_def]
        rfl
  intro fuel
  induction fuel with
  | zero =>
      intro fuel' number depth bs hfuel _
      rw [List.length_eq_zero_iff.mp (Nat.le_zero.mp hfuel), hnil, hnil]
  | succ fuel ih =>
      intro fuel' number depth bs hfuel hfuel'
      cases fuel' with
      | zero =>
          rw [List.length_eq_zero_iff.mp (Nat.le_zero.mp hfuel'), hnil, hnil]
      | succ fuel' =>
          rw [skipGroup.eq_def, skipGroup.eq_def number]
          cases hr : readVarint32 bs with
          | none => simp only [hr]
          | some r =>
              obtain ⟨tag, rest⟩ := r
              have hlt := readVarint32_length_lt hr
              have hnext : ∀ number depth (rest' : List UInt8),
                  rest'.length ≤ rest.length → skipGroup number depth fuel rest'
                    = skipGroup number depth fuel' rest' :=
                fun number depth rest' hle => ih (by omega) (by omega)
              simp only [hr]
              -- the same branches on both sides, and shorter lists in each
              refine if_congr Iff.rfl rfl (if_congr Iff.rfl rfl
                (if_congr Iff.rfl ?_ ?_))
              · cases depth with
                | zero => rfl
                | succ depth =>
                    simp only [hnext _ depth rest (Nat.le_refl _)]
                    cases hin : skipGroup (tag / 8) depth fuel' rest with
                    | none => rfl
                    | some rest' => exact hnext _ _ _ (skipGroup_length_le hin)
              · cases hv : skipValue (tag % 8) rest with
                | none => rfl
                | some rest' => exact hnext _ _ _ (skipValue_length_le hv)

/-! ## Fields -/

/-- What is kept of a value: a number, or the bytes of a string or a sub-message. -/
inductive WireValue where
  | varint (n : Nat)
  | bytes (bs : List UInt8)
  deriving DecidableEq

/-- A field: its number, and what is kept of its value. -/
structure Field where
  number : Nat
  value : WireValue
  deriving DecidableEq

/-- A field on the wire, behind its tag. -/
def Field.encode (f : Field) : List UInt8 :=
  match f.value with
  | .varint n => varint (8 * f.number) ++ varint n
  | .bytes bs => varint (8 * f.number + 2) ++ (varint bs.length ++ bs)

/-- A message: its fields, one behind the other. -/
def encode (fs : List Field) : List UInt8 := fs.flatMap Field.encode

section

variable (sub : Nat → Bool) (depth : Nat)

/-- The value behind a tag, of a message whose sub-messages are the fields `sub`.
    A value of fixed size and a group are passed over; the end of a group ends the
    message too early. -/
def readValue (number wireType : Nat) (bs : List UInt8) :
    Option (Option Field × List UInt8) :=
  match wireType with
  | 0 => (readVarint bs).map (fun r =>
      (some ⟨number, .varint (r.1 % 0x10000000000000000)⟩, r.2))
  | 1 => (skipFixed 8 bs).map (fun rest => (none, rest))
  | 2 => (if sub number then readMessage bs else readBytes bs).map (fun r =>
      (some ⟨number, .bytes r.1⟩, r.2))
  | 3 =>
      match depth with
      | 0 => none
      | depth + 1 =>
          (skipGroup number depth bs.length bs).map (fun rest => (none, rest))
  | 5 => (skipFixed 4 bs).map (fun rest => (none, rest))
  | _ => none

/-- One field; a tag of `0` ends the message too early. -/
def readField (bs : List UInt8) : Option (Option Field × List UInt8) :=
  match readVarint32 bs with
  | none => none
  | some (tag, rest) =>
      if tag = 0 then none else readValue sub depth (tag / 8) (tag % 8) rest

/-- At most so many fields. -/
def decodeFuel : Nat → List UInt8 → Option (List Field)
  | _, [] => some []
  | 0, _ :: _ => none
  | fuel + 1, b :: bs =>
      match readField sub depth (b :: bs) with
      | none => none
      | some (f, rest) => (decodeFuel fuel rest).map (f.toList ++ ·)

/-- The fields of a message, in order. -/
def decode (bs : List UInt8) : Option (List Field) :=
  decodeFuel sub depth bs.length bs

end

/-- The tag fits 32 bits, a number its varint, and the length of a string or of a
    sub-message is not negative. -/
structure Field.Valid (f : Field) : Prop where
  positive : 0 < f.number
  number : f.number < 0x20000000
  value : match f.value with
    | .varint n => n < 0x10000000000000000
    | .bytes bs => bs.length < 0x80000000

section

variable {sub : Nat → Bool} {depth : Nat}

/-- A field is read back, whatever follows it. -/
theorem readField_encode {f : Field} (h : f.Valid) (rest : List UInt8) :
    readField sub depth (f.encode ++ rest) = some (some f, rest) := by
  obtain ⟨number, value⟩ := f
  obtain ⟨hpos, hnum, hvalue⟩ := h
  have hpos' : 0 < number := hpos
  have hnum' : number < 0x20000000 := hnum
  cases value with
  | varint n =>
      have hn : n < 0x10000000000000000 := hvalue
      rw [Field.encode, readField, List.append_assoc,
        readVarint32_varint (by omega)]
      simp only [show 8 * number / 8 = number by omega,
        show 8 * number % 8 = 0 by omega, if_neg (show ¬ 8 * number = 0 by omega),
        readValue, readVarint_varint hn, Option.map_some, Nat.mod_eq_of_lt hn]
  | bytes bs =>
      have hn : bs.length < 0x80000000 := hvalue
      -- a string or a sub-message: both are there in full
      have hbytes : (if sub number then readMessage (varint bs.length ++ (bs ++ rest))
          else readBytes (varint bs.length ++ (bs ++ rest))) = some (bs, rest) := by
        rw [readMessage_append hn, readBytes_append hn, ite_self]
      rw [Field.encode, readField, List.append_assoc,
        readVarint32_varint (by omega)]
      simp only [show (8 * number + 2) / 8 = number by omega,
        show (8 * number + 2) % 8 = 2 by omega,
        if_neg (show ¬ 8 * number + 2 = 0 by omega), readValue, List.append_assoc,
        hbytes, Option.map_some]

/-- No field is empty on the wire. -/
theorem encode_ne_nil {f : Field} (h : f.Valid) : f.encode ≠ [] := by
  intro hnil
  have hread := @readField_encode (fun _ => false) 0 f h []
  rw [hnil] at hread
  cases hread

/-- Every field takes bytes of the message. -/
theorem readField_length_lt {bs rest : List UInt8} {f : Option Field}
    (h : readField sub depth bs = some (f, rest)) : rest.length < bs.length := by
  rw [readField] at h
  cases hr : readVarint32 bs with
  | none =>
      rw [hr] at h
      cases h
  | some r =>
      obtain ⟨tag, rest₁⟩ := r
      have hlt := readVarint32_length_lt hr
      simp only [hr] at h
      have hvalue : rest.length ≤ rest₁.length := by
        split at h
        · cases h
        · rw [readValue.eq_def] at h
          split at h
          · obtain ⟨r, hr, heq⟩ := Option.map_eq_some_iff.mp h
            cases heq
            exact Nat.le_of_lt (readVarintFuel_length_lt hr)
          · obtain ⟨r, hr, heq⟩ := Option.map_eq_some_iff.mp h
            cases heq
            exact skipFixed_length_le hr
          · obtain ⟨r, hr, heq⟩ := Option.map_eq_some_iff.mp h
            cases heq
            split at hr
            · exact readMessage_length_le hr
            · exact readBytes_length_le hr
          · split at h
            · cases h
            · obtain ⟨r, hr, heq⟩ := Option.map_eq_some_iff.mp h
              cases heq
              exact skipGroup_length_le hr
          · obtain ⟨r, hr, heq⟩ := Option.map_eq_some_iff.mp h
            cases heq
            exact skipFixed_length_le hr
          · cases h
      omega

/-- **ENOUGH FUEL** for a message is its length. -/
theorem decodeFuel_eq_decode : ∀ {fuel : Nat} {bs : List UInt8}, bs.length ≤ fuel →
    decodeFuel sub depth fuel bs = decode sub depth bs := by
  have hfuel : ∀ {fuel fuel' : Nat} {bs : List UInt8}, bs.length ≤ fuel →
      bs.length ≤ fuel' →
        decodeFuel sub depth fuel bs = decodeFuel sub depth fuel' bs := by
    intro fuel
    induction fuel with
    | zero =>
        intro fuel' bs hle _
        rw [List.length_eq_zero_iff.mp (Nat.le_zero.mp hle), decodeFuel, decodeFuel]
    | succ fuel ih =>
        intro fuel' bs hle hle'
        cases bs with
        | nil => rw [decodeFuel, decodeFuel]
        | cons b bs =>
            cases fuel' with
            | zero => exact absurd hle' (Nat.not_succ_le_zero _)
            | succ fuel' =>
                rw [decodeFuel, decodeFuel]
                cases hr : readField sub depth (b :: bs) with
                | none => rfl
                | some r =>
                    have hlt := readField_length_lt hr
                    simp only
                    rw [@ih fuel' r.2 (by omega) (by omega)]
  intro fuel bs hle
  exact hfuel hle (Nat.le_refl _)

/-- The round trip, by induction on the fields. -/
theorem decodeFuel_encode (fs : List Field) :
    ∀ fuel, (encode fs).length ≤ fuel → (∀ f ∈ fs, f.Valid) →
      decodeFuel sub depth fuel (encode fs) = some fs := by
  induction fs with
  | nil =>
      intro fuel _ _
      cases fuel <;> rfl
  | cons f fs ih =>
      intro fuel hfuel hvalid
      have hf := hvalid f List.mem_cons_self
      have hsplit : encode (f :: fs) = f.encode ++ encode fs := rfl
      rw [hsplit, List.length_append] at hfuel
      rw [hsplit]
      cases he : f.encode with
      | nil => exact absurd he (encode_ne_nil hf)
      | cons b bs =>
          rw [he] at hfuel
          cases fuel with
          | zero =>
              rw [List.length_cons] at hfuel
              omega
          | succ fuel =>
              have hread := @readField_encode sub depth f hf (encode fs)
              rw [he, List.cons_append] at hread
              rw [List.cons_append, decodeFuel, hread]
              simp only [Option.toList_some]
              rw [ih fuel (by rw [List.length_cons] at hfuel; omega)
                (fun g hg => hvalid g (List.mem_cons_of_mem f hg))]
              rfl

/-- **ROUND TRIP** of the fields of a message. -/
theorem decode_encode {fs : List Field} (h : ∀ f ∈ fs, f.Valid) :
    decode sub depth (encode fs) = some fs :=
  decodeFuel_encode fs _ (Nat.le_refl _) h

end

/-- A group and what is in it leave no trace, and field `0` is a field. -/
example : decode (fun _ => false) 1 [0x0b, 0x10, 0x05, 0x0c, 0x02, 0x00, 0x10, 0x07]
    = some [⟨0, .bytes []⟩, ⟨2, .varint 7⟩] := by decide

/-- A group too deep, a group that is not ended, a tag of `0`. -/
example : decode (fun _ => false) 0 [0x0b, 0x0c] = none
    ∧ decode (fun _ => false) 1 [0x0b, 0x10, 0x05] = none
    ∧ decode (fun _ => false) 1 [0x00] = none := by decide

/-! ## Sizes -/

/-- What a field takes at most: two varints, and its bytes. -/
def Field.weight (f : Field) : Nat :=
  match f.value with
  | .varint _ => 20
  | .bytes bs => 20 + bs.length

/-- A field takes no more than its weight. -/
theorem length_field_le (f : Field) : f.encode.length ≤ f.weight := by
  obtain ⟨number, value⟩ := f
  cases value with
  | varint n =>
      have htag := length_varint_le (8 * number)
      have hval := length_varint_le n
      simp only [Field.encode, Field.weight, List.length_append]
      omega
  | bytes bs =>
      have htag := length_varint_le (8 * number + 2)
      have hlen := length_varint_le bs.length
      simp only [Field.encode, Field.weight, List.length_append]
      omega

/-- **SIZE**: a message is no longer than its fields' weights together. -/
theorem length_encode_le (fs : List Field) :
    (encode fs).length ≤ (fs.map Field.weight).sum := by
  induction fs with
  | nil => exact Nat.le_refl 0
  | cons f fs ih =>
      have hf := length_field_le f
      rw [show encode (f :: fs) = f.encode ++ encode fs from rfl,
        List.length_append, List.map_cons, List.sum_cons]
      omega

/-- The bytes of a field are part of the message. -/
theorem length_le_encode {fs : List Field} {number : Nat} {bs : List UInt8}
    (h : ⟨number, .bytes bs⟩ ∈ fs) : bs.length ≤ (encode fs).length := by
  obtain ⟨pre, post, hfs⟩ := List.append_of_mem h
  rw [hfs, encode, List.flatMap_append, List.flatMap_cons, Field.encode]
  simp only [List.length_append]
  omega

/-! ## Optional fields -/

/-- Field `k`, a number, if it is set. -/
def optVarint (k : Nat) (v : Option Nat) : List Field :=
  v.toList.map (fun n => ⟨k, .varint n⟩)

/-- Field `k`, a string or a sub-message, if it is set. -/
def optBytes (k : Nat) (v : Option (List UInt8)) : List Field :=
  v.toList.map (fun bs => ⟨k, .bytes bs⟩)

/-- The number, if this is field `k` and a number is in it. -/
def Field.varint? (k : Nat) (f : Field) : Option Nat :=
  match f.value with
  | .varint n => if f.number = k then some n else none
  | .bytes _ => none

/-- The bytes, if this is field `k` and bytes are in it. -/
def Field.bytes? (k : Nat) (f : Field) : Option (List UInt8) :=
  match f.value with
  | .varint _ => none
  | .bytes bs => if f.number = k then some bs else none

/-- The number in field `k`; of several the last one counts. -/
def lastVarint (k : Nat) (fs : List Field) : Option Nat :=
  (fs.filterMap (Field.varint? k)).getLast?

/-- The bytes in field `k`; of several the last ones count. -/
def lastBytes (k : Nat) (fs : List Field) : Option (List UInt8) :=
  (fs.filterMap (Field.bytes? k)).getLast?

/-- The fields of the sub-message in field `k`, which itself has none; several
    are merged, one behind the other. -/
def subMessage (depth k : Nat) (fs : List Field) : Option (Option (List Field)) :=
  match fs.filterMap (Field.bytes? k) with
  | [] => some none
  | bs :: rest =>
      ((bs :: rest).mapM (decode (fun _ => false) depth)).map
        (fun fss => some fss.flatten)

/-- Sizes add up. -/
theorem length_encode_append (fs gs : List Field) :
    (encode (fs ++ gs)).length = (encode fs).length + (encode gs).length := by
  rw [encode, List.flatMap_append, List.length_append]
  rfl

/-- A number takes at most two varints. -/
theorem length_optVarint_le (k : Nat) (v : Option Nat) :
    (encode (optVarint k v)).length ≤ 20 := by
  refine Nat.le_trans (length_encode_le _) ?_
  cases v <;> simp [optVarint, Field.weight]

/-- A string takes two varints and its bytes. -/
theorem length_optBytes_le (k : Nat) (v : Option (List UInt8)) :
    (encode (optBytes k v)).length ≤ 20 + (v.getD []).length := by
  refine Nat.le_trans (length_encode_le _) ?_
  cases v <;> simp [optBytes, Field.weight]

@[simp] theorem varint?_optVarint (j k : Nat) (v : Option Nat) :
    (optVarint k v).filterMap (Field.varint? j) = if k = j then v.toList else [] := by
  cases v with
  | none => simp [optVarint]
  | some n =>
      by_cases h : k = j <;> simp [optVarint, Field.varint?, h]

@[simp] theorem varint?_optBytes (j k : Nat) (v : Option (List UInt8)) :
    (optBytes k v).filterMap (Field.varint? j) = [] := by
  cases v <;> simp [optBytes, Field.varint?]

@[simp] theorem bytes?_optVarint (j k : Nat) (v : Option Nat) :
    (optVarint k v).filterMap (Field.bytes? j) = [] := by
  cases v <;> simp [optVarint, Field.bytes?]

@[simp] theorem bytes?_optBytes (j k : Nat) (v : Option (List UInt8)) :
    (optBytes k v).filterMap (Field.bytes? j) = if k = j then v.toList else [] := by
  cases v with
  | none => simp [optBytes]
  | some bs =>
      by_cases h : k = j <;> simp [optBytes, Field.bytes?, h]

@[simp] theorem getLast?_toList {α : Type} (v : Option α) :
    v.toList.getLast? = v := by
  cases v <;> rfl

/-- The fields of a sub-message are read back. -/
theorem subMessage_encode {depth k : Nat} {fs : List Field} {v : Option (List Field)}
    (h : fs.filterMap (Field.bytes? k) = (v.map encode).toList)
    (hv : ∀ gs, v = some gs → ∀ f ∈ gs, f.Valid) :
    subMessage depth k fs = some v := by
  cases v with
  | none => rw [subMessage, h]; rfl
  | some gs =>
      have hdecode := @decode_encode (fun _ => false) depth gs (hv gs rfl)
      rw [subMessage, h]
      simp only [Option.map_some, Option.toList_some, List.mapM_cons, List.mapM_nil,
        hdecode, Option.bind_eq_bind, Option.bind_some, Option.pure_def,
        List.flatten_cons, List.flatten_nil, List.append_nil]

/-- Numbers of 64 bits can be sent. -/
theorem valid_optVarint {k : Nat} (hk : 0 < k ∧ k < 0x20000000) {v : Option Nat}
    (hv : ∀ n, v = some n → n < 0x10000000000000000) :
    ∀ f ∈ optVarint k v, f.Valid := by
  intro f hf
  obtain ⟨n, hn, hfn⟩ := List.mem_map.mp hf
  rw [← hfn]
  exact ⟨hk.1, hk.2, hv n (Option.mem_toList.mp hn)⟩

/-- Strings of fewer than 2 GiB can be sent. -/
theorem valid_optBytes {k : Nat} (hk : 0 < k ∧ k < 0x20000000)
    {v : Option (List UInt8)}
    (hv : ∀ bs, v = some bs → bs.length < 0x80000000) :
    ∀ f ∈ optBytes k v, f.Valid := by
  intro f hf
  obtain ⟨bs, hbs, hfbs⟩ := List.mem_map.mp hf
  rw [← hfbs]
  exact ⟨hk.1, hk.2, hv bs (Option.mem_toList.mp hbs)⟩

end ProtoWire
