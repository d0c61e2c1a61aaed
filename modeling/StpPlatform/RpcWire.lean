import Mathlib.Tactic.Common
import StpPlatform.ProtoWire
import StpPlatform.Rpc

/-! # `codec/rpc.proto` on the wire (`codec/rpc.pb.cc`)

    What the generated code writes for a message and reads back: a field that is
    not set takes no bytes, a sub-message is a field of bytes, and of the fields
    with a number it does not know the reader keeps none (`unknown_fields()` is
    not used).  A number goes over
    the wire with the 64 bits of its two's complement, and a reader takes the
    low ones its field has; `wrap` is what is left of a message then, and the
    round trips (`parse_serialize`) say that nothing else is lost. -/

namespace RpcWire

open ProtoWire Rpc

/-- `CodedInputStream::default_recursion_limit_`: how deep groups and sub-messages
    may be nested. -/
def recursionLimit : Nat := 64

/-! ## Numbers -/

/-- The 64 bits of an `int32` or an `int64`. -/
def ofInt (x : Int) : Nat := (x % 0x10000000000000000).toNat

/-- The 32-bit number in the low bits of a varint. -/
def toInt32 (n : Nat) : Int := Int.bmod n 0x100000000

/-- The 64-bit number in a varint. -/
def toInt64 (n : Nat) : Int := Int.bmod n 0x10000000000000000

theorem ofInt_lt (x : Int) : ofInt x < 0x10000000000000000 := by
  rw [ofInt]
  omega

/-- A negative number is written as its two's complement. -/
theorem natCast_ofInt (x : Int) : (ofInt x : Int) = x % 0x10000000000000000 :=
  Int.toNat_of_nonneg (Int.emod_nonneg x (by decide))

/-- A number of fewer bits is found in the low ones of the 64. -/
theorem bmod_ofInt (x : Int) {m : Nat} (h : (m : Int) ∣ 0x10000000000000000) :
    Int.bmod (ofInt x) m = Int.bmod x m := by
  rw [natCast_ofInt, ← Int.emod_bmod, Int.emod_emod_of_dvd x h, Int.emod_bmod]

/-- An `int32` field gives back the number, if that is one of 32 bits. -/
@[simp] theorem toInt32_ofInt (x : Int) :
    toInt32 (ofInt x) = Int.bmod x 0x100000000 :=
  bmod_ofInt x (by decide)

/-- An `int64` field gives it back, if it is one of 64. -/
@[simp] theorem toInt64_ofInt (x : Int) :
    toInt64 (ofInt x) = Int.bmod x 0x10000000000000000 :=
  bmod_ofInt x (by decide)

/-- The number of a value of `enum StpResult`. -/
def resultCode : StpResult → Nat
  | .SR_OK => 0
  | .SR_NegotiateFailed => 1
  | .SR_InvalidToken => 2
  | .SR_TokenExpired => 3
  | .SR_InvalidGuid => 4
  | .SR_ReportStatusFailed => 5

/-- The value of a number, where `StpResult_IsValid`. -/
def resultOfCode (n : Nat) : Option StpResult :=
  match n % 0x100000000 with
  | 0 => some .SR_OK
  | 1 => some .SR_NegotiateFailed
  | 2 => some .SR_InvalidToken
  | 3 => some .SR_TokenExpired
  | 4 => some .SR_InvalidGuid
  | 5 => some .SR_ReportStatusFailed
  | _ => none

theorem resultCode_lt (r : StpResult) : resultCode r < 0x10000000000000000 := by
  cases r <;> decide

/-- A number that was written for an enumerator is known to the reader. -/
@[simp] theorem resultOfCode_resultCode (r : StpResult) :
    resultOfCode (resultCode r) = some r := by
  cases r <;> rfl

/-! ## `message Request` -/

/-- `message Request`. -/
structure Request where
  method : List UInt8
  serializedRequest? : Option (List UInt8)
  deriving DecidableEq

/-- The accessor `serialized_request()`. -/
def Request.serializedRequest (r : Request) : List UInt8 :=
  r.serializedRequest?.getD []

/-- Its fields, in the order of their numbers. -/
def Request.toFields (r : Request) : List Field :=
  optBytes 1 (some r.method) ++ optBytes 2 r.serializedRequest?

/-- `Request::SerializeToArray`. -/
def Request.serialize (r : Request) : List UInt8 := encode r.toFields

/-- `method` is required. -/
def Request.ofFields (fs : List Field) : Option Request :=
  (lastBytes 1 fs).map (fun method => ⟨method, lastBytes 2 fs⟩)

/-- `ParseFromArray`: the whole of the bytes, or nothing. -/
def Request.parse (bs : List UInt8) : Option Request :=
  (decode (fun _ => false) recursionLimit bs).bind Request.ofFields

/-! ## `message StpToken` -/

/-- A field that is not set is not written. -/
def tokenFields (t : StpToken) : List Field :=
  optVarint 1 (t.stpGuid?.map UInt64.toNat) ++ optVarint 2 (t.group?.map ofInt)
    ++ optVarint 3 (t.idx?.map ofInt) ++ optVarint 4 (t.expires?.map ofInt)
    ++ optBytes 5 t.key?

/-- `StpToken::SerializeToArray`. -/
def serializeToken (t : StpToken) : List UInt8 := encode (tokenFields t)

/-- Where a field comes twice the last one counts, as in the parser's loop. -/
def tokenOfFields (fs : List Field) : StpToken where
  stpGuid? := (lastVarint 1 fs).map UInt64.ofNat
  group? := (lastVarint 2 fs).map toInt32
  idx? := (lastVarint 3 fs).map toInt32
  expires? := (lastVarint 4 fs).map toInt64
  key? := lastBytes 5 fs

/-- The token as fields of 32 and 64 bits keep it. -/
def wrapToken (t : StpToken) : StpToken :=
  { t with
    group? := t.group?.map (Int.bmod · 0x100000000)
    idx? := t.idx?.map (Int.bmod · 0x100000000)
    expires? := t.expires?.map (Int.bmod · 0x10000000000000000) }

/-! ## The pings -/

/-- `message C2S_Ping` and `message S2C_Ping` have no fields. -/
def serializePing (_ : Unit) : List UInt8 := encode []

/-- Nothing is in a ping that anybody reads. -/
def parsePing (bs : List UInt8) : Option Unit :=
  (decode (fun _ => false) recursionLimit bs).map (fun _ => ())

/-! ## `message C2S_StpCryptoNegotiate` -/

/-- The guid, and the token as a message of its own. -/
def c2sFields (m : C2SStpCryptoNegotiate) : List Field :=
  optVarint 1 (m.stpGuid?.map UInt64.toNat)
    ++ optBytes 2 (m.token?.map serializeToken)

/-- `C2S_StpCryptoNegotiate::SerializeToArray`. -/
def serializeC2S (m : C2SStpCryptoNegotiate) : List UInt8 := encode (c2sFields m)

/-- The token is one level further down. -/
def c2sOfFields (fs : List Field) : Option C2SStpCryptoNegotiate :=
  (subMessage (recursionLimit - 1) 2 fs).map (fun token =>
    { stpGuid? := (lastVarint 1 fs).map UInt64.ofNat
      token? := token.map tokenOfFields })

/-- `C2S_StpCryptoNegotiate::ParseFromArray`. -/
def parseC2S (bs : List UInt8) : Option C2SStpCryptoNegotiate :=
  (decode (fun k => k = 2) recursionLimit bs).bind c2sOfFields

/-- The request as it arrives: numbers are cut to the width of their fields. -/
def wrapC2S (m : C2SStpCryptoNegotiate) : C2SStpCryptoNegotiate :=
  { m with token? := m.token?.map wrapToken }

/-! ## `message S2C_StpCryptoNegotiate` -/

/-- The result, the guid and the token. -/
def s2cFields (m : S2CStpCryptoNegotiate) : List Field :=
  optVarint 1 (m.res?.map resultCode) ++ optVarint 2 (m.stpGuid?.map UInt64.toNat)
    ++ optBytes 3 (m.token?.map serializeToken)

/-- `S2C_StpCryptoNegotiate::SerializeToArray`. -/
def serializeS2C (m : S2CStpCryptoNegotiate) : List UInt8 := encode (s2cFields m)

/-- A result that is not a value of the enumeration is passed over. -/
def s2cOfFields (fs : List Field) : Option S2CStpCryptoNegotiate :=
  (subMessage (recursionLimit - 1) 3 fs).map (fun token =>
    { res? := ((fs.filterMap (Field.varint? 1)).filterMap resultOfCode).getLast?
      stpGuid? := (lastVarint 2 fs).map UInt64.ofNat
      token? := token.map tokenOfFields })

/-- `S2C_StpCryptoNegotiate::ParseFromArray`. -/
def parseS2C (bs : List UInt8) : Option S2CStpCryptoNegotiate :=
  (decode (fun k => k = 3) recursionLimit bs).bind s2cOfFields

/-- The answer as it arrives. -/
def wrapS2C (m : S2CStpCryptoNegotiate) : S2CStpCryptoNegotiate :=
  { m with token? := m.token?.map wrapToken }

/-! ## Round trips -/

section

variable {t : StpToken}

theorem map_lt {α : Type} {f : α → Nat} {b : Nat} (hf : ∀ x, f x < b)
    (v : Option α) : ∀ n, v.map f = some n → n < b := by
  intro n hn
  obtain ⟨x, -, hx⟩ := Option.map_eq_some_iff.mp hn
  rw [← hx]
  exact hf x

theorem guid_lt (g : UInt64) : g.toNat < 0x10000000000000000 := g.toNat_lt

/-- **ROUND TRIP** of an envelope. -/
theorem Request.parse_serialize {r : Request}
    (h : r.serialize.length < 0x80000000) :
    Request.parse r.serialize = some r := by
  have hvalid : ∀ f ∈ r.toFields, f.Valid := by
    refine List.forall_mem_append.mpr ⟨?_, ?_⟩
    · refine valid_optBytes (by decide) ?_
      intro bs hbs
      refine Nat.lt_of_le_of_lt (@length_le_encode _ 1 _ ?_) h
      simp [Request.toFields, optBytes, Option.some.inj hbs]
    · refine valid_optBytes (by decide) ?_
      intro bs hbs
      refine Nat.lt_of_le_of_lt (@length_le_encode _ 2 _ ?_) h
      simp [Request.toFields, optBytes, hbs]
  rw [Request.parse, Request.serialize, decode_encode hvalid]
  simp [Request.ofFields, Request.toFields, lastBytes]

/-- A token's fields can be read back, as long as its key is not too long for a
    length. -/
theorem valid_tokenFields (h : (serializeToken t).length < 0x80000000) :
    ∀ f ∈ tokenFields t, f.Valid := by
  simp only [tokenFields, List.forall_mem_append]
  refine ⟨⟨⟨⟨?_, ?_⟩, ?_⟩, ?_⟩, ?_⟩
  · exact valid_optVarint (by decide) (map_lt guid_lt _)
  · exact valid_optVarint (by decide) (map_lt ofInt_lt _)
  · exact valid_optVarint (by decide) (map_lt ofInt_lt _)
  · exact valid_optVarint (by decide) (map_lt ofInt_lt _)
  · refine valid_optBytes (by decide) ?_
    intro bs hbs
    refine Nat.lt_of_le_of_lt (@length_le_encode _ 5 _ ?_) h
    simp [tokenFields, optBytes, hbs]

/-- **TOKENS COME BACK**, with their numbers cut to width. -/
theorem tokenOfFields_tokenFields (t : StpToken) :
    tokenOfFields (tokenFields t) = wrapToken t := by
  simp [tokenOfFields, tokenFields, wrapToken, lastVarint, lastBytes,
    Function.comp_def]

/-- The token of a message is a sub-message of it. -/
theorem subMessage_token {depth k : Nat} {fs : List Field} {token? : Option StpToken}
    (hfs : fs.filterMap (Field.bytes? k) = (token?.map serializeToken).toList)
    (hmem : ∀ bs, token?.map serializeToken = some bs → ⟨k, .bytes bs⟩ ∈ fs)
    (h : (encode fs).length < 0x80000000) :
    subMessage depth k fs = some (token?.map tokenFields) := by
  refine subMessage_encode ?_ ?_
  · rw [hfs, Option.map_map]
    rfl
  · intro gs hgs
    obtain ⟨t, ht, hgs⟩ := Option.map_eq_some_iff.mp hgs
    rw [← hgs]
    refine valid_tokenFields (Nat.lt_of_le_of_lt (@length_le_encode _ k _ ?_) h)
    exact hmem _ (by rw [ht]; rfl)

/-- **ROUND TRIP** of a request to negotiate. -/
theorem parseC2S_serializeC2S {m : C2SStpCryptoNegotiate}
    (h : (serializeC2S m).length < 0x80000000) :
    parseC2S (serializeC2S m) = some (wrapC2S m) := by
  have hmem : ∀ bs, m.token?.map serializeToken = some bs →
      ⟨2, .bytes bs⟩ ∈ c2sFields m := by
    intro bs hbs
    simp [c2sFields, optBytes, hbs]
  have hvalid : ∀ f ∈ c2sFields m, f.Valid := by
    refine List.forall_mem_append.mpr ⟨?_, ?_⟩
    · exact valid_optVarint (by decide) (map_lt guid_lt _)
    · exact valid_optBytes (by decide)
        (fun bs hbs => Nat.lt_of_le_of_lt (length_le_encode (hmem bs hbs)) h)
  have htoken : subMessage (recursionLimit - 1) 2 (c2sFields m) = some (m.token?.map tokenFields) :=
    subMessage_token (by simp [c2sFields]) hmem h
  rw [parseC2S, serializeC2S, decode_encode hvalid, Option.bind_some, c2sOfFields,
    htoken]
  simp [wrapC2S, c2sFields, lastVarint, Function.comp_def,
    tokenOfFields_tokenFields]

/-- **ROUND TRIP** of a reply to one. -/
theorem parseS2C_serializeS2C {m : S2CStpCryptoNegotiate}
    (h : (serializeS2C m).length < 0x80000000) :
    parseS2C (serializeS2C m) = some (wrapS2C m) := by
  -- the token is the only sub-message
  have hmem : ∀ bs, m.token?.map serializeToken = some bs →
      ⟨3, .bytes bs⟩ ∈ s2cFields m := by
    intro bs hbs
    simp [s2cFields, optBytes, hbs]
  have hvalid : ∀ f ∈ s2cFields m, f.Valid := by
    simp only [s2cFields, List.forall_mem_append]
    refine ⟨⟨?_, ?_⟩, ?_⟩
    · exact valid_optVarint (by decide) (map_lt resultCode_lt _)
    · exact valid_optVarint (by decide) (map_lt guid_lt _)
    · exact valid_optBytes (by decide)
        (fun bs hbs => Nat.lt_of_le_of_lt (length_le_encode (hmem bs hbs)) h)
  have htoken : subMessage (recursionLimit - 1) 3 (s2cFields m) = some (m.token?.map tokenFields) :=
    subMessage_token (by simp [s2cFields]) hmem h
  rw [parseS2C, serializeS2C, decode_encode hvalid, Option.bind_some, s2cOfFields,
    htoken]
  cases hres : m.res? <;>
    simp [wrapS2C, s2cFields, lastVarint, Function.comp_def, hres,
      tokenOfFields_tokenFields]

/-! ## Messages whose numbers fit their fields -/

/-- What has arrived once is cut no further. -/
theorem wrapToken_wrapToken (t : StpToken) :
    wrapToken (wrapToken t) = wrapToken t := by
  simp [wrapToken, Function.comp_def]

theorem wrapC2S_wrapC2S (m : C2SStpCryptoNegotiate) :
    wrapC2S (wrapC2S m) = wrapC2S m := by
  simp [wrapC2S, Function.comp_def, wrapToken_wrapToken]

theorem wrapS2C_wrapS2C (m : S2CStpCryptoNegotiate) :
    wrapS2C (wrapS2C m) = wrapS2C m := by
  simp [wrapS2C, Function.comp_def, wrapToken_wrapToken]

/-- A `rpc::C2S_StpCryptoNegotiate` object. -/
def C2SObject : Type := { m : C2SStpCryptoNegotiate // wrapC2S m = m }

/-- A `rpc::S2C_StpCryptoNegotiate` object. -/
def S2CObject : Type := { m : S2CStpCryptoNegotiate // wrapS2C m = m }

/-- The object whose fields were set to the fields of `m`. -/
def C2SObject.of (m : C2SStpCryptoNegotiate) : C2SObject :=
  ⟨wrapC2S m, wrapC2S_wrapC2S m⟩

/-- The object that is made of an answer. -/
def S2CObject.of (m : S2CStpCryptoNegotiate) : S2CObject :=
  ⟨wrapS2C m, wrapS2C_wrapS2C m⟩

theorem C2SObject.of_wrap (m : C2SObject) : C2SObject.of (wrapC2S m.1) = m :=
  Subtype.ext ((wrapC2S_wrapC2S m.1).trans m.2)

theorem S2CObject.of_wrap (m : S2CObject) : S2CObject.of (wrapS2C m.1) = m :=
  Subtype.ext ((wrapS2C_wrapS2C m.1).trans m.2)

/-! ## Sizes -/

/-- Only the key has a length that depends on what is in it. -/
theorem length_serializeToken_le (t : StpToken) :
    (serializeToken t).length ≤ 100 + t.key.length := by
  have hguid := length_optVarint_le 1 (t.stpGuid?.map UInt64.toNat)
  have hgroup := length_optVarint_le 2 (t.group?.map ofInt)
  have hidx := length_optVarint_le 3 (t.idx?.map ofInt)
  have hexpires := length_optVarint_le 4 (t.expires?.map ofInt)
  have hkey := length_optBytes_le 5 t.key?
  rw [serializeToken, tokenFields]
  simp only [length_encode_append]
  rw [StpToken.key]
  omega

/-- An answer is little longer than the key in it. -/
theorem length_serializeS2C_le (m : S2CStpCryptoNegotiate) :
    (serializeS2C m).length ≤ 160 + m.token.key.length := by
  have hres := length_optVarint_le 1 (m.res?.map resultCode)
  have hguid := length_optVarint_le 2 (m.stpGuid?.map UInt64.toNat)
  have htoken := length_optBytes_le 3 (m.token?.map serializeToken)
  have hbytes : ((m.token?.map serializeToken).getD []).length
      ≤ 100 + m.token.key.length := by
    cases ht : m.token? with
    | none => exact Nat.zero_le _
    | some t =>
        rw [S2CStpCryptoNegotiate.token, ht]
        exact length_serializeToken_le t
  rw [serializeS2C, s2cFields]
  simp only [length_encode_append]
  omega

/-- The envelope takes the method, the message and two fields' overhead. -/
theorem Request.length_serialize_le (r : Request) :
    r.serialize.length ≤ 40 + r.method.length + r.serializedRequest.length := by
  have hmethod := length_optBytes_le 1 (some r.method)
  have hrequest := length_optBytes_le 2 r.serializedRequest?
  rw [Request.serialize, Request.toFields, length_encode_append,
    Request.serializedRequest]
  rw [Option.getD_some] at hmethod
  omega

/-- The envelope holds the method. -/
theorem Request.length_method_le (r : Request) :
    r.method.length ≤ r.serialize.length :=
  @length_le_encode _ 1 _ List.mem_cons_self

end

end RpcWire
