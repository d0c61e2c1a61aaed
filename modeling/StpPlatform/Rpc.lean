import Mathlib.Data.Int.Order.Basic

/-! # The messages of `codec/rpc.proto`

    Every field is optional, so a message keeps for each field whether it was
    set; the accessors answer the protobuf default for a field that was not:
    `0` for numbers, the empty text, the first value of an enumeration, an
    empty sub-message.  A field is written `name?`, its accessor `name`. -/

namespace Rpc

/-- `enum StpResult`. -/
inductive StpResult where
  | SR_OK
  | SR_NegotiateFailed
  | SR_InvalidToken
  | SR_TokenExpired
  | SR_InvalidGuid
  | SR_ReportStatusFailed
  deriving DecidableEq, Repr

/-- `message StpToken`. -/
structure StpToken where
  stpGuid? : Option UInt64
  group? : Option Int
  idx? : Option Int
  expires? : Option Int
  key? : Option (List UInt8)
  deriving DecidableEq

/-- A token none of whose fields is set. -/
def StpToken.empty : StpToken := ⟨none, none, none, none, none⟩

/-- `stp_guid()`: an unset number reads as `0`. -/
def StpToken.stpGuid (t : StpToken) : UInt64 := t.stpGuid?.getD 0
/-- `group()`. -/
def StpToken.group (t : StpToken) : Int := t.group?.getD 0
/-- `idx()`. -/
def StpToken.idx (t : StpToken) : Int := t.idx?.getD 0
/-- `expires()`. -/
def StpToken.expires (t : StpToken) : Int := t.expires?.getD 0
/-- `key()`: unset bytes read as none. -/
def StpToken.key (t : StpToken) : List UInt8 := t.key?.getD []

/-- `bool StpToken::GenerateToken(...)` of `stpcomm/stp_token`; the result is
    always `true`.  The guid passes through `int64_t`, which keeps its bits. -/
def generateToken (stpGuid : UInt64) (group idx expires : Int)
    (key : List UInt8) : StpToken where
  stpGuid? := some stpGuid
  group? := some group
  idx? := some idx
  expires? := some expires
  key? := some key

/-- `message C2S_StpCryptoNegotiate`. -/
structure C2SStpCryptoNegotiate where
  stpGuid? : Option UInt64
  token? : Option StpToken
  deriving DecidableEq

/-- `token()`: an unset message reads as the default one. -/
def C2SStpCryptoNegotiate.token (m : C2SStpCryptoNegotiate) : StpToken :=
  m.token?.getD .empty

/-- `message S2C_StpCryptoNegotiate`. -/
structure S2CStpCryptoNegotiate where
  res? : Option StpResult
  stpGuid? : Option UInt64
  token? : Option StpToken
  deriving DecidableEq

/-- `res()`: an unset enumeration reads as its first value. -/
def S2CStpCryptoNegotiate.res (m : S2CStpCryptoNegotiate) : StpResult :=
  m.res?.getD .SR_OK

/-- `token()`. -/
def S2CStpCryptoNegotiate.token (m : S2CStpCryptoNegotiate) : StpToken :=
  m.token?.getD .empty

/-- The messages a client sends, by the type name in `Request.method`. -/
inductive C2S where
  | ping
  | stpCryptoNegotiate (req : C2SStpCryptoNegotiate)
  deriving DecidableEq

/-- The messages a server sends. -/
inductive S2C where
  | ping
  | stpCryptoNegotiate (rsp : S2CStpCryptoNegotiate)
  deriving DecidableEq

end Rpc
