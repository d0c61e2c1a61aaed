import StpPlatform.Connection
import StpPlatform.StpServer
import StpPlatform.MsgDispatcher

/-! # The server's replies on the wire (`stpserver/stp_server`)

    Both handlers end alike: the reply is serialized into `send_buf_`, and if it
    fits, one message is sent.  A reply that does not fit would be dropped
    without a word, so `one_reply` rests on a bound for the reply's size:
    numbers take at most two varints each, and the only text in a reply is the
    key, which has 32 characters whatever state the store is in
    (`negotiated_key`). -/

namespace ServerReply

open Rpc RpcWire ByteMemory MsgDispatcher Connection
open SysVShm StpIdx StpDetail StpNegotiate StpInvariant StpContract StpServer

/-! ## The end of a handler -/

/-- `sizeof(send_buf_)`. -/
def sizeofSendBuf : Int32 := 1024

/-- The type of a reply, and the message object that holds it. -/
def replyType : S2C → Descriptor
  | .ping => .S2C_Ping
  | .stpCryptoNegotiate _ => .S2C_StpCryptoNegotiate

/-- The message object of an answer. -/
def replyObject : (rsp : S2C) → rpcWire.Msg (replyType rsp)
  | .ping => ()
  | .stpCryptoNegotiate rsp => S2CObject.of rsp

/-- From `int size = sizeof(send_buf_)` to the end of a handler: the connection
    and `send_buf_`. -/
def sendReply (h : Host) (f : AddFaults) (rsp : S2C) (sendBuf : Bytes)
    (conn : Conn) : Conn × Bytes :=
  let r := serializeToArray rpcWire (replyObject rsp) sendBuf sizeofSendBuf
  if r.ret then ((conn.sendNetMessage h f r.data).2, r.array) else (conn, r.array)

/-- What the two `HandleProtocol_` functions do to a connection, to `send_buf_`
    and to the store. -/
def handleProtocol (h : Host) (f : AddFaults) (cfg : Config) (env : CallEnv)
    (valid : Bool) (w : World) (sendBuf : Bytes) (conn : Conn) :
    C2S → Except Halt ((Conn × Bytes) × World)
  | .ping => .ok (sendReply h f handleProtocolPing sendBuf conn, w)
  | .stpCryptoNegotiate req =>
      match handleProtocolStpCryptoNegotiate cfg env valid w req with
      | .error e => .error e
      | .ok (ans, w) =>
          .ok (sendReply h f (.stpCryptoNegotiate ans.rsp) sendBuf conn, w)

/-! ## The size of a reply -/

section

variable {cfg : Config} {env : CallEnv} {valid : Bool} {w w' : World}
  {a out : NegotiateArgs} {req : C2SStpCryptoNegotiate} {ans : Answer}

theorem negotiatedItem_key {cg : CryptoGroup}
    (h : negotiateItem cfg env cg a w = .ok (true, out, w')) :
    out.key = keyText (env.random env.seed) := by
  rcases negotiateItem_ok h with ⟨hret, -⟩ | ⟨-, -, hout, -⟩
  · cases hret
  · rw [hout]
    rfl

theorem rollover_key (h : rollover cfg env a w = .ok (true, out, w')) :
    out.key = keyText (env.random env.seed) := by
  simp only [rollover] at h
  split at h
  · cases h
  · split at h
    · cases h
    · split at h
      · cases h
      · split at h
        · cases h
        · exact negotiatedItem_key h

/-- **THE KEY OF A GRANT** is drawn anew, in whatever state the store is. -/
theorem negotiated_key (h : cryptoNegotiate cfg env w a = .ok (true, out, w')) :
    out.key = keyText (env.random env.seed) := by
  simp only [cryptoNegotiate] at h
  split at h
  · cases h
  · split at h
    · cases h
    · split at h
      · cases h
      · split at h
        · split at h
          · exact rollover_key h
          · exact negotiatedItem_key h
        · exact negotiatedItem_key h

theorem length_keyText (random : Nat → Nat) : (keyText random).length = 32 := by
  rw [keyText, List.length_map, List.length_range]

theorem length_key_le
    (h : handleProtocolStpCryptoNegotiate cfg env valid w req = .ok (ans, w')) :
    ans.rsp.token.key.length ≤ 32 := by
  cases handler_effect h with
  | invalid _ => exact Nat.zero_le 32
  | failed _ _ _ _ _ _ => exact Nat.zero_le 32
  | granted stpGuid out _ _ _ hcall =>
      show out.key.length ≤ 32
      rw [negotiated_key hcall, length_keyText]

/-- **A REPLY FITS** `send_buf_`, with the worst of all numbers in it. -/
theorem length_envelope_le (rsp : S2CStpCryptoNegotiate) :
    (envelope rpcWire (replyObject (.stpCryptoNegotiate rsp))).serialize.length
      ≤ 226 + rsp.token.key.length := by
  have henv := Request.length_serialize_le
    (envelope rpcWire (replyObject (.stpCryptoNegotiate rsp)))
  have hmsg := length_serializeS2C_le (wrapS2C rsp)
  have hkey : (wrapS2C rsp).token.key = rsp.token.key := by
    cases ht : rsp.token? with
    | none => simp [S2CStpCryptoNegotiate.token, wrapS2C, ht]
    | some t => simp [S2CStpCryptoNegotiate.token, wrapS2C, ht, wrapToken, StpToken.key]
  have hmethod : (envelope rpcWire
      (replyObject (.stpCryptoNegotiate rsp))).method.length = 26 := rfl
  have hrequest : (envelope rpcWire
      (replyObject (.stpCryptoNegotiate rsp))).serializedRequest
        = serializeS2C (wrapS2C rsp) := rfl
  rw [hkey] at hmsg
  rw [hmethod, hrequest] at henv
  omega

end

/-! ## One request, one reply -/

/-- The body is one reply in its envelope, as the client's dispatcher reads it. -/
def Carries (body : List UInt8) (callback : Delegate) (d : Descriptor)
    (m : rpcWire.Msg d) : Prop :=
  stpClntMsgDispatcher.onceDispatch rpcWire body = (true, [⟨callback, d, m⟩])

/-- What a client is told about its request to negotiate. -/
structure Tells (req : C2SStpCryptoNegotiate) (valid negotiated : Prop)
    (m : S2CStpCryptoNegotiate) : Prop where
  res : m.res? = some m.res
  ok : m.res = .SR_OK ↔ req.stpGuid?.isSome ∧ valid ∧ negotiated
  stpGuid : m.stpGuid? = if m.res = .SR_OK then req.stpGuid? else none
  token : m.token?.isSome ↔ m.res = .SR_OK

/-- The reply to a request. -/
def RepliesTo (cfg : Config) (env : CallEnv) (valid : Bool) (w : World)
    (body : List UInt8) : C2S → Prop
  | .ping => Carries body .clntOnSyncS2C_Ping .S2C_Ping ()
  | .stpCryptoNegotiate req =>
      ∃ m : S2CObject,
        Carries body .clntOnSyncS2C_StpCryptoNegotiate .S2C_StpCryptoNegotiate m
          ∧ Tells req (valid = true)
            (∃ out w', cryptoNegotiate cfg env w (requestArgs req)
              = .ok (true, out, w')) m.1

section

variable {cfg : Config} {env : CallEnv} {valid : Bool} {w w' : World}
  {req : C2SStpCryptoNegotiate} {ans : Answer} {h : Host} {sendBuf : Bytes}
  {conn : Conn}

/-- A reply that fits is sent as one frame, and the client reads it. -/
theorem sendReply_fits {rsp : S2C} {callback : Delegate}
    (hreg : stpClntMsgDispatcher.callbackMap (replyType rsp) = some callback)
    (hfits : (envelope rpcWire (replyObject rsp)).serialize.length ≤ 1024) :
    ∃ body, (sendReply h ⟨false, false⟩ rsp sendBuf conn).1
        = { conn with evWriteBuf := conn.evWriteBuf ++ frame h body }
      ∧ body.length ≤ 1024
      ∧ Carries body callback (replyType rsp) (replyObject rsp) := by
  have hdisp : stpClntMsgDispatcher = stpSvrMsgDispatcher
    ∨ stpClntMsgDispatcher = stpClntMsgDispatcher := Or.inr rfl
  obtain ⟨hd, -⟩ := registered_cast hdisp hreg
  have hret : (serializeToArray rpcWire (replyObject rsp) sendBuf
      sizeofSendBuf).ret = true := serializeToArray_ret_iff.mpr (by
    show _ ≤ (1024 : Int)
    omega)
  refine ⟨(envelope rpcWire (replyObject rsp)).serialize, ?_, hfits, ?_⟩
  · rw [sendReply, if_pos hret, serializeToArray_data hret, sendNetMessage_ok]
  · exact onceDispatch_envelope hd hreg (rpcWire_inverts hdisp hreg) (by omega)

theorem tells_refusal {res : StpResult} {valid negotiated : Prop}
    (hres : res ≠ .SR_OK)
    (hnot : ¬ (req.stpGuid?.isSome ∧ valid ∧ negotiated)) :
    Tells req valid negotiated (wrapS2C (Answer.refusal res).rsp) := by
  refine ⟨rfl, ?_, ?_, ?_⟩
  · exact iff_of_false hres hnot
  · exact (if_neg hres).symm
  · exact iff_of_false (by simp [wrapS2C, Answer.refusal]) hres

/-- What the handler answers, the message tells. -/
theorem tells_answer
    (hcall : handleProtocolStpCryptoNegotiate cfg env valid w req
      = .ok (ans, w')) :
    Tells req (valid = true)
      (∃ out w', cryptoNegotiate cfg env w (requestArgs req) = .ok (true, out, w'))
      (wrapS2C ans.rsp) := by
  cases handler_effect hcall with
  | invalid hinvalid =>
      refine tells_refusal (by decide) ?_
      rintro ⟨hsome, hvalid, -⟩
      rcases hinvalid with hnone | hfalse
      · rw [hnone] at hsome
        cases hsome
      · rw [hfalse] at hvalid
        cases hvalid
  | failed stpGuid out _ _ _ hneg =>
      refine tells_refusal (by decide) ?_
      rintro ⟨-, -, out', w'', hneg'⟩
      rw [hneg] at hneg'
      cases hneg'
  | granted stpGuid out _ hguid hvalid hneg =>
      refine ⟨rfl, ?_, ?_, ?_⟩
      · refine iff_of_true rfl ⟨?_, hvalid, out, w', hneg⟩
        rw [hguid]
        rfl
      · exact hguid.symm
      · exact iff_of_true rfl rfl

/-- What the handler rests on: `CryptoNegotiate` returns for this request, if
    the request gets as far. -/
def NegotiationReturns (cfg : Config) (env : CallEnv) (valid : Bool) (w : World) :
    C2S → Prop
  | .ping => True
  | .stpCryptoNegotiate req =>
      req.stpGuid?.isSome → valid = true →
        ∃ r, cryptoNegotiate cfg env w (requestArgs req) = .ok r

/-- **THE HANDLER RETURNS** whatever the request lacks and whatever the database
    and the negotiation say. -/
theorem handler_returns
    (hreturns : NegotiationReturns cfg env valid w (.stpCryptoNegotiate req)) :
    ∃ r, handleProtocolStpCryptoNegotiate cfg env valid w req = .ok r := by
  cases hguid : req.stpGuid? with
  | none =>
      simp only [handleProtocolStpCryptoNegotiate, hguid]
      exact ⟨_, rfl⟩
  | some stpGuid =>
      cases valid with
      | false =>
          simp only [handleProtocolStpCryptoNegotiate, hguid]
          exact ⟨_, rfl⟩
      | true =>
          obtain ⟨⟨ret, out, w₁⟩, hcall⟩ := hreturns (by rw [hguid]; rfl) rfl
          simp only [handleProtocolStpCryptoNegotiate, hguid, hcall]
          -- granted or refused, there is an answer
          cases ret with
          | true => exact ⟨_, rfl⟩
          | false => exact ⟨_, rfl⟩

/-- **ONE REQUEST, ONE REPLY**: whatever a request holds, the handler returns
    with one frame appended to the connection, the reply to that request. -/
theorem one_reply {req : C2S} (hreturns : NegotiationReturns cfg env valid w req) :
    ∃ conn' sendBuf' w' body,
      handleProtocol h ⟨false, false⟩ cfg env valid w sendBuf conn req
          = .ok ((conn', sendBuf'), w')
        ∧ conn' = { conn with evWriteBuf := conn.evWriteBuf ++ frame h body }
        ∧ body.length ≤ 1024 ∧ RepliesTo cfg env valid w body req := by
  cases req with
  | ping =>
      obtain ⟨body, hconn, hlen, hcarries⟩ := @sendReply_fits h sendBuf conn .ping
        .clntOnSyncS2C_Ping rfl (by decide)
      exact ⟨_, _, _, body, rfl, hconn, hlen, hcarries⟩
  | stpCryptoNegotiate req =>
      obtain ⟨⟨ans, w'⟩, hans⟩ := handler_returns hreturns
      have hkey := length_key_le hans
      have hlen := length_envelope_le ans.rsp
      obtain ⟨body, hconn, hlen, hcarries⟩ := @sendReply_fits h sendBuf conn
        (.stpCryptoNegotiate ans.rsp) .clntOnSyncS2C_StpCryptoNegotiate rfl (by omega)
      have hcall : handleProtocol h ⟨false, false⟩ cfg env valid w sendBuf conn
          (.stpCryptoNegotiate req)
            = .ok (sendReply h ⟨false, false⟩ (.stpCryptoNegotiate ans.rsp) sendBuf
                conn, w') := by
        simp only [handleProtocol, hans]
      exact ⟨_, _, w', body, hcall, hconn, hlen, S2CObject.of ans.rsp, hcarries,
        tells_answer hans⟩

/-- A request to negotiate without a token, which names slot `0`. -/
def tokenless : C2SStpCryptoNegotiate := { stpGuid? := some 1, token? := none }

/-- The store grants it. -/
theorem negotiation_tokenless : NegotiationReturns oneSlot quietCall true freshWorld
    (.stpCryptoNegotiate tokenless) := by
  intro _ _
  exact ⟨_, @freshWorld_grants quietCall (requestArgs tokenless) (Int.le_refl 0) rfl⟩

theorem one_reply_tokenless :
    ∃ conn' sendBuf' w' body,
      handleProtocol (host64 .little) ⟨false, false⟩ oneSlot quietCall true freshWorld
          (fun _ => 0) (Conn.new []) (.stpCryptoNegotiate tokenless)
          = .ok ((conn', sendBuf'), w')
        ∧ conn' = { Conn.new [] with
            evWriteBuf := (Conn.new []).evWriteBuf ++ frame (host64 .little) body }
        ∧ body.length ≤ 1024
        ∧ RepliesTo oneSlot quietCall true freshWorld body
          (.stpCryptoNegotiate tokenless) :=
  one_reply negotiation_tokenless

end

end ServerReply
