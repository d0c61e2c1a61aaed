import StpPlatform.Simulation
import StpPlatform.Session

/-! # The session does what the message network does

    `KeyAgreement` knows messages and two queues; `StpSession` knows bytes,
    buffers and envelopes.  `Refines` relates the two: the bytes on their way in
    each direction are the frames of the queue's messages, and nothing waits
    inside a process, since a packet is dispatched in the event that completes
    it.

    A message survives the trip for two reasons.  It fits the buffer it is
    serialized into, and its numbers fit the fields of the generated classes, so
    that what the other side reads is what was said (`requestsIn_body`,
    `repliesIn_body`).  Both are shown of every message the programs send, given
    that the time at which a token expires is an `int64_t`.

    What follows for every run: it is matched by a run of the network, so the
    two sides agree on the key whenever no byte is on its way, and the client is
    told, in order, the answers to what it has asked. -/

namespace StpSession

open LabelledRun Simulation StreamDecoder Rpc RpcWire MsgDispatcher Connection
  Framing SendFrames ServerReply KeyAgreement ProtoWire
open SysVShm StpIdx StpDetail StpNegotiate StpInvariant StpContract StpServer

/-! ## Bodies on their way -/

/-- The frames of the bodies `bs` are the bytes that `sender` has not written and
    those that `receiver` has not read. -/
structure Way (h : Host) (sender receiver : Conn) (bs : List (List UInt8)) :
    Prop where
  short : ∀ b ∈ bs, b.length < 0x100000000
  stream : receiver.evReadBuf ++ sender.evWriteBuf = encAll (frameCodec h) bs
  taken : receiver.readBufList = []

section Way

variable {h hr : Host} {side : Side} {sender receiver : Conn}
  {bs : List (List UInt8)}

/-- The link that starts here. -/
def linkFrom (sender receiver : Conn) (bs : List (List UInt8)) : Link where
  sender := sender
  reader := { conn := receiver, dispatched := [] }
  sent := bs
  received := receiver.evReadBuf

/-- What is on a way can be read at its end. -/
theorem Way.onTheWay (hway : Way h sender receiver bs) :
    OnTheWay h (linkFrom sender receiver bs) bs :=
  ⟨rfl, hway.short, hway.stream, rfl, hway.taken⟩

/-- A frame that is sent is the last one on its way. -/
theorem Way.send (hway : Way h sender receiver bs) {body : List UInt8}
    (hlen : body.length < 0x100000000) :
    Way h { sender with evWriteBuf := sender.evWriteBuf ++ frame h body } receiver
      (bs ++ [body]) := by
  have hstep : LinkStep h h .server (linkFrom sender receiver bs) (.send body) _ :=
    ⟨hlen, rfl⟩
  have hsent := onTheWay_send hway.onTheWay hstep
  rw [sendNetMessage_ok] at hsent
  exact ⟨hsent.short, hsent.stream, hsent.taken⟩

/-- **A READ EVENT** takes the first body, if any. -/
theorem Way.read (hmod : 0x100000006 ≤ hr.sizeMod)
    (hway : Way h sender receiver bs) (side : Side) (n : Nat) :
    ∃ bs', bs = (receiver.readEvent hr side (sender.evWriteBuf.take n)).1.toList
        ++ bs'
      ∧ Way h { sender with evWriteBuf := sender.evWriteBuf.drop n }
        (receiver.readEvent hr side (sender.evWriteBuf.take n)).2 bs' := by
  have hstep : LinkStep h hr side (linkFrom sender receiver bs) (.readEvent n) _ :=
    rfl
  obtain ⟨bs', hrest⟩ := onTheWay_readEvent hmod hway.onTheWay hstep
  exact ⟨bs', hrest.sent, hrest.short, hrest.stream, hrest.taken⟩

/-- **A READ EVENT WITH MESSAGES**: where the bodies are those of messages that
    are read back, the event delivers the first message, or nothing. -/
theorem Way.deliver {M : Type} {body : M → List UInt8} {read : List UInt8 → List M}
    {ms : List M} (hmod : 0x100000006 ≤ hr.sizeMod)
    (hway : Way h sender receiver (ms.map body))
    (hback : ∀ m ∈ ms, read (body m) = [m]) {n : Nat}
    {packet : Option (List UInt8)} {receiver' : Conn}
    (hread : receiver.readEvent hr side (sender.evWriteBuf.take n)
      = (packet, receiver')) :
    ∃ got rest, packet.toList.flatMap read = got ∧ ms = got ++ rest
      ∧ (got = [] ∨ ∃ m, got = [m])
      ∧ Way h { sender with evWriteBuf := sender.evWriteBuf.drop n } receiver'
        (rest.map body) := by
  obtain ⟨bs', hbs, hrest⟩ := hway.read hmod side n
  rw [hread] at hbs hrest
  cases packet with
  | none =>
      refine ⟨[], ms, rfl, rfl, Or.inl rfl, ?_⟩
      rw [show bs' = ms.map body from hbs.symm] at hrest
      exact hrest
  | some b =>
      cases ms with
      | nil => cases hbs
      | cons m ms =>
          obtain ⟨hbody, htail⟩ := List.cons.inj hbs
          refine ⟨[m], ms, ?_, rfl, Or.inr ⟨m, rfl⟩, ?_⟩
          · have hm := hback m List.mem_cons_self
            rw [hbody] at hm
            simp only [Option.toList_some, List.flatMap_cons, List.flatMap_nil,
              List.append_nil, hm]
          · rw [show bs' = ms.map body from htail.symm] at hrest
            exact hrest

/-- The two directions of a connection do not meet. -/
theorem Way.congr {sender' receiver' : Conn} (hway : Way h sender receiver bs)
    (hwrite : sender'.evWriteBuf = sender.evWriteBuf)
    (hread : receiver'.evReadBuf = receiver.evReadBuf)
    (hlist : receiver'.readBufList = receiver.readBufList) :
    Way h sender' receiver' bs := by
  refine ⟨hway.short, ?_, ?_⟩
  · rw [hwrite, hread]
    exact hway.stream
  · rw [hlist]
    exact hway.taken

/-- With no byte under way, nothing is. -/
theorem Way.nothing (hway : Way h sender receiver bs)
    (hread : receiver.evReadBuf = []) (hwrite : sender.evWriteBuf = []) :
    bs = [] := by
  have hstream := hway.stream
  rw [hread, hwrite] at hstream
  cases bs with
  | nil => rfl
  | cons b bs =>
      -- a frame has a header
      have hlen := congrArg List.length hstream
      have hframe : (frame h b).length = headSize + b.length := length_frame h b
      have hsize : headSize = 6 := rfl
      simp only [encAll, List.flatMap_cons, frameCodec, List.length_append, hframe]
        at hlen
      rw [List.length_nil] at hlen
      omega

end Way

/-! ## Messages that survive the trip -/

/-- What goes over the wire for a request, and for a reply. -/
def requestBody (req : C2S) : List UInt8 :=
  (envelope rpcWire (requestObject req)).serialize

/-- The body of a reply, as the handler serialises it. -/
def replyBody (rsp : S2C) : List UInt8 :=
  (envelope rpcWire (replyObject rsp)).serialize

/-- The numbers of a message fit the fields of its class. -/
def RequestKept : C2S → Prop
  | .ping => True
  | .stpCryptoNegotiate req => wrapC2S req = req

/-- The client reads the reply as the server wrote it. -/
def ReplyKept : S2C → Prop
  | .ping => True
  | .stpCryptoNegotiate rsp => wrapS2C rsp = rsp

/-- **A REQUEST ARRIVES** as it was sent. -/
theorem requestsIn_body {req : C2S} (hkept : RequestKept req)
    (hlen : (requestBody req).length < 0x80000000) :
    requestsIn (requestBody req) = [req] := by
  cases req with
  | ping =>
      have hin : stpSvrMsgDispatcher.onceDispatch rpcWire (requestBody .ping)
          = (true, [⟨.svrOnSyncC2S_Ping, .C2S_Ping, ()⟩]) :=
        onceDispatch_envelope (by decide) rfl (rpcWire_inverts (Or.inl rfl) rfl) hlen
      rw [requestsIn, hin]
      rfl
  | stpCryptoNegotiate req =>
      have hin : stpSvrMsgDispatcher.onceDispatch rpcWire
            (requestBody (.stpCryptoNegotiate req))
          = (true, [⟨.svrOnSyncC2S_StpCryptoNegotiate, .C2S_StpCryptoNegotiate,
              C2SObject.of req⟩]) :=
        onceDispatch_envelope
          (show Descriptor.C2S_StpCryptoNegotiate ∈ rpcDescriptors by decide) rfl
          (rpcWire_inverts (Or.inl rfl) rfl) hlen
      rw [requestsIn, hin]
      show [C2S.stpCryptoNegotiate (wrapC2S req)] = _
      rw [show wrapC2S req = req from hkept]

/-- **A REPLY ARRIVES** as it was sent. -/
theorem repliesIn_body {rsp : S2C} (hkept : ReplyKept rsp)
    (hlen : (replyBody rsp).length < 0x80000000) :
    repliesIn (replyBody rsp) = [rsp] := by
  cases rsp with
  | ping =>
      have hin : stpClntMsgDispatcher.onceDispatch rpcWire (replyBody .ping)
          = (true, [⟨.clntOnSyncS2C_Ping, .S2C_Ping, ()⟩]) :=
        onceDispatch_envelope (by decide) rfl (rpcWire_inverts (Or.inr rfl) rfl) hlen
      rw [repliesIn, hin]
      rfl
  | stpCryptoNegotiate rsp =>
      have hin : stpClntMsgDispatcher.onceDispatch rpcWire
            (replyBody (.stpCryptoNegotiate rsp))
          = (true, [⟨.clntOnSyncS2C_StpCryptoNegotiate, .S2C_StpCryptoNegotiate,
              S2CObject.of rsp⟩]) :=
        onceDispatch_envelope
          (show Descriptor.S2C_StpCryptoNegotiate ∈ rpcDescriptors by decide) rfl
          (rpcWire_inverts (Or.inr rfl) rfl) hlen
      rw [repliesIn, hin]
      show [S2C.stpCryptoNegotiate (wrapS2C rsp)] = _
      rw [show wrapS2C rsp = rsp from hkept]

/-- A request of the client: it fits `buf_`, and arrives. -/
structure Sendable (req : C2S) : Prop where
  kept : RequestKept req
  fits : (requestBody req).length ≤ 2048

/-- A reply that fits the buffer and survives the trip. -/
structure Returnable (rsp : S2C) : Prop where
  kept : ReplyKept rsp
  fits : (replyBody rsp).length ≤ 1024

theorem sendable_heartBeat : Sendable StpClient.timerHeartBeatCallback :=
  ⟨trivial, by decide⟩

theorem sendable_negotiate (stpGuid : UInt64) :
    Sendable (StpClient.cryptoNegotiateCallback stpGuid) := by
  refine ⟨rfl, ?_⟩
  have henv := Request.length_serialize_le
    (envelope rpcWire (requestObject (StpClient.cryptoNegotiateCallback stpGuid)))
  have hguid := length_optVarint_le 1 (some stpGuid.toNat)
  have hmethod : (envelope rpcWire (requestObject
      (StpClient.cryptoNegotiateCallback stpGuid))).method.length = 26 := rfl
  have hrequest : (envelope rpcWire (requestObject
        (StpClient.cryptoNegotiateCallback stpGuid))).serializedRequest
      = encode (optVarint 1 (some stpGuid.toNat)) := by
    show encode (optVarint 1 (some stpGuid.toNat) ++ []) = _
    rw [List.append_nil]
  rw [hmethod, hrequest] at henv
  rw [requestBody]
  omega

/-- A request that is sent is a frame more to be written. -/
theorem sendRequest_sendable {h : Host} {req : C2S} {buf : ByteMemory.Bytes}
    {conn : Conn} (hreq : Sendable req) :
    (sendRequest h ⟨false, false⟩ req buf conn).1
      = { conn with
          evWriteBuf := conn.evWriteBuf ++ frame h (requestBody req) } := by
  have hfits := hreq.fits
  have hret : (serializeToArray rpcWire (requestObject req) buf sizeofBuf).ret
      = true := serializeToArray_ret_iff.mpr (by
    show ((requestBody req).length : Int) ≤ 2048
    omega)
  rw [sendRequest, if_pos hret, serializeToArray_data hret, sendNetMessage_ok]
  rfl

theorem sendReply_returnable {h : Host} {rsp : S2C} {sendBuf : ByteMemory.Bytes}
    {conn : Conn} (hrsp : Returnable rsp) :
    (sendReply h ⟨false, false⟩ rsp sendBuf conn).1
      = { conn with
          evWriteBuf := conn.evWriteBuf ++ frame h (replyBody rsp) } := by
  have hfits := hrsp.fits
  have hret : (serializeToArray rpcWire (replyObject rsp) sendBuf
      sizeofSendBuf).ret = true := serializeToArray_ret_iff.mpr (by
    show ((replyBody rsp).length : Int) ≤ 1024
    omega)
  rw [sendReply, if_pos hret, serializeToArray_data hret, sendNetMessage_ok]
  rfl

theorem returnable_ping : Returnable handleProtocolPing :=
  ⟨trivial, by decide⟩

section Answer

variable {cfg : Config} {env : CallEnv} {valid : Bool} {w w' : World}
  {req : C2SStpCryptoNegotiate} {ans : Answer}

/-- The group and the index of a kept request fit a reply. -/
theorem token_kept (hkept : wrapC2S req = req) :
    Int.bmod req.token.group 0x100000000 = req.token.group
      ∧ Int.bmod req.token.idx 0x100000000 = req.token.idx := by
  cases ht : req.token? with
  | none =>
      rw [C2SStpCryptoNegotiate.token, ht]
      exact ⟨rfl, rfl⟩
  | some t =>
      have htoken : wrapToken t = t := by
        have hm := congrArg C2SStpCryptoNegotiate.token? hkept
        rw [wrapC2S, ht] at hm
        exact Option.some.inj hm
      rw [C2SStpCryptoNegotiate.token, ht, Option.getD_some, StpToken.group,
        StpToken.idx]
      refine ⟨?_, ?_⟩
      · have hgroup := congrArg StpToken.group? htoken
        cases hg : t.group? with
        | none => rfl
        | some g =>
            simp only [wrapToken, hg, Option.map_some, Option.some.injEq] at hgroup
            exact hgroup
      · have hidx := congrArg StpToken.idx? htoken
        cases hi : t.idx? with
        | none => rfl
        | some i =>
            simp only [wrapToken, hi, Option.map_some, Option.some.injEq] at hidx
            exact hidx

/-- **WHAT THE HANDLER ANSWERS** can be sent and read back. -/
theorem returnable_answer (hinv : StoreInv cfg w) (htime : InTime cfg env)
    (hkept : wrapC2S req = req)
    (hcall : handleProtocolStpCryptoNegotiate cfg env valid w req
      = .ok (ans, w')) :
    Returnable (.stpCryptoNegotiate ans.rsp) := by
  refine ⟨?_, ?_⟩
  · obtain ⟨cg, hcg⟩ := hinv.current
    cases handler_effect hcall with
    | invalid _ => rfl
    | failed _ _ _ _ _ _ => rfl
    | granted stpGuid out _ _ _ hneg =>
        cases cryptoNegotiate_effect (hinv.currentGroup hcg) hneg with
        | granted _ _ _ _ _ =>
            obtain ⟨hgroup, hidx⟩ := token_kept hkept
            obtain ⟨hlow, hhigh⟩ := htime
            have hexpires : Int.bmod (env.now + cfg.tokenExpires)
                0x10000000000000000 = env.now + cfg.tokenExpires :=
              Int.bmod_eq_of_le (by omega) (by omega)
            show wrapS2C _ = _
            simp only [wrapS2C, wrapToken, Answer.grant, generateToken,
              Option.map_some, grantedArgs, requestArgs, hgroup, hidx, hexpires]
  · have hkey := length_key_le hcall
    have hlen := length_envelope_le ans.rsp
    rw [replyBody]
    omega

end Answer

/-! ## The relation -/

/-- What a reply says about its request: a ping is answered by a ping, and a
    grant names the guid, the group and the index that were asked for. -/
def Answers : C2S → S2C → Prop
  | .ping, .ping => True
  | .stpCryptoNegotiate req, .stpCryptoNegotiate rsp =>
      rsp.res = .SR_OK → rsp.stpGuid? = req.stpGuid?
        ∧ rsp.token.group = req.token.group ∧ rsp.token.idx = req.token.idx
  | _, _ => False

/-- What a handled request is answered with answers it. -/
theorem answers_answer {cfg : Config} {env : CallEnv} {valid : Bool}
    {w w' : World} {req : C2SStpCryptoNegotiate} {ans : Answer}
    (hinv : StoreInv cfg w)
    (hcall : handleProtocolStpCryptoNegotiate cfg env valid w req
      = .ok (ans, w')) :
    Answers (.stpCryptoNegotiate req) (.stpCryptoNegotiate ans.rsp) := by
  intro hok
  obtain ⟨cg, hcg⟩ := hinv.current
  cases handler_effect hcall with
  | invalid _ => exact nomatch hok
  | failed _ _ _ _ _ _ => exact nomatch hok
  | granted stpGuid out _ hguid _ hneg =>
      cases cryptoNegotiate_effect (hinv.currentGroup hcg) hneg with
      | granted _ _ _ _ _ => exact ⟨hguid.symm, rfl, rfl⟩

/-- The bytes of the session are the messages on the wire of the network, and
    what has been asked is what was answered and what is still to be answered.
    While an event is handled, its message is in an inbox of the network. -/
structure Matches (hs hc : Host) (s : Session) (n : Net) : Prop where
  server : n.server = s.server
  client : n.client = s.client
  requests : Way hc s.clientConn s.serverConn (n.c2s.map requestBody)
  replies : Way hs s.serverConn s.clientConn (n.s2c.map replyBody)
  sendable : ∀ req ∈ n.serverInbox ++ n.c2s, Sendable req
  returnable : ∀ rsp ∈ n.clientInbox ++ n.s2c, Returnable rsp
  answered : ∃ done, s.asked = done ++ (n.serverInbox ++ n.c2s)
    ∧ List.Forall₂ Answers done (s.told ++ (n.clientInbox ++ n.s2c))

/-- Between two events no message is inside a process. -/
structure Refines (hs hc : Host) (s : Session) (n : Net) : Prop extends
    Matches hs hc s n where
  serverInbox : n.serverInbox = []
  clientInbox : n.clientInbox = []

/-- The network with the session's processes and nothing under way. -/
def Session.net (s : Session) : Net where
  server := s.server
  client := s.client
  c2s := []
  serverInbox := []
  s2c := []
  clientInbox := []

/-- Both processes have been started and the connection between them was just
    made. -/
structure Opened (cfg : Config) (s : Session) : Prop where
  started : Started cfg s.net
  serverConn : ∃ junk, s.serverConn = Conn.new junk
  clientConn : ∃ junk, s.clientConn = Conn.new junk
  asked : s.asked = []
  told : s.told = []

section Steps

variable {hs hc : Host} {cfg : Config} {stpGuid : UInt64} {s s' : Session}
  {n : Net}

/-- Two new connections carry nothing. -/
theorem refines_new (hserver : ∃ junk, s.serverConn = Conn.new junk)
    (hclient : ∃ junk, s.clientConn = Conn.new junk) (hasked : s.asked = [])
    (htold : s.told = []) : Refines hs hc s s.net := by
  obtain ⟨junk, hserver⟩ := hserver
  obtain ⟨junk', hclient⟩ := hclient
  have hway : ∀ (h : Host) (junk junk' : List UInt8),
      Way h (Conn.new junk) (Conn.new junk') [] := by
    intro h junk junk'
    exact ⟨fun b hb => (nomatch hb), rfl, rfl⟩
  refine ⟨⟨rfl, rfl, ?_, ?_, fun _ h => (nomatch h), fun _ h => (nomatch h),
    ⟨[], hasked, ?_⟩⟩, rfl, rfl⟩
  · rw [hserver, hclient]
    exact hway hc _ _
  · rw [hserver, hclient]
    exact hway hs _ _
  · rw [htold]
    exact .nil

/-- Two processes that have just connected. -/
theorem refines_opened (hopen : Opened cfg s) : Refines hs hc s s.net :=
  refines_new hopen.serverConn hopen.clientConn hopen.asked hopen.told

/-- **A TIMER** puts one request on its way. -/
theorem matches_ask {req : C2S} (h : Matches hs hc s n) (hreq : Sendable req) :
    Matches hs hc (s.ask hc req) { n with c2s := n.c2s ++ [req] } := by
  obtain ⟨done, hasked, hdone⟩ := h.answered
  have hlen := hreq.fits
  obtain ⟨conn', hconn'⟩ : ∃ conn', conn'
      = (sendRequest hc ⟨false, false⟩ req s.buf s.clientConn).1 := ⟨_, rfl⟩
  have hsent := hconn'.trans (sendRequest_sendable hreq)
  have hask : s.ask hc req
      = { s with
          buf := (sendRequest hc ⟨false, false⟩ req s.buf s.clientConn).2
          clientConn := conn'
          asked := s.asked ++ [req] } := by
    rw [hconn']
    rfl
  rw [hask]
  refine ⟨h.server, h.client, ?_, ?_, ?_, h.returnable, ⟨done, ?_, hdone⟩⟩
  · show Way hc conn' s.serverConn ((n.c2s ++ [req]).map requestBody)
    rw [hsent, List.map_append]
    exact h.requests.send (Nat.lt_of_le_of_lt hlen (by decide))
  · refine h.replies.congr rfl ?_ ?_
    · rw [hsent]
    · rw [hsent]
  · intro r hr
    rw [← List.append_assoc] at hr
    rcases List.mem_append.mp hr with hr | hr
    · exact h.sendable r hr
    · rw [List.mem_singleton.mp hr]
      exact hreq
  · show s.asked ++ [req] = done ++ (n.serverInbox ++ (n.c2s ++ [req]))
    rw [hasked]
    simp only [List.append_assoc]

/-- **AN ANSWER**: the handler puts one reply on its way. -/
theorem matches_reply {server : World} {sendBuf : ByteMemory.Bytes} {req : C2S}
    {rsp : S2C} {rest : List C2S} (h : Matches hs hc s n)
    (hinbox : n.serverInbox = req :: rest) (hrsp : Returnable rsp)
    (hanswers : Answers req rsp) :
    Matches hs hc
      { s with
        server := server
        sendBuf := sendBuf
        serverConn := { s.serverConn with
          evWriteBuf := s.serverConn.evWriteBuf ++ frame hs (replyBody rsp) } }
      { n with
        server := server
        serverInbox := rest
        s2c := n.s2c ++ [rsp] } := by
  obtain ⟨done, hasked, hdone⟩ := h.answered
  have hlen := hrsp.fits
  refine ⟨rfl, h.client, h.requests.congr rfl rfl rfl, ?_, ?_, ?_,
    ⟨done ++ [req], ?_, ?_⟩⟩
  · show Way hs _ s.clientConn ((n.s2c ++ [rsp]).map replyBody)
    rw [List.map_append]
    exact h.replies.send (Nat.lt_of_le_of_lt hlen (by decide))
  · intro r hr
    refine h.sendable r ?_
    rw [hinbox]
    exact List.mem_cons_of_mem req hr
  · intro r hr
    rw [← List.append_assoc] at hr
    rcases List.mem_append.mp hr with hr | hr
    · exact h.returnable r hr
    · rw [List.mem_singleton.mp hr]
      exact hrsp
  · rw [hasked, hinbox]
    simp only [List.append_assoc, List.cons_append, List.nil_append]
  · have hsplit : s.told ++ (n.clientInbox ++ (n.s2c ++ [rsp]))
        = s.told ++ (n.clientInbox ++ n.s2c) ++ [rsp] := by
      simp only [List.append_assoc]
    rw [hsplit]
    exact List.rel_append hdone (.cons hanswers .nil)

/-- **ONE HANDLED REQUEST** is one step of the server on messages. -/
theorem matches_answer {env : CallEnv} {valid : Bool} {req : C2S}
    {rest : List C2S} (h : Matches hs hc s n)
    (hinbox : n.serverInbox = req :: rest) (hinv : StoreInv cfg n.server)
    (htime : InTime cfg env)
    (hcall : s.answer hs cfg env valid req = .ok s') :
    ∃ n', NetStep cfg stpGuid n .serverHandles n' ∧ n'.serverInbox = rest
      ∧ n'.clientInbox = n.clientInbox ∧ Matches hs hc s' n' := by
  cases req with
  | ping =>
      have hnext := @matches_reply hs hc s n s.server
        (sendReply hs ⟨false, false⟩ handleProtocolPing s.sendBuf s.serverConn).2
        .ping handleProtocolPing rest h hinbox returnable_ping trivial
      have hs' : s' = { s with
          sendBuf := (sendReply hs ⟨false, false⟩ handleProtocolPing s.sendBuf
            s.serverConn).2
          serverConn := (sendReply hs ⟨false, false⟩ handleProtocolPing s.sendBuf
            s.serverConn).1 } := (Except.ok.inj hcall).symm
      refine ⟨_, .serverPing n rest hinbox, rfl, rfl, ?_⟩
      rw [hs', sendReply_returnable returnable_ping]
      exact ⟨h.server, hnext.client, hnext.requests, hnext.replies,
        hnext.sendable, hnext.returnable, hnext.answered⟩
  | stpCryptoNegotiate req =>
      cases hans : handleProtocolStpCryptoNegotiate cfg env valid s.server req with
      | error e =>
          simp only [Session.answer, handleProtocol, hans] at hcall
          cases hcall
      | ok r =>
          obtain ⟨ans, server⟩ := r
          have hmem : C2S.stpCryptoNegotiate req ∈ n.serverInbox ++ n.c2s := by
            rw [hinbox]
            exact List.mem_cons_self
          rw [← h.server] at hans
          have hret := returnable_answer hinv htime (h.sendable _ hmem).kept hans
          refine ⟨_, .serverNegotiate n req rest env valid ans server hinbox hans,
            rfl, rfl, ?_⟩
          rw [h.server] at hans
          simp only [Session.answer, handleProtocol, hans] at hcall
          cases hcall
          rw [sendReply_returnable hret]
          exact matches_reply h hinbox hret (answers_answer (h.server ▸ hinv) hans)

/-- **A READ EVENT AT THE SERVER** delivers the first request, or nothing. -/
theorem matches_serverRead (hmod : 0x100000006 ≤ hs.sizeMod)
    (h : Matches hs hc s n) {k : Nat} {packet : Option (List UInt8)}
    {serverConn : Conn}
    (hread : s.serverConn.readEvent hs .server (s.clientConn.evWriteBuf.take k)
      = (packet, serverConn)) :
    ∃ got rest, packet.toList.flatMap requestsIn = got ∧ n.c2s = got ++ rest
      ∧ (got = [] ∨ ∃ m, got = [m])
      ∧ Matches hs hc
        { s with
          clientConn :=
            { s.clientConn with evWriteBuf := s.clientConn.evWriteBuf.drop k }
          serverConn := serverConn }
        { n with
          c2s := rest
          serverInbox := n.serverInbox ++ got } := by
  have hback : ∀ req ∈ n.c2s, requestsIn (requestBody req) = [req] := by
    intro req hreq
    have hsend := h.sendable req (List.mem_append_right _ hreq)
    exact requestsIn_body hsend.kept (Nat.lt_of_le_of_lt hsend.fits (by decide))
  have hwrite := @readEvent_evWriteBuf hs s.serverConn .server
    (s.clientConn.evWriteBuf.take k)
  rw [hread] at hwrite
  obtain ⟨got, rest, hgot, hsplit, hone, hway⟩ :=
    h.requests.deliver hmod hback hread
  refine ⟨got, rest, hgot, hsplit, hone, h.server, h.client, hway,
    h.replies.congr hwrite rfl rfl, ?_, h.returnable, ?_⟩
  -- the same requests, some of them inside the server now
  · rw [List.append_assoc, ← hsplit]
    exact h.sendable
  · rw [List.append_assoc, ← hsplit]
    exact h.answered

/-- **A READ EVENT AT THE CLIENT** delivers the first reply, or nothing. -/
theorem matches_clientRead (hmod : 0x100000006 ≤ hc.sizeMod)
    (h : Matches hs hc s n) {k : Nat} {packet : Option (List UInt8)}
    {clientConn : Conn}
    (hread : s.clientConn.readEvent hc .client (s.serverConn.evWriteBuf.take k)
      = (packet, clientConn)) :
    ∃ got rest, packet.toList.flatMap repliesIn = got ∧ n.s2c = got ++ rest
      ∧ (got = [] ∨ ∃ m, got = [m])
      ∧ Matches hs hc
        { s with
          serverConn :=
            { s.serverConn with evWriteBuf := s.serverConn.evWriteBuf.drop k }
          clientConn := clientConn }
        { n with
          s2c := rest
          clientInbox := n.clientInbox ++ got } := by
  have hback : ∀ rsp ∈ n.s2c, repliesIn (replyBody rsp) = [rsp] := by
    intro rsp hrsp
    have hret := h.returnable rsp (List.mem_append_right _ hrsp)
    exact repliesIn_body hret.kept (Nat.lt_of_le_of_lt hret.fits (by decide))
  have hwrite := @readEvent_evWriteBuf hc s.clientConn .client
    (s.serverConn.evWriteBuf.take k)
  rw [hread] at hwrite
  obtain ⟨got, rest, hgot, hsplit, hone, hway⟩ :=
    h.replies.deliver hmod hback hread
  refine ⟨got, rest, hgot, hsplit, hone, h.server, h.client,
    h.requests.congr hwrite rfl rfl, hway, h.sendable, ?_, ?_⟩
  · rw [List.append_assoc, ← hsplit]
    exact h.returnable
  · rw [List.append_assoc, ← hsplit]
    exact h.answered

/-- **A REPLY IS HANDLED**: it leaves the client's inbox for what was told. -/
theorem matches_learn {rsp : S2C} {rest : List S2C} (h : Matches hs hc s n)
    (hinbox : n.clientInbox = rsp :: rest) (hcall : s.learn rsp = .ok s') :
    ∃ n', NetStep cfg stpGuid n .clientHandles n' ∧ n'.clientInbox = rest
      ∧ n'.serverInbox = n.serverInbox ∧ Matches hs hc s' n' := by
  have hret : ∀ r ∈ rest ++ n.s2c, Returnable r := by
    intro r hr
    refine h.returnable r ?_
    rw [hinbox]
    exact List.mem_cons_of_mem rsp hr
  have hans : ∃ done, s.asked = done ++ (n.serverInbox ++ n.c2s)
      ∧ List.Forall₂ Answers done (s.told ++ [rsp] ++ (rest ++ n.s2c)) := by
    obtain ⟨done, hasked, hdone⟩ := h.answered
    refine ⟨done, hasked, ?_⟩
    rw [hinbox] at hdone
    rw [List.append_assoc]
    exact hdone
  cases rsp with
  | ping =>
      cases hcall
      exact ⟨_, .clientPing n rest hinbox, rfl, rfl, h.server, h.client,
        h.requests, h.replies, h.sendable, hret, hans⟩
  | stpCryptoNegotiate rsp =>
      cases hstore : StpClient.handleProtocolCryptoNegotiate rsp s.client with
      | error e =>
          simp only [Session.learn, hstore] at hcall
          cases hcall
      | ok client =>
          simp only [Session.learn, hstore] at hcall
          cases hcall
          rw [← h.client] at hstore
          exact ⟨_, .clientNegotiate n rsp rest client hinbox hstore, rfl, rfl,
            h.server, rfl, h.requests, h.replies, h.sendable, hret, hans⟩

/-! ## Every run -/

/-- A packet has one request in it, as the client sends them. -/
theorem foldlM_one {α β : Type} (f : β → α → Except Halt β) (b : β) (a : α) :
    [a].foldlM f b = f b a := by
  simp only [List.foldlM_cons, List.foldlM_nil, bind_pure]

/-- A read event of the server is a step or none. -/
theorem serverRead_matched {env : CallEnv} {valid : Bool} {k : Nat}
    (hmod : 0x100000006 ≤ hs.sizeMod) (hstore : StoreInv cfg n.server)
    (htime : InTime cfg env) (h : Refines hs hc s n)
    (hcall : s.serverRead hs cfg env valid k = .ok s') :
    ∃ ds n', Run (NetStep cfg stpGuid) n ds n' ∧ Refines hs hc s' n' := by
  cases hread : s.serverConn.readEvent hs .server
      (s.clientConn.evWriteBuf.take k) with
  | mk packet serverConn =>
      obtain ⟨got, rest, hgot, hsplit, hone, hnext⟩ :=
        matches_serverRead hmod h.toMatches hread
      simp only [Session.serverRead, hread, hgot] at hcall
      rw [h.serverInbox, List.nil_append] at hnext
      rcases hone with hnone | ⟨req, hreq⟩
      · subst hnone
        cases hcall
        refine ⟨[], n, .start, ?_, h.serverInbox, h.clientInbox⟩
        rw [← h.serverInbox, ← show n.c2s = rest from hsplit] at hnext
        exact hnext
      · -- delivered and handled in one event
        subst hreq
        rw [foldlM_one] at hcall
        have hdeliver := @NetStep.deliverToServer cfg stpGuid n req rest hsplit
        rw [h.serverInbox] at hdeliver
        obtain ⟨n', hstep, hin, hin', hmatch⟩ :=
          @matches_answer hs hc cfg stpGuid _ s' _ env valid req [] hnext rfl
            hstore htime hcall
        exact ⟨_, n', .cons hdeliver (.cons hstep .start), hmatch, hin,
          hin'.trans h.clientInbox⟩

theorem clientRead_matched {k : Nat} (hmod : 0x100000006 ≤ hc.sizeMod)
    (h : Refines hs hc s n) (hcall : s.clientRead hc k = .ok s') :
    ∃ ds n', Run (NetStep cfg stpGuid) n ds n' ∧ Refines hs hc s' n' := by
  cases hread : s.clientConn.readEvent hc .client
      (s.serverConn.evWriteBuf.take k) with
  | mk packet clientConn =>
      obtain ⟨got, rest, hgot, hsplit, hone, hnext⟩ :=
        matches_clientRead hmod h.toMatches hread
      simp only [Session.clientRead, hread, hgot] at hcall
      rw [h.clientInbox, List.nil_append] at hnext
      rcases hone with hnone | ⟨rsp, hrsp⟩
      · subst hnone
        cases hcall
        refine ⟨[], n, .start, ?_, h.serverInbox, h.clientInbox⟩
        rw [← h.clientInbox, ← show n.s2c = rest from hsplit] at hnext
        exact hnext
      · subst hrsp
        rw [foldlM_one] at hcall
        have hdeliver := @NetStep.deliverToClient cfg stpGuid n rsp rest hsplit
        rw [h.clientInbox] at hdeliver
        obtain ⟨n', hstep, hin, hin', hmatch⟩ :=
          @matches_learn hs hc cfg stpGuid _ s' _ rsp [] hnext rfl hcall
        exact ⟨_, n', .cons hdeliver (.cons hstep .start), hmatch,
          hin'.trans h.serverInbox, hin⟩

/-- **A STEP OF THE SESSION** is matched by the network: a timer by one step, a
    read event by the delivery and the handling of one message, or by nothing. -/
theorem session_matched {e : SessionEvent} (hms : 0x100000006 ≤ hs.sizeMod)
    (hmc : 0x100000006 ≤ hc.sizeMod) (hstore : StoreInv cfg n.server)
    (h : Refines hs hc s n) (hstep : SessionStep hs hc cfg stpGuid s e s') :
    ∃ ds n', Run (NetStep cfg stpGuid) n ds n' ∧ Refines hs hc s' n' := by
  obtain ⟨htime, hcall⟩ := hstep
  cases e with
  | heartBeatTick =>
      cases hcall
      exact ⟨_, _, .cons (.heartBeatTick n) .start,
        matches_ask h.toMatches sendable_heartBeat, h.serverInbox, h.clientInbox⟩
  | negotiateTick =>
      cases hcall
      exact ⟨_, _, .cons (.negotiateTick n) .start,
        matches_ask h.toMatches (sendable_negotiate stpGuid), h.serverInbox,
        h.clientInbox⟩
  | serverRead k env valid =>
      exact serverRead_matched hms hstore (htime k env valid rfl) h hcall
  | clientRead k => exact clientRead_matched hmc h hcall

/-- **THE NETWORK SIMULATES THE SESSION**. -/
theorem network_simulates (hms : 0x100000006 ≤ hs.sizeMod)
    (hmc : 0x100000006 ≤ hc.sizeMod) :
    Simulates (SessionStep hs hc cfg stpGuid) (NetStep cfg stpGuid) (KeyInv cfg)
      (Refines hs hc) :=
  ⟨keyInv_step, fun hinv h hstep => session_matched hms hmc hinv.store h hstep⟩

end Steps

section Runs

variable {hs hc : Host} {cfg : Config} {stpGuid : UInt64} {s₀ s : Session}
  {es : List SessionEvent}

/-- No byte is on its way. -/
structure Session.Idle (s : Session) : Prop where
  serverRead : s.serverConn.evReadBuf = []
  serverWrite : s.serverConn.evWriteBuf = []
  clientRead : s.clientConn.evReadBuf = []
  clientWrite : s.clientConn.evWriteBuf = []

/-- When all buffers are empty nothing is on its way. -/
theorem Refines.quiet {n : Net} (h : Refines hs hc s n) (hidle : s.Idle) :
    Quiet n := by
  have hrequests := h.requests.nothing hidle.serverRead hidle.clientWrite
  have hreplies := h.replies.nothing hidle.clientRead hidle.serverWrite
  exact ⟨List.map_eq_nil_iff.mp hrequests, h.serverInbox,
    List.map_eq_nil_iff.mp hreplies, h.clientInbox⟩

/-- With no reply under way the client's item is settled. -/
theorem agree_of_settled {n : Net} (hinv : KeyInv cfg n)
    (hreplies : n.clientInbox ++ n.s2c = []) : Agree n := by
  intro item hitem
  rcases hinv.client with ⟨hbound, haddr⟩ | ⟨id, hatt, hbacked⟩
  · have hnone : n.client.item = none := by
      rw [StpClient.Client.item, getCryptoItemByIdx_eq_some (by omega), haddr]
      rfl
    rw [hnone] at hitem
    cases hitem
  · rw [hatt.item] at hitem
    cases hitem
    rw [settledItem, hreplies] at hbacked
    exact hbacked

/-- What the client's handlers were told is, message for message, the answer to
    what it has asked, and is all of it once no byte is on its way. -/
structure Conversation (s : Session) : Prop where
  inOrder : List.Forall₂ Answers (s.asked.take s.told.length) s.told
  complete : s.Idle → s.told.length = s.asked.length

/-- The logs of the two levels are the same. -/
theorem conversation_of_refines {n : Net} (h : Refines hs hc s n) :
    Conversation s := by
  obtain ⟨done, hasked, hdone⟩ := h.answered
  rw [h.serverInbox, List.nil_append] at hasked
  rw [h.clientInbox, List.nil_append] at hdone
  have hlen : s.told.length + n.s2c.length = done.length := by
    rw [hdone.length_eq, List.length_append]
  refine ⟨?_, ?_⟩
  · have htake := List.forall₂_take s.told.length hdone
    rw [List.take_left] at htake
    rw [hasked, List.take_append_of_le_length (by omega)]
    exact htake
  · intro hidle
    obtain ⟨hc2s, -, hs2c, -⟩ := h.quiet hidle
    rw [hs2c, List.length_nil, Nat.add_zero] at hlen
    rw [hasked, hc2s, List.append_nil, hlen]

/-- The run of the network that matches a run of the session. -/
theorem matched_run (hms : 0x100000006 ≤ hs.sizeMod)
    (hmc : 0x100000006 ≤ hc.sizeMod) (hopen : Opened cfg s₀)
    (hrun : Run (SessionStep hs hc cfg stpGuid) s₀ es s) :
    ∃ ds n, Run (NetStep cfg stpGuid) s₀.net ds n ∧ Refines hs hc s n
      ∧ KeyInv cfg n :=
  (network_simulates hms hmc).run (keyInv_started hopen.started)
    (refines_opened hopen) hrun

/-- **THE BYTES DO WHAT THE MESSAGES DO**: however the bytes of the two
    directions are cut and whenever the timers fire, the session is in a state
    that the network reaches, with the same two processes. -/
theorem session_refines (hms : 0x100000006 ≤ hs.sizeMod)
    (hmc : 0x100000006 ≤ hc.sizeMod) (hopen : Opened cfg s₀)
    (hrun : Run (SessionStep hs hc cfg stpGuid) s₀ es s) :
    ∃ ds n, Run (NetStep cfg stpGuid) s₀.net ds n ∧ Refines hs hc s n := by
  obtain ⟨ds, n, hnet, hrel, -⟩ := matched_run hms hmc hopen hrun
  exact ⟨ds, n, hnet, hrel⟩

end Runs

/-! ## A session between two kinds of hosts -/

/-- A server and a client with one slot each, just connected. -/
def openedSession : Session where
  server := freshWorld
  sendBuf := fun _ => 0
  serverConn := Conn.new []
  client := startedNet.client
  buf := fun _ => 0
  clientConn := Conn.new []
  asked := []
  told := []

theorem opened_openedSession : Opened oneSlot openedSession :=
  ⟨started_oneSlot, ⟨[], rfl⟩, ⟨[], rfl⟩, rfl, rfl⟩

/-- Both timers fire, both requests arrive at once, and the reply to the first
    one in two pieces; the heart beat is left waiting in the read buffer. -/
def crowdedEvents : List SessionEvent :=
  [.negotiateTick, .heartBeatTick, .serverRead 100 quietCall true, .clientRead 22,
    .clientRead 300]

-- the steps are evaluated, and the buffers are as long as the messages
set_option maxRecDepth 100000 in
/-- Two requests in flight, cut in odd places, and a reply that waits. -/
theorem run_crowdedEvents :
    ∃ s, Run (SessionStep (host64 .little) (host64 .big) oneSlot 9) openedSession
        crowdedEvents s
      ∧ s.asked.length = 2 ∧ s.told.length = 1
      ∧ s.serverConn.evWriteBuf = [] ∧ s.clientConn.evReadBuf = [] := by
  have htime : InTime oneSlot quietCall := ⟨by decide, by decide⟩
  have hclock : ∀ e ∈ crowdedEvents, ∀ n env valid, e = .serverRead n env valid →
      InTime oneSlot env := by
    intro e he n env valid hev
    subst hev
    simp only [crowdedEvents, List.mem_cons, reduceCtorEq, false_or,
      List.not_mem_nil, or_false, SessionEvent.serverRead.injEq] at he
    obtain ⟨-, henv, -⟩ := he
    rw [henv]
    exact htime
  refine ⟨_, .cons ⟨hclock _ ?_, rfl⟩ (.cons ⟨hclock _ ?_, rfl⟩
    (.cons ⟨hclock _ ?_, rfl⟩ (.cons ⟨hclock _ ?_, rfl⟩
      (.cons ⟨hclock _ ?_, rfl⟩ .start)))), rfl, rfl, rfl, rfl⟩
  all_goals simp [crowdedEvents]

/-- The example goes through the refinement. -/
theorem session_refines_crowded :
    ∃ s, Run (SessionStep (host64 .little) (host64 .big) oneSlot 9) openedSession
        crowdedEvents s
      ∧ ∃ ds n, Run (NetStep oneSlot 9) openedSession.net ds n
        ∧ Refines (host64 .little) (host64 .big) s n := by
  obtain ⟨s, hrun, -⟩ := run_crowdedEvents
  exact ⟨s, hrun, session_refines (host64_sizeMod _) (host64_sizeMod _)
    opened_openedSession hrun⟩

end StpSession
