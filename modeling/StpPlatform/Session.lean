import StpPlatform.Framing
import StpPlatform.SendFrames
import StpPlatform.KeyAgreement
import StpPlatform.ServerReply

/-! # A client and a server over bytes

    The two programs as they run against each other: the client's timers write
    requests into `buf_` and then into the connection, a read event moves some
    bytes to the other end, takes one frame off them at most, dispatches the
    envelope in it, and the handler that the envelope names works on the
    process.  A step is a function, and an event carries what the environment
    decides: how many bytes arrive, the clock, the shared memory, the database's
    answer.

    This file is the code's side only; what its runs amount to is in
    `SessionRefinement`. -/

namespace StpSession

open Rpc RpcWire ByteMemory MsgDispatcher Connection ServerReply
open SysVShm StpIdx StpDetail StpNegotiate StpServer

/-! ## What a client sends -/

/-- `sizeof(StpClient::buf_)`. -/
def sizeofBuf : Int32 := 2048

/-- The type of a request, and the message object that holds it. -/
def requestType : C2S → Descriptor
  | .ping => .C2S_Ping
  | .stpCryptoNegotiate _ => .C2S_StpCryptoNegotiate

/-- The message object of a request. -/
def requestObject : (req : C2S) → rpcWire.Msg (requestType req)
  | .ping => ()
  | .stpCryptoNegotiate req => C2SObject.of req

/-- From `int size = sizeof(buf_)` to the end of `TimerHeartBeatCallback` and of
    `CryptoNegotiateCallback`. -/
def sendRequest (h : Host) (f : AddFaults) (req : C2S) (buf : Bytes)
    (conn : Conn) : Conn × Bytes :=
  let r := serializeToArray rpcWire (requestObject req) buf sizeofBuf
  if r.ret then ((conn.sendNetMessage h f r.data).2, r.array) else (conn, r.array)

/-! ## What the callbacks hand on -/

/-- `StpSvrMsgDispatcher::OnSync##msg`: what the handler it calls is given.  The
    cast of a message of another type is not modelled. -/
def requestOf : Invocation rpcWire → Option C2S
  | ⟨.svrOnSyncC2S_Ping, .C2S_Ping, _⟩ => some .ping
  | ⟨.svrOnSyncC2S_StpCryptoNegotiate, .C2S_StpCryptoNegotiate, m⟩ =>
      some (.stpCryptoNegotiate (Subtype.val m))
  | _ => none

/-- `StpClntMsgDispatcher::OnSync##msg`. -/
def replyOf : Invocation rpcWire → Option S2C
  | ⟨.clntOnSyncS2C_Ping, .S2C_Ping, _⟩ => some .ping
  | ⟨.clntOnSyncS2C_StpCryptoNegotiate, .S2C_StpCryptoNegotiate, m⟩ =>
      some (.stpCryptoNegotiate (Subtype.val m))
  | _ => none

/-- The requests that `OnceDispatch` makes of a packet: one, or none. -/
def requestsIn (packet : List UInt8) : List C2S :=
  (stpSvrMsgDispatcher.onceDispatch rpcWire packet).2.filterMap requestOf

/-- The replies that the client's dispatcher finds in a packet. -/
def repliesIn (packet : List UInt8) : List S2C :=
  (stpClntMsgDispatcher.onceDispatch rpcWire packet).2.filterMap replyOf

/-! ## The session -/

/-- The two processes with their buffers, what the client has asked so far, and
    what its handlers were told. -/
structure Session where
  server : World
  sendBuf : Bytes
  serverConn : Conn
  client : StpClient.Client
  buf : Bytes
  clientConn : Conn
  asked : List C2S
  told : List S2C

/-- A timer of the client, or bytes at one of the two ends. -/
inductive SessionEvent where
  | heartBeatTick
  | negotiateTick
  | serverRead (n : Nat) (env : CallEnv) (valid : Bool)
  | clientRead (n : Nat)

variable (hs hc : Host) (cfg : Config) (stpGuid : UInt64)

/-- A timer of the client: one request is sent (`evbuffer_add` succeeds). -/
def Session.ask (s : Session) (req : C2S) : Session :=
  match sendRequest hc ⟨false, false⟩ req s.buf s.clientConn with
  | (conn, buf) =>
      { s with
        buf := buf
        clientConn := conn
        asked := s.asked ++ [req] }

/-- A handler of the server, and the reply it sends. -/
def Session.answer (env : CallEnv) (valid : Bool) (s : Session) (req : C2S) :
    Except Halt Session :=
  match handleProtocol hs ⟨false, false⟩ cfg env valid s.server s.sendBuf
      s.serverConn req with
  | .error e => .error e
  | .ok ((conn, sendBuf), server) =>
      .ok { s with
        server := server
        sendBuf := sendBuf
        serverConn := conn }

/-- A handler of the client. -/
def Session.learn (s : Session) (rsp : S2C) : Except Halt Session :=
  match rsp with
  | .ping =>
      .ok { s with
        client := StpClient.handleProtocolPing s.client
        told := s.told ++ [.ping] }
  | .stpCryptoNegotiate rsp =>
      match StpClient.handleProtocolCryptoNegotiate rsp s.client with
      | .error e => .error e
      | .ok client =>
          .ok { s with
            client := client
            told := s.told ++ [.stpCryptoNegotiate rsp] }

/-- The next `n` bytes of the client arrive at the server. -/
def Session.serverRead (env : CallEnv) (valid : Bool) (n : Nat) (s : Session) :
    Except Halt Session :=
  let clientConn :=
    { s.clientConn with evWriteBuf := s.clientConn.evWriteBuf.drop n }
  match s.serverConn.readEvent hs .server (s.clientConn.evWriteBuf.take n) with
  | (packet, serverConn) =>
      (packet.toList.flatMap requestsIn).foldlM (Session.answer hs cfg env valid)
        { s with clientConn := clientConn, serverConn := serverConn }

/-- The next `n` bytes of the server arrive at the client. -/
def Session.clientRead (n : Nat) (s : Session) : Except Halt Session :=
  let serverConn :=
    { s.serverConn with evWriteBuf := s.serverConn.evWriteBuf.drop n }
  match s.clientConn.readEvent hc .client (s.serverConn.evWriteBuf.take n) with
  | (packet, clientConn) =>
      (packet.toList.flatMap repliesIn).foldlM Session.learn
        { s with clientConn := clientConn, serverConn := serverConn }

/-- One event; an error ends one of the processes. -/
def Session.step (s : Session) : SessionEvent → Except Halt Session
  | .heartBeatTick => .ok (s.ask hc StpClient.timerHeartBeatCallback)
  | .negotiateTick => .ok (s.ask hc (StpClient.cryptoNegotiateCallback stpGuid))
  | .serverRead n env valid => s.serverRead hs cfg env valid n
  | .clientRead n => s.clientRead hc n

/-- The time at which a token given out now expires is an `int64_t`. -/
def InTime (env : CallEnv) : Prop :=
  -0x8000000000000000 ≤ env.now + cfg.tokenExpires
    ∧ env.now + cfg.tokenExpires < 0x8000000000000000

/-- A step after which both processes are still running. -/
def SessionStep (s : Session) (e : SessionEvent) (s' : Session) : Prop :=
  (∀ n env valid, e = .serverRead n env valid → InTime cfg env)
    ∧ s.step hs hc cfg stpGuid e = .ok s'

end StpSession
