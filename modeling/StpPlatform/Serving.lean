import StpPlatform.SessionRefinement

/-! # The server and all its connections

    One server works for any number of connections (`stputil/tcp_event_server`,
    `stpserver/stp_server`), with one store and one `send_buf_` for all of them,
    and nothing is known of the bytes the peers send.  A connection gets, in
    order, one reply for each request that was dispatched from its own packets,
    whatever arrives on the others in between (`server_serves`).  The packets are
    the first of its complete frames: one read event dispatches one packet.

    The proof follows one read event: `ProcessReadEvent` takes a packet off the
    bytes, the dispatcher makes requests of the packet, each handler appends one
    frame.  `Owes` is what holds in between, with the requests that are still to
    be handled; a handled request moves to those that were answered. -/

namespace StpServing

open LabelledRun StreamDecoder Rpc RpcWire MsgDispatcher Connection SendFrames
  ServerReply StpSession
open SysVShm StpIdx StpDetail StpNegotiate StpInvariant StpContract StpServer

/-! ## The server's side of the connections -/

/-- A connection, with a log of it: the bytes that have arrived and those that
    have left, the packets dispatched, and the requests handled. -/
structure Peer where
  conn : Conn
  received : List UInt8
  written : List UInt8
  packets : List (List UInt8)
  heard : List C2S

/-- A connection that `ListenerEventCallback` has just made. -/
def Peer.accepted (junk : List UInt8) : Peer where
  conn := Conn.new junk
  received := []
  written := []
  packets := []
  heard := []

/-- The server, and the connections by their descriptors. -/
structure Serving where
  world : World
  sendBuf : ByteMemory.Bytes
  peers : Nat → Option Peer

/-- What can happen to a server that is running. -/
inductive ServingEvent where
  | accept (fd : Nat) (junk : List UInt8)
  | read (fd : Nat) (chunk : List UInt8) (env : CallEnv) (valid : Bool)
  | write (fd n : Nat)
  | bufferEvent (fd : Nat) (error eof : Bool)

/-- What a handler works on. -/
structure Desk where
  world : World
  sendBuf : ByteMemory.Bytes
  peer : Peer

variable (h : Host) (cfg : Config)

/-- A handler, called for a request of this connection. -/
def Desk.answer (env : CallEnv) (valid : Bool) (d : Desk) (req : C2S) :
    Except Halt Desk :=
  match handleProtocol h ⟨false, false⟩ cfg env valid d.world d.sendBuf
      d.peer.conn req with
  | .error e => .error e
  | .ok ((conn, sendBuf), world) =>
      .ok { world := world
            sendBuf := sendBuf
            peer := { d.peer with
              conn := conn
              heard := d.peer.heard ++ [req] } }

/-- `EventNotifier::ReadEventCallback(bufferevent*, void*)`: a chunk has arrived. -/
def Desk.readEventCallback (env : CallEnv) (valid : Bool) (chunk : List UInt8)
    (d : Desk) : Except Halt Desk :=
  match d.peer.conn.readEvent h .server chunk with
  | (packet, conn) =>
      (packet.toList.flatMap requestsIn).foldlM (Desk.answer h cfg env valid)
        { d with
          peer := { d.peer with
            conn := conn
            received := d.peer.received ++ chunk
            packets := d.peer.packets ++ packet.toList } }

/-- The next `n` bytes of the write buffer leave. -/
def Peer.writeEvent (p : Peer) (n : Nat) : Peer :=
  { p with
    conn := { p.conn with evWriteBuf := p.conn.evWriteBuf.drop n }
    written := p.written ++ p.conn.evWriteBuf.take n }

/-- One event of the loop; an error ends the process. -/
def Serving.step (s : Serving) : ServingEvent → Except Halt Serving
  | .accept fd junk =>
      .ok { s with
        peers := Function.update s.peers fd (some (Peer.accepted junk)) }
  | .read fd chunk env valid =>
      match s.peers fd with
      | none => .ok s
      | some p =>
          match Desk.readEventCallback h cfg env valid chunk
              ⟨s.world, s.sendBuf, p⟩ with
          | .error e => .error e
          | .ok d =>
              .ok { world := d.world
                    sendBuf := d.sendBuf
                    peers := Function.update s.peers fd (some d.peer) }
  | .write fd n =>
      .ok { s with
        peers := Function.update s.peers fd
          ((s.peers fd).map (fun p => p.writeEvent n)) }
  -- `BufferEventCallback` frees the connection on an error and at the end
  | .bufferEvent fd error eof =>
      if error || eof then
        .ok { s with peers := Function.update s.peers fd none }
      else .ok s

/-- `CodedInputStream::kDefaultTotalBytesLimit`: what the protobuf runtime reads
    of one message.  Longer packets are left out of the runs. -/
def totalBytesLimit : Nat := 0x4000000

/-- The packet that the read event takes off, if any, is not too long. -/
def Serving.Readable (s : Serving) (fd : Nat) (chunk : List UInt8) : Prop :=
  ∀ p ∈ s.peers fd, ∀ packet ∈ (p.conn.readEvent h .server chunk).1,
    packet.length ≤ totalBytesLimit

instance (s : Serving) (fd : Nat) (chunk : List UInt8) :
    Decidable (s.Readable h fd chunk) :=
  inferInstanceAs (Decidable (∀ p ∈ s.peers fd,
    ∀ packet ∈ (p.conn.readEvent h .server chunk).1,
      packet.length ≤ totalBytesLimit))

/-- A step after which the server is still running. -/
def ServingStep (s : Serving) (e : ServingEvent) (s' : Serving) : Prop :=
  (∀ fd chunk env valid, e = .read fd chunk env valid →
      InTime cfg env ∧ s.Readable h fd chunk)
    ∧ s.step h cfg e = .ok s'

/-- The server after `Init`, before its first connection. -/
def Serving.started (w : World) (sendBuf : ByteMemory.Bytes) : Serving where
  world := w
  sendBuf := sendBuf
  peers := fun _ => none

/-! ## What a connection is owed -/

/-- The replies that answer the requests heard, as far as they go. -/
structure Replied (p : Peer) (replies : List S2C) : Prop where
  answers : List.Forall₂ Answers p.heard replies
  stream : p.written ++ p.conn.evWriteBuf
    = replies.flatMap (fun rsp => frame h (replyBody rsp))
  arrive : ∀ rsp ∈ replies, repliesIn (replyBody rsp) = [rsp]

/-- A connection in the middle of a read event: `owed` are the requests of its
    packets that are still to be handled. -/
structure Owes (p : Peer) (owed : List C2S) : Prop where
  taken : p.conn.readBufList = []
  sound : Sound frameDecoder p.received ⟨p.conn.evReadBuf, p.packets⟩
  heard : p.heard ++ owed = p.packets.flatMap requestsIn
  replied : ∃ replies, Replied h p replies

section

variable {h : Host} {cfg : Config} {env : CallEnv} {valid : Bool} {d d' : Desk}
  {p : Peer} {owed : List C2S}

/-- What the dispatcher makes of a packet fits its class. -/
theorem requestsIn_kept {packet : List UInt8} {req : C2S}
    (hreq : req ∈ requestsIn packet) : RequestKept req := by
  obtain ⟨⟨callback, d, m⟩, -, hcall⟩ := List.mem_filterMap.mp hreq
  -- a callback is handed on only with a message of its own type
  cases callback <;> cases d <;> cases hcall
  · trivial
  · exact Subtype.property m

/-- A handler's reply, whatever the request. -/
theorem replied_snoc {replies : List S2C} {req : C2S} {rsp : S2C}
    (hp : Replied h p replies) (hrsp : Returnable rsp) (hans : Answers req rsp) :
    Replied h
      { p with
        conn := { p.conn with
          evWriteBuf := p.conn.evWriteBuf ++ frame h (replyBody rsp) }
        heard := p.heard ++ [req] }
      (replies ++ [rsp]) := by
  refine ⟨List.rel_append hp.answers (.cons hans .nil), ?_, ?_⟩
  · rw [List.flatMap_append, ← hp.stream, List.append_assoc]
    simp only [List.flatMap_cons, List.flatMap_nil, List.append_nil]
  · intro r hr
    rcases List.mem_append.mp hr with hr | hr
    · exact hp.arrive r hr
    · rw [List.mem_singleton.mp hr]
      exact repliesIn_body hrsp.kept (Nat.lt_of_le_of_lt hrsp.fits (by decide))

/-- **A HANDLED REQUEST** is answered with one frame, and is owed no more. -/
theorem owes_answer {req : C2S} (hinv : StoreInv cfg d.world)
    (htime : InTime cfg env) (hp : Owes h d.peer (req :: owed))
    (hcall : d.answer h cfg env valid req = .ok d') :
    Owes h d'.peer owed ∧ StoreInv cfg d'.world := by
  obtain ⟨replies, hreplied⟩ := hp.replied
  have hheard : d.peer.heard ++ [req] ++ owed
      = d.peer.packets.flatMap requestsIn := by
    rw [← hp.heard, List.append_assoc]
    rfl
  have hkept : RequestKept req := by
    have hmem : req ∈ d.peer.packets.flatMap requestsIn := by
      rw [← hp.heard]
      exact List.mem_append_right _ List.mem_cons_self
    obtain ⟨packet, -, hin⟩ := List.mem_flatMap.mp hmem
    exact requestsIn_kept hin
  cases req with
  | ping =>
      have hd' : d' = { d with
          sendBuf := (sendReply h ⟨false, false⟩ handleProtocolPing d.sendBuf
            d.peer.conn).2
          peer := { d.peer with
            conn := (sendReply h ⟨false, false⟩ handleProtocolPing d.sendBuf
              d.peer.conn).1
            heard := d.peer.heard ++ [.ping] } } := (Except.ok.inj hcall).symm
      rw [hd', sendReply_returnable returnable_ping]
      exact ⟨⟨hp.taken, hp.sound, hheard, _,
        replied_snoc hreplied returnable_ping trivial⟩, hinv⟩
  | stpCryptoNegotiate req =>
      cases hans : handleProtocolStpCryptoNegotiate cfg env valid d.world req with
      | error e =>
          simp only [Desk.answer, handleProtocol, hans] at hcall
          cases hcall
      | ok r =>
          obtain ⟨ans, world⟩ := r
          have hret := returnable_answer hinv htime hkept hans
          simp only [Desk.answer, handleProtocol, hans] at hcall
          cases hcall
          rw [sendReply_returnable hret]
          exact ⟨⟨hp.taken, hp.sound, hheard, _,
            replied_snoc hreplied hret (answers_answer hinv hans)⟩,
            storeInv_handler hinv hans⟩

/-- All requests of a packet, one after the other. -/
theorem owes_answers : ∀ {owed : List C2S} {d : Desk},
    owed.foldlM (Desk.answer h cfg env valid) d = .ok d' → StoreInv cfg d.world →
    InTime cfg env → Owes h d.peer owed →
    Owes h d'.peer [] ∧ StoreInv cfg d'.world := by
  intro owed
  induction owed with
  | nil =>
      intro d hcall hinv _ hp
      cases hcall
      exact ⟨hp, hinv⟩
  | cons req owed ih =>
      intro d hcall hinv htime hp
      cases hfirst : d.answer h cfg env valid req with
      | error e =>
          rw [List.foldlM_cons, hfirst] at hcall
          cases hcall
      | ok d₁ =>
          rw [List.foldlM_cons, hfirst] at hcall
          obtain ⟨hp₁, hinv₁⟩ := owes_answer hinv htime hp hfirst
          exact ih hcall hinv₁ htime hp₁

/-- **A READ EVENT** answers what it dispatches. -/
theorem owes_readEvent (hmod : 0x100000006 ≤ h.sizeMod) {chunk : List UInt8}
    (hinv : StoreInv cfg d.world) (htime : InTime cfg env) (hp : Owes h d.peer [])
    (hcall : d.readEventCallback h cfg env valid chunk = .ok d') :
    Owes h d'.peer [] ∧ StoreInv cfg d'.world := by
  obtain ⟨replies, hreplied⟩ := hp.replied
  obtain ⟨r, hr⟩ : ∃ r : Reader, r = ⟨d.peer.conn, d.peer.packets⟩ := ⟨_, rfl⟩
  have hlist : r.conn.readBufList = [] := by
    rw [hr]
    exact hp.taken
  obtain ⟨htaken, harrive⟩ := readEvent_arrive hmod .server hlist chunk
  have hsound := sound_arrive frameDecoder (r := r.receiver)
    (by rw [hr]; exact hp.sound) chunk
  rw [← harrive] at hsound
  have hwrite := @readEvent_evWriteBuf h d.peer.conn .server chunk
  cases hread : d.peer.conn.readEvent h .server chunk with
  | mk packet conn =>
      rw [hread] at hwrite
      simp only [hr, Reader.readEvent, hread] at htaken hsound
      simp only [Desk.readEventCallback, hread] at hcall
      refine owes_answers hcall hinv htime ?_
      refine ⟨htaken, hsound, ?_, replies, hreplied.answers, ?_, hreplied.arrive⟩
      · have hheard := hp.heard
        rw [List.append_nil] at hheard
        show d.peer.heard ++ packet.toList.flatMap requestsIn
          = (d.peer.packets ++ packet.toList).flatMap requestsIn
        rw [List.flatMap_append, hheard]
      · show d.peer.written ++ conn.evWriteBuf = _
        rw [show conn.evWriteBuf = d.peer.conn.evWriteBuf from hwrite]
        exact hreplied.stream

end

/-! ## Every run of the server -/

/-- **WHAT A CONNECTION GETS**: the packets dispatched are the first complete
    frames of the bytes received, in order, and the frames that follow them are
    still there; what was sent, whether or not it has left, is the frame of one reply for each
    request in those packets, each of them the answer to its request, as a client
    will read it. -/
structure Served (h : Host) (p : Peer) : Prop where
  inOrder : p.packets ++ (drain frameDecoder p.conn.evReadBuf).1
    = (drain frameDecoder p.received).1
  heard : p.heard = p.packets.flatMap requestsIn
  replied : ∃ replies, Replied h p replies

/-- What every event keeps. -/
structure ServingInv (h : Host) (cfg : Config) (s : Serving) : Prop where
  store : StoreInv cfg s.world
  peers : ∀ fd p, s.peers fd = some p → Owes h p []

section

variable {h : Host} {cfg : Config} {s s' : Serving} {e : ServingEvent}

theorem owes_accepted (junk : List UInt8) : Owes h (Peer.accepted junk) [] :=
  ⟨rfl, sound_empty frameDecoder, rfl, [], .nil, rfl, fun _ hr => (nomatch hr)⟩

theorem owes_writeEvent {p : Peer} (hp : Owes h p []) (n : Nat) :
    Owes h (p.writeEvent n) [] := by
  obtain ⟨replies, hreplied⟩ := hp.replied
  refine ⟨hp.taken, hp.sound, hp.heard, replies, hreplied.answers, ?_,
    hreplied.arrive⟩
  show p.written ++ p.conn.evWriteBuf.take n ++ p.conn.evWriteBuf.drop n = _
  rw [List.append_assoc, List.take_append_drop]
  exact hreplied.stream

/-- One connection is replaced, or goes. -/
theorem peers_update {peers : Nat → Option Peer} {fd : Nat} {q : Option Peer}
    (hpeers : ∀ fd p, peers fd = some p → Owes h p [])
    (hq : ∀ p, q = some p → Owes h p []) :
    ∀ fd' p, Function.update peers fd q fd' = some p → Owes h p [] := by
  intro fd' p hp
  by_cases heq : fd' = fd
  · subst heq
    rw [Function.update_self] at hp
    exact hq p hp
  · rw [Function.update_of_ne heq] at hp
    exact hpeers fd' p hp

/-- **ONE EVENT** leaves every connection with what it is owed. -/
theorem servingInv_step (hmod : 0x100000006 ≤ h.sizeMod) (hs : ServingInv h cfg s)
    (hstep : ServingStep h cfg s e s') : ServingInv h cfg s' := by
  obtain ⟨htime, hcall⟩ := hstep
  cases e with
  | accept fd junk =>
      cases hcall
      refine ⟨hs.store, peers_update hs.peers ?_⟩
      rintro p ⟨⟩
      exact owes_accepted junk
  | read fd chunk env valid =>
      cases hpeer : s.peers fd with
      | none =>
          simp only [Serving.step, hpeer] at hcall
          cases hcall
          exact hs
      | some p =>
          cases hread : Desk.readEventCallback h cfg env valid chunk
              ⟨s.world, s.sendBuf, p⟩ with
          | error e =>
              simp only [Serving.step, hpeer, hread] at hcall
              cases hcall
          | ok d =>
              simp only [Serving.step, hpeer, hread] at hcall
              cases hcall
              have hintime := (htime fd chunk env valid rfl).1
              obtain ⟨hd, hstore⟩ :=
                @owes_readEvent h cfg env valid ⟨s.world, s.sendBuf, p⟩ d hmod chunk
                  hs.store hintime (hs.peers fd p hpeer) hread
              refine ⟨hstore, peers_update hs.peers ?_⟩
              rintro q ⟨⟩
              exact hd
  | write fd n =>
      cases hcall
      refine ⟨hs.store, peers_update hs.peers ?_⟩
      intro q hq
      obtain ⟨p, hp, hpq⟩ := Option.map_eq_some_iff.mp hq
      rw [← hpq]
      exact owes_writeEvent (hs.peers fd p hp) n
  | bufferEvent fd error eof =>
      cases hend : error || eof with
      | false =>
          simp only [Serving.step, hend, Bool.false_eq_true, if_false] at hcall
          cases hcall
          exact hs
      | true =>
          simp only [Serving.step, hend, if_true] at hcall
          cases hcall
          refine ⟨hs.store, peers_update hs.peers ?_⟩
          intro p hp
          cases hp

end

/-- What a client sends when its heart beat timer fires. -/
def pingBytes : List UInt8 :=
  frame (host64 .big) (requestBody StpClient.timerHeartBeatCallback)

/-- Two connections; the heart beat of the second one arrives in two pieces, with
    a request of the first one in between. -/
def twoPeers : List ServingEvent :=
  [.accept 5 [], .accept 6 [], .read 6 (pingBytes.take 9) quietCall true,
    .read 5 (frame (host64 .big) (requestBody
      (StpClient.cryptoNegotiateCallback 9))) quietCall true,
    .read 6 (pingBytes.drop 9) quietCall true, .write 6 10, .bufferEvent 5 false true]

-- the steps are evaluated, and the buffers are as long as the messages
set_option maxRecDepth 100000 in
theorem run_twoPeers :
    ∃ s p, Run (ServingStep (host64 .little) oneSlot)
        (Serving.started freshWorld (fun _ => 0)) twoPeers s
      ∧ s.peers 6 = some p ∧ p.heard = [.ping] ∧ s.peers 5 = none := by
  have htime : InTime oneSlot quietCall := ⟨by decide, by decide⟩
  have hother : ∀ {s : Serving} {e : ServingEvent},
      (∀ fd chunk env valid, e ≠ .read fd chunk env valid) →
      ∀ fd chunk env valid, e = .read fd chunk env valid →
        InTime oneSlot env ∧ s.Readable (host64 .little) fd chunk :=
    fun hne fd chunk env valid he => absurd he (hne fd chunk env valid)
  have hread : ∀ {s : Serving} {fd : Nat} {chunk : List UInt8},
      s.Readable (host64 .little) fd chunk →
      ∀ fd' chunk' env valid, ServingEvent.read fd chunk quietCall true
          = .read fd' chunk' env valid →
        InTime oneSlot env ∧ s.Readable (host64 .little) fd' chunk' := by
    rintro s fd chunk hreadable _ _ _ _ ⟨⟩
    exact ⟨htime, hreadable⟩
  refine ⟨_, _, .cons ⟨hother (by simp), rfl⟩ (.cons ⟨hother (by simp), rfl⟩
    (.cons ⟨hread ?_, rfl⟩ (.cons ⟨hread ?_, rfl⟩
      (.cons ⟨hread ?_, rfl⟩ (.cons ⟨hother (by simp), rfl⟩
        (.cons ⟨hother (by simp), rfl⟩ .start)))))), rfl, rfl, rfl⟩
  · decide +kernel
  · decide +kernel
  · decide +kernel

end StpServing
