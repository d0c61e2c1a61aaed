import StpPlatform.ByteOrder
import StpPlatform.StreamDecoder

/-! # Framed messages on a connection (`stputil/connection`)

    A message goes over the wire as a header of six bytes — version, padding
    and the length of the body in network order — followed by the body.
    `recvNetMessage` waits until a whole frame is buffered, then moves its body
    to `read_buf_list_` through a buffer of 1024 bytes; `HandleReadEvent` takes
    one body off that list and dispatches it.

    The host's byte order and the width of its `size_t` are parameters.  The
    frame format is an instance of the stream decoders (`frameCodec`), and
    `recvNetMessage_eq` says that on a host whose `size_t` holds every frame
    length the code reads exactly the frame the decoder reads. -/

namespace Connection

open ByteOrder StreamDecoder

/-- A host: the order of its bytes and the number of values of its `size_t`. -/
structure Host where
  endian : Endian
  sizeMod : Nat

/-- A host with a `size_t` of 64 bits. -/
def host64 (e : Endian) : Host where
  endian := e
  sizeMod := 0x10000000000000000

/-- 64 bits hold the length of every frame. -/
theorem host64_sizeMod (e : Endian) : 0x100000006 ≤ (host64 e).sizeMod := by
  show 0x100000006 ≤ 0x10000000000000000
  decide

/-! ## The header -/

/-- `kNetHeadPacketVersion`. -/
def kNetHeadPacketVersion : Nat := 10

/-- `struct NetHeadPacket`, as numbers of the host. -/
structure NetHeadPacket where
  version : Nat
  pktLen : Nat
  deriving DecidableEq

/-- `sizeof(NetHeadPacket)` under `#pragma pack(2)`. -/
def headSize : Nat := 6

/-- The bytes of a header that was cleared before its fields were set. -/
def NetHeadPacket.bytes (e : Endian) (head : NetHeadPacket) : List UInt8 :=
  [UInt8.ofNat head.version, 0] ++ e.store32 head.pktLen

/-- The header in the first six bytes. -/
def NetHeadPacket.ofBytes (e : Endian) (bs : List UInt8) : NetHeadPacket where
  version := (bs.getD 0 0).toNat
  pktLen := e.load ((bs.drop 2).take 4)

/-- The header that `SendNetMessage` writes for a body of `len` bytes. -/
def NetHeadPacket.toWire (e : Endian) (len : Nat) : NetHeadPacket where
  version := e.htons kNetHeadPacketVersion % 0x100
  pktLen := e.htonl (len % 0x100000000)

/-- The header with its fields converted, as `RecvNetMessage` does. -/
def NetHeadPacket.toHost (e : Endian) (head : NetHeadPacket) : NetHeadPacket where
  version := e.ntohs head.version % 0x100
  pktLen := e.ntohl head.pktLen

/-! ## The connection -/

/-- `class Connection`: the two `evbuffer`s, the list of received bodies, and
    the copy buffer with whatever it held last. -/
structure Conn where
  evReadBuf : List UInt8
  evWriteBuf : List UInt8
  readBufList : List (List UInt8)
  readBuf : List UInt8

/-- A connection that was just made; the copy buffer is not initialised. -/
def Conn.new (junk : List UInt8) : Conn where
  evReadBuf := []
  evWriteBuf := []
  readBufList := []
  readBuf := junk

/-- `sizeof(read_buf_)`. -/
def readBufSize : Nat := 1024

/-- `int Connection::GetReadBuffer(void*, size_t)`: the bytes it stores. -/
def Conn.getReadBuffer (c : Conn) (len : Nat) : List UInt8 × Conn :=
  (c.evReadBuf.take len, { c with evReadBuf := c.evReadBuf.drop len })

/-- `size_t Connection::CopyReadBuffer(void*, size_t)`: the bytes it stores. -/
def Conn.copyReadBuffer (c : Conn) (len : Nat) : List UInt8 :=
  c.evReadBuf.take len

/-- The copy loop of `RecvNetMessage`, for at most `fuel` rounds. -/
def copyBody : Nat → Nat → List UInt8 → Conn → List UInt8 × Conn
  | 0, _, pktBody, c => (pktBody, c)
  | fuel + 1, pktLen, pktBody, c =>
      if pktLen > 0 then
        let read := min readBufSize pktLen
        match c.getReadBuffer read with
        | (got, c) =>
            if got.length = 0 then (pktBody, c)
            else
              -- a short read leaves the end of the copy buffer as it was
              let readBuf := got ++ c.readBuf.drop got.length
              copyBody fuel (pktLen - read) (pktBody ++ readBuf.take read)
                { c with readBuf := readBuf }
      else (pktBody, c)

/-- `bool Connection::RecvNetMessage()`; the version is never looked at. -/
def Conn.recvNetMessage (h : Host) (c : Conn) : Bool × Conn :=
  let readBufLen := c.evReadBuf.length
  if readBufLen < headSize then (false, c)
  else
    let head :=
      (NetHeadPacket.ofBytes h.endian (c.copyReadBuffer headSize)).toHost h.endian
    let pktLen := head.pktLen
    if readBufLen < (pktLen + headSize) % h.sizeMod then (false, c)
    else
      match c.getReadBuffer headSize with
      | (_, c) =>
          match copyBody pktLen pktLen [] c with
          | (pktBody, c) =>
              (true, { c with readBufList := c.readBufList ++ [pktBody] })

/-- `int Connection::AddToWriteBuffer(const void*, size_t)`: `0`, or `-1` and
    nothing added. -/
def Conn.addToWriteBuffer (fails : Bool) (buffer : List UInt8) (c : Conn) :
    Int × Conn :=
  if fails then (-1, c)
  else (0, { c with evWriteBuf := c.evWriteBuf ++ buffer })

/-- Which of the two calls of `evbuffer_add` fails. -/
structure AddFaults where
  head : Bool
  body : Bool

/-- `bool Connection::SendNetMessage(const void*, size_t)`. -/
def Conn.sendNetMessage (h : Host) (f : AddFaults) (buffer : List UInt8)
    (c : Conn) : Bool × Conn :=
  let head := NetHeadPacket.toWire h.endian buffer.length
  match c.addToWriteBuffer f.head (head.bytes h.endian) with
  | (r, c) =>
      if r = 0 then
        match c.addToWriteBuffer f.body buffer with
        | (r, c) => if r = 0 then (true, c) else (false, c)
      else (false, c)

/-- `bool Connection::GetNetMessage(std::string&)`. -/
def Conn.getNetMessage (c : Conn) : Option (List UInt8) × Conn :=
  match c.readBufList with
  | [] => (none, c)
  | packet :: rest => (some packet, { c with readBufList := rest })

/-- The bodies of `HandleReadEvent` agree: one message is taken off the list and
    handed to the dispatcher.  The result is the packet it is handed. -/
def handleReadEvent (c : Conn) : Option (List UInt8) × Conn :=
  c.getNetMessage

/-- `void StpServer::HandleReadEvent(Connection*)`. -/
def serverHandleReadEvent (c : Conn) : Option (List UInt8) × Conn :=
  handleReadEvent c

/-- `void StpClient::HandleReadEvent(Connection*)`. -/
def clientHandleReadEvent (c : Conn) : Option (List UInt8) × Conn :=
  handleReadEvent c

/-- The two ends of a connection. -/
inductive Side where
  | server
  | client
  deriving DecidableEq

/-- `virtual void EventNotifier::HandleReadEvent(Connection*)`. -/
def Side.handleReadEvent : Side → Conn → Option (List UInt8) × Conn
  | .server => serverHandleReadEvent
  | .client => clientHandleReadEvent

/-- `void Connection::ProcessReadEvent()`: the packet that was dispatched. -/
def Conn.processReadEvent (h : Host) (side : Side) (c : Conn) :
    Option (List UInt8) × Conn :=
  match c.recvNetMessage h with
  | (true, c) => side.handleReadEvent c
  | (false, c) => (none, c)

/-- A read event: `chunk` has arrived in the read buffer. -/
def Conn.readEvent (h : Host) (side : Side) (c : Conn) (chunk : List UInt8) :
    Option (List UInt8) × Conn :=
  { c with evReadBuf := c.evReadBuf ++ chunk }.processReadEvent h side

/-! ## The frame format -/

/-- The frame that carries a body. -/
def frame (h : Host) (body : List UInt8) : List UInt8 :=
  (NetHeadPacket.toWire h.endian body.length).bytes h.endian ++ body

/-- A send that succeeds appends one frame. -/
theorem sendNetMessage_ok (h : Host) (buffer : List UInt8) (c : Conn) :
    c.sendNetMessage h ⟨false, false⟩ buffer
      = (true, { c with evWriteBuf := c.evWriteBuf ++ frame h buffer }) := by
  simp only [Conn.sendNetMessage, Conn.addToWriteBuffer, frame,
    Bool.false_eq_true, if_false, if_true, List.append_assoc]

/-- The body length a buffer announces. -/
def announced (buf : List UInt8) : Nat := ofNetwork ((buf.drop 2).take 4)

/-- Read one frame off a buffer. -/
def nextFrame (buf : List UInt8) : Option (List UInt8 × List UInt8) :=
  if buf.length < headSize then none
  else if buf.length < announced buf + headSize then none
  else some ((buf.drop headSize).take (announced buf),
    buf.drop (headSize + announced buf))

theorem announced_append {buf : List UInt8} (more : List UInt8)
    (h : headSize ≤ buf.length) : announced (buf ++ more) = announced buf := by
  have h6 : 6 ≤ buf.length := h
  simp only [announced]
  rw [List.drop_append_of_le_length (by omega),
    List.take_append_of_le_length (by rw [List.length_drop]; omega)]

theorem nextFrame_eq_some {buf body rest : List UInt8} :
    nextFrame buf = some (body, rest) ↔ headSize + announced buf ≤ buf.length
      ∧ body = (buf.drop headSize).take (announced buf)
      ∧ rest = buf.drop (headSize + announced buf) := by
  simp only [nextFrame]
  constructor
  · intro h
    by_cases h1 : buf.length < headSize
    · rw [if_pos h1] at h
      exact nomatch h
    · rw [if_neg h1] at h
      by_cases h2 : buf.length < announced buf + headSize
      · rw [if_pos h2] at h
        exact nomatch h
      · rw [if_neg h2] at h
        cases h
        exact ⟨by omega, rfl, rfl⟩
  · rintro ⟨h, hb, hr⟩
    rw [if_neg (by omega), if_neg (by omega), hb, hr]

/-- Frames as a stream decoder. -/
def frameDecoder : Decoder UInt8 (List UInt8) where
  next := nextFrame
  shrinks := by
    intro buf body rest h
    obtain ⟨hle, -, hr⟩ := nextFrame_eq_some.mp h
    rw [hr, List.length_drop]
    have h6 : headSize = 6 := rfl
    omega
  grows := by
    intro buf body rest more h
    obtain ⟨hle, hb, hr⟩ := nextFrame_eq_some.mp h
    have hann := announced_append more (show headSize ≤ buf.length by omega)
    refine nextFrame_eq_some.mpr ⟨?_, ?_, ?_⟩
    · rw [hann, List.length_append]
      omega
    · rw [hann, List.drop_append_of_le_length (by omega),
        List.take_append_of_le_length (by rw [List.length_drop]; omega)]
      exact hb
    · rw [hann, List.drop_append_of_le_length (by omega), hr]

theorem frame_eq (h : Host) (body : List UInt8) :
    frame h body
      = [UInt8.ofNat (h.endian.htons kNetHeadPacketVersion % 0x100), 0]
        ++ toNetwork32 (body.length % 0x100000000) ++ body := by
  show [UInt8.ofNat _, 0]
    ++ h.endian.store32 (h.endian.htonl (body.length % 0x100000000)) ++ body = _
  rw [store32_htonl]
  rfl

theorem length_frame (h : Host) (body : List UInt8) :
    (frame h body).length = headSize + body.length := by
  rw [frame_eq]
  simp only [List.length_append, length_toNetwork32, List.length_cons,
    List.length_nil]
  rfl

/-- The frame of a body announces its length, however much of the frame or of
    what follows is buffered. -/
theorem announced_of_start {h : Host} {body buf : List UInt8}
    (hlen : body.length < 0x100000000) (h6 : headSize ≤ buf.length)
    (hpre : buf <+: frame h body) : announced buf = body.length := by
  obtain ⟨more, hmore⟩ := hpre
  rw [← announced_append more h6, hmore, frame_eq]
  show ofNetwork ((toNetwork32 (body.length % 0x100000000) ++ body).take 4) = _
  rw [List.take_left' (length_toNetwork32 _), Nat.mod_eq_of_lt hlen, ofNetwork_toNetwork32 hlen]

/-- **THE FRAME CODEC**: bodies shorter than 4 GiB can be sent. -/
def frameCodec (h : Host) : Codec UInt8 (List UInt8) where
  toDecoder := frameDecoder
  enc := frame h
  Encodable := fun body => body.length < 0x100000000
  next_enc := by
    intro body rest hlen
    have h6 : headSize ≤ (frame h body).length := by
      rw [length_frame]
      omega
    have hann : announced (frame h body ++ rest) = body.length := by
      rw [announced_append rest h6]
      exact announced_of_start hlen h6 (List.prefix_refl _)
    refine nextFrame_eq_some.mpr ⟨?_, ?_, ?_⟩
    · rw [hann, List.length_append, length_frame]
      omega
    · rw [hann, List.drop_append_of_le_length h6, frame_eq]
      exact (List.take_left' rfl).symm
    · rw [hann, ← length_frame h body, List.drop_left]
  next_part := by
    intro body part hlen hpre hne
    show nextFrame part = none
    cases hn : nextFrame part with
    | none => rfl
    | some p =>
        -- a part with a whole frame in it would be the whole frame
        obtain ⟨hle, -, -⟩ := nextFrame_eq_some.mp hn
        have h6 : headSize ≤ part.length := by omega
        rw [announced_of_start hlen h6 hpre, ← length_frame h body] at hle
        exact absurd (hpre.eq_of_length_le hle) hne

/-! ## What `RecvNetMessage` reads -/

/-- The copy loop moves the body, whatever the copy buffer held. -/
theorem copyBody_spec : ∀ (fuel pktLen : Nat) (pktBody : List UInt8) (c : Conn),
    pktLen ≤ fuel → pktLen ≤ c.evReadBuf.length →
    ∃ readBuf, copyBody fuel pktLen pktBody c
      = (pktBody ++ c.evReadBuf.take pktLen,
          { c with
            evReadBuf := c.evReadBuf.drop pktLen
            readBuf := readBuf }) := by
  intro fuel
  induction fuel with
  | zero =>
      intro pktLen pktBody c hfuel _
      have h0 : pktLen = 0 := by omega
      subst h0
      exact ⟨c.readBuf, by simp [copyBody]⟩
  | succ fuel ih =>
      intro pktLen pktBody c hfuel hlen
      by_cases hpos : pktLen > 0
      · -- one round moves `min 1024 pktLen` bytes, the others move the rest
        obtain ⟨n, hn⟩ : ∃ n, n = min readBufSize pktLen := ⟨_, rfl⟩
        have hsize : readBufSize = 1024 := rfl
        have hgot : (c.evReadBuf.take n).length = n := by
          rw [List.length_take]
          omega
        obtain ⟨readBuf, hrest⟩ := ih (pktLen - n)
          (pktBody ++ c.evReadBuf.take n)
          { c with
            evReadBuf := c.evReadBuf.drop n
            readBuf := c.evReadBuf.take n ++ c.readBuf.drop n }
          (by omega) (by rw [List.length_drop]; omega)
        refine ⟨readBuf, ?_⟩
        simp only [copyBody, Conn.getReadBuffer, if_pos hpos, ← hn, hgot]
        rw [if_neg (by omega), List.take_left' hgot, hrest]
        simp only [List.drop_drop, List.append_assoc, ← List.take_add]
        rw [show n + (pktLen - n) = pktLen by omega]
      · have h0 : pktLen = 0 := by omega
        subst h0
        exact ⟨c.readBuf, by simp [copyBody]⟩

/-- The loop rule of `copyBody`: what taking bytes and filling the copy buffer
    keep, the loop keeps. -/
theorem copyBody_keeps {inv : Conn → Prop}
    (hget : ∀ n c, inv c → inv (c.getReadBuffer n).2)
    (hfill : ∀ readBuf c, inv c → inv { c with readBuf := readBuf }) :
    ∀ (fuel pktLen : Nat) (pktBody : List UInt8) (c : Conn), inv c →
      inv (copyBody fuel pktLen pktBody c).2 := by
  intro fuel
  induction fuel with
  | zero => exact fun _ _ _ hc => hc
  | succ fuel ih =>
      intro pktLen pktBody c hc
      by_cases hpos : pktLen > 0
      · have hgot := hget (min readBufSize pktLen) c hc
        cases hread : c.getReadBuffer (min readBufSize pktLen) with
        | mk got c' =>
            rw [hread] at hgot
            simp only [copyBody, if_pos hpos, hread]
            by_cases hend : got.length = 0
            · rw [if_pos hend]
              exact hgot
            · rw [if_neg hend]
              exact ih _ _ _ (hfill _ _ hgot)
      · simp only [copyBody, if_neg hpos]
        exact hc

/-- The length `RecvNetMessage` computes is the one the buffer announces. -/
theorem toHost_pktLen (e : Endian) {c : Conn} (h : headSize ≤ c.evReadBuf.length) :
    ((NetHeadPacket.ofBytes e (c.copyReadBuffer headSize)).toHost e).pktLen
      = announced c.evReadBuf := by
  have h6 : 6 ≤ c.evReadBuf.length := h
  have hfour : ((c.evReadBuf.drop 2).take 4).length = 4 := by
    rw [List.length_take, List.length_drop]
    omega
  show e.ntohl (e.load (((c.evReadBuf.take 6).drop 2).take 4)) = _
  rw [List.drop_take, List.take_take, show min 4 (6 - 2) = 4 from rfl,
    ntohl_load e hfour]
  rfl

theorem announced_lt {buf : List UInt8} (h : headSize ≤ buf.length) :
    announced buf < 0x100000000 := by
  have h6 : 6 ≤ buf.length := h
  refine ofNetwork_lt ?_
  rw [List.length_take, List.length_drop]
  omega

section Receive

variable {h : Host} {c : Conn}

theorem recvNetMessage_none (hmod : 0x100000006 ≤ h.sizeMod)
    (hn : nextFrame c.evReadBuf = none) : c.recvNetMessage h = (false, c) := by
  simp only [Conn.recvNetMessage]
  by_cases h6 : c.evReadBuf.length < headSize
  · rw [if_pos h6]
  · have hle : headSize ≤ c.evReadBuf.length := by omega
    have hlt := announced_lt hle
    have hsize : headSize = 6 := rfl
    -- the sum does not wrap, so the comparison is the decoder's
    rw [if_neg h6, toHost_pktLen h.endian hle,
      Nat.mod_eq_of_lt (show announced c.evReadBuf + headSize < h.sizeMod by
        omega)]
    by_cases hb : c.evReadBuf.length < announced c.evReadBuf + headSize
    · rw [if_pos hb]
    · simp only [nextFrame, if_neg h6, if_neg hb] at hn
      cases hn

theorem recvNetMessage_some {body rest : List UInt8}
    (hmod : 0x100000006 ≤ h.sizeMod)
    (hn : nextFrame c.evReadBuf = some (body, rest)) :
    ∃ readBuf, c.recvNetMessage h
      = (true, { c with
          evReadBuf := rest
          readBufList := c.readBufList ++ [body]
          readBuf := readBuf }) := by
  obtain ⟨hle, hb, hr⟩ := nextFrame_eq_some.mp hn
  have hhead : headSize ≤ c.evReadBuf.length := by omega
  have hlt := announced_lt hhead
  have hsize : headSize = 6 := rfl
  obtain ⟨readBuf, hcopy⟩ := copyBody_spec (announced c.evReadBuf)
    (announced c.evReadBuf) []
    { c with evReadBuf := c.evReadBuf.drop headSize } (Nat.le_refl _)
    (by rw [List.length_drop]; omega)
  refine ⟨readBuf, ?_⟩
  simp only [Conn.recvNetMessage, Conn.getReadBuffer]
  rw [if_neg (by omega), toHost_pktLen h.endian hhead,
    Nat.mod_eq_of_lt (show announced c.evReadBuf + headSize < h.sizeMod by omega),
    if_neg (by omega), hcopy, hb, hr]
  simp only [List.nil_append, List.drop_drop]

end Receive

/-! ## Read events -/

/-- A connection and the packets its side has dispatched so far. -/
structure Reader where
  conn : Conn
  dispatched : List (List UInt8)

/-- A reader that has just been connected. -/
def Reader.new (junk : List UInt8) : Reader where
  conn := Conn.new junk
  dispatched := []

/-- One read event. -/
def Reader.readEvent (h : Host) (side : Side) (r : Reader) (chunk : List UInt8) :
    Reader where
  conn := (r.conn.readEvent h side chunk).2
  dispatched := r.dispatched ++ (r.conn.readEvent h side chunk).1.toList

/-- The reader as a receiver of frames. -/
def Reader.receiver (r : Reader) : Receiver UInt8 (List UInt8) where
  buffer := r.conn.evReadBuf
  delivered := r.dispatched

/-- **A READ EVENT IS AN ARRIVAL**: with no body left in the list, one frame at
    most is dispatched, and the list is empty again. -/
theorem readEvent_arrive {h : Host} (hmod : 0x100000006 ≤ h.sizeMod) (side : Side)
    {r : Reader} (hlist : r.conn.readBufList = []) (chunk : List UInt8) :
    (r.readEvent h side chunk).conn.readBufList = []
      ∧ (r.readEvent h side chunk).receiver
        = arrive frameDecoder r.receiver chunk := by
  obtain ⟨c, hc⟩ : ∃ c : Conn,
      c = { r.conn with evReadBuf := r.conn.evReadBuf ++ chunk } := ⟨_, rfl⟩
  have hbuf : c.evReadBuf = r.conn.evReadBuf ++ chunk := by rw [hc]
  have hclist : c.readBufList = [] := by rw [hc]; exact hlist
  have hevent : r.conn.readEvent h side chunk = c.processReadEvent h side := by
    rw [hc]
    rfl
  cases hn : nextFrame (r.conn.evReadBuf ++ chunk) with
  | none =>
      have hprocess : c.processReadEvent h side = (none, c) := by
        simp only [Conn.processReadEvent,
          recvNetMessage_none hmod (hbuf ▸ hn : nextFrame c.evReadBuf = none)]
      simp only [Reader.readEvent, Reader.receiver, arrive, frameDecoder, hn,
        hevent, hprocess, hclist, hbuf]
      simp
  | some p =>
      obtain ⟨body, rest⟩ := p
      obtain ⟨readBuf, hrecv⟩ := recvNetMessage_some hmod
        (hbuf ▸ hn : nextFrame c.evReadBuf = some (body, rest))
      have hprocess : c.processReadEvent h side
          = (some body, { c with
              evReadBuf := rest
              readBufList := []
              readBuf := readBuf }) := by
        simp only [Conn.processReadEvent, hrecv, hclist, List.nil_append]
        cases side <;> rfl
      simp only [Reader.readEvent, Reader.receiver, arrive, frameDecoder, hn,
        hevent, hprocess]
      simp

end Connection
