import StpPlatform.Connection

/-! # The header of a frame

    Two questions about the six bytes in front of a body.  Do the sender's
    fields arrive?  The length does, on every pair of hosts.  The version is one
    byte that both ends convert as if it were two, which clears it on a
    little-endian host: `head_roundTrip_iff` says that the header arrives
    exactly between two big-endian hosts.

    Is a frame read only when it is there?  `RecvNetMessage` adds the six bytes
    to the announced length in `size_t`.  `frame_checked_iff` says that its
    check is right exactly as long as that sum fits, which it always does in 64
    bits, and does not in 32 bits for the last six lengths. -/

namespace FrameHeader

open ByteOrder Connection

/-- The header as `RecvNetMessage` has it after its conversions. -/
def receivedHead (h : Host) (c : Conn) : NetHeadPacket :=
  (NetHeadPacket.ofBytes h.endian (c.copyReadBuffer headSize)).toHost h.endian

/-! ## From host to host -/

/-- The first six bytes that a call of `SendNetMessage` appends. -/
def writtenHead (h : Host) (f : AddFaults) (sender : Conn) (body : List UInt8) :
    List UInt8 :=
  ((sender.sendNetMessage h f body).2.evWriteBuf.drop
    sender.evWriteBuf.length).take headSize

section

variable {hs hr : Host} {f : AddFaults} {sender receiver : Conn}
  {body : List UInt8}

/-- What is sent starts with the header, whether or not the body follows. -/
theorem writtenHead_eq (hf : f.head = false) :
    writtenHead hs f sender body
      = (NetHeadPacket.toWire hs.endian body.length).bytes hs.endian := by
  obtain ⟨head, hhead⟩ : ∃ head, head
      = (NetHeadPacket.toWire hs.endian body.length).bytes hs.endian := ⟨_, rfl⟩
  have hlen : head.length = headSize := by
    rw [hhead]
    cases hs.endian <;> rfl
  have hsent : ∃ rest, (sender.sendNetMessage hs f body).2.evWriteBuf
      = sender.evWriteBuf ++ head ++ rest := by
    simp only [Conn.sendNetMessage, Conn.addToWriteBuffer, hf, ← hhead,
      Bool.false_eq_true, if_false, if_true]
    cases f.body with
    | true => exact ⟨[], (List.append_nil _).symm⟩
    | false => exact ⟨body, rfl⟩
  obtain ⟨rest, hrest⟩ := hsent
  rw [writtenHead, hrest, List.append_assoc, List.drop_left, ← hhead]
  exact List.take_left' hlen

/-- **THE LENGTH ARRIVES**, whatever the two hosts are. -/
theorem received_pktLen (hlen : body.length < 0x100000000) (hf : f.head = false)
    (hbuf : receiver.copyReadBuffer headSize = writtenHead hs f sender body) :
    (receivedHead hr receiver).pktLen = body.length := by
  have hfour : (toNetwork32 (body.length % 0x100000000)).length = 4 := rfl
  rw [receivedHead, hbuf, writtenHead_eq hf]
  show hr.endian.ntohl (hr.endian.load
    (hs.endian.store32 (hs.endian.htonl (body.length % 0x100000000)) |>.take 4))
    = _
  rw [store32_htonl, List.take_of_length_le (Nat.le_of_eq hfour),
    ntohl_load hr.endian hfour, Nat.mod_eq_of_lt hlen, ofNetwork_toNetwork32 hlen]

/-- The version is converted as 16 bits and kept in eight. -/
theorem received_version_iff (hf : f.head = false)
    (hbuf : receiver.copyReadBuffer headSize = writtenHead hs f sender body) :
    (receivedHead hr receiver).version = kNetHeadPacketVersion
      ↔ hs.endian = .big ∧ hr.endian = .big := by
  rw [receivedHead, hbuf, writtenHead_eq hf]
  show hr.endian.ntohs (UInt8.ofNat
      (hs.endian.htons kNetHeadPacketVersion % 0x100)).toNat % 0x100
    = kNetHeadPacketVersion ↔ _
  cases hs.endian <;> cases hr.endian <;> decide

/-- **HEADER ROUND TRIP**: what was sent is received exactly between two
    big-endian hosts. -/
theorem head_roundTrip_iff (hlen : body.length < 0x100000000)
    (hf : f.head = false)
    (hbuf : receiver.copyReadBuffer headSize = writtenHead hs f sender body) :
    receivedHead hr receiver = ⟨kNetHeadPacketVersion, body.length⟩
      ↔ hs.endian = .big ∧ hr.endian = .big := by
  rw [← @received_version_iff hs hr f sender receiver body hf hbuf]
  constructor
  · intro hhead
    rw [hhead]
  · intro hversion
    have hpkt := @received_pktLen hs hr f sender receiver body hlen hf hbuf
    rw [← hversion, ← hpkt]

end

/-- The end of a connection at which the header of `body` has arrived. -/
def headArrived (h : Host) (body : List UInt8) : Conn :=
  { Conn.new [] with evReadBuf := writtenHead h ⟨false, false⟩ (Conn.new []) body }

theorem headArrived_copy (h : Host) (body : List UInt8) :
    (headArrived h body).copyReadBuffer headSize
      = writtenHead h ⟨false, false⟩ (Conn.new []) body := by
  show (writtenHead h ⟨false, false⟩ (Conn.new []) body).take headSize = _
  rw [writtenHead, List.take_take, Nat.min_self]

/-- Between big-endian hosts the header of a body of 300 bytes comes through. -/
theorem head_roundTrip_iff_body :
    receivedHead (host64 .big) (headArrived (host64 .big) (List.replicate 300 7))
      = ⟨kNetHeadPacketVersion, 300⟩ := by
  have hlen : (List.replicate 300 (7 : UInt8)).length = 300 := List.length_replicate
  have hiff := @head_roundTrip_iff (host64 .big) (host64 .big) ⟨false, false⟩
    (Conn.new []) (headArrived (host64 .big) (List.replicate 300 7))
    (List.replicate 300 7) (by rw [hlen]; decide) rfl (headArrived_copy _ _)
  rw [hlen] at hiff
  exact hiff.mpr ⟨rfl, rfl⟩

/-- **THE VERSION IS LOST** between two little-endian hosts. -/
theorem version_lost :
    receivedHead (host64 .little) (headArrived (host64 .little) []) = ⟨0, 0⟩
      ∧ receivedHead (host64 .little) (headArrived (host64 .little) [])
        ≠ ⟨kNetHeadPacketVersion, ([] : List UInt8).length⟩ := by
  decide

/-! ## The completeness check -/

/-- A host with a `size_t` of 32 bits. -/
def host32 (e : Endian) : Host where
  endian := e
  sizeMod := 0x100000000

/-- How `RecvNetMessage` ends: it returns, or `resize` throws. -/
inductive Received where
  | returned (ret : Bool)
  | lengthError
  deriving DecidableEq

/-- `bool Connection::RecvNetMessage()` with its `pkt_body.resize(pkt_len)`,
    which throws `std::length_error` on a length above `max_size()`. -/
def recvResize (h : Host) (maxSize : Nat) (c : Conn) : Received × Conn :=
  let readBufLen := c.evReadBuf.length
  if readBufLen < headSize then (.returned false, c)
  else
    let pktLen := (receivedHead h c).pktLen
    if readBufLen < (pktLen + headSize) % h.sizeMod then (.returned false, c)
    else
      match c.getReadBuffer headSize with
      | (_, c) =>
          -- the empty string is in the list before it is resized
          if maxSize < pktLen then
            (.lengthError, { c with readBufList := c.readBufList ++ [[]] })
          else
            match copyBody pktLen pktLen [] c with
            | (pktBody, c) =>
                (.returned true,
                  { c with readBufList := c.readBufList ++ [pktBody] })

/-- A body within the limit is received as if there were none. -/
theorem recvResize_eq {h : Host} {maxSize : Nat} {c : Conn}
    (hmax : (receivedHead h c).pktLen ≤ maxSize) :
    recvResize h maxSize c
      = (.returned (c.recvNetMessage h).1, (c.recvNetMessage h).2) := by
  have hhead : (NetHeadPacket.ofBytes h.endian
      (c.copyReadBuffer headSize)).toHost h.endian = receivedHead h c := rfl
  have hlimit : ¬ maxSize < (receivedHead h c).pktLen := by omega
  simp only [recvResize, Conn.recvNetMessage, hhead, if_neg hlimit]
  split
  · rfl
  · split <;> rfl

/-- A message is taken, and bytes are, only from a buffer with the whole frame
    in it, and the packet is as long as announced. -/
structure FrameChecked (h : Host) (maxSize : Nat) (c : Conn) : Prop where
  consumes : (recvResize h maxSize c).2.evReadBuf ≠ c.evReadBuf →
    headSize + announced c.evReadBuf ≤ c.evReadBuf.length
  returns : (recvResize h maxSize c).1 = .returned true →
    headSize + announced c.evReadBuf ≤ c.evReadBuf.length
  packet : (recvResize h maxSize c).1 = .returned true →
    ∃ packet, (recvResize h maxSize c).2.readBufList = c.readBufList ++ [packet]
      ∧ packet.length = announced c.evReadBuf

section

variable {h : Host} {maxSize : Nat} {c : Conn}

/-- The copy loop never gives bytes back. -/
theorem copyBody_shrinks (fuel pktLen : Nat) (pktBody : List UInt8) (c : Conn) :
    (copyBody fuel pktLen pktBody c).2.evReadBuf.length ≤ c.evReadBuf.length := by
  refine @copyBody_keeps (fun c' => c'.evReadBuf.length ≤ c.evReadBuf.length) ?_ ?_
    fuel pktLen pktBody c (Nat.le_refl _)
  · intro n c' hc'
    show (c'.evReadBuf.drop n).length ≤ _
    rw [List.length_drop]
    omega
  · exact fun _ _ hc' => hc'

/-- What makes `RecvNetMessage` wait. -/
def Waits (h : Host) (c : Conn) : Prop :=
  c.evReadBuf.length < headSize
    ∨ c.evReadBuf.length < (announced c.evReadBuf + headSize) % h.sizeMod

theorem recvResize_waits (hw : Waits h c) :
    recvResize h maxSize c = (.returned false, c) := by
  simp only [recvResize]
  by_cases hhead : c.evReadBuf.length < headSize
  · rw [if_pos hhead]
  · have hle : headSize ≤ c.evReadBuf.length := Nat.le_of_not_lt hhead
    rw [if_neg hhead, receivedHead, toHost_pktLen h.endian hle,
      if_pos (hw.resolve_left hhead)]

/-- Where it does not wait it takes the header, at least. -/
theorem recvResize_shrinks (hw : ¬ Waits h c) :
    (recvResize h maxSize c).2.evReadBuf.length + headSize ≤ c.evReadBuf.length := by
  have hhead : ¬ c.evReadBuf.length < headSize := fun hlt => hw (Or.inl hlt)
  have hle : headSize ≤ c.evReadBuf.length := Nat.le_of_not_lt hhead
  have hrest : (c.evReadBuf.drop headSize).length + headSize
      = c.evReadBuf.length := by
    rw [List.length_drop]
    omega
  simp only [recvResize]
  rw [if_neg hhead, receivedHead, toHost_pktLen h.endian hle,
    if_neg (fun hlt => hw (Or.inr hlt))]
  simp only [Conn.getReadBuffer]
  split
  · exact Nat.le_of_eq hrest
  · have hcopy := copyBody_shrinks (announced c.evReadBuf) (announced c.evReadBuf)
      [] { c with evReadBuf := c.evReadBuf.drop headSize }
    exact Nat.le_trans (Nat.add_le_add_right hcopy headSize) (Nat.le_of_eq hrest)

/-- The packet of a frame that is there. -/
theorem recvResize_packet (hw : ¬ Waits h c)
    (hfull : headSize + announced c.evReadBuf ≤ c.evReadBuf.length)
    (hret : (recvResize h maxSize c).1 = .returned true) :
    ∃ packet, (recvResize h maxSize c).2.readBufList = c.readBufList ++ [packet]
      ∧ packet.length = announced c.evReadBuf := by
  have hhead : ¬ c.evReadBuf.length < headSize := fun hlt => hw (Or.inl hlt)
  have hle : headSize ≤ c.evReadBuf.length := Nat.le_of_not_lt hhead
  have hrest : announced c.evReadBuf ≤ (c.evReadBuf.drop headSize).length := by
    rw [List.length_drop]
    omega
  obtain ⟨readBuf, hcopy⟩ := copyBody_spec (announced c.evReadBuf)
    (announced c.evReadBuf) [] { c with evReadBuf := c.evReadBuf.drop headSize }
    (Nat.le_refl _) hrest
  refine ⟨(c.evReadBuf.drop headSize).take (announced c.evReadBuf), ?_, ?_⟩
  · revert hret
    simp only [recvResize]
    rw [if_neg hhead, receivedHead, toHost_pktLen h.endian hle,
      if_neg (fun hlt => hw (Or.inr hlt))]
    simp only [Conn.getReadBuffer, hcopy]
    split
    · intro hret
      cases hret
    · intro _
      rfl
  · rw [List.length_take]
    omega

/-- **THE CHECK** of a buffer that has a header in it is right exactly if the
    length of the frame fits `size_t`. -/
theorem frame_checked_iff (hword : h.sizeMod = 0x100000000
      ∨ h.sizeMod = 0x10000000000000000)
    (hbuf : c.evReadBuf.length < h.sizeMod) :
    FrameChecked h maxSize c
      ↔ c.evReadBuf.length < headSize
        ∨ announced c.evReadBuf + headSize < h.sizeMod := by
  have hsize : headSize = 6 := rfl
  constructor
  · intro hok
    by_contra hno
    have hle : headSize ≤ c.evReadBuf.length := by omega
    have hlt := announced_lt hle
    -- the sum wraps to less than a header, so the check passes
    have hwaits : ¬ Waits h c := by
      rintro (hshort | hpart)
      · omega
      · have hwrap : (announced c.evReadBuf + headSize) % h.sizeMod < headSize := by
          rcases hword with hword | hword <;> rw [hword] at hno ⊢ <;> omega
        omega
    have hshrinks := @recvResize_shrinks h maxSize c hwaits
    have hfull := hok.consumes (by
      intro heq
      rw [heq] at hshrinks
      omega)
    omega
  · intro hfits
    by_cases hwaits : Waits h c
    · -- nothing happens
      have hnone := @recvResize_waits h maxSize c hwaits
      refine ⟨?_, ?_, ?_⟩
      · intro hne
        rw [hnone] at hne
        exact absurd rfl hne
      · intro hret
        rw [hnone] at hret
        cases hret
      · intro hret
        rw [hnone] at hret
        cases hret
    · have hfull : headSize + announced c.evReadBuf ≤ c.evReadBuf.length := by
        by_contra hpart
        refine hwaits ?_
        rcases hfits with hshort | hsum
        · exact Or.inl hshort
        · refine Or.inr ?_
          rw [Nat.mod_eq_of_lt hsum]
          omega
      exact ⟨fun _ => hfull, fun _ => hfull, recvResize_packet hwaits hfull⟩

end

/-- The frame of a body of three bytes, and the first byte of another frame. -/
def frameArrived : Conn :=
  { Conn.new [] with evReadBuf := [0, 10, 0, 0, 0, 3, 97, 98, 99, 0] }

theorem frame_checked_iff_frame :
    FrameChecked (host32 .little) 0x7fffffff frameArrived
      ∧ (recvResize (host32 .little) 0x7fffffff frameArrived).1 = .returned true := by
  refine ⟨?_, by decide⟩
  exact (frame_checked_iff (Or.inl rfl) (by decide)).mpr (Or.inr (by decide))

/-- A header that announces `2^32 - 1` bytes, of which none has arrived. -/
def headAlone : Conn :=
  { Conn.new [] with evReadBuf := [10, 0, 0xff, 0xff, 0xff, 0xff] }

/-- **THE SUM WRAPS** on a host of 32 bits: the header is taken, and then either
    `resize` throws or an empty packet is received. -/
theorem head_taken_alone :
    announced headAlone.evReadBuf = 0xffffffff
      ∧ recvResize (host32 .little) 0x7fffffff headAlone
        = (.lengthError, { Conn.new [] with readBufList := [[]] })
      ∧ ¬ FrameChecked (host32 .little) 0x7fffffff headAlone := by
  have htaken : recvResize (host32 .little) 0x7fffffff headAlone
      = (.lengthError, { Conn.new [] with readBufList := [[]] }) := rfl
  refine ⟨rfl, htaken, ?_⟩
  intro hok
  have hfull := hok.consumes (by rw [htaken]; decide)
  exact absurd hfull (by decide)

end FrameHeader
