import StpPlatform.LabelledRun
import StpPlatform.Connection

/-! # What a connection has sent

    `SendNetMessage` appends the header and then the body; each of the two calls
    of `evbuffer_add` may fail.  What has left the write buffer and what is
    still in it should at every moment be whole frames, whatever failed, since
    the peer takes the bytes after a header for its body.

    The code takes no header back: `sends_whole_iff` says that a run of sends,
    writes and read events is all or nothing, and its stream whole frames,
    exactly if no body fails to follow its header. -/

namespace SendFrames

open LabelledRun Connection

/-- A connection and the bytes that have left its write buffer. -/
structure Outgoing where
  conn : Conn
  written : List UInt8

/-- The bytes sent so far, whether or not they have left. -/
def Outgoing.stream (o : Outgoing) : List UInt8 := o.written ++ o.conn.evWriteBuf

/-- What can happen to the output of a connection. -/
inductive OutEvent where
  | send (f : AddFaults) (body : List UInt8)
  | write (n : Nat)
  | read (side : Side) (chunk : List UInt8)

/-- `SendNetMessage` is called, the next `n` bytes are written to the socket, or
    a chunk arrives. -/
def step (h : Host) (o : Outgoing) : OutEvent → Outgoing
  | .send f body => { o with conn := (o.conn.sendNetMessage h f body).2 }
  | .write n =>
      { conn := { o.conn with evWriteBuf := o.conn.evWriteBuf.drop n }
        written := o.written ++ o.conn.evWriteBuf.take n }
  | .read side chunk => { o with conn := (o.conn.readEvent h side chunk).2 }

/-- The call appends header and body and says so, or appends nothing. -/
structure AllOrNothing (h : Host) (f : AddFaults) (body : List UInt8) (c : Conn) :
    Prop where
  nothing : (c.sendNetMessage h f body).1 = false →
    (c.sendNetMessage h f body).2.evWriteBuf = c.evWriteBuf
  all : (c.sendNetMessage h f body).1 = true →
    (c.sendNetMessage h f body).2.evWriteBuf = c.evWriteBuf ++ frame h body

/-- The stream is a concatenation of frames. -/
def WholeFrames (h : Host) (o : Outgoing) : Prop :=
  ∃ bodies : List (List UInt8), o.stream = bodies.flatMap (frame h)

/-- Every send of the run is all or nothing, and a stream of whole frames stays
    one. -/
structure SendsWhole (h : Host) (o : Outgoing) (es : List OutEvent) : Prop where
  sends : EveryEvent (fun pre e => ∀ f body, e = .send f body →
    AllOrNothing h f body (after (step h) o pre).conn) es
  stream : WholeFrames h o →
    ∀ pre, pre <+: es → WholeFrames h (after (step h) o pre)

/-- The header is added and the body is not. -/
def HeaderOnly (f : AddFaults) : Prop := f.head = false ∧ f.body = true

section

variable {h : Host} {f : AddFaults} {body : List UInt8} {c : Conn} {o : Outgoing}

/-- How a send ends: with nothing added, with the header alone, or with the
    frame. -/
theorem sendNetMessage_cases (h : Host) (f : AddFaults) (body : List UInt8)
    (c : Conn) :
    (f.head = true ∧ c.sendNetMessage h f body = (false, c))
      ∨ (HeaderOnly f ∧ c.sendNetMessage h f body
        = (false, { c with evWriteBuf := c.evWriteBuf
          ++ (NetHeadPacket.toWire h.endian body.length).bytes h.endian }))
      ∨ ((f.head = false ∧ f.body = false) ∧ c.sendNetMessage h f body
        = (true, { c with evWriteBuf := c.evWriteBuf ++ frame h body })) := by
  obtain ⟨head, rest⟩ := f
  cases head with
  | true => exact Or.inl ⟨rfl, rfl⟩
  | false =>
      cases rest with
      | true => exact Or.inr (Or.inl ⟨⟨rfl, rfl⟩, rfl⟩)
      | false => exact Or.inr (Or.inr ⟨⟨rfl, rfl⟩, sendNetMessage_ok h body c⟩)

/-- **ONE SEND** is all or nothing unless its body fails to follow. -/
theorem allOrNothing_iff :
    AllOrNothing h f body c ↔ ¬ HeaderOnly f := by
  rcases sendNetMessage_cases h f body c with ⟨hhead, hsend⟩ | ⟨honly, hsend⟩
    | ⟨⟨hhead, hbody⟩, hsend⟩
  · refine iff_of_true ⟨?_, ?_⟩ ?_
    · intro _
      rw [hsend]
    · intro htrue
      rw [hsend] at htrue
      cases htrue
    · rintro ⟨hno, -⟩
      cases hhead.symm.trans hno
  · refine iff_of_false ?_ (not_not.mpr honly)
    rintro ⟨hnothing, -⟩
    -- a header is not empty
    rw [hsend] at hnothing
    have hlen := congrArg List.length (hnothing rfl)
    have hsix : ((NetHeadPacket.toWire h.endian body.length).bytes
        h.endian).length = 6 := by
      cases h.endian <;> rfl
    rw [List.length_append, hsix] at hlen
    omega
  · refine iff_of_true ⟨?_, ?_⟩ ?_
    · intro hfalse
      rw [hsend] at hfalse
      cases hfalse
    · intro _
      rw [hsend]
    · rintro ⟨-, hyes⟩
      cases hbody.symm.trans hyes

/-! ## The stream -/

theorem copyBody_evWriteBuf (fuel pktLen : Nat) (pktBody : List UInt8) (c : Conn) :
    (copyBody fuel pktLen pktBody c).2.evWriteBuf = c.evWriteBuf := by
  refine @copyBody_keeps (fun c' => c'.evWriteBuf = c.evWriteBuf) ?_ ?_ fuel pktLen
    pktBody c rfl
  · exact fun _ _ hc' => hc'
  · exact fun _ _ hc' => hc'

theorem recvNetMessage_evWriteBuf :
    (c.recvNetMessage h).2.evWriteBuf = c.evWriteBuf := by
  simp only [Conn.recvNetMessage]
  split
  · rfl
  · split
    · rfl
    · exact copyBody_evWriteBuf _ _ _ _

/-- A read event leaves the write buffer alone. -/
theorem readEvent_evWriteBuf (side : Side) (chunk : List UInt8) :
    (c.readEvent h side chunk).2.evWriteBuf = c.evWriteBuf := by
  obtain ⟨c', hc'⟩ : ∃ c', c' = { c with evReadBuf := c.evReadBuf ++ chunk } :=
    ⟨_, rfl⟩
  have hrecv := @recvNetMessage_evWriteBuf h c'
  have hget : ∀ c'' : Conn,
      (side.handleReadEvent c'').2.evWriteBuf = c''.evWriteBuf := by
    intro c''
    have hmsg : c''.getNetMessage.2.evWriteBuf = c''.evWriteBuf := by
      rw [Conn.getNetMessage]
      split <;> rfl
    cases side <;> exact hmsg
  rw [Conn.readEvent, ← hc', Conn.processReadEvent]
  cases hr : c'.recvNetMessage h with
  | mk ret c'' =>
      rw [hr] at hrecv
      have hwrite : c''.evWriteBuf = c.evWriteBuf := by
        rw [show c''.evWriteBuf = c'.evWriteBuf from hrecv, hc']
      cases ret with
      | true => exact (hget c'').trans hwrite
      | false => exact hwrite

/-- **ONE STEP** adds a frame to the stream or nothing, unless it is a send
    whose body fails. -/
theorem wholeFrames_step {e : OutEvent} (ho : WholeFrames h o)
    (he : ∀ f body, e = .send f body → ¬ HeaderOnly f) :
    WholeFrames h (step h o e) := by
  obtain ⟨bodies, hbodies⟩ := ho
  rw [Outgoing.stream] at hbodies
  cases e with
  | send f body =>
      rcases sendNetMessage_cases h f body o.conn with ⟨-, hsend⟩ | ⟨honly, -⟩
        | ⟨-, hsend⟩
      · refine ⟨bodies, ?_⟩
        rw [Outgoing.stream, step, hsend]
        exact hbodies
      · exact absurd honly (he f body rfl)
      · refine ⟨bodies ++ [body], ?_⟩
        rw [Outgoing.stream, step, hsend, List.flatMap_append, ← hbodies,
          List.flatMap_singleton]
        exact (List.append_assoc _ _ _).symm
  | write n =>
      refine ⟨bodies, ?_⟩
      rw [← hbodies]
      show o.written ++ o.conn.evWriteBuf.take n ++ o.conn.evWriteBuf.drop n = _
      rw [List.append_assoc, List.take_append_drop]
  | read side chunk =>
      refine ⟨bodies, ?_⟩
      rw [← hbodies]
      exact congrArg (o.written ++ ·) (readEvent_evWriteBuf side chunk)

/-- **SENDS ARE WHOLE** exactly in the runs in which no body fails to follow its
    header. -/
theorem sends_whole_iff (h : Host) (o : Outgoing) (es : List OutEvent) :
    SendsWhole h o es ↔ ∀ f body, .send f body ∈ es → ¬ HeaderOnly f := by
  constructor
  · intro hok f body hmem
    obtain ⟨pre, post, hsplit⟩ := List.append_of_mem hmem
    exact allOrNothing_iff.mp (hok.sends pre _ post hsplit f body rfl)
  · intro hall
    refine ⟨?_, ?_⟩
    · intro pre e post hsplit f body he
      refine allOrNothing_iff.mpr (hall f body ?_)
      rw [hsplit, he]
      exact List.mem_append_right _ List.mem_cons_self
    · intro ho pre hpre
      refine @invariant_after _ _ _ _ _
        (fun _ e => ∀ f body, e = .send f body → ¬ HeaderOnly f)
        (WholeFrames h) ho (fun _ _ => wholeFrames_step) ?_
      intro pre' e post hsplit f body he
      refine hall f body (hpre.subset ?_)
      rw [hsplit, he]
      exact List.mem_append_right _ List.mem_cons_self

end

/-- A connection that was just made. -/
def Outgoing.new : Outgoing where
  conn := Conn.new []
  written := []

/-- **A HEADER WITHOUT ITS BODY**: the frame of the next body follows it, and
    the stream is no concatenation of frames. -/
theorem header_left_behind :
    (Outgoing.new.conn.sendNetMessage (host64 .little) ⟨false, true⟩ [1, 2]).1
        = false
      ∧ (after (step (host64 .little)) Outgoing.new
          [.send ⟨false, true⟩ [1, 2], .send ⟨false, false⟩ []]).stream
        = [0, 0, 0, 0, 0, 2, 0, 0, 0, 0, 0, 0]
      ∧ ¬ SendsWhole (host64 .little) Outgoing.new
          [.send ⟨false, true⟩ [1, 2], .send ⟨false, false⟩ []] := by
  refine ⟨rfl, by decide, ?_⟩
  intro hok
  have hnothing := (hok.sends [] _ _ rfl ⟨false, true⟩ [1, 2] rfl).nothing rfl
  exact absurd hnothing (by decide)

end SendFrames
