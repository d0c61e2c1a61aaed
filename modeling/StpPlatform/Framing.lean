import StpPlatform.LabelledRun
import StpPlatform.Connection

/-! # Messages over a byte stream

    Two questions about `Connection`.  Does the receiver hand on what the
    sender sent?  A `Link` is one direction of a connection: the sender's write
    buffer holds the bytes on their way, a read event moves some of them.
    `framing_safe` answers yes for every run of sends and read events.

    Does it matter how TCP cuts the stream?  `ProcessReadEvent` reads one frame
    an event, and nothing calls it again for bytes that are already there, so a
    cut that completes two frames at once strands one of them:
    `segmentation_independent_iff` says that cutting is harmless exactly when
    no event completes more than one frame. -/

namespace Framing

open LabelledRun ByteOrder StreamDecoder Connection

/-! ## One direction of a connection -/

/-- The two ends, and what went in and came out so far. -/
structure Link where
  sender : Conn
  reader : Reader
  sent : List (List UInt8)
  received : List UInt8

/-- A connection just made. -/
def Link.new (junk junk' : List UInt8) : Link where
  sender := Conn.new junk
  reader := Reader.new junk'
  sent := []
  received := []

/-- A body is sent, or some of the bytes under way arrive. -/
inductive LinkEvent where
  | send (body : List UInt8)
  | readEvent (n : Nat)

/-- The sender sends a body (`evbuffer_add` succeeds), or the next `n` bytes
    arrive in a read event. -/
def LinkStep (hs hr : Host) (side : Side) (l : Link) : LinkEvent → Link → Prop
  | .send body, l' =>
      body.length < 0x100000000
        ∧ l' = { l with
            sender := (l.sender.sendNetMessage hs ⟨false, false⟩ body).2
            sent := l.sent ++ [body] }
  | .readEvent n, l' =>
      l' = { sender := { l.sender with
                evWriteBuf := l.sender.evWriteBuf.drop n }
             reader := l.reader.readEvent hr side (l.sender.evWriteBuf.take n)
             sent := l.sent
             received := l.received ++ l.sender.evWriteBuf.take n }

/-- What was dispatched is a prefix of what was sent, and the dispatched frames
    and the read buffer are the bytes received. -/
structure FramingSafe (hs : Host) (l : Link) : Prop where
  inOrder : l.reader.dispatched <+: l.sent
  bytes : l.reader.dispatched.flatMap (frame hs) ++ l.reader.conn.evReadBuf
    = l.received

/-- The bodies `bs` are still on their way: their frames are the bytes in the
    read buffer and the bytes not yet received. -/
structure OnTheWay (hs : Host) (l : Link) (bs : List (List UInt8)) : Prop where
  sent : l.sent = l.reader.dispatched ++ bs
  short : ∀ b ∈ bs, b.length < 0x100000000
  stream : l.reader.conn.evReadBuf ++ l.sender.evWriteBuf
    = encAll (frameCodec hs) bs
  received : encAll (frameCodec hs) l.reader.dispatched
    ++ l.reader.conn.evReadBuf = l.received
  taken : l.reader.conn.readBufList = []

section Link

variable {hs hr : Host} {side : Side} {l l' : Link} {bs : List (List UInt8)}

/-- A frame that is sent follows those that are on their way. -/
theorem onTheWay_send (h : OnTheWay hs l bs) {body : List UInt8}
    (hstep : LinkStep hs hr side l (.send body) l') :
    OnTheWay hs l' (bs ++ [body]) := by
  obtain ⟨hlen, hl'⟩ := hstep
  subst hl'
  refine ⟨?_, ?_, ?_, h.received, h.taken⟩
  · show l.sent ++ [body] = l.reader.dispatched ++ (bs ++ [body])
    rw [h.sent, List.append_assoc]
  · intro b hb
    rcases List.mem_append.mp hb with hb | hb
    · exact h.short b hb
    · rw [List.mem_singleton.mp hb]
      exact hlen
  · rw [sendNetMessage_ok, encAll_append, ← h.stream]
    simp only [encAll, List.flatMap_cons, List.flatMap_nil, frameCodec,
      List.append_assoc, List.append_nil]

/-- **ONE READ EVENT** delivers the first body on its way, or nothing. -/
theorem onTheWay_readEvent (hmod : 0x100000006 ≤ hr.sizeMod)
    (h : OnTheWay hs l bs) {n : Nat}
    (hstep : LinkStep hs hr side l (.readEvent n) l') :
    ∃ bs', OnTheWay hs l' bs' := by
  obtain ⟨chunk, hchunk⟩ : ∃ chunk, chunk = l.sender.evWriteBuf.take n :=
    ⟨_, rfl⟩
  have hsplit : chunk ++ l.sender.evWriteBuf.drop n = l.sender.evWriteBuf := by
    rw [hchunk, List.take_append_drop]
  obtain ⟨hlist, harrive⟩ := readEvent_arrive hmod side h.taken chunk
  have hbytes : l.reader.conn.evReadBuf ++ chunk ++ l.sender.evWriteBuf.drop n
      = encAll (frameCodec hs) bs := by
    rw [List.append_assoc, hsplit, h.stream]
  simp only [LinkStep, ← hchunk] at hstep
  subst hstep
  cases hn : nextFrame (l.reader.conn.evReadBuf ++ chunk) with
  | none =>
      -- the chunk only moves from the wire into the read buffer
      have hreceiver := harrive.trans (arrive_of_none frameDecoder hn)
      have hbuf : (l.reader.readEvent hr side chunk).conn.evReadBuf
          = l.reader.conn.evReadBuf ++ chunk := congrArg Receiver.buffer hreceiver
      have hdisp : (l.reader.readEvent hr side chunk).dispatched
          = l.reader.dispatched := congrArg Receiver.delivered hreceiver
      refine ⟨bs, ?_, h.short, ?_, ?_, hlist⟩
      · rw [hdisp]
        exact h.sent
      · rw [hbuf]
        exact hbytes
      · rw [hbuf, hdisp, ← h.received]
        simp only [List.append_assoc]
  | some p =>
      obtain ⟨body, rest⟩ := p
      have hreceiver := harrive.trans (arrive_of_some frameDecoder hn)
      have hbuf : (l.reader.readEvent hr side chunk).conn.evReadBuf = rest :=
        congrArg Receiver.buffer hreceiver
      have hdisp : (l.reader.readEvent hr side chunk).dispatched
          = l.reader.dispatched ++ [body] :=
        congrArg Receiver.delivered hreceiver
      -- only the first body on its way can have been read
      obtain ⟨bs', hbs, hframe, -⟩ := next_of_start (frameCodec hs) h.short
        ⟨_, hbytes⟩ hn
      subst hbs
      have hrest : rest ++ l.sender.evWriteBuf.drop n
          = encAll (frameCodec hs) bs' := by
        rw [hframe, List.append_assoc] at hbytes
        exact List.append_cancel_left hbytes
      refine ⟨bs', ?_, ?_, ?_, ?_, hlist⟩
      · rw [hdisp, List.append_assoc]
        exact h.sent
      · intro b hb
        exact h.short b (List.mem_cons_of_mem body hb)
      · rw [hbuf]
        exact hrest
      · rw [hbuf, hdisp, encAll_append, ← h.received, List.append_assoc,
          List.append_assoc, hframe]
        simp only [encAll, List.flatMap_cons, List.flatMap_nil, List.append_nil]

end Link

/-- **FRAMING SAFETY**: at every moment of every run, whatever is sent and
    however the bytes arrive, the packets handed to the handler are a prefix of
    the bodies sent and no byte received is lost. -/
theorem framing_safe {es er : Endian} {side : Side} {junk junk' : List UInt8}
    {evs : List LinkEvent} {l : Link}
    (hrun : Run (LinkStep (host64 es) (host64 er) side) (Link.new junk junk')
      evs l) :
    FramingSafe (host64 es) l := by
  have hway : ∃ bs, OnTheWay (host64 es) l bs := by
    refine hrun.invariant (fun l => ∃ bs, OnTheWay (host64 es) l bs) ?_ ?_
    · exact ⟨[], rfl, fun b hb => (nomatch hb), rfl, rfl, rfl⟩
    · rintro l e l' ⟨bs, h⟩ hstep
      cases e with
      | send body => exact ⟨_, onTheWay_send h hstep⟩
      | readEvent n => exact onTheWay_readEvent (host64_sizeMod er) h hstep
  obtain ⟨bs, h⟩ := hway
  exact ⟨⟨bs, h.sent.symm⟩, h.received⟩

/-- Two bodies, the second arriving in two pieces. -/
def twoSends : List LinkEvent :=
  [.send [1, 2], .send [], .readEvent 10, .readEvent 4]

/-- Both packets have arrived, in order. -/
def twoSendsEnd : Link where
  sender := { Conn.new [] with evWriteBuf := [] }
  reader :=
    { conn := { Conn.new [] with readBuf := [1, 2] }
      dispatched := [[1, 2], []] }
  sent := [[1, 2], []]
  received := frame (host64 .little) [1, 2] ++ frame (host64 .little) []

/-- The first read event completes the first frame and begins the second. -/
theorem run_twoSends :
    Run (LinkStep (host64 .little) (host64 .little) .server) (Link.new [] [])
      twoSends twoSendsEnd := by
  refine Run.cons ⟨by decide, rfl⟩ (Run.cons ⟨by decide, rfl⟩ ?_)
  exact Run.cons rfl (Run.cons rfl Run.start)

/-- The example is safe. -/
theorem framing_safe_twoSends : FramingSafe (host64 .little) twoSendsEnd :=
  framing_safe run_twoSends

/-! ## The same stream, cut in two ways -/

/-- The reader after the read events of a cut. -/
def readAll (h : Host) (side : Side) (junk : List UInt8)
    (cut : List (List UInt8)) : Reader :=
  cut.foldl (Reader.readEvent h side) (Reader.new junk)

/-- After no read event a complete frame is left waiting, in the read buffer or
    in `read_buf_list_`. -/
def NoneStranded (h : Host) (side : Side) (junk : List UInt8)
    (cut : List (List UInt8)) : Prop :=
  ∀ pre, pre <+: cut →
    nextFrame (readAll h side junk pre).conn.evReadBuf = none
      ∧ (readAll h side junk pre).conn.readBufList = []

/-- No read event completes more than one frame. -/
def OneFrameEach (cut : List (List UInt8)) : Prop :=
  ∀ pre chunk, pre ++ [chunk] <+: cut →
    complete frameDecoder (pre.flatten ++ chunk)
      ≤ complete frameDecoder pre.flatten + 1

section Cut

variable {h : Host} {side : Side} {junk : List UInt8}

/-- The reader is the receiver of the frame decoder. -/
theorem readAll_eq (hmod : 0x100000006 ≤ h.sizeMod) (cut : List (List UInt8)) :
    (readAll h side junk cut).conn.readBufList = []
      ∧ (readAll h side junk cut).receiver = arriveAll frameDecoder cut := by
  induction cut using List.reverseRecOn with
  | nil => exact ⟨rfl, rfl⟩
  | append_singleton cut chunk ih =>
      obtain ⟨hlist, hrecv⟩ := ih
      have hstep : readAll h side junk (cut ++ [chunk])
          = (readAll h side junk cut).readEvent h side chunk :=
        List.foldl_concat ..
      rw [hstep, arriveAll_snoc, ← hrecv]
      exact readEvent_arrive hmod side hlist chunk

/-- **NONE IS LEFT** exactly if no event completes more than one frame. -/
theorem noneStranded_iff (hmod : 0x100000006 ≤ h.sizeMod)
    (cut : List (List UInt8)) :
    NoneStranded h side junk cut ↔ OneFrameEach cut := by
  refine Iff.trans ?_ (settled_prefixes_iff frameDecoder cut)
  constructor
  · intro hnone pre hpre
    have hwaits := (hnone pre hpre).1
    rw [show (readAll h side junk pre).conn.evReadBuf = _ from
      congrArg Receiver.buffer (readAll_eq hmod pre).2] at hwaits
    exact hwaits
  · intro hsettled pre hpre
    obtain ⟨hlist, hrecv⟩ := @readAll_eq h side junk hmod pre
    refine ⟨?_, hlist⟩
    rw [show (readAll h side junk pre).conn.evReadBuf = _ from
      congrArg Receiver.buffer hrecv]
    exact hsettled pre hpre

/-- A reader that keeps up has dispatched the complete frames of the stream. -/
theorem dispatched_of_oneFrameEach (hmod : 0x100000006 ≤ h.sizeMod)
    {cut : List (List UInt8)} (hone : OneFrameEach cut) :
    (readAll h side junk cut).dispatched
      = (drain frameDecoder cut.flatten).1 := by
  have hsettled := (settled_prefixes_iff frameDecoder cut).mpr hone cut
    (List.prefix_refl cut)
  rw [← delivered_of_settled frameDecoder (sound_arriveAll frameDecoder cut)
    hsettled]
  exact congrArg Receiver.delivered (readAll_eq hmod cut).2

end Cut

/-- **SEGMENTATION**: two cuts of a stream dispatch the same packets and strand
    none exactly if no read event of either completes two frames. -/
theorem segmentation_independent_iff {e : Endian} {side : Side}
    {junk junk' : List UInt8} {cut cut' : List (List UInt8)}
    (hstream : cut.flatten = cut'.flatten) :
    ((readAll (host64 e) side junk cut).dispatched
        = (readAll (host64 e) side junk' cut').dispatched
      ∧ NoneStranded (host64 e) side junk cut
      ∧ NoneStranded (host64 e) side junk' cut')
      ↔ OneFrameEach cut ∧ OneFrameEach cut' := by
  have hmod := host64_sizeMod e
  rw [noneStranded_iff hmod, noneStranded_iff hmod]
  constructor
  · rintro ⟨-, hone, hone'⟩
    exact ⟨hone, hone'⟩
  · rintro ⟨hone, hone'⟩
    refine ⟨?_, hone, hone'⟩
    rw [dispatched_of_oneFrameEach hmod hone,
      dispatched_of_oneFrameEach hmod hone', hstream]

/-- The frames of two empty bodies, as they arrive one by one and together. -/
def apart : List (List UInt8) :=
  [frame (host64 .little) [], frame (host64 .little) []]

/-- The same two frames in one piece. -/
def together : List (List UInt8) :=
  [frame (host64 .little) [] ++ frame (host64 .little) []]

/-- Cut apart all are dispatched, and together one is left. -/
theorem segmentation_independent_iff_apart :
    ((readAll (host64 .little) .server [] apart).dispatched
        = (readAll (host64 .little) .server [] together).dispatched
      ∧ NoneStranded (host64 .little) .server [] apart
      ∧ NoneStranded (host64 .little) .server [] together)
      ↔ OneFrameEach apart ∧ OneFrameEach together :=
  segmentation_independent_iff rfl

/-- **TWO FRAMES IN ONE READ EVENT**: the second one is not dispatched. -/
theorem coalesced_frame_stranded :
    apart.flatten = together.flatten
      ∧ (readAll (host64 .little) .server [] apart).dispatched = [[], []]
      ∧ (readAll (host64 .little) .server [] together).dispatched = [[]]
      ∧ ¬ NoneStranded (host64 .little) .server [] together := by
  refine ⟨rfl, rfl, rfl, ?_⟩
  intro hnone
  exact nomatch (hnone together (List.prefix_refl together)).1

end Framing
