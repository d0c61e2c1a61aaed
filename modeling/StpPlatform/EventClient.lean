import StpPlatform.LabelledRun
import StpPlatform.ResourceTrace

/-! # The lifetime of the client's connection (`stputil/tcp_event_client`)

    `StartRun` allocates a `Connection` and a `bufferevent` and keeps pointers
    to both.  Timers send through `conn_` as long as the event loop runs, and
    the destructor releases both objects.  But `BufferEventCallback` releases
    them too, when the peer closes or an error is reported, and leaves the
    pointers of the client as they are: `lifetime_ok_iff` says that a run
    treats the two objects well exactly if no such event is reported in it. -/

namespace EventClient

open LabelledRun ResourceTrace

/-! ## The client -/

/-- What the client allocates. -/
inductive Obj where
  | connection
  | bufferEvent
  deriving DecidableEq

/-- The flags of `events` that end a connection. -/
def BEV_EVENT_EOF : UInt16 := 0x10

/-- `BEV_EVENT_ERROR` of libevent. -/
def BEV_EVENT_ERROR : UInt16 := 0x20

/-- `events & (BEV_EVENT_ERROR | BEV_EVENT_EOF)`. -/
def closes (events : UInt16) : Bool :=
  events &&& (BEV_EVENT_ERROR ||| BEV_EVENT_EOF) != 0

/-- Where the process is: before `StartRun`, inside `event_base_dispatch`,
    behind it, stopped by `LOG(FATAL)`, or behind the destructor. -/
inductive Phase where
  | created
  | dispatching
  | returned
  | aborted
  | destroyed
  deriving DecidableEq

/-- `class TcpEventClient`: whether its pointers are set, whether libevent still
    has the `bufferevent` and calls back, and what was done so far. -/
structure TcpEventClient where
  conn : Bool
  bufferEvent : Bool
  attached : Bool
  phase : Phase
  trace : List (Op Obj)

/-- `TcpEventClient::TcpEventClient(const char*, int16_t)`. -/
def TcpEventClient.new : TcpEventClient where
  conn := false
  bufferEvent := false
  attached := false
  phase := .created
  trace := []

/-- Operations on objects of the client, in order. -/
def TcpEventClient.note (ops : List (Op Obj)) (c : TcpEventClient) :
    TcpEventClient :=
  { c with trace := c.trace ++ ops }

/-- `bool TcpEventClient::StartRun()` up to `event_base_dispatch`; `connects` is
    what `bufferevent_socket_connect` makes of it. -/
def TcpEventClient.startRun (connects : Bool) (c : TcpEventClient) :
    TcpEventClient :=
  let c := { c.note [.acquire .connection, .acquire .bufferEvent] with
    conn := true
    bufferEvent := true }
  if connects then
    { c.note [.use .connection, .use .bufferEvent] with
      attached := true
      phase := .dispatching }
  else { c.note [.release .bufferEvent] with phase := .aborted }

/-- `conn_->SendNetMessage(buf_, size)`: the bytes go to the output buffer of
    the `bufferevent`. -/
def TcpEventClient.sendNetMessage (c : TcpEventClient) : TcpEventClient :=
  c.note [.use .connection, .use .bufferEvent]

/-- `void StpClient::TimerHeartBeatCallback(int, short, void*)`; `fits` is what
    `SerializeToArray` answers. -/
def TcpEventClient.timerHeartBeatCallback (fits : Bool) (c : TcpEventClient) :
    TcpEventClient :=
  if fits then c.sendNetMessage else c

/-- `void StpClient::CryptoNegotiateCallback(int, short, void*)`. -/
def TcpEventClient.cryptoNegotiateCallback (fits : Bool) (c : TcpEventClient) :
    TcpEventClient :=
  if fits then c.sendNetMessage else c

/-- `void EventNotifier::ReadEventCallback(bufferevent*, void*)`. -/
def TcpEventClient.readEventCallback (c : TcpEventClient) : TcpEventClient :=
  c.note [.use .bufferEvent, .use .connection]

/-- `void EventNotifier::WriteEventCallback(bufferevent*, void*)`. -/
def TcpEventClient.writeEventCallback (c : TcpEventClient) : TcpEventClient :=
  c.note [.use .bufferEvent, .use .connection]

/-- `bufferevent_free(bev)`, `conn->ProcessCloseEvent(events)` and
    `Connection::DeleteConnection(conn)`. -/
def TcpEventClient.closeConnection (c : TcpEventClient) : TcpEventClient :=
  { c.note [.release .bufferEvent, .use .connection, .release .connection] with
    attached := false }

/-- `void EventNotifier::BufferEventCallback(bufferevent*, short, void*)`; the
    fields `conn_` and `buffer_event_` of the client are out of its sight. -/
def TcpEventClient.bufferEventCallback (events : UInt16) (c : TcpEventClient) :
    TcpEventClient :=
  if closes events then c.closeConnection else c

/-- `TcpEventClient::~TcpEventClient()`. -/
def TcpEventClient.destroy (c : TcpEventClient) : TcpEventClient :=
  let c := if c.bufferEvent then c.note [.release .bufferEvent] else c
  let c := if c.conn then c.note [.release .connection] else c
  { c with phase := .destroyed }

/-! ## Its runs -/

/-- What can happen to the client; `bufferEvent` carries libevent's flags. -/
inductive Event where
  | startRun (connects : Bool)
  | ping (fits : Bool)
  | negotiate (fits : Bool)
  | read
  | write
  | bufferEvent (events : UInt16)
  | quit
  | loopExit
  | destroy

/-- What happens next, when it can: callbacks come from the event loop, those of
    the `bufferevent` while it is there.  `quit` only asks the loop to exit. -/
def TcpEventClient.step (c : TcpEventClient) : Event → Option TcpEventClient
  | .startRun connects =>
      if c.phase = .created then some (c.startRun connects) else none
  | .ping fits =>
      if c.phase = .dispatching then some (c.timerHeartBeatCallback fits) else none
  | .negotiate fits =>
      if c.phase = .dispatching then some (c.cryptoNegotiateCallback fits) else none
  | .read =>
      if c.phase = .dispatching ∧ c.attached = true then some c.readEventCallback
      else none
  | .write =>
      if c.phase = .dispatching ∧ c.attached = true then some c.writeEventCallback
      else none
  | .bufferEvent events =>
      if c.phase = .dispatching ∧ c.attached = true then
        some (c.bufferEventCallback events)
      else none
  | .quit => if c.phase = .dispatching then some c else none
  | .loopExit =>
      if c.phase = .dispatching then some { c with phase := .returned } else none
  | .destroy =>
      if c.phase = .created ∨ c.phase = .returned then some c.destroy else none

/-- A step that the client survives. -/
def Step (c : TcpEventClient) (e : Event) (c' : TcpEventClient) : Prop :=
  c.step e = some c'

/-- Nothing is used after its release, and all that was allocated is released
    exactly once. -/
structure LifetimeOk (c : TcpEventClient) : Prop where
  timely : Timely c.trace
  once : Settled c.trace

/-- The end of the connection is reported. -/
def Event.Closing (e : Event) : Prop :=
  ∃ events, e = .bufferEvent events ∧ closes events = true

/-- Somewhere in the run the connection was closed from outside. -/
def Closed (es : List Event) : Prop := ∃ e ∈ es, e.Closing

theorem closed_concat {es : List Event} {e : Event} :
    Closed (es ++ [e]) ↔ Closed es ∨ e.Closing := by
  simp only [Closed, List.mem_append, List.mem_singleton, or_and_right,
    exists_or, exists_eq_left]

/-! ## One step -/

/-- **EVERYTHING A STEP CAN DO**, with the phase it starts in. -/
inductive StepEffect (c : TcpEventClient) (e : Event) : TcpEventClient → Prop where
  | started (connects : Bool) (hphase : c.phase = .created) (he : ¬ e.Closing) :
      StepEffect c e (c.startRun connects)
  | used (ops : List (Op Obj)) (hphase : c.phase = .dispatching)
      (huse : ∀ op ∈ ops, op = .use op.resource) (he : ¬ e.Closing) :
      StepEffect c e (c.note ops)
  | closed (hphase : c.phase = .dispatching) (hattached : c.attached = true)
      (he : e.Closing) : StepEffect c e c.closeConnection
  | exited (hphase : c.phase = .dispatching) (he : ¬ e.Closing) :
      StepEffect c e { c with phase := .returned }
  | destroyed (hphase : c.phase = .created ∨ c.phase = .returned)
      (he : ¬ e.Closing) : StepEffect c e c.destroy

/-- Only buffer events close. -/
theorem not_closing_of_ne {e : Event} (h : ∀ events, e ≠ .bufferEvent events) :
    ¬ e.Closing := by
  rintro ⟨events, he, -⟩
  exact h events he

theorem note_nil (c : TcpEventClient) : c.note [] = c := by
  rw [TcpEventClient.note, List.append_nil]

/-- Both timers do the same with the connection. -/
theorem effect_of_tick {c : TcpEventClient} {e : Event} (fits : Bool)
    (hphase : c.phase = .dispatching) (he : ¬ e.Closing) :
    StepEffect c e (if fits then c.sendNetMessage else c) := by
  cases fits with
  | true =>
      refine .used _ hphase ?_ he
      decide
  | false =>
      have h : StepEffect c e (c.note []) :=
        .used [] hphase (fun op hop => absurd hop List.not_mem_nil) he
      rw [note_nil] at h
      exact h

theorem step_effect {c c' : TcpEventClient} {e : Event} (h : Step c e c') :
    StepEffect c e c' := by
  have hidle : c.phase = .dispatching → ¬ e.Closing → StepEffect c e c := by
    intro hphase he
    exact effect_of_tick false hphase he
  cases e with
  | startRun connects =>
      obtain ⟨hphase, hc'⟩ := Option.ite_none_right_eq_some.mp h
      cases hc'
      exact .started connects hphase (not_closing_of_ne (fun _ hf => nomatch hf))
  | ping fits =>
      obtain ⟨hphase, hc'⟩ := Option.ite_none_right_eq_some.mp h
      cases hc'
      exact effect_of_tick fits hphase (not_closing_of_ne (fun _ hf => nomatch hf))
  | negotiate fits =>
      obtain ⟨hphase, hc'⟩ := Option.ite_none_right_eq_some.mp h
      cases hc'
      exact effect_of_tick fits hphase (not_closing_of_ne (fun _ hf => nomatch hf))
  | read =>
      obtain ⟨⟨hphase, -⟩, hc'⟩ := Option.ite_none_right_eq_some.mp h
      cases hc'
      refine .used _ hphase ?_ (not_closing_of_ne (fun _ hf => nomatch hf))
      decide
  | write =>
      obtain ⟨⟨hphase, -⟩, hc'⟩ := Option.ite_none_right_eq_some.mp h
      cases hc'
      refine .used _ hphase ?_ (not_closing_of_ne (fun _ hf => nomatch hf))
      decide
  | bufferEvent events =>
      obtain ⟨⟨hphase, hattached⟩, hc'⟩ := Option.ite_none_right_eq_some.mp h
      cases hc'
      rw [TcpEventClient.bufferEventCallback]
      by_cases hcl : closes events = true
      · rw [if_pos hcl]
        exact .closed hphase hattached ⟨events, rfl, hcl⟩
      · rw [if_neg hcl]
        refine hidle hphase ?_
        rintro ⟨events', he, hcl'⟩
        cases he
        exact hcl hcl'
  | quit =>
      obtain ⟨hphase, hc'⟩ := Option.ite_none_right_eq_some.mp h
      cases hc'
      exact hidle hphase (not_closing_of_ne (fun _ hf => nomatch hf))
  | loopExit =>
      obtain ⟨hphase, hc'⟩ := Option.ite_none_right_eq_some.mp h
      cases hc'
      exact .exited hphase (not_closing_of_ne (fun _ hf => nomatch hf))
  | destroy =>
      obtain ⟨hphase, hc'⟩ := Option.ite_none_right_eq_some.mp h
      cases hc'
      exact .destroyed hphase (not_closing_of_ne (fun _ hf => nomatch hf))

/-! ## What holds in every run -/

/-- Both objects are there and nothing has been released. -/
structure Live (c : TcpEventClient) : Prop where
  conn : c.conn = true
  bufferEvent : c.bufferEvent = true
  once : ∀ o, c.trace.count (.acquire o) = 1
  kept : ∀ o, .release o ∉ c.trace

/-- Both objects are gone, but the client still has its pointers. -/
structure Dangling (c : TcpEventClient) : Prop where
  conn : c.conn = true
  bufferEvent : c.bufferEvent = true
  attached : c.attached = false
  once : c.trace.count (.acquire .connection) = 1
  gone : .release .connection ∈ c.trace

/-- What is known after the events `es`, by where the process is. -/
def LifetimeInv (es : List Event) (c : TcpEventClient) : Prop :=
  match c.phase with
  | .created => ¬ Closed es ∧ c = .new
  | .dispatching => (¬ Closed es ∧ Live c) ∨ (Closed es ∧ Dangling c)
  | .returned => (¬ Closed es ∧ Live c) ∨ (Closed es ∧ Dangling c)
  | .aborted => True
  | .destroyed => LifetimeOk c ↔ ¬ Closed es

theorem count_acquire_of_uses {ops : List (Op Obj)}
    (h : ∀ op ∈ ops, op = .use op.resource) (o : Obj) :
    ops.count (.acquire o) = 0 :=
  List.count_eq_zero.mpr (fun hmem => nomatch h _ hmem)

theorem Live.note {c : TcpEventClient} {ops : List (Op Obj)} (h : Live c)
    (huse : ∀ op ∈ ops, op = .use op.resource) : Live (c.note ops) := by
  refine ⟨h.conn, h.bufferEvent, ?_, ?_⟩
  · intro o
    show (c.trace ++ ops).count (.acquire o) = 1
    rw [List.count_append, h.once o, count_acquire_of_uses huse o]
  · intro o hrel
    rcases List.mem_append.mp hrel with hrel | hrel
    · exact h.kept o hrel
    · cases huse _ hrel

/-- Uses of a connection that was deleted are the fault, and change nothing else. -/
theorem Dangling.note {c : TcpEventClient} {ops : List (Op Obj)} (h : Dangling c)
    (huse : ∀ op ∈ ops, op = .use op.resource) : Dangling (c.note ops) := by
  refine ⟨h.conn, h.bufferEvent, h.attached, ?_, List.mem_append_left _ h.gone⟩
  show (c.trace ++ ops).count (.acquire .connection) = 1
  rw [List.count_append, h.once, count_acquire_of_uses huse .connection]

/-- `StartRun` takes the connection and its `bufferevent`. -/
theorem live_startRun : Live (TcpEventClient.new.startRun true) := by
  refine ⟨rfl, rfl, ?_, ?_⟩
  · intro o
    cases o <;> decide
  · intro o
    cases o <;> decide

/-- `BufferEventCallback` leaves the client with pointers to what is gone. -/
theorem Live.closeConnection {c : TcpEventClient} (h : Live c) :
    Dangling c.closeConnection := by
  refine ⟨h.conn, h.bufferEvent, rfl, ?_, ?_⟩
  · show (c.trace ++ _).count (.acquire .connection) = 1
    rw [List.count_append, h.once]
    rfl
  · exact List.mem_append_right _ (by decide)

/-- The destructor gives both back, one after the other. -/
theorem destroy_trace {c : TcpEventClient} (hconn : c.conn = true)
    (hbev : c.bufferEvent = true) :
    c.destroy.trace = c.trace ++ [.release .bufferEvent, .release .connection] := by
  simp [TcpEventClient.destroy, TcpEventClient.note, hconn, hbev]

/-- The destructor releases what is there, once. -/
theorem Live.destroy {c : TcpEventClient} (h : Live c) : LifetimeOk c.destroy := by
  have htrace := destroy_trace h.conn h.bufferEvent
  refine ⟨?_, ?_⟩
  · -- nothing was given back before, and nothing is used after
    rw [htrace]
    refine (timely_of_unreleased h.kept).append (timely_of_unused ?_) ?_
    · intro o
      cases o <;> decide
    · intro o huse
      cases o <;> exact absurd huse (by decide)
  · intro o
    rw [htrace, List.count_append, List.count_append, h.once o,
      List.count_eq_zero.mpr (h.kept o)]
    cases o <;> decide

/-- A second release of the connection. -/
theorem Dangling.destroy {c : TcpEventClient} (h : Dangling c) :
    ¬ LifetimeOk c.destroy := by
  intro hok
  -- taken once, and given back by the callback and by the destructor
  have hback := (hok.once .connection).1
  rw [destroy_trace h.conn h.bufferEvent, List.count_append, List.count_append,
    h.once] at hback
  have hgone := List.count_pos_iff.mpr h.gone
  have hlast : [Op.release Obj.bufferEvent, .release .connection].count
      (.release .connection) = 1 := by decide
  have hnone : [Op.release Obj.bufferEvent, .release .connection].count
      (.acquire .connection) = 0 := by decide
  omega

theorem lifetimeOk_unused : LifetimeOk TcpEventClient.new.destroy :=
  ⟨timely_of_unused (fun _ => List.not_mem_nil), settled_nil⟩

/-- **ONE EVENT**: alive until one closes the connection, dangling from then on. -/
theorem lifetimeInv_step {es : List Event} {e : Event} {c c' : TcpEventClient}
    (h : LifetimeInv es c) (hstep : Step c e c') :
    LifetimeInv (es ++ [e]) c' := by
  -- only a closing event makes a difference to `Closed`
  have hopen : ¬ e.Closing → (Closed (es ++ [e]) ↔ Closed es) := by
    intro he
    rw [closed_concat]
    exact or_iff_left he
  rw [LifetimeInv] at h
  cases step_effect hstep with
  | started connects hphase he =>
      rw [hphase] at h
      obtain ⟨hcl, hc⟩ := h
      subst hc
      cases connects with
      | true => exact Or.inl ⟨fun hcl' => hcl ((hopen he).mp hcl'), live_startRun⟩
      | false => exact trivial
  | used ops hphase huse he =>
      rw [hphase] at h
      rw [LifetimeInv, show (c.note ops).phase = .dispatching from hphase, hopen he]
      rcases h with ⟨hcl, hlive⟩ | ⟨hcl, hdang⟩
      · exact Or.inl ⟨hcl, hlive.note huse⟩
      · exact Or.inr ⟨hcl, hdang.note huse⟩
  | closed hphase hattached he =>
      rw [hphase] at h
      -- the event that closes the connection, which is then deleted
      have hcl' : Closed (es ++ [e]) := closed_concat.mpr (Or.inr he)
      rcases h with ⟨-, hlive⟩ | ⟨-, hdang⟩
      · rw [LifetimeInv, show c.closeConnection.phase = .dispatching from hphase]
        exact Or.inr ⟨hcl', hlive.closeConnection⟩
      · -- after that libevent has nothing to report
        exact absurd (hdang.attached.symm.trans hattached) (by decide)
  | exited hphase he =>
      rw [hphase] at h
      rw [LifetimeInv, hopen he]
      rcases h with ⟨hcl, hlive⟩ | ⟨hcl, hdang⟩
      · exact Or.inl ⟨hcl, hlive.conn, hlive.bufferEvent, hlive.once, hlive.kept⟩
      · exact Or.inr ⟨hcl, hdang.conn, hdang.bufferEvent, hdang.attached,
          hdang.once, hdang.gone⟩
  | destroyed hphase he =>
      show LifetimeOk c.destroy ↔ ¬ Closed (es ++ [e])
      rw [hopen he]
      rcases hphase with hphase | hphase
      · rw [hphase] at h
        obtain ⟨hcl, hc⟩ := h
        subst hc
        exact iff_of_true lifetimeOk_unused hcl
      · rw [hphase] at h
        rcases h with ⟨hcl, hlive⟩ | ⟨hcl, hdang⟩
        · exact iff_of_true hlive.destroy hcl
        · exact iff_of_false hdang.destroy (fun hf => hf hcl)

/-- Every run of a client from its construction. -/
theorem lifetimeInv_of_run {es : List Event} {c : TcpEventClient}
    (hrun : Run Step TcpEventClient.new es c) : LifetimeInv es c := by
  have hnone : ¬ Closed [] := by
    rintro ⟨e, he, -⟩
    exact absurd he List.not_mem_nil
  have hstart : LifetimeInv [] TcpEventClient.new := ⟨hnone, rfl⟩
  have hcond : EveryEvent (fun _ _ => True) es := fun _ _ _ _ => trivial
  exact hrun.invariant_of LifetimeInv hstart
    (fun _ _ _ _ hinv _ hstep => lifetimeInv_step hinv hstep) hcond

/-- **CONNECTION LIFETIME**: a run up to the destructor uses the connection only
    while it is there, and releases everything once, exactly if the end of the
    connection is never reported in it. -/
theorem lifetime_ok_iff {es : List Event} {c : TcpEventClient}
    (hrun : Run Step TcpEventClient.new es c) (hend : c.phase = .destroyed) :
    LifetimeOk c ↔ ¬ Closed es := by
  have hinv := lifetimeInv_of_run hrun
  rw [LifetimeInv, hend] at hinv
  exact hinv

/-- A run without the end of the connection, up to the destructor. -/
def quietRun : List Event :=
  [.startRun true, .ping true, .read, .negotiate true, .read, .quit, .loopExit,
    .destroy]

/-- The peer closes, and the heart beat goes on. -/
def peerClosesRun : List Event :=
  [.startRun true, .bufferEvent BEV_EVENT_EOF, .ping true, .quit, .loopExit,
    .destroy]

/-- A run in which the server stays. -/
theorem lifetime_ok_quietRun :
    ∃ c, Run Step TcpEventClient.new quietRun c
      ∧ (LifetimeOk c ↔ ¬ Closed quietRun) :=
  have hrun : Run Step TcpEventClient.new quietRun _ := run_of_follow rfl
  ⟨_, hrun, lifetime_ok_iff hrun rfl⟩

/-- The client at the end of `peerClosesRun`. -/
def peerClosed : TcpEventClient where
  conn := true
  bufferEvent := true
  attached := false
  phase := .destroyed
  trace := [.acquire .connection, .acquire .bufferEvent, .use .connection,
    .use .bufferEvent, .release .bufferEvent, .use .connection,
    .release .connection, .use .connection, .use .bufferEvent,
    .release .bufferEvent, .release .connection]

/-- **A HEART BEAT AFTER THE PEER HAS CLOSED** goes out on a deleted connection,
    and the destructor deletes it again. -/
theorem peer_close_dangles :
    Run Step TcpEventClient.new peerClosesRun peerClosed
      ∧ peerClosed.phase = .destroyed ∧ ¬ Timely peerClosed.trace
      ∧ ¬ Settled peerClosed.trace ∧ ¬ LifetimeOk peerClosed := by
  have htimely : ¬ Timely peerClosed.trace := by
    intro h
    have hsend := h (peerClosed.trace.take 7) .connection
      (peerClosed.trace.drop 8) rfl
    exact absurd hsend (by decide)
  have hsettled : ¬ Settled peerClosed.trace := by
    intro h
    exact absurd (h .connection).1 (by decide)
  exact ⟨run_of_follow rfl, rfl, htimely, hsettled, fun hok => htimely hok.timely⟩

end EventClient
