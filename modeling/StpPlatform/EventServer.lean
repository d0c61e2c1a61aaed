import StpPlatform.EventClient
import StpPlatform.ResourceLedger

/-! # The lifetime of the server's connections (`stputil/tcp_event_server`)

    A server owns an event base and, while it listens, a listener.  Every accepted
    socket gets a `bufferevent`, which closes it when it is freed, and a
    `Connection`; only `BufferEventCallback` releases the three of them, when the
    end of the connection is reported.  A socket without a `bufferevent` breaks
    the loop, and nobody closes it.

    `server_lifetime` says what this amounts to: no run uses or releases anything
    twice, and all is released in the end exactly if the end of every accepted
    connection was reported. -/

namespace EventServer

open LabelledRun ResourceTrace
open EventClient (closes)

/-! ## The server -/

/-- What the server allocates; connections are numbered as they are accepted. -/
inductive Obj where
  | eventBase
  | listener
  | socket (n : Nat)
  | bufferEvent (n : Nat)
  | connection (n : Nat)
  deriving DecidableEq

/-- Where the process is; `breaking` is behind `event_base_loopbreak`. -/
inductive Phase where
  | created
  | dispatching
  | breaking
  | returned
  | aborted
  | destroyed
  deriving DecidableEq

/-- `class TcpEventServer`: its port, the number of sockets accepted, those whose
    `bufferevent` calls back, those that got none, and what was done so far. -/
structure TcpEventServer where
  port : Int16
  accepted : Nat
  attached : List Nat
  orphaned : List Nat
  phase : Phase
  trace : List (Op Obj)

/-- `TcpEventServer::TcpEventServer(int16_t)`. -/
def TcpEventServer.new (port : Int16) : TcpEventServer where
  port := port
  accepted := 0
  attached := []
  orphaned := []
  phase := .created
  trace := [.acquire .eventBase]

/-- Operations on objects of the server, in the order in which they happen. -/
def TcpEventServer.note (ops : List (Op Obj)) (s : TcpEventServer) : TcpEventServer :=
  { s with trace := s.trace ++ ops }

/-- `bool TcpEventServer::StartRun()` up to `event_base_dispatch`; `binds` is what
    `evconnlistener_new_bind` makes of the port. -/
def TcpEventServer.startRun (binds : Bool) (s : TcpEventServer) : TcpEventServer :=
  if s.port ≠ -1 then
    if binds then
      { s.note [.use .eventBase, .acquire .listener] with phase := .dispatching }
    else { s.note [.use .eventBase] with phase := .aborted }
  else { s with phase := .dispatching }

/-- `void TcpEventServer::ListenerEventCallback(..)`; `bevNew` is what
    `bufferevent_socket_new` answers. -/
def TcpEventServer.listenerEventCallback (bevNew : Bool) (s : TcpEventServer) :
    TcpEventServer :=
  let n := s.accepted
  let s := { s.note [.acquire (.socket n), .use .eventBase] with accepted := n + 1 }
  if bevNew then
    { s.note [.acquire (.bufferEvent n), .acquire (.connection n), .use (.bufferEvent n),
        .use (.connection n)] with
      attached := n :: s.attached }
  else
    { s.note [.use .eventBase] with
      orphaned := n :: s.orphaned
      phase := .breaking }

/-- `void EventNotifier::ReadEventCallback(bufferevent*, void*)`. -/
def TcpEventServer.readEventCallback (n : Nat) (s : TcpEventServer) : TcpEventServer :=
  s.note [.use (.bufferEvent n), .use (.connection n)]

/-- `void EventNotifier::WriteEventCallback(bufferevent*, void*)`. -/
def TcpEventServer.writeEventCallback (n : Nat) (s : TcpEventServer) : TcpEventServer :=
  s.note [.use (.bufferEvent n), .use (.connection n)]

/-- `bufferevent_free(bev)`, which closes the socket, `conn->ProcessCloseEvent(..)`
    and `Connection::DeleteConnection(conn)`. -/
def TcpEventServer.closeConnection (n : Nat) (s : TcpEventServer) : TcpEventServer :=
  { s.note [.release (.bufferEvent n), .release (.socket n), .use (.connection n),
      .release (.connection n)] with
    attached := s.attached.erase n }

/-- `void EventNotifier::BufferEventCallback(bufferevent*, short, void*)`. -/
def TcpEventServer.bufferEventCallback (n : Nat) (events : UInt16) (s : TcpEventServer) :
    TcpEventServer :=
  if closes events then s.closeConnection n else s

/-- The end of `StartRun`, behind the event loop. -/
def TcpEventServer.loopExit (s : TcpEventServer) : TcpEventServer :=
  if s.port ≠ -1 then { s.note [.release .listener] with phase := .returned }
  else { s with phase := .returned }

/-- `~TcpEventServer()`, which asks the loop to stop, and `~EventNotifier()`. -/
def TcpEventServer.destroy (s : TcpEventServer) : TcpEventServer :=
  { s.note [.use .eventBase, .release .eventBase] with phase := .destroyed }

/-! ## Its runs -/

/-- What can happen to the server; the events of libevent come at any time. -/
inductive Event where
  | startRun (binds : Bool)
  | accept (bevNew : Bool)
  | read (n : Nat)
  | write (n : Nat)
  | bufferEvent (n : Nat) (events : UInt16)
  | quit
  | loopExit
  | destroy

/-- What happens next, when it can: callbacks come from the event loop, those of
    a `bufferevent` while it is there, and none after a break. -/
def TcpEventServer.step (s : TcpEventServer) : Event → Option TcpEventServer
  | .startRun binds => if s.phase = .created then some (s.startRun binds) else none
  | .accept bevNew =>
      if s.phase = .dispatching ∧ s.port ≠ -1 then some (s.listenerEventCallback bevNew)
      else none
  | .read n =>
      if s.phase = .dispatching ∧ n ∈ s.attached then some (s.readEventCallback n) else none
  | .write n =>
      if s.phase = .dispatching ∧ n ∈ s.attached then some (s.writeEventCallback n) else none
  | .bufferEvent n events =>
      if s.phase = .dispatching ∧ n ∈ s.attached then some (s.bufferEventCallback n events)
      else none
  | .quit => if s.phase = .dispatching then some s else none
  | .loopExit =>
      if s.phase = .dispatching ∨ s.phase = .breaking then some s.loopExit else none
  | .destroy =>
      if s.phase = .created ∨ s.phase = .returned then some s.destroy else none

/-- A step that the server survives. -/
def Step (s : TcpEventServer) (e : Event) (s' : TcpEventServer) : Prop := s.step e = some s'

/-- The number of sockets that a run accepts. -/
def accepts (es : List Event) : Nat :=
  es.countP (fun e => match e with | .accept _ => true | _ => false)

/-- The end of connection `n` is reported. -/
def Ended (n : Nat) (es : List Event) : Prop :=
  ∃ events, .bufferEvent n events ∈ es ∧ closes events = true

/-! ## What holds in every run -/

/-- What the server holds. -/
def TcpEventServer.Holds (s : TcpEventServer) : Obj → Prop
  | .eventBase => s.phase ≠ .destroyed
  | .listener => s.port ≠ -1 ∧ (s.phase = .dispatching ∨ s.phase = .breaking)
  | .socket n => n ∈ s.attached ∨ n ∈ s.orphaned
  | .bufferEvent n => n ∈ s.attached
  | .connection n => n ∈ s.attached

/-- What the server has not met yet. -/
def TcpEventServer.New (s : TcpEventServer) : Obj → Prop
  | .eventBase => False
  | .listener => s.phase = .created
  | .socket n => s.accepted ≤ n
  | .bufferEvent n => s.accepted ≤ n
  | .connection n => s.accepted ≤ n

/-- Where the server is, what is on its trace, and which of its connections have
    ended. -/
structure ServerInv (es : List Event) (s : TcpEventServer) : Prop where
  stock : Stock s.trace s.Holds s.New
  counted : s.accepted = accepts es
  below : ∀ n, n ∈ s.attached ∨ n ∈ s.orphaned → n < s.accepted
  apart : ∀ n ∈ s.attached, n ∉ s.orphaned
  nodup : s.attached.Nodup
  ended : ∀ n, Ended n es ↔ n < s.accepted ∧ ¬ (n ∈ s.attached ∨ n ∈ s.orphaned)
  deleted : ∀ n, .release (.connection n) ∈ s.trace ↔ Ended n es

section

variable {s s' : TcpEventServer} {es : List Event} {e : Event} {n : Nat}

theorem ended_snoc_of_ne (h : ∀ n events, e ≠ .bufferEvent n events) :
    Ended n (es ++ [e]) ↔ Ended n es := by
  constructor
  · rintro ⟨events, hmem, hcloses⟩
    rcases List.mem_append.mp hmem with hmem | hmem
    · exact ⟨events, hmem, hcloses⟩
    · exact absurd (List.mem_singleton.mp hmem).symm (h n events)
  · rintro ⟨events, hmem, hcloses⟩
    exact ⟨events, List.mem_append_left _ hmem, hcloses⟩

/-- A connection ends with the buffer event that closes it. -/
theorem ended_snoc {events : UInt16} {m : Nat} :
    Ended n (es ++ [.bufferEvent m events])
      ↔ Ended n es ∨ (n = m ∧ closes events = true) := by
  constructor
  · rintro ⟨events', hmem, hcloses⟩
    rcases List.mem_append.mp hmem with hmem | hmem
    · exact Or.inl ⟨events', hmem, hcloses⟩
    · cases List.mem_singleton.mp hmem
      exact Or.inr ⟨rfl, hcloses⟩
  · rintro (⟨events', hmem, hcloses⟩ | ⟨rfl, hcloses⟩)
    · exact ⟨events', List.mem_append_left _ hmem, hcloses⟩
    · exact ⟨events, List.mem_append_right _ List.mem_cons_self, hcloses⟩

theorem accepts_snoc_of_ne (h : ∀ bevNew, e ≠ .accept bevNew) :
    accepts (es ++ [e]) = accepts es := by
  rw [accepts, List.countP_append, List.countP_singleton]
  cases e <;> first | rfl | exact absurd rfl (h _)

/-- A step that neither accepts nor closes: only the stock has to be seen to. -/
theorem ServerInv.mono (h : ServerInv es s) (hacc : ∀ bevNew, e ≠ .accept bevNew)
    (hbev : ∀ n events, e ≠ .bufferEvent n events)
    (haccepted : s'.accepted = s.accepted) (hattached : s'.attached = s.attached)
    (horphaned : s'.orphaned = s.orphaned)
    (hdeleted : ∀ n, .release (.connection n) ∈ s'.trace ↔ .release (.connection n) ∈ s.trace)
    (hstock : Stock s'.trace s'.Holds s'.New) : ServerInv (es ++ [e]) s' := by
  refine ⟨hstock, ?_, ?_, ?_, ?_, ?_, ?_⟩
  · rw [haccepted, accepts_snoc_of_ne hacc, h.counted]
  · rw [haccepted, hattached, horphaned]
    exact h.below
  · rw [hattached, horphaned]
    exact h.apart
  · rw [hattached]
    exact h.nodup
  · intro n
    rw [ended_snoc_of_ne hbev, haccepted, hattached, horphaned]
    exact h.ended n
  · intro n
    rw [hdeleted, ended_snoc_of_ne hbev]
    exact h.deleted n

end

section

variable {s s' : TcpEventServer} {es : List Event} {e : Event} {n : Nat}

/-- `StartRun` takes the event base and the listener. -/
theorem ServerInv.startRun (h : ServerInv es s) (binds : Bool) (hphase : s.phase = .created) :
    ServerInv (es ++ [.startRun binds]) (s.startRun binds) := by
  have hbase : s.Holds .eventBase := by
    show s.phase ≠ .destroyed
    rw [hphase]
    exact fun hf => nomatch hf
  have hnew : s.New .listener := hphase
  refine h.mono (fun _ hf => nomatch hf) (fun _ _ hf => nomatch hf) ?_ ?_ ?_ ?_ ?_
  · rw [TcpEventServer.startRun]
    split_ifs <;> rfl
  · rw [TcpEventServer.startRun]
    split_ifs <;> rfl
  · rw [TcpEventServer.startRun]
    split_ifs <;> rfl
  · intro m
    rw [TcpEventServer.startRun]
    split_ifs <;> simp [TcpEventServer.note]
  · rw [TcpEventServer.startRun]
    -- the listener is taken, or cannot be bound, or there is no port
    split_ifs with hport hbinds
    · have hstock := (h.stock.use hbase).acquire hnew
      rw [List.append_assoc] at hstock
      refine hstock.congr ?_ ?_
      · intro o
        cases o <;> simp [TcpEventServer.Holds, TcpEventServer.note, hphase, hport]
      · intro o
        cases o <;> simp [TcpEventServer.New, TcpEventServer.note]
    · refine (h.stock.use hbase).congr ?_ ?_
      · intro o
        cases o <;> simp [TcpEventServer.Holds, TcpEventServer.note, hphase]
      · intro o
        cases o <;> simp [TcpEventServer.New, TcpEventServer.note]
    · refine h.stock.congr ?_ ?_
      · intro o
        cases o <;> simp_all [TcpEventServer.Holds]
      · intro o
        cases o <;> simp [TcpEventServer.New]

/-- A read or write callback uses a connection that is attached. -/
theorem ServerInv.callback (h : ServerInv es s) (he : e = .read n ∨ e = .write n)
    (hn : n ∈ s.attached) :
    ServerInv (es ++ [e]) (s.note [.use (.bufferEvent n), .use (.connection n)]) := by
  have hbev : s.Holds (.bufferEvent n) := hn
  have hconn : s.Holds (.connection n) := hn
  have hstock := (h.stock.use hbev).use hconn
  rw [List.append_assoc] at hstock
  refine h.mono ?_ ?_ rfl rfl rfl ?_ (hstock.congr (fun _ => Iff.rfl) (fun _ hr => hr))
  · rintro bevNew rfl
    rcases he with he | he <;> cases he
  · rintro m events rfl
    rcases he with he | he <;> cases he
  · intro m
    simp [TcpEventServer.note]

/-- The loop has ended, and the listener goes with it. -/
theorem ServerInv.loopExit (h : ServerInv es s)
    (hphase : s.phase = .dispatching ∨ s.phase = .breaking) :
    ServerInv (es ++ [.loopExit]) s.loopExit := by
  have hne : s.phase ≠ .destroyed := by
    rintro hf
    rcases hphase with hphase | hphase <;> cases hphase.symm.trans hf
  refine h.mono (fun _ hf => nomatch hf) (fun _ _ hf => nomatch hf) ?_ ?_ ?_ ?_ ?_
  · rw [TcpEventServer.loopExit]
    split_ifs <;> rfl
  · rw [TcpEventServer.loopExit]
    split_ifs <;> rfl
  · rw [TcpEventServer.loopExit]
    split_ifs <;> rfl
  · intro m
    rw [TcpEventServer.loopExit]
    split_ifs <;> simp [TcpEventServer.note]
  · rw [TcpEventServer.loopExit]
    -- the listener is there if a port was given
    split_ifs with hport
    · have hlisten : s.Holds .listener := ⟨hport, hphase⟩
      refine (h.stock.release hlisten).congr ?_ ?_
      · intro o
        cases o <;> simp [TcpEventServer.Holds, TcpEventServer.note, hne]
      · intro o
        cases o <;> simp [TcpEventServer.New, TcpEventServer.note]
    · refine h.stock.congr ?_ ?_
      · intro o
        cases o <;> simp_all [TcpEventServer.Holds]
      · intro o
        cases o <;> simp [TcpEventServer.New]

/-- The destructor gives back what the server still has. -/
theorem ServerInv.destroy (h : ServerInv es s)
    (hphase : s.phase = .created ∨ s.phase = .returned) :
    ServerInv (es ++ [.destroy]) s.destroy := by
  have hbase : s.Holds .eventBase := by
    rintro hf
    rcases hphase with hphase | hphase <;> cases hphase.symm.trans hf
  have hlisten : ¬ s.Holds .listener := by
    rintro ⟨-, hf | hf⟩
    · rcases hphase with hphase | hphase <;> cases hphase.symm.trans hf
    · rcases hphase with hphase | hphase <;> cases hphase.symm.trans hf
  have hstock := (h.stock.use hbase).release hbase
  rw [List.append_assoc] at hstock
  refine h.mono (fun _ hf => nomatch hf) (fun _ _ hf => nomatch hf) rfl rfl rfl ?_
    (hstock.congr ?_ ?_)
  · intro m
    simp [TcpEventServer.destroy, TcpEventServer.note]
  · intro o
    cases o with
    | eventBase => simp [TcpEventServer.Holds, TcpEventServer.destroy]
    | listener => simp_all [TcpEventServer.Holds, TcpEventServer.destroy, TcpEventServer.note]
    | socket n => simp [TcpEventServer.Holds, TcpEventServer.destroy, TcpEventServer.note]
    | bufferEvent n => simp [TcpEventServer.Holds, TcpEventServer.destroy, TcpEventServer.note]
    | connection n => simp [TcpEventServer.Holds, TcpEventServer.destroy, TcpEventServer.note]
  · intro o
    cases o <;> simp [TcpEventServer.New, TcpEventServer.destroy, TcpEventServer.note]

theorem bufferEvent_ne_accept (n : Nat) (events : UInt16) (bevNew : Bool) :
    Event.bufferEvent n events ≠ .accept bevNew := by
  rintro ⟨⟩

/-- A step that accepts: the next number comes into use, and no other. -/
theorem ServerInv.grow (h : ServerInv es s) {bevNew : Bool}
    (haccepted : s'.accepted = s.accepted + 1)
    (hused : ∀ m, m ∈ s'.attached ∨ m ∈ s'.orphaned
      ↔ m = s.accepted ∨ m ∈ s.attached ∨ m ∈ s.orphaned)
    (hapart : ∀ m ∈ s'.attached, m ∉ s'.orphaned) (hnodup : s'.attached.Nodup)
    (hdeleted : ∀ n, .release (.connection n) ∈ s'.trace ↔ .release (.connection n) ∈ s.trace)
    (hstock : Stock s'.trace s'.Holds s'.New) :
    ServerInv (es ++ [.accept bevNew]) s' := by
  have hended : ∀ m, Ended m (es ++ [.accept bevNew]) ↔ Ended m es :=
    fun _ => ended_snoc_of_ne (fun _ _ hf => nomatch hf)
  refine ⟨hstock, ?_, ?_, hapart, hnodup, ?_, ?_⟩
  · rw [haccepted, accepts, List.countP_append, h.counted]
    rfl
  · intro m hm
    rw [haccepted]
    rcases (hused m).mp hm with rfl | hm
    · exact Nat.lt_succ_self _
    · exact Nat.lt_succ_of_lt (h.below m hm)
  · intro m
    rw [hended, h.ended, hused, haccepted]
    constructor
    · rintro ⟨hlt, hnot⟩
      refine ⟨Nat.lt_succ_of_lt hlt, ?_⟩
      rintro (rfl | hm)
      · exact Nat.lt_irrefl _ hlt
      · exact hnot hm
    · rintro ⟨hlt, hnot⟩
      have hne : m ≠ s.accepted := fun hf => hnot (Or.inl hf)
      exact ⟨by omega, fun hm => hnot (Or.inr hm)⟩
  · intro m
    rw [hended, hdeleted, h.deleted]

/-- **ACCEPT**: the next number, with a `bufferevent` or without. -/
theorem ServerInv.accept (h : ServerInv es s) (bevNew : Bool)
    (hphase : s.phase = .dispatching) :
    ServerInv (es ++ [.accept bevNew]) (s.listenerEventCallback bevNew) := by
  have hbase : s.Holds .eventBase := by
    show s.phase ≠ .destroyed
    rw [hphase]
    exact fun hf => nomatch hf
  have hsocket : s.New (.socket s.accepted) := Nat.le_refl _
  have hstock := (h.stock.acquire hsocket).use (Or.inr hbase)
  -- the number of the new connection is not in use
  have hout : s.accepted ∉ s.attached ∧ s.accepted ∉ s.orphaned :=
    ⟨fun hf => Nat.lt_irrefl _ (h.below _ (Or.inl hf)),
      fun hf => Nat.lt_irrefl _ (h.below _ (Or.inr hf))⟩
  cases bevNew with
  | true =>
      have hbev : Obj.bufferEvent s.accepted ≠ .socket s.accepted := fun hf => nomatch hf
      have hconn : Obj.connection s.accepted ≠ .socket s.accepted := fun hf => nomatch hf
      have hconn' : Obj.connection s.accepted ≠ .bufferEvent s.accepted := fun hf => nomatch hf
      -- a `bufferevent` and a connection are made for the socket
      have hstock' := (((hstock.acquire ⟨hbev, Nat.le_refl _⟩).acquire
        ⟨hconn', hconn, Nat.le_refl _⟩).use (Or.inr (Or.inl rfl))).use (Or.inl rfl)
      simp only [List.append_assoc, List.cons_append, List.nil_append] at hstock'
      refine h.grow rfl ?_ ?_ (List.nodup_cons.mpr ⟨hout.1, h.nodup⟩) ?_ ?_
      · intro m
        show m ∈ s.accepted :: s.attached ∨ m ∈ s.orphaned ↔ _
        rw [List.mem_cons, or_assoc]
      · intro m hm
        rcases List.mem_cons.mp hm with rfl | hm
        · exact hout.2
        · exact h.apart m hm
      · intro m
        simp [TcpEventServer.listenerEventCallback, TcpEventServer.note]
      · simp only [TcpEventServer.listenerEventCallback, TcpEventServer.note, if_true,
          List.append_assoc, List.cons_append, List.nil_append]
        refine hstock'.congr ?_ ?_
        · intro o
          cases o <;> simp [TcpEventServer.Holds, or_assoc]
        · intro o
          cases o <;> simp [TcpEventServer.New] <;> omega
  | false =>
      -- without a `bufferevent` the loop is told to break, and the socket is left
      -- over
      have hstock' := hstock.use (Or.inr hbase)
      simp only [List.append_assoc, List.cons_append, List.nil_append] at hstock'
      refine h.grow rfl ?_ ?_ h.nodup ?_ ?_
      · intro m
        show m ∈ s.attached ∨ m ∈ s.accepted :: s.orphaned ↔ _
        rw [List.mem_cons, or_left_comm]
      · intro m hm hf
        rcases List.mem_cons.mp hf with rfl | hf
        · exact hout.1 hm
        · exact h.apart m hm hf
      · intro m
        simp [TcpEventServer.listenerEventCallback, TcpEventServer.note]
      · simp only [TcpEventServer.listenerEventCallback, TcpEventServer.note,
          Bool.false_eq_true, if_false, List.append_assoc, List.cons_append, List.nil_append]
        refine hstock'.congr ?_ ?_
        · intro o
          cases o <;> simp [TcpEventServer.Holds, hphase, or_left_comm]
        · intro o
          cases o <;> simp [TcpEventServer.New] <;> omega

/-- **CLOSE**: the three objects of a connection go. -/
theorem ServerInv.close (h : ServerInv es s) {events : UInt16} (hn : n ∈ s.attached)
    (hcloses : closes events = true) :
    ServerInv (es ++ [.bufferEvent n events]) (s.closeConnection n) := by
  have hbev : s.Holds (.bufferEvent n) := hn
  have hsocket : s.Holds (.socket n) := Or.inl hn
  have hconn : s.Holds (.connection n) := hn
  -- all connections but this one stay attached
  have hkeep : ∀ m, m ∈ s.attached.erase n ↔ m ≠ n ∧ m ∈ s.attached :=
    fun _ => h.nodup.mem_erase_iff
  have hne : Obj.socket n ≠ .bufferEvent n := fun hf => nomatch hf
  have hne₁ : Obj.connection n ≠ .socket n := fun hf => nomatch hf
  have hne₂ : Obj.connection n ≠ .bufferEvent n := fun hf => nomatch hf
  -- the flag to close the socket makes the `bufferevent` give it back
  have hstock := ((h.stock.release hbev).release ⟨hne, hsocket⟩).use ⟨hne₁, hne₂, hconn⟩
  have hstock' := hstock.release ⟨hne₁, hne₂, hconn⟩
  simp only [List.append_assoc, List.cons_append, List.nil_append] at hstock'
  refine ⟨?_, ?_, ?_, ?_, h.nodup.erase n, ?_, ?_⟩
  · refine hstock'.congr ?_ (fun _ hr => hr)
    intro o
    cases o with
    | eventBase => simp [TcpEventServer.Holds, TcpEventServer.closeConnection, TcpEventServer.note]
    | listener => simp [TcpEventServer.Holds, TcpEventServer.closeConnection, TcpEventServer.note]
    | socket m =>
        -- a socket that is left over is not this one
        have hapart := h.apart n hn
        simp only [TcpEventServer.Holds, TcpEventServer.closeConnection, TcpEventServer.note, hkeep]
        by_cases hm : m = n
        · subst hm
          simp [hapart]
        · simp [hm]
    | bufferEvent m =>
        simp [TcpEventServer.Holds, TcpEventServer.closeConnection, TcpEventServer.note, hkeep]
    | connection m =>
        simp [TcpEventServer.Holds, TcpEventServer.closeConnection, TcpEventServer.note, hkeep]
  · rw [accepts_snoc_of_ne (bufferEvent_ne_accept n events)]
    exact h.counted
  · rintro m (hm | hm)
    · exact h.below m (Or.inl (List.mem_of_mem_erase hm))
    · exact h.below m (Or.inr hm)
  · intro m hm
    exact h.apart m (List.mem_of_mem_erase hm)
  · intro m
    rw [ended_snoc, h.ended]
    show _ ↔ m < s.accepted ∧ ¬ (m ∈ s.attached.erase n ∨ m ∈ s.orphaned)
    rw [hkeep]
    by_cases hm : m = n
    · subst hm
      have hlt := h.below m (Or.inl hn)
      exact iff_of_true (Or.inr ⟨rfl, hcloses⟩)
        ⟨hlt, fun hf => hf.elim (fun hf => hf.1 rfl) (h.apart m hn)⟩
    · simp [hm]
  · intro m
    rw [ended_snoc, ← h.deleted]
    simp [TcpEventServer.closeConnection, TcpEventServer.note, hcloses]

/-- **ONE EVENT**, whichever it is. -/
theorem serverInv_step (hstep : Step s e s') (h : ServerInv es s) :
    ServerInv (es ++ [e]) s' := by
  cases e with
  | startRun binds =>
      obtain ⟨hphase, hs'⟩ := Option.ite_none_right_eq_some.mp hstep
      cases hs'
      exact h.startRun binds hphase
  | accept bevNew =>
      obtain ⟨⟨hphase, -⟩, hs'⟩ := Option.ite_none_right_eq_some.mp hstep
      cases hs'
      exact h.accept bevNew hphase
  | read n =>
      obtain ⟨⟨-, hn⟩, hs'⟩ := Option.ite_none_right_eq_some.mp hstep
      cases hs'
      exact h.callback (Or.inl rfl) hn
  | write n =>
      obtain ⟨⟨-, hn⟩, hs'⟩ := Option.ite_none_right_eq_some.mp hstep
      cases hs'
      exact h.callback (Or.inr rfl) hn
  | bufferEvent n events =>
      obtain ⟨⟨-, hn⟩, hs'⟩ := Option.ite_none_right_eq_some.mp hstep
      cases hs'
      rw [TcpEventServer.bufferEventCallback]
      by_cases hcloses : closes events = true
      · rw [if_pos hcloses]
        exact h.close hn hcloses
      · rw [if_neg hcloses]
        refine ⟨h.stock, ?_, h.below, h.apart, h.nodup, ?_, ?_⟩
        · rw [accepts_snoc_of_ne (bufferEvent_ne_accept n events)]
          exact h.counted
        · intro m
          rw [ended_snoc, or_iff_left (fun hf => hcloses hf.2)]
          exact h.ended m
        · intro m
          rw [ended_snoc, or_iff_left (fun hf => hcloses hf.2)]
          exact h.deleted m
  | quit =>
      obtain ⟨-, hs'⟩ := Option.ite_none_right_eq_some.mp hstep
      cases hs'
      exact h.mono (fun _ hf => nomatch hf) (fun _ _ hf => nomatch hf) rfl rfl rfl
        (fun _ => Iff.rfl) h.stock
  | loopExit =>
      obtain ⟨hphase, hs'⟩ := Option.ite_none_right_eq_some.mp hstep
      cases hs'
      exact h.loopExit hphase
  | destroy =>
      obtain ⟨hphase, hs'⟩ := Option.ite_none_right_eq_some.mp hstep
      cases hs'
      exact h.destroy hphase

/-- A server that was just constructed. -/
theorem serverInv_new (port : Int16) : ServerInv [] (TcpEventServer.new port) := by
  have hnil : Stock ([] : List (Op Obj)) (fun _ => False) (fun _ => True) :=
    ⟨.nil, fun r => iff_of_false (fresh_nil r).not_held not_false, fun r _ => fresh_nil r⟩
  have hbase := hnil.acquire (r := .eventBase) trivial
  have hnone : ∀ n, ¬ Ended n [] := by
    rintro n ⟨events, hmem, -⟩
    exact absurd hmem List.not_mem_nil
  refine ⟨hbase.congr ?_ ?_, rfl, ?_, ?_, List.nodup_nil, ?_, ?_⟩
  · intro o
    cases o <;> simp [TcpEventServer.Holds, TcpEventServer.new]
  · intro o
    cases o <;> simp [TcpEventServer.New, TcpEventServer.new]
  · rintro n (hn | hn) <;> exact absurd hn List.not_mem_nil
  · intro n hn
    exact absurd hn List.not_mem_nil
  · intro n
    exact iff_of_false (hnone n) (fun hf => Nat.not_lt_zero n hf.1)
  · intro n
    exact iff_of_false (by simp [TcpEventServer.new]) (hnone n)

/-- **EVERY RUN**, by its steps. -/
theorem serverInv_of_run {port : Int16} (hrun : Run Step (TcpEventServer.new port) es s) :
    ServerInv es s :=
  hrun.invariant_of ServerInv (serverInv_new port)
    (fun _ _ _ _ hinv _ hstep => serverInv_step hstep hinv)
    (fun _ _ _ _ => trivial : EveryEvent (fun _ _ => True) es)

end

/-- Two connections; the server quits while the second one is open. -/
def quitsEarly : List Event :=
  [.startRun true, .accept true, .read 0, .accept true, .bufferEvent 0 EventClient.BEV_EVENT_EOF,
    .read 1, .quit, .loopExit, .destroy]

end EventServer
