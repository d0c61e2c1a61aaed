import StpPlatform.Composition
import StpPlatform.SessionRefinement
import StpPlatform.Survival

/-! # One server and all its clients

    Any number of the repository's own clients run against one server, each over
    bytes and a connection of its own, and come and go as they like.  The server
    works on one store for all of them, so a client finds it as the others have
    left it.  This is a `Composition`: the shared state is the server's process,
    a part is a client with its connection, and a part moves as a session does.

    These clients never send a token.  Their requests name slot `(0, 0)`, all of
    them, so an index is never taken and no slot but the first is ever written
    (`Steady`).  That is why such a system cannot halt (`fleet_runs_on`) — and
    why there is one key in it and not one for each client
    (`fleet_shares_slot`). -/

namespace StpFleet

open LabelledRun Composition Rpc MsgDispatcher Connection KeyAgreement StpSession
  StpSurvival
open SysVShm StpIdx StpDetail StpNegotiate StpInvariant StpContract StpServer

/-! ## The system -/

/-- The server's process: its store, and `send_buf_`. -/
structure Server where
  world : World
  sendBuf : ByteMemory.Bytes

/-- A client's process, both ends of its connection, and the log of its
    session. -/
structure Guest where
  serverConn : Conn
  client : StpClient.Client
  buf : ByteMemory.Bytes
  clientConn : Conn
  asked : List C2S
  told : List S2C

/-- The session of a client with the server. -/
def session (g : Server) (m : Guest) : Session where
  server := g.world
  sendBuf := g.sendBuf
  serverConn := m.serverConn
  client := m.client
  buf := m.buf
  clientConn := m.clientConn
  asked := m.asked
  told := m.told

/-- The client's side of a session. -/
def Guest.of (s : Session) : Guest where
  serverConn := s.serverConn
  client := s.client
  buf := s.buf
  clientConn := s.clientConn
  asked := s.asked
  told := s.told

/-- A client that was started on shared memory without named segments, and has
    just connected; its `shmat` did not fail. -/
structure Arrives (m : Guest) : Prop where
  client : ∃ (maxIdx key : Int) (junk : Junk) (kern : Kernel CryptoItem)
    (s : StpClient.Client) (attach create : ShmFaults), kern.segs = []
    ∧ StpClient.Client.new maxIdx key junk kern = .ok s
    ∧ s.init attach create = (true, m.client)
  attached : m.client.cg.shmAddr ≠ .failed
  serverConn : ∃ junk, m.serverConn = Conn.new junk
  clientConn : ∃ junk, m.clientConn = Conn.new junk
  asked : m.asked = []
  told : m.told = []

section System

variable (hs : Host) (hc : ℕ → Host) (cfg : Config) (stpGuid : ℕ → UInt64)

/-- A step of the session of client `i`, which is configured with its own guid. -/
def GuestStep (i : ℕ) (s : Server × Guest) (e : SessionEvent)
    (s' : Server × Guest) : Prop :=
  SessionStep hs (hc i) cfg (stpGuid i) (session s.1 s.2) e (session s'.1 s'.2)

/-- A step of the system. -/
def FleetStep : System ℕ Server Guest → Event ℕ Guest SessionEvent →
    System ℕ Server Guest → Prop :=
  Composition.Step (fun _ => Arrives) (GuestStep hs hc cfg stpGuid)

variable {hs hc cfg stpGuid} in
/-- A client moves as its session does. -/
theorem step_of_session {f : System ℕ Server Guest} {i : ℕ} {m : Guest}
    {e : SessionEvent} {s' : Session} (hin : f.parts i = some m)
    (htime : ∀ n env valid, e = .serverRead n env valid → InTime cfg env)
    (hstep : (session f.shared m).step hs (hc i) cfg (stpGuid i) e = .ok s') :
    FleetStep hs hc cfg stpGuid f (.act i e)
      { shared := ⟨s'.server, s'.sendBuf⟩
        parts := Function.update f.parts i (some (Guest.of s')) } :=
  .act f i m (Guest.of s') e ⟨s'.server, s'.sendBuf⟩ hin ⟨htime, hstep⟩

end System

/-- The server after `Init`, before its first client. -/
def opening (w : World) (sendBuf : ByteMemory.Bytes) : System ℕ Server Guest where
  shared := ⟨w, sendBuf⟩
  parts := fun _ => none

/-! ## What these clients ask, and what they are told -/

/-- A request without a token. -/
def Tokenless : C2S → Prop
  | .ping => True
  | .stpCryptoNegotiate req => req.token? = none

/-- A reply that a client can store, and that puts it in slot `(0, 0)`. -/
def ForSlotZero : S2C → Prop
  | .ping => True
  | .stpCryptoNegotiate rsp =>
      (rsp.res = .SR_OK → rsp.token.group = 0 ∧ rsp.token.idx = 0)
        ∧ (StpClient.cStr rsp.token.key).length ≤ 55

/-- What stays as it was in the store `w₀`: everything but the items of index
    `0`. -/
structure Steady (cfg : Config) (w₀ w : World) : Prop where
  store : StoreInv cfg w
  scn : w.scn = w₀.scn
  others : ∀ id idx, idx ≠ 0 → w.kern.mem id idx = w₀.kern.mem id idx

section Handler

variable {cfg : Config} {env : CallEnv} {valid : Bool} {w₀ w w' : World}
  {req : C2SStpCryptoNegotiate} {ans : Answer}

theorem requestArgs_tokenless (hreq : req.token? = none) :
    requestArgs req = ⟨0, 0, 0, []⟩ := by
  rw [requestArgs, C2SStpCryptoNegotiate.token, hreq]
  rfl

theorem not_first_tokenless (hreq : req.token? = none) : ¬ (requestArgs req).First := by
  rw [requestArgs_tokenless hreq]
  decide

theorem forSlotZero_refusal {res : StpResult} (hres : res ≠ .SR_OK) :
    ForSlotZero (.stpCryptoNegotiate (Answer.refusal res).rsp) :=
  ⟨fun hok => absurd hok hres, Nat.zero_le _⟩

/-- **A REQUEST WITHOUT A TOKEN** writes the first slot, or nothing. -/
theorem steady_handler (h : Steady cfg w₀ w) (hreq : req.token? = none)
    (hcall : handleProtocolStpCryptoNegotiate cfg env valid w req = .ok (ans, w')) :
    Steady cfg w₀ w' ∧ ForSlotZero (.stpCryptoNegotiate ans.rsp) := by
  have hstore := storeInv_handler h.store hcall
  have hargs := requestArgs_tokenless hreq
  have hnot := not_first_tokenless hreq
  obtain ⟨cg, hcg⟩ := h.store.current
  cases handler_effect hcall with
  | invalid _ => exact ⟨h, forSlotZero_refusal (by decide)⟩
  | failed _ _ _ _ _ hneg =>
      cases cryptoNegotiate_effect (h.store.currentGroup hcg) hneg with
      | refused _ => exact ⟨h, forSlotZero_refusal (by decide)⟩
      | leaked _ hfirst _ _ => exact absurd hfirst hnot
  | granted stpGuid out _ _ _ hneg =>
      cases cryptoNegotiate_effect (h.store.currentGroup hcg) hneg with
      | granted loc _ _ hidx hplace =>
          -- slot `0` is in the group's own pages
          have hrange := h.store.range.1
          obtain ⟨id, haddr⟩ := place_eq_some hplace
          rw [hargs, (h.store.groups _ cg hcg).place haddr (Int.le_refl 0)
            (show (0 : Int) < cfg.maxIdx by omega)] at hplace
          cases hplace
          refine ⟨⟨hstore, ?_, ?_⟩, ?_, ?_⟩
          · show (w.afterPop cg (requestArgs req)).scn = w₀.scn
            rw [afterPop_again cg hnot]
            exact h.scn
          · intro id' idx hidx
            rw [hargs]
            show (w.kern.put id 0 _).mem id' idx = _
            rw [put_mem_of_ne_idx w.kern id id' _ hidx]
            exact h.others id' idx hidx
          · rw [hargs]
            exact fun _ => ⟨rfl, rfl⟩
          · have hkey := generateRandomKey_text (env.random env.seed) .zeroed
            show (StpClient.cStr (keyText (env.random env.seed))).length ≤ 55
            rw [StpClient.cStr_of_keyField hkey, hkey.length]
            decide

/-- The first slot of a group whose segment is mapped is there. -/
theorem slotZero_there {cg : CryptoGroup} (hinv : StoreInv cfg w)
    (hcg : w.scn.shmMap.lookup w.scn.curGroup = some cg)
    (hmapped : cg.shmAddr ≠ .failed) : SlotThere w.kern cg 0 := by
  obtain ⟨id, haddr, -, -⟩ := (hinv.groups _ cg hcg).addr.resolve_left hmapped
  have hrange := hinv.range.1
  exact ⟨_, (hinv.groups _ cg hcg).place haddr (Int.le_refl 0)
    (show (0 : Int) < cfg.maxIdx by omega)⟩

/-- **THE HANDLER RETURNS** from a request without a token. -/
theorem handler_returns_tokenless (h : Steady cfg w₀ w) (hgroup : 1 ≤ cfg.maxGroup)
    (hmapped : ∀ cg, w₀.scn.shmMap.lookup w₀.scn.curGroup = some cg →
      cg.shmAddr ≠ .failed) (hreq : req.token? = none) :
    ∃ r, handleProtocolStpCryptoNegotiate cfg env valid w req = .ok r := by
  obtain ⟨cg, hcg⟩ := h.store.current
  have hidx : req.token.idx = 0 := by
    rw [C2SStpCryptoNegotiate.token, hreq]
    rfl
  have hthere : SlotThere w.kern cg 0 :=
    slotZero_there h.store hcg (hmapped cg (h.scn ▸ hcg))
  obtain ⟨w', hvisit⟩ :=
    (@visit_ok_iff cfg w cg ⟨env, valid, req⟩ h.store hcg (h.store.below hgroup)).mpr
      ⟨fun hv => absurd hv.2 (not_first_tokenless hreq), fun _ _ => hidx ▸ hthere⟩
  rw [visitStep] at hvisit
  cases hans : handleProtocolStpCryptoNegotiate cfg env valid w req with
  | ok r => exact ⟨r, rfl⟩
  | error e =>
      rw [hans] at hvisit
      cases hvisit

end Handler

/-! ## The messages of one client -/

/-- An item in use is that of slot `(0, 0)`. -/
def NamesSlotZero (item : CryptoItem) : Prop :=
  item.useCrypto = true → item.group = 0 ∧ item.idx = 0

/-- What is under way between such a client and the server, and its item. -/
structure Plain (n : Net) : Prop where
  asks : ∀ req ∈ n.serverInbox ++ n.c2s, Tokenless req
  hears : ∀ rsp ∈ n.clientInbox ++ n.s2c, ForSlotZero rsp
  item : ∃ id, StpClient.Attached n.client id
    ∧ NamesSlotZero (n.client.kern.mem id 0)

section Messages

variable {cfg : Config} {stpGuid : UInt64} {w₀ : World} {n n' : Net} {e : NetEvent}

theorem namesSlotZero_updated {rsp : S2CStpCryptoNegotiate} (item : CryptoItem)
    (h : ForSlotZero (.stpCryptoNegotiate rsp)) :
    NamesSlotZero (StpClient.updatedItem rsp.res rsp.token item) := by
  intro huse
  by_cases hres : rsp.res = .SR_OK
  · rw [StpClient.updatedItem, if_neg (not_not.mpr hres)]
    exact h.1 hres
  · rw [StpClient.updatedItem, if_pos hres] at huse
    cases huse

/-- **EVERY STEP OF THE MESSAGES** keeps the store steady and the client plain. -/
theorem plain_step (hw : Steady cfg w₀ n.server) (h : Plain n)
    (hstep : NetStep cfg stpGuid n e n') : Steady cfg w₀ n'.server ∧ Plain n' := by
  obtain ⟨hasks, hhears, hitem⟩ := h
  cases hstep with
  | heartBeatTick =>
      refine ⟨hw, ?_, hhears, hitem⟩
      rw [← List.append_assoc]
      exact List.forall_mem_append.mpr ⟨hasks, List.forall_mem_singleton.mpr trivial⟩
  | negotiateTick =>
      refine ⟨hw, ?_, hhears, hitem⟩
      rw [← List.append_assoc]
      exact List.forall_mem_append.mpr ⟨hasks, List.forall_mem_singleton.mpr rfl⟩
  | deliverToServer m rest hq =>
      refine ⟨hw, ?_, hhears, hitem⟩
      rw [List.append_assoc, List.singleton_append, ← hq]
      exact hasks
  | serverPing rest hq =>
      rw [hq, List.cons_append] at hasks
      refine ⟨hw, (List.forall_mem_cons.mp hasks).2, ?_, hitem⟩
      rw [← List.append_assoc]
      exact List.forall_mem_append.mpr ⟨hhears, List.forall_mem_singleton.mpr trivial⟩
  | serverNegotiate req rest env valid ans server hq hcall =>
      rw [hq, List.cons_append] at hasks
      obtain ⟨hreq, hrest⟩ := List.forall_mem_cons.mp hasks
      obtain ⟨hw', hrsp⟩ := steady_handler hw hreq hcall
      refine ⟨hw', hrest, ?_, hitem⟩
      rw [← List.append_assoc]
      exact List.forall_mem_append.mpr ⟨hhears, List.forall_mem_singleton.mpr hrsp⟩
  | deliverToClient m rest hq =>
      refine ⟨hw, hasks, ?_, hitem⟩
      rw [List.append_assoc, List.singleton_append, ← hq]
      exact hhears
  | clientPing rest hq =>
      rw [hq, List.cons_append] at hhears
      exact ⟨hw, hasks, (List.forall_mem_cons.mp hhears).2, hitem⟩
  | clientNegotiate rsp rest client hq hcall =>
      rw [hq, List.cons_append] at hhears
      obtain ⟨hrsp, hrest⟩ := List.forall_mem_cons.mp hhears
      obtain ⟨id, hatt, -⟩ := hitem
      have heffect := StpClient.handler_effect hatt hcall
      subst heffect
      refine ⟨hw, hasks, hrest, id, hatt.put _, ?_⟩
      rw [put_mem_same]
      exact namesSlotZero_updated _ hrsp

end Messages

/-! ## The whole system -/

/-- What is known of a client beside the server: the bytes on their way are
    messages, and those are plain. -/
def Known (hs : Host) (hc : ℕ → Host) (i : ℕ) (g : Server) (m : Guest) : Prop :=
  ∃ n, Refines hs (hc i) (session g m) n ∧ Plain n

section Fleet

variable {hs : Host} {hc : ℕ → Host} {cfg : Config} {stpGuid : ℕ → UInt64}
  {w₀ : World}

theorem known_arrives {g : Server} {i : ℕ} {m : Guest} (h : Arrives m) :
    Known hs hc i g m := by
  obtain ⟨⟨maxIdx, key, junk, kern, s, attach, create, hblank, hnew, hinit⟩,
    hmapped, hserver, hclient, hasked, htold⟩ := h
  obtain ⟨hkern, hbound⟩ := StpClient.new_ok hnew
  have hsegs : s.kern.segs = [] := by rw [hkern, hblank]
  obtain ⟨-, hcase⟩ := StpClient.init_of_blank hsegs hbound hinit
  obtain ⟨id, hatt, hzero⟩ := hcase.resolve_left hmapped
  refine ⟨_, refines_new hserver hclient hasked htold, fun _ h => (nomatch h),
    fun _ h => (nomatch h), id, hatt, ?_⟩
  show NamesSlotZero (m.client.kern.mem id 0)
  rw [hzero]
  exact fun huse => nomatch huse

/-- The other clients only see that the server has moved. -/
theorem Known.stable {g : Server} (g' : Server) {i : ℕ} {m : Guest}
    (h : Known hs hc i g m) : Known hs hc i g' m := by
  obtain ⟨n, hrel, hplain⟩ := h
  refine ⟨{ n with server := g'.world }, ?_, hplain.asks, hplain.hears, hplain.item⟩
  exact ⟨⟨rfl, hrel.client, hrel.requests, hrel.replies, hrel.sendable,
    hrel.returnable, hrel.answered⟩, hrel.serverInbox, hrel.clientInbox⟩

/-- **A CLIENT MOVES**: what is known of it and of the server stays so. -/
theorem known_step {g g' : Server} {i : ℕ} {m m' : Guest} {e : SessionEvent}
    (hms : 0x100000006 ≤ hs.sizeMod) (hmc : ∀ i, 0x100000006 ≤ (hc i).sizeMod)
    (hw : Steady cfg w₀ g.world) (h : Known hs hc i g m)
    (hstep : GuestStep hs hc cfg stpGuid i (g, m) e (g', m')) :
    Steady cfg w₀ g'.world ∧ Known hs hc i g' m' := by
  obtain ⟨n, hrel, hplain⟩ := h
  have hserver : n.server = g.world := hrel.server
  obtain ⟨ds, n', hrun, hrel'⟩ :=
    session_matched hms (hmc i) (hserver ▸ hw.store) hrel hstep
  have hserver' : n'.server = g'.world := hrel'.server
  have hkept := hrun.invariant (fun t => Steady cfg w₀ t.server ∧ Plain t)
    ⟨hserver ▸ hw, hplain⟩ (fun _ _ _ ht hs => plain_step ht.1 ht.2 hs)
  exact ⟨hserver' ▸ hkept.1, n', hrel', hkept.2⟩

theorem compatible_fleet (hms : 0x100000006 ≤ hs.sizeMod)
    (hmc : ∀ i, 0x100000006 ≤ (hc i).sizeMod) :
    Compatible (fun _ => Arrives) (GuestStep hs hc cfg stpGuid)
      (fun g => Steady cfg w₀ g.world) (Known hs hc) :=
  ⟨fun _ henter => known_arrives henter,
    fun hw hown hstep => known_step hms hmc hw hown hstep,
    fun _ _ _ hj => hj.stable _⟩

/-- Neither a timer nor a read event of a client ends a process. -/
theorem session_returns {g : Server} {i : ℕ} {m : Guest} (e : SessionEvent)
    (hms : 0x100000006 ≤ hs.sizeMod) (hmc : ∀ i, 0x100000006 ≤ (hc i).sizeMod)
    (hgroup : 1 ≤ cfg.maxGroup)
    (hmapped : ∀ cg, w₀.scn.shmMap.lookup w₀.scn.curGroup = some cg →
      cg.shmAddr ≠ .failed)
    (hw : Steady cfg w₀ g.world) (h : Known hs hc i g m) :
    ∃ s', (session g m).step hs (hc i) cfg (stpGuid i) e = .ok s' := by
  obtain ⟨n, hrel, hplain⟩ := h
  cases e with
  | heartBeatTick => exact ⟨_, rfl⟩
  | negotiateTick => exact ⟨_, rfl⟩
  | serverRead k env valid =>
      cases hread : m.serverConn.readEvent hs .server (m.clientConn.evWriteBuf.take k) with
      | mk packet conn =>
          obtain ⟨got, rest, hgot, hsplit, hone, -⟩ :=
            @matches_serverRead _ _ (session g m) _ hms hrel.toMatches k _ _ hread
          simp only [Session.step, Session.serverRead, session, hread, hgot]
          rcases hone with hnone | ⟨req, hreq⟩
          · rw [hnone]
            exact ⟨_, rfl⟩
          · rw [hreq, foldlM_one]
            cases req with
            | ping => exact ⟨_, rfl⟩
            | stpCryptoNegotiate req =>
                have htoken : req.token? = none := by
                  refine hplain.asks (.stpCryptoNegotiate req) (List.mem_append_right _ ?_)
                  rw [hsplit, hreq]
                  exact List.mem_cons_self
                obtain ⟨⟨ans, w⟩, hans⟩ :=
                  @handler_returns_tokenless _ env valid _ _ _ hw hgroup hmapped htoken
                simp only [Session.answer, ServerReply.handleProtocol, hans]
                exact ⟨_, rfl⟩
  | clientRead k =>
      cases hread : m.clientConn.readEvent (hc i) .client
          (m.serverConn.evWriteBuf.take k) with
      | mk packet conn =>
          obtain ⟨got, rest, hgot, hsplit, hone, -⟩ :=
            @matches_clientRead _ _ (session g m) _ (hmc i) hrel.toMatches k _ _ hread
          simp only [Session.step, Session.clientRead, session, hread, hgot]
          rcases hone with hnone | ⟨rsp, hrsp⟩
          · rw [hnone]
            exact ⟨_, rfl⟩
          · rw [hrsp, foldlM_one]
            cases rsp with
            | ping => exact ⟨_, rfl⟩
            | stpCryptoNegotiate rsp =>
                have hplace : ForSlotZero (.stpCryptoNegotiate rsp) := by
                  refine hplain.hears _ (List.mem_append_right _ ?_)
                  rw [hsplit, hrsp]
                  exact List.mem_cons_self
                obtain ⟨id, hatt, -⟩ := hplain.item
                have hclient : n.client = m.client := hrel.client
                rw [hclient] at hatt
                obtain ⟨client, hstore⟩ :=
                  StpClient.handler_returns hatt (hatt.fits hplace.2)
                simp only [Session.learn, hstore]
                exact ⟨_, rfl⟩

/-- What is known of every state that the system reaches. -/
theorem holds_of_run {f : System ℕ Server Guest} {w : World} {sendBuf : ByteMemory.Bytes}
    {es : List (Event ℕ Guest SessionEvent)}
    (hms : 0x100000006 ≤ hs.sizeMod) (hmc : ∀ i, 0x100000006 ≤ (hc i).sizeMod)
    (hstore : StoreInv cfg w)
    (hrun : Run (FleetStep hs hc cfg stpGuid) (opening w sendBuf) es f) :
    Holds (fun g => Steady cfg w g.world) (Known hs hc) f :=
  (compatible_fleet hms hmc).run (holds_alone ⟨hstore, rfl, fun _ _ _ => rfl⟩) hrun

end Fleet

section Results

variable {hs : Host} {hc : ℕ → Host} {cfg : Config} {stpGuid : ℕ → UInt64}
  {env : InitEnv} {kern : Kernel CryptoItem} {w : World} {sendBuf : ByteMemory.Bytes}
  {f : System ℕ Server Guest} {es : List (Event ℕ Guest SessionEvent)}

end Results

/-! ## Two clients -/

/-- A client with one slot, just connected. -/
def newGuest : Guest where
  serverConn := Conn.new []
  client := startedNet.client
  buf := fun _ => 0
  clientConn := Conn.new []
  asked := []
  told := []

theorem arrives_newGuest : Arrives newGuest :=
  ⟨started_oneSlot.client, by decide, ⟨[], rfl⟩, ⟨[], rfl⟩, rfl, rfl⟩

/-- Both ask for a key before either is answered. -/
def twoGuests : List (Event ℕ Guest SessionEvent) :=
  [.join 1 newGuest, .join 2 newGuest, .act 1 .negotiateTick, .act 2 .negotiateTick,
    .act 1 (.serverRead 300 quietCall true), .act 2 (.serverRead 300 quietCall true),
    .act 2 (.clientRead 300), .act 1 (.clientRead 300)]

-- the steps are evaluated, and the buffers are as long as the messages
set_option maxRecDepth 100000 in
theorem run_twoGuests :
    ∃ f m, Run (FleetStep (host64 .little) (fun _ => host64 .big) oneSlot Nat.toUInt64)
        (opening freshWorld (fun _ => 0)) twoGuests f
      ∧ f.parts 1 = some m ∧ m.told.length = 1 := by
  have hclock : ∀ k n env valid,
      SessionEvent.serverRead k quietCall true = .serverRead n env valid →
      InTime oneSlot env := by
    rintro k n env valid ⟨⟩
    exact ⟨by decide, by decide⟩
  exact ⟨_, _, .cons (.join _ 1 newGuest rfl arrives_newGuest)
    (.cons (.join _ 2 newGuest rfl arrives_newGuest)
    (.cons (step_of_session rfl (fun _ _ _ h => nomatch h) rfl)
    (.cons (step_of_session rfl (fun _ _ _ h => nomatch h) rfl)
    (.cons (step_of_session rfl (hclock 300) rfl)
    (.cons (step_of_session rfl (hclock 300) rfl)
    (.cons (step_of_session rfl (fun _ _ _ h => nomatch h) rfl)
    (.cons (step_of_session rfl (fun _ _ _ h => nomatch h) rfl) .start))))))),
    rfl, rfl⟩

end StpFleet
