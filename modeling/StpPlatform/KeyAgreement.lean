import StpPlatform.RestartRecovery
import StpPlatform.StpServer
import StpPlatform.StpClient

/-! # One client, one server: do they agree on the key?

    A client and a server exchange whole messages over two FIFO queues.  The
    client's timers fire at any time, so several negotiations can be under way
    at once, each overwriting the server's slot; replies arrive later, some of
    them failures that wipe the client's item.

    What is kept in every interleaving is a fact about the future: once the
    client has handled every reply that is under way, its item — if in use — is
    the server's slot (`KeyInv.client`).  The item a client will have then is
    `settledItem`; a handled reply moves from the queue into the item and leaves
    it alone, and a request handled by the server decides it by its own reply.
    With nothing under way the item is settled (`key_agreement`). -/

namespace KeyAgreement

open LabelledRun Rpc SysVShm StpIdx StpDetail StpNegotiate StpInvariant
  StpContract StpRestart StpServer

/-! ## The network -/

/-- The two processes and the messages under way: on the wire, and delivered
    but not handled. -/
structure Net where
  server : World
  client : StpClient.Client
  c2s : List C2S
  serverInbox : List C2S
  s2c : List S2C
  clientInbox : List S2C

/-- The events of a session: timers, arrivals and handlers. -/
inductive NetEvent where
  | heartBeatTick
  | negotiateTick
  | deliverToServer
  | serverHandles
  | deliverToClient
  | clientHandles

/-- One step: a timer of the client fires, a message is delivered, or one of
    the processes handles the first message it has. -/
inductive NetStep (cfg : Config) (stpGuid : UInt64) :
    Net → NetEvent → Net → Prop where
  | heartBeatTick (n : Net) :
      NetStep cfg stpGuid n .heartBeatTick
        { n with c2s := n.c2s ++ [StpClient.timerHeartBeatCallback] }
  | negotiateTick (n : Net) :
      NetStep cfg stpGuid n .negotiateTick
        { n with c2s := n.c2s ++ [StpClient.cryptoNegotiateCallback stpGuid] }
  | deliverToServer (n : Net) (m : C2S) (rest : List C2S)
      (h : n.c2s = m :: rest) :
      NetStep cfg stpGuid n .deliverToServer
        { n with
          c2s := rest
          serverInbox := n.serverInbox ++ [m] }
  | serverPing (n : Net) (rest : List C2S) (h : n.serverInbox = .ping :: rest) :
      NetStep cfg stpGuid n .serverHandles
        { n with
          serverInbox := rest
          s2c := n.s2c ++ [handleProtocolPing] }
  | serverNegotiate (n : Net) (req : C2SStpCryptoNegotiate) (rest : List C2S)
      (env : CallEnv) (valid : Bool) (ans : Answer) (server : World)
      (h : n.serverInbox = .stpCryptoNegotiate req :: rest)
      (hcall : handleProtocolStpCryptoNegotiate cfg env valid n.server req
        = .ok (ans, server)) :
      NetStep cfg stpGuid n .serverHandles
        { n with
          server := server
          serverInbox := rest
          s2c := n.s2c ++ [.stpCryptoNegotiate ans.rsp] }
  | deliverToClient (n : Net) (m : S2C) (rest : List S2C)
      (h : n.s2c = m :: rest) :
      NetStep cfg stpGuid n .deliverToClient
        { n with
          s2c := rest
          clientInbox := n.clientInbox ++ [m] }
  | clientPing (n : Net) (rest : List S2C) (h : n.clientInbox = .ping :: rest) :
      NetStep cfg stpGuid n .clientHandles
        { n with
          client := StpClient.handleProtocolPing n.client
          clientInbox := rest }
  | clientNegotiate (n : Net) (rsp : S2CStpCryptoNegotiate) (rest : List S2C)
      (client : StpClient.Client)
      (h : n.clientInbox = .stpCryptoNegotiate rsp :: rest)
      (hcall : StpClient.handleProtocolCryptoNegotiate rsp n.client
        = .ok client) :
      NetStep cfg stpGuid n .clientHandles
        { n with
          client := client
          clientInbox := rest }

/-- No request and no reply is under way. -/
def Quiet (n : Net) : Prop :=
  n.c2s = [] ∧ n.serverInbox = [] ∧ n.s2c = [] ∧ n.clientInbox = []

/-- Both processes have just been started, each on shared memory without named
    segments, and nothing has been sent. -/
structure Started (cfg : Config) (n : Net) : Prop where
  server : ∃ (env : InitEnv) (kern : Kernel CryptoItem), kern.segs = []
    ∧ init cfg env (World.start kern) = .ok (true, n.server)
  client : ∃ (maxIdx key : Int) (junk : Junk) (kern : Kernel CryptoItem)
    (s : StpClient.Client) (attach create : ShmFaults), kern.segs = []
    ∧ StpClient.Client.new maxIdx key junk kern = .ok s
    ∧ s.init attach create = (true, n.client)
  quiet : Quiet n

/-! ## What agreement means -/

/-- The server's slot holds what the client's item says. -/
structure SameKey (item slot : CryptoItem) : Prop where
  group : slot.group = item.group
  idx : slot.idx = item.idx
  key : slot.key = item.key
  expires : slot.expires = item.expires
  useCrypto : slot.useCrypto = true

/-- If the item is in use, slot `item.idx` of the server's group `0` can be read
    and holds the same. -/
def Backed (w : World) (item : CryptoItem) : Prop :=
  item.useCrypto = true → ∃ cg p slot, w.scn.shmMap.lookup 0 = some cg
    ∧ cg.getCryptoItemByIdx item.idx = some p
    ∧ w.kern.load sizeofCryptoItem p.base p.idx = some slot
    ∧ SameKey item slot

/-- Client and server agree. -/
def Agree (n : Net) : Prop :=
  ∀ item, n.client.item = some item → Backed n.server item

/-! ## The invariant -/

/-- The negotiation replies among the messages to the client. -/
def repliesOf (ms : List S2C) : List S2CStpCryptoNegotiate :=
  ms.filterMap (fun m =>
    match m with
    | .ping => none
    | .stpCryptoNegotiate rsp => some rsp)

/-- Item `0` after one more reply. -/
def applyReply (item : CryptoItem) (rsp : S2CStpCryptoNegotiate) : CryptoItem :=
  StpClient.updatedItem rsp.res rsp.token item

/-- Item `0` once every reply under way is handled, when it is `item` now. -/
def settledItem (n : Net) (item : CryptoItem) : CryptoItem :=
  (repliesOf (n.clientInbox ++ n.s2c)).foldl applyReply item

/-- What holds in every interleaving. -/
structure KeyInv (cfg : Config) (n : Net) : Prop where
  store : StoreInv cfg n.server
  current : n.server.scn.curGroup = 0
  client : (0 ≤ n.client.cg.idxMgr.maxIdx ∧ n.client.cg.shmAddr = .failed)
    ∨ ∃ id, StpClient.Attached n.client id
      ∧ Backed n.server (settledItem n (n.client.kern.mem id 0))

theorem repliesOf_append (ms ms' : List S2C) :
    repliesOf (ms ++ ms') = repliesOf ms ++ repliesOf ms' :=
  List.filterMap_append ..

/-- A wiped item asks nothing of the server. -/
theorem backed_wiped (w : World) {res : StpResult} (hres : res ≠ .SR_OK)
    (token : StpToken) (item : CryptoItem) :
    Backed w (StpClient.updatedItem res token item) := by
  intro huse
  simp only [StpClient.updatedItem, if_pos hres] at huse
  cases huse

section Handle

variable {cfg : Config} {env : CallEnv} {w w' : World} {cg : CryptoGroup}
  {a : NegotiateArgs} {loc : Nat × Int}

/-- The current group after a grant still has its segment and its bound. -/
theorem granted_lookup (hcg : w.scn.shmMap.lookup w.scn.curGroup = some cg) :
    ∃ cg', (w.grantedAt cfg env cg a loc).scn.shmMap.lookup w.scn.curGroup = some cg'
      ∧ cg'.shmAddr = cg.shmAddr ∧ cg'.idxMgr.maxIdx = cg.idxMgr.maxIdx := by
  by_cases ha : a.First
  · exact ⟨popped cg, afterPop_lookup_cur cg ha, rfl, cg.idxMgr.popIdx_maxIdx⟩
  · refine ⟨cg, ?_, rfl, rfl⟩
    show (w.afterPop cg a).scn.shmMap.lookup _ = _
    rw [afterPop_again cg ha]
    exact hcg

/-- A grant leaves the negotiated item in its slot, wherever that lies. -/
theorem granted_load
    (hplace : w.kern.place sizeofCryptoItem cg.shmAddr a.idx = some loc) :
    (w.grantedAt cfg env cg a loc).kern.load sizeofCryptoItem cg.shmAddr a.idx
      = some (negotiatedItem cfg env a (w.kern.mem loc.1 loc.2)) := by
  have hplace' : (filledAt cfg env a w.kern loc).place sizeofCryptoItem cg.shmAddr
      a.idx = some loc := hplace
  exact (load_of_place hplace').trans
    (congrArg some (put_mem_same w.kern loc.1 loc.2 _))

/-- The token of a grant, stored by a client, is the negotiated item. -/
theorem sameKey_grant (stpGuid : UInt64) (item old : CryptoItem) :
    SameKey (applyReply item (Answer.grant stpGuid (grantedArgs cfg env a)).rsp)
      (negotiatedItem cfg env a old) := by
  refine ⟨rfl, rfl, ?_, rfl, rfl⟩
  exact (StpClient.strcpyKey_of_keyField
    (generateRandomKey_text (env.random env.seed) old)
    { item with group := a.group, idx := a.idx }).symm

/-- The key of a grant fits into the item of a client. -/
theorem fits_grant {s : StpClient.Client} {sid : Nat} {stpGuid : UInt64}
    (hs : StpClient.Attached s sid) :
    StpClient.Fits s sid (Answer.grant stpGuid (grantedArgs cfg env a)).rsp := by
  have hkey := generateRandomKey_text (env.random env.seed) .zeroed
  refine hs.fits ?_
  show (StpClient.cStr (keyText (env.random env.seed))).length ≤ 55
  rw [StpClient.cStr_of_keyField hkey, hkey.length]
  decide

/-- **THE REPLY DECIDES**: whatever the client's item was, after this reply it is
    wiped or it is the slot the server has just filled. -/
theorem backed_reply {valid : Bool} {req : C2SStpCryptoNegotiate} {ans : Answer}
    (hinv : StoreInv cfg w) (hcur : w.scn.curGroup = 0)
    (h : handleProtocolStpCryptoNegotiate cfg env valid w req = .ok (ans, w'))
    (item : CryptoItem) : Backed w' (applyReply item ans.rsp) := by
  obtain ⟨cg, hcg⟩ := hinv.current
  cases handler_effect h with
  | invalid _ => exact backed_wiped w (by decide) _ item
  | failed _ _ _ _ _ _ => exact backed_wiped w' (by decide) _ item
  | granted stpGuid out _ _ _ hcall =>
      cases cryptoNegotiate_effect (hinv.currentGroup hcg) hcall with
      | granted loc _ _ hidx hplace =>
          intro _
          obtain ⟨cg', hcg', haddr', hmax⟩ :=
            @granted_lookup cfg env w cg (requestArgs req) loc hcg
          have hidx' : Addressable cg' (requestArgs req).idx :=
            ⟨hidx.1, hmax ▸ hidx.2⟩
          have hslot : cg'.getCryptoItemByIdx (requestArgs req).idx
              = some ⟨cg.shmAddr, (requestArgs req).idx⟩ := by
            rw [hidx'.lookup, haddr']
          rw [hcur] at hcg'
          exact ⟨cg', _, _, hcg', hslot, granted_load hplace,
            sameKey_grant stpGuid item _⟩

end Handle

/-- **EVERY STEP KEEPS THE INVARIANT**. -/
theorem keyInv_step {cfg : Config} {stpGuid : UInt64} {n n' : Net} {e : NetEvent}
    (h : KeyInv cfg n) (hstep : NetStep cfg stpGuid n e n') : KeyInv cfg n' := by
  obtain ⟨hstore, hcur, hclient⟩ := h
  cases hstep with
  | heartBeatTick => exact ⟨hstore, hcur, hclient⟩
  | negotiateTick => exact ⟨hstore, hcur, hclient⟩
  | deliverToServer m rest hq => exact ⟨hstore, hcur, hclient⟩
  | serverPing rest hq =>
      refine ⟨hstore, hcur, hclient.imp_right ?_⟩
      rintro ⟨id, hatt, hbacked⟩
      refine ⟨id, hatt, ?_⟩
      simp only [settledItem, ← List.append_assoc, repliesOf_append] at hbacked ⊢
      simpa [repliesOf, handleProtocolPing] using hbacked
  | serverNegotiate req rest env valid ans server hq hcall =>
      refine ⟨storeInv_handler hstore hcall, ?_, hclient.imp_right ?_⟩
      · exact (handler_curGroup hstore hcall).trans hcur
      · rintro ⟨id, hatt, -⟩
        refine ⟨id, hatt, ?_⟩
        -- the new reply is the last one the client will handle
        show Backed server (List.foldl applyReply _
          (repliesOf (n.clientInbox ++ (n.s2c ++ [.stpCryptoNegotiate ans.rsp]))))
        rw [← List.append_assoc, repliesOf_append, List.foldl_append]
        exact backed_reply hstore hcur hcall _
  | deliverToClient m rest hq =>
      -- the replies under way stay the same, in the same order
      refine ⟨hstore, hcur, hclient.imp_right ?_⟩
      rintro ⟨id, hatt, hbacked⟩
      refine ⟨id, hatt, ?_⟩
      simpa [settledItem, hq] using hbacked
  | clientPing rest hq =>
      refine ⟨hstore, hcur, hclient.imp_right ?_⟩
      rintro ⟨id, hatt, hbacked⟩
      refine ⟨id, hatt, ?_⟩
      simpa [settledItem, hq, repliesOf, StpClient.handleProtocolPing]
        using hbacked
  | clientNegotiate rsp rest client hq hcall =>
      refine ⟨hstore, hcur, ?_⟩
      rcases hclient with ⟨hbound, haddr⟩ | ⟨id, hatt, hbacked⟩
      · rw [StpClient.handler_faults rsp hbound haddr] at hcall
        cases hcall
      · have heffect := StpClient.handler_effect hatt hcall
        subst heffect
        refine Or.inr ⟨id, hatt.put _, ?_⟩
        -- the reply moves from the queue into the item
        simp only [settledItem, put_mem_same, hq, List.cons_append] at hbacked ⊢
        exact hbacked

theorem keyInv_started {cfg : Config} {n : Net} (h : Started cfg n) :
    KeyInv cfg n := by
  obtain ⟨⟨env, kern, hblank, hinit⟩, ⟨maxIdx, key, junk, ckern, s, attach,
    create, hcblank, hnew, hcinit⟩, -, -, hs2c, hinbox⟩ := h
  obtain ⟨hkern, hbound⟩ := StpClient.new_ok hnew
  have hsegs : s.kern.segs = [] := by rw [hkern, hcblank]
  obtain ⟨hb, hcase⟩ := StpClient.init_of_blank hsegs hbound hcinit
  refine ⟨(ready_of_init hinit).storeInv, init_curGroup_of_blank hblank hinit, ?_⟩
  rcases hcase with haddr | ⟨id, hatt, hzero⟩
  · exact Or.inl ⟨hb, haddr⟩
  · refine Or.inr ⟨id, hatt, ?_⟩
    simp only [settledItem, hs2c, hinbox, hzero]
    intro huse
    cases huse

/-- **KEY AGREEMENT**: in every interleaving, whenever nothing is under way, a
    client item in use is the slot of the server that it names. -/
theorem key_agreement {cfg : Config} {stpGuid : UInt64} {n₀ n : Net}
    {es : List NetEvent} (hstart : Started cfg n₀)
    (hrun : Run (NetStep cfg stpGuid) n₀ es n) (hquiet : Quiet n) : Agree n := by
  have hinv : KeyInv cfg n :=
    hrun.invariant (KeyInv cfg) (keyInv_started hstart)
      (fun _ _ _ h hstep => keyInv_step h hstep)
  obtain ⟨-, -, hs2c, hinbox⟩ := hquiet
  intro item hitem
  rcases hinv.client with ⟨hbound, haddr⟩ | ⟨id, hatt, hbacked⟩
  · have hnone : n.client.item = none := by
      simp only [StpClient.Client.item]
      rw [getCryptoItemByIdx_eq_some (by omega), haddr]
      rfl
    rw [hnone] at hitem
    cases hitem
  · rw [hatt.item] at hitem
    cases hitem
    simp only [settledItem, hs2c, hinbox] at hbacked
    exact hbacked

/-- A server and a client with one slot each, just started. -/
def startedNet : Net where
  server := freshWorld
  client := { cg := freshGroup, kern := freshWorld.kern }
  c2s := []
  serverInbox := []
  s2c := []
  clientInbox := []

theorem started_oneSlot : Started oneSlot startedNet :=
  ⟨⟨quietInit, blankKernel, rfl, init_oneSlot⟩,
    ⟨1, 100, ⟨-1, .null⟩, blankKernel, _, .none, .none, rfl, rfl, rfl⟩,
    rfl, rfl, rfl, rfl⟩

/-- The request of a client configured with guid `9`. -/
def firstRequest : C2SStpCryptoNegotiate where
  stpGuid? := some 9
  token? := none

/-- The server after the first request. -/
def answeredWorld : World :=
  freshWorld.granted oneSlot quietCall freshGroup (requestArgs firstRequest) 1

/-- What it answers. -/
def firstAnswer : Answer :=
  .grant 9 (grantedArgs oneSlot quietCall (requestArgs firstRequest))

/-- Both sides after one negotiation. -/
def agreedNet : Net :=
  { startedNet with
    server := answeredWorld
    client :=
      { cg := freshGroup
        kern := freshWorld.kern.put 1 0
          (applyReply .zeroed firstAnswer.rsp) } }

theorem attached_startedNet : StpClient.Attached startedNet.client 1 :=
  ⟨by decide, rfl, by decide⟩

theorem answers_firstRequest :
    handleProtocolStpCryptoNegotiate oneSlot quietCall true freshWorld firstRequest
      = .ok (firstAnswer, answeredWorld) :=
  handler_of_grant rfl rfl (freshWorld_grants quietCall (Int.le_refl 0) rfl)

theorem stores_firstAnswer :
    StpClient.handleProtocolCryptoNegotiate firstAnswer.rsp startedNet.client
      = .ok agreedNet.client := by
  have hfits : StpClient.Fits startedNet.client 1 firstAnswer.rsp :=
    fits_grant attached_startedNet
  obtain ⟨s, hs⟩ := StpClient.handler_returns attached_startedNet hfits
  have heffect := StpClient.handler_effect attached_startedNet hs
  subst heffect
  exact hs

theorem run_agreedNet :
    Run (NetStep oneSlot 9) startedNet
      [.negotiateTick, .deliverToServer, .serverHandles, .deliverToClient,
        .clientHandles] agreedNet := by
  refine Run.cons (.negotiateTick _) ?_
  refine Run.cons (.deliverToServer _ _ [] rfl) ?_
  refine Run.cons (.serverNegotiate _ firstRequest [] quietCall true firstAnswer
    answeredWorld rfl answers_firstRequest) ?_
  refine Run.cons (.deliverToClient _ _ [] rfl) ?_
  refine Run.cons (.clientNegotiate _ firstAnswer.rsp [] agreedNet.client rfl
    stores_firstAnswer) ?_
  exact .start

/-- After one negotiation the key is in use, and the same on both sides. -/
theorem key_agreement_oneSlot :
    agreedNet.client.item = some (applyReply .zeroed firstAnswer.rsp)
      ∧ (applyReply .zeroed firstAnswer.rsp).useCrypto = true
      ∧ Agree agreedNet :=
  ⟨(attached_startedNet.put _).item, rfl,
    key_agreement started_oneSlot run_agreedNet ⟨rfl, rfl, rfl, rfl⟩⟩

end KeyAgreement
