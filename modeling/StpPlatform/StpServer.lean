import StpPlatform.Rpc
import StpPlatform.NegotiateContracts

/-! # The server's handlers (`stpserver/stp_server`)

    A handler reads one request and answers it; `StpDao` is asked whether the
    guid is in the database and records every key that was handed out.  A reply
    takes far fewer than the 1024 bytes of `send_buf_`, so it is always sent.

    The handler passes the token's group and index on as they are, so a request
    without a token names group `0`, index `0`.  `HandlerEffect` reads off once
    what a request does to the store: whatever it does, it changes no item but
    the one that its token's index names in the current group (`handler_frame`),
    and a grant names exactly that index (`handler_grants`). -/

namespace StpServer

open Rpc SysVShm StpIdx StpDetail StpNegotiate StpInvariant StpContract

/-- What the handler passes to `StpDao::InsertCryptoStatus`. -/
structure CryptoStatus where
  stpGuid : UInt64
  group : Int
  idx : Int
  expires : Int
  key : List UInt8
  deriving DecidableEq

/-- What a negotiation handler leaves behind: the reply, and the key it asks to
    record. -/
structure Answer where
  rsp : S2CStpCryptoNegotiate
  status : Option CryptoStatus
  deriving DecidableEq

/-- A reply that carries only a result. -/
def Answer.refusal (res : StpResult) : Answer where
  rsp := { res? := some res, stpGuid? := none, token? := none }
  status := none

/-- The reply to a guid whose negotiation succeeded. -/
def Answer.grant (stpGuid : UInt64) (out : NegotiateArgs) : Answer :=
  let token := generateToken stpGuid out.group out.idx out.expires out.key
  { rsp := { res? := some .SR_OK
             stpGuid? := some stpGuid
             token? := some token }
    status := some { stpGuid := stpGuid
                     group := out.group
                     idx := out.idx
                     expires := token.expires
                     key := token.key } }

/-- `void StpServer::HandleProtocol_Ping(Connection*, rpc::C2S_Ping*)`. -/
def handleProtocolPing : S2C := .ping

/-- The parameters the handler makes of a request. -/
def requestArgs (req : C2SStpCryptoNegotiate) : NegotiateArgs where
  group := req.token.group
  idx := req.token.idx
  expires := req.token.expires
  key := []

/-- `void StpServer::HandleProtocol_StpCryptoNegotiate(Connection*,
    rpc::C2S_StpCryptoNegotiate*)`; `valid` is what `CheckStpGuidValid` answers
    for the request's guid. -/
def handleProtocolStpCryptoNegotiate (cfg : Config) (env : CallEnv)
    (valid : Bool) (w : World) (req : C2SStpCryptoNegotiate) :
    Except Halt (Answer × World) :=
  match req.stpGuid? with
  -- no guid, or one that is not in the database
  | none => .ok (.refusal .SR_InvalidGuid, w)
  | some stpGuid =>
      if !valid then .ok (.refusal .SR_InvalidGuid, w)
      else
        match cryptoNegotiate cfg env w (requestArgs req) with
        | .error e => .error e
        | .ok (true, out, w) => .ok (.grant stpGuid out, w)
        | .ok (false, _, w) => .ok (.refusal .SR_NegotiateFailed, w)

/-! ## What a request does -/

/-- **EVERYTHING A HANDLED REQUEST CAN DO**: be refused without a look at the
    store, or be answered with what the negotiation gave. -/
inductive HandlerEffect (cfg : Config) (env : CallEnv) (valid : Bool)
    (w : World) (req : C2SStpCryptoNegotiate) : Answer → World → Prop where
  | invalid (h : req.stpGuid? = none ∨ valid = false) :
      HandlerEffect cfg env valid w req (.refusal .SR_InvalidGuid) w
  | granted (stpGuid : UInt64) (out : NegotiateArgs) (w' : World)
      (hguid : req.stpGuid? = some stpGuid) (hvalid : valid = true)
      (hcall : cryptoNegotiate cfg env w (requestArgs req)
        = .ok (true, out, w')) :
      HandlerEffect cfg env valid w req (.grant stpGuid out) w'
  | failed (stpGuid : UInt64) (out : NegotiateArgs) (w' : World)
      (hguid : req.stpGuid? = some stpGuid) (hvalid : valid = true)
      (hcall : cryptoNegotiate cfg env w (requestArgs req)
        = .ok (false, out, w')) :
      HandlerEffect cfg env valid w req (.refusal .SR_NegotiateFailed) w'

section Handler

variable {cfg : Config} {env : CallEnv} {valid : Bool} {w w' : World}
  {req : C2SStpCryptoNegotiate} {ans : Answer}

theorem handler_effect
    (h : handleProtocolStpCryptoNegotiate cfg env valid w req = .ok (ans, w')) :
    HandlerEffect cfg env valid w req ans w' := by
  simp only [handleProtocolStpCryptoNegotiate] at h
  cases hg : req.stpGuid? with
  | none =>
      simp only [hg] at h
      cases h
      exact .invalid (Or.inl hg)
  | some stpGuid =>
      simp only [hg] at h
      cases valid with
      | false =>
          cases h
          exact .invalid (Or.inr rfl)
      | true =>
          simp only [Bool.not_true, Bool.false_eq_true, if_false] at h
          cases hc : cryptoNegotiate cfg env w (requestArgs req) with
          | error e =>
              rw [hc] at h
              cases h
          | ok r =>
              obtain ⟨ret, out, w₁⟩ := r
              rw [hc] at h
              cases ret with
              | true =>
                  cases h
                  exact .granted stpGuid out w' hg rfl hc
              | false =>
                  cases h
                  exact .failed stpGuid out w' hg rfl hc

/-- The handler keeps the store in order. -/
theorem storeInv_handler (hinv : StoreInv cfg w)
    (h : handleProtocolStpCryptoNegotiate cfg env valid w req = .ok (ans, w')) :
    StoreInv cfg w' := by
  cases handler_effect h with
  | invalid _ => exact hinv
  | granted _ _ _ _ _ hcall => exact storeInv_negotiate hinv hcall
  | failed _ _ _ _ _ hcall => exact storeInv_negotiate hinv hcall

theorem handler_curGroup (hinv : StoreInv cfg w)
    (h : handleProtocolStpCryptoNegotiate cfg env valid w req = .ok (ans, w')) :
    w'.scn.curGroup = w.scn.curGroup := by
  cases handler_effect h with
  | invalid _ => rfl
  | granted _ _ _ _ _ hcall => exact cryptoNegotiate_curGroup hinv hcall
  | failed _ _ _ _ _ hcall => exact cryptoNegotiate_curGroup hinv hcall

/-- **FRAME**: a request leaves every item alone but the one that its index names
    in the current group, and one with an invalid guid leaves all of them alone. -/
theorem handler_frame (hinv : StoreInv cfg w)
    (h : handleProtocolStpCryptoNegotiate cfg env valid w req = .ok (ans, w'))
    {id : Nat} {i : Int}
    (hi : valid = true → w.slotOf w.scn.curGroup req.token.idx ≠ some (id, i)) :
    w'.kern.mem id i = w.kern.mem id i := by
  obtain ⟨cg, hcg⟩ := hinv.current
  have hcur := hinv.currentGroup hcg
  have hwrites : ∀ ret out, valid = true →
      cryptoNegotiate cfg env w (requestArgs req) = .ok (ret, out, w') →
      w'.kern.mem id i = w.kern.mem id i := by
    intro ret out hvalid hcall
    by_contra hne
    obtain ⟨hidx, hplace⟩ := cryptoNegotiate_writes hcur hcall hne
    exact hi hvalid ((hcur.slotOf hidx).trans hplace)
  cases handler_effect h with
  | invalid _ => rfl
  | granted _ out _ _ hvalid hcall => exact hwrites _ _ hvalid hcall
  | failed _ out _ _ hvalid hcall => exact hwrites _ _ hvalid hcall

/-- A request whose negotiation succeeds is answered with the slot. -/
theorem handler_of_grant {stpGuid : UInt64} {out : NegotiateArgs}
    (hguid : req.stpGuid? = some stpGuid) (hvalid : valid = true)
    (hcall : cryptoNegotiate cfg env w (requestArgs req) = .ok (true, out, w')) :
    handleProtocolStpCryptoNegotiate cfg env valid w req
      = .ok (.grant stpGuid out, w') := by
  simp only [handleProtocolStpCryptoNegotiate, hguid, hvalid, hcall,
    Bool.not_true, Bool.false_eq_true, if_false]

/-- What a client was told when its request was granted. -/
structure Grants (req : C2SStpCryptoNegotiate) (ans : Answer)
    (stpGuid : UInt64) (group idx expires : Int) : Prop where
  guid : req.stpGuid? = some stpGuid
  res : ans.rsp.res = .SR_OK
  group : ans.rsp.token.group = group
  idx : ans.rsp.token.idx = idx
  expires : ans.rsp.token.expires = expires

/-- A grant names the group and the index of the request's token. -/
theorem handler_grants (hinv : StoreInv cfg w)
    (h : handleProtocolStpCryptoNegotiate cfg env valid w req = .ok (ans, w'))
    {stpGuid : UInt64} {group idx expires : Int}
    (hgrants : Grants req ans stpGuid group idx expires) :
    valid = true ∧ group = req.token.group ∧ idx = req.token.idx
      ∧ expires = env.now + cfg.tokenExpires := by
  obtain ⟨cg, hcg⟩ := hinv.current
  cases handler_effect h with
  | invalid _ => exact nomatch hgrants.res
  | failed _ _ _ _ _ _ => exact nomatch hgrants.res
  | granted _ out _ _ hvalid hcall =>
      cases cryptoNegotiate_effect (hinv.currentGroup hcg) hcall with
      | granted _ _ _ _ _ =>
          exact ⟨hvalid, hgrants.group.symm, hgrants.idx.symm,
            hgrants.expires.symm⟩

/-- A grant has filled the slot that the index of the token leads to. -/
theorem handler_grants_slot (hinv : StoreInv cfg w)
    (h : handleProtocolStpCryptoNegotiate cfg env valid w req = .ok (ans, w'))
    {stpGuid : UInt64} {group idx expires : Int}
    (hgrants : Grants req ans stpGuid group idx expires) :
    ∃ loc, w.slotOf w.scn.curGroup req.token.idx = some loc := by
  obtain ⟨cg, hcg⟩ := hinv.current
  have hcur := hinv.currentGroup hcg
  cases handler_effect h with
  | invalid _ => exact nomatch hgrants.res
  | failed _ _ _ _ _ _ => exact nomatch hgrants.res
  | granted _ out _ _ _ hcall =>
      cases cryptoNegotiate_effect hcur hcall with
      | granted loc _ _ hidx hplace =>
          exact ⟨loc, (hcur.slotOf hidx).trans hplace⟩

end Handler

end StpServer
