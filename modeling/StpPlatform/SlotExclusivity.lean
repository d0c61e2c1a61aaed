import StpPlatform.LabelledRun
import StpPlatform.StpServer

/-! # Who holds a slot

    A slot that was granted to one guid should stay that guid's until it
    expires.  The server keeps no record of the owner: the request names the
    slot, and a request without a token names slot `(0, 0)`.  So the slot is
    exclusive exactly as far as the clients respect each other's grants
    (`slot_exclusive`), and two clients without a token already do not
    (`tokenless_clients_share`). -/

namespace StpExclusivity

open LabelledRun Rpc StpIdx SysVShm StpDetail StpNegotiate StpInvariant
  StpContract StpServer

/-! ## The runs of the server -/

/-- One request, with the store around it and the answers it met. -/
structure Exchange where
  before : World
  env : CallEnv
  valid : Bool
  req : C2SStpCryptoNegotiate
  ans : Answer
  after : World

/-- The server handles one request. -/
def ServerStep (cfg : Config) (w : World) (x : Exchange) (w' : World) : Prop :=
  x.before = w ∧ x.after = w'
    ∧ handleProtocolStpCryptoNegotiate cfg x.env x.valid w x.req
      = .ok (x.ans, w')

/-- The request carries a guid other than `stpGuid`. -/
def Exchange.FromOther (x : Exchange) (stpGuid : UInt64) : Prop :=
  ∃ other, x.req.stpGuid? = some other ∧ other ≠ stpGuid

/-- Until the slot granted in `x` expires, the request `y` of another guid is
    not answered with it and does not change its key.  The slot is that of the
    group the grant names, and that of the group the call worked on; its key is
    in the memory an access to it leads to. -/
def Exclusive (x y : Exchange) : Prop :=
  ∀ stpGuid group idx expires,
    Grants x.req x.ans stpGuid group idx expires →
    y.FromOther stpGuid → y.env.now < expires →
    (∀ other group' idx' expires',
        Grants y.req y.ans other group' idx' expires' →
        (group', idx') ≠ (group, idx))
      ∧ ∀ k id i, k = group ∨ k = x.before.scn.curGroup →
        y.before.slotOf k idx = some (id, i) →
        (y.after.kern.mem id i).key = (y.before.kern.mem id i).key

/-- The request is not admitted, or the memory its token's index leads to in the
    current group is that of no slot that an earlier request of another guid was
    granted and that has not expired. -/
def Respects (pre : List Exchange) (y : Exchange) : Prop :=
  ∀ x ∈ pre, ∀ stpGuid group idx expires,
    Grants x.req x.ans stpGuid group idx expires →
    y.FromOther stpGuid → y.valid = true → y.env.now < expires →
    ∀ k loc, k = group ∨ k = x.before.scn.curGroup →
      y.before.slotOf k idx = some loc →
      y.before.slotOf y.before.scn.curGroup y.req.token.idx ≠ some loc

/-- The server's store stays in order, and it never moves on to another group. -/
theorem store_of_run {cfg : Config} {w₀ w : World} {xs : List Exchange}
    (hinv : StoreInv cfg w₀) (hrun : Run (ServerStep cfg) w₀ xs w) :
    StoreInv cfg w ∧ ∀ x ∈ xs, x.before.scn.curGroup = w.scn.curGroup := by
  induction hrun with
  | start => exact ⟨hinv, fun _ hx => absurd hx List.not_mem_nil⟩
  | @next xs t u y _ hstep ih =>
      obtain ⟨ht, hcur⟩ := ih
      obtain ⟨hbefore, -, hhandled⟩ := hstep
      have hsame := handler_curGroup ht hhandled
      refine ⟨storeInv_handler ht hhandled, ?_⟩
      intro x hx
      rcases List.mem_append.mp hx with hold | hnew
      · rw [hcur x hold, hsame]
      · rw [List.mem_singleton.mp hnew, hbefore, hsame]

/-- A request that respects the earlier grants leaves them alone. -/
theorem exclusive_step {cfg : Config} {w w' : World} {pre : List Exchange}
    {x y : Exchange} (hinv : StoreInv cfg w) (hx : x ∈ pre)
    (hcur : x.before.scn.curGroup = w.scn.curGroup)
    (hrespects : Respects pre y) (hstep : ServerStep cfg w y w') :
    Exclusive x y := by
  obtain ⟨hbefore, hafter, hstep⟩ := hstep
  subst hbefore
  subst hafter
  intro stpGuid group idx expires hgrants hother hlive
  refine ⟨?_, ?_⟩
  · -- a grant names its token's index, and has filled what that leads to
    rintro other group' idx' expires' hgrants' heq
    obtain ⟨hvalid, -, hidx', -⟩ := handler_grants hinv hstep hgrants'
    obtain ⟨loc, hloc⟩ := handler_grants_slot hinv hstep hgrants'
    have hsame : y.req.token.idx = idx :=
      hidx'.symm.trans (congrArg Prod.snd heq)
    refine hrespects x hx _ _ _ _ hgrants hother hvalid hlive _ loc
      (Or.inr rfl) ?_ hloc
    rw [hcur, ← hsame]
    exact hloc
  · -- and a request changes no item but the one its index leads to
    intro k id i hk hslot
    rw [handler_frame hinv hstep (fun hvalid =>
      hrespects x hx _ _ _ _ hgrants hother hvalid hlive k (id, i) hk hslot)]

/-- **SLOT EXCLUSIVITY**: in every run of the server whose requests respect the
    earlier grants, a granted slot stays with its guid until it expires. -/
theorem slot_exclusive {cfg : Config} {env : InitEnv} {kern : Kernel CryptoItem}
    {w₀ w : World} {xs : List Exchange}
    (hinit : init cfg env (World.start kern) = .ok (true, w₀))
    (hrun : Run (ServerStep cfg) w₀ xs w) (hcond : EveryEvent Respects xs) :
    xs.Pairwise Exclusive := by
  have hinv := (ready_of_init hinit).storeInv
  refine hrun.pairwise_of ?_ hcond
  intro pre t y u hpre hrespects hstep x hx
  obtain ⟨ht, hcur⟩ := store_of_run hinv hpre
  exact exclusive_step ht hx (hcur x hx) hrespects hstep

/-! ## Granted requests -/

/-- A store between requests whose current group is `cg`, the first one. -/
structure FirstGroupStore (cfg : Config) (cg : CryptoGroup) (w : World) :
    Prop where
  inv : StoreInv cfg w
  current : w.scn.curGroup = 0
  found : w.scn.shmMap.lookup 0 = some cg

/-- A request of `stpGuid`, granted in the store `w` with a slot of segment `id`. -/
def grantedRequest (cfg : Config) (cg : CryptoGroup) (id : Nat) (w : World)
    (stpGuid : UInt64) (token? : Option StpToken) (env : CallEnv) : Exchange :=
  let req : C2SStpCryptoNegotiate := { stpGuid? := some stpGuid, token? := token? }
  { before := w
    env := env
    valid := true
    req := req
    ans := .grant stpGuid (grantedArgs cfg env (requestArgs req))
    after := w.granted cfg env cg (requestArgs req) id }

/-- The first group grants every request that names an index below the bound. -/
theorem grantedRequest_step {cfg : Config} {cg : CryptoGroup} {id : Nat}
    {w : World} (h : FirstGroupStore cfg cg w) (hgroup : 0 < cfg.maxGroup)
    (haddr : cg.shmAddr = .seg id) (stpGuid : UInt64) (token? : Option StpToken)
    (env : CallEnv) (hg : 0 ≤ (token?.getD .empty).group)
    (h0 : 0 ≤ (token?.getD .empty).idx)
    (hi : (token?.getD .empty).idx < cfg.maxIdx) :
    let x := grantedRequest cfg cg id w stpGuid token? env
    ServerStep cfg w x x.after ∧ FirstGroupStore cfg cg x.after := by
  intro x
  have hcall : cryptoNegotiate cfg env w (requestArgs x.req) = _ :=
    renegotiation_granted h.inv (by rw [h.current]; exact h.found)
      (by rw [h.current]; exact hgroup) haddr hg h0 hi
  have hstep : ServerStep cfg w x x.after :=
    ⟨rfl, rfl, handler_of_grant rfl rfl hcall⟩
  have hagain : ¬ (requestArgs x.req).First := not_first_of_nonneg hg h0
  -- a token that names a slot takes no index from the set
  have hscn : x.after.scn = w.scn := by
    show (w.afterPop cg (requestArgs x.req)).scn = w.scn
    rw [afterPop_again cg hagain]
  refine ⟨hstep, storeInv_handler h.inv hstep.2.2, ?_, ?_⟩
  · rw [hscn, h.current]
  · rw [hscn, h.found]

/-- `quietCall` at another time. -/
def callAt (now : Int) : CallEnv := { quietCall with now := now, seed := now }

/-! ## Two slots, two clients -/

/-- A configuration of two slots a group. -/
def twoSlots : Config := { oneSlot with maxIdx := 2 }

/-- A group with both of them free. -/
def pairGroup : CryptoGroup :=
  { freshGroup with idxMgr := { maxIdx := 2, idxSet := {1, 0} } }

/-- The store `Init` makes of an empty kernel. -/
def pairWorld : World where
  scn := { shmMap := (∅ : ShmMap).insert 0 pairGroup
           curGroup := 0
           initialized := true }
  kern := ((blankKernel.create 100 128 .zeroed).rmid 0).create 100 128 .zeroed

theorem init_twoSlots :
    init twoSlots quietInit (World.start blankKernel) = .ok (true, pairWorld) :=
  rfl

/-- The token of slot `1` of the first group. -/
def secondToken : StpToken := { StpToken.empty with group? := some 0, idx? := some 1 }

/-- Guid `1` is granted a slot. -/
def firstHolds : Exchange :=
  grantedRequest twoSlots pairGroup 1 pairWorld 1 none (callAt 1000)

/-- Guid `2` is granted the other one. -/
def secondHolds : Exchange :=
  grantedRequest twoSlots pairGroup 1 firstHolds.after 2 (some secondToken)
    (callAt 1001)

/-- Guid `1` comes back for its slot while guid `2` holds the other one. -/
def firstRenews : Exchange :=
  grantedRequest twoSlots pairGroup 1 secondHolds.after 1 none (callAt 1002)

theorem run_twoHolders :
    ∃ w, Run (ServerStep twoSlots) pairWorld
      [firstHolds, secondHolds, firstRenews] w := by
  have hstart : FirstGroupStore twoSlots pairGroup pairWorld :=
    ⟨(ready_of_init init_twoSlots).storeInv, rfl, rfl⟩
  obtain ⟨h₁, hstore₁⟩ := grantedRequest_step hstart Int.one_pos rfl 1 none
    (callAt 1000) (by decide) (by decide) (by decide)
  obtain ⟨h₂, hstore₂⟩ := grantedRequest_step hstore₁ Int.one_pos rfl 2
    (some secondToken) (callAt 1001) (by decide) (by decide) (by decide)
  obtain ⟨h₃, -⟩ := grantedRequest_step hstore₂ Int.one_pos rfl 1 none
    (callAt 1002) (by decide) (by decide) (by decide)
  exact ⟨_, ((Run.start.next h₁).next h₂).next h₃⟩

/-- A request that leads to other memory than the slot granted in `x` respects it. -/
theorem respects_apart {x y : Exchange} {loc loc' : Nat × Int}
    (hgroup : x.ans.rsp.token.group = x.before.scn.curGroup)
    (hslot : y.before.slotOf x.before.scn.curGroup x.ans.rsp.token.idx = some loc)
    (hown : y.before.slotOf y.before.scn.curGroup y.req.token.idx = some loc')
    (hne : loc ≠ loc') : Respects [x] y := by
  intro x' hx' stpGuid group idx expires hgrants _ _ _ k loc₁ hk hloc₁
  rw [List.mem_singleton.mp hx'] at hgrants hk
  have hcur : k = x.before.scn.curGroup := by
    rcases hk with hk | hk
    · rw [hk, ← hgrants.group, hgroup]
    · exact hk
  rw [hcur, ← hgrants.idx, hslot] at hloc₁
  rw [hown, ← hloc₁]
  exact fun h => hne (Option.some.inj h).symm

theorem respects_twoHolders :
    EveryEvent Respects [firstHolds, secondHolds, firstRenews] := by
  have hsecond : Respects [firstHolds] secondHolds :=
    @respects_apart firstHolds secondHolds (1, 0) (1, 1) rfl rfl rfl (by decide)
  have hrenew : Respects [secondHolds] firstRenews :=
    @respects_apart secondHolds firstRenews (1, 1) (1, 0) rfl rfl rfl (by decide)
  refine @EveryEvent.snoc _ _ [_, _] _
    (@EveryEvent.snoc _ _ [_] _ (EveryEvent.nil.snoc ?_) hsecond) ?_
  · intro x hx
    exact absurd hx List.not_mem_nil
  · intro x hx stpGuid group idx expires hgrants hother
    rcases List.mem_cons.mp hx with hfirst | hlater
    · -- the first slot is its own
      obtain ⟨other, hreq, hne⟩ := hother
      rw [hfirst] at hgrants
      exact absurd (Option.some.inj (hreq.symm.trans hgrants.guid)) hne
    · exact hrenew x hlater _ _ _ _ hgrants hother

theorem slot_exclusive_twoSlots :
    [firstHolds, secondHolds, firstRenews].Pairwise Exclusive := by
  obtain ⟨w, hrun⟩ := run_twoHolders
  exact slot_exclusive init_twoSlots hrun respects_twoHolders

/-! ## Clients without a token -/

/-- Two requests of guids `1` and `2` without a token, one second apart. -/
def twoRequests : List Exchange :=
  let first := grantedRequest oneSlot freshGroup 1 freshWorld 1 none (callAt 1000)
  [first, grantedRequest oneSlot freshGroup 1 first.after 2 none (callAt 1001)]

theorem run_twoRequests :
    ∃ w, Run (ServerStep oneSlot) freshWorld twoRequests w := by
  have hstart : FirstGroupStore oneSlot freshGroup freshWorld :=
    ⟨ready_freshWorld.storeInv, rfl, rfl⟩
  obtain ⟨hfirst, hstore⟩ := grantedRequest_step hstart Int.one_pos rfl 1 none
    (callAt 1000) (by decide) (by decide) (by decide)
  obtain ⟨hsecond, -⟩ := grantedRequest_step hstore Int.one_pos rfl 2 none
    (callAt 1001) (by decide) (by decide) (by decide)
  exact ⟨_, (Run.start.next hfirst).next hsecond⟩

/-- **TWO CLIENTS WITHOUT A TOKEN GET THE SAME SLOT**, one second apart. -/
theorem tokenless_clients_share :
    (∃ w, Run (ServerStep oneSlot) freshWorld twoRequests w)
      ∧ ¬ twoRequests.Pairwise Exclusive := by
  refine ⟨run_twoRequests, ?_⟩
  intro hpair
  have hexcl := (List.pairwise_cons.mp hpair).1 _ List.mem_cons_self
  have hslot := (hexcl 1 0 0 1060 ⟨rfl, rfl, rfl, rfl, rfl⟩
    ⟨2, rfl, by decide⟩ (by decide)).1
  exact hslot 2 0 0 1061 ⟨rfl, rfl, rfl, rfl, rfl⟩ rfl

end StpExclusivity
