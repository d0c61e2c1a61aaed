import StpPlatform.NegotiateContracts
import StpPlatform.RestartRecovery

/-! # What a negotiation store guarantees

    `NegotiateContracts` says which clauses of its contract `CryptoNegotiate`
    breaks; this file says what a caller may rely on all the same.

    * `store_ok_of_run` — over any sequence of calls after `Init` the map keeps
      its keys, its segments and its order (`StoreOk`), whatever is asked for.
    * `negotiation_posts` — a call that returns `true` has filled the slot it
      answers, with a fresh key of 32 characters, and no other slot
      (`Posted`). -/

namespace StpGuarantee

open LabelledRun StpIdx SysVShm StpDetail StpNegotiate StpInvariant
  StpContract StpRestart

/-! ## Sequences of calls -/

/-- A call of `CryptoNegotiate` that returned. -/
structure Call where
  env : CallEnv
  args : NegotiateArgs
  ret : Bool
  out : NegotiateArgs

/-- A call that returned. -/
def CallStep (cfg : Config) (w : World) (c : Call) (w' : World) : Prop :=
  cryptoNegotiate cfg c.env w c.args = .ok (c.ret, c.out, w')

/-- The store stays in order over any number of calls. -/
theorem storeInv_of_calls {cfg : Config} {w w' : World} {cs : List Call}
    (h : StoreInv cfg w) (hrun : Run (CallStep cfg) w cs w') :
    StoreInv cfg w' := by
  refine hrun.invariant (StoreInv cfg) h ?_
  intro t c u ht hstep
  exact storeInv_negotiate ht hstep

/-! ## The store -/

/-- The map of `w` has the keys of `w₀`, with the same segments. -/
def SameSegments (w₀ w : World) : Prop :=
  ∀ k, (w.scn.shmMap.lookup k).map CryptoGroup.shmAddr
    = (w₀.scn.shmMap.lookup k).map CryptoGroup.shmAddr

theorem SameSegments.trans {w₁ w₂ w₃ : World} (h₁ : SameSegments w₁ w₂)
    (h₂ : SameSegments w₂ w₃) : SameSegments w₁ w₃ :=
  fun k => (h₂ k).trans (h₁ k)

/-- Popping an index keeps the current group's entry and its segment. -/
theorem sameSegments_afterPop {w : World} {cg : CryptoGroup} (a : NegotiateArgs)
    (hcg : w.scn.shmMap.lookup w.scn.curGroup = some cg) :
    SameSegments w (w.afterPop cg a) := by
  intro k
  by_cases ha : a.First
  · rw [afterPop_first cg ha]
    show (Finmap.lookup k (w.scn.shmMap.insert w.scn.curGroup _)).map _ = _
    by_cases hk : k = w.scn.curGroup
    · subst hk
      rw [Finmap.lookup_insert, hcg]
      rfl
    · rw [Finmap.lookup_insert_of_ne _ hk]
  · rw [afterPop_again cg ha]

/-- **NO CALL ENTERS OR MOVES A GROUP**. -/
theorem sameSegments_negotiate {cfg : Config} {env : CallEnv} {w w' : World}
    {a out : NegotiateArgs} {ret : Bool} (h : StoreInv cfg w)
    (hcall : cryptoNegotiate cfg env w a = .ok (ret, out, w')) :
    SameSegments w w' := by
  obtain ⟨cg, hcg⟩ := h.current
  cases cryptoNegotiate_effect (h.currentGroup hcg) hcall with
  | refused _ => exact fun _ => rfl
  | leaked _ _ _ _ => exact sameSegments_afterPop a hcg
  | granted loc _ _ _ _ => exact sameSegments_afterPop a hcg

/-- **NO GROUP COMES OR GOES** in a run of calls that return. -/
theorem sameSegments_of_calls {cfg : Config} {w w' : World} {cs : List Call}
    (h : StoreInv cfg w) (hrun : Run (CallStep cfg) w cs w') :
    SameSegments w w' := by
  have hboth : StoreInv cfg w' ∧ SameSegments w w' := by
    refine hrun.invariant (fun t => StoreInv cfg t ∧ SameSegments w t) ?_ ?_
    · exact ⟨h, fun _ => rfl⟩
    · rintro t c u ⟨hinv, hsame⟩ hstep
      exact ⟨storeInv_negotiate hinv hstep,
        hsame.trans (sameSegments_negotiate hinv hstep)⟩
  exact hboth.2

/-- The store `w` is in order and is the one that `Init` left as `w₀`. -/
structure StoreOk (cfg : Config) (w₀ w : World) : Prop where
  current : w.scn.curGroup ∈ w.scn.shmMap
  largest : ∀ k ∈ w.scn.shmMap, k ≤ w.scn.curGroup
  range : 0 ≤ w.scn.curGroup ∧ w.scn.curGroup < cfg.maxGroup
  number : ∀ k cg, w.scn.shmMap.lookup k = some cg → cg.group = k
  free : ∀ k cg, w.scn.shmMap.lookup k = some cg →
    ∀ i ∈ cg.idxMgr.idxSet, 0 ≤ i ∧ i < cfg.maxIdx
  keys : ∀ k, k ∈ w.scn.shmMap ↔ k ∈ w₀.scn.shmMap
  segments : ∀ k cg cg₀, w.scn.shmMap.lookup k = some cg →
    w₀.scn.shmMap.lookup k = some cg₀ → cg.shmAddr = cg₀.shmAddr

theorem SameSegments.keys {w₀ w : World} (h : SameSegments w₀ w) (k : Int) :
    k ∈ w.scn.shmMap ↔ k ∈ w₀.scn.shmMap := by
  have hsome := congrArg Option.isSome (h k)
  rw [Option.isSome_map, Option.isSome_map] at hsome
  rw [← Finmap.lookup_isSome, ← Finmap.lookup_isSome, hsome]

theorem SameSegments.addr {w₀ w : World} (h : SameSegments w₀ w) {k : Int}
    {cg cg₀ : CryptoGroup} (hcg : w.scn.shmMap.lookup k = some cg)
    (hcg₀ : w₀.scn.shmMap.lookup k = some cg₀) : cg.shmAddr = cg₀.shmAddr := by
  have hk := h k
  rw [hcg, hcg₀] at hk
  exact Option.some.inj hk

/-- `StoreOk` is what the invariant says, next to where the segments are from. -/
theorem storeOk_of_storeInv {cfg : Config} {w₀ w : World}
    (hmax : 1 ≤ cfg.maxGroup) (h : StoreInv cfg w) (hsame : SameSegments w₀ w) :
    StoreOk cfg w₀ w := by
  obtain ⟨cur, hcur⟩ := h.current
  refine ⟨Finmap.mem_iff.mpr ⟨cur, hcur⟩, ?_, ⟨(h.keys _ _ hcur).1, h.below hmax⟩,
    fun k cg hcg => (h.groups k cg hcg).number, ?_, hsame.keys,
    fun k cg cg₀ hcg hcg₀ => hsame.addr hcg hcg₀⟩
  · intro k hk
    obtain ⟨cg, hcg⟩ := Finmap.mem_iff.mp hk
    exact (h.keys k cg hcg).2
  · intro k cg hcg i hi
    have hgrp := h.groups k cg hcg
    have hbound := hgrp.bound
    have hin := hgrp.free i hi
    omega

/-- A process whose `Init` returned `true` has an initialised store. -/
theorem init_initialized {cfg : Config} {env : InitEnv} {w w' : World}
    (h : init cfg env w = .ok (true, w')) : w'.scn.initialized = true := by
  cases hw : w.scn.initialized with
  | true =>
      rw [init, if_pos hw] at h
      cases h
      exact hw
  | false =>
      obtain ⟨w₁, -, ⟨-, -, hw'⟩ | ⟨-, cg, -, ⟨hret, -⟩ | ⟨-, id, k, -, -, hw'⟩⟩⟩ :=
        init_cases h hw
      · rw [hw']
      · cases hret
      · rw [hw']

/-- A store is ready after `Init`, whatever was tried before. -/
theorem ready_of_reachable_init {cfg : Config} {env : InitEnv} {w w' : World}
    (hw : Reachable cfg w) (h : init cfg env w = .ok (true, w')) :
    Ready cfg w' :=
  ⟨hw.step (e := .init env true) h, init_initialized h⟩

/-- **THE STORE STAYS IN ORDER** after `Init`, over any sequence of calls. -/
theorem store_ok_of_run {cfg : Config} {env : InitEnv} {w w₀ w' : World}
    {cs : List Call} (hmax : 1 ≤ cfg.maxGroup) (hw : Reachable cfg w)
    (hinit : init cfg env w = .ok (true, w₀))
    (hrun : Run (CallStep cfg) w₀ cs w') : StoreOk cfg w₀ w' := by
  have hinv := (ready_of_reachable_init hw hinit).storeInv
  exact storeOk_of_storeInv hmax (storeInv_of_calls hinv hrun)
    (sameSegments_of_calls hinv hrun)

/-- A first negotiation, then slot `0` by its number. -/
def twoCalls : List Call :=
  [{ env := quietCall, args := firstCall, ret := false, out := firstCall },
    { env := quietCall
      args := { firstCall with group := 0, idx := 0 }
      ret := true
      out := grantedArgs oneSlot quietCall { firstCall with group := 0, idx := 0 } }]

/-- The store after the two calls. -/
def twoCallsWorld : World :=
  exhaustedWorld.granted oneSlot quietCall (popped freshGroup)
    { firstCall with group := 0, idx := 0 } 1

/-- The request that names slot `(0, 0)` is granted although no index is left. -/
theorem negotiate_exhaustedWorld :
    cryptoNegotiate oneSlot quietCall exhaustedWorld
        { firstCall with group := 0, idx := 0 }
      = .ok (true,
          grantedArgs oneSlot quietCall { firstCall with group := 0, idx := 0 },
          twoCallsWorld) :=
  renegotiation_granted ready_exhaustedWorld.storeInv
    (show _ = some (popped freshGroup) from rfl) (by decide) rfl (by decide)
    (by decide) (by decide)

theorem run_twoCalls : Run (CallStep oneSlot) freshWorld twoCalls twoCallsWorld :=
  (Run.start.next negotiate_freshWorld).next negotiate_exhaustedWorld

/-- Both of them keep the store. -/
theorem store_ok_twoCalls : StoreOk oneSlot freshWorld twoCallsWorld :=
  store_ok_of_run (by decide) (reachable_start oneSlot blankKernel) init_oneSlot
    run_twoCalls

/-! ## A call that succeeds -/

/-- Every group of the store has a segment of its own. -/
def Apart (w : World) : Prop :=
  (∀ k cg, w.scn.shmMap.lookup k = some cg → ∃ id, cg.shmAddr = .seg id)
    ∧ ∀ j k cg cg', w.scn.shmMap.lookup j = some cg →
        w.scn.shmMap.lookup k = some cg' → cg.shmAddr = cg'.shmAddr → j = k

/-- `[0-9a-zA-Z]`. -/
def Alnum (c : UInt8) : Prop :=
  (48 ≤ c ∧ c ≤ 57) ∨ (65 ≤ c ∧ c ≤ 90) ∨ (97 ≤ c ∧ c ≤ 122)

/-- A character is in one of three ranges. -/
instance (c : UInt8) : Decidable (Alnum c) := inferInstanceAs (Decidable (_ ∨ _))

/-- All characters of `key_tab` are letters and digits. -/
theorem alnum_of_keyTab : ∀ c ∈ keyTab, Alnum c := by
  have hall : keyTab.all (fun c => decide (Alnum c)) = true := rfl
  intro c hc
  exact of_decide_eq_true (List.all_eq_true.mp hall c hc)

/-- The item is the one the call answered with: `key` is the text returned, 32
    characters, and the four bytes behind it are zero. -/
structure ItemPosted (cfg : Config) (env : CallEnv) (out : NegotiateArgs)
    (item : CryptoItem) : Prop where
  group : item.group = out.group
  idx : item.idx = out.idx
  useCrypto : item.useCrypto = true
  expires : item.expires = out.expires ∧ out.expires = env.now + cfg.tokenExpires
  key : item.key.toList = out.key ++ List.replicate 4 0
  length : out.key.length = 32
  chars : ∀ c ∈ out.key, Alnum c

/-- Slot `out.idx` of the current group holds what the call answered, inside
    the segment, and no other slot of any group has changed. -/
def Posted (cfg : Config) (env : CallEnv) (out : NegotiateArgs) (w w' : World) :
    Prop :=
  ∃ cg id, w.scn.shmMap.lookup w.scn.curGroup = some cg ∧ cg.shmAddr = .seg id
    ∧ (out.idx + 1) * (sizeofCryptoItem : Int) ≤ segmentSize cfg
    ∧ ItemPosted cfg env out (w'.kern.mem id out.idx)
    ∧ ∀ k cg' id' i, w.scn.shmMap.lookup k = some cg' → cg'.shmAddr = .seg id' →
        (k, i) ≠ (w.scn.curGroup, out.idx) →
        w'.kern.mem id' i = w.kern.mem id' i

/-- The item that is written is the one to be posted. -/
theorem negotiatedItem_posted (cfg : Config) (env : CallEnv) (a : NegotiateArgs)
    (old : CryptoItem) :
    ItemPosted cfg env (grantedArgs cfg env a) (negotiatedItem cfg env a old) := by
  have hkey := generateRandomKey_text (env.random env.seed)
    { old with
      group := a.group
      idx := a.idx
      useCrypto := true
      expires := env.now + cfg.tokenExpires }
  exact ⟨rfl, rfl, rfl, ⟨rfl, rfl⟩, hkey.bytes, hkey.length,
    fun c hc => alnum_of_keyTab c (hkey.chars c hc)⟩

/-- A call that succeeds answers the parameters it was given, with the expiry and
    the key of the slot. -/
theorem negotiate_out {cfg : Config} {env : CallEnv} {w w' : World}
    {a out : NegotiateArgs} (hw : Reachable cfg w)
    (hcall : cryptoNegotiate cfg env w a = .ok (true, out, w')) :
    out = grantedArgs cfg env a := by
  have hinv := worldInv_of_reachable hw
  cases hi : w.scn.initialized with
  | false =>
      -- before `Init` no call succeeds
      obtain ⟨hret, -⟩ := cryptoNegotiate_blank (hinv.blank hi).1 hcall
      cases hret
  | true =>
      have hstore := hinv.ready hi
      obtain ⟨cg, hcg⟩ := hstore.current
      cases cryptoNegotiate_effect (hstore.currentGroup hcg) hcall with
      | granted loc _ _ _ _ => rfl

/-- In a store whose segments are apart, the slots of other groups and the
    other slots of this one are out of reach. -/
theorem granted_frame {cfg : Config} {env : CallEnv} {w : World}
    {cg : CryptoGroup} {a : NegotiateArgs} {id : Nat} (hapart : Apart w)
    (hcg : w.scn.shmMap.lookup w.scn.curGroup = some cg)
    (haddr : cg.shmAddr = .seg id) {k : Int} {cg' : CryptoGroup} {id' : Nat}
    {i : Int} (hk : w.scn.shmMap.lookup k = some cg')
    (hid' : cg'.shmAddr = .seg id') (hne : (k, i) ≠ (w.scn.curGroup, a.idx)) :
    (w.granted cfg env cg a id).kern.mem id' i = w.kern.mem id' i := by
  by_cases hcur : k = w.scn.curGroup
  · have hi : i ≠ a.idx := fun hi => hne (by rw [hcur, hi])
    exact put_mem_of_ne_idx w.kern id id' _ hi
  · refine granted_mem env a ?_ i
    intro hid
    -- two groups with one segment are one group
    exact hcur (hapart.2 k w.scn.curGroup cg' cg hk hcg
      (by rw [hid', haddr, hid]))

/-- **WHAT A GRANT MEANS**: the slot answered is filled, and nothing else. -/
theorem negotiation_posts {cfg : Config} {env : CallEnv} {w w' : World}
    {a out : NegotiateArgs} (hw : Ready cfg w) (hapart : Apart w)
    (hcall : cryptoNegotiate cfg env w a = .ok (true, out, w'))
    (h0 : 0 ≤ out.idx) (hi : out.idx < cfg.maxIdx) :
    Posted cfg env out w w' := by
  have hinv := hw.storeInv
  obtain ⟨cg, hcg⟩ := hinv.current
  have hsize := segmentSize_cast hinv.range.1
  cases cryptoNegotiate_effect (hinv.currentGroup hcg) hcall with
  | granted loc _ _ hidx hplace =>
      -- an index below the bound is in the group's own pages
      obtain ⟨id, haddr⟩ := place_eq_some hplace
      have hi' : a.idx < cfg.maxIdx := hi
      have h0' : 0 ≤ a.idx := h0
      rw [(hinv.groups _ cg hcg).place haddr h0' hi'] at hplace
      cases hplace
      show Posted cfg env _ w (w.granted cfg env cg a id)
      refine ⟨cg, id, hcg, haddr, ?_, ?_, ?_⟩
      · show (a.idx + 1) * 64 ≤ (segmentSize cfg : Int)
        omega
      · rw [show (w.granted cfg env cg a id).kern.mem id
          (grantedArgs cfg env a).idx
            = negotiatedItem cfg env a (w.kern.mem id a.idx) from
          put_mem_same w.kern id a.idx _]
        exact negotiatedItem_posted cfg env a _
      · intro k cg' id' i hk hid' hne
        exact granted_frame hapart hcg haddr hk hid' hne

/-- One group is apart from itself. -/
theorem apart_freshWorld : Apart freshWorld := by
  have hone : ∀ k cg, freshWorld.scn.shmMap.lookup k = some cg →
      k = 0 ∧ cg = freshGroup := by
    intro k cg hk
    rcases lookup_setGroup_cases (w := { freshWorld with
      scn := { freshWorld.scn with shmMap := ∅ } }) hk with h | ⟨-, h⟩
    · exact h
    · cases h
  refine ⟨?_, ?_⟩
  · intro k cg hk
    exact ⟨1, by rw [(hone k cg hk).2]; rfl⟩
  · intro j k cg cg' hj hk _
    rw [(hone j cg hj).1, (hone k cg' hk).1]

/-- The fresh store posts slot `0`. -/
theorem negotiation_posts_oneSlot :
    Posted oneSlot quietCall
      (grantedArgs oneSlot quietCall { firstCall with group := 0, idx := 0 })
      freshWorld
      (freshWorld.granted oneSlot quietCall freshGroup
        { firstCall with group := 0, idx := 0 } 1) :=
  negotiation_posts ready_freshWorld apart_freshWorld
    (freshWorld_grants quietCall (Int.le_refl 0) rfl) (by decide) (by decide)

end StpGuarantee
