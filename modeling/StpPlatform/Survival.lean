import Mathlib.Data.Int.Interval
import StpPlatform.RestartRecovery
import StpPlatform.StpServer

/-! # How many requests a server survives

    A request can end the server in two ways.  A first negotiation takes an
    index, and the one that finds none left makes the rollover construct an
    index manager with `-1`, which aborts.  A request that names index
    `max_idx` passes the bounds check, and its slot lies behind the segment: it
    is written if the last page reaches that far or the process has mapped
    something behind it, and faults if not.  What a write into foreign memory
    does to its owner is not followed.

    `serve_ok_iff` is the exact budget of a store in order, by induction on the
    requests: one visit decides what is left for the others.
    `fresh_survives_iff` reads it off for a server that has created its
    segment, where the budget is in the configuration and in what is mapped
    behind the segment. -/

namespace StpSurvival

open Rpc SysVShm StpIdx StpDetail StpNegotiate StpInvariant StpContract StpRestart
  StpServer

/-- A request to negotiate, and what the environment answers while it is handled. -/
structure Visit where
  env : CallEnv
  valid : Bool
  req : C2SStpCryptoNegotiate

/-- The store after one request; an error ends the process. -/
def visitStep (cfg : Config) (w : World) (v : Visit) : Except Halt World :=
  match handleProtocolStpCryptoNegotiate cfg v.env v.valid w v.req with
  | .error e => .error e
  | .ok (_, w) => .ok w

/-- The requests of all clients, in the order in which they are handled. -/
def serve (cfg : Config) (w : World) (visits : List Visit) : Except Halt World :=
  visits.foldlM (visitStep cfg) w

/-- The request reaches the store: its guid is in the database. -/
def Visit.Asks (v : Visit) : Prop := v.req.stpGuid?.isSome ∧ v.valid = true

/-- It is a first negotiation. -/
def Visit.First (v : Visit) : Prop := v.Asks ∧ (requestArgs v.req).First

/-- Both are read off the request. -/
instance (v : Visit) : Decidable v.Asks := inferInstanceAs (Decidable (_ ∧ _))

instance (v : Visit) : Decidable v.First := inferInstanceAs (Decidable (_ ∧ _))

/-- The number of first negotiations. -/
def firsts (visits : List Visit) : Nat := visits.countP (fun v => decide v.First)

/-- The slot behind an index can be read and written. -/
def SlotThere (kern : Kernel CryptoItem) (cg : CryptoGroup) (idx : Int) : Prop :=
  ∃ loc, kern.place sizeofCryptoItem cg.shmAddr idx = some loc

/-- The current group has an index for each first negotiation, and a slot for
    every index that is named within the bounds. -/
structure Lasts (kern : Kernel CryptoItem) (cg : CryptoGroup)
    (visits : List Visit) : Prop where
  budget : firsts visits ≤ cg.idxMgr.idxSet.card
  slots : ∀ v ∈ visits, v.Asks → Addressable cg v.req.token.idx →
    SlotThere kern cg v.req.token.idx

/-! ## One visit -/

section Visit

variable {cfg : Config} {w w' : World} {cg cg' : CryptoGroup} {v : Visit}

/-- A request that is turned away leaves the store as it is. -/
theorem visitStep_refused (h : ¬ v.Asks) : visitStep cfg w v = .ok w := by
  rw [visitStep, handleProtocolStpCryptoNegotiate]
  cases hguid : v.req.stpGuid? with
  | none => rfl
  | some stpGuid =>
      cases hvalid : v.valid with
      | false => rfl
      | true => exact absurd ⟨by rw [hguid]; rfl, hvalid⟩ h

/-- One that reaches the store does there what `CryptoNegotiate` does. -/
theorem visitStep_asks (h : v.Asks) :
    visitStep cfg w v
      = match cryptoNegotiate cfg v.env w (requestArgs v.req) with
        | .error e => .error e
        | .ok (_, _, w) => .ok w := by
  obtain ⟨hguid, hvalid⟩ := h
  obtain ⟨stpGuid, hsome⟩ := Option.isSome_iff_exists.mp hguid
  simp only [visitStep, handleProtocolStpCryptoNegotiate, hsome, hvalid,
    Bool.not_true, Bool.false_eq_true, if_false]
  cases cryptoNegotiate cfg v.env w (requestArgs v.req) with
  | error e => rfl
  | ok r =>
      obtain ⟨ret, out, w'⟩ := r
      cases ret <;> rfl

/-- What a visit leaves of the current group `cg`. -/
structure Leaves (w w' : World) (cg cg' : CryptoGroup) (v : Visit) : Prop where
  group : w'.scn.curGroup = w.scn.curGroup
  found : w'.scn.shmMap.lookup w'.scn.curGroup = some cg'
  addr : cg'.shmAddr = cg.shmAddr
  bound : cg'.idxMgr.maxIdx = cg.idxMgr.maxIdx
  free : cg'.idxMgr.idxSet.card + (if v.First then 1 else 0) = cg.idxMgr.idxSet.card
  len : w'.kern.len = w.kern.len
  behind : w'.kern.behind = w.kern.behind

/-- A pop takes one index of those there are. -/
theorem card_popIdx {m : StpIdxMgr} (h : m.idxSet ≠ ∅) :
    m.popIdx.2.idxSet.card + 1 = m.idxSet.card := by
  have hne := Finset.nonempty_iff_ne_empty.mpr h
  rw [StpIdxMgr.popIdx_nonempty hne]
  exact Finset.card_erase_add_one (m.idxSet.min'_mem hne)

/-- What a call leaves behind is one index less, after a first negotiation. -/
theorem leaves_afterPop (hcg : w.scn.shmMap.lookup w.scn.curGroup = some cg)
    (hasks : v.Asks) (hfree : (requestArgs v.req).First → cg.idxMgr.idxSet ≠ ∅)
    (hscn : w'.scn = (w.afterPop cg (requestArgs v.req)).scn)
    (hlen : w'.kern.len = w.kern.len) (hbehind : w'.kern.behind = w.kern.behind) :
    ∃ cg', Leaves w w' cg cg' v := by
  by_cases hfirst : (requestArgs v.req).First
  · have hv : v.First := ⟨hasks, hfirst⟩
    refine ⟨popped cg, ?_, ?_, rfl, cg.idxMgr.popIdx_maxIdx, ?_, hlen, hbehind⟩
    · rw [hscn, afterPop_curGroup]
    · rw [hscn, afterPop_curGroup]
      exact afterPop_lookup_cur cg hfirst
    · rw [if_pos hv]
      exact card_popIdx (hfree hfirst)
  · have hv : ¬ v.First := fun hv => hfirst hv.2
    rw [afterPop_again cg hfirst] at hscn
    refine ⟨cg, ?_, ?_, rfl, rfl, ?_, hlen, hbehind⟩
    · rw [hscn]
    · rw [hscn]
      exact hcg
    · rw [if_neg hv, Nat.add_zero]

/-- **A VISIT THAT RETURNS** takes an index if it is a first negotiation. -/
theorem visit_leaves (hinv : StoreInv cfg w)
    (hcg : w.scn.shmMap.lookup w.scn.curGroup = some cg)
    (hopen : w.scn.curGroup < cfg.maxGroup)
    (hcall : visitStep cfg w v = .ok w') :
    ∃ cg', Leaves w w' cg cg' v := by
  by_cases hasks : v.Asks
  · rw [visitStep_asks hasks] at hcall
    cases hneg : cryptoNegotiate cfg v.env w (requestArgs v.req) with
    | error e =>
        rw [hneg] at hcall
        cases hcall
    | ok r =>
        obtain ⟨ret, out, w₁⟩ := r
        rw [hneg] at hcall
        cases hcall
        cases cryptoNegotiate_effect (hinv.currentGroup hcg) hneg with
        | refused hwhy =>
            have hnot : ¬ (requestArgs v.req).First :=
              (hwhy.resolve_left (by omega)).1
            exact leaves_afterPop hcg hasks (fun h => absurd h hnot)
              (by rw [afterPop_again cg hnot]) rfl rfl
        | leaked _ _ hfree _ =>
            exact leaves_afterPop hcg hasks (fun _ => hfree) rfl
              (by rw [afterPop_kern]) (by rw [afterPop_kern])
        | granted loc _ hfree _ _ =>
            exact leaves_afterPop hcg hasks hfree rfl rfl rfl
  · rw [visitStep_refused hasks] at hcall
    cases hcall
    have hv : ¬ v.First := fun hv => hasks hv.1
    refine ⟨cg, rfl, hcg, rfl, rfl, ?_, rfl, rfl⟩
    rw [if_neg hv, Nat.add_zero]

/-- **ONE VISIT** returns exactly if an index is left for it and its slot is
    there. -/
theorem visit_ok_iff (hinv : StoreInv cfg w)
    (hcg : w.scn.shmMap.lookup w.scn.curGroup = some cg)
    (hopen : w.scn.curGroup < cfg.maxGroup) :
    (∃ w', visitStep cfg w v = .ok w')
      ↔ (v.First → cg.idxMgr.idxSet ≠ ∅)
        ∧ (v.Asks → Addressable cg v.req.token.idx →
          SlotThere w.kern cg v.req.token.idx) := by
  have hcur := hinv.currentGroup hcg
  constructor
  · rintro ⟨w', hcall⟩
    by_cases hasks : v.Asks
    · rw [visitStep_asks hasks] at hcall
      cases hneg : cryptoNegotiate cfg v.env w (requestArgs v.req) with
      | error e =>
          rw [hneg] at hcall
          cases hcall
      | ok r =>
          obtain ⟨ret, out, w₁⟩ := r
          cases cryptoNegotiate_effect hcur hneg with
          | refused hwhy =>
              obtain ⟨hnot, hidx⟩ := hwhy.resolve_left (by omega)
              exact ⟨fun hv => absurd hv.2 hnot, fun _ haddr => absurd haddr hidx⟩
          | leaked _ _ hfree hidx =>
              exact ⟨fun _ => hfree, fun _ haddr => absurd haddr hidx⟩
          | granted loc _ hfree _ hplace =>
              exact ⟨fun hv => hfree hv.2, fun _ _ => ⟨loc, hplace⟩⟩
    · exact ⟨fun hv => absurd hv.1 hasks, fun h => absurd h hasks⟩
  · rintro ⟨hfree, hslot⟩
    by_cases hasks : v.Asks
    · rw [visitStep_asks hasks]
      by_cases hidx : Addressable cg (requestArgs v.req).idx
      · obtain ⟨loc, hplace⟩ := hslot hasks hidx
        by_cases hfirst : (requestArgs v.req).First
        · rw [cryptoNegotiate_first hcur hopen hfirst (hfree ⟨hasks, hfirst⟩),
            @negotiateItem_placed cfg v.env (popped cg) (requestArgs v.req)
              (w.setGroup w.scn.curGroup (popped cg)) loc
              ((popped_addressable cg _).mpr hidx) hplace]
          exact ⟨_, rfl⟩
        · rw [cryptoNegotiate_grants hcur hopen hfirst hidx hplace]
          exact ⟨_, rfl⟩
      · by_cases hfirst : (requestArgs v.req).First
        · rw [cryptoNegotiate_leaks hcur hopen hfirst (hfree ⟨hasks, hfirst⟩) hidx]
          exact ⟨_, rfl⟩
        · rw [cryptoNegotiate_again hcur hopen hfirst,
            negotiateItem_unaddressable hidx]
          exact ⟨_, rfl⟩
    · exact ⟨w, visitStep_refused hasks⟩

/-- The store stays in order. -/
theorem storeInv_visit (hinv : StoreInv cfg w)
    (hcall : visitStep cfg w v = .ok w') : StoreInv cfg w' := by
  rw [visitStep] at hcall
  cases hans : handleProtocolStpCryptoNegotiate cfg v.env v.valid w v.req with
  | error e =>
      rw [hans] at hcall
      cases hcall
  | ok r =>
      obtain ⟨ans, w₁⟩ := r
      rw [hans] at hcall
      cases hcall
      exact storeInv_handler hinv hans

end Visit

/-! ## Every list of requests -/

section Serve

variable {cfg : Config} {w w' : World} {cg cg' : CryptoGroup} {v : Visit}
  {visits : List Visit}

/-- The first request decides what the others meet. -/
theorem serve_cons (v : Visit) (visits : List Visit) :
    (∃ w', serve cfg w (v :: visits) = .ok w')
      ↔ ∃ w₁, visitStep cfg w v = .ok w₁ ∧ ∃ w', serve cfg w₁ visits = .ok w' := by
  rw [serve, List.foldlM_cons]
  cases hv : visitStep cfg w v with
  | error e =>
      constructor
      · rintro ⟨w', h⟩
        cases h
      · rintro ⟨w₁, h, -⟩
        cases h
  | ok w₁ =>
      constructor
      · rintro ⟨w', h⟩
        exact ⟨w₁, rfl, w', h⟩
      · rintro ⟨w₂, h, w', hrest⟩
        cases h
        exact ⟨w', hrest⟩

/-- It is counted if it is a first negotiation. -/
theorem firsts_cons (v : Visit) (visits : List Visit) :
    firsts (v :: visits) = firsts visits + (if v.First then 1 else 0) := by
  rw [firsts, List.countP_cons]
  simp only [firsts, decide_eq_true_eq]

/-- What a visit leaves is what the others need, less what it took. -/
theorem lasts_cons_iff (hleaves : Leaves w w' cg cg' v) :
    Lasts w.kern cg (v :: visits)
      ↔ ((v.First → cg.idxMgr.idxSet ≠ ∅)
          ∧ (v.Asks → Addressable cg v.req.token.idx →
            SlotThere w.kern cg v.req.token.idx))
        ∧ Lasts w'.kern cg' visits := by
  have hfirsts := firsts_cons v visits
  have hfree := hleaves.free
  have haddressable : ∀ idx, Addressable cg' idx ↔ Addressable cg idx := by
    intro idx
    rw [Addressable, Addressable, hleaves.bound]
  have hthere : ∀ idx, SlotThere w'.kern cg' idx ↔ SlotThere w.kern cg idx := by
    intro idx
    simp only [SlotThere, place_congr hleaves.len hleaves.behind, hleaves.addr]
  constructor
  · rintro ⟨hbudget, hslots⟩
    rw [hfirsts] at hbudget
    refine ⟨⟨?_, hslots v List.mem_cons_self⟩, ⟨?_, ?_⟩⟩
    · intro hv hempty
      rw [if_pos hv, hempty, Finset.card_empty] at hbudget
      omega
    · omega
    · intro u hu hasks haddr
      rw [hthere]
      exact hslots u (List.mem_cons_of_mem v hu) hasks ((haddressable _).mp haddr)
  · rintro ⟨⟨hone, hslot⟩, hbudget, hslots⟩
    refine ⟨?_, ?_⟩
    · rw [hfirsts]
      omega
    · intro u hu hasks haddr
      rcases List.mem_cons.mp hu with heq | hu
      · rw [heq] at hasks haddr ⊢
        exact hslot hasks haddr
      · rw [← hthere]
        exact hslots u hu hasks ((haddressable _).mpr haddr)

/-- **THE BUDGET OF A STORE**: it survives a list of requests exactly if there is
    an index for each first negotiation and a slot for each index named. -/
theorem serve_ok_iff : ∀ {visits : List Visit} {w : World} {cg : CryptoGroup},
    StoreInv cfg w → w.scn.shmMap.lookup w.scn.curGroup = some cg →
    w.scn.curGroup < cfg.maxGroup →
    ((∃ w', serve cfg w visits = .ok w') ↔ Lasts w.kern cg visits) := by
  intro visits
  induction visits with
  | nil =>
      intro w cg _ _ _
      exact iff_of_true ⟨w, rfl⟩ ⟨Nat.zero_le _, fun v hv => (nomatch hv)⟩
  | cons v visits ih =>
      intro w cg hinv hcg hopen
      rw [serve_cons]
      constructor
      · rintro ⟨w₁, hcall, hrest⟩
        obtain ⟨cg', hleaves⟩ := visit_leaves hinv hcg hopen hcall
        have hone := (@visit_ok_iff cfg w cg v hinv hcg hopen).mp ⟨w₁, hcall⟩
        refine (lasts_cons_iff hleaves).mpr ⟨hone, ?_⟩
        refine (ih (storeInv_visit hinv hcall) hleaves.found ?_).mp hrest
        rw [hleaves.group]
        exact hopen
      · intro hlasts
        -- the first visit returns, and what it leaves lasts for the others
        have hone : ∃ w₁, visitStep cfg w v = .ok w₁ := by
          refine (visit_ok_iff hinv hcg hopen).mpr ⟨?_, ?_⟩
          · intro hv hempty
            have hbudget := hlasts.budget
            rw [hempty, Finset.card_empty, firsts_cons, if_pos hv] at hbudget
            omega
          · exact hlasts.slots v List.mem_cons_self
        obtain ⟨w₁, hcall⟩ := hone
        obtain ⟨cg', hleaves⟩ := visit_leaves hinv hcg hopen hcall
        refine ⟨w₁, hcall, ?_⟩
        refine (ih (storeInv_visit hinv hcall) hleaves.found ?_).mpr
          ((lasts_cons_iff hleaves).mp hlasts).2
        rw [hleaves.group]
        exact hopen

end Serve

/-! ## A server that has created its segment -/

section Fresh

variable {cfg : Config} {env : InitEnv} {kern : Kernel CryptoItem} {w : World}

/-- All indices below a bound are as many as the bound. -/
theorem card_idxUpTo {m : StpIdxMgr} {n : Int} (h0 : 0 ≤ n)
    (hfull : ∀ i, i ∈ m.idxSet ↔ 0 ≤ i ∧ i < n) : (m.idxSet.card : Int) = n := by
  have hset : m.idxSet = Finset.Ico 0 n := by
    ext i
    rw [hfull, Finset.mem_Ico]
  rw [hset, Int.card_Ico]
  omega

/-- What `Init` leaves of group `0` where it created it. -/
structure Created (cfg : Config) (w : World) (cg : CryptoGroup) (id : Nat) :
    Prop where
  current : w.scn.curGroup = 0
  found : w.scn.shmMap.lookup 0 = some cg
  addr : cg.shmAddr = .seg id
  len : w.kern.len id = segmentSize cfg
  bound : cg.idxMgr.maxIdx = cfg.maxIdx
  free : (cg.idxMgr.idxSet.card : Int) = cfg.maxIdx

/-- On a kernel without named segments `Init` creates group `0`, with all indices
    free, and attaches its segment unless `shmat` fails. -/
theorem init_creates (hblank : kern.segs = [])
    (hattach : env.createFaults.attach = false)
    (hinit : init cfg env (World.start kern) = .ok (true, w)) :
    ∃ cg id, Created cfg w cg id := by
  obtain ⟨w₁, cg, hsegs, hnone, hnew, id, kern', hget, hw⟩ :=
    init_of_blank hblank hinit
  obtain ⟨mgr, hmgr, hcg⟩ := CryptoGroup.new_ok hnew
  obtain ⟨hrange, hmax, hfull⟩ := StpIdxMgr.new_ok hmgr
  obtain ⟨hid, hk⟩ := shmget_of_blank hsegs hget
  refine ⟨{ cg with
      shmid := id
      shmAddr := Kernel.shmat env.createFaults.attach id }, id, ?_⟩
  subst hw
  refine ⟨rfl, lookup_stdInsert_self _ (hnone 0), ?_, ?_, ?_, ?_⟩
  · rw [hattach]
    rfl
  · rw [hid, hk, create_len_self]
  · rw [hcg]
    exact hmax
  · rw [hcg]
    exact card_idxUpTo (by omega) hfull

/-- The slot behind the segment is there unless the segment ends with a page and
    nothing is mapped behind that. -/
theorem slotThere_iff {cg : CryptoGroup} {id : Nat} (hcreated : Created cfg w cg id)
    (hrange : 1 ≤ cfg.maxIdx) {idx : Int} (h0 : 0 ≤ idx) (hle : idx ≤ cfg.maxIdx) :
    SlotThere w.kern cg idx
      ↔ (idx = cfg.maxIdx → (64 : Int) ∣ cfg.maxIdx →
          w.kern.GoesOn sizeofCryptoItem id) := by
  have hcast := segmentSize_cast hrange
  have hthere : SlotThere w.kern cg idx
      ↔ w.kern.Mapped sizeofCryptoItem (.seg id) idx := by
    rw [SlotThere, hcreated.addr, Kernel.Mapped, Option.isSome_iff_exists]
  rw [hthere]
  by_cases hbehind : idx = cfg.maxIdx ∧ (64 : Int) ∣ cfg.maxIdx
  · -- the segment fills its pages, and the slot is the first record behind them
    obtain ⟨hidx, hpage⟩ := hbehind
    have hfull : mappedBytes (w.kern.len id) = cfg.maxIdx.toNat * sizeofCryptoItem := by
      rw [hcreated.len, mappedBytes]
      show (segmentSize cfg + 4095) / 4096 * 4096 = cfg.maxIdx.toNat * 64
      omega
    have hnext := @mapped_next_iff _ w.kern sizeofCryptoItem id (by decide)
      cfg.maxIdx.toNat hfull
    rw [Int.toNat_of_nonneg (by omega), ← hidx] at hnext
    rw [hnext]
    exact ⟨fun hon _ _ => hon, fun hon => hon hidx hpage⟩
  · refine iff_of_true (mapped_of_inPages ⟨h0, ?_⟩)
      (fun hidx hpage => absurd ⟨hidx, hpage⟩ hbehind)
    rw [hcreated.len, mappedBytes]
    show (idx + 1) * 64 ≤ (((segmentSize cfg + 4095) / 4096 * 4096 : Nat) : Int)
    push_cast
    rw [hcast]
    omega

/-- Group `0` is in a segment behind whose pages the process has mapped no room
    for another item. -/
def NothingBehind (w : World) : Prop :=
  ∃ cg id, w.scn.shmMap.lookup 0 = some cg ∧ cg.shmAddr = .seg id
    ∧ ¬ w.kern.GoesOn sizeofCryptoItem id

/-- **HOW MANY REQUESTS A NEW SERVER SURVIVES**: `max_idx` first negotiations, and
    no request for index `max_idx` if the segment fills its pages and nothing is
    mapped behind them. -/
theorem fresh_survives_iff (hblank : kern.segs = [])
    (hattach : env.createFaults.attach = false)
    (hinit : init cfg env (World.start kern) = .ok (true, w))
    (hgroup : 1 ≤ cfg.maxGroup) (visits : List Visit) :
    (∃ w', serve cfg w visits = .ok w')
      ↔ firsts visits ≤ cfg.maxIdx
        ∧ ((64 : Int) ∣ cfg.maxIdx → NothingBehind w →
          ∀ v ∈ visits, v.Asks → v.req.token.idx ≠ cfg.maxIdx) := by
  obtain ⟨cg, id, hcreated⟩ := init_creates hblank hattach hinit
  have hinv := (ready_of_init hinit).storeInv
  have hcur := hcreated.current
  have hfree := hcreated.free
  have hrange := hinv.range.1
  -- group `0` is the one that was created
  have hnothing : NothingBehind w ↔ ¬ w.kern.GoesOn sizeofCryptoItem id := by
    constructor
    · rintro ⟨cg', id', hcg', haddr', hends⟩
      have heq : cg = cg' := Option.some.inj (hcreated.found.symm.trans hcg')
      rw [← heq, hcreated.addr] at haddr'
      cases haddr'
      exact hends
    · intro hends
      exact ⟨cg, id, hcreated.found, hcreated.addr, hends⟩
  rw [hnothing, serve_ok_iff hinv (by rw [hcur]; exact hcreated.found)
    (hinv.below hgroup)]
  constructor
  · rintro ⟨hbudget, hslots⟩
    refine ⟨by omega, ?_⟩
    intro hpage hends v hv hasks heq
    have hin : Addressable cg v.req.token.idx := by
      rw [Addressable, hcreated.bound]
      omega
    have hthere := (slotThere_iff hcreated hrange (by omega) (by omega)).mp
      (hslots v hv hasks hin)
    exact hends (hthere heq hpage)
  · rintro ⟨hbudget, hnone⟩
    refine ⟨by omega, ?_⟩
    rintro v hv hasks ⟨h0, hle⟩
    rw [hcreated.bound] at hle
    refine (slotThere_iff hcreated hrange h0 hle).mpr ?_
    intro heq hpage
    by_contra hends
    exact hnone hpage hends v hv hasks heq

/-! ## A segment that fills its page -/

/-- As many items as a page holds. -/
def fullPage : Config := { oneSlot with maxIdx := 64 }

/-- Its group, with every index free. -/
def pageGroup : CryptoGroup :=
  { freshGroup with idxMgr := { maxIdx := 64, idxSet := idxUpTo 64 } }

/-- An empty kernel that will map segments in front of `next`. -/
def kernelBefore (next : Behind) : Kernel CryptoItem :=
  { blankKernel with behind := fun _ => next }

/-- The store that `Init` makes of it. -/
def pageWorld (next : Behind) : World where
  scn := { shmMap := (∅ : ShmMap).insert 0 pageGroup
           curGroup := 0
           initialized := true }
  kern := (((kernelBefore next).create 100 4096 .zeroed).rmid 0).create 100 4096 .zeroed

/-- Whatever is mapped behind the segment, `Init` succeeds. -/
theorem init_fullPage (next : Behind) :
    init fullPage quietInit (World.start (kernelBefore next))
      = .ok (true, pageWorld next) :=
  rfl

/-- A request of guid `9` that names an index, `-1` for a first negotiation. -/
def visitFor (idx : Int) : Visit :=
  ⟨quietCall, true, { stpGuid? := some 9
                      token? := some { StpToken.empty with group? := some idx
                                                           idx? := some idx } }⟩

/-- With one page of slots the server survives 64 first negotiations and not 65;
    a request for index `64` ends it if nothing is mapped behind the page, and
    does not if there is another page. -/
theorem fresh_survives_iff_fullPage :
    (∃ w', serve fullPage (pageWorld .nothing) (List.replicate 64 (visitFor (-1)))
        = .ok w')
      ∧ (¬ ∃ w', serve fullPage (pageWorld .nothing)
        (List.replicate 65 (visitFor (-1))) = .ok w')
      ∧ (¬ ∃ w', serve fullPage (pageWorld .nothing) [visitFor 64] = .ok w')
      ∧ ∃ w', serve fullPage (pageWorld (.foreign 4096)) [visitFor 64] = .ok w' := by
  have hblank : ∀ next, (kernelBefore next).segs = [] := fun _ => rfl
  have hfirsts : ∀ n, firsts (List.replicate n (visitFor (-1))) = n := by
    intro n
    rw [firsts, List.countP_replicate]
    rfl
  have hends : NothingBehind (pageWorld .nothing) :=
    ⟨pageGroup, 1, rfl, rfl, fun h => h⟩
  refine ⟨?_, ?_, ?_, ?_⟩
  · refine (fresh_survives_iff (hblank _) rfl (init_fullPage _) (by decide) _).mpr
      ⟨by rw [hfirsts]; decide, ?_⟩
    intro _ _ v hv _ hidx
    rw [List.eq_of_mem_replicate hv] at hidx
    exact absurd hidx (by decide)
  · rw [fresh_survives_iff (hblank _) rfl (init_fullPage _) (by decide), hfirsts]
    rintro ⟨hbudget, -⟩
    exact absurd hbudget (by decide)
  · rw [fresh_survives_iff (hblank _) rfl (init_fullPage _) (by decide)]
    rintro ⟨-, hindex⟩
    exact hindex (by decide) hends _ List.mem_cons_self ⟨rfl, rfl⟩ rfl
  · refine (fresh_survives_iff (hblank _) rfl (init_fullPage _) (by decide) _).mpr
      ⟨by decide, ?_⟩
    rintro - ⟨cg, id, hcg, haddr, hnone⟩
    have hsame : pageGroup = cg := Option.some.inj hcg
    rw [← hsame] at haddr
    cases haddr
    exact absurd (show 64 ≤ 4096 by decide) hnone

end Fresh

end StpSurvival
