import StpPlatform.StpCryptoDetail
import Mathlib.Data.Finmap

/-! # The key negotiation store (`stpcomm/stp_crypto_negotiate`)

    `StpCryptoNegotiate` maps group numbers to crypto groups.  `init` attaches
    the segments that exist and creates group `0` when none does;
    `cryptoNegotiate` fills the slot a request names, after taking an index
    from the free set when the request carries the sentinel `-1`.

    The functions are transcribed branch by branch, the rollover branch
    included: `shm_map_[k]` default-constructs a missing group, and that
    constructor is the one that aborts (`subscript_missing`).  The second half
    reads the branches off once: `CallEffect` is everything a call can do that
    returns, `cryptoNegotiate_effect` and its converses connect it to the code. -/

namespace StpNegotiate

open StpIdx SysVShm StpDetail

/-! ## State and surroundings -/

/-- The settings `stpserver`'s `ConfigParser` hands out. -/
structure Config where
  maxGroup : Int
  maxIdx : Int
  tokenExpires : Int

/-- `config.max_idx() * sizeof(CryptoItem)`. -/
def segmentSize (cfg : Config) : Nat := cfg.maxIdx.toNat * sizeofCryptoItem

/-- `std::map<int, CryptoGroup>`. -/
abbrev ShmMap : Type := Finmap (fun _ : Int => CryptoGroup)

/-- `class StpCryptoNegotiate`. -/
structure StpCryptoNegotiate where
  shmMap : ShmMap
  curGroup : Int
  initialized : Bool

/-- The server process and the shared memory it works on. -/
structure World where
  scn : StpCryptoNegotiate
  kern : Kernel CryptoItem

/-- The state after `StpCryptoNegotiate::StpCryptoNegotiate()`. -/
def World.start (kern : Kernel CryptoItem) : World where
  scn := { shmMap := ∅, curGroup := 0, initialized := false }
  kern := kern

/-- Assign to the group that a reference into the map denotes. -/
def World.setGroup (w : World) (k : Int) (cg : CryptoGroup) : World :=
  { w with scn := { w.scn with shmMap := w.scn.shmMap.insert k cg } }

/-- `shm_map_.insert(std::make_pair(k, cg))`: an existing entry stays. -/
def stdInsert (k : Int) (cg : CryptoGroup) (m : ShmMap) : ShmMap :=
  if k ∈ m then m else m.insert k cg

/-- `shm_map_[k]`: the entry, default-constructed when it is missing. -/
def subscript (junk : Junk) (m : ShmMap) (k : Int) :
    Except Halt (CryptoGroup × ShmMap) :=
  match m.lookup k with
  | some cg => .ok (cg, m)
  | none =>
      match CryptoGroup.new (-1) (-1) (-1) junk with
      | .error e => .error e
      | .ok cg => .ok (cg, m.insert k cg)

/-! ## `Init` -/

/-- What the system answers during `Init`: `ftok` and the calls for each
    group, and once more for the group created when none could be attached. -/
structure InitEnv where
  ftok : Int → Int
  junk : Int → Junk
  faults : Int → ShmFaults
  createFtok : Int
  createJunk : Junk
  createFaults : ShmFaults

/-- One round of the attach loop, for group `i`. -/
def initStep (cfg : Config) (env : InitEnv) (i : Int) (w : World) :
    Except Halt World :=
  match CryptoGroup.new i cfg.maxIdx (env.ftok i) (env.junk i) with
  | .error e => .error e
  | .ok cg =>
      match cg.tryAttachShm (env.faults i) w.kern (segmentSize cfg) with
      | (addr, cg, kern) =>
          if addr ≠ .null then
            .ok { scn := { w.scn with
                    shmMap := stdInsert i { cg with shmAddr := addr } w.scn.shmMap
                    curGroup := i }
                  kern := kern }
          else .ok { w with kern := kern }

/-- The first `n` rounds of the attach loop. -/
def initLoop (cfg : Config) (env : InitEnv) (w : World) : Nat → Except Halt World
  | 0 => .ok w
  | n + 1 =>
      match initLoop cfg env w n with
      | .error e => .error e
      | .ok w => initStep cfg env n w

/-- `bool StpCryptoNegotiate::Init()`. -/
def init (cfg : Config) (env : InitEnv) (w : World) : Except Halt (Bool × World) :=
  if w.scn.initialized then .ok (true, w)
  else
    match initLoop cfg env { w with scn := { w.scn with shmMap := ∅ } }
        cfg.maxGroup.toNat with
    | .error e => .error e
    | .ok w =>
        if w.scn.shmMap.keys = ∅ then
          match CryptoGroup.new 0 cfg.maxIdx env.createFtok env.createJunk with
          | .error e => .error e
          | .ok cg =>
              match cg.createShm env.createFaults w.kern (segmentSize cfg) with
              | (false, _, kern) => .ok (false, { w with kern := kern })
              | (true, cg, kern) =>
                  .ok (true, { scn := { shmMap := stdInsert 0 cg w.scn.shmMap
                                        curGroup := 0
                                        initialized := true }
                               kern := kern })
        else .ok (true, { w with scn := { w.scn with initialized := true } })

/-! ## `CryptoNegotiate` -/

/-- What the system answers during one call: the clock when `expires` is
    computed, the clock that seeds the generator, the generator (seed and draw
    number to value), the shared memory calls, and what uninitialised members
    hold. -/
structure CallEnv where
  now : Int
  seed : Int
  random : Int → Nat → Nat
  faults : ShmFaults
  junk : Junk

/-- The in/out parameters of `CryptoNegotiate`. -/
structure NegotiateArgs where
  group : Int
  idx : Int
  expires : Int
  key : List UInt8

/-- The item as the call leaves it. -/
def negotiatedItem (cfg : Config) (env : CallEnv) (a : NegotiateArgs)
    (item : CryptoItem) : CryptoItem :=
  { item with
    group := a.group
    idx := a.idx
    useCrypto := true
    expires := env.now + cfg.tokenExpires }.generateRandomKey
      (env.random env.seed)

/-- From the comment 开始协商 (start negotiating) to the end of
    `CryptoNegotiate`: fill the slot that the parameters name. -/
def negotiateItem (cfg : Config) (env : CallEnv) (cg : CryptoGroup)
    (a : NegotiateArgs) (w : World) : Except Halt (Bool × NegotiateArgs × World) :=
  match cg.getCryptoItemByIdx a.idx with
  | none => .ok (false, a, w)
  | some p =>
      match w.kern.load sizeofCryptoItem p.base p.idx with
      | none => .error .segv
      | some old =>
          let item := negotiatedItem cfg env a old
          match w.kern.store sizeofCryptoItem p.base p.idx item with
          | none => .error .segv
          | some kern =>
              .ok (true, { a with expires := item.expires, key := cString item.key },
                { w with kern := kern })

/-- The branch taken when the current group has no free index.  `cg` is a
    reference to the entry of the old current group all along, so the group
    number, the free set and the new segment are assigned to that entry. -/
def rollover (cfg : Config) (env : CallEnv) (a : NegotiateArgs) (w : World) :
    Except Halt (Bool × NegotiateArgs × World) :=
  let cur := w.scn.curGroup
  match subscript env.junk w.scn.shmMap (cur + 1) with
  | .error e => .error e
  | .ok (next, map) =>
      let cg := { next with group := a.group, idxMgr := next.idxMgr.popIdx.2 }
      match cg.createShm env.faults w.kern (segmentSize cfg) with
      | (false, cg, kern) =>
          .ok (false, a,
            { scn := { w.scn with
                shmMap := map.insert cur { cg with group := -1 } }
              kern := kern })
      | (true, cg, kern) =>
          match cg.getCryptoItemByIdx next.idxMgr.popIdx.1 with
          | none => .error .segv
          | some p =>
              match kern.store sizeofCryptoItem p.base p.idx .zeroed with
              | none => .error .segv
              | some kern =>
                  negotiateItem cfg env cg
                    { a with group := cur + 1, idx := next.idxMgr.popIdx.1 }
                    { scn := { w.scn with
                        shmMap := map.insert cur cg
                        curGroup := cur + 1 }
                      kern := kern }

/-- `bool StpCryptoNegotiate::CryptoNegotiate(int&, int&, int64_t&, std::string&)`. -/
def cryptoNegotiate (cfg : Config) (env : CallEnv) (w : World)
    (a : NegotiateArgs) : Except Halt (Bool × NegotiateArgs × World) :=
  if w.scn.curGroup < 0 ∨ w.scn.curGroup ≥ cfg.maxGroup then .ok (false, a, w)
  else
    match subscript env.junk w.scn.shmMap w.scn.curGroup with
    | .error e => .error e
    | .ok (cg, map) =>
        let w := { w with scn := { w.scn with shmMap := map } }
        if cg.group = -1 then .ok (false, a, w)
        else if a.group = -1 ∨ a.idx = -1 then
          let cg' := { cg with idxMgr := cg.idxMgr.popIdx.2 }
          let w := w.setGroup w.scn.curGroup cg'
          if cg.idxMgr.popIdx.1 = -1 then rollover cfg env a w
          -- the index popped here is assigned to neither `group` nor `idx`
          else negotiateItem cfg env cg' a w
        else negotiateItem cfg env cg a w

/-! ## What one call does -/

theorem subscript_found {junk : Junk} {m : ShmMap} {k : Int} {cg : CryptoGroup}
    (h : m.lookup k = some cg) : subscript junk m k = .ok (cg, m) := by
  rw [subscript, h]

/-- **THE MISSING ENTRY ABORTS**: its index manager is constructed with `-1`. -/
theorem subscript_missing {junk : Junk} {m : ShmMap} {k : Int}
    (h : m.lookup k = none) : subscript junk m k = .error .abort := by
  rw [subscript, h]
  rfl

theorem rollover_missing {cfg : Config} {env : CallEnv} {a : NegotiateArgs}
    {w : World} (h : w.scn.shmMap.lookup (w.scn.curGroup + 1) = none) :
    rollover cfg env a w = .error .abort := by
  simp only [rollover, subscript_missing h]

/-- The request carries the sentinel of a first negotiation (首次协商). -/
def NegotiateArgs.First (a : NegotiateArgs) : Prop :=
  a.group = -1 ∨ a.idx = -1

instance (a : NegotiateArgs) : Decidable a.First :=
  inferInstanceAs (Decidable (_ ∨ _))

/-- The index passes the check of `getCryptoItemByIdx`. -/
def Addressable (cg : CryptoGroup) (idx : Int) : Prop :=
  0 ≤ idx ∧ idx ≤ cg.idxMgr.maxIdx

theorem Addressable.lookup {cg : CryptoGroup} {idx : Int}
    (h : Addressable cg idx) :
    cg.getCryptoItemByIdx idx = some { base := cg.shmAddr, idx := idx } := by
  obtain ⟨h0, h1⟩ := h
  exact getCryptoItemByIdx_eq_some (by omega)

theorem lookup_of_not_addressable {cg : CryptoGroup} {idx : Int}
    (h : ¬ Addressable cg idx) : cg.getCryptoItemByIdx idx = none := by
  refine getCryptoItemByIdx_eq_none ?_
  by_contra hin
  exact h ⟨by omega, by omega⟩

/-- The group after an index was popped from it. -/
def popped (cg : CryptoGroup) : CryptoGroup :=
  { cg with idxMgr := cg.idxMgr.popIdx.2 }

/-- The store after the request: a first negotiation has popped an index. -/
def World.afterPop (w : World) (cg : CryptoGroup) (a : NegotiateArgs) : World :=
  if a.First then w.setGroup w.scn.curGroup (popped cg) else w

/-- The parameters after a successful call. -/
def grantedArgs (cfg : Config) (env : CallEnv) (a : NegotiateArgs) :
    NegotiateArgs :=
  { a with
    expires := env.now + cfg.tokenExpires
    key := keyText (env.random env.seed) }

/-- Shared memory after slot `a.idx` of segment `id` was filled. -/
def filled (cfg : Config) (env : CallEnv) (a : NegotiateArgs)
    (k : Kernel CryptoItem) (id : Nat) : Kernel CryptoItem :=
  k.put id a.idx (negotiatedItem cfg env a (k.mem id a.idx))

/-- The world after a successful call that filled slot `a.idx` of segment `id`. -/
def World.granted (w : World) (cfg : Config) (env : CallEnv) (cg : CryptoGroup)
    (a : NegotiateArgs) (id : Nat) : World :=
  { scn := (w.afterPop cg a).scn
    kern := filled cfg env a w.kern id }

/-- Shared memory after the slot at `loc` was filled: `loc` is item `a.idx` of the
    group's own segment, or what lies behind it. -/
def filledAt (cfg : Config) (env : CallEnv) (a : NegotiateArgs)
    (k : Kernel CryptoItem) (loc : Nat × Int) : Kernel CryptoItem :=
  k.put loc.1 loc.2 (negotiatedItem cfg env a (k.mem loc.1 loc.2))

/-- The world after a successful call that filled the slot at `loc`. -/
def World.grantedAt (w : World) (cfg : Config) (env : CallEnv) (cg : CryptoGroup)
    (a : NegotiateArgs) (loc : Nat × Int) : World :=
  { scn := (w.afterPop cg a).scn
    kern := filledAt cfg env a w.kern loc }

/-- Where slot `idx` of group `k` lies, when the lookup admits the index and it is
    mapped. -/
def World.slotOf (w : World) (k idx : Int) : Option (Nat × Int) :=
  match w.scn.shmMap.lookup k with
  | none => none
  | some cg =>
      match cg.getCryptoItemByIdx idx with
      | none => none
      | some p => w.kern.place sizeofCryptoItem p.base p.idx

/-- **EVERYTHING A RETURNING CALL CAN DO**, when `cg` is the current group: refuse
    without a trace, refuse after popping an index, or fill a slot. -/
inductive CallEffect (cfg : Config) (env : CallEnv) (w : World)
    (cg : CryptoGroup) (a : NegotiateArgs) :
    Bool → NegotiateArgs → World → Prop where
  | refused (h : cfg.maxGroup ≤ w.scn.curGroup
        ∨ (¬ a.First ∧ ¬ Addressable cg a.idx)) :
      CallEffect cfg env w cg a false a w
  | leaked (hcur : w.scn.curGroup < cfg.maxGroup) (hfirst : a.First)
      (hfree : cg.idxMgr.idxSet ≠ ∅) (hidx : ¬ Addressable cg a.idx) :
      CallEffect cfg env w cg a false a (w.afterPop cg a)
  | granted (loc : Nat × Int) (hcur : w.scn.curGroup < cfg.maxGroup)
      (hfree : a.First → cg.idxMgr.idxSet ≠ ∅) (hidx : Addressable cg a.idx)
      (hplace : w.kern.place sizeofCryptoItem cg.shmAddr a.idx = some loc) :
      CallEffect cfg env w cg a true (grantedArgs cfg env a)
        (w.grantedAt cfg env cg a loc)

/-- What is known of the current group when the store is in order. -/
structure CurrentGroup (w : World) (cg : CryptoGroup) : Prop where
  low : 0 ≤ w.scn.curGroup
  found : w.scn.shmMap.lookup w.scn.curGroup = some cg
  number : cg.group ≠ -1
  free : cg.idxMgr.InRange
  next : w.scn.shmMap.lookup (w.scn.curGroup + 1) = none

theorem negotiateItem_unaddressable {cfg : Config} {env : CallEnv}
    {cg : CryptoGroup} {a : NegotiateArgs} {w : World}
    (h : ¬ Addressable cg a.idx) :
    negotiateItem cfg env cg a w = .ok (false, a, w) := by
  rw [negotiateItem, lookup_of_not_addressable h]

theorem negotiateItem_placed {cfg : Config} {env : CallEnv} {cg : CryptoGroup}
    {a : NegotiateArgs} {w : World} {loc : Nat × Int} (h : Addressable cg a.idx)
    (hplace : w.kern.place sizeofCryptoItem cg.shmAddr a.idx = some loc) :
    negotiateItem cfg env cg a w
      = .ok (true, grantedArgs cfg env a,
          { w with kern := filledAt cfg env a w.kern loc }) := by
  rw [negotiateItem, h.lookup]
  simp only [load_of_place hplace, store_of_place hplace]
  rw [show cString (negotiatedItem cfg env a (w.kern.mem loc.1 loc.2)).key
    = keyText (env.random env.seed) from
      cString_of_keyField (generateRandomKey_text _ _)]
  rfl

/-- Without mapped memory behind the slot the access faults. -/
theorem negotiateItem_unmapped {cfg : Config} {env : CallEnv} {cg : CryptoGroup}
    {a : NegotiateArgs} {w : World} (h : Addressable cg a.idx)
    (hplace : w.kern.place sizeofCryptoItem cg.shmAddr a.idx = none) :
    negotiateItem cfg env cg a w = .error .segv := by
  have hload : w.kern.load sizeofCryptoItem cg.shmAddr a.idx = none := by
    rw [Kernel.load, hplace]
    rfl
  rw [negotiateItem, h.lookup]
  simp only [hload]

/-- How `negotiateItem` returns: outside the bounds, or with the slot filled. -/
theorem negotiateItem_ok {cfg : Config} {env : CallEnv} {cg : CryptoGroup}
    {a a' : NegotiateArgs} {w w' : World} {ret : Bool}
    (h : negotiateItem cfg env cg a w = .ok (ret, a', w')) :
    (ret = false ∧ ¬ Addressable cg a.idx ∧ a' = a ∧ w' = w)
      ∨ (ret = true ∧ Addressable cg a.idx ∧ a' = grantedArgs cfg env a
        ∧ ∃ loc, w.kern.place sizeofCryptoItem cg.shmAddr a.idx = some loc
          ∧ w' = { w with kern := filledAt cfg env a w.kern loc }) := by
  by_cases hidx : Addressable cg a.idx
  · cases hplace : w.kern.place sizeofCryptoItem cg.shmAddr a.idx with
    | none =>
        rw [negotiateItem_unmapped hidx hplace] at h
        cases h
    | some loc =>
        rw [negotiateItem_placed hidx hplace] at h
        cases h
        exact Or.inr ⟨rfl, hidx, rfl, loc, rfl, rfl⟩
  · rw [negotiateItem_unaddressable hidx] at h
    cases h
    exact Or.inl ⟨rfl, hidx, rfl, rfl⟩

section Call

variable {cfg : Config} {env : CallEnv} {w : World} {cg : CryptoGroup}
  {a : NegotiateArgs}

theorem cryptoNegotiate_full (h : cfg.maxGroup ≤ w.scn.curGroup) :
    cryptoNegotiate cfg env w a = .ok (false, a, w) := by
  rw [cryptoNegotiate, if_pos (Or.inr h)]

/-- A renegotiation goes straight to the slot it names. -/
theorem cryptoNegotiate_again (hc : CurrentGroup w cg)
    (hcur : w.scn.curGroup < cfg.maxGroup) (ha : ¬ a.First) :
    cryptoNegotiate cfg env w a = negotiateItem cfg env cg a w := by
  have h0 := hc.low
  rw [cryptoNegotiate, if_neg (by omega), subscript_found hc.found]
  show (if cg.group = -1 then _
    else if a.First then _ else negotiateItem cfg env cg a w) = _
  rw [if_neg hc.number, if_neg ha]

/-- A first negotiation with a free index pops it, then goes to the slot the
    request named all the same. -/
theorem cryptoNegotiate_first (hc : CurrentGroup w cg)
    (hcur : w.scn.curGroup < cfg.maxGroup) (ha : a.First)
    (hfree : cg.idxMgr.idxSet ≠ ∅) :
    cryptoNegotiate cfg env w a
      = negotiateItem cfg env (popped cg) a
          (w.setGroup w.scn.curGroup (popped cg)) := by
  have h0 := hc.low
  have hpop : cg.idxMgr.popIdx.1 ≠ -1 :=
    fun h => hfree ((StpIdxMgr.popIdx_fst_eq_neg_one hc.free).mp h)
  rw [cryptoNegotiate, if_neg (by omega), subscript_found hc.found]
  show (if cg.group = -1 then _
    else if a.First then if cg.idxMgr.popIdx.1 = -1 then _
      else negotiateItem cfg env (popped cg) a
        (w.setGroup w.scn.curGroup (popped cg))
    else _) = _
  rw [if_neg hc.number, if_pos ha, if_neg hpop]

/-- **THE ROLLOVER ABORTS**: the next group is missing from the map. -/
theorem cryptoNegotiate_exhausted (hc : CurrentGroup w cg)
    (hcur : w.scn.curGroup < cfg.maxGroup) (ha : a.First)
    (hfree : cg.idxMgr.idxSet = ∅) :
    cryptoNegotiate cfg env w a = .error .abort := by
  have h0 := hc.low
  have hpop := StpIdxMgr.popIdx_empty hfree
  have hne : w.scn.curGroup + 1 ≠ w.scn.curGroup := by omega
  rw [cryptoNegotiate, if_neg (by omega), subscript_found hc.found]
  show (if cg.group = -1 then _
    else if a.First then if cg.idxMgr.popIdx.1 = -1
        then rollover cfg env a (w.setGroup w.scn.curGroup (popped cg))
      else _
    else _) = _
  rw [if_neg hc.number, if_pos ha, if_pos (by rw [hpop])]
  refine rollover_missing ?_
  show Finmap.lookup (w.scn.curGroup + 1) (w.scn.shmMap.insert _ _) = none
  rw [Finmap.lookup_insert_of_ne _ hne]
  exact hc.next

theorem popped_addressable (cg : CryptoGroup) (idx : Int) :
    Addressable (popped cg) idx ↔ Addressable cg idx := by
  rw [Addressable, Addressable, popped, StpIdxMgr.popIdx_maxIdx]

theorem afterPop_first (cg : CryptoGroup) (ha : a.First) :
    w.afterPop cg a = w.setGroup w.scn.curGroup (popped cg) := by
  rw [World.afterPop, if_pos ha]

theorem afterPop_again (cg : CryptoGroup) (ha : ¬ a.First) :
    w.afterPop cg a = w := by
  rw [World.afterPop, if_neg ha]

/-- **THE EFFECT OF A CALL**: what the code does when it returns. -/
theorem cryptoNegotiate_effect (hc : CurrentGroup w cg) {ret : Bool}
    {a' : NegotiateArgs} {w' : World}
    (h : cryptoNegotiate cfg env w a = .ok (ret, a', w')) :
    CallEffect cfg env w cg a ret a' w' := by
  by_cases hcur : cfg.maxGroup ≤ w.scn.curGroup
  · rw [cryptoNegotiate_full hcur] at h
    cases h
    exact .refused (Or.inl hcur)
  have hcur' : w.scn.curGroup < cfg.maxGroup := by omega
  by_cases ha : a.First
  · by_cases hfree : cg.idxMgr.idxSet = ∅
    · -- the rollover aborts, so such a call does not return
      rw [cryptoNegotiate_exhausted hc hcur' ha hfree] at h
      exact nomatch h
    rw [cryptoNegotiate_first hc hcur' ha hfree,
      ← afterPop_first cg ha] at h
    rcases negotiateItem_ok h with ⟨hr, hidx, ha', hw'⟩
      | ⟨hr, hidx, ha', loc, hplace, hw'⟩
    · subst hr; subst ha'; subst hw'
      exact .leaked hcur' ha hfree
        (fun h' => hidx ((popped_addressable cg _).mpr h'))
    · subst hr; subst ha'; subst hw'
      have hk : (w.afterPop cg a).kern = w.kern := by
        rw [afterPop_first cg ha]
        rfl
      rw [hk] at hplace ⊢
      exact .granted loc hcur' (fun _ => hfree)
        ((popped_addressable cg _).mp hidx) hplace
  · rw [cryptoNegotiate_again hc hcur' ha] at h
    rcases negotiateItem_ok h with ⟨hr, hidx, ha', hw'⟩
      | ⟨hr, hidx, ha', loc, hplace, hw'⟩
    · subst hr; subst ha'; subst hw'
      exact .refused (Or.inr ⟨ha, hidx⟩)
    · subst hr; subst ha'; subst hw'
      have hg : CallEffect cfg env w cg a true _ _ :=
        .granted loc hcur' (fun h' => absurd h' ha) hidx hplace
      rw [World.grantedAt, afterPop_again cg ha] at hg
      exact hg

/-- An entry of the map after `setGroup` is the new one or was there before. -/
theorem lookup_setGroup_cases {j k : Int} {cg' : CryptoGroup}
    (h : (w.setGroup k cg).scn.shmMap.lookup j = some cg') :
    (j = k ∧ cg' = cg) ∨ (j ≠ k ∧ w.scn.shmMap.lookup j = some cg') := by
  have h' : (w.scn.shmMap.insert k cg).lookup j = some cg' := h
  by_cases hjk : j = k
  · subst hjk
    rw [Finmap.lookup_insert] at h'
    exact Or.inl ⟨rfl, (Option.some.inj h').symm⟩
  · rw [Finmap.lookup_insert_of_ne _ hjk] at h'
    exact Or.inr ⟨hjk, h'⟩

/-- A first negotiation outside the bounds returns after popping an index. -/
theorem cryptoNegotiate_leaks (hc : CurrentGroup w cg)
    (hcur : w.scn.curGroup < cfg.maxGroup) (ha : a.First)
    (hfree : cg.idxMgr.idxSet ≠ ∅) (hidx : ¬ Addressable cg a.idx) :
    cryptoNegotiate cfg env w a = .ok (false, a, w.afterPop cg a) := by
  rw [cryptoNegotiate_first hc hcur ha hfree, negotiateItem_unaddressable
    (fun h' => hidx ((popped_addressable cg a.idx).mp h')),
    afterPop_first cg ha]

/-- A renegotiation of a mapped slot fills it. -/
theorem cryptoNegotiate_grants (hc : CurrentGroup w cg)
    (hcur : w.scn.curGroup < cfg.maxGroup) (ha : ¬ a.First)
    (hidx : Addressable cg a.idx) {loc : Nat × Int}
    (hplace : w.kern.place sizeofCryptoItem cg.shmAddr a.idx = some loc) :
    cryptoNegotiate cfg env w a
      = .ok (true, grantedArgs cfg env a, w.grantedAt cfg env cg a loc) := by
  rw [cryptoNegotiate_again hc hcur ha, negotiateItem_placed hidx hplace]
  rw [World.grantedAt, afterPop_again cg ha]

/-- Where the slot that a call names lies. -/
theorem CurrentGroup.slotOf (hc : CurrentGroup w cg) {idx : Int}
    (hidx : Addressable cg idx) :
    w.slotOf w.scn.curGroup idx = w.kern.place sizeofCryptoItem cg.shmAddr idx := by
  simp only [World.slotOf, hc.found, hidx.lookup]

end Call

end StpNegotiate
