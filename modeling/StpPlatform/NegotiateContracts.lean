import StpPlatform.NegotiateInvariant

/-! # What a call of `CryptoNegotiate` keeps of its contract

    The parameters of `CryptoNegotiate` are in/out: `group` and `idx` name the
    slot of a renegotiation, or carry `-1` and receive the slot of a first one.
    Each section states one clause of that contract as a predicate on the state
    before the call and the arguments, and proves exactly where the code keeps
    it:

    * a first negotiation never gets the slot it popped
      (`firstNegotiation_never_ok`), because the popped index is assigned to
      neither parameter;
    * a first negotiation that finds no free index aborts the process
      (`rollover_never_ok`), because `shm_map_[cur_group_ + 1]` constructs a
      group with the bound `-1`;
    * a refused call is atomic unless it has popped (`refusal_atomic_iff`);
    * the slot is inside the segment unless the index is the bound itself
      (`slot_inside_iff`);
    * a renegotiation works on `cur_group_`, so it addresses the slot it names
      exactly in that group (`addresses_slot_iff`). -/

namespace StpContract

open LabelledRun StpIdx SysVShm StpDetail StpNegotiate StpInvariant

/-! ## A store with one slot

    The smallest configuration, and the store `Init` makes of an empty kernel. -/

/-- One group with one item, and tokens of a minute. -/
def oneSlot : Config where
  maxGroup := 1
  maxIdx := 1
  tokenExpires := 60

/-- An environment in which no system call fails. -/
def quietInit : InitEnv where
  ftok := fun i => 100 + i
  junk := fun _ => ⟨-1, .null⟩
  faults := fun _ => .none
  createFtok := 100
  createJunk := ⟨-1, .null⟩
  createFaults := .none

/-- The same for one call of `CryptoNegotiate`. -/
def quietCall : CallEnv where
  now := 1000
  seed := 7
  random := fun seed n => seed.toNat + n
  faults := .none
  junk := ⟨-1, .null⟩

/-- A kernel without segments. -/
def blankKernel : Kernel CryptoItem := .empty .zeroed

/-- The group that `Init` creates. -/
def freshGroup : CryptoGroup where
  key := 100
  group := 0
  shmid := 1
  shmAddr := .seg 1
  idxMgr := { maxIdx := 1, idxSet := {0} }

/-- The attach loop made segment `0` and removed it, `CreateShm` made `1`. -/
def freshWorld : World where
  scn := { shmMap := (∅ : ShmMap).insert 0 freshGroup
           curGroup := 0
           initialized := true }
  kern := ((blankKernel.create 100 64 .zeroed).rmid 0).create 100 64 .zeroed

/-- The parameters of a first negotiation (首次协商). -/
def firstCall : NegotiateArgs where
  group := -1
  idx := -1
  expires := 0
  key := []

/-- `Init` over an empty kernel gives that store. -/
theorem init_oneSlot :
    init oneSlot quietInit (World.start blankKernel) = .ok (true, freshWorld) :=
  rfl

theorem ready_freshWorld : Ready oneSlot freshWorld :=
  ready_of_init init_oneSlot

/-- The store after a first negotiation took the only index. -/
def exhaustedWorld : World := freshWorld.setGroup 0 (popped freshGroup)

/-- The first negotiation of the process is refused, and has popped the index. -/
theorem negotiate_freshWorld :
    cryptoNegotiate oneSlot quietCall freshWorld firstCall
      = .ok (false, firstCall, exhaustedWorld) :=
  rfl

/-- The store is in order after that, too. -/
theorem ready_exhaustedWorld : Ready oneSlot exhaustedWorld :=
  ⟨ready_freshWorld.1.step
      (e := .negotiate quietCall firstCall false firstCall)
      negotiate_freshWorld, rfl⟩

/-! ## Rollover to the next group -/

/-- A call that finds no free index in the current group moves on to the next
    one, whatever key that group gets; after the last group it is refused. -/
structure RolloverOk (cfg : Config) (env : CallEnv) (w : World)
    (a : NegotiateArgs) : Prop where
  survives : cryptoNegotiate cfg env w a ≠ .error .abort
  rolls : ∀ (key : Int) (next : CryptoGroup),
    w.scn.curGroup + 1 < cfg.maxGroup →
    CryptoGroup.new (w.scn.curGroup + 1) cfg.maxIdx key env.junk = .ok next →
    (next.createShm env.faults w.kern (segmentSize cfg)).1 = true →
    ∃ out w', cryptoNegotiate cfg env w a = .ok (true, out, w')
      ∧ out.group = w.scn.curGroup + 1 ∧ 0 ≤ out.idx ∧ out.idx < cfg.maxIdx
      ∧ w'.scn.curGroup = w.scn.curGroup + 1
      ∧ ∀ k, k ≤ w.scn.curGroup →
          w'.scn.shmMap.lookup k = w.scn.shmMap.lookup k
  last : w.scn.curGroup + 1 = cfg.maxGroup →
    cryptoNegotiate cfg env w a = .ok (false, a, w)

/-- **ROLLOVER NEVER HAPPENS**: in every run, the first negotiation that finds
    the current group used up aborts the process. -/
theorem rollover_never_ok {cfg : Config} {env : CallEnv} {w : World}
    {cg : CryptoGroup} {a : NegotiateArgs} (hw : Ready cfg w)
    (hmax : 1 ≤ cfg.maxGroup)
    (hcg : w.scn.shmMap.lookup w.scn.curGroup = some cg)
    (hfree : cg.idxMgr.idxSet = ∅) (ha : a.First) :
    ¬ RolloverOk cfg env w a := by
  intro hok
  have hinv := hw.storeInv
  exact hok.survives (cryptoNegotiate_exhausted (hinv.currentGroup hcg)
    (hinv.below hmax) ha hfree)

/-- The second first negotiation aborts. -/
theorem rollover_never_ok_oneSlot :
    ¬ RolloverOk oneSlot quietCall exhaustedWorld firstCall :=
  rollover_never_ok ready_exhaustedWorld (by decide)
    (show _ = some (popped freshGroup) from rfl) (by decide) (by decide)

/-- The second first negotiation of a process with one slot aborts. -/
theorem rollover_aborts :
    Ready oneSlot exhaustedWorld
      ∧ exhaustedWorld.scn.shmMap.lookup 0 = some (popped freshGroup)
      ∧ (popped freshGroup).idxMgr.idxSet = ∅
      ∧ cryptoNegotiate oneSlot quietCall exhaustedWorld firstCall
        = .error .abort
      ∧ ¬ RolloverOk oneSlot quietCall exhaustedWorld firstCall :=
  ⟨ready_exhaustedWorld, rfl, by decide, rfl, fun hok => hok.survives rfl⟩

/-! ## First negotiations -/

/-- The call hands out an index of the current group that was free, and fills
    exactly that slot. -/
def FirstNegotiationOk (cfg : Config) (env : CallEnv) (w : World)
    (a : NegotiateArgs) : Prop :=
  ∃ out w' cg cg' id, cryptoNegotiate cfg env w a = .ok (true, out, w')
    ∧ w.scn.shmMap.lookup w.scn.curGroup = some cg
    ∧ w'.scn.shmMap.lookup w.scn.curGroup = some cg'
    ∧ out.group = w.scn.curGroup
    ∧ out.idx ∈ cg.idxMgr.idxSet ∧ out.idx ∉ cg'.idxMgr.idxSet
    ∧ cg.shmAddr = .seg id
    ∧ cString (w'.kern.mem id out.idx).key = out.key
    ∧ (w'.kern.mem id out.idx).expires = out.expires
    ∧ ∀ id' i, (id', i) ≠ (id, out.idx) → w'.kern.mem id' i = w.kern.mem id' i

/-- `(-1, -1)` is refused: by the group bound, or after popping an index that
    is then looked up as `-1`. -/
theorem cryptoNegotiate_sentinel {cfg : Config} {w : World}
    {cg : CryptoGroup} {a : NegotiateArgs} (env : CallEnv)
    (hc : CurrentGroup w cg) (hfree : cg.idxMgr.idxSet ≠ ∅) (hidx : a.idx = -1) :
    ∃ w', cryptoNegotiate cfg env w a = .ok (false, a, w') := by
  by_cases hcur : cfg.maxGroup ≤ w.scn.curGroup
  · exact ⟨w, cryptoNegotiate_full hcur⟩
  · have hout : ¬ Addressable cg a.idx := by
      rintro ⟨h0, -⟩
      omega
    exact ⟨_, cryptoNegotiate_leaks hc (by omega) (Or.inr hidx) hfree hout⟩

/-- **A FIRST NEGOTIATION NEVER SUCCEEDS**, whatever is free. -/
theorem firstNegotiation_never_ok {cfg : Config} {env : CallEnv} {w : World}
    {cg : CryptoGroup} {a : NegotiateArgs} (hw : Ready cfg w)
    (hcg : w.scn.shmMap.lookup w.scn.curGroup = some cg)
    (hfree : cg.idxMgr.idxSet ≠ ∅) (ha : a.group = -1 ∧ a.idx = -1) :
    ¬ FirstNegotiationOk cfg env w a := by
  rintro ⟨out, w', -, -, -, hcall, -⟩
  obtain ⟨w₁, hrefused⟩ := cryptoNegotiate_sentinel env
    (hw.storeInv.currentGroup hcg) hfree ha.2
  rw [hrefused] at hcall
  exact nomatch hcall

/-- The only index does not reach the client. -/
theorem firstNegotiation_never_ok_oneSlot :
    ¬ FirstNegotiationOk oneSlot quietCall freshWorld firstCall :=
  firstNegotiation_never_ok ready_freshWorld
    (show _ = some freshGroup from rfl) (by decide) ⟨rfl, rfl⟩

/-- The first call of a process is refused, with index `0` free. -/
theorem firstNegotiation_refused :
    Ready oneSlot freshWorld
      ∧ freshWorld.scn.shmMap.lookup 0 = some freshGroup
      ∧ 0 ∈ freshGroup.idxMgr.idxSet
      ∧ cryptoNegotiate oneSlot quietCall freshWorld firstCall
        = .ok (false, firstCall, exhaustedWorld)
      ∧ ¬ FirstNegotiationOk oneSlot quietCall freshWorld firstCall := by
  refine ⟨ready_freshWorld, rfl, by decide, negotiate_freshWorld, ?_⟩
  rintro ⟨out, w', -, -, -, hcall, -⟩
  rw [negotiate_freshWorld] at hcall
  exact nomatch hcall

/-! ## Refusals -/

/-- Nothing that a caller can observe has changed. -/
structure Unchanged (w w' : World) : Prop where
  current : w'.scn.curGroup = w.scn.curGroup
  groups : ∀ k, k ∈ w'.scn.shmMap ↔ k ∈ w.scn.shmMap
  free : ∀ k, (w'.scn.shmMap.lookup k).map (fun cg => cg.idxMgr.idxSet)
    = (w.scn.shmMap.lookup k).map (fun cg => cg.idxMgr.idxSet)
  items : ∀ k cg id i, w.scn.shmMap.lookup k = some cg → cg.shmAddr = .seg id →
    w'.kern.mem id i = w.kern.mem id i

theorem Unchanged.refl (w : World) : Unchanged w w :=
  ⟨rfl, fun _ => Iff.rfl, fun _ => rfl, fun _ _ _ _ _ _ => rfl⟩

/-- A refused call leaves no trace. -/
def RefusalAtomic (cfg : Config) (env : CallEnv) (w : World)
    (a : NegotiateArgs) : Prop :=
  ∀ out w', cryptoNegotiate cfg env w a = .ok (false, out, w') → Unchanged w w'

/-- The call pops an index and then looks up one outside the bounds. -/
def Leaks (cfg : Config) (w : World) (a : NegotiateArgs) : Prop :=
  w.scn.curGroup < cfg.maxGroup ∧ a.First
    ∧ ∃ cg, w.scn.shmMap.lookup w.scn.curGroup = some cg
      ∧ cg.idxMgr.idxSet ≠ ∅ ∧ ¬ (0 ≤ a.idx ∧ a.idx ≤ cg.idxMgr.maxIdx)

/-- Popping from a set that is not empty changes it. -/
theorem popIdx_idxSet_ne {m : StpIdxMgr} (h : m.idxSet ≠ ∅) :
    m.popIdx.2.idxSet ≠ m.idxSet := by
  have hne := Finset.nonempty_iff_ne_empty.mpr h
  rw [StpIdxMgr.popIdx_nonempty hne]
  exact Finset.erase_ne_self.mpr (m.idxSet.min'_mem hne)

/-- After the pop the group is there with an index less. -/
theorem afterPop_lookup_cur {w : World} {a : NegotiateArgs} (cg : CryptoGroup)
    (ha : a.First) :
    (w.afterPop cg a).scn.shmMap.lookup w.scn.curGroup = some (popped cg) := by
  rw [afterPop_first cg ha]
  exact Finmap.lookup_insert _

/-- **REFUSALS**: a refused call is atomic unless it leaks an index. -/
theorem refusal_atomic_iff {cfg : Config} {env : CallEnv} {w : World}
    {a : NegotiateArgs} (hw : Reachable cfg w) :
    RefusalAtomic cfg env w a ↔ ¬ Leaks cfg w a := by
  have hinv := worldInv_of_reachable hw
  cases hi : w.scn.initialized with
  | false =>
      -- with an empty map a call that returns changes nothing
      obtain ⟨hb, -⟩ := hinv.blank hi
      constructor
      · rintro - ⟨-, -, cg, hcg, -⟩
        rw [hb, Finmap.lookup_empty] at hcg
        exact nomatch hcg
      · intro _ out w' hcall
        obtain ⟨-, -, hw'⟩ := cryptoNegotiate_blank hb hcall
        rw [hw']
        exact Unchanged.refl w
  | true =>
      have hstore := hinv.ready hi
      obtain ⟨cg, hcg⟩ := hstore.current
      have hc := hstore.currentGroup hcg
      constructor
      · rintro hatomic ⟨hcur, ha, cg', hcg', hfree, hout⟩
        have heq : cg = cg' := Option.some.inj (hcg.symm.trans hcg')
        subst heq
        have hsame := (hatomic a _
          (cryptoNegotiate_leaks hc hcur ha hfree hout)).free w.scn.curGroup
        rw [afterPop_lookup_cur cg ha, hcg] at hsame
        exact popIdx_idxSet_ne hfree (Option.some.inj hsame)
      · intro hleak out w' hcall
        cases cryptoNegotiate_effect hc hcall with
        | refused _ => exact Unchanged.refl w
        | leaked hcur ha hfree hout =>
            exact absurd ⟨hcur, ha, cg, hcg, hfree, hout⟩ hleak

/-- On the fresh store and the first call. -/
theorem refusal_atomic_iff_oneSlot :
    RefusalAtomic oneSlot quietCall freshWorld firstCall
      ↔ ¬ Leaks oneSlot freshWorld firstCall :=
  refusal_atomic_iff ready_freshWorld.1

/-- The refusal of the first call has used up the only index. -/
theorem refusal_leaks :
    Reachable oneSlot freshWorld
      ∧ cryptoNegotiate oneSlot quietCall freshWorld firstCall
        = .ok (false, firstCall, exhaustedWorld)
      ∧ ¬ RefusalAtomic oneSlot quietCall freshWorld firstCall := by
  refine ⟨ready_freshWorld.1, negotiate_freshWorld, ?_⟩
  intro hatomic
  have hsame := (hatomic firstCall exhaustedWorld negotiate_freshWorld).free 0
  exact absurd hsame (by decide)

/-! ## Bounds of the slot -/

/-- Whatever pointer the lookup answers for `idx`, and whatever item a call with
    that index changes, lies inside the bytes that were asked for. -/
structure SlotInside (cfg : Config) (w : World) (cg : CryptoGroup) (idx : Int) :
    Prop where
  lookup : ∀ p, cg.getCryptoItemByIdx idx = some p →
    0 ≤ p.idx ∧ p.endOffset ≤ segmentSize cfg
  write : ∀ env a ret out w' id i, a.idx = idx →
    cryptoNegotiate cfg env w a = .ok (ret, out, w') →
    w'.kern.mem id i ≠ w.kern.mem id i →
    0 ≤ i ∧ (i + 1) * (sizeofCryptoItem : Int) ≤ segmentSize cfg

/-- The bytes that are asked for, as an integer. -/
theorem segmentSize_cast {cfg : Config} (h : 1 ≤ cfg.maxIdx) :
    (segmentSize cfg : Int) = cfg.maxIdx * 64 := by
  show ((cfg.maxIdx.toNat * 64 : Nat) : Int) = _
  omega

/-- A call changes no item but the one its index names in the current group. -/
theorem cryptoNegotiate_writes {cfg : Config} {env : CallEnv} {w w' : World}
    {cg : CryptoGroup} {a out : NegotiateArgs} {ret : Bool} {id : Nat} {i : Int}
    (hc : CurrentGroup w cg)
    (hcall : cryptoNegotiate cfg env w a = .ok (ret, out, w'))
    (hne : w'.kern.mem id i ≠ w.kern.mem id i) :
    Addressable cg a.idx
      ∧ w.kern.place sizeofCryptoItem cg.shmAddr a.idx = some (id, i) := by
  cases cryptoNegotiate_effect hc hcall with
  | refused _ => exact absurd rfl hne
  | leaked _ _ _ _ => exact absurd (by rw [afterPop_kern]) hne
  | granted loc _ _ hidx hplace =>
      obtain ⟨base, j⟩ := loc
      have hi : i = j := by
        by_contra hi
        exact hne (put_mem_of_ne_idx w.kern base id _ hi)
      have hid : id = base := by
        by_contra hid
        exact hne (put_mem_of_ne_seg w.kern j i _ hid)
      rw [hi, hid]
      exact ⟨hidx, hplace⟩

/-- **SLOT BOUNDS**: only the index equal to the bound leaves the segment. -/
theorem slot_inside_iff {cfg : Config} {w : World} {k : Int} {cg : CryptoGroup}
    {idx : Int} (hw : Ready cfg w) (hcg : w.scn.shmMap.lookup k = some cg) :
    SlotInside cfg w cg idx ↔ idx ≠ cfg.maxIdx := by
  have hinv := hw.storeInv
  have hgrp := hinv.groups k cg hcg
  have hbound := hgrp.bound
  have hrange := hinv.range
  have hsize := segmentSize_cast hrange.1
  constructor
  · -- the item with the index of the bound begins where the segment ends
    intro hin heq
    have hsome : cg.getCryptoItemByIdx idx = some ⟨cg.shmAddr, idx⟩ :=
      getCryptoItemByIdx_eq_some (by omega)
    have hend : (idx + 1) * 64 ≤ (segmentSize cfg : Int) :=
      (hin.lookup _ hsome).2
    omega
  · intro hne
    refine ⟨?_, ?_⟩
    · intro p hp
      by_cases hout : idx < 0 ∨ idx > cg.idxMgr.maxIdx
      · rw [getCryptoItemByIdx_eq_none hout] at hp
        exact nomatch hp
      · rw [getCryptoItemByIdx_eq_some hout] at hp
        rw [← Option.some.inj hp]
        show 0 ≤ idx ∧ (idx + 1) * 64 ≤ (segmentSize cfg : Int)
        omega
    · intro env a ret out w' id i ha hcall hdiff
      obtain ⟨cg₀, hcg₀⟩ := hinv.current
      have hgrp₀ := hinv.groups _ cg₀ hcg₀
      have hbound₀ := hgrp₀.bound
      obtain ⟨⟨h0, h1⟩, hplace⟩ :=
        cryptoNegotiate_writes (hinv.currentGroup hcg₀) hcall hdiff
      -- the index is not the bound, so the item is in the group's own pages
      obtain ⟨base, haddr⟩ := place_eq_some hplace
      rw [hgrp₀.place haddr h0 (by omega)] at hplace
      obtain ⟨-, hi⟩ := Prod.mk.inj (Option.some.inj hplace)
      show 0 ≤ i ∧ (i + 1) * 64 ≤ (segmentSize cfg : Int)
      omega

/-- The only slot there is. -/
theorem slot_inside_iff_oneSlot :
    SlotInside oneSlot freshWorld freshGroup 0 ↔ (0 : Int) ≠ oneSlot.maxIdx :=
  slot_inside_iff (k := 0) ready_freshWorld rfl

/-- In a segment of one item the lookup answers a pointer to the second. -/
theorem slot_outside :
    Ready oneSlot freshWorld
      ∧ freshWorld.scn.shmMap.lookup 0 = some freshGroup
      ∧ segmentSize oneSlot = 64
      ∧ freshGroup.getCryptoItemByIdx 1 = some { base := .seg 1, idx := 1 }
      ∧ ¬ SlotInside oneSlot freshWorld freshGroup 1 := by
  refine ⟨ready_freshWorld, rfl, rfl, rfl, ?_⟩
  intro hin
  exact absurd (hin.lookup { base := .seg 1, idx := 1 } rfl).2 (by decide)

/-! ## Renegotiations -/

/-- A call that names slot `i` of group `g` works on that slot. -/
structure AddressesSlot (cfg : Config) (w : World) (g i : Int) : Prop where
  own : ∀ env a out w' cg, a.group = g → a.idx = i →
    w.scn.shmMap.lookup g = some cg →
    cryptoNegotiate cfg env w a = .ok (true, out, w') →
    ∃ id, cg.shmAddr = .seg id ∧ w'.kern = filled cfg env a w.kern id
  others : ∀ env a out w' k cg id, a.group = g → a.idx = i →
    g ∈ w.scn.shmMap → cryptoNegotiate cfg env w a = .ok (true, out, w') →
    k ≠ g → w.scn.shmMap.lookup k = some cg → cg.shmAddr = .seg id →
    w'.kern.mem id i = w.kern.mem id i
  absent : ∀ env a, a.group = g → a.idx = i → g ∉ w.scn.shmMap →
    ∃ out w', cryptoNegotiate cfg env w a = .ok (false, out, w')

/-- Group `g` is the current one and shares its segment with no other. -/
def CurrentAlone (w : World) (g : Int) : Prop :=
  g = w.scn.curGroup ∧ ∀ k cg cg', k ≠ g →
    w.scn.shmMap.lookup g = some cg → w.scn.shmMap.lookup k = some cg' →
    cg'.shmAddr ≠ cg.shmAddr

/-- Every call is refused, or `g` is in the map and no call gets past the
    current group's failed attachment, or `g` is the current group. -/
def Coincides (cfg : Config) (w : World) (g : Int) : Prop :=
  cfg.maxGroup ≤ w.scn.curGroup
    ∨ (g ∈ w.scn.shmMap ∧ ∃ cg,
        w.scn.shmMap.lookup w.scn.curGroup = some cg ∧ cg.shmAddr = .failed)
    ∨ CurrentAlone w g

/-- `-1` is not among the groups that are named. -/
theorem not_first_of_nonneg {a : NegotiateArgs} (hg : 0 ≤ a.group)
    (h0 : 0 ≤ a.idx) : ¬ a.First := by
  rintro (h | h) <;> omega

/-- Some clock makes the call change the item it writes. -/
theorem exists_env_expires_ne (cfg : Config) (a : NegotiateArgs)
    (old : CryptoItem) :
    ∃ env, negotiatedItem cfg env a old ≠ old := by
  refine ⟨{ quietCall with now := old.expires + 1 - cfg.tokenExpires }, ?_⟩
  intro heq
  have hexp : old.expires + 1 - cfg.tokenExpires + cfg.tokenExpires
      = old.expires := congrArg CryptoItem.expires heq
  omega

section Renegotiation

variable {cfg : Config} {w : World} {cg : CryptoGroup} {g i : Int}

/-- With the current group attached every renegotiation is granted there. -/
theorem renegotiation_granted {env : CallEnv} {a : NegotiateArgs} {id : Nat}
    (hinv : StoreInv cfg w)
    (hcg : w.scn.shmMap.lookup w.scn.curGroup = some cg)
    (hcur : w.scn.curGroup < cfg.maxGroup) (haddr : cg.shmAddr = .seg id)
    (hg : 0 ≤ a.group) (h0 : 0 ≤ a.idx) (hi : a.idx < cfg.maxIdx) :
    cryptoNegotiate cfg env w a
      = .ok (true, grantedArgs cfg env a, w.granted cfg env cg a id) := by
  have hgrp := hinv.groups _ cg hcg
  have hbound := hgrp.bound
  exact cryptoNegotiate_grants (hinv.currentGroup hcg) hcur
    (not_first_of_nonneg hg h0) ⟨h0, by omega⟩ (hgrp.place haddr h0 hi)

/-- The fresh store grants every request that names a group and slot `0`. -/
theorem freshWorld_grants (env : CallEnv) {a : NegotiateArgs}
    (hg : 0 ≤ a.group) (hi : a.idx = 0) :
    cryptoNegotiate oneSlot env freshWorld a
      = .ok (true, grantedArgs oneSlot env a,
          freshWorld.granted oneSlot env freshGroup a 1) :=
  renegotiation_granted ready_freshWorld.storeInv
    (show _ = some freshGroup from rfl) Int.one_pos rfl hg (Int.le_of_eq hi.symm)
    (by rw [hi]; exact Int.one_pos)

/-- Behind `(void*)-1` it faults. -/
theorem renegotiation_faults {env : CallEnv} {a : NegotiateArgs}
    (hinv : StoreInv cfg w)
    (hcg : w.scn.shmMap.lookup w.scn.curGroup = some cg)
    (hcur : w.scn.curGroup < cfg.maxGroup) (haddr : cg.shmAddr = .failed)
    (hg : 0 ≤ a.group) (h0 : 0 ≤ a.idx) (hi : a.idx < cfg.maxIdx) :
    cryptoNegotiate cfg env w a = .error .segv := by
  have hbound := (hinv.groups _ cg hcg).bound
  rw [cryptoNegotiate_again (hinv.currentGroup hcg) hcur
    (not_first_of_nonneg hg h0)]
  refine negotiateItem_unmapped ⟨h0, by omega⟩ ?_
  rw [haddr]
  rfl

/-- A granted renegotiation changes slot `i` of the current segment only. -/
theorem granted_mem (env : CallEnv) (a : NegotiateArgs) {id id' : Nat}
    (h : id' ≠ id) (j : Int) :
    (w.granted cfg env cg a id).kern.mem id' j = w.kern.mem id' j :=
  put_mem_of_ne_seg w.kern a.idx j _ h

/-- The slots of groups in other segments survive the call, those of groups
    that share the current segment do not. -/
theorem addressesSlot_iff_alone {id : Nat} (hinv : StoreInv cfg w)
    (hcg : w.scn.shmMap.lookup w.scn.curGroup = some cg)
    (hcur : w.scn.curGroup < cfg.maxGroup) (haddr : cg.shmAddr = .seg id)
    (hg : 0 ≤ g) (h0 : 0 ≤ i) (hi : i < cfg.maxIdx) :
    AddressesSlot cfg w g i ↔ CurrentAlone w g := by
  have hgrants : ∀ env a, a.group = g → a.idx = i →
      cryptoNegotiate cfg env w a
        = .ok (true, grantedArgs cfg env a, w.granted cfg env cg a id) := by
    intro env a hag hai
    exact renegotiation_granted hinv hcg hcur haddr (by omega) (by omega)
      (by omega)
  constructor
  · intro hok
    let a : NegotiateArgs := { group := g, idx := i, expires := 0, key := [] }
    obtain ⟨env, hne⟩ := exists_env_expires_ne cfg a (w.kern.mem id i)
    have hcall := hgrants env a rfl rfl
    -- a group in the map whose slot `i` is the one written must be `g` itself
    have honly : ∀ k cg', g ∈ w.scn.shmMap → w.scn.shmMap.lookup k = some cg' →
        cg'.shmAddr = .seg id → k = g := by
      intro k cg' hmem hk hk'
      by_contra hkg
      have hsame := hok.others env a _ _ k cg' id rfl rfl hmem hcall hkg hk hk'
      rw [show (w.granted cfg env cg a id).kern.mem id i
        = negotiatedItem cfg env a (w.kern.mem id i) from
          put_mem_same w.kern id i _] at hsame
      exact hne hsame
    have hmem : g ∈ w.scn.shmMap := by
      by_contra hmem
      obtain ⟨out, w', hrefused⟩ := hok.absent env a rfl rfl hmem
      rw [hcall] at hrefused
      exact nomatch hrefused
    have hgcur : g = w.scn.curGroup := (honly _ cg hmem hcg haddr).symm
    refine ⟨hgcur, ?_⟩
    intro k cg₁ cg' hkg hcg₁ hk hshared
    have heq : cg = cg₁ := by
      rw [hgcur] at hcg₁
      exact Option.some.inj (hcg.symm.trans hcg₁)
    rw [← heq] at hshared
    exact hkg (honly k cg' hmem hk (hshared.trans haddr))
  · rintro ⟨hgcur, halone⟩
    refine ⟨?_, ?_, ?_⟩
    · intro env a out w' cg' hag hai hcg' hcall
      have heq : cg = cg' := by
        rw [hgcur] at hcg'
        exact Option.some.inj (hcg.symm.trans hcg')
      rw [hgrants env a hag hai] at hcall
      cases hcall
      exact ⟨id, heq ▸ haddr, rfl⟩
    · intro env a out w' k cg' id' hag hai _ hcall hkg hk hid'
      rw [hgrants env a hag hai] at hcall
      cases hcall
      refine granted_mem env a ?_ i
      intro hid
      refine halone k cg cg' hkg (hgcur ▸ hcg) hk ?_
      rw [hid', haddr, hid]
    · intro env a _ _ hmem
      refine absurd ?_ hmem
      rw [hgcur]
      exact Finmap.mem_of_lookup_eq_some hcg

/-- Behind a failed attachment no call returns. -/
theorem addressesSlot_iff_mem (hinv : StoreInv cfg w)
    (hcg : w.scn.shmMap.lookup w.scn.curGroup = some cg)
    (hcur : w.scn.curGroup < cfg.maxGroup) (haddr : cg.shmAddr = .failed)
    (hg : 0 ≤ g) (h0 : 0 ≤ i) (hi : i < cfg.maxIdx) :
    AddressesSlot cfg w g i ↔ g ∈ w.scn.shmMap := by
  have hfaults : ∀ env a, a.group = g → a.idx = i →
      cryptoNegotiate cfg env w a = .error .segv := by
    intro env a hag hai
    exact renegotiation_faults hinv hcg hcur haddr (by omega) (by omega)
      (by omega)
  constructor
  · intro hok
    by_contra hmem
    obtain ⟨out, w', hrefused⟩ := hok.absent quietCall
      { group := g, idx := i, expires := 0, key := [] } rfl rfl hmem
    rw [hfaults _ _ rfl rfl] at hrefused
    exact nomatch hrefused
  · intro hmem
    refine ⟨?_, ?_, ?_⟩
    · intro env a out w' cg' hag hai _ hcall
      rw [hfaults env a hag hai] at hcall
      exact nomatch hcall
    · intro env a out w' k cg' id hag hai _ hcall
      rw [hfaults env a hag hai] at hcall
      exact nomatch hcall
    · intro env a _ _ habs
      exact absurd hmem habs

/-- When every call is refused the clause holds of all slots. -/
theorem addressesSlot_of_full (h : cfg.maxGroup ≤ w.scn.curGroup) :
    AddressesSlot cfg w g i := by
  refine ⟨?_, ?_, ?_⟩
  · intro env a out w' cg' _ _ _ hcall
    rw [cryptoNegotiate_full h] at hcall
    exact nomatch hcall
  · intro env a out w' k cg' id _ _ _ hcall
    rw [cryptoNegotiate_full h] at hcall
    exact nomatch hcall
  · intro env a _ _ _
    exact ⟨a, w, cryptoNegotiate_full h⟩

end Renegotiation

/-- **RENEGOTIATIONS**: the slot a call names is the slot it works on exactly
    when the client's group and `cur_group_` coincide. -/
theorem addresses_slot_iff {cfg : Config} {w : World} {g i : Int}
    (hw : Ready cfg w) (hg : 0 ≤ g) (h0 : 0 ≤ i) (hi : i < cfg.maxIdx) :
    AddressesSlot cfg w g i ↔ Coincides cfg w g := by
  have hinv := hw.storeInv
  obtain ⟨cg, hcg⟩ := hinv.current
  by_cases hcur : cfg.maxGroup ≤ w.scn.curGroup
  · exact ⟨fun _ => Or.inl hcur, fun _ => addressesSlot_of_full hcur⟩
  have hcur' : w.scn.curGroup < cfg.maxGroup := by omega
  rcases (hinv.groups _ cg hcg).addr with haddr | ⟨id, haddr, -, -⟩
  · rw [addressesSlot_iff_mem hinv hcg hcur' haddr hg h0 hi]
    constructor
    · intro hmem
      exact Or.inr (Or.inl ⟨hmem, cg, hcg, haddr⟩)
    · rintro (h | ⟨hmem, -⟩ | ⟨hgcur, -⟩)
      · exact absurd h hcur
      · exact hmem
      · rw [hgcur]
        exact Finmap.mem_of_lookup_eq_some hcg
  · rw [addressesSlot_iff_alone hinv hcg hcur' haddr hg h0 hi]
    constructor
    · intro halone
      exact Or.inr (Or.inr halone)
    · rintro (h | ⟨-, cg', hcg', hfailed⟩ | halone)
      · exact absurd h hcur
      · have heq : cg = cg' := Option.some.inj (hcg.symm.trans hcg')
        rw [← heq, haddr] at hfailed
        exact nomatch hfailed
      · exact halone

/-- The only group is the current one. -/
theorem addresses_slot_iff_oneSlot :
    AddressesSlot oneSlot freshWorld 0 0 ↔ Coincides oneSlot freshWorld 0 :=
  addresses_slot_iff ready_freshWorld (by decide) (by decide) (by decide)

/-- A call that names a group the map does not have is granted. -/
theorem absent_group_granted :
    Ready oneSlot freshWorld ∧ (5 : Int) ∉ freshWorld.scn.shmMap
      ∧ (∃ out w', cryptoNegotiate oneSlot quietCall freshWorld
          { firstCall with group := 5, idx := 0 } = .ok (true, out, w'))
      ∧ ¬ AddressesSlot oneSlot freshWorld 5 0 := by
  refine ⟨ready_freshWorld, by decide, ⟨_, _, rfl⟩, ?_⟩
  intro hok
  obtain ⟨out, w', hrefused⟩ := hok.absent quietCall
    { firstCall with group := 5, idx := 0 } rfl rfl (by decide)
  exact nomatch hrefused

end StpContract
