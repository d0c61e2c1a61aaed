import StpPlatform.NegotiateContracts

/-! # Restarting over segments that are already there

    Shared memory survives the process, the free-index sets do not: `Init`
    attaches whatever segments it finds and constructs every index manager with
    all indices free.  `Recovered` says what a restart would have to give — no
    free index belongs to a session that has not expired, so no later first
    negotiation pops such an index.

    Which segments `Init` attaches is determined by the kernel state and the
    system's answers alone: `swept` follows the names that the rounds with an
    invalid key remove, `Adopts` says which segments end up in the map, and
    `loopState_initLoop` connects them to the loop.  With that,
    `recovered_iff` says when the restart is sound: exactly if no session in an
    adopted segment is still running. -/

namespace StpRestart

open LabelledRun StpIdx SysVShm StpDetail StpNegotiate StpInvariant StpContract

/-! ## What a restart should give -/

/-- The slot holds a session that has not expired. -/
def InUse (now : Int) (item : CryptoItem) : Prop :=
  item.useCrypto = true ∧ now < item.expires

/-- A first negotiation that returned. -/
def FirstStep (cfg : Config) (w : World) (e : CallEnv × NegotiateArgs)
    (w' : World) : Prop :=
  e.2.First ∧ ∃ ret out, cryptoNegotiate cfg e.1 w e.2 = .ok (ret, out, w')

/-- The free indices of the store `w` are not in use at time `now`, and no
    sequence of first negotiations comes to pop the index of a session that
    `w` holds and that has not expired by then. -/
structure Recovered (cfg : Config) (now : Int) (w : World) : Prop where
  free : ∀ k cg id i, w.scn.shmMap.lookup k = some cg → cg.shmAddr = .seg id →
    i ∈ cg.idxMgr.idxSet → ¬ InUse now (w.kern.mem id i)
  pops : ∀ es w' cg id t, Run (FirstStep cfg) w es w' → now ≤ t →
    w'.scn.shmMap.lookup w'.scn.curGroup = some cg → cg.shmAddr = .seg id →
    cg.idxMgr.idxSet ≠ ∅ → ¬ InUse t (w.kern.mem id cg.idxMgr.popIdx.1)

/-! ## First negotiations only take indices -/

/-- Every group of `w'` is one of `w` with some indices taken. -/
def Taken (w w' : World) : Prop :=
  ∀ k cg', w'.scn.shmMap.lookup k = some cg' →
    ∃ cg, w.scn.shmMap.lookup k = some cg ∧ cg'.shmAddr = cg.shmAddr
      ∧ cg'.idxMgr.idxSet ⊆ cg.idxMgr.idxSet

/-- An index that is popped is taken. -/
theorem taken_afterPop {w : World} {cg : CryptoGroup} (a : NegotiateArgs)
    (hcg : w.scn.shmMap.lookup w.scn.curGroup = some cg) :
    Taken w (w.afterPop cg a) := by
  intro k cg' hk
  by_cases ha : a.First
  · rw [afterPop_first cg ha] at hk
    rcases lookup_setGroup_cases hk with ⟨hkc, hcg'⟩ | ⟨-, hk'⟩
    · rw [hkc, hcg']
      exact ⟨cg, hcg, rfl, cg.idxMgr.popIdx_subset⟩
    · exact ⟨cg', hk', rfl, Finset.Subset.refl _⟩
  · rw [afterPop_again cg ha] at hk
    exact ⟨cg', hk, rfl, Finset.Subset.refl _⟩

/-- Whatever a call does, it gives no index back. -/
theorem taken_negotiate {cfg : Config} {env : CallEnv} {w w' : World}
    {a out : NegotiateArgs} {ret : Bool} (h : StoreInv cfg w)
    (hcall : cryptoNegotiate cfg env w a = .ok (ret, out, w')) :
    Taken w w' := by
  obtain ⟨cg, hcg⟩ := h.current
  cases cryptoNegotiate_effect (h.currentGroup hcg) hcall with
  | refused _ => exact fun k cg' hk => ⟨cg', hk, rfl, Finset.Subset.refl _⟩
  | leaked _ _ _ _ => exact taken_afterPop a hcg
  | granted loc _ _ _ _ => exact taken_afterPop a hcg

theorem Taken.trans {w₁ w₂ w₃ : World} (h₁ : Taken w₁ w₂) (h₂ : Taken w₂ w₃) :
    Taken w₁ w₃ := by
  intro k cg₃ hk₃
  obtain ⟨cg₂, hk₂, haddr₂, hsub₂⟩ := h₂ k cg₃ hk₃
  obtain ⟨cg₁, hk₁, haddr₁, hsub₁⟩ := h₁ k cg₂ hk₂
  exact ⟨cg₁, hk₁, haddr₂.trans haddr₁, hsub₂.trans hsub₁⟩

/-- **FIRST NEGOTIATIONS ONLY TAKE INDICES**, over any sequence of them. -/
theorem taken_of_run {cfg : Config} {w w' : World}
    {es : List (CallEnv × NegotiateArgs)} (h : StoreInv cfg w)
    (hrun : Run (FirstStep cfg) w es w') : Taken w w' := by
  have hboth : StoreInv cfg w' ∧ Taken w w' := by
    refine hrun.invariant (fun t => StoreInv cfg t ∧ Taken w t) ?_ ?_
    · exact ⟨h, fun k cg hk => ⟨cg, hk, rfl, Finset.Subset.refl _⟩⟩
    · rintro t e u ⟨hinv, htaken⟩ ⟨-, ret, out, hcall⟩
      exact ⟨storeInv_negotiate hinv hcall,
        htaken.trans (taken_negotiate hinv hcall)⟩
  exact hboth.2

/-- The second half of `Recovered` follows from the first. -/
theorem recovered_of_free {cfg : Config} {now : Int} {w : World}
    (h : StoreInv cfg w)
    (hfree : ∀ k cg id i, w.scn.shmMap.lookup k = some cg →
      cg.shmAddr = .seg id → i ∈ cg.idxMgr.idxSet →
      ¬ InUse now (w.kern.mem id i)) :
    Recovered cfg now w := by
  refine ⟨hfree, ?_⟩
  rintro es w' cg' id t hrun hle hcg' haddr hne ⟨huse, hexp⟩
  obtain ⟨cg, hcg, haddr', hsub⟩ := taken_of_run h hrun _ cg' hcg'
  -- what is popped later was free at the start
  have hmem := hsub (StpIdxMgr.popIdx_fst_mem hne)
  refine hfree _ cg id _ hcg (haddr'.symm.trans haddr) hmem ⟨huse, ?_⟩
  omega

/-! ## Which segments `Init` adopts -/

/-- The segments that still have their name when round `n` begins: a group
    whose key is invalid removes the segment its unset `shmid` names. -/
def swept (env : InitEnv) (kern : Kernel CryptoItem) : Nat → Kernel CryptoItem
  | 0 => kern
  | n + 1 =>
      if env.ftok n = -1 ∧ (env.junk n).shmid ≠ -1 then
        (swept env kern n).rmid (env.junk n).shmid
      else swept env kern n

/-- Round `n` finds segment `s` for its group. -/
def Finds (cfg : Config) (env : InitEnv) (kern : Kernel CryptoItem) (n : Nat)
    (s : Segment) : Prop :=
  Attachable (env.faults n) (env.ftok n) (swept env kern n) (segmentSize cfg) s

/-- Segment `s` of the kernel becomes the segment of a group: a round of the
    loop attaches it, or no round finds any and the `shmget` that should create
    group `0`'s segment answers `s`. -/
def Adopts (cfg : Config) (env : InitEnv) (kern : Kernel CryptoItem)
    (s : Segment) : Prop :=
  (∃ n, n < cfg.maxGroup.toNat ∧ Finds cfg env kern n s
      ∧ (env.faults n).attach = false)
    ∨ ((∀ n s', n < cfg.maxGroup.toNat → ¬ Finds cfg env kern n s')
      ∧ Attachable { env.createFaults with excl := none } env.createFtok
          (swept env kern cfg.maxGroup.toNat) (segmentSize cfg) s
      ∧ env.createFaults.attach = false)

section Swept

variable (env : InitEnv) (kern : Kernel CryptoItem)

/-- The failed attempts before have touched nothing that was there. -/
theorem extends_swept (n : Nat) : Extends kern (swept env kern n) := by
  induction n with
  | zero => exact Extends.refl kern
  | succ n ih =>
      by_cases h : env.ftok n = -1 ∧ (env.junk n).shmid ≠ -1
      · rw [show swept env kern (n + 1)
          = (swept env kern n).rmid (env.junk n).shmid from if_pos h]
        exact ih.trans (extends_rmid _ _)
      · rw [show swept env kern (n + 1) = swept env kern n from if_neg h]
        exact ih

theorem swept_sub (n : Nat) : ∀ s ∈ (swept env kern n).segs, s ∈ kern.segs := by
  induction n with
  | zero => exact fun _ hs => hs
  | succ n ih =>
      intro s hs
      by_cases h : env.ftok n = -1 ∧ (env.junk n).shmid ≠ -1
      · rw [show swept env kern (n + 1)
          = (swept env kern n).rmid (env.junk n).shmid from if_pos h] at hs
        exact ih s (List.mem_of_mem_filter hs)
      · rw [show swept env kern (n + 1) = swept env kern n from if_neg h] at hs
        exact ih s hs

theorem swept_old (n : Nat) : ∀ s ∈ (swept env kern n).segs,
    s.id < kern.nextId :=
  fun s hs => kern.fresh s (swept_sub env kern n s hs)

end Swept

/-- `Attachable` reads the names and the lengths of named segments only. -/
theorem attachable_congr {f : ShmFaults} {key : Int} {k k' : Kernel CryptoItem}
    {size : Nat} {s : Segment} (hsegs : k'.segs = k.segs)
    (hlen : ∀ s ∈ k.segs, k'.len s.id = k.len s.id) :
    Attachable f key k' size s ↔ Attachable f key k size s := by
  constructor
  · rintro ⟨hv, hx, hf, hg, hl⟩
    rw [find_congr hsegs] at hf
    rw [hlen s (find_mem hf)] at hl
    exact ⟨hv, hx, hf, hg, hl⟩
  · rintro ⟨hv, hx, hf, hg, hl⟩
    rw [← hlen s (find_mem hf)] at hl
    exact ⟨hv, hx, (find_congr hsegs key).trans hf, hg, hl⟩

/-- The store after `n` rounds of the attach loop over `kern`: the groups in the
    map are those whose round found a segment. -/
structure LoopState (cfg : Config) (env : InitEnv) (kern : Kernel CryptoItem)
    (n : Nat) (w : World) : Prop where
  names : w.kern.segs = (swept env kern n).segs
  extends_kern : Extends kern w.kern
  found : ∀ k cg, w.scn.shmMap.lookup k = some cg → ∃ (m : Nat) (s : Segment),
    m < n ∧ k = m ∧ Finds cfg env kern m s
      ∧ cg.shmAddr = Kernel.shmat (env.faults m).attach s.id
      ∧ ∀ i, i ∈ cg.idxMgr.idxSet ↔ 0 ≤ i ∧ i < cfg.maxIdx
  entered : ∀ (m : Nat) (s : Segment), m < n → Finds cfg env kern m s →
    ∃ cg, w.scn.shmMap.lookup (m : Int) = some cg

section Loop

variable {cfg : Config} {env : InitEnv} {kern : Kernel CryptoItem} {n : Nat}
  {w w' : World}

/-- What is named in the loop has the length it had at the start. -/
theorem LoopState.len (h : LoopState cfg env kern n w) :
    ∀ s ∈ (swept env kern n).segs, w.kern.len s.id = (swept env kern n).len s.id := by
  intro s hs
  have hold := swept_old env kern n s hs
  rw [h.extends_kern.len s.id hold, (extends_swept env kern n).len s.id hold]

/-- Groups that were entered before make no difference. -/
theorem LoopState.attachable_iff (h : LoopState cfg env kern n w)
    (f : ShmFaults) (key : Int) (s : Segment) :
    Attachable f key w.kern (segmentSize cfg) s
      ↔ Attachable f key (swept env kern n) (segmentSize cfg) s :=
  attachable_congr h.names h.len

/-- One turn of the loop adopts a segment or sweeps one away. -/
theorem loopState_step (h : LoopState cfg env kern n w)
    (hs : initStep cfg env n w = .ok w') : LoopState cfg env kern (n + 1) w' := by
  obtain ⟨cg, hnew, hcase⟩ := initStep_cases hs
  obtain ⟨mgr, hm, hcg⟩ := CryptoGroup.new_ok hnew
  have hfull := (StpIdxMgr.new_ok hm).2.2
  have hkey : cg.key = env.ftok n := by rw [hcg]
  have hshmid : cg.shmid = (env.junk n).shmid := by rw [hcg]
  rcases hcase with ⟨s, hatt, hw⟩ | ⟨hno, kern', hfail, hw⟩
  · -- the round finds `s`
    have hfinds : Finds cfg env kern n s := by
      rw [hkey, h.attachable_iff] at hatt
      exact hatt
    have hnone : w.scn.shmMap.lookup (n : Int) = none := by
      cases hl : w.scn.shmMap.lookup (n : Int) with
      | none => rfl
      | some cg' =>
          obtain ⟨m, -, hlt, heq, -⟩ := h.found _ _ hl
          omega
    subst hw
    refine ⟨?_, h.extends_kern, ?_, ?_⟩
    · rw [show swept env kern (n + 1) = swept env kern n from
        if_neg (fun hb => hfinds.valid hb.1)]
      exact h.names
    · intro k cg' hk
      rcases lookup_stdInsert_cases hnone hk with ⟨hkn, hcg'⟩ | ⟨-, hk'⟩
      · rw [hcg', hcg]
        exact ⟨n, s, Nat.lt_succ_self n, hkn, hfinds, rfl, hfull⟩
      · obtain ⟨m, s', hlt, hrest⟩ := h.found k cg' hk'
        exact ⟨m, s', Nat.lt_succ_of_lt hlt, hrest⟩
    · intro m s' hlt hf
      by_cases hmn : m = n
      · rw [hmn]
        exact ⟨_, lookup_stdInsert_self _ hnone⟩
      · obtain ⟨cg', hcg'⟩ := h.entered m s' (by omega) hf
        refine ⟨cg', (lookup_stdInsert _ hnone m).trans ?_⟩
        rw [if_neg (by omega)]
        exact hcg'
  · -- the round finds nothing
    subst hw
    refine ⟨?_, h.extends_kern.trans (failedAttach_extends hfail), ?_, ?_⟩
    · show kern'.segs = _
      rw [failedAttach_segs hfail, hkey, hshmid]
      by_cases hb : env.ftok n = -1 ∧ (env.junk n).shmid ≠ -1
      · rw [if_pos hb, show swept env kern (n + 1)
          = (swept env kern n).rmid (env.junk n).shmid from if_pos hb,
          rmid_segs, rmid_segs, h.names]
      · rw [if_neg hb, show swept env kern (n + 1) = swept env kern n from
          if_neg hb, h.names]
    · intro k cg' hk
      obtain ⟨m, s', hlt, hrest⟩ := h.found k cg' hk
      exact ⟨m, s', Nat.lt_succ_of_lt hlt, hrest⟩
    · intro m s' hlt hf
      by_cases hmn : m = n
      · subst hmn
        refine absurd ?_ (hno s')
        rw [hkey, h.attachable_iff]
        exact hf
      · exact h.entered m s' (by omega) hf

/-- **THE LOOP ATTACHES WHAT IT FINDS**. -/
theorem loopState_initLoop {w₀ : World} (h0 : LoopState cfg env kern 0 w₀) :
    ∀ (n : Nat) (w : World), initLoop cfg env w₀ n = .ok w →
      LoopState cfg env kern n w := by
  intro n
  induction n with
  | zero =>
      intro w h
      cases h
      exact h0
  | succ n ih =>
      intro w h
      simp only [initLoop] at h
      cases hl : initLoop cfg env w₀ n with
      | error e =>
          rw [hl] at h
          cases h
      | ok w₁ =>
          rw [hl] at h
          exact loopState_step (ih w₁ hl) h

/-- The segment a round finds is determined by the kernel. -/
theorem Finds.unique {s s' : Segment} (h : Finds cfg env kern n s)
    (h' : Finds cfg env kern n s') : s = s' :=
  Option.some.inj (h.found.symm.trans h'.found)

/-- An address that is one is that of the segment asked for. -/
theorem shmat_eq_seg {fault : Bool} {id id' : Nat}
    (h : Kernel.shmat fault id = .seg id') : fault = false ∧ id = id' := by
  cases fault with
  | true => exact nomatch h
  | false => exact ⟨rfl, Addr.seg.inj h⟩

/-- After a loop that attached something, the items behind the free indices
    are those of the adopted segments. -/
theorem LoopState.free_iff {now : Int}
    (h : LoopState cfg env kern cfg.maxGroup.toNat w)
    (hne : ∃ k cg, w.scn.shmMap.lookup k = some cg) :
    (∀ k cg id i, w.scn.shmMap.lookup k = some cg → cg.shmAddr = .seg id →
        i ∈ cg.idxMgr.idxSet → ¬ InUse now (w.kern.mem id i))
      ↔ ∀ s i, Adopts cfg env kern s → 0 ≤ i → i < cfg.maxIdx →
        ¬ InUse now (kern.mem s.id i) := by
  have hold : ∀ m s, Finds cfg env kern m s → s.id < kern.nextId :=
    fun m s hf => swept_old env kern m s (find_mem hf.found)
  constructor
  · rintro hfree s i (⟨m, hlt, hf, hatt⟩ | ⟨hnone, -⟩) h0 hi
    · obtain ⟨cg, hcg⟩ := h.entered m s hlt hf
      obtain ⟨m', s', -, hm, hf', haddr, hfull⟩ := h.found _ cg hcg
      -- rounds are told apart by the key of the map
      have hmm : m' = m := by omega
      subst hmm
      rw [hf'.unique hf, hatt] at haddr
      rw [← h.extends_kern.mem s.id (hold m' s hf)]
      exact hfree _ cg s.id i hcg haddr ((hfull i).mpr ⟨h0, hi⟩)
    · obtain ⟨k, cg, hk⟩ := hne
      obtain ⟨m, s', hlt, -, hf, -⟩ := h.found k cg hk
      exact absurd hf (hnone m s' hlt)
  · intro hall k cg id i hk haddr hi
    obtain ⟨m, s, hlt, -, hf, haddr', hfull⟩ := h.found k cg hk
    obtain ⟨hatt, hid⟩ := shmat_eq_seg (haddr'.symm.trans haddr)
    rw [← hid, h.extends_kern.mem s.id (hold m s hf)]
    obtain ⟨h0, hlt'⟩ := (hfull i).mp hi
    exact hall s i (Or.inl ⟨m, hlt, hf, hatt⟩) h0 hlt'

/-- When nothing was attached and group `0`'s segment was created, the items
    behind the free indices are new or those of the segment `shmget` answered. -/
theorem LoopState.created_free_iff (now : Int) {cg : CryptoGroup} {id : Nat}
    {kern' : Kernel CryptoItem}
    (h : LoopState cfg env kern cfg.maxGroup.toNat w)
    (hemp : w.scn.shmMap = ∅)
    (hnew : CryptoGroup.new 0 cfg.maxIdx env.createFtok env.createJunk = .ok cg)
    (hkey : cg.key ≠ -1)
    (hget : w.kern.shmget env.createFaults.get cg.key (segmentSize cfg) false
      .zeroed = (.ok id, kern')) :
    (∀ id' i, Kernel.shmat env.createFaults.attach id = .seg id' →
        i ∈ cg.idxMgr.idxSet → ¬ InUse now (kern'.mem id' i))
      ↔ ∀ s i, Adopts cfg env kern s → 0 ≤ i → i < cfg.maxIdx →
        ¬ InUse now (kern.mem s.id i) := by
  obtain ⟨mgr, hm, hcg⟩ := CryptoGroup.new_ok hnew
  have hfull : ∀ i, i ∈ cg.idxMgr.idxSet ↔ 0 ≤ i ∧ i < cfg.maxIdx := by
    rw [hcg]
    exact (StpIdxMgr.new_ok hm).2.2
  have hckey : cg.key = env.createFtok := by rw [hcg]
  -- the loop left the map empty, so no round found a segment
  have hnone : ∀ m s, m < cfg.maxGroup.toNat → ¬ Finds cfg env kern m s := by
    intro m s hlt hf
    obtain ⟨cg', hcg'⟩ := h.entered m s hlt hf
    rw [hemp, Finmap.lookup_empty] at hcg'
    exact nomatch hcg'
  obtain ⟨hfault, hcase⟩ := shmget_ok_cases hget
  have hold : ∀ s, w.kern.find cg.key = some s → s.id < kern.nextId := by
    intro s hs
    refine swept_old env kern cfg.maxGroup.toNat s ?_
    rw [← h.names]
    exact find_mem hs
  constructor
  · rintro hfree s i (⟨m, hlt, hf, -⟩ | ⟨-, hatt, hshmat⟩) h0 hi
    · exact absurd hf (hnone m s hlt)
    · rw [← h.attachable_iff, ← hckey] at hatt
      rcases hcase with ⟨hno, -⟩ | ⟨s', hs', hid, -, hk⟩
      · exact nomatch hno.symm.trans hatt.found
      · have hss : s' = s := Option.some.inj (hs'.symm.trans hatt.found)
        subst hss
        rw [hshmat, hid, hk] at hfree
        rw [← h.extends_kern.mem s'.id (hold s' hs')]
        exact hfree s'.id i rfl ((hfull i).mpr ⟨h0, hi⟩)
  · intro hall id' i haddr hi
    obtain ⟨hshmat, hid'⟩ := shmat_eq_seg haddr
    obtain ⟨h0, hlt⟩ := (hfull i).mp hi
    rw [← hid']
    rcases hcase with ⟨-, hid, hk⟩ | ⟨s, hs, hid, hlen, hk⟩
    · -- a new segment is zero-filled
      rw [hid, hk, create_mem_self]
      rintro ⟨huse, -⟩
      exact nomatch huse
    · rw [hid, hk, h.extends_kern.mem s.id (hold s hs)]
      refine hall s i (Or.inr ⟨fun m s' hm' => hnone m s' hm', ?_, hshmat⟩) h0 hlt
      rw [← h.attachable_iff, ← hckey]
      exact ⟨hkey, rfl, hs, hfault, hlen⟩

end Loop

/-- The loop of `Init` starts on the kernel as it is. -/
theorem loopState_start {cfg : Config} {env : InitEnv} {w₀ w : World}
    (hl : initLoop cfg env { w₀ with scn := { w₀.scn with shmMap := ∅ } }
      cfg.maxGroup.toNat = .ok w) :
    LoopState cfg env w₀.kern cfg.maxGroup.toNat w := by
  have h0 : LoopState cfg env w₀.kern 0
      { w₀ with scn := { w₀.scn with shmMap := ∅ } } := by
    refine ⟨rfl, Extends.refl w₀.kern, ?_, ?_⟩
    · intro k cg hk
      exact nomatch hk
    · intro m s hlt
      exact absurd hlt (Nat.not_lt_zero m)
  exact loopState_initLoop h0 _ _ hl

/-- The first half of `Recovered`, by the way `Init` succeeded. -/
theorem init_free_iff {cfg : Config} {env : InitEnv} {kern : Kernel CryptoItem}
    {w : World} {now : Int}
    (h : init cfg env (World.start kern) = .ok (true, w)) :
    (∀ k cg id i, w.scn.shmMap.lookup k = some cg → cg.shmAddr = .seg id →
        i ∈ cg.idxMgr.idxSet → ¬ InUse now (w.kern.mem id i))
      ↔ ∀ s i, Adopts cfg env kern s → 0 ≤ i → i < cfg.maxIdx →
        ¬ InUse now (kern.mem s.id i) := by
  obtain ⟨w₁, hl, hcase⟩ := init_cases h rfl
  have hloop : LoopState cfg env kern cfg.maxGroup.toNat w₁ := loopState_start hl
  rcases hcase with ⟨hne, -, hw⟩ | ⟨hemp, cg, hnew, ⟨hret, -⟩ | ⟨-, id, kern',
    hkey, hget, hw⟩⟩
  · -- some group was attached
    subst hw
    refine hloop.free_iff ?_
    by_contra hno
    refine hne (Finset.eq_empty_of_forall_notMem ?_)
    intro k hk
    obtain ⟨cg, hcg⟩ := Finmap.mem_iff.mp (Finmap.mem_keys.mp hk)
    exact hno ⟨k, cg, hcg⟩
  · exact nomatch hret
  · -- group 0 was created
    subst hw
    have hb := shmMap_eq_empty_of_keys hemp
    rw [← hloop.created_free_iff now hb hnew hkey hget]
    have hnone : w₁.scn.shmMap.lookup 0 = none := by
      rw [hb, Finmap.lookup_empty]
    constructor
    · intro hall id' i haddr hi
      exact hall 0 _ id' i (lookup_stdInsert_self _ hnone) haddr hi
    · intro hall k cg' id' i hk haddr hi
      rcases lookup_stdInsert_cases hnone hk with ⟨-, hcg'⟩ | ⟨-, hk'⟩
      · rw [hcg'] at haddr hi
        exact hall id' i haddr hi
      · rw [hb, Finmap.lookup_empty] at hk'
        exact nomatch hk'

/-- **RESTARTS**: recovery is sound exactly if no session in an adopted segment
    is still running. -/
theorem recovered_iff {cfg : Config} {env : InitEnv} {kern : Kernel CryptoItem}
    {w : World} {now : Int}
    (h : init cfg env (World.start kern) = .ok (true, w)) :
    Recovered cfg now w ↔ ∀ s i, Adopts cfg env kern s → 0 ≤ i →
      i < cfg.maxIdx → ¬ InUse now (kern.mem s.id i) := by
  rw [← init_free_iff h]
  exact ⟨fun hrec => hrec.free, recovered_of_free (ready_of_init h).storeInv⟩

/-- A loop over a kernel without named segments attaches nothing. -/
theorem loop_of_blank {cfg : Config} {env : InitEnv} {kern : Kernel CryptoItem}
    {n : Nat} {w : World} (hblank : kern.segs = [])
    (hloop : LoopState cfg env kern n w) :
    w.kern.segs = [] ∧ ∀ k, w.scn.shmMap.lookup k = none := by
  -- sweeping only removes names
  have hswept : ∀ m, (swept env kern m).segs = [] := by
    intro m
    refine List.eq_nil_iff_forall_not_mem.mpr ?_
    intro s hs
    have hmem := swept_sub env kern m s hs
    rw [hblank] at hmem
    exact List.not_mem_nil hmem
  refine ⟨hloop.names.trans (hswept n), ?_⟩
  intro k
  cases hk : w.scn.shmMap.lookup k with
  | none => rfl
  | some cg =>
      obtain ⟨m, s, -, -, hf, -⟩ := hloop.found k cg hk
      cases (find_of_blank (hswept m) _).symm.trans hf.found

/-- So `Init` can only succeed by creating group `0`. -/
theorem init_of_blank {cfg : Config} {env : InitEnv} {kern : Kernel CryptoItem}
    {w : World} (hblank : kern.segs = [])
    (h : init cfg env (World.start kern) = .ok (true, w)) :
    ∃ (w₁ : World) (cg : CryptoGroup), w₁.kern.segs = []
      ∧ (∀ k, w₁.scn.shmMap.lookup k = none)
      ∧ CryptoGroup.new 0 cfg.maxIdx env.createFtok env.createJunk = .ok cg
      ∧ ∃ (id : Nat) (kern' : Kernel CryptoItem),
        w₁.kern.shmget env.createFaults.get cg.key (segmentSize cfg) false .zeroed
            = (.ok id, kern')
          ∧ w = { scn :=
                    { shmMap := stdInsert 0 { cg with
                        shmid := id
                        shmAddr := Kernel.shmat env.createFaults.attach id }
                          w₁.scn.shmMap
                      curGroup := 0
                      initialized := true }
                  kern := kern' } := by
  obtain ⟨w₁, hl, hcase⟩ := init_cases h rfl
  have hloop : LoopState cfg env kern cfg.maxGroup.toNat w₁ := loopState_start hl
  obtain ⟨hsegs, hnone⟩ := loop_of_blank hblank hloop
  rcases hcase with ⟨hne, -, -⟩ | ⟨-, cg, hnew, ⟨hret, -⟩ | ⟨-, id, kern', -, hget,
    hw⟩⟩
  · refine absurd (Finset.eq_empty_of_forall_notMem ?_) hne
    intro k hk
    obtain ⟨cg, hcg⟩ := Finmap.mem_iff.mp (Finmap.mem_keys.mp hk)
    cases (hnone k).symm.trans hcg
  · exact nomatch hret
  · exact ⟨w₁, cg, hsegs, hnone, hnew, id, kern', hget, hw⟩

/-- Without named segments the current group is the one that `Init` creates. -/
theorem init_curGroup_of_blank {cfg : Config} {env : InitEnv}
    {kern : Kernel CryptoItem} {w : World} (hblank : kern.segs = [])
    (h : init cfg env (World.start kern) = .ok (true, w)) :
    w.scn.curGroup = 0 := by
  obtain ⟨w₁, cg, -, -, -, id, kern', -, hw⟩ := init_of_blank hblank h
  rw [hw]

/-- The segment of a server that stopped while slot `0` was in use. -/
def leftoverKernel : Kernel CryptoItem :=
  (blankKernel.create 100 64 .zeroed).put 0 0
    { CryptoItem.zeroed with useCrypto := true, expires := 2000 }

/-- The group that is adopted, with every index free. -/
def restartedGroup : CryptoGroup :=
  { freshGroup with shmid := 0, shmAddr := .seg 0 }

/-- The store of the restarted server. -/
def restartedWorld : World where
  scn := { shmMap := (∅ : ShmMap).insert 0 restartedGroup
           curGroup := 0
           initialized := true }
  kern := leftoverKernel

/-- `Init` adopts the segment that is there. -/
theorem init_leftoverKernel :
    init oneSlot quietInit (World.start leftoverKernel)
      = .ok (true, restartedWorld) :=
  rfl

/-- It recovers if nothing in it was in use. -/
theorem recovered_iff_oneSlot :
    Recovered oneSlot 1000 restartedWorld
      ↔ ∀ s i, Adopts oneSlot quietInit leftoverKernel s → 0 ≤ i →
        i < oneSlot.maxIdx → ¬ InUse 1000 (leftoverKernel.mem s.id i) :=
  recovered_iff init_leftoverKernel

/-- After the restart the index of the running session is the next to go. -/
theorem restart_frees_running_session :
    init oneSlot quietInit (World.start leftoverKernel)
        = .ok (true, restartedWorld)
      ∧ InUse 1000 (restartedWorld.kern.mem 0 0)
      ∧ restartedGroup.idxMgr.popIdx.1 = 0
      ∧ ¬ Recovered oneSlot 1000 restartedWorld := by
  have huse : InUse 1000 (restartedWorld.kern.mem 0 0) := ⟨rfl, by decide⟩
  refine ⟨init_leftoverKernel, huse, by decide, ?_⟩
  intro hrec
  exact hrec.free 0 restartedGroup 0 0 rfl rfl (by decide) huse

end StpRestart
