import StpPlatform.LabelledRun
import StpPlatform.StpCryptoNegotiate

/-! # What holds of the store in every run

    A process starts with an empty map, may call `Init` any number of times
    and then `CryptoNegotiate` with any arguments; `ProcStep` is one such call
    that returned.  `StoreInv` is what an initialised store has in every run:
    the current group is the largest key, every group carries its own number,
    its free indices are slots, and its segment — unless `shmat` failed — is
    mapped over all its slots.  `worldInv_of_reachable` is the run lemma. -/

namespace StpInvariant

open LabelledRun StpIdx SysVShm StpDetail StpNegotiate

/-! ## The runs of a process -/

/-- A call that returned, with what the system answered and what came back. -/
inductive ProcEvent where
  | init (env : InitEnv) (ret : Bool)
  | negotiate (env : CallEnv) (args : NegotiateArgs) (ret : Bool)
      (out : NegotiateArgs)

/-- One call of the process. -/
def ProcStep (cfg : Config) (w : World) : ProcEvent → World → Prop
  | .init env ret, w' => init cfg env w = .ok (ret, w')
  | .negotiate env args ret out, w' =>
      cryptoNegotiate cfg env w args = .ok (ret, out, w')

/-- The states of a process that started on the kernel state `kern`. -/
def Reachable (cfg : Config) (w : World) : Prop :=
  ∃ (kern : Kernel CryptoItem) (es : List ProcEvent),
    Run (ProcStep cfg) (World.start kern) es w

/-- The states after `Init` returned `true`. -/
def Ready (cfg : Config) (w : World) : Prop :=
  Reachable cfg w ∧ w.scn.initialized = true

theorem Reachable.step {cfg : Config} {w w' : World} {e : ProcEvent}
    (h : Reachable cfg w) (hs : ProcStep cfg w e w') : Reachable cfg w' := by
  obtain ⟨kern, es, hrun⟩ := h
  exact ⟨kern, es ++ [e], hrun.next hs⟩

/-- A process that has just begun. -/
theorem reachable_start (cfg : Config) (kern : Kernel CryptoItem) :
    Reachable cfg (World.start kern) :=
  ⟨kern, [], .start⟩

/-! ## The invariant -/

/-- Entry `k` of the map is in order. -/
structure GroupInv (cfg : Config) (kern : Kernel CryptoItem) (k : Int)
    (cg : CryptoGroup) : Prop where
  number : cg.group = k
  bound : cg.idxMgr.maxIdx = cfg.maxIdx
  free : cg.idxMgr.InRange
  addr : cg.shmAddr = .failed ∨ ∃ id, cg.shmAddr = .seg id
    ∧ id < kern.nextId ∧ segmentSize cfg ≤ kern.len id

/-- An initialised store is in order. -/
structure StoreInv (cfg : Config) (w : World) : Prop where
  range : 1 ≤ cfg.maxIdx ∧ cfg.maxIdx ≤ 100000
  current : ∃ cg, w.scn.shmMap.lookup w.scn.curGroup = some cg
  below : 1 ≤ cfg.maxGroup → w.scn.curGroup < cfg.maxGroup
  keys : ∀ k cg, w.scn.shmMap.lookup k = some cg → 0 ≤ k ∧ k ≤ w.scn.curGroup
  groups : ∀ k cg, w.scn.shmMap.lookup k = some cg → GroupInv cfg w.kern k cg

/-- Before `Init` succeeds the store is as constructed. -/
structure WorldInv (cfg : Config) (w : World) : Prop where
  ready : w.scn.initialized = true → StoreInv cfg w
  blank : w.scn.initialized = false →
    w.scn.shmMap = ∅ ∧ w.scn.curGroup = 0

/-- Shared memory may grow under a group. -/
theorem GroupInv.extend {cfg : Config} {kern kern' : Kernel CryptoItem} {k : Int}
    {cg : CryptoGroup} (h : GroupInv cfg kern k cg) (hx : Extends kern kern') :
    GroupInv cfg kern' k cg := by
  refine ⟨h.number, h.bound, h.free, ?_⟩
  rcases h.addr with hf | ⟨id, ha, hid, hlen⟩
  · exact Or.inl hf
  · refine Or.inr ⟨id, ha, Nat.lt_of_lt_of_le hid hx.nextId, ?_⟩
    rw [hx.len id hid]
    exact hlen

/-- To pop an index leaves the group in order. -/
theorem GroupInv.popped {cfg : Config} {kern : Kernel CryptoItem} {k : Int}
    {cg : CryptoGroup} (h : GroupInv cfg kern k cg) :
    GroupInv cfg kern k (popped cg) := by
  refine ⟨h.number, ?_, h.free.popIdx, h.addr⟩
  rw [← h.bound]
  exact cg.idxMgr.popIdx_maxIdx

/-- **A SLOT OF AN ATTACHED GROUP IS MAPPED**, in the group's own pages. -/
theorem GroupInv.inPages {cfg : Config} {kern : Kernel CryptoItem} {k i : Int}
    {cg : CryptoGroup} {id : Nat} (h : GroupInv cfg kern k cg)
    (ha : cg.shmAddr = .seg id) (h0 : 0 ≤ i) (hi : i < cfg.maxIdx) :
    kern.InPages sizeofCryptoItem id i := by
  rcases h.addr with hf | ⟨id', ha', -, hlen⟩
  · exact nomatch hf.symm.trans ha
  · have hid : id' = id := by
      have := ha'.symm.trans ha
      injection this
    subst hid
    refine inPages_of_lt h0 hi ?_
    have hcast : ((segmentSize cfg : Nat) : Int)
        = cfg.maxIdx * (sizeofCryptoItem : Nat) := by
      show ((cfg.maxIdx.toNat * sizeofCryptoItem : Nat) : Int) = _
      push_cast
      rw [Int.toNat_of_nonneg (by omega)]
    omega

/-- An item below the bound lies in the group's own pages, whatever is
    behind them. -/
theorem GroupInv.place {cfg : Config} {kern : Kernel CryptoItem} {k i : Int}
    {cg : CryptoGroup} {id : Nat} (h : GroupInv cfg kern k cg)
    (ha : cg.shmAddr = .seg id) (h0 : 0 ≤ i) (hi : i < cfg.maxIdx) :
    kern.place sizeofCryptoItem cg.shmAddr i = some (id, i) := by
  rw [ha]
  exact place_of_inPages (h.inPages ha h0 hi)

/-- The current group of a store in order is what a call works on. -/
theorem StoreInv.currentGroup {cfg : Config} {w : World} {cg : CryptoGroup}
    (h : StoreInv cfg w)
    (hcg : w.scn.shmMap.lookup w.scn.curGroup = some cg) :
    CurrentGroup w cg := by
  have hlow := (h.keys _ _ hcg).1
  have hgrp := h.groups _ _ hcg
  refine ⟨hlow, hcg, ?_, hgrp.free, ?_⟩
  · have hnum := hgrp.number
    omega
  · -- keys are at most the current one
    cases hn : w.scn.shmMap.lookup (w.scn.curGroup + 1) with
    | none => rfl
    | some cg' =>
        have := (h.keys _ _ hn).2
        omega

/-! ## One call of `Init` -/

/-- A group that fails to attach has touched nothing that was there. -/
theorem failedAttach_extends {cg : CryptoGroup} {k k' : Kernel CryptoItem}
    {size : Nat} (h : FailedAttach cg k k' size) : Extends k k' := by
  rcases h with ⟨-, heq⟩ | ⟨-, -, heq⟩ | ⟨-, -, heq⟩
  · rw [heq]
    exact Extends.refl k
  · rw [heq]
    exact extends_rmid k _
  · rw [heq]
    exact (extends_create k _ _ _).trans (extends_rmid _ _)

/-- A round of the attach loop enters the group or leaves the store alone. -/
theorem initStep_cases {cfg : Config} {env : InitEnv} {i : Int} {w w' : World}
    (h : initStep cfg env i w = .ok w') :
    ∃ cg, CryptoGroup.new i cfg.maxIdx (env.ftok i) (env.junk i) = .ok cg
      ∧ ((∃ s, Attachable (env.faults i) cg.key w.kern (segmentSize cfg) s
            ∧ w' = { w with scn := { w.scn with
                shmMap := stdInsert i { cg with
                  shmid := s.id
                  shmAddr := Kernel.shmat (env.faults i).attach s.id }
                    w.scn.shmMap
                curGroup := i } })
        ∨ ((∀ s, ¬ Attachable (env.faults i) cg.key w.kern (segmentSize cfg) s)
            ∧ ∃ kern, FailedAttach cg w.kern kern (segmentSize cfg)
              ∧ w' = { w with kern := kern })) := by
  simp only [initStep] at h
  cases hn : CryptoGroup.new i cfg.maxIdx (env.ftok i) (env.junk i) with
  | error e =>
      rw [hn] at h
      exact nomatch h
  | ok cg =>
      rw [hn] at h
      refine ⟨cg, rfl, ?_⟩
      cases ht : cg.tryAttachShm (env.faults i) w.kern (segmentSize cfg) with
      | mk addr p =>
          obtain ⟨cg', kern⟩ := p
          simp only [ht] at h
          rcases tryAttachShm_cases ht with ⟨s, hs, ha, hcg, hk⟩
            | ⟨ha, hno, -, hfail⟩
          · have hnull : addr ≠ .null := ha ▸ shmat_ne_null _ _
            rw [if_pos hnull] at h
            refine Or.inl ⟨s, hs, ?_⟩
            rw [← Except.ok.inj h, hcg, hk, ha]
          · rw [ha] at h
            refine Or.inr ⟨hno, kern, hfail, ?_⟩
            exact (Except.ok.inj h).symm

/-- How `Init` returns on a store that is not initialised yet. -/
theorem init_cases {cfg : Config} {env : InitEnv} {w w' : World} {ret : Bool}
    (h : init cfg env w = .ok (ret, w')) (hw : w.scn.initialized = false) :
    ∃ w₁, initLoop cfg env { w with scn := { w.scn with shmMap := ∅ } }
        cfg.maxGroup.toNat = .ok w₁
      ∧ ((w₁.scn.shmMap.keys ≠ ∅ ∧ ret = true
          ∧ w' = { w₁ with scn := { w₁.scn with initialized := true } })
        ∨ (w₁.scn.shmMap.keys = ∅ ∧ ∃ cg,
            CryptoGroup.new 0 cfg.maxIdx env.createFtok env.createJunk = .ok cg
          ∧ ((ret = false ∧ ∃ kern, Extends w₁.kern kern
                ∧ w' = { w₁ with kern := kern })
            ∨ (ret = true ∧ ∃ (id : Nat) (kern : Kernel CryptoItem),
                cg.key ≠ -1
                ∧ w₁.kern.shmget env.createFaults.get cg.key (segmentSize cfg)
                    false .zeroed = (.ok id, kern)
                ∧ w' = { scn :=
                          { shmMap := stdInsert 0 { cg with
                              shmid := id
                              shmAddr := Kernel.shmat env.createFaults.attach id }
                                w₁.scn.shmMap
                            curGroup := 0
                            initialized := true }
                         kern := kern })))) := by
  simp only [init] at h
  rw [if_neg (by rw [hw]; decide)] at h
  cases hl : initLoop cfg env { w with scn := { w.scn with shmMap := ∅ } }
      cfg.maxGroup.toNat with
  | error e =>
      rw [hl] at h
      exact nomatch h
  | ok w₁ =>
      rw [hl] at h
      refine ⟨w₁, rfl, ?_⟩
      -- did the loop attach a group?
      by_cases hk : w₁.scn.shmMap.keys = ∅
      · refine Or.inr ⟨hk, ?_⟩
        simp only [hk, if_true] at h
        cases hn : CryptoGroup.new 0 cfg.maxIdx env.createFtok env.createJunk with
        | error e =>
            rw [hn] at h
            exact nomatch h
        | ok cg =>
            rw [hn] at h
            refine ⟨cg, rfl, ?_⟩
            cases hc : cg.createShm env.createFaults w₁.kern (segmentSize cfg) with
            | mk ok p =>
                obtain ⟨cg', kern⟩ := p
                simp only [hc] at h
                rcases createShm_cases hc with ⟨hok, hx⟩
                  | ⟨hok, id, hcg, hkey, hget⟩
                · subst hok
                  cases h
                  exact Or.inl ⟨rfl, kern, hx, rfl⟩
                · subst hok
                  cases h
                  refine Or.inr ⟨rfl, id, kern, hkey, hget, ?_⟩
                  rw [hcg]
      · refine Or.inl ⟨hk, ?_⟩
        simp only [hk, if_false] at h
        cases h
        exact ⟨rfl, rfl⟩

/-- A group as constructed, with its segment attached, is in order. -/
theorem groupInv_of_new {cfg : Config} {kern : Kernel CryptoItem} {k key n : Int}
    {junk : Junk} {cg : CryptoGroup} {fault : Bool} {id : Nat}
    (hnew : CryptoGroup.new k cfg.maxIdx key junk = .ok cg)
    (hid : id < kern.nextId) (hlen : segmentSize cfg ≤ kern.len id) :
    GroupInv cfg kern k
      { cg with shmid := n, shmAddr := Kernel.shmat fault id } := by
  obtain ⟨mgr, hm, hcg⟩ := CryptoGroup.new_ok hnew
  obtain ⟨-, hmax, hmem⟩ := StpIdxMgr.new_ok hm
  subst hcg
  refine ⟨rfl, hmax, ?_, ?_⟩
  · intro i hi
    show 0 ≤ i ∧ i < mgr.maxIdx
    rw [hmax]
    exact (hmem i).mp hi
  · cases fault with
    | true => exact Or.inl rfl
    | false => exact Or.inr ⟨id, rfl, hid, hlen⟩

/-- The store after `n` rounds of the attach loop. -/
structure LoopInv (cfg : Config) (n : Nat) (w : World) : Prop where
  fresh : w.scn.initialized = false
  range : 0 < n → 1 ≤ cfg.maxIdx ∧ cfg.maxIdx ≤ 100000
  current : w.scn.shmMap = ∅ ∧ w.scn.curGroup = 0
    ∨ (w.scn.curGroup < n
      ∧ ∃ cg, w.scn.shmMap.lookup w.scn.curGroup = some cg)
  keys : ∀ k cg, w.scn.shmMap.lookup k = some cg →
    0 ≤ k ∧ k ≤ w.scn.curGroup ∧ k < n
  groups : ∀ k cg, w.scn.shmMap.lookup k = some cg → GroupInv cfg w.kern k cg

/-- `map::insert` puts the pair in if its key is new. -/
theorem lookup_stdInsert {m : ShmMap} {k : Int} (cg : CryptoGroup)
    (h : m.lookup k = none) (j : Int) :
    (stdInsert k cg m).lookup j = if j = k then some cg else m.lookup j := by
  have hk : ¬ k ∈ m := Finmap.lookup_eq_none.mp h
  show Finmap.lookup j (if k ∈ m then m else m.insert k cg) = _
  rw [if_neg hk]
  by_cases hj : j = k
  · subst hj
    rw [if_pos rfl, Finmap.lookup_insert]
  · rw [if_neg hj, Finmap.lookup_insert_of_ne _ hj]

theorem lookup_stdInsert_self {m : ShmMap} {k : Int} (cg : CryptoGroup)
    (h : m.lookup k = none) : (stdInsert k cg m).lookup k = some cg :=
  (lookup_stdInsert cg h k).trans (if_pos rfl)

/-- An entry found after inserting `k` is the new one or was there before. -/
theorem lookup_stdInsert_cases {m : ShmMap} {j k : Int} {cg cg' : CryptoGroup}
    (h : m.lookup k = none) (hj : (stdInsert k cg m).lookup j = some cg') :
    (j = k ∧ cg' = cg) ∨ (j ≠ k ∧ m.lookup j = some cg') := by
  rw [lookup_stdInsert cg h j] at hj
  by_cases hjk : j = k
  · rw [if_pos hjk] at hj
    exact Or.inl ⟨hjk, (Option.some.inj hj).symm⟩
  · rw [if_neg hjk] at hj
    exact Or.inr ⟨hjk, hj⟩

/-- One turn of the loop in `Init`. -/
theorem loopInv_step {cfg : Config} {env : InitEnv} {n : Nat} {w w' : World}
    (h : LoopInv cfg n w) (hs : initStep cfg env n w = .ok w') :
    LoopInv cfg (n + 1) w' := by
  obtain ⟨cg, hnew, hcase⟩ := initStep_cases hs
  obtain ⟨mgr, hm, -⟩ := CryptoGroup.new_ok hnew
  have hrange := (StpIdxMgr.new_ok hm).1
  rcases hcase with ⟨s, hatt, hw⟩ | ⟨-, kern, hfail, hw⟩
  · -- the round enters group `n`, a larger key than any before
    subst hw
    have hfresh : w.scn.shmMap.lookup (n : Int) = none := by
      cases hl : w.scn.shmMap.lookup (n : Int) with
      | none => rfl
      | some cg' =>
          have := (h.keys _ _ hl).2.2
          omega
    refine ⟨h.fresh, fun _ => hrange, Or.inr ⟨?_, ?_⟩, ?_, ?_⟩
    · show (n : Int) < (n + 1 : Nat)
      omega
    · exact ⟨_, lookup_stdInsert_self _ hfresh⟩
    · intro k cg' hk
      show 0 ≤ k ∧ k ≤ (n : Int) ∧ k < (n + 1 : Nat)
      rcases lookup_stdInsert_cases hfresh hk with ⟨hkn, -⟩ | ⟨-, hk'⟩
      · omega
      · have := h.keys _ _ hk'
        omega
    · intro k cg' hk
      rcases lookup_stdInsert_cases hfresh hk with ⟨hkn, hcg'⟩ | ⟨-, hk'⟩
      · rw [hkn, hcg']
        exact groupInv_of_new hnew (w.kern.fresh s (find_mem hatt.found))
          hatt.long
      · exact h.groups _ _ hk'
  · -- the round enters nothing; shared memory may have grown
    subst hw
    refine ⟨h.fresh, fun _ => hrange, ?_, ?_, ?_⟩
    · rcases h.current with hb | ⟨hlt, hcur⟩
      · exact Or.inl hb
      · refine Or.inr ⟨?_, hcur⟩
        show w.scn.curGroup < (n + 1 : Nat)
        omega
    · intro k cg' hk
      have := h.keys _ _ hk
      show 0 ≤ k ∧ k ≤ w.scn.curGroup ∧ k < (n + 1 : Nat)
      omega
    · intro k cg' hk
      exact (h.groups _ _ hk).extend (failedAttach_extends hfail)

/-- **THE ATTACH LOOP** enters groups in increasing order. -/
theorem loopInv_initLoop {cfg : Config} {env : InitEnv} {w : World}
    (h0 : LoopInv cfg 0 w) :
    ∀ (n : Nat) (w' : World), initLoop cfg env w n = .ok w' →
      LoopInv cfg n w' := by
  intro n
  induction n with
  | zero =>
      intro w' h
      cases h
      exact h0
  | succ n ih =>
      intro w' h
      simp only [initLoop] at h
      cases hl : initLoop cfg env w n with
      | error e =>
          rw [hl] at h
          exact nomatch h
      | ok w₁ =>
          rw [hl] at h
          exact loopInv_step (ih w₁ hl) h

theorem shmMap_eq_empty_of_keys {m : ShmMap} (h : m.keys = ∅) : m = ∅ := by
  apply Finmap.ext_lookup
  intro k
  have hk : k ∉ m := by
    rw [← Finmap.mem_keys, h]
    exact Finset.notMem_empty k
  rw [Finmap.lookup_eq_none.mpr hk, Finmap.lookup_empty]

/-- The attach loop of a first `Init` starts on an empty map. -/
theorem loopInv_start {cfg : Config} {w : World}
    (hw : w.scn.initialized = false) (hcur : w.scn.curGroup = 0) :
    LoopInv cfg 0 { w with scn := { w.scn with shmMap := ∅ } } := by
  refine ⟨hw, fun hlt => absurd hlt (by omega), Or.inl ⟨rfl, hcur⟩, ?_, ?_⟩
  · intro k cg hk
    exact nomatch hk
  · intro k cg hk
    exact nomatch hk

/-- A loop that attached nothing left the current group at `0`. -/
theorem LoopInv.curGroup_of_blank {cfg : Config} {n : Nat} {w : World}
    (h : LoopInv cfg n w) (hb : w.scn.shmMap = ∅) : w.scn.curGroup = 0 := by
  rcases h.current with ⟨-, hc⟩ | ⟨-, cg, hcg⟩
  · exact hc
  · rw [hb, Finmap.lookup_empty] at hcg
    exact nomatch hcg

/-- A loop that attached some group leaves a store in order. -/
theorem LoopInv.storeInv {cfg : Config} {w : World}
    (h : LoopInv cfg cfg.maxGroup.toNat w) (hne : w.scn.shmMap.keys ≠ ∅) :
    StoreInv cfg { w with scn := { w.scn with initialized := true } } := by
  -- the current group is the last one that was entered
  rcases h.current with ⟨hb, -⟩ | ⟨hlt, cg, hcg⟩
  · exact absurd (by rw [hb]; rfl) hne
  · have hkeys := h.keys _ _ hcg
    refine ⟨h.range (by omega), ⟨cg, hcg⟩, ?_, ?_, h.groups⟩
    · intro _
      show w.scn.curGroup < cfg.maxGroup
      omega
    · intro k cg' hk
      have := h.keys k cg' hk
      exact ⟨this.1, this.2.1⟩

/-- A store whose only group was just created is in order. -/
theorem storeInv_created {cfg : Config} {m : ShmMap} {kern kern' : Kernel CryptoItem}
    {cg : CryptoGroup} {key : Int} {junk : Junk} {f : ShmFaults} {id : Nat}
    (hb : m = ∅) (hnew : CryptoGroup.new 0 cfg.maxIdx key junk = .ok cg)
    (hget : kern.shmget f.get cg.key (segmentSize cfg) false .zeroed
      = (.ok id, kern')) :
    StoreInv cfg { scn :=
                    { shmMap := stdInsert 0 { cg with
                        shmid := id
                        shmAddr := Kernel.shmat f.attach id } m
                      curGroup := 0
                      initialized := true }
                   kern := kern' } := by
  obtain ⟨mgr, hm, -⟩ := CryptoGroup.new_ok hnew
  obtain ⟨hid, hlen⟩ := shmget_ok hget
  -- the map was empty before
  have hnone : m.lookup 0 = none := by rw [hb, Finmap.lookup_empty]
  refine ⟨(StpIdxMgr.new_ok hm).1, ⟨_, lookup_stdInsert_self _ hnone⟩, ?_, ?_, ?_⟩
  · intro hmax
    show (0 : Int) < cfg.maxGroup
    omega
  · intro k cg' hk
    show 0 ≤ k ∧ k ≤ 0
    rcases lookup_stdInsert_cases hnone hk with ⟨hk0, -⟩ | ⟨-, hk'⟩
    · omega
    · rw [hb, Finmap.lookup_empty] at hk'
      exact nomatch hk'
  · intro k cg' hk
    rcases lookup_stdInsert_cases hnone hk with ⟨hk0, hcg'⟩ | ⟨-, hk'⟩
    · rw [hk0, hcg']
      exact groupInv_of_new hnew hid hlen
    · rw [hb, Finmap.lookup_empty] at hk'
      exact nomatch hk'

/-- **`Init` ESTABLISHES THE INVARIANT**, or leaves a blank store blank. -/
theorem worldInv_init {cfg : Config} {env : InitEnv} {w w' : World} {ret : Bool}
    (h : WorldInv cfg w) (hs : init cfg env w = .ok (ret, w')) :
    WorldInv cfg w' := by
  cases hw : w.scn.initialized with
  | true =>
      simp only [init, hw, if_true] at hs
      cases hs
      exact h
  | false =>
      obtain ⟨w₁, hl, hcase⟩ := init_cases hs hw
      obtain ⟨-, hcur⟩ := h.blank hw
      have hloop : LoopInv cfg cfg.maxGroup.toNat w₁ :=
        loopInv_initLoop (loopInv_start hw hcur) _ _ hl
      rcases hcase with ⟨hne, -, hw'⟩ | ⟨hemp, cg, hnew, hcase⟩
      · -- some group was attached
        subst hw'
        exact ⟨fun _ => hloop.storeInv hne, fun hf => nomatch hf⟩
      · have hb := shmMap_eq_empty_of_keys hemp
        rcases hcase with ⟨-, kern, -, hw'⟩ | ⟨-, id, kern, -, hget, hw'⟩
        · -- nothing was attached and nothing could be created
          subst hw'
          refine ⟨fun hf => ?_, fun _ => ⟨hb, hloop.curGroup_of_blank hb⟩⟩
          exact absurd (hloop.fresh.symm.trans hf) (by decide)
        · -- group 0 was created
          subst hw'
          exact ⟨fun _ => storeInv_created hb hnew hget, fun hf => nomatch hf⟩

/-! ## One call of `CryptoNegotiate` -/

/-- Replacing the current group by one in order keeps the store in order. -/
theorem storeInv_setGroup {cfg : Config} {w : World} {cg : CryptoGroup}
    (h : StoreInv cfg w) (hcg : GroupInv cfg w.kern w.scn.curGroup cg) :
    StoreInv cfg (w.setGroup w.scn.curGroup cg) := by
  refine ⟨h.range, ⟨cg, Finmap.lookup_insert _⟩, h.below, ?_, ?_⟩
  · intro k cg' hk
    rcases lookup_setGroup_cases hk with ⟨hkc, -⟩ | ⟨-, hk'⟩
    · obtain ⟨cg₀, hcg₀⟩ := h.current
      rw [hkc]
      exact h.keys _ _ hcg₀
    · exact h.keys _ _ hk'
  · intro k cg' hk
    rcases lookup_setGroup_cases hk with ⟨hkc, hcg'⟩ | ⟨-, hk'⟩
    · rw [hkc, hcg']
      exact hcg
    · exact h.groups _ _ hk'

/-- The store stays in order when an index is taken. -/
theorem storeInv_afterPop {cfg : Config} {w : World} {cg : CryptoGroup}
    {a : NegotiateArgs} (h : StoreInv cfg w)
    (hcg : w.scn.shmMap.lookup w.scn.curGroup = some cg) :
    StoreInv cfg (w.afterPop cg a) := by
  by_cases ha : a.First
  · rw [afterPop_first cg ha]
    exact storeInv_setGroup h (h.groups _ _ hcg).popped
  · rw [afterPop_again cg ha]
    exact h

/-- Filling a slot changes neither lengths nor identifiers. -/
theorem extends_filled (cfg : Config) (env : CallEnv) (a : NegotiateArgs)
    (w : World) (cg : CryptoGroup) (loc : Nat × Int) {k : Int} {cg' : CryptoGroup}
    (h : GroupInv cfg w.kern k cg') :
    GroupInv cfg (w.grantedAt cfg env cg a loc).kern k cg' :=
  ⟨h.number, h.bound, h.free, h.addr⟩

@[simp] theorem afterPop_kern (w : World) (cg : CryptoGroup) (a : NegotiateArgs) :
    (w.afterPop cg a).kern = w.kern := by
  by_cases ha : a.First
  · rw [afterPop_first cg ha]
    rfl
  · rw [afterPop_again cg ha]

@[simp] theorem afterPop_curGroup (w : World) (cg : CryptoGroup)
    (a : NegotiateArgs) :
    (w.afterPop cg a).scn.curGroup = w.scn.curGroup := by
  by_cases ha : a.First
  · rw [afterPop_first cg ha]
    rfl
  · rw [afterPop_again cg ha]

@[simp] theorem afterPop_initialized (w : World) (cg : CryptoGroup)
    (a : NegotiateArgs) :
    (w.afterPop cg a).scn.initialized = w.scn.initialized := by
  by_cases ha : a.First
  · rw [afterPop_first cg ha]
    rfl
  · rw [afterPop_again cg ha]

/-- No call that returns moves on to another group. -/
theorem cryptoNegotiate_curGroup {cfg : Config} {env : CallEnv} {w w' : World}
    {a a' : NegotiateArgs} {ret : Bool} (h : StoreInv cfg w)
    (hs : cryptoNegotiate cfg env w a = .ok (ret, a', w')) :
    w'.scn.curGroup = w.scn.curGroup := by
  obtain ⟨cg, hcg⟩ := h.current
  cases cryptoNegotiate_effect (h.currentGroup hcg) hs with
  | refused _ => rfl
  | leaked _ _ _ _ => exact afterPop_curGroup w cg a
  | granted loc _ _ _ _ => exact afterPop_curGroup w cg a

/-- **A CALL KEEPS THE STORE IN ORDER**. -/
theorem storeInv_negotiate {cfg : Config} {env : CallEnv} {w w' : World}
    {a a' : NegotiateArgs} {ret : Bool} (h : StoreInv cfg w)
    (hs : cryptoNegotiate cfg env w a = .ok (ret, a', w')) :
    StoreInv cfg w' := by
  obtain ⟨cg, hcg⟩ := h.current
  cases cryptoNegotiate_effect (h.currentGroup hcg) hs with
  | refused _ => exact h
  | leaked _ _ _ _ => exact storeInv_afterPop h hcg
  | granted loc _ _ _ _ =>
      have hp := storeInv_afterPop (a := a) h hcg
      refine ⟨hp.range, hp.current, hp.below, hp.keys, ?_⟩
      intro k cg' hk
      have hg := hp.groups k cg' hk
      rw [afterPop_kern] at hg
      exact extends_filled cfg env a w cg loc hg

/-- A call before `Init` does not return, unless every call is refused. -/
theorem cryptoNegotiate_blank {cfg : Config} {env : CallEnv} {w w' : World}
    {a a' : NegotiateArgs} {ret : Bool} (hb : w.scn.shmMap = ∅)
    (hs : cryptoNegotiate cfg env w a = .ok (ret, a', w')) :
    ret = false ∧ a' = a ∧ w' = w := by
  simp only [cryptoNegotiate] at hs
  by_cases hcur : w.scn.curGroup < 0 ∨ w.scn.curGroup ≥ cfg.maxGroup
  · rw [if_pos hcur] at hs
    cases hs
    exact ⟨rfl, rfl, rfl⟩
  · rw [if_neg hcur, subscript_missing (by rw [hb, Finmap.lookup_empty])] at hs
    cases hs

/-! ## Every run -/

/-- **ONE EVENT** of a process. -/
theorem worldInv_step {cfg : Config} {w w' : World} {e : ProcEvent}
    (h : WorldInv cfg w) (hs : ProcStep cfg w e w') : WorldInv cfg w' := by
  cases e with
  | init env ret => exact worldInv_init h hs
  | negotiate env args ret out =>
      cases hi : w.scn.initialized with
      | true =>
          have h' := storeInv_negotiate (h.ready hi) hs
          refine ⟨fun _ => h', fun hf => ?_⟩
          obtain ⟨cg, hcg⟩ := (h.ready hi).current
          cases cryptoNegotiate_effect ((h.ready hi).currentGroup hcg) hs with
          | refused _ => exact h.blank hf
          | leaked _ _ _ _ =>
              rw [afterPop_initialized, hi] at hf
              exact nomatch hf
          | granted loc _ _ _ _ =>
              have hf' : (w.afterPop cg args).scn.initialized = false := hf
              rw [afterPop_initialized, hi] at hf'
              exact nomatch hf'
      | false =>
          -- a call that returns before `Init` was refused
          obtain ⟨-, -, hw⟩ := cryptoNegotiate_blank (h.blank hi).1 hs
          rw [hw]
          exact h

/-- **THE RUN LEMMA**: every state a process reaches is in order. -/
theorem worldInv_of_reachable {cfg : Config} {w : World}
    (h : Reachable cfg w) : WorldInv cfg w := by
  obtain ⟨kern, es, hrun⟩ := h
  have hstart : WorldInv cfg (World.start kern) :=
    ⟨fun hf => (nomatch hf), fun _ => ⟨rfl, rfl⟩⟩
  exact hrun.invariant (WorldInv cfg) hstart (fun _ _ _ ht hs => worldInv_step ht hs)

/-- A successful `Init` makes a store ready. -/
theorem ready_of_init {cfg : Config} {env : InitEnv} {kern : Kernel CryptoItem}
    {w : World} (h : init cfg env (World.start kern) = .ok (true, w)) :
    Ready cfg w := by
  refine ⟨(reachable_start cfg kern).step (e := .init env true) h, ?_⟩
  obtain ⟨w₁, -, ⟨-, -, hw⟩ | ⟨-, cg, -, ⟨hret, -⟩ | ⟨-, id, k, -, -, hw⟩⟩⟩ :=
    init_cases h rfl
  · rw [hw]
  · exact nomatch hret
  · rw [hw]

theorem Ready.storeInv {cfg : Config} {w : World} (h : Ready cfg w) :
    StoreInv cfg w :=
  (worldInv_of_reachable h.1).ready h.2

end StpInvariant
