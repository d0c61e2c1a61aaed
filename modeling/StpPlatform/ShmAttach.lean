import StpPlatform.RestartRecovery
import StpPlatform.StpClient

/-! # What attaching and creating do to shared memory

    `TryAttachShm` is an attempt: a segment that exists is attached, and one
    that the attempt itself created is removed again.  `attempt_undisturbed_iff`
    says when it is no more than that.  The removal at its end is for every way
    out, also for the one before any `shmget`, where `shmid` is whatever the
    memory of the group held.

    Both `TryAttachShm` and `CreateShm` compare what `shmat` answers with
    `NULL`, and POSIX lets it fail with `(void*)-1`.  `init_mapped_iff` says when
    `Init` of the server and of the client keep no such address: exactly if no
    `shmat` fails that they get to.  Which these are depends on the kernel and on
    the other answers alone (`Finds`, `Attachable`, `Creatable`). -/

namespace StpAttach

open StpIdx SysVShm StpDetail StpNegotiate StpInvariant StpContract StpRestart
open StpClient

/-! ## What an attempt removes -/

/-- The named segments are the same, and nothing in a segment is touched. -/
structure Undisturbed (k k' : Kernel CryptoItem) : Prop where
  names : k'.segs = k.segs
  contents : Extends k k'

/-- A removal changes the names exactly if it names a segment. -/
theorem rmid_segs_eq_iff (k : Kernel CryptoItem) (n : Int) :
    (k.rmid n).segs = k.segs ↔ ¬ ∃ s ∈ k.segs, (s.id : Int) = n := by
  rw [rmid_segs, List.filter_eq_self]
  constructor
  · rintro h ⟨s, hs, hid⟩
    exact of_decide_eq_true (h s hs) hid
  · intro h s hs
    exact decide_eq_true fun hid => h ⟨s, hs, hid⟩

/-- **AN ATTEMPT DISTURBS NOTHING** unless the key is invalid and the member that
    nothing has set yet names a segment. -/
theorem attempt_undisturbed_iff (f : ShmFaults) (cg : CryptoGroup)
    (k : Kernel CryptoItem) (size : Nat) :
    Undisturbed k (cg.tryAttachShm f k size).2.2
      ↔ ¬ (cg.key = -1 ∧ ∃ s ∈ k.segs, (s.id : Int) = cg.shmid) := by
  cases h : cg.tryAttachShm f k size with
  | mk a p =>
      obtain ⟨cg', k'⟩ := p
      show Undisturbed k k' ↔ _
      rcases tryAttachShm_cases h with ⟨s, hatt, -, -, hk⟩ | ⟨-, -, -, hfail⟩
      · -- an attempt that succeeds changes nothing
        rw [hk]
        exact ⟨fun _ hb => hatt.valid hb.1, fun _ => ⟨rfl, Extends.refl k⟩⟩
      · have hsegs := failedAttach_segs hfail
        by_cases hb : cg.key = -1 ∧ cg.shmid ≠ -1
        · -- the removal at the end runs before any `shmget`
          rw [if_pos hb] at hsegs
          constructor
          · rintro hsame ⟨-, hs⟩
            exact (rmid_segs_eq_iff k cg.shmid).mp (hsegs ▸ hsame.names) hs
          · intro hno
            refine ⟨hsegs.trans ((rmid_segs_eq_iff k cg.shmid).mpr ?_),
              failedAttach_extends hfail⟩
            exact fun hs => hno ⟨hb.1, hs⟩
        · -- no `shmctl`, or one for `-1`
          rw [if_neg hb] at hsegs
          refine ⟨?_, fun _ => ⟨hsegs, failedAttach_extends hfail⟩⟩
          rintro - ⟨hkey, s, -, hid⟩
          exact hb ⟨hkey, by omega⟩

/-- The group of a server whose `ftok` failed, in memory that was zero. -/
def unsetGroup : CryptoGroup where
  key := -1
  group := 0
  shmid := 0
  shmAddr := .null
  idxMgr := { maxIdx := 1, idxSet := {0} }

/-- **A RUNNING SESSION'S SEGMENT IS REMOVED**: the attempt of a group with an
    invalid key takes the segment whose identifier happens to be in `shmid`. -/
theorem unset_shmid_removed :
    CryptoGroup.new 0 1 (-1) ⟨0, .null⟩ = .ok unsetGroup
      ∧ leftoverKernel.segs = [⟨0, 100⟩]
      ∧ (unsetGroup.tryAttachShm .none leftoverKernel 64).2.2.segs = []
      ∧ ¬ Undisturbed leftoverKernel
          (unsetGroup.tryAttachShm .none leftoverKernel 64).2.2 := by
  have hgone : (unsetGroup.tryAttachShm .none leftoverKernel 64).2.2.segs = [] := rfl
  refine ⟨rfl, rfl, hgone, ?_⟩
  intro h
  cases hgone.symm.trans h.names

/-! ## Mapped memory -/

/-- Behind `a` a segment of at least `size` bytes is mapped. -/
def Backed (k : Kernel CryptoItem) (size : Nat) (a : Addr) : Prop :=
  ∃ id, a = .seg id ∧ id < k.nextId ∧ size ≤ k.len id

/-- The `shmget` of `CreateShm` gets a segment: a new one, or the one the key
    names. -/
structure Creatable (f : ShmFaults) (key : Int) (k : Kernel CryptoItem)
    (size : Nat) : Prop where
  valid : key ≠ -1
  get : f.get = none
  long : ∀ s, k.find key = some s → size ≤ k.len s.id

section

variable {k k' : Kernel CryptoItem} {size : Nat} {f : ShmFaults}
  {cg cg' : CryptoGroup}

/-- Once there is a segment, its address depends on `shmat`. -/
theorem backed_shmat_iff {fault : Bool} {id : Nat} (hid : id < k.nextId)
    (hlen : size ≤ k.len id) :
    Backed k size (Kernel.shmat fault id) ↔ fault = false := by
  constructor
  · rintro ⟨id', haddr, -⟩
    exact (shmat_eq_seg haddr).1
  · intro hfault
    rw [hfault]
    exact ⟨id, rfl, hid, hlen⟩

/-- `Creatable` reads the names and the lengths of named segments only. -/
theorem creatable_congr {key : Int} (hsegs : k'.segs = k.segs)
    (hlen : ∀ s ∈ k.segs, k'.len s.id = k.len s.id) :
    Creatable f key k' size ↔ Creatable f key k size := by
  constructor
  · rintro ⟨hv, hg, hl⟩
    refine ⟨hv, hg, ?_⟩
    intro s hs
    rw [← hlen s (find_mem hs)]
    exact hl s ((find_congr hsegs key).trans hs)
  · rintro ⟨hv, hg, hl⟩
    refine ⟨hv, hg, ?_⟩
    intro s hs
    rw [find_congr hsegs] at hs
    rw [hlen s (find_mem hs)]
    exact hl s hs

/-- A failed attempt does not change what can be created. -/
theorem creatable_of_failedAttach (h : FailedAttach cg k k' size) :
    Creatable f cg.key k' size ↔ Creatable f cg.key k size := by
  by_cases hkey : cg.key = -1
  · exact ⟨fun hc => absurd hkey hc.valid, fun hc => absurd hkey hc.valid⟩
  · refine creatable_congr ?_ ?_
    · rw [failedAttach_segs h, if_neg (fun hb => hkey hb.1)]
    · intro s hs
      exact (failedAttach_extends h).len s.id (k.fresh s hs)

/-- **WHEN `CreateShm` REPORTS SUCCESS**; `shmat` has no say in it. -/
theorem createShm_fst_iff :
    (cg.createShm f k size).1 = true ↔ Creatable f cg.key k size := by
  rw [CryptoGroup.createShm]
  by_cases hkey : cg.key = -1
  · rw [if_pos hkey]
    exact ⟨fun h => Bool.noConfusion h, fun hc => absurd hkey hc.valid⟩
  · rw [if_neg hkey]
    cases hget : k.shmget f.get cg.key size false .zeroed with
    | mk r k₁ =>
        cases r with
        | ok id =>
            obtain ⟨hfault, hlong⟩ := shmget_ok_iff.mp ⟨id, k₁, hget⟩
            simp only [shmat_ne_null f.attach id, if_false, true_iff]
            exact ⟨hkey, hfault, hlong⟩
        | error e =>
            refine ⟨fun h => Bool.noConfusion h, ?_⟩
            rintro ⟨-, hfault, hlong⟩
            obtain ⟨id, k₂, hok⟩ := shmget_ok_iff.mpr ⟨hfault, hlong⟩
            cases hget.symm.trans hok

/-- A failure of `CreateShm` stores no address. -/
theorem createShm_shmAddr (h : cg.createShm f k size = (false, cg', k')) :
    cg'.shmAddr = cg.shmAddr := by
  rw [CryptoGroup.createShm] at h
  by_cases hkey : cg.key = -1
  · rw [if_pos hkey] at h
    cases h
    rfl
  · rw [if_neg hkey] at h
    cases hget : k.shmget f.get cg.key size false .zeroed with
    | mk r k₁ =>
        rw [hget] at h
        cases r with
        | error e =>
            cases h
            rfl
        | ok id =>
            simp only [shmat_ne_null f.attach id, if_false] at h
            cases h

/-- **A GROUP THAT IS CREATED** is mapped exactly if `shmat` succeeds once there is
    a segment. -/
theorem createShm_backed_iff {ok : Bool} (h : cg.createShm f k size = (ok, cg', k')) :
    (ok = true → Backed k' size cg'.shmAddr)
      ↔ (Creatable f cg.key k size → f.attach = false) := by
  have hable : ok = true ↔ Creatable f cg.key k size := by
    rw [← createShm_fst_iff, h]
  rw [← hable]
  rcases createShm_cases h with ⟨hok, -⟩ | ⟨hok, id, hcg', -, hget⟩
  · rw [hok]
    exact iff_of_true (fun ht => Bool.noConfusion ht) (fun ht => Bool.noConfusion ht)
  · obtain ⟨hid, hlong⟩ := shmget_ok hget
    rw [hcg']
    exact imp_congr_right fun _ => backed_shmat_iff hid hlong

end

/-! ## `Init` of the server -/

/-- What `Init` promises: it returns `true` with groups that are mapped, or
    `false` with none. -/
structure GroupsMapped (cfg : Config) (ret : Bool) (w : World) : Prop where
  kept : ret = true → ∀ k cg, w.scn.shmMap.lookup k = some cg →
    Backed w.kern (segmentSize cfg) cg.shmAddr
  dropped : ret = false → w.scn.shmMap = ∅

/-- No `shmat` fails that `Init` gets to: in a round that finds a segment, and,
    when no round does, after the `shmget` of `CreateShm`.  An initialised store
    is left alone. -/
structure InitAttaches (cfg : Config) (env : InitEnv) (w : World) : Prop where
  before : w.scn.initialized = true → ∀ k cg, w.scn.shmMap.lookup k = some cg →
    Backed w.kern (segmentSize cfg) cg.shmAddr
  rounds : w.scn.initialized = false → ∀ m s, m < cfg.maxGroup.toNat →
    Finds cfg env w.kern m s → (env.faults m).attach = false
  create : w.scn.initialized = false →
    (∀ m s, m < cfg.maxGroup.toNat → ¬ Finds cfg env w.kern m s) →
    Creatable env.createFaults env.createFtok
      (swept env w.kern cfg.maxGroup.toNat) (segmentSize cfg) →
    env.createFaults.attach = false

section

variable {cfg : Config} {env : InitEnv} {kern : Kernel CryptoItem}
  {w w' w₁ : World} {n : Nat}

/-- After the loop the groups are mapped if no round's `shmat` failed. -/
theorem backed_loop_iff (h : LoopState cfg env kern n w) :
    (∀ k cg, w.scn.shmMap.lookup k = some cg →
        Backed w.kern (segmentSize cfg) cg.shmAddr)
      ↔ ∀ m s, m < n → Finds cfg env kern m s →
        (env.faults m).attach = false := by
  have hback : ∀ m s, Finds cfg env kern m s →
      (Backed w.kern (segmentSize cfg) (Kernel.shmat (env.faults m).attach s.id)
        ↔ (env.faults m).attach = false) := by
    intro m s hf
    have hold := swept_old env kern m s (find_mem hf.found)
    refine backed_shmat_iff (Nat.lt_of_lt_of_le hold h.extends_kern.nextId) ?_
    rw [h.extends_kern.len s.id hold, ← (extends_swept env kern m).len s.id hold]
    exact hf.long
  constructor
  · intro hall m s hlt hf
    obtain ⟨cg, hcg⟩ := h.entered m s hlt hf
    obtain ⟨m', s', -, hm, hf', haddr, -⟩ := h.found _ cg hcg
    have hmm : m' = m := by omega
    subst hmm
    rw [hf'.unique hf] at haddr
    exact (hback m' s hf).mp (haddr ▸ hall _ cg hcg)
  · intro hall k cg hk
    obtain ⟨m, s, hlt, -, hf, haddr, -⟩ := h.found k cg hk
    rw [haddr]
    exact (hback m s hf).mpr (hall m s hlt hf)

/-- The map is empty after the loop exactly if no round found a segment. -/
theorem loop_empty_iff (h : LoopState cfg env kern n w) :
    w.scn.shmMap.keys = ∅ ↔ ∀ m s, m < n → ¬ Finds cfg env kern m s := by
  constructor
  · intro hemp m s hlt hf
    obtain ⟨cg, hcg⟩ := h.entered m s hlt hf
    rw [shmMap_eq_empty_of_keys hemp, Finmap.lookup_empty] at hcg
    cases hcg
  · intro hno
    refine Finset.eq_empty_of_forall_notMem ?_
    intro k hk
    obtain ⟨cg, hcg⟩ := Finmap.mem_iff.mp (Finmap.mem_keys.mp hk)
    obtain ⟨m, s, hlt, -, hf, -⟩ := h.found k cg hcg
    exact hno m s hlt hf

/-- What can be created after the loop. -/
theorem creatable_loop_iff {f : ShmFaults} {key : Int}
    (h : LoopState cfg env kern n w) :
    Creatable f key w.kern (segmentSize cfg)
      ↔ Creatable f key (swept env kern n) (segmentSize cfg) :=
  creatable_congr h.names h.len

/-- Without a group from the loop, `Init` returns what `CreateShm` does, and keeps
    its group when that is `true`. -/
theorem init_create {cg : CryptoGroup} {ret : Bool}
    (hl : initLoop cfg env { w with scn := { w.scn with shmMap := ∅ } }
      cfg.maxGroup.toNat = .ok w₁)
    (hemp : w₁.scn.shmMap = ∅)
    (hnew : CryptoGroup.new 0 cfg.maxIdx env.createFtok env.createJunk = .ok cg)
    (hw : w.scn.initialized = false) (h : init cfg env w = .ok (ret, w')) :
    ∃ cg', cg.createShm env.createFaults w₁.kern (segmentSize cfg)
        = (ret, cg', w'.kern)
      ∧ (ret = true → w'.scn.shmMap = stdInsert 0 cg' ∅)
      ∧ (ret = false → w'.scn.shmMap = ∅) := by
  have hkeys : w₁.scn.shmMap.keys = ∅ := by
    rw [hemp]
    exact Finmap.keys_empty
  simp only [init] at h
  rw [if_neg (by rw [hw]; decide), hl] at h
  simp only [hkeys, if_true, hnew] at h
  cases hc : cg.createShm env.createFaults w₁.kern (segmentSize cfg) with
  | mk ok p =>
      obtain ⟨cg', kern'⟩ := p
      simp only [hc, hemp] at h
      cases ok with
      -- the group is kept only behind a `CreateShm` that succeeded
      | true =>
          cases h
          exact ⟨cg', rfl, fun _ => rfl, fun hf => Bool.noConfusion hf⟩
      | false =>
          cases h
          exact ⟨cg', rfl, fun ht => Bool.noConfusion ht, fun _ => hemp⟩

/-- **THE SERVER'S GROUPS** are mapped exactly if no `shmat` failed. -/
theorem groupsMapped_iff {ret : Bool} (h : init cfg env w = .ok (ret, w')) :
    GroupsMapped cfg ret w' ↔ InitAttaches cfg env w := by
  by_cases hw : w.scn.initialized = true
  · -- nothing happens
    rw [init, if_pos hw] at h
    cases h
    constructor
    · rintro ⟨hkept, -⟩
      refine ⟨fun _ => hkept rfl, ?_, ?_⟩
      · intro hf
        cases hw.symm.trans hf
      · intro hf
        cases hw.symm.trans hf
    · rintro ⟨hbefore, -, -⟩
      exact ⟨fun _ => hbefore hw, fun hf => Bool.noConfusion hf⟩
  · have hnot : w.scn.initialized = false := Bool.eq_false_iff.mpr hw
    obtain ⟨w₁, hl, hcase⟩ := init_cases h hnot
    have hloop := loopState_start hl
    rcases hcase with ⟨hne, hret, hw'⟩ | ⟨hkeys, cg, hnew, -⟩
    · -- some round found a segment
      subst hret hw'
      have hfound : ¬ ∀ m s, m < cfg.maxGroup.toNat →
          ¬ Finds cfg env w.kern m s := fun hno =>
        hne ((loop_empty_iff hloop).mpr hno)
      constructor
      · rintro ⟨hkept, -⟩
        refine ⟨fun ht => absurd ht hw, fun _ => ?_, fun _ hno => absurd hno hfound⟩
        exact (backed_loop_iff hloop).mp (hkept rfl)
      · rintro ⟨-, hrounds, -⟩
        refine ⟨fun _ => ?_, fun hf => Bool.noConfusion hf⟩
        exact (backed_loop_iff hloop).mpr (hrounds hnot)
    · -- none did, and `CreateShm` is called
      have hno := (loop_empty_iff hloop).mp hkeys
      obtain ⟨cg', hcreate, hkeep, hdrop⟩ :=
        init_create hl (shmMap_eq_empty_of_keys hkeys) hnew hnot h
      have hkey : cg.key = env.createFtok := by
        obtain ⟨mgr, -, hcg⟩ := CryptoGroup.new_ok hnew
        rw [hcg]
      have hback := createShm_backed_iff hcreate
      rw [hkey, creatable_loop_iff hloop] at hback
      have hempty : ∀ k, (∅ : ShmMap).lookup k = none := fun _ =>
        Finmap.lookup_empty _
      constructor
      · rintro ⟨hkept, -⟩
        refine ⟨fun ht => absurd ht hw, ?_, ?_⟩
        · exact fun _ m s hlt hf => absurd hf (hno m s hlt)
        · refine fun _ _ => hback.mp ?_
          intro htrue
          refine hkept htrue 0 cg' ?_
          rw [hkeep htrue]
          exact lookup_stdInsert_self cg' (hempty 0)
      · rintro ⟨-, -, hattach⟩
        refine ⟨?_, hdrop⟩
        intro htrue k cg'' hk
        rw [hkeep htrue] at hk
        rcases lookup_stdInsert_cases (hempty 0) hk with ⟨-, hcg''⟩ | ⟨-, hk'⟩
        · rw [hcg'']
          exact hback.mpr (hattach hnot hno) htrue
        · cases (hempty k).symm.trans hk'

end

/-! ## `Init` of the client -/

/-- What the client's `Init` promises: it returns `true` with a group that is
    mapped, or `false` without an address. -/
structure ItemMapped (s : Client) (ret : Bool) (s' : Client) : Prop where
  kept : ret = true → Backed s'.kern sizeofCryptoItem s'.cg.shmAddr
  dropped : ret = false → s'.cg.shmAddr = s.cg.shmAddr

/-- No `shmat` fails that the client's `Init` gets to: in the attempt when there
    is a segment, and otherwise after the `shmget` of `CreateShm`. -/
structure ClientAttaches (attach create : ShmFaults) (s : Client) : Prop where
  attempt : ∀ seg, Attachable attach s.cg.key s.kern sizeofCryptoItem seg →
    attach.attach = false
  create : (∀ seg, ¬ Attachable attach s.cg.key s.kern sizeofCryptoItem seg) →
    Creatable create s.cg.key s.kern sizeofCryptoItem → create.attach = false

/-- **THE CLIENT'S GROUP** is mapped exactly if no `shmat` failed. -/
theorem itemMapped_iff {attach create : ShmFaults} {s s' : Client} {ret : Bool}
    (h : s.init attach create = (ret, s')) :
    ItemMapped s ret s' ↔ ClientAttaches attach create s := by
  rcases StpClient.Client.init_cases h with
    ⟨hret, seg, hatt, hs'⟩ | ⟨n, kern, hno, hfail, hc⟩
  · -- an existing segment, found long enough
    subst hret hs'
    have hiff := @backed_shmat_iff s.kern sizeofCryptoItem attach.attach seg.id
      (s.kern.fresh seg (find_mem hatt.found)) hatt.long
    constructor
    · rintro ⟨hkept, -⟩
      exact ⟨fun _ _ => hiff.mp (hkept rfl), fun hnone => absurd hatt (hnone seg)⟩
    · rintro ⟨hattempt, -⟩
      exact ⟨fun _ => hiff.mpr (hattempt seg hatt), fun hf => Bool.noConfusion hf⟩
  · -- or one that `CreateShm` asks for
    have hback := createShm_backed_iff hc
    rw [creatable_of_failedAttach hfail] at hback
    constructor
    · rintro ⟨hkept, -⟩
      refine ⟨fun seg hseg => absurd hseg (hno seg), fun _ => ?_⟩
      exact hback.mp hkept
    · rintro ⟨-, hcreate⟩
      refine ⟨hback.mpr (hcreate hno), ?_⟩
      intro hfalse
      rw [hfalse] at hc
      rw [createShm_shmAddr hc]

/-! ## Both -/

/-- **SUCCESSFUL INITIALISATION MEANS MAPPED MEMORY** exactly if no `shmat` fails
    whose answer is kept, for the server and for the client. -/
theorem init_mapped_iff {cfg : Config} {env : InitEnv} {w w' : World} {ret : Bool}
    (h : init cfg env w = .ok (ret, w')) (attach create : ShmFaults) (s : Client) :
    (GroupsMapped cfg ret w' ↔ InitAttaches cfg env w)
      ∧ (ItemMapped s (s.init attach create).1 (s.init attach create).2
        ↔ ClientAttaches attach create s) :=
  ⟨groupsMapped_iff h, itemMapped_iff rfl⟩

/-- A client of the same kernel as the server with one slot. -/
def blankClient : Client where
  cg := freshGroup
  kern := blankKernel

theorem init_mapped_iff_oneSlot :
    (GroupsMapped oneSlot true freshWorld
        ↔ InitAttaches oneSlot quietInit (World.start blankKernel))
      ∧ (ItemMapped blankClient (blankClient.init .none .none).1
          (blankClient.init .none .none).2
        ↔ ClientAttaches .none .none blankClient) :=
  init_mapped_iff init_oneSlot .none .none blankClient

/-- The `shmat` of `CreateShm` fails. -/
def lostShmat : ShmFaults := { ShmFaults.none with attach := true }

/-- The group that is left when `shmat` fails. -/
def lostGroup : CryptoGroup := { freshGroup with shmAddr := .failed }

/-- The store of a server that keeps `(void*)-1`. -/
def lostWorld : World := freshWorld.setGroup 0 lostGroup

/-- **`(void*)-1` IS KEPT**: a server and a client whose `shmat` fails return `true`
    from `Init`, and the first request the server answers is a fault. -/
theorem lost_shmat_kept :
    init oneSlot { quietInit with createFaults := lostShmat }
        (World.start blankKernel) = .ok (true, lostWorld)
      ∧ ¬ GroupsMapped oneSlot true lostWorld
      ∧ (blankClient.init .none lostShmat).1 = true
      ∧ ¬ ItemMapped blankClient true (blankClient.init .none lostShmat).2
      ∧ cryptoNegotiate oneSlot quietCall lostWorld
          { firstCall with group := 0, idx := 0 } = .error .segv := by
  refine ⟨rfl, ?_, rfl, ?_, rfl⟩
  · intro h
    obtain ⟨id, haddr, -⟩ := h.kept rfl 0 lostGroup rfl
    cases haddr
  · intro h
    obtain ⟨id, haddr, -⟩ := h.kept rfl
    cases haddr

end StpAttach
