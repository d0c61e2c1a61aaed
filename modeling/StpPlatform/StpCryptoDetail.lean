import StpPlatform.StpIdxMgr
import StpPlatform.SysVShm
import Mathlib.Data.List.Basic

/-! # Crypto items and groups (`stpcomm/stp_crypto_detail`)

    A crypto item is one slot of a group's shared segment: the negotiated key,
    whether it is used and until when.  A crypto group owns one segment of
    `max_idx` items and the manager of its unused indices.

    `generateRandomKey` always leaves 32 characters of `keyTab` and four zero
    bytes (`generateRandomKey_text`).  `getCryptoItemByIdx` checks the index
    against the bound, and `tryAttachShm` and `createShm` are taken apart once
    (`tryAttachShm_cases`, `createShm_cases`): what a call can do to the group
    and to the kernel is read off there. -/

namespace StpDetail

open StpIdx SysVShm

/-! ## Items -/

/-- `struct CryptoItem`. -/
structure CryptoItem where
  group : Int
  idx : Int
  key : Vector UInt8 36
  useCrypto : Bool
  expires : Int
  zero : Vector UInt8 11
  deriving DecidableEq

/-- `sizeof(CryptoItem)`, field by field (the struct is packed). -/
def sizeofCryptoItem : Nat := 4 + 4 + 36 + 1 + 8 + 11

/-- An item all of whose bytes are zero. -/
def CryptoItem.zeroed : CryptoItem where
  group := 0
  idx := 0
  key := Vector.replicate 36 0
  useCrypto := false
  expires := 0
  zero := Vector.replicate 11 0

/-- `key_tab`. -/
def keyTab : List UInt8 :=
  "0123456789abcdefghijklmnopqrstuvwxyzABCDEFGHIJKLMNOPQRSTUVWXYZ".toList.map
    (fun c => UInt8.ofNat c.toNat)

/-- `key_tab[random() % key_tab_len]`. -/
def keyChar (r : Nat) : UInt8 := keyTab.getD (r % keyTab.length) 0

/-- The first `n` rounds of the key loop; `random i` is the draw number `i`
    after `srandom`. -/
def drawKey (random : Nat → Nat) : Nat → Vector UInt8 36 → Vector UInt8 36
  | 0, key => key
  | n + 1, key => (drawKey random n key).setIfInBounds n (keyChar (random n))

/-- `bool CryptoItem::GenerateRandomKey()`; the result is always `true`. -/
def CryptoItem.generateRandomKey (random : Nat → Nat) (item : CryptoItem) :
    CryptoItem :=
  { item with key := drawKey random 32 (Vector.replicate 36 0) }

/-- The bytes of a key field read as a C string. -/
def cString (key : Vector UInt8 36) : List UInt8 :=
  key.toList.takeWhile (· ≠ 0)

/-- The text the key loop draws. -/
def keyText (random : Nat → Nat) : List UInt8 :=
  (List.range 32).map (fun i => keyChar (random i))

theorem keyChar_mem (r : Nat) : keyChar r ∈ keyTab := by
  have hlen : keyTab.length = 62 := by decide
  have hlt : r % keyTab.length < keyTab.length :=
    Nat.mod_lt _ (by rw [hlen]; decide)
  rw [keyChar, List.getD_eq_getElem?_getD, List.getElem?_eq_getElem hlt]
  exact List.getElem_mem hlt

theorem keyTab_ne_zero : ∀ c ∈ keyTab, c ≠ 0 := by
  have hall : keyTab.all (fun c => c != 0) = true := rfl
  intro c hc
  exact bne_iff_ne.mp (List.all_eq_true.mp hall c hc)

theorem drawKey_toList (random : Nat → Nat) (key : Vector UInt8 36) :
    ∀ n, n ≤ 36 → (drawKey random n key).toList
      = (List.range n).map (fun i => keyChar (random i)) ++ key.toList.drop n := by
  intro n
  induction n with
  | zero => intro _; rfl
  | succ n ih =>
      intro hn
      have hlt : n < key.toList.length := by
        rw [Vector.length_toList]
        omega
      have ih' := ih (by omega)
      rw [List.drop_eq_getElem_cons hlt] at ih'
      show ((drawKey random n key).setIfInBounds n _).toList = _
      rw [Vector.toList_setIfInBounds, ih', List.range_succ, List.map_append,
        List.set_append_right _ _ (by simp)]
      simp

/-- A key field that holds 32 characters of `keyTab`, then zeros. -/
structure KeyField (key : Vector UInt8 36) (text : List UInt8) : Prop where
  bytes : key.toList = text ++ List.replicate 4 0
  length : text.length = 32
  chars : ∀ c ∈ text, c ∈ keyTab

/-- **KEY SHAPE**: whatever `random` draws, the key field is filled alike. -/
theorem generateRandomKey_text (random : Nat → Nat) (item : CryptoItem) :
    KeyField (item.generateRandomKey random).key (keyText random) := by
  refine ⟨?_, ?_, ?_⟩
  · show (drawKey random 32 (Vector.replicate 36 0)).toList = _
    rw [drawKey_toList random _ 32 (by decide)]
    rfl
  · simp [keyText]
  · intro c hc
    obtain ⟨i, -, hi⟩ := List.mem_map.mp hc
    rw [← hi]
    exact keyChar_mem _

/-- Reading the field as a C string gives the text. -/
theorem cString_of_keyField {key : Vector UInt8 36} {text : List UInt8}
    (h : KeyField key text) : cString key = text := by
  rw [cString, h.bytes, List.takeWhile_append_of_pos]
  · simp
  · intro c hc
    simpa using keyTab_ne_zero c (h.chars c hc)

/-! ## Groups -/

/-- `struct CryptoGroup`; `shm_oper` only forwards to the kernel. -/
structure CryptoGroup where
  key : Int
  group : Int
  shmid : Int
  shmAddr : Addr
  idxMgr : StpIdxMgr
  deriving DecidableEq

/-- What the members hold that the constructor does not set. -/
structure Junk where
  shmid : Int
  shmAddr : Addr

/-- `CryptoGroup::CryptoGroup(int g, int max_idx, key_t key)`. -/
def CryptoGroup.new (g maxIdx key : Int) (junk : Junk) :
    Except Halt CryptoGroup :=
  match StpIdxMgr.new maxIdx with
  | .error e => .error e
  | .ok mgr =>
      .ok { key := key
            group := g
            shmid := junk.shmid
            shmAddr := junk.shmAddr
            idxMgr := mgr }

/-- A pointer to item number `idx` behind `base`. -/
structure ItemPtr where
  base : Addr
  idx : Int
  deriving DecidableEq

/-- How many bytes after `base` the item ends. -/
def ItemPtr.endOffset (p : ItemPtr) : Int := (p.idx + 1) * sizeofCryptoItem

/-- `CryptoItem* CryptoGroup::GetCryptoItemByIdx(int idx)`. -/
def CryptoGroup.getCryptoItemByIdx (cg : CryptoGroup) (idx : Int) :
    Option ItemPtr :=
  if idx < 0 ∨ idx > cg.idxMgr.maxIdx then none
  else some { base := cg.shmAddr, idx := idx }

/-- How the calls of one attempt fail for the kernel's own reasons: the
    exclusive `shmget`, the other `shmget`, the `shmat`. -/
structure ShmFaults where
  excl : Option Fault
  get : Option Fault
  attach : Bool

/-- No call fails for the kernel's own reasons. -/
def ShmFaults.none : ShmFaults := ⟨.none, .none, false⟩

/-- The end of `TryAttachShm`: `if (shmid != -1) shmctl(shmid, IPC_RMID, NULL)`. -/
def CryptoGroup.attachFailed (cg : CryptoGroup) (k : Kernel CryptoItem) :
    Addr × CryptoGroup × Kernel CryptoItem :=
  if cg.shmid ≠ -1 then (.null, cg, k.rmid cg.shmid) else (.null, cg, k)

/-- `void* CryptoGroup::TryAttachShm(size_t size)`. -/
def CryptoGroup.tryAttachShm (f : ShmFaults) (cg : CryptoGroup)
    (k : Kernel CryptoItem) (size : Nat) :
    Addr × CryptoGroup × Kernel CryptoItem :=
  if cg.key = -1 then cg.attachFailed k
  else
    match k.shmget f.excl cg.key size true .zeroed with
    | (.ok id, k₁) => { cg with shmid := id }.attachFailed k₁
    | (.error e, k₁) =>
        if e ≠ .EEXIST then { cg with shmid := -1 }.attachFailed k₁
        else
          match k₁.shmget f.get cg.key size false .zeroed with
          | (.error _, k₂) => { cg with shmid := -1 }.attachFailed k₂
          | (.ok id, k₂) =>
              -- `shmat` answers `(void*)-1` on failure, which is not `NULL`
              let addr := Kernel.shmat f.attach id
              if addr ≠ .null then (addr, { cg with shmid := id }, k₂)
              else { cg with shmid := id }.attachFailed k₂

/-- `bool CryptoGroup::CreateShm(size_t size)`. -/
def CryptoGroup.createShm (f : ShmFaults) (cg : CryptoGroup)
    (k : Kernel CryptoItem) (size : Nat) :
    Bool × CryptoGroup × Kernel CryptoItem :=
  if cg.key = -1 then (false, cg, k)
  else
    match k.shmget f.get cg.key size false .zeroed with
    | (.error _, k₁) => (false, { cg with shmid := -1 }, k₁)
    | (.ok id, k₁) =>
        let addr := Kernel.shmat f.attach id
        let cg := { cg with shmid := id, shmAddr := addr }
        if addr = .null then (false, cg, k₁.rmid id) else (true, cg, k₁)

/-! ## What the group's functions do -/

theorem CryptoGroup.new_ok {g maxIdx key : Int} {junk : Junk} {cg : CryptoGroup}
    (h : CryptoGroup.new g maxIdx key junk = .ok cg) :
    ∃ mgr, StpIdxMgr.new maxIdx = .ok mgr
      ∧ cg = { key := key, group := g, shmid := junk.shmid,
               shmAddr := junk.shmAddr, idxMgr := mgr } := by
  rw [CryptoGroup.new] at h
  cases hm : StpIdxMgr.new maxIdx with
  | error e =>
      rw [hm] at h
      exact nomatch h
  | ok mgr =>
      rw [hm] at h
      exact ⟨mgr, rfl, (Except.ok.inj h).symm⟩

theorem getCryptoItemByIdx_eq_none {cg : CryptoGroup} {idx : Int}
    (h : idx < 0 ∨ idx > cg.idxMgr.maxIdx) :
    cg.getCryptoItemByIdx idx = none := by
  rw [CryptoGroup.getCryptoItemByIdx, if_pos h]

theorem getCryptoItemByIdx_eq_some {cg : CryptoGroup} {idx : Int}
    (h : ¬ (idx < 0 ∨ idx > cg.idxMgr.maxIdx)) :
    cg.getCryptoItemByIdx idx = some { base := cg.shmAddr, idx := idx } := by
  rw [CryptoGroup.getCryptoItemByIdx, if_neg h]

/-- Segment `s` is there under the key, long enough, and no call fails before
    `shmat`. -/
structure Attachable (f : ShmFaults) (key : Int) (k : Kernel CryptoItem)
    (size : Nat) (s : Segment) : Prop where
  valid : key ≠ -1
  excl : f.excl = none
  found : k.find key = some s
  get : f.get = none
  long : size ≤ k.len s.id

theorem shmat_ne_null (fault : Bool) (id : Nat) :
    Kernel.shmat fault id ≠ .null := by
  cases fault <;> exact fun h => nomatch h

/-- What a failed attempt does to the kernel: nothing, or the removal of the
    segment it just created, or — with an invalid key — of whatever segment the
    unset member names. -/
def FailedAttach (cg : CryptoGroup) (k k' : Kernel CryptoItem) (size : Nat) :
    Prop :=
  (¬ (cg.key = -1 ∧ cg.shmid ≠ -1) ∧ k' = k)
    ∨ (cg.key = -1 ∧ cg.shmid ≠ -1 ∧ k' = k.rmid cg.shmid)
    ∨ (cg.key ≠ -1 ∧ k.find cg.key = none
        ∧ k' = (k.create cg.key size .zeroed).rmid k.nextId)

/-- A failed attempt removes no name but the one an unset member gives away. -/
theorem failedAttach_segs {cg : CryptoGroup} {k k' : Kernel CryptoItem}
    {size : Nat} (h : FailedAttach cg k k' size) :
    k'.segs = if cg.key = -1 ∧ cg.shmid ≠ -1 then (k.rmid cg.shmid).segs
      else k.segs := by
  rcases h with ⟨hn, hk⟩ | ⟨hkey, hid, hk⟩ | ⟨hkey, -, hk⟩
  · rw [if_neg hn, hk]
  · rw [if_pos ⟨hkey, hid⟩, hk]
  · rw [if_neg (fun hb => hkey hb.1), hk]
    exact create_rmid_segs k cg.key size .zeroed

/-- The segment is there: the second `shmget` decides. -/
theorem tryAttachShm_found {f : ShmFaults} {cg cg' : CryptoGroup}
    {k k' : Kernel CryptoItem} {size : Nat} {a : Addr} {s : Segment}
    (hkey : cg.key ≠ -1) (hx : f.excl = none) (hf : k.find cg.key = some s)
    (h : cg.tryAttachShm f k size = (a, cg', k')) :
    (Attachable f cg.key k size s ∧ a = Kernel.shmat f.attach s.id
        ∧ cg' = { cg with shmid := s.id } ∧ k' = k)
      ∨ (a = .null ∧ (∀ s', ¬ Attachable f cg.key k size s')
        ∧ cg' = { cg with shmid := -1 } ∧ k' = k) := by
  rw [CryptoGroup.tryAttachShm, if_neg hkey] at h
  simp only [Kernel.shmget, hx, hf, if_true, ne_eq, not_true_eq_false,
    if_false] at h
  cases hg : f.get with
  | some e =>
      -- the second `shmget` fails
      simp only [hg, CryptoGroup.attachFailed, ne_eq, not_true_eq_false,
        if_false] at h
      cases h
      refine Or.inr ⟨rfl, ?_, rfl, rfl⟩
      intro s' hs
      cases hg.symm.trans hs.get
  | none =>
      by_cases hlen : k.len s.id < size
      · -- the segment is too short for the second `shmget`
        simp only [hg, Bool.false_eq_true, if_false, if_pos hlen,
          CryptoGroup.attachFailed, ne_eq, not_true_eq_false] at h
        cases h
        refine Or.inr ⟨rfl, ?_, rfl, rfl⟩
        intro s' hs
        have hss : s = s' := Option.some.inj (hf.symm.trans hs.found)
        have hlong := hs.long
        rw [← hss] at hlong
        omega
      · have hnull : ¬ Kernel.shmat f.attach s.id = .null :=
          shmat_ne_null f.attach s.id
        simp only [hg, Bool.false_eq_true, if_false, if_neg hlen, hnull,
          not_false_eq_true, if_true] at h
        cases h
        exact Or.inl ⟨⟨hkey, hx, hf, hg, by omega⟩, rfl, rfl, rfl⟩

/-- **THE SIX WAYS OUT OF `TryAttachShm`**, success first. -/
theorem tryAttachShm_cases {f : ShmFaults} {cg cg' : CryptoGroup}
    {k k' : Kernel CryptoItem} {size : Nat} {a : Addr}
    (h : cg.tryAttachShm f k size = (a, cg', k')) :
    (∃ s, Attachable f cg.key k size s ∧ a = Kernel.shmat f.attach s.id
        ∧ cg' = { cg with shmid := s.id } ∧ k' = k)
      ∨ (a = .null ∧ (∀ s, ¬ Attachable f cg.key k size s)
        ∧ (∃ n, cg' = { cg with shmid := n }) ∧ FailedAttach cg k k' size) := by
  have hcall := h
  rw [CryptoGroup.tryAttachShm] at h
  by_cases hkey : cg.key = -1
  · -- `ftok` failed: whatever the unset `shmid` names is removed
    rw [if_pos hkey, CryptoGroup.attachFailed] at h
    refine Or.inr ?_
    by_cases hid : cg.shmid ≠ -1
    · rw [if_pos hid] at h
      cases h
      exact ⟨rfl, fun s hs => hs.valid hkey, ⟨cg.shmid, rfl⟩,
        Or.inr (Or.inl ⟨hkey, hid, rfl⟩)⟩
    · rw [if_neg hid] at h
      cases h
      exact ⟨rfl, fun s hs => hs.valid hkey, ⟨cg.shmid, rfl⟩,
        Or.inl ⟨fun hb => hid hb.2, rfl⟩⟩
  · rw [if_neg hkey] at h
    have hnone : FailedAttach cg k k size :=
      Or.inl ⟨fun hb => hkey hb.1, rfl⟩
    cases hx : f.excl with
    | some e =>
        -- the exclusive request fails for another reason than `EEXIST`
        simp only [Kernel.shmget, hx, if_pos e.2, CryptoGroup.attachFailed,
          ne_eq, not_true_eq_false, if_false] at h
        cases h
        refine Or.inr ⟨rfl, ?_, ⟨-1, rfl⟩, hnone⟩
        intro s hs
        cases hx.symm.trans hs.excl
    | none =>
        cases hf : k.find cg.key with
        | none =>
            -- no such segment: it is created and removed again
            have hne : ((k.nextId : Nat) : Int) ≠ -1 := by omega
            simp only [Kernel.shmget, hx, hf, CryptoGroup.attachFailed,
              if_pos hne] at h
            cases h
            refine Or.inr ⟨rfl, ?_, ⟨k.nextId, rfl⟩,
              Or.inr (Or.inr ⟨hkey, hf, rfl⟩)⟩
            intro s hs
            cases hf.symm.trans hs.found
        | some s =>
            rcases tryAttachShm_found hkey hx hf hcall with
              ⟨hs, ha, hcg, hk⟩ | ⟨ha, hno, hcg, hk⟩
            · exact Or.inl ⟨s, hs, ha, hcg, hk⟩
            · rw [hk]
              exact Or.inr ⟨ha, hno, ⟨-1, hcg⟩, hnone⟩

/-- After it a kernel without named segments is one still. -/
theorem failedAttach_of_blank {cg : CryptoGroup} {k k' : Kernel CryptoItem}
    {size : Nat} (hblank : k.segs = []) (h : FailedAttach cg k k' size) :
    k'.segs = [] := by
  rw [failedAttach_segs h, rmid_segs, hblank]
  exact ite_self _

/-- `CreateShm` succeeds with a segment in use and long enough, mapped unless
    `shmat` failed; otherwise it reports failure. -/
theorem createShm_cases {f : ShmFaults} {cg cg' : CryptoGroup}
    {k k' : Kernel CryptoItem} {size : Nat} {ok : Bool}
    (h : cg.createShm f k size = (ok, cg', k')) :
    (ok = false ∧ Extends k k')
      ∨ (ok = true ∧ ∃ id : Nat,
          cg' = { cg with shmid := id, shmAddr := Kernel.shmat f.attach id }
          ∧ cg.key ≠ -1
          ∧ k.shmget f.get cg.key size false .zeroed = (.ok id, k')) := by
  rw [CryptoGroup.createShm] at h
  by_cases hkey : cg.key = -1
  · rw [if_pos hkey] at h
    cases h
    exact Or.inl ⟨rfl, Extends.refl k⟩
  · rw [if_neg hkey] at h
    have hext := extends_shmget k f.get cg.key size false CryptoItem.zeroed
    cases hg : k.shmget f.get cg.key size false .zeroed with
    | mk r k₁ =>
        rw [hg] at h hext
        cases r with
        | error e =>
            cases h
            exact Or.inl ⟨rfl, hext⟩
        | ok id =>
            have hnull : ¬ Kernel.shmat f.attach id = .null :=
              shmat_ne_null f.attach id
            simp only [hnull, if_false] at h
            cases h
            exact Or.inr ⟨rfl, id, rfl, hkey, rfl⟩

end StpDetail
