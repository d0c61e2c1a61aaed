import StpPlatform.Rpc
import StpPlatform.StpCryptoDetail
import Mathlib.Data.List.TakeWhile
import Mathlib.Data.List.GetD

/-! # The client (`stpclient/stp_client`)

    A client keeps one crypto group, of which it uses item `0`: every reply to
    a negotiation is copied there, or wipes it.  Its segment is one item long.

    `updateCryptoShmInfo` copies the key with `strcpy`, which stops at the
    first zero byte and not at the end of the field: the bytes of a longer key
    go on over `use_crypto` and `expires` (both assigned right after), over
    `zero`, and out of the item into the rest of the page, which nothing reads;
    past the last page the copy faults.  `update_effect` says what a call that
    returns leaves in item `0`. -/

namespace StpClient

open Rpc SysVShm StpIdx StpDetail

/-- `class StpClient`: its group, and the shared memory it works on. -/
structure Client where
  cg : CryptoGroup
  kern : Kernel CryptoItem

/-- `StpClient::StpClient(const char*, int16_t)`; `key` is what `ftok` answers. -/
def Client.new (maxIdx key : Int) (junk : Junk) (kern : Kernel CryptoItem) :
    Except Halt Client :=
  match CryptoGroup.new 0 maxIdx key junk with
  | .error e => .error e
  | .ok cg => .ok { cg := cg, kern := kern }

/-- `bool StpClient::Init()`, with the faults of the two attempts. -/
def Client.init (attach create : ShmFaults) (s : Client) :
    Bool × Client :=
  match s.cg.tryAttachShm attach s.kern sizeofCryptoItem with
  | (addr, cg, kern) =>
      if addr ≠ .null then
        (true, { cg := { cg with shmAddr := addr }, kern := kern })
      else
        match cg.createShm create kern sizeofCryptoItem with
        | (ok, cg, kern) => (ok, { cg := cg, kern := kern })

/-! ## What it sends -/

/-- `void StpClient::TimerHeartBeatCallback(int, short, void*)`. -/
def timerHeartBeatCallback : C2S := .ping

/-- `void StpClient::CryptoNegotiateCallback(int, short, void*)`: the request
    carries the configured guid and no token. -/
def cryptoNegotiateCallback (stpGuid : UInt64) : C2S :=
  .stpCryptoNegotiate { stpGuid? := some stpGuid, token? := none }

/-! ## What it does with a reply -/

/-- The text `c_str()` points to. -/
def cStr (key : List UInt8) : List UInt8 := key.takeWhile (· ≠ 0)

/-- `strcpy(item->key, text)` into a field that was cleared before.  The bytes
    from number 45 on reach the field `zero`. -/
def strcpyKey (text : List UInt8) (item : CryptoItem) : CryptoItem :=
  let bytes := text ++ [0]
  { item with
    key := Vector.ofFn (fun i => bytes.getD i 0)
    zero := Vector.ofFn (fun i => (bytes.drop 45).getD i item.zero[i]) }

/-- Item `0` after a failed negotiation. -/
def wipedItem (token : StpToken) (item : CryptoItem) : CryptoItem :=
  { item with
    group := token.group
    idx := token.idx
    key := Vector.replicate 36 0
    useCrypto := false
    expires := -1 }

/-- Item `0` after a successful negotiation. -/
def storedItem (token : StpToken) (item : CryptoItem) : CryptoItem :=
  { strcpyKey (cStr token.key)
      { item with group := token.group, idx := token.idx } with
    useCrypto := true
    expires := token.expires }

/-- Where the key field starts in an item. -/
def keyOffset : Nat := 4 + 4

/-- `bool StpClient::UpdateCryptoShmInfo(rpc::StpResult, const rpc::StpToken&)`. -/
def updateCryptoShmInfo (res : StpResult) (token : StpToken) (s : Client) :
    Except Halt (Bool × Client) :=
  match s.cg.getCryptoItemByIdx 0 with
  | none => .ok (false, s)
  | some p =>
      match s.kern.load sizeofCryptoItem p.base p.idx with
      | none => .error .segv
      | some item =>
          if res ≠ .SR_OK then
            match s.kern.store sizeofCryptoItem p.base p.idx
                (wipedItem token item) with
            | none => .error .segv
            | some kern => .ok (true, { s with kern := kern })
          -- the last byte `strcpy` writes is the zero after the text
          else if ¬ s.kern.Mapped 1 p.base (keyOffset + (cStr token.key).length)
          then .error .segv
          else
            match s.kern.store sizeofCryptoItem p.base p.idx
                (storedItem token item) with
            | none => .error .segv
            | some kern => .ok (true, { s with kern := kern })

/-- `void StpClient::HandleProtocol_CryptoNegotiate(Connection*,
    rpc::S2C_StpCryptoNegotiate*)`; both of its branches make the same call. -/
def handleProtocolCryptoNegotiate (rsp : S2CStpCryptoNegotiate) (s : Client) :
    Except Halt Client :=
  match updateCryptoShmInfo rsp.res rsp.token s with
  | .error e => .error e
  | .ok (_, s) => .ok s

/-- `void StpClient::HandleProtocol_Ping(Connection*, rpc::S2C_Ping*)`. -/
def handleProtocolPing (s : Client) : Client := s

/-- The client's item `0`, when it can be read. -/
def Client.item (s : Client) : Option CryptoItem :=
  match s.cg.getCryptoItemByIdx 0 with
  | none => none
  | some p => s.kern.load sizeofCryptoItem p.base p.idx

/-! ## What a reply does -/

/-- A client whose item `0` is in segment `id`. -/
structure Attached (s : Client) (id : Nat) : Prop where
  bound : 0 ≤ s.cg.idxMgr.maxIdx
  addr : s.cg.shmAddr = .seg id
  inPages : s.kern.InPages sizeofCryptoItem id 0

theorem Attached.lookup {s : Client} {id : Nat} (h : Attached s id) :
    s.cg.getCryptoItemByIdx 0 = some { base := .seg id, idx := 0 } := by
  have hbound := h.bound
  rw [getCryptoItemByIdx_eq_some (by omega), h.addr]

theorem Attached.item {s : Client} {id : Nat} (h : Attached s id) :
    s.item = some (s.kern.mem id 0) := by
  simp only [Client.item, h.lookup]
  exact load_of_inPages h.inPages

/-- What item `0` becomes. -/
def updatedItem (res : StpResult) (token : StpToken) (item : CryptoItem) :
    CryptoItem :=
  if res ≠ .SR_OK then wipedItem token item else storedItem token item

/-- The last byte `strcpy` writes for a reply is mapped. -/
def Fits (s : Client) (id : Nat) (rsp : S2CStpCryptoNegotiate) : Prop :=
  s.kern.Mapped 1 (.seg id) (keyOffset + (cStr rsp.token.key).length)

/-- **A REPLY REPLACES ITEM `0`**, and nothing else of the client. -/
theorem handler_effect {s s' : Client} {id : Nat}
    {rsp : S2CStpCryptoNegotiate} (hs : Attached s id)
    (h : handleProtocolCryptoNegotiate rsp s = .ok s') :
    s' = { s with
      kern := s.kern.put id 0
        (updatedItem rsp.res rsp.token (s.kern.mem id 0)) } := by
  simp only [handleProtocolCryptoNegotiate, updateCryptoShmInfo, hs.lookup,
    load_of_inPages hs.inPages, store_of_inPages hs.inPages] at h
  by_cases hres : rsp.res ≠ .SR_OK
  · simp only [if_pos hres] at h
    cases h
    simp only [updatedItem, if_pos hres]
  · simp only [if_neg hres] at h
    by_cases hfits : Fits s id rsp <;> rw [Fits] at hfits
    · rw [if_neg (not_not.mpr hfits)] at h
      cases h
      simp only [updatedItem, if_neg hres]
    · rw [if_pos hfits] at h
      cases h

/-- A reply that fits is handled. -/
theorem handler_returns {s : Client} {id : Nat} {rsp : S2CStpCryptoNegotiate}
    (hs : Attached s id) (hfits : Fits s id rsp) :
    ∃ s', handleProtocolCryptoNegotiate rsp s = .ok s' := by
  rw [Fits] at hfits
  simp only [handleProtocolCryptoNegotiate, updateCryptoShmInfo, hs.lookup,
    load_of_inPages hs.inPages, store_of_inPages hs.inPages]
  by_cases hres : rsp.res ≠ .SR_OK
  · rw [if_pos hres]
    exact ⟨_, rfl⟩
  · rw [if_neg hres, if_neg (not_not.mpr hfits)]
    exact ⟨_, rfl⟩

/-- A text of up to 55 bytes does not leave the item. -/
theorem Attached.fits {s : Client} {id : Nat} {rsp : S2CStpCryptoNegotiate}
    (hs : Attached s id) (hlen : (cStr rsp.token.key).length ≤ 55) :
    Fits s id rsp := by
  have hitem : (0 + 1) * ((64 : Nat) : Int) ≤ mappedBytes (s.kern.len id) :=
    hs.inPages.2
  have hend : ((8 : Nat) + ((cStr rsp.token.key).length : Int) + 1)
      * ((1 : Nat) : Int) ≤ mappedBytes (s.kern.len id) := by omega
  exact mapped_of_inPages ⟨Int.add_nonneg (by decide) (Int.natCast_nonneg _), hend⟩

/-- Behind `(void*)-1` a reply faults. -/
theorem handler_faults {s : Client} (rsp : S2CStpCryptoNegotiate)
    (hbound : 0 ≤ s.cg.idxMgr.maxIdx) (haddr : s.cg.shmAddr = .failed) :
    handleProtocolCryptoNegotiate rsp s = .error .segv := by
  have hlookup : s.cg.getCryptoItemByIdx 0 = some { base := .failed, idx := 0 } := by
    rw [getCryptoItemByIdx_eq_some (by omega), haddr]
  simp only [handleProtocolCryptoNegotiate, updateCryptoShmInfo, hlookup]
  rfl

/-- The client stays attached to its segment. -/
theorem Attached.put {s : Client} {id : Nat} (h : Attached s id)
    (item : CryptoItem) :
    Attached { s with kern := s.kern.put id 0 item } id :=
  ⟨h.bound, h.addr, h.inPages⟩

/-- A text without zero bytes is read as a C string whole. -/
theorem cStr_of_keyField {key : Vector UInt8 36} {text : List UInt8}
    (h : KeyField key text) : cStr text = text := by
  refine List.takeWhile_eq_self_iff.mpr ?_
  intro c hc
  simpa using keyTab_ne_zero c (h.chars c hc)

/-- Past its 32 characters the field holds zeros, the first one written by
    `strcpy`, the others left from clearing the field. -/
theorem strcpyKey_getElem {text : List UInt8} (hlen : text.length = 32)
    (item : CryptoItem) {i : Nat} (hi : i < 36) :
    (strcpyKey text item).key[i] = (text ++ List.replicate 4 0).getD i 0 := by
  simp only [strcpyKey, Vector.getElem_ofFn]
  by_cases hin : i < text.length
  · rw [List.getD_append _ _ _ _ hin, List.getD_append _ _ _ _ hin]
  · rw [List.getD_append_right _ _ _ _ (by omega),
      List.getD_append_right _ _ _ _ (by omega), List.getD_replicate 0 (by omega),
      List.getD_eq_getElem?_getD, List.getElem?_getD_singleton_default_eq]

/-- **A KEY ARRIVES UNCHANGED** when it has the shape the server draws. -/
theorem strcpyKey_of_keyField {key : Vector UInt8 36} {text : List UInt8}
    (h : KeyField key text) (item : CryptoItem) :
    (strcpyKey (cStr text) item).key = key := by
  rw [cStr_of_keyField h]
  ext i hi
  rw [strcpyKey_getElem h.length item hi, ← h.bytes]
  simp [hi]

/-! ## A client that just started -/

theorem new_ok {maxIdx key : Int} {junk : Junk} {kern : Kernel CryptoItem}
    {s : Client} (h : Client.new maxIdx key junk kern = .ok s) :
    s.kern = kern ∧ 0 ≤ s.cg.idxMgr.maxIdx := by
  rw [Client.new] at h
  cases hg : CryptoGroup.new 0 maxIdx key junk with
  | error e =>
      rw [hg] at h
      cases h
  | ok cg =>
      rw [hg] at h
      cases h
      obtain ⟨mgr, hm, hcg⟩ := CryptoGroup.new_ok hg
      obtain ⟨hrange, hmax, -⟩ := StpIdxMgr.new_ok hm
      refine ⟨rfl, ?_⟩
      rw [hcg]
      show 0 ≤ mgr.maxIdx
      omega

/-- A segment of the requested length has room for the item. -/
theorem attached_of_long {s : Client} {id : Nat} (hbound : 0 ≤ s.cg.idxMgr.maxIdx)
    (haddr : s.cg.shmAddr = .seg id) (hlong : sizeofCryptoItem ≤ s.kern.len id) :
    Attached s id := by
  refine ⟨hbound, haddr, @inPages_of_lt _ _ _ _ 1 _ (Int.le_refl 0) Int.one_pos ?_⟩
  omega

/-- How `Init` returns: with a segment that was there, or with what `CreateShm`
    made of a failed attempt. -/
theorem Client.init_cases {attach create : ShmFaults} {s s' : Client} {ret : Bool}
    (h : s.init attach create = (ret, s')) :
    (ret = true ∧ ∃ seg, Attachable attach s.cg.key s.kern sizeofCryptoItem seg
        ∧ s' = { cg := { s.cg with
                    shmid := seg.id
                    shmAddr := Kernel.shmat attach.attach seg.id }
                 kern := s.kern })
      ∨ ∃ (n : Int) (kern : Kernel CryptoItem),
        (∀ seg, ¬ Attachable attach s.cg.key s.kern sizeofCryptoItem seg)
          ∧ FailedAttach s.cg s.kern kern sizeofCryptoItem
          ∧ { s.cg with shmid := n }.createShm create kern sizeofCryptoItem
            = (ret, s'.cg, s'.kern) := by
  rw [Client.init] at h
  cases ht : s.cg.tryAttachShm attach s.kern sizeofCryptoItem with
  | mk addr p =>
      obtain ⟨cg₁, kern₁⟩ := p
      simp only [ht] at h
      rcases tryAttachShm_cases ht with
        ⟨seg, hatt, ha, hcg, hk⟩ | ⟨ha, hno, ⟨n, hcg⟩, hfail⟩
      · have hnull : addr ≠ .null := ha ▸ shmat_ne_null _ _
        rw [if_pos hnull] at h
        cases h
        subst ha hcg hk
        exact Or.inl ⟨rfl, seg, hatt, rfl⟩
      · simp only [ha, ne_eq, not_true_eq_false, if_false] at h
        subst hcg
        cases hc : { s.cg with shmid := n }.createShm create kern₁
            sizeofCryptoItem with
        | mk ok q =>
            simp only [hc] at h
            cases h
            exact Or.inr ⟨n, kern₁, hno, hfail, hc⟩

/-- What `Init` leaves when it returns `true`: the item is mapped, or `shmat`
    failed and was not noticed. -/
theorem init_attached {attach create : ShmFaults} {s s' : Client}
    (hbound : 0 ≤ s.cg.idxMgr.maxIdx) (h : s.init attach create = (true, s')) :
    0 ≤ s'.cg.idxMgr.maxIdx
      ∧ (s'.cg.shmAddr = .failed ∨ ∃ id, Attached s' id) := by
  rcases Client.init_cases h with ⟨-, seg, hatt, hs'⟩ | ⟨n, kern, -, -, hc⟩
  · -- an existing segment, found long enough
    subst hs'
    refine ⟨hbound, ?_⟩
    cases attach.attach with
    | true => exact Or.inl rfl
    | false => exact Or.inr ⟨seg.id, attached_of_long hbound rfl hatt.long⟩
  · -- or one that `CreateShm` asks for
    rcases createShm_cases hc with ⟨hok, -⟩ | ⟨-, id, hcg', -, hget⟩
    · cases hok
    · obtain ⟨-, hlong⟩ := shmget_ok hget
      have hbound' : 0 ≤ s'.cg.idxMgr.maxIdx := by
        rw [hcg']
        exact hbound
      have haddr : s'.cg.shmAddr = Kernel.shmat create.attach id := by rw [hcg']
      refine ⟨hbound', ?_⟩
      cases hf : create.attach with
      | true =>
          rw [hf] at haddr
          exact Or.inl haddr
      | false =>
          rw [hf] at haddr
          exact Or.inr ⟨id, attached_of_long hbound' haddr hlong⟩

/-- The segment a client creates has room for its item, which is zero. -/
theorem attached_create (kern : Kernel CryptoItem) (cg : CryptoGroup) (n : Int)
    (hbound : 0 ≤ cg.idxMgr.maxIdx) :
    Attached
        { cg := { cg with shmid := n, shmAddr := .seg kern.nextId }
          kern := kern.create cg.key sizeofCryptoItem .zeroed } kern.nextId
      ∧ (kern.create cg.key sizeofCryptoItem .zeroed).mem kern.nextId 0
        = .zeroed := by
  refine ⟨attached_of_long hbound rfl ?_, ?_⟩
  · rw [create_len_self]
  · rw [create_mem_self]

/-- **A NEW CLIENT** on a kernel without named segments has a segment of its own,
    filled with zeros, or `shmat` failed for it. -/
theorem init_of_blank {attach create : ShmFaults} {s s' : Client}
    (hblank : s.kern.segs = []) (hbound : 0 ≤ s.cg.idxMgr.maxIdx)
    (h : s.init attach create = (true, s')) :
    0 ≤ s'.cg.idxMgr.maxIdx ∧ (s'.cg.shmAddr = .failed
      ∨ ∃ id, Attached s' id ∧ s'.kern.mem id 0 = .zeroed) := by
  rcases Client.init_cases h with ⟨-, seg, hatt, -⟩ | ⟨n, kern, -, hfail, hc⟩
  · cases (find_of_blank hblank _).symm.trans hatt.found
  · have hsegs := failedAttach_of_blank hblank hfail
    rcases createShm_cases hc with ⟨hok, -⟩ | ⟨-, id, hcg', -, hget⟩
    · cases hok
    · obtain ⟨hid, hk⟩ := shmget_of_blank hsegs hget
      cases s'
      subst hcg' hid hk
      refine ⟨hbound, ?_⟩
      cases hfault : create.attach with
      | true => exact Or.inl rfl
      | false =>
          exact Or.inr ⟨_, attached_create kern { s.cg with shmid := n } _ hbound⟩

end StpClient
