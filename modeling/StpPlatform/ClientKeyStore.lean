import StpPlatform.ByteMemory
import StpPlatform.ByteOrder
import StpPlatform.StpClient

/-! # The client's key store, byte by byte

    `StpClient` describes what a reply does to the client's crypto item as a
    record.  Other processes read the segment as bytes, so this file follows
    the same call through the packed layout: which bytes `UpdateCryptoShmInfo`
    writes, and how far `strcpy` runs when a key is longer than its field.

    `update_refines` connects the two: the bytes of the item are the packed
    record.  `key_store_iff` says when the item is what the last reply asked
    for, after every reply of any sequence: exactly if every key that is stored
    has at most 35 bytes and no zero byte among them. -/

namespace StpKeyStore

open ByteMemory ByteOrder Rpc SysVShm StpIdx StpDetail StpClient

/-! ## The packed layout -/

/-- `offsetof(CryptoItem, group)`. -/
def groupOffset : Nat := 0

/-- `offsetof(CryptoItem, idx)`. -/
def idxOffset : Nat := groupOffset + 4

/-- `sizeof(CryptoItem::key)`. -/
def keySize : Nat := 36

/-- `offsetof(CryptoItem, use_crypto)`. -/
def useCryptoOffset : Nat := keyOffset + keySize

/-- `offsetof(CryptoItem, expires)`: the record is packed. -/
def expiresOffset : Nat := useCryptoOffset + 1

/-- `offsetof(CryptoItem, zero)`. -/
def zeroOffset : Nat := expiresOffset + 8

/-! ## `UpdateCryptoShmInfo` on bytes -/

/-- The assignments around the key: `group` and `idx` before it, `use_crypto`
    and `expires` behind it. -/
def itemWritten (e : Endian) (token : StpToken) (writeKey : Bytes → Bytes)
    (useCrypto : UInt8) (expires : Int) (m : Bytes) : Bytes :=
  let m := write m groupOffset (e.storeInt32 token.group)
  let m := write m idxOffset (e.storeInt32 token.idx)
  let m := writeKey m
  let m := write m useCryptoOffset [useCrypto]
  write m expiresOffset (e.storeInt64 expires)

/-- The branch of a failed negotiation. -/
def wipedBytes (e : Endian) (token : StpToken) (m : Bytes) : Bytes :=
  itemWritten e token (fun m => write m keyOffset (List.replicate keySize 0)) 0
    (-1) m

/-- The branch of a successful negotiation. -/
def storedBytes (e : Endian) (token : StpToken) (m : Bytes) : Bytes :=
  itemWritten e token (fun m => writeCString m keyOffset keySize (cStr token.key)) 1
    token.expires m

/-- `bool StpClient::UpdateCryptoShmInfo(rpc::StpResult, const rpc::StpToken&)` on
    the bytes behind `shm_addr`. -/
def updateCryptoShmInfoBytes (e : Endian) (s : Client) (res : StpResult)
    (token : StpToken) (m : Bytes) : Except Halt (Bool × Bytes) :=
  match s.cg.getCryptoItemByIdx 0 with
  | none => .ok (false, m)
  | some p =>
      if ¬ s.kern.Mapped sizeofCryptoItem p.base p.idx then .error .segv
      else if res ≠ .SR_OK then .ok (true, wipedBytes e token m)
      -- the last byte `strcpy` writes is the zero after the text
      else if ¬ s.kern.Mapped 1 p.base (keyOffset + (cStr token.key).length)
      then .error .segv
      else .ok (true, storedBytes e token m)

/-- The bytes after a sequence of replies. -/
def handleAll (e : Endian) (s : Client) :
    List S2CStpCryptoNegotiate → Bytes → Except Halt Bytes
  | [], m => .ok m
  | rsp :: rsps, m =>
      match updateCryptoShmInfoBytes e s rsp.res rsp.token m with
      | .error halt => .error halt
      | .ok (_, m) => handleAll e s rsps m

/-! ## What a reply should leave -/

/-- The item holds the token, and nothing of an earlier key. -/
structure Stored (e : Endian) (token : StpToken) (m : Bytes) : Prop where
  group : read m groupOffset 4 = e.storeInt32 token.group
  idx : read m idxOffset 4 = e.storeInt32 token.idx
  key : readCString m keyOffset keySize = some token.key
  rest : ∀ i, token.key.length ≤ i → i < keySize → m (keyOffset + i) = 0
  useCrypto : m useCryptoOffset = 1
  expires : read m expiresOffset 8 = e.storeInt64 token.expires

/-- The item is wiped. -/
structure Wiped (e : Endian) (token : StpToken) (m : Bytes) : Prop where
  group : read m groupOffset 4 = e.storeInt32 token.group
  idx : read m idxOffset 4 = e.storeInt32 token.idx
  key : read m keyOffset keySize = List.replicate keySize 0
  useCrypto : m useCryptoOffset = 0
  expires : read m expiresOffset 8 = e.storeInt64 (-1)

/-- One reply is handled as it should be: the item is what the reply asks for, or
    the reply is refused, and no byte outside the fields has changed. -/
def ReplyOk (e : Endian) (rsp : S2CStpCryptoNegotiate) (ret : Bool)
    (m m' : Bytes) : Prop :=
  (rsp.res = .SR_OK ∧ ret = false ∧ m' = m)
    ∨ (ret = true ∧ (rsp.res = .SR_OK → Stored e rsp.token m')
      ∧ (rsp.res ≠ .SR_OK → Wiped e rsp.token m')
      ∧ ∀ i, zeroOffset ≤ i → m' i = m i)

/-- Every reply of a sequence is handled as it should be. -/
def KeyStoreOk (e : Endian) (s : Client) (m : Bytes)
    (rsps : List S2CStpCryptoNegotiate) : Prop :=
  ∀ pre rsp post, rsps = pre ++ rsp :: post → ∃ m₁ ret m₂,
    handleAll e s pre m = .ok m₁
      ∧ updateCryptoShmInfoBytes e s rsp.res rsp.token m₁ = .ok (ret, m₂)
      ∧ ReplyOk e rsp ret m₁ m₂

/-- The key fits its field as a C string. -/
def Storable (key : List UInt8) : Prop := key.length < keySize ∧ (0 : UInt8) ∉ key

/-- Its length and its bytes are looked at. -/
instance (key : List UInt8) : Decidable (Storable key) :=
  inferInstanceAs (Decidable (_ ∧ _))

/-! ## The fields after the assignments -/

/-- The offsets as numbers; the record fills its 64 bytes. -/
theorem layout : groupOffset = 0 ∧ idxOffset = 4 ∧ keyOffset = 8 ∧ keySize = 36
    ∧ useCryptoOffset = 44 ∧ expiresOffset = 45 ∧ zeroOffset = 53
    ∧ sizeofCryptoItem = 64 := by
  decide

section Fields

variable {e : Endian} {token : StpToken} {writeKey : Bytes → Bytes}
  {useCrypto : UInt8} {expires : Int} {m : Bytes}

/-- The bytes that the assignments behind the key do not reach. -/
theorem itemWritten_apart {i : Nat}
    (h : i < useCryptoOffset ∨ zeroOffset ≤ i) :
    itemWritten e token writeKey useCrypto expires m i
      = writeKey (write (write m groupOffset (e.storeInt32 token.group)) idxOffset
          (e.storeInt32 token.idx)) i := by
  have hlayout := layout
  rw [itemWritten, write_apart, write_apart]
  · rw [List.length_singleton]
    omega
  · rw [length_storeInt64]
    omega

/-- What was assigned before the key, when the key stays behind it. -/
theorem itemWritten_head (hkey : ∀ m i, i < keyOffset → writeKey m i = m i) :
    read (itemWritten e token writeKey useCrypto expires m) groupOffset 4
        = e.storeInt32 token.group
      ∧ read (itemWritten e token writeKey useCrypto expires m) idxOffset 4
        = e.storeInt32 token.idx := by
  have hlayout := layout
  have hhead : ∀ off, off + 4 ≤ keyOffset →
      read (itemWritten e token writeKey useCrypto expires m) off 4
        = read (write (write m groupOffset (e.storeInt32 token.group)) idxOffset
            (e.storeInt32 token.idx)) off 4 := by
    intro off hoff
    refine read_congr ?_
    intro i hi
    rw [itemWritten_apart (by omega), hkey _ _ (by omega)]
  refine ⟨?_, ?_⟩
  · rw [hhead groupOffset (by omega), read_write_apart (by omega),
      read_write_self (length_storeInt32 e _)]
  · rw [hhead idxOffset (by omega), read_write_self (length_storeInt32 e _)]

/-- The byte behind the key is set after the key was copied. -/
theorem itemWritten_useCrypto :
    itemWritten e token writeKey useCrypto expires m useCryptoOffset = useCrypto := by
  have hlayout := layout
  rw [itemWritten, write_apart (by omega)]
  exact write_inside (i := 0) Nat.one_pos

theorem itemWritten_expires :
    read (itemWritten e token writeKey useCrypto expires m) expiresOffset 8
      = e.storeInt64 expires :=
  read_write_self (length_storeInt64 e expires)

end Fields

/-- What stands before the key and behind the item's fields is not touched by the
    assignments before the key. -/
theorem head_apart (e : Endian) (token : StpToken) (m : Bytes) {i : Nat}
    (h : keyOffset ≤ i) :
    write (write m groupOffset (e.storeInt32 token.group)) idxOffset
      (e.storeInt32 token.idx) i = m i := by
  have hlayout := layout
  rw [write_apart, write_apart]
  · rw [length_storeInt32]
    omega
  · rw [length_storeInt32]
    omega

/-- A key that fits ends where it ends. -/
theorem cStr_of_storable {key : List UInt8} (h : Storable key) : cStr key = key := by
  refine List.takeWhile_eq_self_iff.mpr ?_
  intro b hb
  have hne : b ≠ 0 := fun hb0 => h.2 (hb0 ▸ hb)
  simpa using hne

/-- The key field after a key was copied there, of whatever length. -/
theorem storedBytes_key (e : Endian) (token : StpToken) (m : Bytes) :
    ∀ i, i < keySize →
      storedBytes e token m (keyOffset + i) = (cStr token.key ++ [0]).getD i 0 := by
  have hlayout := layout
  intro i hi
  rw [storedBytes, itemWritten_apart (by omega), writeCString_field hi]

/-- **A KEY THAT FITS IS STORED**, whatever was there. -/
theorem stored_storedBytes (e : Endian) {token : StpToken} (m : Bytes)
    (h : Storable token.key) : Stored e token (storedBytes e token m) := by
  obtain ⟨hgroup, hidx⟩ := @itemWritten_head e token
    (fun m => writeCString m keyOffset keySize (cStr token.key)) 1 token.expires m
    (fun m i hi => writeCString_apart (Or.inl hi))
  have hkey := storedBytes_key e token m
  rw [cStr_of_storable h] at hkey
  refine ⟨hgroup, hidx, ?_, ?_, itemWritten_useCrypto, itemWritten_expires⟩
  · refine @readCString_of_read _ _ _ _
      (List.replicate (keySize - token.key.length - 1) 0) ?_ h.2
    rw [← @read_writeCString m keyOffset keySize token.key h.1]
    refine read_congr ?_
    intro i hi
    rw [hkey i hi, writeCString_field hi]
  · intro i hlo hi
    rw [hkey i hi, List.getD_append_right _ _ _ _ hlo, List.getD_eq_getElem?_getD,
      List.getElem?_getD_singleton_default_eq]

/-- `strcpy` stays inside the field. -/
theorem storedBytes_frame (e : Endian) {token : StpToken} (m : Bytes)
    (h : Storable token.key) {i : Nat} (hi : zeroOffset ≤ i) :
    storedBytes e token m i = m i := by
  have hlayout := layout
  have hlen := h.1
  rw [storedBytes, itemWritten_apart (Or.inr hi), cStr_of_storable h,
    writeCString_apart (by omega), head_apart e token m (by omega)]

/-- What a refusal writes is a wiped item. -/
theorem wiped_wipedBytes (e : Endian) (token : StpToken) (m : Bytes) :
    Wiped e token (wipedBytes e token m) := by
  have hlayout := layout
  obtain ⟨hgroup, hidx⟩ := @itemWritten_head e token
    (fun m => write m keyOffset (List.replicate keySize 0)) 0 (-1) m
    (fun m i hi => write_apart (Or.inl hi))
  refine ⟨hgroup, hidx, ?_, itemWritten_useCrypto, itemWritten_expires⟩
  rw [← @read_write_self m keyOffset keySize (List.replicate keySize 0)
    List.length_replicate]
  refine read_congr ?_
  intro i hi
  rw [wipedBytes, itemWritten_apart (by omega), write_inside (by simpa using hi),
    write_inside (by simpa using hi)]

/-- It reaches no byte outside the fields. -/
theorem wipedBytes_frame (e : Endian) (token : StpToken) (m : Bytes) {i : Nat}
    (hi : zeroOffset ≤ i) : wipedBytes e token m i = m i := by
  have hlayout := layout
  rw [wipedBytes, itemWritten_apart (Or.inr hi), write_apart,
    head_apart e token m (by omega)]
  rw [List.length_replicate]
  omega

/-! ## One reply -/

section Reply

variable {e : Endian} {s : Client} {id : Nat} {rsp : S2CStpCryptoNegotiate}
  {m : Bytes}

/-- A client whose item is mapped handles a reply that fits, and as it should. -/
theorem reply_ok (hs : Attached s id)
    (hkey : rsp.res = .SR_OK → Storable rsp.token.key) :
    ∃ ret m', updateCryptoShmInfoBytes e s rsp.res rsp.token m = .ok (ret, m')
      ∧ ReplyOk e rsp ret m m' := by
  have hlayout := layout
  simp only [updateCryptoShmInfoBytes, hs.lookup]
  rw [if_neg (not_not.mpr (mapped_of_inPages hs.inPages))]
  by_cases hres : rsp.res ≠ .SR_OK
  · rw [if_pos hres]
    exact ⟨true, _, rfl, Or.inr ⟨rfl, fun h => absurd h hres,
      fun _ => wiped_wipedBytes e _ m, fun i hi => wipedBytes_frame e _ m hi⟩⟩
  · have hok : rsp.res = .SR_OK := not_not.mp hres
    have hstore := hkey hok
    have hfits : Fits s id rsp := by
      refine hs.fits ?_
      have hlen := hstore.1
      rw [cStr_of_storable hstore]
      omega
    rw [Fits] at hfits
    rw [if_neg hres, if_neg (not_not.mpr hfits)]
    exact ⟨true, _, rfl, Or.inr ⟨rfl, fun _ => stored_storedBytes e m hstore,
      fun h => absurd hok h, fun i hi => storedBytes_frame e m hstore hi⟩⟩

/-- Behind `(void*)-1` every reply faults. -/
theorem reply_faults (hbound : 0 ≤ s.cg.idxMgr.maxIdx)
    (haddr : s.cg.shmAddr = .failed) :
    updateCryptoShmInfoBytes e s rsp.res rsp.token m = .error .segv := by
  have hlookup : s.cg.getCryptoItemByIdx 0 = some { base := .failed, idx := 0 } := by
    rw [getCryptoItemByIdx_eq_some (by omega), haddr]
  simp only [updateCryptoShmInfoBytes, hlookup]
  rfl

/-- The item of a client that has one is never refused. -/
theorem reply_not_refused (hbound : 0 ≤ s.cg.idxMgr.maxIdx) {ret : Bool}
    {m' : Bytes}
    (h : updateCryptoShmInfoBytes e s rsp.res rsp.token m = .ok (ret, m')) :
    ret = true := by
  have hlookup : s.cg.getCryptoItemByIdx 0 = some { base := s.cg.shmAddr, idx := 0 } :=
    getCryptoItemByIdx_eq_some (by omega)
  simp only [updateCryptoShmInfoBytes, hlookup] at h
  split at h
  · cases h
  · split at h
    · cases h
      rfl
    · split at h <;> cases h
      rfl

/-- **A REPLY HANDLED AS IT SHOULD BE** carries a key that fits. -/
theorem storable_of_replyOk (hbound : 0 ≤ s.cg.idxMgr.maxIdx) {ret : Bool}
    {m' : Bytes}
    (h : updateCryptoShmInfoBytes e s rsp.res rsp.token m = .ok (ret, m'))
    (hok : ReplyOk e rsp ret m m') (hres : rsp.res = .SR_OK) :
    Storable rsp.token.key := by
  have hret := reply_not_refused hbound h
  rcases hok with ⟨-, hfalse, -⟩ | ⟨-, hstored, -⟩
  · rw [hret] at hfalse
    cases hfalse
  · exact readCString_some (hstored hres).key

end Reply

/-! ## The record and its bytes -/

/-- The bytes of an item are its fields, packed. -/
structure Packed (e : Endian) (item : CryptoItem) (m : Bytes) : Prop where
  group : read m groupOffset 4 = e.storeInt32 item.group
  idx : read m idxOffset 4 = e.storeInt32 item.idx
  key : ∀ i (h : i < 36), m (keyOffset + i) = item.key[i]
  useCrypto : m useCryptoOffset = if item.useCrypto then 1 else 0
  expires : read m expiresOffset 8 = e.storeInt64 item.expires
  zero : ∀ i (h : i < 11), m (zeroOffset + i) = item.zero[i]

section Packed

variable {e : Endian} {token : StpToken} {item : CryptoItem} {m : Bytes}

/-- The record of the wiped item is the wiped record. -/
theorem packed_wiped (h : Packed e item m) :
    Packed e (wipedItem token item) (wipedBytes e token m) := by
  have hlayout := layout
  have hwiped := wiped_wipedBytes e token m
  refine ⟨hwiped.group, hwiped.idx, ?_, hwiped.useCrypto, hwiped.expires, ?_⟩
  · intro i hi
    have hkey := @getElem_read (wipedBytes e token m) keyOffset keySize i
      (by rw [length_read]; omega)
    rw [← hkey]
    simp only [hwiped.key, wipedItem, List.getElem_replicate, Vector.getElem_replicate]
  · intro i hi
    rw [wipedBytes_frame e token m (by omega), h.zero i hi]
    rfl

/-- However long the key is, `strcpy` does to the bytes what `strcpyKey` does to
    the record. -/
theorem packed_stored (h : Packed e item m) :
    Packed e (storedItem token item) (storedBytes e token m) := by
  have hlayout := layout
  obtain ⟨hgroup, hidx⟩ := @itemWritten_head e token
    (fun m => writeCString m keyOffset keySize (cStr token.key)) 1 token.expires m
    (fun m i hi => writeCString_apart (Or.inl hi))
  refine ⟨hgroup, hidx, ?_, itemWritten_useCrypto, itemWritten_expires, ?_⟩
  · intro i hi
    rw [storedBytes_key e token m i (by omega)]
    simp only [storedItem, strcpyKey, Vector.getElem_ofFn]
  · intro i hi
    have hoff : zeroOffset + i = keyOffset + (45 + i) := by omega
    simp only [storedItem, strcpyKey, Vector.getElem_ofFn]
    rw [storedBytes, itemWritten_apart (by omega)]
    have hlen : (cStr token.key ++ [(0 : UInt8)]).length
        = (cStr token.key).length + 1 := by simp
    by_cases hin : 45 + i < (cStr token.key).length + 1
    · -- the text reaches this byte
      rw [hoff, writeCString_inside hin, List.getD_eq_getElem _ _ (by omega),
        List.getD_eq_getElem _ _ (by rw [List.length_drop]; omega),
        List.getElem_drop]
    · rw [writeCString_apart (by omega), head_apart e token m (by omega),
        h.zero i hi,
        List.getD_eq_default _ _ (by rw [List.length_drop]; omega)]
      rfl

end Packed

/-- **THE BYTES REFINE THE RECORD**: a reply faults on both or on neither, and
    the bytes of the item stay the packed record. -/
theorem update_refines {e : Endian} {s : Client} {id : Nat}
    {rsp : S2CStpCryptoNegotiate} {m : Bytes} (hs : Attached s id)
    (h : Packed e (s.kern.mem id 0) m) :
    (∃ s' m', handleProtocolCryptoNegotiate rsp s = .ok s'
        ∧ updateCryptoShmInfoBytes e s rsp.res rsp.token m = .ok (true, m')
        ∧ Packed e (s'.kern.mem id 0) m')
      ∨ (handleProtocolCryptoNegotiate rsp s = .error .segv
        ∧ updateCryptoShmInfoBytes e s rsp.res rsp.token m = .error .segv) := by
  simp only [handleProtocolCryptoNegotiate, updateCryptoShmInfo,
    updateCryptoShmInfoBytes, hs.lookup, load_of_inPages hs.inPages,
    store_of_inPages hs.inPages]
  rw [if_neg (not_not.mpr (mapped_of_inPages hs.inPages))]
  by_cases hres : rsp.res ≠ .SR_OK
  · rw [if_pos hres, if_pos hres]
    refine Or.inl ⟨_, _, rfl, rfl, ?_⟩
    rw [put_mem_same]
    exact packed_wiped h
  · rw [if_neg hres, if_neg hres]
    by_cases hfits : ¬ Fits s id rsp <;> rw [Fits] at hfits
    · rw [if_pos hfits, if_pos hfits]
      exact Or.inr ⟨rfl, rfl⟩
    · rw [if_neg hfits, if_neg hfits]
      refine Or.inl ⟨_, _, rfl, rfl, ?_⟩
      rw [put_mem_same]
      exact packed_stored h

/-! ## A client that has been initialised -/

/-- Replies whose keys fit leave the client with an item. -/
theorem handleAll_returns {e : Endian} {s : Client} {id : Nat} (hs : Attached s id)
    (rsps : List S2CStpCryptoNegotiate)
    (hkeys : ∀ rsp ∈ rsps, rsp.res = .SR_OK → Storable rsp.token.key) :
    ∀ m, ∃ m', handleAll e s rsps m = .ok m' := by
  induction rsps with
  | nil => exact fun m => ⟨m, rfl⟩
  | cons rsp rsps ih =>
      intro m
      obtain ⟨ret, m₁, hstep, -⟩ :=
        @reply_ok e s id rsp m hs (hkeys rsp List.mem_cons_self)
      obtain ⟨m', hrest⟩ := ih (fun r hr => hkeys r (List.mem_cons_of_mem _ hr)) m₁
      refine ⟨m', ?_⟩
      simp only [handleAll, hstep, hrest]

/-- **CLIENT KEY STORE**: after every reply of a sequence the item is what that
    reply asks for exactly if the client is attached and every key that is stored
    fits its field. -/
theorem key_store_iff {maxIdx key : Int} {junk : Junk} {kern : Kernel CryptoItem}
    {attach create : ShmFaults} {s s₀ : Client} (e : Endian) (m : Bytes)
    (rsps : List S2CStpCryptoNegotiate)
    (hnew : Client.new maxIdx key junk kern = .ok s)
    (hinit : s.init attach create = (true, s₀)) :
    KeyStoreOk e s₀ m rsps
      ↔ rsps = [] ∨ (s₀.cg.shmAddr ≠ .failed
        ∧ ∀ rsp ∈ rsps, rsp.res = .SR_OK → Storable rsp.token.key) := by
  obtain ⟨hbound, haddr⟩ := init_attached (new_ok hnew).2 hinit
  constructor
  · intro hok
    cases rsps with
    | nil => exact Or.inl rfl
    | cons first rest =>
        refine Or.inr ⟨?_, ?_⟩
        · intro hfailed
          obtain ⟨m₁, ret, m₂, -, hstep, -⟩ := hok [] first rest rfl
          rw [reply_faults hbound hfailed] at hstep
          cases hstep
        · intro rsp hmem hres
          obtain ⟨pre, post, hsplit⟩ := List.append_of_mem hmem
          obtain ⟨m₁, ret, m₂, -, hstep, hreply⟩ := hok pre rsp post hsplit
          exact storable_of_replyOk hbound hstep hreply hres
  · rintro (hnil | ⟨hattached, hkeys⟩) pre rsp post hsplit
    · rw [hnil] at hsplit
      exact absurd hsplit.symm (List.append_ne_nil_of_right_ne_nil pre
        (List.cons_ne_nil rsp post))
    · obtain ⟨id, hs⟩ := haddr.resolve_left hattached
      have hpre : ∀ r ∈ pre, r ∈ rsps := by
        intro r hr
        rw [hsplit]
        exact List.mem_append_left _ hr
      have hrsp : rsp ∈ rsps := by
        rw [hsplit]
        exact List.mem_append_right _ List.mem_cons_self
      obtain ⟨m₁, hbefore⟩ := @handleAll_returns e s₀ id hs pre
        (fun r hr => hkeys r (hpre r hr)) m
      obtain ⟨ret, m₂, hstep, hreply⟩ := @reply_ok e s₀ id rsp m₁ hs (hkeys rsp hrsp)
      exact ⟨m₁, ret, m₂, hbefore, hstep, hreply⟩

/-- A client on a kernel without segments, as constructed. -/
def newClient : Client where
  cg :=
    { key := 100
      group := 0
      shmid := -1
      shmAddr := .null
      idxMgr := { maxIdx := 1, idxSet := {0} } }
  kern := .empty .zeroed

/-- The client after `Init` created its segment. -/
def startedClient : Client := (newClient.init .none .none).2

/-- A successful reply with a key of `n` letters. -/
def replyOfLength (n : Nat) : S2CStpCryptoNegotiate where
  res? := some .SR_OK
  stpGuid? := some 1
  token? := some (generateToken 1 0 0 1060 (List.replicate n 97))

/-- The constructor gives that client. -/
theorem new_newClient :
    Client.new 1 100 ⟨-1, .null⟩ (.empty .zeroed) = .ok newClient :=
  rfl

theorem init_newClient : newClient.init .none .none = (true, startedClient) := rfl

/-- A refusal, which the client answers by wiping the key. -/
def refusal : S2CStpCryptoNegotiate where
  res? := some .SR_NegotiateFailed
  stpGuid? := some 1
  token? := none

/-- A key as the server draws it, a refusal, and the longest key that fits. -/
def threeReplies : List S2CStpCryptoNegotiate :=
  [replyOfLength 32, refusal, replyOfLength 35]

/-- All three replies leave the item that they ask for. -/
theorem key_store_iff_started :
    KeyStoreOk .little startedClient (fun _ => 0) threeReplies := by
  refine (key_store_iff .little (fun _ => 0) threeReplies new_newClient
    init_newClient).mpr (Or.inr ⟨by decide, ?_⟩)
  decide

/-- **A KEY OF 36 BYTES** fills the field, and no zero byte ends it there. -/
theorem key_store_overrun :
    Client.new 1 100 ⟨-1, .null⟩ (.empty .zeroed) = .ok newClient
      ∧ newClient.init .none .none = (true, startedClient)
      ∧ ¬ KeyStoreOk .little startedClient (fun _ => 0) [replyOfLength 36] := by
  refine ⟨new_newClient, init_newClient, ?_⟩
  intro hok
  obtain ⟨m₁, ret, m₂, -, hstep, hreply⟩ := hok [] (replyOfLength 36) [] rfl
  have hkey := storable_of_replyOk (by decide) hstep hreply rfl
  exact absurd hkey.1 (by decide)

end StpKeyStore
