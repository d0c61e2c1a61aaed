import Mathlib.Logic.Function.Basic
import Mathlib.Data.List.Basic
import Mathlib.Data.Int.Order.Basic

/-! # System V shared memory

    The calls a program makes on System V segments, over any type `ι` of
    records it keeps in them.  A `Kernel` holds the segments that have a name
    (`segs`), and for every identifier ever used the length asked for and the
    records stored in its pages; a segment that lost its name stays mapped
    where it was attached.  A call either fails for a reason of the kernel's
    own (`Fault`) or behaves as POSIX says: `EEXIST` is the answer to an
    exclusive request for a key in use, `EINVAL` to a request longer than the
    segment, and `shmat` answers `(void*)-1` on failure.

    A segment is mapped in whole pages, and an access past the last of them
    meets what the process has mapped next: nothing, memory of another kind, or
    the pages of another segment.  Nothing is assumed of it (`Kernel.behind`);
    `Kernel.place` says where an access goes. -/

namespace SysVShm

variable {ι : Type}

/-- The errors that matter, by their names. -/
inductive Errno where
  | EEXIST
  | EINVAL
  | EACCES
  | ENOMEM
  | ENOSPC
  deriving DecidableEq, Repr

/-- A failure of the kernel's own making; it is never `EEXIST`. -/
def Fault : Type := { e : Errno // e ≠ .EEXIST }

/-- A named segment. -/
structure Segment where
  id : Nat
  key : Int
  deriving DecidableEq

/-- What a pointer to shared memory can be: `NULL`, `(void*)-1`, or the start
    of the pages of a segment. -/
inductive Addr where
  | null
  | failed
  | seg (id : Nat)
  deriving DecidableEq, Repr

/-- What is mapped behind the pages of a segment: nothing the process may write,
    so many bytes of its own that are no segment, or the pages of segment `id`. -/
inductive Behind where
  | nothing
  | foreign (bytes : Nat)
  | seg (id : Nat)
  deriving DecidableEq, Repr

/-- The kernel's view of shared memory, with the address space of the process.
    Identifiers are never reused. -/
structure Kernel (ι : Type) where
  segs : List Segment
  nextId : Nat
  len : Nat → Nat
  mem : Nat → Int → ι
  behind : Nat → Behind
  fresh : ∀ s ∈ segs, s.id < nextId

/-- A kernel without segments, and with nothing mapped behind those to come. -/
def Kernel.empty (r : ι) : Kernel ι where
  segs := []
  nextId := 0
  len := fun _ => 0
  mem := fun _ _ => r
  behind := fun _ => .nothing
  fresh := fun _ h => nomatch h

/-- The segment a key names; `IPC_PRIVATE` (`0`) names none. -/
def Kernel.find (k : Kernel ι) (key : Int) : Option Segment :=
  if key = 0 then none else k.segs.find? (fun s => s.key = key)

/-- A new segment, all of whose records are `r` (its bytes are zero). -/
def Kernel.create (k : Kernel ι) (key : Int) (size : Nat) (r : ι) :
    Kernel ι where
  segs := { id := k.nextId, key := key } :: k.segs
  nextId := k.nextId + 1
  len := Function.update k.len k.nextId size
  mem := Function.update k.mem k.nextId (fun _ => r)
  behind := k.behind
  fresh := by
    intro s hs
    rcases List.mem_cons.mp hs with heq | hmem
    · subst heq
      exact Nat.lt_succ_self _
    · exact Nat.lt_succ_of_lt (k.fresh s hmem)

/-- `shmctl(shmid, IPC_RMID, NULL)`: the segment loses its name. -/
def Kernel.rmid (k : Kernel ι) (shmid : Int) : Kernel ι where
  segs := k.segs.filter (fun s => (s.id : Int) ≠ shmid)
  nextId := k.nextId
  len := k.len
  mem := k.mem
  behind := k.behind
  fresh := fun s hs => k.fresh s (List.mem_of_mem_filter hs)

/-- `shmget(key, size, IPC_CREAT | 0666)`, with `IPC_EXCL` when `excl`. -/
def Kernel.shmget (k : Kernel ι) (fault : Option Fault) (key : Int)
    (size : Nat) (excl : Bool) (r : ι) : Except Errno Nat × Kernel ι :=
  match fault with
  | some e => (.error e.1, k)
  | none =>
      match k.find key with
      | none => (.ok k.nextId, k.create key size r)
      | some s =>
          if excl then (.error .EEXIST, k)
          else if k.len s.id < size then (.error .EINVAL, k)
          else (.ok s.id, k)

/-- `shmat(shmid, NULL, 0)` on an identifier just obtained from `shmget`. -/
def Kernel.shmat (fault : Bool) (id : Nat) : Addr :=
  if fault then .failed else .seg id

/-! ## Access to the mapped pages -/

/-- Segments are mapped in whole pages. -/
def mappedBytes (size : Nat) : Nat := (size + 4095) / 4096 * 4096

/-- Record number `i` (of `sz` bytes each) lies in the segment's own pages. -/
def Kernel.InPages (k : Kernel ι) (sz id : Nat) (i : Int) : Prop :=
  0 ≤ i ∧ (i + 1) * sz ≤ mappedBytes (k.len id)

/-- It is a comparison of offsets. -/
instance (k : Kernel ι) (sz id : Nat) (i : Int) : Decidable (k.InPages sz id i) :=
  inferInstanceAs (Decidable (_ ∧ _))

/-- Where record number `i` behind `a` lies, if it is mapped.  Past its pages a
    segment goes on as `behind` says; a record in foreign memory is numbered from
    the segment before it. -/
def Kernel.place (k : Kernel ι) (sz : Nat) (a : Addr) (i : Int) :
    Option (Nat × Int) :=
  match a with
  | .seg id =>
      if k.InPages sz id i then some (id, i)
      else if i < 0 then none
      else
        match k.behind id with
        | .nothing => none
        | .foreign bytes =>
            if (i + 1) * sz ≤ mappedBytes (k.len id) + bytes then some (id, i)
            else none
        | .seg next =>
            let j := i - (mappedBytes (k.len id) / sz : Nat)
            if k.InPages sz next j then some (next, j) else none
  | _ => none

/-- Record number `i` behind `a` is mapped. -/
def Kernel.Mapped (k : Kernel ι) (sz : Nat) (a : Addr) (i : Int) : Prop :=
  (k.place sz a i).isSome

/-- It is decided by computing the place. -/
instance (k : Kernel ι) (sz : Nat) (a : Addr) (i : Int) :
    Decidable (k.Mapped sz a i) :=
  inferInstanceAs (Decidable ((k.place sz a i).isSome = true))

/-- A record of `sz` bytes right behind the pages of segment `id` is mapped. -/
def Kernel.GoesOn (k : Kernel ι) (sz id : Nat) : Prop :=
  match k.behind id with
  | .nothing => False
  | .foreign bytes => sz ≤ bytes
  | .seg next => sz ≤ mappedBytes (k.len next)

/-- The record number `i` behind `a`, when it is mapped. -/
def Kernel.load (k : Kernel ι) (sz : Nat) (a : Addr) (i : Int) : Option ι :=
  (k.place sz a i).map (fun loc => k.mem loc.1 loc.2)

/-- Replace record `i` of segment `id`. -/
def Kernel.put (k : Kernel ι) (id : Nat) (i : Int) (r : ι) : Kernel ι :=
  { k with mem := Function.update k.mem id (Function.update (k.mem id) i r) }

/-- Store a record behind `a`, when it is mapped. -/
def Kernel.store (k : Kernel ι) (sz : Nat) (a : Addr) (i : Int) (r : ι) :
    Option (Kernel ι) :=
  (k.place sz a i).map (fun loc => k.put loc.1 loc.2 r)

/-! ## What the calls leave alone -/

@[simp] theorem rmid_segs (k : Kernel ι) (n : Int) :
    (k.rmid n).segs = k.segs.filter (fun s => (s.id : Int) ≠ n) := rfl

@[simp] theorem put_mem_same (k : Kernel ι) (id : Nat) (i : Int) (r : ι) :
    (k.put id i r).mem id i = r := by
  simp [Kernel.put]

theorem put_mem_of_ne_seg (k : Kernel ι) {id id' : Nat} (i j : Int) (r : ι)
    (h : id' ≠ id) : (k.put id i r).mem id' j = k.mem id' j := by
  simp [Kernel.put, Function.update_of_ne h]

theorem put_mem_of_ne_idx (k : Kernel ι) (id id' : Nat) {i j : Int} (r : ι)
    (h : j ≠ i) : (k.put id i r).mem id' j = k.mem id' j := by
  by_cases hid : id' = id
  · subst hid
    simp [Kernel.put, Function.update_of_ne h]
  · exact put_mem_of_ne_seg k i j r hid

@[simp] theorem create_len_self (k : Kernel ι) (key : Int) (size : Nat) (r : ι) :
    (k.create key size r).len k.nextId = size := by
  simp [Kernel.create]

@[simp] theorem create_mem_self (k : Kernel ι) (key : Int) (size : Nat) (r : ι)
    (i : Int) : (k.create key size r).mem k.nextId i = r := by
  simp [Kernel.create]

/-- **FRAME OF THE CALLS**: nothing that existed before is touched. -/
structure Extends (k k' : Kernel ι) : Prop where
  nextId : k.nextId ≤ k'.nextId
  len : ∀ id, id < k.nextId → k'.len id = k.len id
  mem : ∀ id, id < k.nextId → k'.mem id = k.mem id

theorem Extends.refl (k : Kernel ι) : Extends k k :=
  ⟨Nat.le_refl _, fun _ _ => rfl, fun _ _ => rfl⟩

theorem Extends.trans {k₁ k₂ k₃ : Kernel ι} (h₁ : Extends k₁ k₂)
    (h₂ : Extends k₂ k₃) : Extends k₁ k₃ := by
  refine ⟨Nat.le_trans h₁.nextId h₂.nextId, ?_, ?_⟩
  · intro id hid
    rw [h₂.len id (Nat.lt_of_lt_of_le hid h₁.nextId), h₁.len id hid]
  · intro id hid
    rw [h₂.mem id (Nat.lt_of_lt_of_le hid h₁.nextId), h₁.mem id hid]

/-- Removing a name leaves the memory alone. -/
theorem extends_rmid (k : Kernel ι) (n : Int) : Extends k (k.rmid n) :=
  ⟨Nat.le_refl _, fun _ _ => rfl, fun _ _ => rfl⟩

/-- A new segment has memory of its own. -/
theorem extends_create (k : Kernel ι) (key : Int) (size : Nat) (r : ι) :
    Extends k (k.create key size r) := by
  refine ⟨Nat.le_succ _, ?_, ?_⟩
  · intro id hid
    exact Function.update_of_ne (Nat.ne_of_lt hid) _ _
  · intro id hid
    exact Function.update_of_ne (Nat.ne_of_lt hid) _ _

/-- Removing the segment just created leaves the named segments as they were. -/
theorem create_rmid_segs (k : Kernel ι) (key : Int) (size : Nat) (r : ι) :
    ((k.create key size r).rmid k.nextId).segs = k.segs := by
  show List.filter (fun s => (s.id : Int) ≠ (k.nextId : Int))
    ({ id := k.nextId, key := key } :: k.segs) = k.segs
  rw [List.filter_cons_of_neg (by simp)]
  refine List.filter_eq_self.mpr ?_
  intro s hs
  have := k.fresh s hs
  simp only [decide_eq_true_eq]
  omega

theorem find_mem {k : Kernel ι} {key : Int} {s : Segment}
    (h : k.find key = some s) : s ∈ k.segs := by
  rw [Kernel.find] at h
  by_cases h0 : key = 0
  · rw [if_pos h0] at h
    exact nomatch h
  · rw [if_neg h0] at h
    exact List.mem_of_find?_eq_some h

/-- The lookup of a key only reads the named segments. -/
theorem find_congr {k k' : Kernel ι} (h : k'.segs = k.segs) (key : Int) :
    k'.find key = k.find key := by
  rw [Kernel.find, Kernel.find, h]

/-- Without named segments no key leads anywhere. -/
theorem find_of_blank {k : Kernel ι} (h : k.segs = []) (key : Int) :
    k.find key = none := by
  cases hf : k.find key with
  | none => rfl
  | some s =>
      have hmem := find_mem hf
      rw [h] at hmem
      exact absurd hmem List.not_mem_nil

/-- `shmget` disturbs nothing that existed before. -/
theorem extends_shmget (k : Kernel ι) (fault : Option Fault) (key : Int)
    (size : Nat) (excl : Bool) (r : ι) :
    Extends k (k.shmget fault key size excl r).2 := by
  cases fault with
  | some e => exact Extends.refl k
  | none =>
      cases hf : k.find key with
      | none =>
          simp only [Kernel.shmget, hf]
          exact extends_create k key size r
      | some s =>
          simp only [Kernel.shmget, hf]
          split
          · exact Extends.refl k
          · split <;> exact Extends.refl k

/-- How a request that is not exclusive succeeds: with a new segment, or with
    the one the key names if that is long enough. -/
theorem shmget_ok_cases {k k' : Kernel ι} {fault : Option Fault} {key : Int}
    {size : Nat} {r : ι} {id : Nat}
    (h : k.shmget fault key size false r = (.ok id, k')) :
    fault = none
      ∧ ((k.find key = none ∧ id = k.nextId ∧ k' = k.create key size r)
        ∨ ∃ s, k.find key = some s ∧ id = s.id ∧ size ≤ k.len s.id ∧ k' = k) := by
  cases fault with
  -- a fault is reported whatever segments there are
  | some e => exact nomatch (congrArg Prod.fst h)
  | none =>
      refine ⟨rfl, ?_⟩
      cases hf : k.find key with
      | none =>
          simp only [Kernel.shmget, hf] at h
          cases h
          exact Or.inl ⟨rfl, rfl, rfl⟩
      | some s =>
          simp only [Kernel.shmget, hf, Bool.false_eq_true, if_false] at h
          by_cases hlen : k.len s.id < size
          · rw [if_pos hlen] at h
            exact nomatch (congrArg Prod.fst h)
          · rw [if_neg hlen] at h
            cases h
            exact Or.inr ⟨s, rfl, rfl, by omega, rfl⟩

/-- A request that is not exclusive succeeds unless the kernel fails or the key
    names a segment that is too short. -/
theorem shmget_ok_iff {k : Kernel ι} {fault : Option Fault} {key : Int}
    {size : Nat} {r : ι} :
    (∃ id k', k.shmget fault key size false r = (.ok id, k'))
      ↔ fault = none ∧ ∀ s, k.find key = some s → size ≤ k.len s.id := by
  constructor
  · rintro ⟨id, k', h⟩
    obtain ⟨hfault, hcase⟩ := shmget_ok_cases h
    refine ⟨hfault, ?_⟩
    intro s hs
    rcases hcase with ⟨hno, -⟩ | ⟨s', hs', -, hlen, -⟩
    · cases hno.symm.trans hs
    · rw [Option.some.inj (hs.symm.trans hs')]
      exact hlen
  · rintro ⟨hfault, hlong⟩
    cases hs : k.find key with
    | none =>
        exact ⟨k.nextId, k.create key size r, by
          simp only [Kernel.shmget, hfault, hs]⟩
    | some s =>
        have hlen : ¬ k.len s.id < size := Nat.not_lt.mpr (hlong s hs)
        exact ⟨s.id, k, by
          simp only [Kernel.shmget, hfault, hs, Bool.false_eq_true, if_false,
            if_neg hlen]⟩

/-- Without named segments the segment is a new one. -/
theorem shmget_of_blank {k k' : Kernel ι} {fault : Option Fault} {key : Int}
    {size : Nat} {r : ι} {id : Nat} (hblank : k.segs = [])
    (h : k.shmget fault key size false r = (.ok id, k')) :
    id = k.nextId ∧ k' = k.create key size r := by
  obtain ⟨-, ⟨-, hid, hk⟩ | ⟨s, hs, -⟩⟩ := shmget_ok_cases h
  · exact ⟨hid, hk⟩
  · cases (find_of_blank hblank key).symm.trans hs

/-- **SIZE CONTRACT**: the identifier `shmget` answers is in use and its segment
    is at least as long as asked for. -/
theorem shmget_ok {k k' : Kernel ι} {fault : Option Fault} {key : Int}
    {size : Nat} {r : ι} {id : Nat}
    (h : k.shmget fault key size false r = (.ok id, k')) :
    id < k'.nextId ∧ size ≤ k'.len id := by
  obtain ⟨-, ⟨-, hid, hk⟩ | ⟨s, hs, hid, hlen, hk⟩⟩ := shmget_ok_cases h
  · rw [hid, hk]
    exact ⟨Nat.lt_succ_self _, Nat.le_of_eq (create_len_self k key size r).symm⟩
  · rw [hid, hk]
    exact ⟨k.fresh s (find_mem hs), hlen⟩

/-! ## Where an access goes -/

/-- No byte that was asked for is missing. -/
theorem le_mappedBytes (size : Nat) : size ≤ mappedBytes size := by
  rw [mappedBytes]
  omega

/-- A record of the requested length is in the pages. -/
theorem inPages_of_lt {k : Kernel ι} {sz id : Nat} {n i : Int} (h0 : 0 ≤ i)
    (hi : i < n) (hlen : n * sz ≤ k.len id) : k.InPages sz id i := by
  refine ⟨h0, ?_⟩
  have h1 : (i + 1) * sz ≤ n * sz :=
    Int.mul_le_mul_of_nonneg_right (by omega) (by omega)
  have h2 := le_mappedBytes (k.len id)
  omega

/-- **IN ITS PAGES** a record is where its number says, whatever is behind. -/
theorem place_of_inPages {k : Kernel ι} {sz id : Nat} {i : Int}
    (h : k.InPages sz id i) : k.place sz (.seg id) i = some (id, i) := by
  rw [Kernel.place, if_pos h]

/-- Such a record is mapped. -/
theorem mapped_of_inPages {k : Kernel ι} {sz id : Nat} {i : Int}
    (h : k.InPages sz id i) : k.Mapped sz (.seg id) i := by
  rw [Kernel.Mapped, place_of_inPages h]
  rfl

/-- Where an access goes depends on lengths and layout, not on what is stored. -/
theorem place_congr {k k' : Kernel ι} (hlen : k'.len = k.len)
    (hbehind : k'.behind = k.behind) (sz : Nat) (a : Addr) (i : Int) :
    k'.place sz a i = k.place sz a i := by
  cases k
  cases k'
  cases hlen
  cases hbehind
  rfl

/-- Only a segment's address leads anywhere. -/
theorem place_eq_some {k : Kernel ι} {sz : Nat} {a : Addr} {i : Int}
    {loc : Nat × Int} (h : k.place sz a i = some loc) : ∃ id, a = .seg id := by
  cases a with
  | null => cases h
  | failed => cases h
  | seg id => exact ⟨id, rfl⟩

/-- **THE FIRST RECORD BEHIND THE PAGES** is mapped if the process has mapped
    something there. -/
theorem mapped_next_iff {k : Kernel ι} {sz id : Nat} (hsz : 0 < sz) {n : Nat}
    (hfull : mappedBytes (k.len id) = n * sz) :
    k.Mapped sz (.seg id) n ↔ k.GoesOn sz id := by
  have hend : ((n : Int) + 1) * sz = (mappedBytes (k.len id) : Nat) + sz := by
    rw [hfull, Int.add_mul, Int.one_mul, Int.natCast_mul]
  -- record `n` begins where the pages of the segment end
  have hout : ¬ k.InPages sz id n := by
    rintro ⟨-, hin⟩
    omega
  have hdiv : mappedBytes (k.len id) / sz = n := by
    rw [hfull, Nat.mul_div_cancel n hsz]
  rw [Kernel.Mapped, Kernel.place, if_neg hout, if_neg (by omega), Kernel.GoesOn]
  cases k.behind id with
  | nothing => simp
  | foreign bytes =>
      simp only [hend]
      by_cases hroom : sz ≤ bytes
      · rw [if_pos (by omega)]
        exact iff_of_true rfl hroom
      · rw [if_neg (by omega)]
        exact iff_of_false Bool.false_ne_true hroom
  | seg next =>
      simp only [hdiv, Kernel.InPages, Int.sub_self]
      by_cases hroom : sz ≤ mappedBytes (k.len next)
      · rw [if_pos (by omega)]
        exact iff_of_true rfl hroom
      · rw [if_neg (by omega)]
        exact iff_of_false Bool.false_ne_true hroom

/-- What is stored is stored where the access goes. -/
theorem store_of_place {k : Kernel ι} {sz : Nat} {a : Addr} {i : Int}
    {loc : Nat × Int} (h : k.place sz a i = some loc) (r : ι) :
    k.store sz a i r = some (k.put loc.1 loc.2 r) := by
  rw [Kernel.store, h]
  rfl

/-- What is loaded is what is there. -/
theorem load_of_place {k : Kernel ι} {sz : Nat} {a : Addr} {i : Int}
    {loc : Nat × Int} (h : k.place sz a i = some loc) :
    k.load sz a i = some (k.mem loc.1 loc.2) := by
  rw [Kernel.load, h]
  rfl

/-- In the segment's own pages. -/
theorem store_of_inPages {k : Kernel ι} {sz id : Nat} {i : Int}
    (h : k.InPages sz id i) (r : ι) :
    k.store sz (.seg id) i r = some (k.put id i r) :=
  store_of_place (place_of_inPages h) r

theorem load_of_inPages {k : Kernel ι} {sz id : Nat} {i : Int}
    (h : k.InPages sz id i) : k.load sz (.seg id) i = some (k.mem id i) :=
  load_of_place (place_of_inPages h)

/-- Two segments of one page side by side: record `64` behind the first is the
    first one of the second. -/
example (k : Kernel Nat) (h0 : k.len 0 = 4096) (h1 : k.len 1 = 64)
    (hnext : k.behind 0 = .seg 1) : k.place 64 (.seg 0) 64 = some (1, 0) := by
  simp [Kernel.place, Kernel.InPages, hnext, h0, h1, mappedBytes]

end SysVShm
