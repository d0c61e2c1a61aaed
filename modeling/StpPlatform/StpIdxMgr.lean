import Mathlib.Data.Finset.Max
import Mathlib.Data.Int.Order.Basic

/-! # The free-index manager (`stpcomm/stp_idx_mgr`)

    `StpIdxMgr` keeps the unused slot indices of one crypto group in a
    `std::set<int>`.  `popIdx` hands out the smallest one and answers `-1` when
    there is none; `pushIdx` takes one back.  The constructor aborts the
    process on a bound outside `1..100000`, so it is the first place where a
    call may not return: `Halt` says how a process can stop. -/

namespace StpIdx

/-- How the process stops instead of returning from a call: `abort()`, or an
    access to memory that is not mapped. -/
inductive Halt where
  | abort
  | segv
  deriving DecidableEq, Repr

/-- `class StpIdxMgr`: the bound and the set of unused indices. -/
structure StpIdxMgr where
  maxIdx : Int
  idxSet : Finset Int
  deriving DecidableEq

/-- The constructor's loop: insert `0`, `1`, …, `n - 1`. -/
def idxUpTo : Nat → Finset Int
  | 0 => ∅
  | n + 1 => insert (n : Int) (idxUpTo n)

/-- `StpIdxMgr::StpIdxMgr(int max_idx)`. -/
def StpIdxMgr.new (maxIdx : Int) : Except Halt StpIdxMgr :=
  if maxIdx > 100000 ∨ maxIdx ≤ 0 then
    .error .abort
  else
    .ok { maxIdx := maxIdx, idxSet := idxUpTo maxIdx.toNat }

/-- `int StpIdxMgr::PopIdx()`. -/
def StpIdxMgr.popIdx (m : StpIdxMgr) : Int × StpIdxMgr :=
  if h : m.idxSet.Nonempty then
    let index := m.idxSet.min' h
    (index, { m with idxSet := m.idxSet.erase index })
  else
    (-1, m)

/-- `bool StpIdxMgr::PushIdx(int idx)`; the size comparison is made in
    `size_t`, to which `max_idx_` is converted. -/
def StpIdxMgr.pushIdx (m : StpIdxMgr) (idx : Int) : Bool × StpIdxMgr :=
  if (m.idxSet.card : Int) ≥ m.maxIdx % 0x10000000000000000 ∧ idx < 0 then
    (false, m)
  else
    (true, { m with idxSet := insert idx m.idxSet })

/-! ## The constructor -/

theorem mem_idxUpTo (n : Nat) (i : Int) : i ∈ idxUpTo n ↔ 0 ≤ i ∧ i < n := by
  induction n with
  | zero =>
      constructor
      · intro h
        exact absurd h (Finset.notMem_empty i)
      · rintro ⟨h0, h1⟩
        exact absurd h1 (by omega)
  | succ n ih =>
      show i ∈ insert (n : Int) (idxUpTo n) ↔ _
      rw [Finset.mem_insert, ih]
      push_cast
      omega

/-- A manager that was constructed has a bound in range and all indices free. -/
theorem StpIdxMgr.new_ok {maxIdx : Int} {m : StpIdxMgr}
    (h : StpIdxMgr.new maxIdx = .ok m) :
    (1 ≤ maxIdx ∧ maxIdx ≤ 100000) ∧ m.maxIdx = maxIdx
      ∧ ∀ i, i ∈ m.idxSet ↔ 0 ≤ i ∧ i < maxIdx := by
  rw [StpIdxMgr.new] at h
  by_cases hb : maxIdx > 100000 ∨ maxIdx ≤ 0
  · rw [if_pos hb] at h
    exact nomatch h
  · rw [if_neg hb] at h
    have hm := Except.ok.inj h
    subst hm
    refine ⟨by omega, rfl, ?_⟩
    intro i
    show i ∈ idxUpTo maxIdx.toNat ↔ _
    rw [mem_idxUpTo]
    omega

/-! ## Popping an index -/

theorem StpIdxMgr.popIdx_empty {m : StpIdxMgr} (h : m.idxSet = ∅) :
    m.popIdx = (-1, m) := by
  rw [StpIdxMgr.popIdx, dif_neg (by rw [h]; exact Finset.not_nonempty_empty)]

theorem StpIdxMgr.popIdx_nonempty {m : StpIdxMgr} (h : m.idxSet.Nonempty) :
    m.popIdx = (m.idxSet.min' h,
      { m with idxSet := m.idxSet.erase (m.idxSet.min' h) }) := by
  rw [StpIdxMgr.popIdx, dif_pos h]

/-- The free indices are slots of the group. -/
def StpIdxMgr.InRange (m : StpIdxMgr) : Prop :=
  ∀ i ∈ m.idxSet, 0 ≤ i ∧ i < m.maxIdx

/-- **THE SENTINEL IS SOUND**: `-1` means that no index was free. -/
theorem StpIdxMgr.popIdx_fst_eq_neg_one {m : StpIdxMgr} (hr : m.InRange) :
    m.popIdx.1 = -1 ↔ m.idxSet = ∅ := by
  rcases m.idxSet.eq_empty_or_nonempty with hemp | hne
  · rw [popIdx_empty hemp]
    exact ⟨fun _ => hemp, fun _ => rfl⟩
  · rw [popIdx_nonempty hne]
    have h0 := (hr _ (m.idxSet.min'_mem hne)).1
    constructor
    · intro h
      have h' : m.idxSet.min' hne = -1 := h
      omega
    · intro h
      exact absurd h hne.ne_empty

/-- What is popped was free. -/
theorem StpIdxMgr.popIdx_fst_mem {m : StpIdxMgr} (h : m.idxSet ≠ ∅) :
    m.popIdx.1 ∈ m.idxSet := by
  have hne := Finset.nonempty_iff_ne_empty.mpr h
  rw [popIdx_nonempty hne]
  exact m.idxSet.min'_mem hne

@[simp] theorem StpIdxMgr.popIdx_maxIdx (m : StpIdxMgr) :
    m.popIdx.2.maxIdx = m.maxIdx := by
  rw [StpIdxMgr.popIdx]
  split <;> rfl

/-- Popping only removes. -/
theorem StpIdxMgr.popIdx_subset (m : StpIdxMgr) :
    m.popIdx.2.idxSet ⊆ m.idxSet := by
  rw [StpIdxMgr.popIdx]
  split
  · exact Finset.erase_subset _ _
  · exact Finset.Subset.refl _

theorem StpIdxMgr.InRange.popIdx {m : StpIdxMgr} (hr : m.InRange) :
    m.popIdx.2.InRange := by
  intro i hi
  rw [popIdx_maxIdx]
  exact hr i (m.popIdx_subset hi)

end StpIdx
