import StpPlatform.IdxRange

/-! # The indices that are outstanding

    What a manager hands out is outstanding until it is pushed back.  The manager
    does not know these indices; a ledger of them is kept beside it, as a list,
    so that an index handed out twice would stand in it twice.

    As long as nothing is pushed back that is not outstanding, the ledger and the
    free set share out the slots of the group between them (`partition_step`).
    `indices_accounted` reads off what a caller sees of that. -/

namespace StpIdxLedger

open LabelledRun StpIdx StpIdxRange

/-- A manager and the indices popped from it and not yet pushed back. -/
structure Ledger where
  mgr : StpIdxMgr
  outstanding : List Int

/-- The ledger after the call; a pop that answers `-1` hands out nothing. -/
def Ledger.call (l : Ledger) : IdxOp → Ledger
  | .popIdx =>
      { mgr := l.mgr.popIdx.2
        outstanding :=
          if l.mgr.popIdx.1 = -1 then l.outstanding
          else l.mgr.popIdx.1 :: l.outstanding }
  | .pushIdx idx =>
      { mgr := (l.mgr.pushIdx idx).2
        outstanding := l.outstanding.erase idx }

/-- Only what is outstanding is pushed back. -/
def GivesBack (l : Ledger) : IdxOp → Prop
  | .popIdx => True
  | .pushIdx idx => idx ∈ l.outstanding

instance (l : Ledger) (op : IdxOp) : Decidable (GivesBack l op) :=
  match op with
  | .popIdx => .isTrue trivial
  | .pushIdx idx => inferInstanceAs (Decidable (idx ∈ l.outstanding))

/-- The free indices and the outstanding ones share out the slots. -/
structure Partition (maxIdx : Int) (l : Ledger) : Prop where
  bound : l.mgr.maxIdx = maxIdx
  once : l.outstanding.Nodup
  disjoint : ∀ i ∈ l.mgr.idxSet, i ∉ l.outstanding
  union : ∀ i, i ∈ l.mgr.idxSet ∨ i ∈ l.outstanding ↔ 0 ≤ i ∧ i < maxIdx

/-- What a caller can rely on: a partition of the slots, and a pop that answers
    `-1` when all of them are outstanding and otherwise the smallest free one. -/
structure Accounted (maxIdx : Int) (l : Ledger) : Prop where
  partition : Partition maxIdx l
  exhausted : l.mgr.popIdx.1 = -1
    ↔ ∀ i, 0 ≤ i → i < maxIdx → i ∈ l.outstanding
  smallest : l.mgr.popIdx.1 ≠ -1 → IsLeast (l.mgr.idxSet : Set Int) l.mgr.popIdx.1
  unused : l.mgr.popIdx.1 ∉ l.outstanding

section

variable {maxIdx : Int} {l : Ledger}

theorem Partition.inRange (h : Partition maxIdx l) : l.mgr.InRange := by
  intro i hi
  rw [h.bound]
  exact (h.union i).mp (Or.inl hi)

/-- The free set is empty when everything is outstanding. -/
theorem Partition.free_eq_empty_iff (h : Partition maxIdx l) :
    l.mgr.idxSet = ∅ ↔ ∀ i, 0 ≤ i → i < maxIdx → i ∈ l.outstanding := by
  constructor
  · intro hemp i h0 hlt
    rcases (h.union i).mpr ⟨h0, hlt⟩ with hfree | hout
    · rw [hemp] at hfree
      exact absurd hfree (Finset.notMem_empty i)
    · exact hout
  · intro hall
    refine Finset.eq_empty_of_forall_notMem ?_
    intro i hfree
    obtain ⟨h0, hlt⟩ := (h.union i).mp (Or.inl hfree)
    exact h.disjoint i hfree (hall i h0 hlt)

/-- A pop moves the smallest free index over. -/
theorem partition_popIdx (h : Partition maxIdx l) :
    Partition maxIdx (l.call .popIdx) := by
  rcases l.mgr.idxSet.eq_empty_or_nonempty with hemp | hne
  · have hpop := StpIdxMgr.popIdx_empty hemp
    have hcall : l.call .popIdx = l := by
      rw [Ledger.call, hpop]
      exact congrArg (Ledger.mk l.mgr) (if_pos rfl)
    rw [hcall]
    exact h
  · obtain ⟨i, hi⟩ : ∃ i, i = l.mgr.idxSet.min' hne := ⟨_, rfl⟩
    have hfree : i ∈ l.mgr.idxSet := hi ▸ l.mgr.idxSet.min'_mem hne
    have hpop : l.mgr.popIdx = (i, { l.mgr with idxSet := l.mgr.idxSet.erase i }) := by
      rw [hi]
      exact StpIdxMgr.popIdx_nonempty hne
    have hneg : ¬ i = -1 := by
      have h0 := ((h.union i).mp (Or.inl hfree)).1
      omega
    have hcall : l.call .popIdx
        = ⟨{ l.mgr with idxSet := l.mgr.idxSet.erase i }, i :: l.outstanding⟩ := by
      rw [Ledger.call, hpop]
      exact congrArg (Ledger.mk _) (if_neg hneg)
    rw [hcall]
    refine ⟨h.bound, List.nodup_cons.mpr ⟨h.disjoint i hfree, h.once⟩, ?_, ?_⟩
    · intro j hj hmem
      obtain ⟨hji, hjfree⟩ := Finset.mem_erase.mp hj
      rcases List.mem_cons.mp hmem with heq | hout
      · exact hji heq
      · exact h.disjoint j hjfree hout
    · intro j
      rw [← h.union j]
      show j ∈ l.mgr.idxSet.erase i ∨ j ∈ i :: l.outstanding ↔ _
      rw [Finset.mem_erase, List.mem_cons]
      by_cases hji : j = i
      · rw [hji]
        exact iff_of_true (Or.inr (Or.inl rfl)) (Or.inl hfree)
      · simp only [hji, ne_eq, not_false_eq_true, true_and, false_or]

/-- A push moves an outstanding index back. -/
theorem partition_pushIdx (hb : Bounded l.mgr) (h : Partition maxIdx l) {idx : Int}
    (hidx : idx ∈ l.outstanding) : Partition maxIdx (l.call (.pushIdx idx)) := by
  obtain ⟨h0, hlt⟩ := (h.union idx).mp (Or.inr hidx)
  have hpush : l.mgr.pushIdx idx
      = (true, { l.mgr with idxSet := insert idx l.mgr.idxSet }) :=
    pushIdx_taken hb (fun hneg => by omega)
  have hcall : l.call (.pushIdx idx)
      = ⟨{ l.mgr with idxSet := insert idx l.mgr.idxSet },
        l.outstanding.erase idx⟩ := by
    rw [Ledger.call, hpush]
  rw [hcall]
  refine ⟨h.bound, h.once.erase idx, ?_, ?_⟩
  · intro j hj hmem
    obtain ⟨hji, hout⟩ := h.once.mem_erase_iff.mp hmem
    rcases Finset.mem_insert.mp hj with heq | hfree
    · exact hji heq
    · exact h.disjoint j hfree hout
  · intro j
    rw [← h.union j]
    show j ∈ insert idx l.mgr.idxSet ∨ j ∈ l.outstanding.erase idx ↔ _
    rw [Finset.mem_insert, h.once.mem_erase_iff]
    by_cases hji : j = idx
    · rw [hji]
      exact iff_of_true (Or.inl (Or.inl rfl)) (Or.inr hidx)
    · simp only [hji, ne_eq, not_false_eq_true, true_and, false_or]

/-- **ONE CALL** keeps the partition. -/
theorem partition_step {op : IdxOp} (hb : Bounded l.mgr) (h : Partition maxIdx l)
    (hop : GivesBack l op) : Partition maxIdx (l.call op) := by
  cases op with
  | popIdx => exact partition_popIdx h
  | pushIdx idx => exact partition_pushIdx hb h hop

/-- What the partition tells the next caller. -/
theorem Partition.accounted (h : Partition maxIdx l) : Accounted maxIdx l := by
  have hnone := StpIdxMgr.popIdx_fst_eq_neg_one h.inRange
  refine ⟨h, hnone.trans h.free_eq_empty_iff, ?_, ?_⟩
  · intro hsome
    have hne : l.mgr.idxSet.Nonempty :=
      Finset.nonempty_iff_ne_empty.mpr (fun hemp => hsome (hnone.mpr hemp))
    rw [StpIdxMgr.popIdx_nonempty hne]
    exact ⟨l.mgr.idxSet.min'_mem hne, fun _ hi => l.mgr.idxSet.min'_le _ hi⟩
  · intro hout
    by_cases hemp : l.mgr.idxSet = ∅
    · -- `-1` is no slot
      rw [hnone.mpr hemp] at hout
      have h0 := ((h.union (-1)).mp (Or.inr hout)).1
      omega
    · exact h.disjoint _ (StpIdxMgr.popIdx_fst_mem hemp) hout

end

/-- **ALLOCATION IS UNIQUE AND LOSSLESS** at every point of a sequence of calls in
    which only outstanding indices are pushed back. -/
theorem indices_accounted {maxIdx : Int} {m : StpIdxMgr}
    (hnew : StpIdxMgr.new maxIdx = .ok m) {ops : List IdxOp}
    (hops : EveryEvent (fun pre op => GivesBack (after Ledger.call ⟨m, []⟩ pre) op) ops)
    {pre : List IdxOp} (hpre : pre <+: ops) :
    Accounted maxIdx (after Ledger.call ⟨m, []⟩ pre) := by
  obtain ⟨hrange, hmax, hfree⟩ := StpIdxMgr.new_ok hnew
  have hstart : Partition maxIdx ⟨m, []⟩ := by
    refine ⟨hmax, List.nodup_nil, fun _ _ => List.not_mem_nil, ?_⟩
    intro i
    rw [← hfree i]
    exact or_iff_left List.not_mem_nil
  have hpart : Partition maxIdx (after Ledger.call ⟨m, []⟩ pre) := by
    refine invariant_after (Partition maxIdx) hstart ?_ (hops.of_prefix hpre)
    intro l op h hop
    refine partition_step ?_ h hop
    rw [Bounded, h.bound]
    exact hrange
  exact hpart.accounted

/-- Two indices are taken, the first comes back and goes out again. -/
def lendAgain : List IdxOp := [.popIdx, .popIdx, .pushIdx 0, .popIdx]

theorem indices_accounted_threeIdx :
    Accounted 3 (after Ledger.call ⟨threeIdx, []⟩ lendAgain) := by
  refine indices_accounted (show StpIdxMgr.new 3 = .ok threeIdx from rfl) ?_
    (List.prefix_refl lendAgain)
  rw [everyEvent_iff_take]
  decide

end StpIdxLedger
