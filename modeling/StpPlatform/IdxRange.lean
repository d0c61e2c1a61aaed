import StpPlatform.LabelledRun
import StpPlatform.StpIdxMgr

/-! # The range of the free indices

    What a manager should keep up over any sequence of `PopIdx` and `PushIdx`:
    its free indices are slots of the group, an index that is none is refused,
    and `-1` answers a pop exactly when nothing is free.

    `PushIdx` refuses an index only if it is negative *and* the set is full, so
    everything else outside the range gets in.  `range_kept_iff` says that this
    is the only way out: the range is kept exactly by the sequences in which
    every index pushed is a slot, or is refused. -/

namespace StpIdxRange

open LabelledRun StpIdx

/-- A call of the manager. -/
inductive IdxOp where
  | popIdx
  | pushIdx (idx : Int)
  deriving DecidableEq

/-- The manager after the call. -/
def step (m : StpIdxMgr) : IdxOp → StpIdxMgr
  | .popIdx => m.popIdx.2
  | .pushIdx idx => (m.pushIdx idx).2

/-- The index is a slot of the group. -/
def Slot (m : StpIdxMgr) (idx : Int) : Prop := 0 ≤ idx ∧ idx < m.maxIdx

instance (m : StpIdxMgr) (idx : Int) : Decidable (Slot m idx) :=
  inferInstanceAs (Decidable (_ ∧ _))

/-- What a call should do: a pop tells an empty set by `-1` and otherwise hands
    out a slot; what is pushed and is no slot is refused. -/
def CallOk (m : StpIdxMgr) : IdxOp → Prop
  | .popIdx => (m.popIdx.1 = -1 ↔ m.idxSet = ∅)
      ∧ (m.idxSet ≠ ∅ → Slot m m.popIdx.1)
  | .pushIdx idx => ¬ Slot m idx → m.pushIdx idx = (false, m)

/-- The manager keeps its range over the calls `ops`. -/
structure RangeKept (m : StpIdxMgr) (ops : List IdxOp) : Prop where
  free : ∀ pre, pre <+: ops → (after step m pre).InRange
  calls : EveryEvent (fun pre op => CallOk (after step m pre) op) ops

/-- The index pushed is a slot, or negative while no index is taken. -/
def Admissible (m : StpIdxMgr) : IdxOp → Prop
  | .popIdx => True
  | .pushIdx idx => Slot m idx ∨ (idx < 0 ∧ m.maxIdx ≤ m.idxSet.card)

instance (m : StpIdxMgr) (op : IdxOp) : Decidable (Admissible m op) :=
  match op with
  | .popIdx => .isTrue trivial
  | .pushIdx _ => inferInstanceAs (Decidable (_ ∨ _))

/-! ## One call -/

/-- The bound of a manager that was constructed. -/
def Bounded (m : StpIdxMgr) : Prop := 1 ≤ m.maxIdx ∧ m.maxIdx ≤ 100000

section

variable {m : StpIdxMgr} {idx : Int}

theorem pushIdx_refused (hb : Bounded m)
    (h : idx < 0 ∧ m.maxIdx ≤ m.idxSet.card) : m.pushIdx idx = (false, m) := by
  obtain ⟨hlow, hhigh⟩ := hb
  -- the bound is its own value as a `size_t`
  have hsize : m.maxIdx % 0x10000000000000000 = m.maxIdx := by omega
  rw [StpIdxMgr.pushIdx, hsize]
  exact if_pos ⟨h.2, h.1⟩

theorem pushIdx_taken (hb : Bounded m)
    (h : ¬ (idx < 0 ∧ m.maxIdx ≤ m.idxSet.card)) :
    m.pushIdx idx = (true, { m with idxSet := insert idx m.idxSet }) := by
  obtain ⟨hlow, hhigh⟩ := hb
  have hsize : m.maxIdx % 0x10000000000000000 = m.maxIdx := by omega
  rw [StpIdxMgr.pushIdx, hsize]
  exact if_neg (fun hc => h ⟨hc.2, hc.1⟩)

/-- **THE GUARD OF `PushIdx`** stands between a bad index and the set only when
    the index is negative and the set full. -/
theorem callOk_pushIdx_iff (hb : Bounded m) :
    CallOk m (.pushIdx idx) ↔ Admissible m (.pushIdx idx) := by
  constructor
  · intro hok
    by_cases hslot : Slot m idx
    · exact Or.inl hslot
    · by_cases hguard : idx < 0 ∧ m.maxIdx ≤ m.idxSet.card
      · exact Or.inr hguard
      · have hret := (pushIdx_taken hb hguard).symm.trans (hok hslot)
        cases congrArg Prod.fst hret
  · rintro (hslot | hguard) hno
    · exact absurd hslot hno
    · exact pushIdx_refused hb hguard

theorem callOk_popIdx (hr : m.InRange) : CallOk m .popIdx :=
  ⟨StpIdxMgr.popIdx_fst_eq_neg_one hr,
    fun hne => hr _ (StpIdxMgr.popIdx_fst_mem hne)⟩

@[simp] theorem step_maxIdx (op : IdxOp) : (step m op).maxIdx = m.maxIdx := by
  cases op with
  | popIdx => exact m.popIdx_maxIdx
  | pushIdx idx =>
      show (m.pushIdx idx).2.maxIdx = m.maxIdx
      rw [StpIdxMgr.pushIdx]
      split <;> rfl

/-- What is admitted leaves the free indices slots. -/
theorem inRange_step {op : IdxOp} (hb : Bounded m) (hr : m.InRange)
    (hop : Admissible m op) : (step m op).InRange := by
  cases op with
  | popIdx => exact hr.popIdx
  | pushIdx idx =>
      show (m.pushIdx idx).2.InRange
      by_cases hguard : idx < 0 ∧ m.maxIdx ≤ m.idxSet.card
      · rw [pushIdx_refused hb hguard]
        exact hr
      · rw [pushIdx_taken hb hguard]
        intro i hi
        rcases Finset.mem_insert.mp hi with heq | hmem
        · rw [heq]
          exact hop.resolve_right hguard
        · exact hr i hmem

end

/-! ## Sequences of calls -/

/-- A bound in range is never changed. -/
theorem bounded_after {m : StpIdxMgr} (hb : Bounded m) (ops : List IdxOp) :
    Bounded (after step m ops) := by
  refine always_after Bounded hb ?_ ops
  intro t op ht
  rw [Bounded, step_maxIdx]
  exact ht

/-- **THE RANGE IS KEPT** exactly if every index that is pushed is a slot, or is
    negative while the set is full. -/
theorem range_kept_iff {maxIdx : Int} {m : StpIdxMgr}
    (hnew : StpIdxMgr.new maxIdx = .ok m) (ops : List IdxOp) :
    RangeKept m ops
      ↔ EveryEvent (fun pre op => Admissible (after step m pre) op) ops := by
  obtain ⟨hrange, hmax, hfree⟩ := StpIdxMgr.new_ok hnew
  have hb : Bounded m := by
    rw [Bounded, hmax]
    exact hrange
  have hstart : m.InRange := by
    intro i hi
    rw [hmax]
    exact (hfree i).mp hi
  constructor
  · intro hkept pre op post hops
    cases op with
    | popIdx => exact trivial
    | pushIdx idx =>
        exact (callOk_pushIdx_iff (bounded_after hb pre)).mp
          (hkept.calls pre _ post hops)
  · intro hadm
    have hin : ∀ pre, pre <+: ops → (after step m pre).InRange := by
      intro pre hpre
      have hboth : Bounded (after step m pre) ∧ (after step m pre).InRange := by
        refine invariant_after (fun t => Bounded t ∧ t.InRange) ⟨hb, hstart⟩ ?_
          (hadm.of_prefix hpre)
        rintro t op ⟨ht, hr⟩ hop
        refine ⟨?_, inRange_step ht hr hop⟩
        rw [Bounded, step_maxIdx]
        exact ht
      exact hboth.2
    refine ⟨hin, ?_⟩
    intro pre op post hops
    cases op with
    | popIdx => exact callOk_popIdx (hin pre ⟨_, hops.symm⟩)
    | pushIdx idx =>
        exact (callOk_pushIdx_iff (bounded_after hb pre)).mpr
          (hadm pre _ post hops)

/-- A manager of three indices. -/
def threeIdx : StpIdxMgr where
  maxIdx := 3
  idxSet := {2, 1, 0}

/-- With every index free a negative one is refused; then two indices are taken,
    one comes back, and all that is free is taken until there is none. -/
def takeAndReturn : List IdxOp :=
  [.pushIdx (-1), .popIdx, .popIdx, .pushIdx 0, .popIdx, .popIdx, .popIdx]

theorem range_kept_iff_threeIdx : RangeKept threeIdx takeAndReturn := by
  refine (range_kept_iff (show StpIdxMgr.new 3 = .ok threeIdx from rfl) _).mpr ?_
  rw [everyEvent_iff_take]
  decide

/-- A manager of one index. -/
def oneIdx : StpIdxMgr where
  maxIdx := 1
  idxSet := {0}

/-- **A NEGATIVE INDEX GETS IN** once an index is taken, and the next pop tells
    an empty set. -/
theorem pushIdx_admits_sentinel :
    StpIdxMgr.new 1 = .ok oneIdx
      ∧ (after step oneIdx [.popIdx]).pushIdx (-1) = (true, ⟨1, {-1}⟩)
      ∧ (StpIdxMgr.popIdx ⟨1, {-1}⟩).1 = -1
      ∧ ¬ RangeKept oneIdx [.popIdx, .pushIdx (-1), .popIdx] := by
  have hpush : (after step oneIdx [.popIdx]).pushIdx (-1) = (true, ⟨1, {-1}⟩) := by
    decide
  refine ⟨rfl, hpush, by decide, ?_⟩
  intro hkept
  have hrefused := hkept.calls [.popIdx] (.pushIdx (-1)) [.popIdx] rfl
    (by decide)
  cases congrArg Prod.fst (hpush.symm.trans hrefused)

end StpIdxRange
