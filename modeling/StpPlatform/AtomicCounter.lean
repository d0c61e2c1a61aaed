import Mathlib.Data.BitVec
import StpPlatform.SharedCell

/-! # Counters (`stputil/atomic.h`)

    `Atomic<T>` over `AtomicIntegerT<T>`, whose methods are one or two of gcc's
    `__sync` builtins on a `T` of `w` bits.  The prefix operators, `Add` and
    `value` are one builtin; the postfix operators read the counter with one and
    change it with another, and return what they read.

    `counters_linearizable`: while no other thread changes the counter between
    the two, every interleaving is a sequential execution; that is so whenever
    no postfix operator is called (`undisturbed_of_noPostfix`).  `lostTicket` is
    a run in which two threads draw the same number. -/

namespace AtomicCounter

open LabelledRun SharedCell

variable {w : Nat}

/-! ## The builtins -/

/-- The `__sync` builtins of the compiler that the class uses. -/
inductive Builtin (w : Nat) where
  | fetchAndAdd (x : BitVec w)
  | valCompareAndSwap (oldval newval : BitVec w)

/-- What the builtin returns, and what it leaves in `value_`. -/
def exec : Builtin w → BitVec w → BitVec w × BitVec w
  | .fetchAndAdd x, c => (c, c + x)
  | .valCompareAndSwap oldval newval, c => (c, if c = oldval then newval else c)

/-- A method of a counter whose values have `w` bits. -/
abbrev Method (w : Nat) (α : Type) : Type := Prog (Builtin w) (BitVec w) α

/-! ## `detail::AtomicIntegerT` -/

namespace AtomicIntegerT

/-- `T value()`: a compare-and-swap that never changes anything. -/
def value : Method w (BitVec w) := .builtin (.valCompareAndSwap 0 0)

/-- `T GetAndAdd(T x)`. -/
def getAndAdd (x : BitVec w) : Method w (BitVec w) := .builtin (.fetchAndAdd x)

/-- `T AddAndGet(T x)`. -/
def addAndGet (x : BitVec w) : Method w (BitVec w) := do
  let r ← getAndAdd x
  return r + x

/-- `T IncrementAndGet()`. -/
def incrementAndGet : Method w (BitVec w) := addAndGet 1

/-- `T DecrementAndGet()`. -/
def decrementAndGet : Method w (BitVec w) := addAndGet (-1)

/-- `void Increment()`. -/
def increment : Method w Unit := do
  let _ ← incrementAndGet
  return ()

/-- `void Decrement()`. -/
def decrement : Method w Unit := do
  let _ ← decrementAndGet
  return ()

end AtomicIntegerT

/-! ## `Atomic` -/

/-- `T operator++(int)`. -/
def postInc : Method w (BitVec w) := do
  let val ← AtomicIntegerT.value
  AtomicIntegerT.increment
  return val

/-- `T operator++()`. -/
def preInc : Method w (BitVec w) := AtomicIntegerT.incrementAndGet

/-- `T operator--(int)`. -/
def postDec : Method w (BitVec w) := do
  let val ← AtomicIntegerT.value
  AtomicIntegerT.decrement
  return val

/-- `T operator--()`. -/
def preDec : Method w (BitVec w) := AtomicIntegerT.decrementAndGet

/-- `T Add(T val)`. -/
def add (val : BitVec w) : Method w (BitVec w) := AtomicIntegerT.getAndAdd val

/-- `T value()`. -/
def value : Method w (BitVec w) := AtomicIntegerT.value

/-- A call that a thread makes on the counter. -/
inductive Op (w : Nat) where
  | preInc
  | preDec
  | postInc
  | postDec
  | add (val : BitVec w)
  | value
  deriving DecidableEq

/-- The method behind an operator. -/
def code : Op w → Method w (BitVec w)
  | .preInc => preInc
  | .preDec => preDec
  | .postInc => postInc
  | .postDec => postDec
  | .add val => add val
  | .value => value

/-! ## What a method does alone -/

/-- To swap `0` for `0` is to read. -/
theorem exec_value (c : BitVec w) : exec (.valCompareAndSwap 0 0) c = (c, c) := by
  rw [exec]
  by_cases hc : c = 0
  · rw [if_pos hc, hc]
  · rw [if_neg hc]

/-- What each operator returns and leaves, as its name says. -/
def meaning : Op w → BitVec w → BitVec w × BitVec w
  | .preInc, c => (c + 1, c + 1)
  | .preDec, c => (c + -1, c + -1)
  | .postInc, c => (c, c + 1)
  | .postDec, c => (c, c + -1)
  | .add val, c => (c, c + val)
  | .value, c => (c, c)

/-- **ALONE** every operator does what its name says. -/
theorem run_code (op : Op w) (c : BitVec w) : (code op).run exec c = meaning op c := by
  have hread : exec (.valCompareAndSwap 0 0) c = (c, c) := exec_value c
  cases op with
  | preInc => rfl
  | preDec => rfl
  | postInc =>
      show ((exec (.valCompareAndSwap 0 0) c).1,
        (exec (.valCompareAndSwap 0 0) c).2 + 1) = (c, c + 1)
      rw [hread]
  | postDec =>
      show ((exec (.valCompareAndSwap 0 0) c).1,
        (exec (.valCompareAndSwap 0 0) c).2 + -1) = (c, c + -1)
      rw [hread]
  | add val => rfl
  | value => exact hread

/-- `AtomicDemo` of `tests/atomic_test.cc`. -/
example : (do
    let a ← preInc
    let b ← preDec
    let c ← postDec
    let d ← postInc
    return [a, b, c, d] : Method 64 (List (BitVec 64))).run exec 10
      = ([11, 10, 10, 9], 10) := by decide

/-- The operators of two builtins. -/
def Op.IsPostfix (op : Op w) : Prop := op = .postInc ∨ op = .postDec

/-- Two operators are, four are not. -/
instance (op : Op w) : Decidable op.IsPostfix :=
  inferInstanceAs (Decidable (op = .postInc ∨ op = .postDec))

/-- One builtin, or a read and a change. -/
theorem code_shape (op : Op w) :
    (∃ (b : Builtin w) (f : BitVec w → BitVec w),
        code op = .call b (fun r => .ret (f r)))
      ∨ (op.IsPostfix ∧ ∃ x, code op = .call (.valCompareAndSwap 0 0)
        (fun r => .call (.fetchAndAdd x) (fun _ => .ret r))) := by
  cases op with
  | preInc => exact Or.inl ⟨_, _, rfl⟩
  | preDec => exact Or.inl ⟨_, _, rfl⟩
  | postInc => exact Or.inr ⟨Or.inl rfl, _, rfl⟩
  | postDec => exact Or.inr ⟨Or.inr rfl, _, rfl⟩
  | add val => exact Or.inl ⟨_, _, rfl⟩
  | value => exact Or.inl ⟨_, _, rfl⟩

/-! ## Threads on one counter -/

section

variable {ι : Type}

/-- A step of one of the threads. -/
def step [DecidableEq ι] (s : State ι (Op w) (BitVec w)) (e : Event ι (Op w)) :
    State ι (Op w) (BitVec w) :=
  s.step exec code e

/-- If the next step is the second builtin of a postfix operator, the counter
    still has the value that the first one returned. -/
def Undisturbed (s : State ι (Op w) (BitVec w)) (e : Event ι (Op w)) : Prop :=
  ∀ i fr v, e = .access i → s.frame i = some fr → fr.op.IsPostfix →
    fr.seen = [v] → s.cell = v

/-- The condition on an access, read off the frame of its thread. -/
theorem undisturbed_access_iff {s : State ι (Op w) (BitVec w)} {i : ι} :
    Undisturbed s (.access i) ↔ ∀ fr ∈ s.frame i, fr.op.IsPostfix →
      fr.seen.length = 1 → fr.seen = [s.cell] := by
  refine ⟨?_, ?_⟩
  · intro h fr hfr hop hlen
    obtain ⟨v, hseen⟩ := List.length_eq_one_iff.mp hlen
    rw [h i fr v rfl hfr hop hseen]
    exact hseen
  · rintro h _ fr v ⟨⟩ hfr hop hseen
    have hcell := h fr hfr hop (by rw [hseen]; rfl)
    rw [hseen] at hcell
    exact (List.head_eq_of_cons_eq hcell).symm

/-- The one frame that an access concerns is looked at. -/
instance (s : State ι (Op w) (BitVec w)) (e : Event ι (Op w)) :
    Decidable (Undisturbed s e) :=
  match e with
  | .invoke _ _ => .isTrue (fun _ _ _ he => (nomatch he))
  | .access _ => decidable_of_iff' _ undisturbed_access_iff
  | .finish _ => .isTrue (fun _ _ _ he => (nomatch he))

/-- What holds of a counter that began at `c`: it is linearizable, and if no
    thread ran anything but `operator++(int)`, no two calls returned the same. -/
structure Consistent [DecidableEq ι] (c : BitVec w)
    (s : State ι (Op w) (BitVec w)) : Prop where
  linearizable : Linearizable exec code c s
  distinct : (∀ i, s.frame i = none) → (∀ e ∈ s.done, e.op = .postInc) →
    s.done.length ≤ 2 ^ w → (s.done.map Entry.value).Nodup

variable {s : State ι (Op w) (BitVec w)} {c : BitVec w}

/-- **EVERY ACCESS IS ATOMIC** while the postfix operators are left alone. -/
theorem atomically {e : Event ι (Op w)} (h : Undisturbed s e) :
    Atomically exec code s e := by
  intro i fr b k he hfr hrest
  rcases code_shape fr.op with ⟨b₀, f, hcode⟩ | ⟨hop, x, hcode⟩
  · exact atomicAccess_one hcode hrest s.cell
  · refine atomicAccess_two hcode exec_value hrest ?_
    intro v hseen
    exact h i fr v he hfr hop hseen

/-- **WITHOUT POSTFIX OPERATORS** every step meets the condition, however the
    threads are interleaved. -/
theorem undisturbed_of_noPostfix [DecidableEq ι] {es : List (Event ι (Op w))}
    (h : ∀ i op, .invoke i op ∈ es → ¬ op.IsPostfix) :
    EveryEvent (fun pre e => Undisturbed (after step (State.init c) pre) e) es := by
  intro pre e post hes i fr v _ hfr hop _
  -- of the operations under way none is a postfix one
  have hframes : ∀ i fr, (after step (State.init c) pre).frame i = some fr →
      ¬ fr.op.IsPostfix := by
    refine @invariant_after _ (Event ι (Op w)) step _ _ (fun _ e => e ∈ es)
      (fun t : State ι (Op w) (BitVec w) =>
        ∀ i fr, t.frame i = some fr → ¬ fr.op.IsPostfix) ?_ ?_ ?_
    · exact fun _ _ hnone => (nomatch hnone)
    · intro t a ht ha
      exact frame_step ht (fun i op hinvoke => h i op (hinvoke ▸ ha))
    · intro pre' a post' hpre
      rw [hes, hpre]
      simp
  exact absurd hop (hframes i fr hfr)

/-- While no postfix operator is disturbed, a run is linearizable. -/
theorem linearizable [DecidableEq ι] {es : List (Event ι (Op w))}
    (h : EveryEvent (fun pre e => Undisturbed (after step (State.init c) pre) e) es) :
    Linearizable exec code c (after step (State.init c) es) := by
  refine linearizable_after ?_
  intro pre e post hes
  exact atomically (h pre e post hes)

end

/-! ## Tickets -/

section

variable {ι : Type} {c d : BitVec w}

/-- Increments one after another: what they leave, and what they return. -/
theorem tickets {es : List (Entry ι (Op w) (BitVec w))}
    (hrun : Run (Alone exec code) c es d) (hop : ∀ e ∈ es, e.op = .postInc) :
    d = c + BitVec.ofNat w es.length
      ∧ es.map Entry.value
        = (List.range es.length).map (fun n => c + BitVec.ofNat w n) := by
  induction hrun with
  | start => simp
  | @next es d u e hrun halone ih =>
      obtain ⟨hcell, hvalues⟩ := ih (fun a ha => hop a (List.mem_append_left _ ha))
      have hlast : e.op = .postInc := hop e (by simp)
      rw [Alone, hlast, run_code, meaning] at halone
      obtain ⟨hvalue, hleft⟩ := Prod.mk.inj halone
      rw [List.length_append, List.length_singleton, List.map_append,
        List.map_singleton, List.range_succ, List.map_append, List.map_singleton,
        hvalues]
      refine ⟨?_, ?_⟩
      · rw [← hleft, hcell, BitVec.add_assoc, BitVec.ofNat_add]
        rfl
      · rw [← hvalue, hcell]

/-- Numbers below `2 ^ w` stay apart when they are added to `c`. -/
theorem nodup_tickets (c : BitVec w) {n : Nat} (h : n ≤ 2 ^ w) :
    ((List.range n).map (fun k => c + BitVec.ofNat w k)).Nodup := by
  refine List.Nodup.map_on ?_ List.nodup_range
  intro i hi j hj hij
  have hin := List.mem_range.mp hi
  have hjn := List.mem_range.mp hj
  have hof : BitVec.ofNat w i = BitVec.ofNat w j := (BitVec.add_right_inj c).mp hij
  have hnat := congrArg BitVec.toNat hof
  rw [BitVec.toNat_ofNat, BitVec.toNat_ofNat, Nat.mod_eq_of_lt (by omega),
    Nat.mod_eq_of_lt (by omega)] at hnat
  exact hnat

/-- **TICKETS ARE DISTINCT** in a linearizable run of postfix increments. -/
theorem distinct_of_linearizable [DecidableEq ι] {s : State ι (Op w) (BitVec w)}
    (h : Linearizable exec code c s) (hidle : ∀ i, s.frame i = none)
    (hop : ∀ e ∈ s.done, e.op = .postInc) (hlen : s.done.length ≤ 2 ^ w) :
    (s.done.map Entry.value).Nodup := by
  obtain ⟨es, hrun, hperm⟩ := h.perm hidle
  have hvalues := (tickets hrun (fun e he => hop e (hperm.mem_iff.mp he))).2
  refine (hperm.map Entry.value).nodup_iff.mp ?_
  rw [hvalues, hperm.length_eq]
  exact nodup_tickets c hlen

end

/-- **COUNTERS ARE LINEARIZABLE** at every point of a run in which each postfix
    operator finds the counter as it read it. -/
theorem counters_linearizable {w : Nat} {ι : Type} [DecidableEq ι] (c : BitVec w)
    {es pre : List (Event ι (Op w))}
    (h : EveryEvent (fun pre e => Undisturbed (after step (State.init c) pre) e) es)
    (hpre : pre <+: es) : Consistent c (after step (State.init c) pre) := by
  have hlin := linearizable (h.of_prefix hpre)
  exact ⟨hlin, distinct_of_linearizable hlin⟩

/-- Three threads: two draw a ticket each, and while the first of them is between
    its two builtins the third reads the counter; it then adds `5` before the
    second one has returned. -/
def threeThreads : List (Event (Fin 3) (Op 64)) :=
  [.invoke 0 .postInc, .invoke 1 .postInc, .invoke 2 .value, .access 0, .access 2,
    .access 0, .access 1, .finish 0, .access 1, .finish 2, .invoke 2 (.add 5),
    .access 2, .finish 1, .finish 2]

/-- Nobody comes between the two builtins. -/
theorem undisturbed_threeThreads : EveryEvent
    (fun pre e => Undisturbed (after step (State.init 0) pre) e) threeThreads :=
  everyEvent_iff_take.mpr (by decide)

/-- The tickets are `0` and `1`, and the reads before and after them. -/
example : (after step (State.init 0) threeThreads).done
    = [⟨0, .postInc, 0⟩, ⟨2, .value, 0⟩, ⟨1, .postInc, 1⟩, ⟨2, .add 5, 2⟩] := by
  decide

/-- Three operations that overlap, one of them postfix. -/
theorem counters_linearizable_threeThreads :
    Consistent 0 (after step (State.init 0) threeThreads) :=
  counters_linearizable 0 undisturbed_threeThreads (List.prefix_refl _)

/-! ## A lost ticket -/

/-- Two threads read the counter before either of them adds. -/
def lostTicket : List (Event Bool (Op 64)) :=
  [.invoke false .postInc, .invoke true .postInc, .access false, .access true,
    .access false, .access true, .finish false, .finish true]

/-- Both draw the number `0`. -/
theorem lostTicket_done : (after step (State.init 0) lostTicket).done
    = [⟨false, .postInc, 0⟩, ⟨true, .postInc, 0⟩] := by decide

/-- Both calls return `0`. -/
theorem lostTicket_inconsistent :
    ¬ Consistent 0 (after step (State.init 0) lostTicket) := by
  intro h
  have hidle : ∀ i, (after step (State.init 0) lostTicket).frame i = none := by
    intro i
    cases i <;> rfl
  have hnodup := h.distinct hidle
  rw [lostTicket_done] at hnodup
  exact absurd (hnodup (by decide) (by decide)) (by decide)

end AtomicCounter
