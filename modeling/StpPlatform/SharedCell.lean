import Mathlib.Logic.Function.Basic
import StpPlatform.LabelledRun

/-! # Threads over one shared cell

    A cell that several threads reach only through builtins, each of which is
    one indivisible step.  An operation is a program of builtins; between two
    of them any other thread may run.

    `Linearizable` says that what the threads saw is what some sequential
    execution of the operations shows, in each thread's own order.  The rule
    `linearizable_after` gives it from a condition on single accesses: each
    either leaves the cell alone and does not finish its operation, or does at
    once all that the operation does (`Atomically`).

    Nothing here mentions the program. -/

namespace SharedCell

open LabelledRun

/-! ## Programs of builtins -/

/-- A program that calls builtins `B`, which return a `T`, and results in `α`. -/
inductive Prog (B T : Type) (α : Type) where
  | ret (v : α)
  | call (b : B) (k : T → Prog B T α)

section

variable {B T α β : Type}

/-- One program, and then another one with its value. -/
def Prog.bind : Prog B T α → (α → Prog B T β) → Prog B T β
  | .ret v, f => f v
  | .call b k, f => .call b (fun r => (k r).bind f)

/-- So that operations can be written as a sequence of builtins. -/
instance : Monad (Prog B T) where
  pure := .ret
  bind := .bind

/-- One builtin. -/
def Prog.builtin (b : B) : Prog B T T := .call b .ret

/-- Run alone: the result, and what is left in the cell. -/
def Prog.run (exec : B → T → T × T) : Prog B T α → T → α × T
  | .ret v, c => (v, c)
  | .call b k, c => (k (exec b c).1).run exec (exec b c).2

/-- What is left of a program to which its builtins have returned `seen`. -/
def Prog.rest : Prog B T α → List T → Prog B T α
  | p, [] => p
  | .ret v, _ :: _ => .ret v
  | .call _ k, v :: seen => (k v).rest seen

@[simp] theorem Prog.rest_nil (p : Prog B T α) : p.rest [] = p := by
  cases p <;> rfl

@[simp] theorem Prog.rest_ret (v : α) (seen : List T) :
    (Prog.ret v : Prog B T α).rest seen = .ret v := by
  cases seen <;> rfl

@[simp] theorem Prog.rest_call (b : B) (k : T → Prog B T α) (v : T)
    (seen : List T) : (Prog.call b k).rest (v :: seen) = (k v).rest seen := rfl

theorem Prog.rest_concat (p : Prog B T α) (seen : List T) (v : T) :
    p.rest (seen ++ [v]) = (p.rest seen).rest [v] := by
  induction seen generalizing p with
  | nil => rw [List.nil_append, Prog.rest_nil]
  | cons r seen ih =>
      cases p with
      | ret u => rfl
      | call b k => exact ih (k r)

end

/-! ## The threads -/

/-- An operation that is under way, and what its builtins returned. -/
structure Frame (Op T : Type) where
  op : Op
  seen : List T

/-- An operation that is over: who ran it, and what it returned. -/
structure Entry (ι Op T : Type) where
  thread : ι
  op : Op
  value : T
  deriving DecidableEq

/-- The cell, what each thread is doing, and what has been done. -/
structure State (ι Op T : Type) where
  cell : T
  frame : ι → Option (Frame Op T)
  done : List (Entry ι Op T)

/-- A thread begins an operation, runs a builtin of it, or returns from it. -/
inductive Event (ι Op : Type) where
  | invoke (i : ι) (op : Op)
  | access (i : ι)
  | finish (i : ι)

/-- No thread has begun. -/
def State.init {ι Op T : Type} (c : T) : State ι Op T := ⟨c, fun _ => none, []⟩

section

variable {ι B Op T : Type} (exec : B → T → T × T) (code : Op → Prog B T T)

/-- What is left to do of an operation under way. -/
def Frame.rest (fr : Frame Op T) : Prog B T T := (code fr.op).rest fr.seen

/-- The next builtin has returned `r`. -/
def Frame.saw (fr : Frame Op T) (r : T) : Frame Op T := ⟨fr.op, fr.seen ++ [r]⟩

/-- The operation of thread `i` that has run its last builtin and is about to
    return. -/
def State.effected (s : State ι Op T) (i : ι) : List (Entry ι Op T) :=
  match s.frame i with
  | none => []
  | some fr =>
      match fr.rest code with
      | .call _ _ => []
      | .ret v => [⟨i, fr.op, v⟩]

section

variable {code} {s t : State ι Op T} {i : ι} {fr : Frame Op T}

/-- After a builtin it goes on with its value. -/
theorem Frame.rest_saw {b : B} {k : T → Prog B T T} (h : fr.rest code = .call b k)
    (r : T) : (fr.saw r).rest code = k r := by
  rw [Frame.rest] at h
  rw [Frame.rest, Frame.saw, Prog.rest_concat, h, Prog.rest_call, Prog.rest_nil]

theorem effected_none (h : s.frame i = none) : s.effected code i = [] := by
  rw [State.effected, h]

theorem effected_call {b : B} {k : T → Prog B T T} (h : s.frame i = some fr)
    (hrest : fr.rest code = .call b k) : s.effected code i = [] := by
  rw [State.effected, h]
  simp only [hrest]

/-- An operation that has run its last builtin has taken effect, though it has not
    returned. -/
theorem effected_ret {v : T} (h : s.frame i = some fr)
    (hrest : fr.rest code = .ret v) : s.effected code i = [⟨i, fr.op, v⟩] := by
  rw [State.effected, h]
  simp only [hrest]

/-- What a thread has effected is its own affair. -/
theorem effected_congr (h : t.frame i = s.frame i) :
    t.effected code i = s.effected code i := by
  rw [State.effected, h, State.effected]

end

variable [DecidableEq ι]

/-- Thread `i` is now where `fr` says, and `c` is in the cell. -/
def State.goOn (s : State ι Op T) (i : ι) (fr : Frame Op T) (c : T) :
    State ι Op T :=
  { s with cell := c, frame := Function.update s.frame i (some fr) }

theorem State.goOn_self (s : State ι Op T) (i : ι) (fr : Frame Op T) (c : T) :
    (s.goOn i fr c).frame i = some fr :=
  Function.update_self ..

theorem State.goOn_other (s : State ι Op T) {i j : ι} (h : j ≠ i)
    (fr : Frame Op T) (c : T) : (s.goOn i fr c).frame j = s.frame j :=
  Function.update_of_ne h ..

/-- One step of a thread.  An event that is not possible changes nothing. -/
def State.step (s : State ι Op T) : Event ι Op → State ι Op T
  | .invoke i op =>
      match s.frame i with
      | some _ => s
      -- a thread has one operation under way at a time
      | none => s.goOn i ⟨op, []⟩ s.cell
  | .access i =>
      match s.frame i with
      | none => s
      | some fr =>
          match fr.rest code with
          | .ret _ => s
          | .call b _ =>
              s.goOn i (fr.saw (exec b s.cell).1) (exec b s.cell).2
  | .finish i =>
      match s.frame i with
      | none => s
      | some fr =>
          match fr.rest code with
          | .call _ _ => s
          | .ret v =>
              { s with
                frame := Function.update s.frame i none
                done := s.done ++ [⟨i, fr.op, v⟩] }

/-- The operations under way are those that were invoked. -/
theorem frame_step {exec : B → T → T × T} {code : Op → Prog B T T} {P : Op → Prop}
    {s : State ι Op T} {e : Event ι Op}
    (h : ∀ i fr, s.frame i = some fr → P fr.op)
    (he : ∀ i op, e = .invoke i op → P op) :
    ∀ i fr, (s.step exec code e).frame i = some fr → P fr.op := by
  -- a thread that goes on keeps its operation, all others keep their frame
  have hgoOn : ∀ j (fr : Frame Op T) c, P fr.op →
      ∀ i fr', (s.goOn j fr c).frame i = some fr' → P fr'.op := by
    intro j fr c hfr i fr' hi
    by_cases hij : i = j
    · rw [hij, State.goOn_self] at hi
      rw [← Option.some.inj hi]
      exact hfr
    · rw [s.goOn_other hij] at hi
      exact h i fr' hi
  intro i fr hi
  cases e with
  | invoke j op =>
      cases hfr : s.frame j with
      | some fr' =>
          rw [State.step, hfr] at hi
          exact h i fr hi
      | none =>
          rw [State.step, hfr] at hi
          exact hgoOn j ⟨op, []⟩ s.cell (he j op rfl) i fr hi
  | access j =>
      cases hfr : s.frame j with
      | none =>
          rw [State.step, hfr] at hi
          exact h i fr hi
      | some fr' =>
          cases hrest : fr'.rest code with
          | ret v =>
              simp only [State.step, hfr, hrest] at hi
              exact h i fr hi
          | call b k =>
              simp only [State.step, hfr, hrest] at hi
              exact hgoOn j (fr'.saw (exec b s.cell).1) _ (h j fr' hfr) i fr hi
  | finish j =>
      cases hfr : s.frame j with
      | none =>
          rw [State.step, hfr] at hi
          exact h i fr hi
      | some fr' =>
          cases hrest : fr'.rest code with
          | call b k =>
              simp only [State.step, hfr, hrest] at hi
              exact h i fr hi
          | ret v =>
              simp only [State.step, hfr, hrest] at hi
              by_cases hij : i = j
              · rw [hij, Function.update_self] at hi
                cases hi
              · rw [Function.update_of_ne hij] at hi
                exact h i fr hi

/-! ## Sequential executions -/

/-- The operation of `e`, run alone, returns what `e` says. -/
def Alone (c : T) (e : Entry ι Op T) (d : T) : Prop :=
  (code e.op).run exec c = (e.value, d)

/-- The entries of one thread, in order. -/
def ofThread (i : ι) (es : List (Entry ι Op T)) : List (Entry ι Op T) :=
  es.filter (fun e => e.thread = i)

/-- **LINEARIZABLE**: one sequential execution, in each thread's own order, has
    the same results and leaves the same value in the cell. -/
def Linearizable (c : T) (s : State ι Op T) : Prop :=
  ∃ es, Run (Alone exec code) c es s.cell
    ∧ ∀ i, ofThread i es = ofThread i s.done ++ s.effected code i

/-- What a thread whose next builtin is `b` does with the value `c` in the cell
    is atomic. -/
def AtomicAccess (p : Prog B T T) (b : B) (k : T → Prog B T T) (c : T) : Prop :=
  ((exec b c).2 = c ∧ ∀ v, k (exec b c).1 ≠ .ret v)
    ∨ ∃ v, k (exec b c).1 = .ret v ∧ p.run exec c = (v, (exec b c).2)

/-- If the next step is an access, it either leaves the cell alone and does not
    end the operation, or does all that the operation does. -/
def Atomically (s : State ι Op T) (e : Event ι Op) : Prop :=
  ∀ i fr b k, e = .access i → s.frame i = some fr → fr.rest code = .call b k →
    AtomicAccess exec (code fr.op) b k s.cell

variable {exec} {code} {c : T} {s t : State ι Op T} {i : ι} {fr : Frame Op T}

/-- The entries of one thread, of two parts of a list. -/
theorem ofThread_append (i : ι) (es fs : List (Entry ι Op T)) :
    ofThread i (es ++ fs) = ofThread i es ++ ofThread i fs :=
  List.filter_append ..

theorem ofThread_self (i : ι) (op : Op) (v : T) :
    ofThread i [⟨i, op, v⟩] = [⟨i, op, v⟩] := by
  simp [ofThread]

theorem ofThread_other {i j : ι} (h : j ≠ i) (op : Op) (v : T) :
    ofThread j [⟨i, op, v⟩] = [] := by
  simp [ofThread, Ne.symm h]

/-- A thread that starts or goes on without an effect needs no new place in the
    sequential execution. -/
theorem Linearizable.silent (h : Linearizable exec code c s)
    (hcell : t.cell = s.cell) (hdone : t.done = s.done)
    (hi : t.effected code i = s.effected code i)
    (hother : ∀ j, j ≠ i → t.frame j = s.frame j) :
    Linearizable exec code c t := by
  obtain ⟨es, hrun, horder⟩ := h
  refine ⟨es, ?_, ?_⟩
  · rw [hcell]
    exact hrun
  · intro j
    rw [hdone, horder j]
    by_cases hji : j = i
    · rw [hji, hi]
    · rw [effected_congr (hother j hji)]

/-- A thread whose operation takes effect comes last in it. -/
theorem Linearizable.effect {op : Op} {v : T} (h : Linearizable exec code c s)
    (halone : (code op).run exec s.cell = (v, t.cell)) (hdone : t.done = s.done)
    (hbefore : s.effected code i = []) (hi : t.effected code i = [⟨i, op, v⟩])
    (hother : ∀ j, j ≠ i → t.frame j = s.frame j) :
    Linearizable exec code c t := by
  obtain ⟨es, hrun, horder⟩ := h
  have hlast : Alone exec code s.cell ⟨i, op, v⟩ t.cell := halone
  refine ⟨es ++ [⟨i, op, v⟩], hrun.next hlast, ?_⟩
  intro j
  rw [ofThread_append, hdone, horder j]
  by_cases hji : j = i
  · rw [hji, hbefore, hi, List.append_nil, ofThread_self]
  · rw [effected_congr (hother j hji), ofThread_other hji, List.append_nil]

/-- To return is to be entered among what is done. -/
theorem Linearizable.finish {op : Op} {v : T} (h : Linearizable exec code c s)
    (hcell : t.cell = s.cell) (hdone : t.done = s.done ++ [⟨i, op, v⟩])
    (hbefore : s.effected code i = [⟨i, op, v⟩]) (hi : t.effected code i = [])
    (hother : ∀ j, j ≠ i → t.frame j = s.frame j) :
    Linearizable exec code c t := by
  obtain ⟨es, hrun, horder⟩ := h
  refine ⟨es, ?_, ?_⟩
  · rw [hcell]
    exact hrun
  · intro j
    rw [horder j, hdone, ofThread_append]
    by_cases hji : j = i
    · rw [hji, hbefore, hi, ofThread_self, List.append_nil]
    · rw [effected_congr (hother j hji), ofThread_other hji, List.append_nil]

/-- An operation begins; without builtins it is over at once. -/
theorem Linearizable.invoke (h : Linearizable exec code c s) (hfr : s.frame i = none)
    (op : Op) : Linearizable exec code c (s.goOn i ⟨op, []⟩ s.cell) := by
  have hself := s.goOn_self i ⟨op, []⟩ s.cell
  have hother : ∀ j, j ≠ i → (s.goOn i ⟨op, []⟩ s.cell).frame j = s.frame j :=
    fun j hj => s.goOn_other hj _ _
  have hrest : Frame.rest code ⟨op, []⟩ = code op := Prog.rest_nil _
  -- whether the operation has a builtin to run
  cases hcode : code op with
  | call b k =>
      refine h.silent rfl rfl ?_ hother
      rw [effected_none hfr]
      exact effected_call hself (hrest.trans hcode)
  | ret v =>
      refine h.effect ?_ rfl (effected_none hfr)
        (effected_ret hself (hrest.trans hcode)) hother
      rw [hcode]
      rfl

/-- An atomic access is silent, or it is where the operation takes effect. -/
theorem Linearizable.access {b : B} {k : T → Prog B T T}
    (h : Linearizable exec code c s) (hfr : s.frame i = some fr)
    (hrest : fr.rest code = .call b k)
    (hatom : AtomicAccess exec (code fr.op) b k s.cell) :
    Linearizable exec code c
      (s.goOn i (fr.saw (exec b s.cell).1) (exec b s.cell).2) := by
  have hself := s.goOn_self i (fr.saw (exec b s.cell).1) (exec b s.cell).2
  have hother : ∀ j, j ≠ i → (s.goOn i (fr.saw (exec b s.cell).1)
      (exec b s.cell).2).frame j = s.frame j :=
    fun j hj => s.goOn_other hj _ _
  have hnext := Frame.rest_saw hrest (exec b s.cell).1
  -- the access is silent, or it is the one that counts
  rcases hatom with ⟨hcell, hgo⟩ | ⟨v, hv, halone⟩
  · refine h.silent hcell rfl ?_ hother
    rw [effected_call hfr hrest]
    cases hk : k (exec b s.cell).1 with
    | ret v => exact absurd hk (hgo v)
    | call b' k' => exact effected_call hself (hnext.trans hk)
  · have hnew := effected_ret hself (hnext.trans hv)
    exact h.effect halone rfl (effected_call hfr hrest) hnew hother

/-- **ONE STEP** of a thread that accesses the cell atomically. -/
theorem linearizable_step {e : Event ι Op} (h : Linearizable exec code c s)
    (hatom : Atomically exec code s e) :
    Linearizable exec code c (s.step exec code e) := by
  cases e with
  | invoke i op =>
      cases hfr : s.frame i with
      | some fr =>
          rw [State.step, hfr]
          exact h
      | none =>
          rw [State.step, hfr]
          exact h.invoke hfr op
  | access i =>
      cases hfr : s.frame i with
      | none =>
          rw [State.step, hfr]
          exact h
      | some fr =>
          cases hrest : fr.rest code with
          | ret v =>
              simp only [State.step, hfr, hrest]
              exact h
          | call b k =>
              simp only [State.step, hfr, hrest]
              -- only an access can change the cell
              exact h.access hfr hrest (hatom i fr b k rfl hfr hrest)
  | finish i =>
      cases hfr : s.frame i with
      | none =>
          rw [State.step, hfr]
          exact h
      | some fr =>
          cases hrest : fr.rest code with
          | call b k =>
              simp only [State.step, hfr, hrest]
              exact h
          | ret v =>
              simp only [State.step, hfr, hrest]
              refine h.finish rfl rfl (effected_ret hfr hrest) ?_ ?_
              · exact effected_none (Function.update_self ..)
              · exact fun j hj => Function.update_of_ne hj _ _

/-! ## Operations of one and of two builtins -/

/-- An operation of one builtin is. -/
theorem atomicAccess_one {p : Prog B T T} {seen : List T} {b₀ b : B} {f : T → T}
    {k : T → Prog B T T} (hp : p = .call b₀ (fun r => .ret (f r)))
    (hrest : p.rest seen = .call b k) (c : T) : AtomicAccess exec p b k c := by
  subst hp
  cases seen with
  | nil =>
      cases hrest
      exact Or.inr ⟨_, rfl, rfl⟩
  | cons v seen =>
      rw [Prog.rest_call, Prog.rest_ret] at hrest
      cases hrest

/-- An operation that reads the cell, changes it, and returns what it read, is
    atomic if what it read is still there when it changes it. -/
theorem atomicAccess_two {p : Prog B T T} {seen : List T} {b₀ b₁ b : B}
    {k : T → Prog B T T} {c : T}
    (hp : p = .call b₀ (fun r => .call b₁ (fun _ => .ret r)))
    (hread : ∀ c, exec b₀ c = (c, c)) (hrest : p.rest seen = .call b k)
    (hcell : ∀ v, seen = [v] → c = v) : AtomicAccess exec p b k c := by
  subst hp
  -- the first builtin is next, or the second, or none
  match seen with
  | [] =>
      cases hrest
      left
      rw [hread]
      refine ⟨rfl, ?_⟩
      intro v hv
      cases hv
  | [v] =>
      cases hrest
      right
      refine ⟨v, rfl, ?_⟩
      rw [← hcell v rfl, Prog.run, hread]
      rfl
  | _ :: _ :: seen =>
      rw [Prog.rest_call, Prog.rest_call, Prog.rest_ret] at hrest
      cases hrest

/-- No operation, no value to explain. -/
theorem linearizable_init (c : T) :
    Linearizable exec code c (State.init c : State ι Op T) :=
  ⟨[], Run.start, fun _ => rfl⟩

/-- **LINEARIZATION RULE**: threads whose every access is atomic. -/
theorem linearizable_after {es : List (Event ι Op)}
    (hatom : EveryEvent (fun pre e => Atomically exec code
      (after (State.step exec code) (State.init c) pre) e) es) :
    Linearizable exec code c (after (State.step exec code) (State.init c) es) :=
  invariant_after (Linearizable exec code c) (linearizable_init c)
    (fun _ _ ht he => linearizable_step ht he) hatom

/-- When no operation is under way, the sequential execution has the operations
    that are done, and no others. -/
theorem Linearizable.perm [DecidableEq Op] [DecidableEq T]
    (h : Linearizable exec code c s) (hidle : ∀ i, s.frame i = none) :
    ∃ es, Run (Alone exec code) c es s.cell ∧ es.Perm s.done := by
  obtain ⟨es, hrun, horder⟩ := h
  refine ⟨es, hrun, List.perm_iff_count.mpr ?_⟩
  intro e
  -- an entry belongs to one thread, whose entries are the same on both sides
  have hcount : ∀ fs : List (Entry ι Op T),
      fs.count e = (ofThread e.thread fs).count e := by
    intro fs
    exact (List.count_filter (by simp)).symm
  rw [hcount es, hcount s.done, horder, effected_none (hidle e.thread),
    List.append_nil]

end

end SharedCell
