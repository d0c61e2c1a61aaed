import Mathlib.Data.List.Basic
import Mathlib.Data.List.Count

/-! # Resources along a trace

    Code that takes resources and gives them back is judged by its trace: the
    list of its operations in order.  `Settled` says that everything taken was
    given back exactly once, `Timely` that nothing was used after it had been
    given back.  The rules take a trace apart: `settled_append_iff` for two
    pieces with resources of their own, `settled_sequence_iff` for a sequence of
    calls, `Timely.append` for one piece after another.

    `Act` is the code itself: it logs what it does and may end in a throw.

    Nothing here mentions the program. -/

namespace ResourceTrace

/-! ## Code that logs and may throw -/

/-- What a piece of code logged, and its value unless it threw. -/
@[ext] structure Act (ε α : Type) where
  log : List ε
  val : Option α

namespace Act

variable {ε α β : Type}

/-- A value, and nothing logged. -/
def pure (a : α) : Act ε α := ⟨[], some a⟩

/-- After a throw nothing more is done. -/
def bind (x : Act ε α) (f : α → Act ε β) : Act ε β :=
  match x.val with
  | none => ⟨x.log, none⟩
  | some a => ⟨x.log ++ (f a).log, (f a).val⟩

/-- Statements one after another. -/
instance : Monad (Act ε) where
  pure := Act.pure
  bind := Act.bind

/-- Only a log entry. -/
def emit (es : List ε) : Act ε Unit := ⟨es, some ()⟩

/-- An exception. -/
def throw : Act ε α := ⟨[], none⟩

/-- `try x catch …`, where the handler only makes a value. -/
def catching (x : Act ε α) (handler : α) : Act ε α :=
  ⟨x.log, some (x.val.getD handler)⟩

@[simp] theorem some_bind (log : List ε) (a : α) (f : α → Act ε β) :
    ((⟨log, some a⟩ : Act ε α) >>= f) = ⟨log ++ (f a).log, (f a).val⟩ :=
  rfl

@[simp] theorem none_bind (log : List ε) (f : α → Act ε β) :
    ((⟨log, none⟩ : Act ε α) >>= f) = ⟨log, none⟩ :=
  rfl

@[simp] theorem pure_eq (a : α) : (Pure.pure a : Act ε α) = ⟨[], some a⟩ :=
  rfl

/-- What is logged is logged by the first part, or by the second after it. -/
theorem mem_bind_log {x : Act ε α} {f : α → Act ε β} {e : ε} :
    e ∈ (x >>= f).log ↔ e ∈ x.log ∨ ∃ a, x.val = some a ∧ e ∈ (f a).log := by
  obtain ⟨log, val⟩ := x
  cases val with
  | none => simp
  | some a => simp

end Act

/-! ## Operations -/

/-- One operation on a resource. -/
inductive Op (ρ : Type) where
  | acquire (r : ρ)
  | use (r : ρ)
  | release (r : ρ)
  deriving DecidableEq

variable {ρ σ : Type}

/-- The resource an operation is on. -/
def Op.resource : Op ρ → ρ
  | .acquire r => r
  | .use r => r
  | .release r => r

/-- The same operation on another resource. -/
def Op.rename (f : ρ → σ) : Op ρ → Op σ
  | .acquire r => .acquire (f r)
  | .use r => .use (f r)
  | .release r => .release (f r)

theorem rename_injective {f : ρ → σ} (hf : Function.Injective f) :
    Function.Injective (Op.rename f) := by
  intro a b h
  cases a with
  | acquire r => cases b <;> simp_all [Op.rename, hf.eq_iff]
  | use r => cases b <;> simp_all [Op.rename, hf.eq_iff]
  | release r => cases b <;> simp_all [Op.rename, hf.eq_iff]

@[simp] theorem resource_rename (f : ρ → σ) (op : Op ρ) :
    (op.rename f).resource = f op.resource := by
  cases op <;> rfl

/-- The traces of several calls one after another; the resources of call number
    `n` are its own. -/
def sequenceFrom (n : Nat) : List (List (Op ρ)) → List (Op (Nat × ρ))
  | [] => []
  | tr :: trs => tr.map (Op.rename (n, ·)) ++ sequenceFrom (n + 1) trs

/-- The calls from number `n` on have no resources of earlier ones. -/
theorem le_of_mem_sequence {trs : List (List (Op ρ))} :
    ∀ (n : Nat) (op : Op (Nat × ρ)), op ∈ sequenceFrom n trs →
      n ≤ op.resource.1 := by
  induction trs with
  | nil =>
      intro n op hop
      exact absurd hop List.not_mem_nil
  | cons tr trs ih =>
      intro n op hop
      rcases List.mem_append.mp hop with hop | hop
      · obtain ⟨op', -, hop'⟩ := List.mem_map.mp hop
        have hn : n = op.resource.1 := by rw [← hop', resource_rename]
        exact Nat.le_of_eq hn
      · exact Nat.le_of_succ_le (ih (n + 1) op hop)

/-! ## What was taken comes back -/

section Settled

variable [DecidableEq ρ] [DecidableEq σ]

/-- Each resource was taken at most once, and given back as often. -/
def Settled (tr : List (Op ρ)) : Prop :=
  ∀ r, tr.count (.release r) = tr.count (.acquire r)
    ∧ tr.count (.acquire r) ≤ 1

/-- The trace does not mention the resource. -/
def Unmentioned (r : ρ) (tr : List (Op ρ)) : Prop :=
  ∀ op ∈ tr, op.resource ≠ r

theorem Unmentioned.count_acquire {r : ρ} {tr : List (Op ρ)}
    (h : Unmentioned r tr) : tr.count (.acquire r) = 0 :=
  List.count_eq_zero.mpr (fun hmem => h _ hmem rfl)

theorem Unmentioned.count_release {r : ρ} {tr : List (Op ρ)}
    (h : Unmentioned r tr) : tr.count (.release r) = 0 :=
  List.count_eq_zero.mpr (fun hmem => h _ hmem rfl)

theorem settled_nil : Settled ([] : List (Op ρ)) :=
  fun _ => ⟨rfl, Nat.zero_le 1⟩

/-- What was taken and not given back is missing. -/
theorem not_settled_of_kept {r : ρ} {tr : List (Op ρ)}
    (hacq : .acquire r ∈ tr) (hrel : .release r ∉ tr) : ¬ Settled tr := by
  intro h
  have hback := (h r).1
  rw [List.count_eq_zero.mpr hrel] at hback
  exact List.count_eq_zero.mp hback.symm hacq

/-- **TWO PIECES WITH RESOURCES OF THEIR OWN** settle one by one. -/
theorem settled_append_iff {tr tr' : List (Op ρ)}
    (hapart : ∀ r, Unmentioned r tr ∨ Unmentioned r tr') :
    Settled (tr ++ tr') ↔ Settled tr ∧ Settled tr' := by
  simp only [Settled, List.count_append]
  rw [← forall_and]
  refine forall_congr' (fun r => ?_)
  -- one of the two pieces has no entry of `r`
  rcases hapart r with h | h
  · rw [h.count_acquire, h.count_release]
    omega
  · rw [h.count_acquire, h.count_release]
    omega

/-- Names do not matter. -/
theorem settled_rename_iff {f : ρ → σ} (hf : Function.Injective f)
    {tr : List (Op ρ)} : Settled (tr.map (Op.rename f)) ↔ Settled tr := by
  have hinj := rename_injective hf
  constructor
  · intro h r
    have hr := h (f r)
    rw [show Op.release (f r) = (Op.release r).rename f from rfl,
      show Op.acquire (f r) = (Op.acquire r).rename f from rfl,
      List.count_map_of_injective _ _ hinj,
      List.count_map_of_injective _ _ hinj] at hr
    exact hr
  · intro h s
    by_cases hs : ∃ r, f r = s
    · obtain ⟨r, hr⟩ := hs
      subst hr
      rw [show Op.release (f r) = (Op.release r).rename f from rfl,
        show Op.acquire (f r) = (Op.acquire r).rename f from rfl,
        List.count_map_of_injective _ _ hinj,
        List.count_map_of_injective _ _ hinj]
      exact h r
    · -- a resource that no renaming reaches is not mentioned
      have hno : Unmentioned s (tr.map (Op.rename f)) := by
        intro op hop
        obtain ⟨op', -, hop'⟩ := List.mem_map.mp hop
        rw [← hop', resource_rename]
        exact fun heq => hs ⟨op'.resource, heq⟩
      rw [hno.count_acquire, hno.count_release]
      exact ⟨rfl, Nat.zero_le 1⟩

/-- **A SEQUENCE OF CALLS** settles if every call does. -/
theorem settled_sequence_iff {trs : List (List (Op ρ))} :
    ∀ n, Settled (sequenceFrom n trs) ↔ ∀ tr ∈ trs, Settled tr := by
  induction trs with
  | nil =>
      intro n
      exact ⟨fun _ tr htr => absurd htr List.not_mem_nil, fun _ => settled_nil⟩
  | cons tr trs ih =>
      intro n
      -- the resources of a call carry its number
      have hapart : ∀ r, Unmentioned r (tr.map (Op.rename (Prod.mk n)))
          ∨ Unmentioned r (sequenceFrom (n + 1) trs) := by
        intro r
        by_cases hr : r.1 = n
        · refine Or.inr (fun op hop heq => ?_)
          have := le_of_mem_sequence (n + 1) op hop
          rw [heq] at this
          omega
        · refine Or.inl (fun op hop heq => hr ?_)
          obtain ⟨op', -, hop'⟩ := List.mem_map.mp hop
          rw [← heq, ← hop', resource_rename]
      rw [sequenceFrom, settled_append_iff hapart, ih (n + 1),
        settled_rename_iff (fun _ _ h => congrArg Prod.snd h), List.forall_mem_cons]

end Settled

/-! ## Nothing is used after it was given back -/

/-- No resource is used after it has been given back. -/
def Timely (tr : List (Op ρ)) : Prop :=
  ∀ pre r post, tr = pre ++ .use r :: post → .release r ∉ pre

/-- While nothing is given back all uses are in time. -/
theorem timely_of_unreleased {tr : List (Op ρ)} (h : ∀ r, .release r ∉ tr) :
    Timely tr := by
  intro pre r post heq hrel
  refine h r ?_
  rw [heq]
  exact List.mem_append_left _ hrel

/-- Without uses there is none too late. -/
theorem timely_of_unused {tr : List (Op ρ)} (h : ∀ r, .use r ∉ tr) :
    Timely tr := by
  intro pre r post heq
  refine absurd ?_ (h r)
  rw [heq]
  exact List.mem_append_right _ List.mem_cons_self

/-- **ONE PIECE AFTER THE OTHER** is timely unless the second uses what the first
    gave back. -/
theorem Timely.append {tr tr' : List (Op ρ)} (h : Timely tr) (h' : Timely tr')
    (hkept : ∀ r, .use r ∈ tr' → .release r ∉ tr) : Timely (tr ++ tr') := by
  intro pre r post heq
  rcases List.append_eq_append_iff.mp heq with ⟨mid, hpre, htr'⟩ | ⟨mid, htr, hpost⟩
  · -- the use stands in the second piece
    have huse : .use r ∈ tr' := by
      rw [htr']
      exact List.mem_append_right _ List.mem_cons_self
    rw [hpre, List.mem_append]
    rintro (hrel | hrel)
    · exact hkept r huse hrel
    · exact h' mid r post htr' hrel
  · cases mid with
    | nil =>
        have huse : .use r ∈ tr' := by
          rw [← List.nil_append tr', ← hpost]
          exact List.mem_cons_self
        rw [List.append_nil] at htr
        rw [← htr]
        exact hkept r huse
    | cons op mid =>
        -- or in the first
        obtain ⟨hop, -⟩ := List.cons.inj hpost
        rw [← hop] at htr
        exact h pre r mid htr

end ResourceTrace
