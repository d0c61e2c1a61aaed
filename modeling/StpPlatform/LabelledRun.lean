import Mathlib.Data.List.Basic
import Mathlib.Data.List.Induction

/-! # Runs of a labelled transition system

    The systems below are all of one shape: a step relation labelled by the
    event that took place.  This file fixes what a run of such a system is and
    states the two rules every run argument goes through:

    * `Run.invariant_of` — a state invariant survives a run whose events meet
      a condition on the state (and on the events before);
    * `Run.pairwise_of` — a relation between two events of a run holds of
      every pair once it holds between each event and those before it.

    Where the step is a function of the state and the event, `after` is the
    state a list of events leads to, and `invariant_after` the first rule.

    Nothing here mentions the program. -/

namespace LabelledRun

variable {σ ε : Type}

/-- `Run step s es t`: the events `es`, in this order, lead from `s` to `t`. -/
inductive Run (step : σ → ε → σ → Prop) (s : σ) : List ε → σ → Prop where
  | start : Run step s [] s
  | next {es : List ε} {t u : σ} {e : ε} :
      Run step s es t → step t e u → Run step s (es ++ [e]) u

/-- Where a list with one more element splits: before that element, or at it. -/
theorem concat_split {es pre post : List ε} {e a : ε}
    (h : es ++ [e] = pre ++ a :: post) :
    (pre = es ∧ a = e) ∨ ∃ post', es = pre ++ a :: post' := by
  rcases List.eq_nil_or_concat post with hp | ⟨post', b, hp⟩
  · subst hp
    obtain ⟨hpre, ha⟩ := List.append_inj' h rfl
    exact Or.inl ⟨hpre.symm, (List.singleton_injective ha).symm⟩
  · subst hp
    rw [List.concat_eq_append, ← List.cons_append, ← List.append_assoc] at h
    obtain ⟨hes, -⟩ := List.append_inj' h rfl
    exact Or.inr ⟨post', hes⟩

/-- Every event `e` of `es` meets `cond`, given the events before it. -/
def EveryEvent (cond : List ε → ε → Prop) (es : List ε) : Prop :=
  ∀ (pre : List ε) (e : ε) (post : List ε), es = pre ++ e :: post → cond pre e

theorem EveryEvent.init {cond : List ε → ε → Prop} {es : List ε} {e : ε}
    (h : EveryEvent cond (es ++ [e])) : EveryEvent cond es := by
  intro pre a post hes
  refine h pre a (post ++ [e]) ?_
  rw [hes]
  simp

theorem EveryEvent.last {cond : List ε → ε → Prop} {es : List ε} {e : ε}
    (h : EveryEvent cond (es ++ [e])) : cond es e :=
  h es e [] rfl

theorem EveryEvent.nil {cond : List ε → ε → Prop} : EveryEvent cond [] := by
  intro pre e post hes
  exact absurd hes.symm (List.append_ne_nil_of_right_ne_nil pre
    (List.cons_ne_nil e post))

/-- A run that meets the condition may be continued by an event that does. -/
theorem EveryEvent.snoc {cond : List ε → ε → Prop} {es : List ε} {e : ε}
    (h : EveryEvent cond es) (he : cond es e) : EveryEvent cond (es ++ [e]) := by
  intro pre a post hes
  -- the event asked about is the new one, or one of `es`
  rcases concat_split hes with ⟨hpre, ha⟩ | ⟨post', hpre⟩
  · rw [hpre, ha]
    exact he
  · exact h pre a post' hpre

/-- **INVARIANT RULE**: what the first state has and every admissible step
    keeps holds at the end of the run. -/
theorem Run.invariant_of {step : σ → ε → σ → Prop} {s t : σ} {es : List ε}
    {cond : List ε → ε → Prop} (hrun : Run step s es t)
    (inv : List ε → σ → Prop) (hstart : inv [] s)
    (hstep : ∀ pre t e u, inv pre t → cond pre e → step t e u →
      inv (pre ++ [e]) u)
    (hcond : EveryEvent cond es) : inv es t := by
  induction hrun with
  | start => exact hstart
  | next _ hs ih => exact hstep _ _ _ _ (ih hcond.init) hcond.last hs

/-- The invariant rule without conditions on events or history. -/
theorem Run.invariant {step : σ → ε → σ → Prop} {s t : σ} {es : List ε}
    (hrun : Run step s es t) (inv : σ → Prop) (hstart : inv s)
    (hstep : ∀ t e u, inv t → step t e u → inv u) : inv t := by
  have hcond : EveryEvent (fun _ _ => True) es := fun _ _ _ _ => trivial
  exact hrun.invariant_of (fun _ t => inv t) hstart
    (fun _ t e u ht _ hs => hstep t e u ht hs) hcond

/-- One more step at the front of a run. -/
theorem Run.cons {step : σ → ε → σ → Prop} {s t u : σ} {e : ε} {es : List ε}
    (hs : step s e t) (hrun : Run step t es u) : Run step s (e :: es) u := by
  induction hrun with
  | start => exact Run.next Run.start hs
  | next _ h ih => exact Run.next ih h

/-- Follow a list of events with a step function. -/
def follow (step : σ → ε → Option σ) : σ → List ε → Option σ
  | s, [] => some s
  | s, e :: es => (step s e).bind (fun t => follow step t es)

theorem run_of_follow {step : σ → ε → Option σ} {es : List ε} :
    ∀ {s t : σ}, follow step s es = some t →
      Run (fun s e t => step s e = some t) s es t := by
  induction es with
  | nil =>
      intro s t h
      cases h
      exact .start
  | cons e es ih =>
      intro s t h
      obtain ⟨u, hstep, hrest⟩ := Option.bind_eq_some_iff.mp h
      exact Run.cons hstep (ih hrest)

/-- A condition on all events is one on the events of every first part. -/
theorem EveryEvent.of_prefix {cond : List ε → ε → Prop} {pre es : List ε}
    (h : EveryEvent cond es) (hpre : pre <+: es) : EveryEvent cond pre := by
  obtain ⟨rest, hrest⟩ := hpre
  intro pre' e post hsplit
  refine h pre' e (post ++ rest) ?_
  rw [← hrest, hsplit, List.append_assoc, List.cons_append]

/-- A condition on all events, place by place: for a list at hand it can be
    decided. -/
theorem everyEvent_iff_take {cond : List ε → ε → Prop} {es : List ε} :
    EveryEvent cond es ↔ ∀ i : Fin es.length, cond (es.take i) es[i] := by
  refine ⟨?_, ?_⟩
  · intro h i
    have hdrop : es.drop i = es[i] :: es.drop (i + 1) :=
      List.drop_eq_getElem_cons i.isLt
    refine h _ _ (es.drop (i + 1)) ?_
    rw [← hdrop, List.take_append_drop]
  · intro h pre e post hes
    have hlt : pre.length < es.length := by
      rw [hes, List.length_append, List.length_cons]
      omega
    have hcond := h ⟨pre.length, hlt⟩
    subst hes
    simpa using hcond

/-- **PAIR RULE**: a relation between an event and each event before it holds
    of every two events of the run, in order. -/
theorem Run.pairwise_of {step : σ → ε → σ → Prop} {s t : σ} {es : List ε}
    {cond : List ε → ε → Prop} {rel : ε → ε → Prop} (hrun : Run step s es t)
    (hrel : ∀ pre t e u, Run step s pre t → cond pre e → step t e u →
      ∀ a ∈ pre, rel a e)
    (hcond : EveryEvent cond es) : es.Pairwise rel := by
  induction hrun with
  | start => exact List.Pairwise.nil
  | next hr hs ih =>
      refine List.pairwise_append.mpr ⟨ih hcond.init, ?_, ?_⟩
      · exact List.pairwise_singleton rel _
      · intro a ha b hb
        rw [List.mem_singleton.mp hb]
        exact hrel _ _ _ _ hr hcond.last hs a ha

/-! ## Systems with a step function -/

/-- The state after the events `es`. -/
def after (step : σ → ε → σ) (s : σ) (es : List ε) : σ := es.foldl step s

theorem after_snoc (step : σ → ε → σ) (s : σ) (es : List ε) (e : ε) :
    after step s (es ++ [e]) = step (after step s es) e :=
  List.foldl_concat ..

/-- The invariant rule, with a condition on the state an event finds. -/
theorem invariant_after {step : σ → ε → σ} {s : σ} {es : List ε}
    {cond : σ → ε → Prop} (inv : σ → Prop) (hstart : inv s)
    (hstep : ∀ t e, inv t → cond t e → inv (step t e))
    (hcond : EveryEvent (fun pre e => cond (after step s pre) e) es) :
    inv (after step s es) := by
  induction es using List.reverseRecOn with
  | nil => exact hstart
  | append_singleton es e ih =>
      rw [after_snoc]
      exact hstep _ _ (ih hcond.init) hcond.last

/-- The invariant rule without a condition. -/
theorem always_after {step : σ → ε → σ} {s : σ} (inv : σ → Prop) (hstart : inv s)
    (hstep : ∀ t e, inv t → inv (step t e)) (es : List ε) :
    inv (after step s es) := by
  refine @invariant_after _ _ _ _ _ (fun _ _ => True) inv hstart ?_ ?_
  · intro t e ht _
    exact hstep t e ht
  · intro pre e post _
    trivial

/-- **FALL RULE**: a state stays good while the condition is met, is bad from the
    first event that does not meet it, and never recovers. -/
theorem good_or_bad_after {step : σ → ε → σ} {s : σ} {cond : σ → ε → Prop}
    (good bad : σ → Prop) (hstart : good s)
    (hkeep : ∀ t e, good t → cond t e → good (step t e))
    (hfall : ∀ t e, good t → ¬ cond t e → bad (step t e))
    (hstay : ∀ t e, bad t → bad (step t e)) (es : List ε) :
    (EveryEvent (fun pre e => cond (after step s pre) e) es ∧ good (after step s es))
      ∨ bad (after step s es) := by
  induction es using List.reverseRecOn with
  | nil => exact Or.inl ⟨EveryEvent.nil, hstart⟩
  | append_singleton es e ih =>
      rw [after_snoc]
      rcases ih with ⟨hcond, hgood⟩ | hbad
      · by_cases he : cond (after step s es) e
        · exact Or.inl ⟨hcond.snoc he, hkeep _ _ hgood he⟩
        · exact Or.inr (hfall _ _ hgood he)
      · exact Or.inr (hstay _ _ hbad)

/-- **EXACTNESS RULE**: where a state is good while the condition is met, and an
    event that does not meet it shows at once, the condition is exact. -/
theorem everyEvent_iff_always {step : σ → ε → σ} {s : σ} {cond : σ → ε → Prop}
    (good shows : σ → Prop) (hstart : good s)
    (hkeep : ∀ t e, good t → cond t e → good (step t e))
    (hgood : ∀ t, good t → shows t)
    (hfall : ∀ t e, good t → ¬ cond t e → ¬ shows (step t e)) (es : List ε) :
    EveryEvent (fun pre e => cond (after step s pre) e) es
      ↔ ∀ pre, pre <+: es → shows (after step s pre) := by
  refine ⟨?_, ?_⟩
  · intro hcond pre hpre
    exact hgood _ (invariant_after good hstart hkeep (hcond.of_prefix hpre))
  · intro hshows
    have hboth : EveryEvent (fun pre e => cond (after step s pre) e) es
        ∧ good (after step s es) := by
      induction es using List.reverseRecOn with
      | nil => exact ⟨EveryEvent.nil, hstart⟩
      | append_singleton es e ih =>
          obtain ⟨hcond, ht⟩ :=
            ih (fun pre hpre => hshows pre (hpre.trans (List.prefix_append ..)))
          have hlast := hshows (es ++ [e]) (List.prefix_refl _)
          rw [after_snoc] at hlast ⊢
          by_cases he : cond (after step s es) e
          · exact ⟨hcond.snoc he, hkeep _ _ ht he⟩
          · exact absurd hlast (hfall _ _ ht he)
    exact hboth.1

end LabelledRun
