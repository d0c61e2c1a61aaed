import StpPlatform.LabelledRun

/-! # Forward simulation between labelled systems

    A system of small steps does what a coarser one allows if each of its steps,
    taken from related states, is matched by some run of the coarser one — of no
    steps, where the coarser one sees nothing happen.  `Simulates.run` lifts this
    from steps to runs; the invariant of the coarser system may be used in every
    match, and holds again at the end.

    Nothing here mentions the program. -/

namespace Simulation

open LabelledRun

variable {σ ε τ δ : Type}

/-- Two runs, one after the other. -/
theorem run_append {step : σ → ε → σ → Prop} {s t u : σ} {es es' : List ε}
    (hfirst : Run step s es t) (hthen : Run step t es' u) :
    Run step s (es ++ es') u := by
  induction hthen with
  | start =>
      rw [List.append_nil]
      exact hfirst
  | next _ hs ih =>
      rw [← List.append_assoc]
      exact Run.next ih hs

/-- `spec` matches every step of `step`, along `rel` and under the invariant
    `inv` of its own. -/
structure Simulates (step : σ → ε → σ → Prop) (spec : τ → δ → τ → Prop)
    (inv : τ → Prop) (rel : σ → τ → Prop) : Prop where
  keeps : ∀ {t d t'}, inv t → spec t d t' → inv t'
  matched : ∀ {s t e s'}, inv t → rel s t → step s e s' →
    ∃ ds t', Run spec t ds t' ∧ rel s' t'

section

variable {step : σ → ε → σ → Prop} {spec : τ → δ → τ → Prop} {inv : τ → Prop}
  {rel : σ → τ → Prop} {s s' : σ} {t : τ} {es : List ε}

/-- **EVERY RUN IS MATCHED**, by a run of the coarser system to a related state. -/
theorem Simulates.run (h : Simulates step spec inv rel) (hinv : inv t)
    (hrel : rel s t) (hrun : Run step s es s') :
    ∃ ds t', Run spec t ds t' ∧ rel s' t' ∧ inv t' := by
  induction hrun with
  | start => exact ⟨[], t, .start, hrel, hinv⟩
  | next _ hs ih =>
      obtain ⟨ds, t₁, hspec, hrel₁, hinv₁⟩ := ih
      obtain ⟨ds', t₂, hmore, hrel₂⟩ := h.matched hinv₁ hrel₁ hs
      refine ⟨ds ++ ds', t₂, run_append hspec hmore, hrel₂, ?_⟩
      exact hmore.invariant inv hinv₁ (fun _ _ _ => h.keeps)

end

end Simulation
