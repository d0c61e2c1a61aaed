import StpPlatform.LabelledRun
import Mathlib.Logic.Function.Basic

/-! # Parts that share a state

    A system is a shared state and any number of parts with a state of their
    own, which come and go.  A step is one of one part, on its own state and the
    shared one; nothing else of the system is touched.

    What is known of such a system is known part by part: a condition on the
    shared state, and for each part one that ties its own state to the shared
    one.  The rule asks three things (`Compatible`): a part that comes meets its
    condition, a step of a part keeps both, and the same step spoils nothing for
    the others.

    Nothing here mentions the program. -/

namespace Composition

open LabelledRun

variable {ι γ α ε : Type}

/-- The shared state, and the states of the parts that are there. -/
structure System (ι γ α : Type) where
  shared : γ
  parts : ι → Option α

/-- A part joins, moves or leaves. -/
inductive Event (ι α ε : Type) where
  | join (i : ι) (a : α)
  | act (i : ι) (e : ε)
  | leave (i : ι)

/-- What is known of the shared state, and of each part beside it. -/
structure Holds (shared : γ → Prop) (own : ι → γ → α → Prop) (s : System ι γ α) :
    Prop where
  shared : shared s.shared
  own : ∀ {i a}, s.parts i = some a → own i s.shared a

/-- A system without parts has only its shared state to answer for. -/
theorem holds_alone {shared : γ → Prop} {own : ι → γ → α → Prop} {g : γ}
    (hg : shared g) : Holds shared own ⟨g, fun _ => none⟩ := by
  refine ⟨hg, ?_⟩
  rintro i a ⟨⟩

/-- The conditions fit the moves: `stable` is that no part interferes with what
    another one relies on. -/
structure Compatible (enter : ι → α → Prop) (move : ι → γ × α → ε → γ × α → Prop)
    (shared : γ → Prop) (own : ι → γ → α → Prop) : Prop where
  enters : ∀ {g i a}, shared g → enter i a → own i g a
  keeps : ∀ {g g' i a b e}, shared g → own i g a → move i (g, a) e (g', b) →
    shared g' ∧ own i g' b
  stable : ∀ {g g' i a b e j c}, shared g → own i g a → move i (g, a) e (g', b) →
    own j g c → own j g' c

variable [DecidableEq ι]

/-- One step: a part comes, in a place that is free, or moves, or goes. -/
inductive Step (enter : ι → α → Prop) (move : ι → γ × α → ε → γ × α → Prop) :
    System ι γ α → Event ι α ε → System ι γ α → Prop where
  | join (s : System ι γ α) (i : ι) (a : α) (hfree : s.parts i = none)
      (henter : enter i a) :
      Step enter move s (.join i a)
        { s with parts := Function.update s.parts i (some a) }
  | act (s : System ι γ α) (i : ι) (a b : α) (e : ε) (g : γ)
      (hin : s.parts i = some a) (hmove : move i (s.shared, a) e (g, b)) :
      Step enter move s (.act i e)
        { shared := g
          parts := Function.update s.parts i (some b) }
  | leave (s : System ι γ α) (i : ι) :
      Step enter move s (.leave i)
        { s with parts := Function.update s.parts i none }

/-- A part after one of the states was set: that part, or one of the others. -/
theorem part_of_update {parts : ι → Option α} {i j : ι} {q : Option α} {c : α}
    (hj : Function.update parts i q j = some c) :
    (j = i ∧ q = some c) ∨ parts j = some c := by
  by_cases heq : j = i
  · subst heq
    rw [Function.update_self] at hj
    exact Or.inl ⟨rfl, hj⟩
  · rw [Function.update_of_ne heq] at hj
    exact Or.inr hj

section

variable {enter : ι → α → Prop} {move : ι → γ × α → ε → γ × α → Prop}
  {shared : γ → Prop} {own : ι → γ → α → Prop} {s s' : System ι γ α}
  {e : Event ι α ε} {es : List (Event ι α ε)}

/-- **EVERY STEP** keeps what is known of every part. -/
theorem Compatible.step (h : Compatible enter move shared own)
    (hs : Holds shared own s) (hstep : Step enter move s e s') :
    Holds shared own s' := by
  cases hstep with
  | join i a hfree henter =>
      refine ⟨hs.shared, ?_⟩
      intro j c hj
      obtain ⟨rfl, hc⟩ | hj := part_of_update hj
      · rw [← Option.some.inj hc]
        exact h.enters hs.shared henter
      · exact hs.own hj
  | act i a b e g hin hmove =>
      obtain ⟨hshared, hown⟩ := h.keeps hs.shared (hs.own hin) hmove
      refine ⟨hshared, ?_⟩
      intro j c hj
      obtain ⟨rfl, hc⟩ | hj := part_of_update hj
      · rw [← Option.some.inj hc]
        exact hown
      · exact h.stable hs.shared (hs.own hin) hmove (hs.own hj)
  | leave i =>
      refine ⟨hs.shared, ?_⟩
      intro j c hj
      obtain ⟨-, hc⟩ | hj := part_of_update hj
      · cases hc
      · exact hs.own hj

/-- **EVERY RUN**, from a system in which it is known. -/
theorem Compatible.run (h : Compatible enter move shared own)
    (hs : Holds shared own s) (hrun : Run (Step enter move) s es s') :
    Holds shared own s' :=
  hrun.invariant (Holds shared own) hs (fun _ _ _ ht hstep => h.step ht hstep)

end

end Composition
