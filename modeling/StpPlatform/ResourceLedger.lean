import StpPlatform.ResourceTrace

/-! # Traces in which every operation is in order

    `InOrder` traces take a resource that is new, and use or give back one that
    is held.  What is held can be followed operation by operation (`Stock.acquire`,
    `Stock.use`, `Stock.release`), and at the end it answers the two questions about
    a trace: nothing is used after it was given back (`InOrder.timely`), and all
    was given back exactly if nothing is held (`InOrder.settled_iff`).

    Nothing here mentions the program. -/

namespace ResourceTrace

variable {ρ : Type} [DecidableEq ρ]

/-- The resource was taken and not given back. -/
def Held (tr : List (Op ρ)) (r : ρ) : Prop :=
  tr.count (.acquire r) = 1 ∧ tr.count (.release r) = 0

/-- The resource was neither taken nor given back. -/
def Fresh (tr : List (Op ρ)) (r : ρ) : Prop :=
  tr.count (.acquire r) = 0 ∧ tr.count (.release r) = 0

/-- Every operation is in order where it stands. -/
inductive InOrder : List (Op ρ) → Prop where
  | nil : InOrder []
  | acquire {tr : List (Op ρ)} {r : ρ} (h : InOrder tr) (hr : Fresh tr r) :
      InOrder (tr ++ [.acquire r])
  | use {tr : List (Op ρ)} {r : ρ} (h : InOrder tr) (hr : Held tr r) :
      InOrder (tr ++ [.use r])
  | release {tr : List (Op ρ)} {r : ρ} (h : InOrder tr) (hr : Held tr r) :
      InOrder (tr ++ [.release r])

section

variable {tr : List (Op ρ)} {r r' : ρ} {op : Op ρ}

/-- At the start all resources are new. -/
theorem fresh_nil (r : ρ) : Fresh ([] : List (Op ρ)) r := ⟨rfl, rfl⟩

theorem Fresh.not_held (h : Fresh tr r) : ¬ Held tr r := by
  rintro ⟨hacq, -⟩
  rw [h.1] at hacq
  exact Nat.zero_ne_one hacq

/-- An operation on another resource changes nothing. -/
theorem fresh_snoc (h : Fresh tr r) (hne : op.resource ≠ r) : Fresh (tr ++ [op]) r := by
  have hacq : op ≠ .acquire r := fun heq => hne (congrArg Op.resource heq)
  have hrel : op ≠ .release r := fun heq => hne (congrArg Op.resource heq)
  rw [Fresh, List.count_append, List.count_append, h.1, h.2, List.count_singleton,
    List.count_singleton, beq_eq_false_iff_ne.mpr hacq, beq_eq_false_iff_ne.mpr hrel]
  exact ⟨rfl, rfl⟩

/-- Holding a resource is a matter of the operations on it. -/
theorem held_snoc_of_ne (hne : op.resource ≠ r) : Held (tr ++ [op]) r ↔ Held tr r := by
  have hacq : op ≠ .acquire r := fun heq => hne (congrArg Op.resource heq)
  have hrel : op ≠ .release r := fun heq => hne (congrArg Op.resource heq)
  rw [Held, List.count_append, List.count_append, List.count_singleton,
    List.count_singleton, beq_eq_false_iff_ne.mpr hacq, beq_eq_false_iff_ne.mpr hrel]
  exact Iff.rfl

/-- What was new and is taken is held, with what was held before. -/
theorem held_acquire (h : Fresh tr r) :
    Held (tr ++ [.acquire r]) r' ↔ r' = r ∨ Held tr r' := by
  by_cases heq : r = r'
  · subst heq
    refine iff_of_true ?_ (Or.inl rfl)
    rw [Held, List.count_append, List.count_append, h.1, h.2]
    simp
  · rw [held_snoc_of_ne (show (Op.acquire r).resource ≠ r' from heq)]
    exact (or_iff_right (Ne.symm heq)).symm

theorem held_use : Held (tr ++ [.use r]) r' ↔ Held tr r' := by
  rw [Held, List.count_append, List.count_append, List.count_singleton, List.count_singleton]
  exact Iff.rfl

/-- What is given back is not held any more, and all else still is. -/
theorem held_release (h : Held tr r) :
    Held (tr ++ [.release r]) r' ↔ r' ≠ r ∧ Held tr r' := by
  by_cases heq : r = r'
  · subst heq
    refine iff_of_false ?_ (fun hne => hne.1 rfl)
    rintro ⟨-, hrel⟩
    rw [List.count_append, h.2, List.count_singleton_self] at hrel
    exact Nat.one_ne_zero hrel
  · rw [held_snoc_of_ne (show (Op.release r).resource ≠ r' from heq)]
    exact (and_iff_right (Ne.symm heq)).symm

/-- **COUNTS**: a resource is new, held, or was taken and given back once. -/
theorem InOrder.counts (h : InOrder tr) (r : ρ) :
    Fresh tr r ∨ Held tr r ∨ (tr.count (.acquire r) = 1 ∧ tr.count (.release r) = 1) := by
  induction h with
  | nil => exact Or.inl (fresh_nil r)
  | @acquire tr s _ hs ih =>
      -- is it this resource that the step is about?
      by_cases heq : s = r
      · subst heq
        exact Or.inr (Or.inl ((held_acquire hs).mpr (Or.inl rfl)))
      · rcases ih with hfresh | hheld | ⟨hacq, hrel⟩
        · exact Or.inl (fresh_snoc hfresh heq)
        · exact Or.inr (Or.inl ((held_acquire hs).mpr (Or.inr hheld)))
        · refine Or.inr (Or.inr ?_)
          rw [List.count_append, List.count_append, hacq, hrel]
          simp [heq]
  | use _ _ ih =>
      rcases ih with hfresh | hheld | ⟨hacq, hrel⟩
      · refine Or.inl ?_
        rw [Fresh, List.count_append, List.count_append, hfresh.1, hfresh.2]
        exact ⟨rfl, rfl⟩
      · exact Or.inr (Or.inl (held_use.mpr hheld))
      · refine Or.inr (Or.inr ?_)
        rw [List.count_append, List.count_append, hacq, hrel]
        exact ⟨rfl, rfl⟩
  | @release tr s _ hs ih =>
      by_cases heq : s = r
      · subst heq
        refine Or.inr (Or.inr ?_)
        rw [List.count_append, List.count_append, hs.1, hs.2]
        simp
      · rcases ih with hfresh | hheld | ⟨hacq, hrel⟩
        · exact Or.inl (fresh_snoc hfresh heq)
        · exact Or.inr (Or.inl ((held_release hs).mpr ⟨Ne.symm heq, hheld⟩))
        · refine Or.inr (Or.inr ?_)
          rw [List.count_append, List.count_append, hacq, hrel]
          simp [heq]

/-- Each resource is taken once at most, and given back once at most. -/
theorem InOrder.count_le (h : InOrder tr) (r : ρ) :
    tr.count (.release r) ≤ tr.count (.acquire r) ∧ tr.count (.acquire r) ≤ 1 := by
  rcases h.counts r with hfresh | hheld | ⟨hacq, hrel⟩
  · rw [hfresh.1, hfresh.2]
    exact ⟨Nat.le_refl 0, Nat.zero_le 1⟩
  · rw [hheld.1, hheld.2]
    exact ⟨Nat.zero_le 1, Nat.le_refl 1⟩
  · rw [hacq, hrel]
    exact ⟨Nat.le_refl 1, Nat.le_refl 1⟩

/-- **NOTHING IS USED AFTER IT WAS GIVEN BACK**. -/
theorem InOrder.timely (h : InOrder tr) : Timely tr := by
  -- only a use could be too late
  have hother : ∀ {op : Op ρ}, (∀ r, op ≠ .use r) → Timely [op] := by
    intro op hop
    refine timely_of_unused ?_
    intro r hmem
    exact hop r (List.mem_singleton.mp hmem).symm
  induction h with
  | nil => exact timely_of_unused (fun _ => List.not_mem_nil)
  | acquire _ _ ih =>
      refine ih.append (hother (fun _ h => nomatch h)) ?_
      intro r hmem
      exact nomatch List.mem_singleton.mp hmem
  | use _ hs ih =>
      refine ih.append (timely_of_unreleased ?_) ?_
      · intro r hmem
        exact nomatch List.mem_singleton.mp hmem
      · intro r hmem
        cases List.mem_singleton.mp hmem
        exact List.count_eq_zero.mp hs.2
  | release _ _ ih =>
      refine ih.append (hother (fun _ h => nomatch h)) ?_
      intro r hmem
      exact nomatch List.mem_singleton.mp hmem

/-- **ALL WAS GIVEN BACK** exactly if nothing is held. -/
theorem InOrder.settled_iff (h : InOrder tr) : Settled tr ↔ ∀ r, ¬ Held tr r := by
  constructor
  · rintro hsettled r ⟨hacq, hrel⟩
    have hback := (hsettled r).1
    rw [hacq, hrel] at hback
    exact Nat.zero_ne_one hback
  · intro hnone r
    rcases h.counts r with hfresh | hheld | ⟨hacq, hrel⟩
    · rw [hfresh.1, hfresh.2]
      exact ⟨rfl, Nat.zero_le 1⟩
    · exact absurd hheld (hnone r)
    · rw [hacq, hrel]
      exact ⟨rfl, Nat.le_refl 1⟩

end

/-! ## Rules -/

/-- What a trace leaves: the resources it holds, and some that are still new. -/
structure Stock (tr : List (Op ρ)) (held new : ρ → Prop) : Prop where
  inOrder : InOrder tr
  held_iff : ∀ r, Held tr r ↔ held r
  fresh : ∀ r, new r → Fresh tr r

section

variable {tr : List (Op ρ)} {held new held' new' : ρ → Prop} {r : ρ}

/-- **TAKE**: a new resource moves to those that are held. -/
theorem Stock.acquire (h : Stock tr held new) (hr : new r) :
    Stock (tr ++ [.acquire r]) (fun r' => r' = r ∨ held r') (fun r' => r' ≠ r ∧ new r') := by
  have hfresh := h.fresh r hr
  refine ⟨h.inOrder.acquire hfresh, ?_, ?_⟩
  · intro r'
    rw [held_acquire hfresh, h.held_iff]
  · rintro r' ⟨hne, hnew⟩
    exact fresh_snoc (h.fresh r' hnew) (Ne.symm hne)

/-- **USE**: a resource that is held may be used. -/
theorem Stock.use (h : Stock tr held new) (hr : held r) :
    Stock (tr ++ [.use r]) held new := by
  have hheld := (h.held_iff r).mpr hr
  refine ⟨h.inOrder.use hheld, ?_, ?_⟩
  · intro r'
    rw [held_use, h.held_iff]
  · intro r' hnew
    have hfresh := h.fresh r' hnew
    refine fresh_snoc hfresh ?_
    rintro rfl
    exact hfresh.not_held hheld

/-- **GIVE BACK**: it leaves the stock for good. -/
theorem Stock.release (h : Stock tr held new) (hr : held r) :
    Stock (tr ++ [.release r]) (fun r' => r' ≠ r ∧ held r') new := by
  have hheld := (h.held_iff r).mpr hr
  refine ⟨h.inOrder.release hheld, ?_, ?_⟩
  · intro r'
    rw [held_release hheld, h.held_iff]
  · intro r' hnew
    have hfresh := h.fresh r' hnew
    refine fresh_snoc hfresh ?_
    rintro rfl
    exact hfresh.not_held hheld

theorem Stock.congr (h : Stock tr held new) (hheld : ∀ r, held r ↔ held' r)
    (hnew : ∀ r, new' r → new r) : Stock tr held' new' :=
  ⟨h.inOrder, fun r => (h.held_iff r).trans (hheld r), fun r hr => h.fresh r (hnew r hr)⟩

end

end ResourceTrace
