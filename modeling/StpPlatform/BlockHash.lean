import Mathlib.Data.List.Basic
import Mathlib.Algebra.Order.Group.Nat

/-! # Hashing block by block

    A message is cut into blocks of `n` elements; a function `compress` takes the
    complete blocks, one after the other, into a state (`chain`), and fewer than
    `n` elements are left over (`rest`).  A hasher that gets its message in
    pieces keeps just these two: `chain_append` and `rest_append` say that they
    determine what the rest of the message does, however it is cut.

    The padding of a message ends in its length.  So no two messages are the same
    blocks (`padded_injective`), and two messages of one hash lead to two inputs
    that `compress` does not tell apart (`collides_of_digest_eq`).

    Nothing here mentions the program. -/

namespace BlockHash

variable {α σ : Type}

/-- Take `k` blocks into the state. -/
def foldBlocks (compress : σ → List α → σ) (n : Nat) : Nat → σ → List α → σ
  | 0, s, _ => s
  | k + 1, s, xs => foldBlocks compress n k (compress s (xs.take n)) (xs.drop n)

/-- The state after all complete blocks of `xs`. -/
def chain (compress : σ → List α → σ) (n : Nat) (s : σ) (xs : List α) : σ :=
  foldBlocks compress n (xs.length / n) s xs

/-- What is left over. -/
def rest (n : Nat) (xs : List α) : List α := xs.drop (n * (xs.length / n))

section

variable {compress : σ → List α → σ} {n k : Nat} {s : σ} {xs ys : List α}

/-- Blocks that are there are not changed by what follows. -/
theorem foldBlocks_append : ∀ {k : Nat} {s : σ} {xs : List α}, n * k ≤ xs.length →
    foldBlocks compress n k s (xs ++ ys) = foldBlocks compress n k s xs := by
  intro k
  induction k with
  | zero =>
      intro s xs _
      rfl
  | succ k ih =>
      intro s xs hlen
      rw [Nat.mul_succ] at hlen
      rw [foldBlocks, foldBlocks, List.take_append_of_le_length (by omega),
        List.drop_append_of_le_length (by omega)]
      exact ih (by rw [List.length_drop]; omega)

theorem foldBlocks_add (j : Nat) : ∀ {k : Nat} {s : σ} {xs : List α},
    foldBlocks compress n (k + j) s xs
      = foldBlocks compress n j (foldBlocks compress n k s xs) (xs.drop (n * k)) := by
  intro k
  induction k with
  | zero =>
      intro s xs
      rw [Nat.zero_add, Nat.mul_zero, List.drop_zero]
      rfl
  | succ k ih =>
      intro s xs
      rw [show k + 1 + j = k + j + 1 by omega, foldBlocks, foldBlocks, ih, List.drop_drop,
        Nat.mul_succ, Nat.add_comm n]

/-- What is left over is less than a block. -/
theorem length_rest : (rest n xs).length = xs.length % n := by
  rw [rest, List.length_drop, Nat.mod_eq_sub_mul_div]

/-- Without a full block nothing is compressed. -/
theorem chain_of_short (h : xs.length < n) : chain compress n s xs = s := by
  rw [chain, Nat.div_eq_of_lt h]
  rfl

theorem rest_of_short (h : xs.length < n) : rest n xs = xs := by
  rw [rest, Nat.div_eq_of_lt h]
  rfl

/-- Of full blocks nothing is left over. -/
theorem rest_of_blocks (h : n ∣ xs.length) : rest n xs = [] := by
  refine List.length_eq_zero_iff.mp ?_
  rw [length_rest]
  exact Nat.mod_eq_zero_of_dvd h

theorem length_append_div (hn : 0 < n) :
    (xs ++ ys).length / n = xs.length / n + (rest n xs ++ ys).length / n := by
  have hsplit := Nat.div_add_mod xs.length n
  rw [List.length_append, List.length_append, length_rest,
    ← Nat.mul_add_div hn]
  exact congrArg (· / n) (by omega)

/-- What is left over comes before what follows. -/
theorem drop_blocks :
    (xs ++ ys).drop (n * (xs.length / n)) = rest n xs ++ ys := by
  rw [List.drop_append_of_le_length (Nat.mul_div_le _ _)]
  rfl

/-- **IN PIECES, THE STATE**: a message goes on from the state and the rest. -/
theorem chain_append (hn : 0 < n) :
    chain compress n s (xs ++ ys)
      = chain compress n (chain compress n s xs) (rest n xs ++ ys) := by
  rw [chain, length_append_div hn, foldBlocks_add, drop_blocks,
    foldBlocks_append (Nat.mul_div_le _ _)]
  rfl

/-- **IN PIECES, THE REST**. -/
theorem rest_append (hn : 0 < n) :
    rest n (xs ++ ys) = rest n (rest n xs ++ ys) := by
  rw [rest, length_append_div hn, Nat.mul_add, ← List.drop_drop, drop_blocks]
  rfl

/-- A block that is complete is compressed. -/
theorem chain_block (hn : 0 < n) (h : xs.length = n) :
    chain compress n s (xs ++ ys) = chain compress n (compress s xs) ys := by
  have hone : chain compress n s xs = compress s xs := by
    rw [chain, h, Nat.div_self hn]
    show foldBlocks compress n 0 (compress s (xs.take n)) (xs.drop n) = _
    rw [List.take_of_length_le (Nat.le_of_eq h)]
    rfl
  rw [chain_append hn, hone, rest_of_blocks (h ▸ Nat.dvd_refl n), List.nil_append]

/-- A full block in front leaves the rest as it is. -/
theorem rest_block (hn : 0 < n) (h : xs.length = n) :
    rest n (xs ++ ys) = rest n ys := by
  have hnone : rest n xs = [] := rest_of_blocks (h ▸ Nat.dvd_refl n)
  rw [rest_append hn, hnone, List.nil_append]

theorem append_of_short (hn : 0 < n) (h : xs.length % n + ys.length < n) :
    chain compress n s (xs ++ ys) = chain compress n s xs ∧
      rest n (xs ++ ys) = rest n xs ++ ys := by
  have hshort : (rest n xs ++ ys).length < n := by
    rw [List.length_append, length_rest]
    exact h
  refine ⟨?_, ?_⟩
  · rw [chain_append hn, chain_of_short hshort]
  · rw [rest_append hn, rest_of_short hshort]

/-- A piece that fills it: the block, and what is behind. -/
theorem append_of_long (hn : 0 < n) (h : n ≤ xs.length % n + ys.length) :
    chain compress n s (xs ++ ys)
        = chain compress n
            (compress (chain compress n s xs) (rest n xs ++ ys.take (n - xs.length % n)))
            (ys.drop (n - xs.length % n)) ∧
      rest n (xs ++ ys) = rest n (ys.drop (n - xs.length % n)) := by
  have hlt := Nat.mod_lt xs.length hn
  have hfull : (rest n xs ++ ys.take (n - xs.length % n)).length = n := by
    rw [List.length_append, length_rest, List.length_take]
    omega
  have hsplit : rest n xs ++ ys = rest n xs ++ ys.take (n - xs.length % n)
      ++ ys.drop (n - xs.length % n) := by
    rw [List.append_assoc, List.take_append_drop]
  refine ⟨?_, ?_⟩
  · rw [chain_append hn, hsplit, chain_block hn hfull]
  · rw [rest_append hn, hsplit, rest_block hn hfull]

/-- Two ways to take a block in that agree up to `f` agree on all blocks. -/
theorem map_foldBlocks {τ : Type} {f : σ → τ} {compress' : τ → List α → τ}
    (hstep : ∀ s b, b.length = n → f (compress s b) = compress' (f s) b) :
    ∀ {k : Nat} {s : σ} {xs : List α}, n * k ≤ xs.length →
      f (foldBlocks compress n k s xs) = foldBlocks compress' n k (f s) xs := by
  intro k
  induction k with
  | zero =>
      intro s xs _
      rfl
  | succ k ih =>
      intro s xs hlen
      rw [Nat.mul_succ] at hlen
      have hblock : (xs.take n).length = n := by
        rw [List.length_take]
        omega
      rw [foldBlocks, foldBlocks, ← hstep s _ hblock]
      exact ih (by rw [List.length_drop]; omega)

/-- **SIMULATION**: a view of the state that every step respects is respected by the
    chain. -/
theorem map_chain {τ : Type} {f : σ → τ} {compress' : τ → List α → τ}
    (hstep : ∀ s b, b.length = n → f (compress s b) = compress' (f s) b) :
    f (chain compress n s xs) = chain compress' n (f s) xs :=
  map_foldBlocks hstep (Nat.mul_div_le _ _)

end

/-! ## Padding and collisions -/

/-- A padding to whole blocks that depends on the length of a message alone and
    ends in an encoding of it. -/
structure Padding (α : Type) (n : Nat) where
  fill : Nat → List α
  code : Nat → List α
  width : Nat
  limit : Nat
  width_pos : 0 < width
  width_le : width ≤ n
  code_length : ∀ m, (code m).length = width
  code_injective : ∀ {m k}, m < limit → k < limit → code m = code k → m = k
  whole : ∀ m, n ∣ m + (fill m).length + width

/-- Block number `i` and the state it is taken into. -/
def inputAt (compress : σ → List α → σ) (n : Nat) (s : σ) (xs : List α) (i : Nat) :
    σ × List α :=
  (foldBlocks compress n i s xs, (xs.drop (n * i)).take n)

/-- Two different inputs, met on the way through `xs` and `ys`, that `compress`
    does not tell apart. -/
def Collides (compress : σ → List α → σ) (n : Nat) (s : σ) (xs ys : List α) : Prop :=
  ∃ i j, i < xs.length / n ∧ j < ys.length / n ∧
    inputAt compress n s xs i ≠ inputAt compress n s ys j ∧
    compress (inputAt compress n s xs i).1 (inputAt compress n s xs i).2
      = compress (inputAt compress n s ys j).1 (inputAt compress n s ys j).2

section

variable {compress : σ → List α → σ} {n k : Nat} {s : σ} {xs ys : List α}

/-- The last block is compressed into what the others have made. -/
theorem foldBlocks_last :
    foldBlocks compress n (k + 1) s xs
      = compress (inputAt compress n s xs k).1 (inputAt compress n s xs k).2 := by
  rw [foldBlocks_add]
  rfl

/-- As long as the inputs are the same, so are the messages. -/
theorem take_eq_or_collides (hx : k ≤ xs.length / n) (hy : k ≤ ys.length / n)
    (h : foldBlocks compress n k s xs = foldBlocks compress n k s ys) :
    xs.take (n * k) = ys.take (n * k) ∨ Collides compress n s xs ys := by
  induction k with
  | zero => exact Or.inl (by rw [Nat.mul_zero, List.take_zero, List.take_zero])
  | succ k ih =>
      rw [foldBlocks_last, foldBlocks_last] at h
      by_cases hin : inputAt compress n s xs k = inputAt compress n s ys k
      · obtain ⟨hstate, hblock⟩ := Prod.mk.inj hin
        rcases ih (by omega) (by omega) hstate with hfront | hcoll
        · refine Or.inl ?_
          rw [Nat.mul_succ, List.take_add, List.take_add, hfront, hblock]
        · exact Or.inr hcoll
      · exact Or.inr ⟨k, k, hx, hy, hin, h⟩

end

namespace Padding

variable {compress : σ → List α → σ} {n : Nat} {s : σ} {xs ys : List α} (p : Padding α n)

/-- The padded message. -/
def padded (xs : List α) : List α := xs ++ p.fill xs.length ++ p.code xs.length

/-- The hash of a message: the state after its padded blocks. -/
def digest (compress : σ → List α → σ) (s : σ) (xs : List α) : σ :=
  chain compress n s (p.padded xs)

/-- The text, the filling and the code of its length. -/
theorem length_padded (xs : List α) :
    (p.padded xs).length = xs.length + (p.fill xs.length).length + p.width := by
  rw [padded, List.length_append, List.length_append, p.code_length]

/-- A padded message is full blocks. -/
theorem dvd_length_padded (xs : List α) : n ∣ (p.padded xs).length := by
  rw [length_padded]
  exact p.whole _

theorem le_length_padded (xs : List α) : n ≤ (p.padded xs).length := by
  refine Nat.le_of_dvd ?_ (p.dvd_length_padded xs)
  have hwidth := p.width_pos
  rw [length_padded]
  omega

/-- **PADDED MESSAGES DIFFER** where the messages do. -/
theorem padded_injective (hx : xs.length < p.limit) (hy : ys.length < p.limit)
    (h : p.padded xs = p.padded ys) : xs = ys := by
  obtain ⟨hfront, hcode⟩ := List.append_inj' h (by rw [p.code_length, p.code_length])
  have hlen := p.code_injective hx hy hcode
  exact (List.append_inj hfront hlen).1

/-- The length can be read off the last block. -/
theorem drop_lastBlock {k : Nat} (hk : (p.padded xs).length = n * (k + 1)) :
    (inputAt compress n s (p.padded xs) k).2.drop (n - p.width) = p.code xs.length := by
  have hlen := p.length_padded xs
  have hwidth := p.width_le
  rw [Nat.mul_succ] at hk
  have hlast : ((p.padded xs).drop (n * k)).length ≤ n := by
    rw [List.length_drop, hk, Nat.add_sub_cancel_left]
  have hcut : n * k + (n - p.width) = (xs ++ p.fill xs.length).length := by
    rw [List.length_append]
    omega
  rw [inputAt, List.take_of_length_le hlast, List.drop_drop, hcut, padded, List.drop_left]

/-- **COLLISIONS GO BACK TO THE COMPRESSION**: two messages of one hash meet two
    inputs that `compress` does not tell apart. -/
theorem collides_of_digest_eq (hn : 0 < n) (hx : xs.length < p.limit)
    (hy : ys.length < p.limit) (hne : xs ≠ ys)
    (h : p.digest compress s xs = p.digest compress s ys) :
    Collides compress n s (p.padded xs) (p.padded ys) := by
  obtain ⟨kx, hkx⟩ := p.dvd_length_padded xs
  obtain ⟨ky, hky⟩ := p.dvd_length_padded ys
  have hdivx : (p.padded xs).length / n = kx := by rw [hkx, Nat.mul_div_cancel_left _ hn]
  have hdivy : (p.padded ys).length / n = ky := by rw [hky, Nat.mul_div_cancel_left _ hn]
  rw [digest, digest, chain, chain, hdivx, hdivy] at h
  by_cases hlen : xs.length = ys.length
  · have hk : kx = ky := by
      rw [← hdivx, ← hdivy, length_padded, length_padded, hlen]
    subst hk
    rcases take_eq_or_collides hdivx.ge hdivy.ge h with hall | hcoll
    · rw [← hkx, List.take_length, hkx, ← hky, List.take_length] at hall
      exact absurd (p.padded_injective hx hy hall) hne
    · exact hcoll
  · -- the lengths differ, so the last blocks do
    have hposx := p.le_length_padded xs
    have hposy := p.le_length_padded ys
    obtain ⟨a, rfl⟩ := Nat.exists_eq_succ_of_ne_zero (n := kx) (by rintro rfl; omega)
    obtain ⟨b, rfl⟩ := Nat.exists_eq_succ_of_ne_zero (n := ky) (by rintro rfl; omega)
    rw [foldBlocks_last, foldBlocks_last] at h
    refine ⟨a, b, by omega, by omega, ?_, h⟩
    intro hin
    refine hlen (p.code_injective hx hy ?_)
    rw [← p.drop_lastBlock hkx, ← p.drop_lastBlock hky, hin]

end Padding

end BlockHash
