import Mathlib.Algebra.Group.Equiv.Basic

/-! # Substitution networks

    A block cipher whose rounds substitute, move and mix a state and add a round
    key to it; the last round does not mix.  The state is any commutative group.

    `cipher` runs the rounds and `decipher` takes them back one by one, with the
    same round keys: each inverts the other.  A network has an inverse network,
    and the cipher of that one, under keys that have been taken through the
    inverse mixing, is `decipher` again (`cipher_inverse`): a program can decrypt
    with the loop it encrypts with.

    Nothing here mentions the program. -/

namespace SubstitutionNetwork

/-- The layers of a round.  Moving does not care what has been substituted. -/
structure Network (S : Type*) [AddCommGroup S] where
  sub : Equiv.Perm S
  shift : Equiv.Perm S
  mix : S ≃+ S
  shift_sub : ∀ s, shift (sub s) = sub (shift s)

variable {S : Type*} [AddCommGroup S]

namespace Network

/-! ## The cipher -/

/-- A full round. -/
def round (N : Network S) (key s : S) : S := N.mix (N.shift (N.sub s)) + key

/-- The state after the first key and `n` full rounds. -/
def rounds (N : Network S) (key : ℕ → S) (s : S) : ℕ → S
  | 0 => s + key 0
  | n + 1 => N.round (key (n + 1)) (N.rounds key s n)

/-- `n` full rounds, and a last one that does not mix. -/
def cipher (N : Network S) (n : ℕ) (key : ℕ → S) (s : S) : S :=
  N.shift (N.sub (N.rounds key s n)) + key (n + 1)

/-! ## Taking it back -/

/-- A substitution and a move, taken back. -/
def unscatter (N : Network S) (s : S) : S := N.sub.symm (N.shift.symm s)

/-- The first key and `n` full rounds, taken back from the last on. -/
def unrounds (N : Network S) (key : ℕ → S) : ℕ → S → S
  | 0, s => s - key 0
  | n + 1, s =>
      N.unrounds key n (N.unscatter (N.mix.symm (s - key (n + 1))))

/-- The inverse cipher. -/
def decipher (N : Network S) (n : ℕ) (key : ℕ → S) (s : S) : S :=
  N.unrounds key n (N.unscatter (s - key (n + 1)))

section

variable (N : Network S) (key : ℕ → S) (n : ℕ) (s : S)

@[simp] theorem unscatter_scatter : N.unscatter (N.shift (N.sub s)) = s := by
  simp [unscatter]

@[simp] theorem scatter_unscatter : N.shift (N.sub (N.unscatter s)) = s := by
  simp [unscatter]

theorem unrounds_rounds : N.unrounds key n (N.rounds key s n) = s := by
  induction n with
  | zero => simp [rounds, unrounds]
  | succ n ih => simpa [rounds, unrounds, round] using ih

theorem rounds_unrounds : N.rounds key (N.unrounds key n s) n = s := by
  induction n generalizing s with
  | zero => simp [rounds, unrounds]
  | succ n ih => simp [rounds, unrounds, round, ih]

/-- **DECIPHERING INVERTS** the cipher under the same keys. -/
theorem decipher_cipher : N.decipher n key (N.cipher n key s) = s := by
  simp [decipher, cipher, unrounds_rounds]

theorem cipher_decipher : N.cipher n key (N.decipher n key s) = s := by
  simp [decipher, cipher, rounds_unrounds]

end

/-- The cipher reads one key more than it has rounds. -/
theorem cipher_congr (N : Network S) {key key' : ℕ → S} {n : ℕ}
    (h : ∀ i ≤ n + 1, key i = key' i) (s : S) :
    N.cipher n key s = N.cipher n key' s := by
  have hrounds : ∀ i ≤ n, N.rounds key s i = N.rounds key' s i := by
    intro i
    induction i with
    | zero => intro _; rw [rounds, rounds, h 0 (by omega)]
    | succ i ih =>
        intro hi
        rw [rounds, rounds, ih (by omega), h (i + 1) (by omega)]
  rw [cipher, cipher, hrounds n (Nat.le_refl _), h (n + 1) (Nat.le_refl _)]

/-! ## The inverse network -/

/-- The layers of the inverse network, each the inverse of its own. -/
def inverse (N : Network S) : Network S where
  sub := N.sub.symm
  shift := N.shift.symm
  mix := N.mix.symm
  shift_sub s := by
    rw [Equiv.symm_apply_eq, Equiv.symm_apply_eq, ← N.shift_sub]
    simp

/-- The keys of the inverse network: the last one first, and those of the full
    rounds through the inverse mixing. -/
def inverseKeys (N : Network S) (n : ℕ) (key : ℕ → S) (i : ℕ) : S :=
  if i = 0 ∨ i = n + 1 then -key (n + 1 - i) else -N.mix.symm (key (n + 1 - i))

section

variable (N : Network S) (key : ℕ → S) (n : ℕ) (s : S)

theorem inverse_scatter : N.inverse.shift (N.inverse.sub s) = N.unscatter s :=
  N.inverse.shift_sub s

/-- What has still to be taken back after `i` rounds of the inverse network. -/
theorem unrounds_inverse_rounds {i : ℕ} (h : i ≤ n) :
    N.unrounds key (n - i)
        (N.unscatter (N.inverse.rounds (N.inverseKeys n key) s i))
      = N.decipher n key s := by
  induction i with
  | zero => simp [rounds, inverseKeys, decipher, sub_eq_add_neg]
  | succ i ih =>
      have hkey : N.inverseKeys n key (i + 1) = -N.mix.symm (key (n - i)) := by
        rw [inverseKeys, if_neg (by omega), Nat.add_sub_add_right]
      have hround : N.inverse.rounds (N.inverseKeys n key) s (i + 1)
          = N.mix.symm
            (N.unscatter (N.inverse.rounds (N.inverseKeys n key) s i)
              - key (n - i)) := by
        rw [map_sub, sub_eq_add_neg, ← hkey, ← inverse_scatter]
        rfl
      have hleft : n - i = n - (i + 1) + 1 := by omega
      rw [← ih (by omega), hround, hleft]
      rfl

/-- **THE CIPHER OF THE INVERSE NETWORK** deciphers. -/
theorem cipher_inverse :
    N.inverse.cipher n (N.inverseKeys n key) s = N.decipher n key s := by
  have hlast : N.inverseKeys n key (n + 1) = -key 0 := by
    rw [inverseKeys, if_pos (Or.inr rfl), Nat.sub_self]
  have hundo := N.unrounds_inverse_rounds key n s (Nat.le_refl _)
  rw [Nat.sub_self, unrounds, sub_eq_add_neg, ← hlast] at hundo
  rw [cipher, inverse_scatter, hundo]

end

end Network

end SubstitutionNetwork
