import Mathlib.Data.Nat.Bitwise

/-! # Streams of bits

    Numbers of one width, put one behind the other with the most significant
    bit first, are a stream of bits.  A shift register takes numbers of one
    width in and gives numbers of another out.  Bits that it gave out long ago
    fall out at its top; as long as those that it still owes fit, they are what
    went in and did not come out (`pending_push`, `pending_pop`).

    Nothing here mentions the program. -/

namespace BitStream

/-- The low `w` bits. -/
def bitsOf : Nat → Nat → List Bool
  | 0, _ => []
  | w + 1, n => n.testBit w :: bitsOf w n

/-- Numbers of `w` bits, one behind the other. -/
def stream (w : Nat) (xs : List Nat) : List Bool := xs.flatMap (bitsOf w)

section

variable {w k m n v : Nat} {xs ys : List Nat}

@[simp] theorem length_bitsOf (w n : Nat) : (bitsOf w n).length = w := by
  induction w with
  | zero => rfl
  | succ w ih => rw [bitsOf, List.length_cons, ih]

/-- Only the low `w` bits matter. -/
theorem bitsOf_congr (h : ∀ i, i < w → m.testBit i = n.testBit i) :
    bitsOf w m = bitsOf w n := by
  induction w with
  | zero => rfl
  | succ w ih =>
      rw [bitsOf, bitsOf, h w (Nat.lt_succ_self w),
        ih (fun i hi => h i (Nat.lt_succ_of_lt hi))]

/-- They can be read back one by one. -/
theorem testBit_of_bitsOf (h : bitsOf w m = bitsOf w n) :
    ∀ i, i < w → m.testBit i = n.testBit i := by
  induction w with
  | zero =>
      intro i hi
      exact absurd hi (Nat.not_lt_zero i)
  | succ w ih =>
      intro i hi
      obtain ⟨hhead, htail⟩ := List.cons.inj h
      rcases Nat.lt_succ_iff_lt_or_eq.mp hi with hi | hi
      · exact ih htail i hi
      · rw [hi]
        exact hhead

/-- A number is told by its bits. -/
theorem bitsOf_injective (hm : m < 2 ^ w) (hn : n < 2 ^ w)
    (h : bitsOf w m = bitsOf w n) : m = n := by
  refine Nat.eq_of_testBit_eq ?_
  intro i
  by_cases hi : i < w
  · exact testBit_of_bitsOf h i hi
  · have hpow : 2 ^ w ≤ 2 ^ i := Nat.pow_le_pow_right (by decide) (by omega)
    rw [Nat.testBit_eq_false_of_lt (by omega), Nat.testBit_eq_false_of_lt (by omega)]

/-- The high bits come first. -/
theorem bitsOf_add (w k n : Nat) :
    bitsOf (w + k) n = bitsOf w (n >>> k) ++ bitsOf k n := by
  induction w with
  | zero => rw [Nat.zero_add]; rfl
  | succ w ih =>
      rw [Nat.add_right_comm, bitsOf, ih, bitsOf, Nat.testBit_shiftRight,
        Nat.add_comm k w]
      rfl

/-- Bits above the width may be dropped. -/
theorem bitsOf_mod (h : w ≤ m) (n : Nat) : bitsOf w (n % 2 ^ m) = bitsOf w n := by
  refine bitsOf_congr ?_
  intro i hi
  rw [Nat.testBit_mod_two_pow, decide_eq_true (show i < m by omega), Bool.true_and]

/-- Masking keeps the low bits. -/
theorem bitsOf_and_mask (w n : Nat) : bitsOf w (n &&& (2 ^ w - 1)) = bitsOf w n := by
  rw [Nat.and_two_pow_sub_one_eq_mod]
  exact bitsOf_mod (Nat.le_refl w) n

/-- Shifting in a value puts its bits behind those that are there. -/
theorem bitsOf_shiftLeft_or (hv : v < 2 ^ w) :
    bitsOf (k + w) (n <<< w ||| v) = bitsOf k n ++ bitsOf w v := by
  rw [bitsOf_add]
  refine congrArg₂ (· ++ ·) (bitsOf_congr ?_) (bitsOf_congr ?_)
  · intro i _
    have hpow : 2 ^ w ≤ 2 ^ (w + i) := Nat.pow_le_pow_right (by decide) (by omega)
    rw [Nat.testBit_shiftRight, Nat.testBit_or, Nat.testBit_shiftLeft,
      Nat.testBit_eq_false_of_lt (show v < 2 ^ (w + i) by omega)]
    simp
  · intro i hi
    rw [Nat.testBit_or, Nat.testBit_shiftLeft]
    simp [show ¬ w ≤ i by omega]

theorem bitsOf_zero (w : Nat) : bitsOf w 0 = List.replicate w false := by
  induction w with
  | zero => rfl
  | succ w ih => rw [bitsOf, ih, Nat.zero_testBit, List.replicate_succ]

/-- Shifting in nothing puts zeros behind the bits. -/
theorem bitsOf_shiftLeft (w k n : Nat) :
    bitsOf (k + w) (n <<< w) = bitsOf k n ++ List.replicate w false := by
  have h := bitsOf_shiftLeft_or (n := n) (k := k) (Nat.two_pow_pos w)
  rw [Nat.or_zero, bitsOf_zero] at h
  exact h

theorem stream_append (w : Nat) (xs ys : List Nat) :
    stream w (xs ++ ys) = stream w xs ++ stream w ys := List.flatMap_append

theorem stream_concat (w : Nat) (xs : List Nat) (n : Nat) :
    stream w (xs ++ [n]) = stream w xs ++ bitsOf w n := by
  rw [stream_append]
  exact congrArg (stream w xs ++ ·) (List.append_nil _)

theorem length_stream (w : Nat) (xs : List Nat) :
    (stream w xs).length = w * xs.length := by
  induction xs with
  | nil => rfl
  | cons n xs ih =>
      rw [show stream w (n :: xs) = bitsOf w n ++ stream w xs from rfl,
        List.length_append, length_bitsOf, ih, List.length_cons, Nat.mul_succ,
        Nat.add_comm]

/-- **A STREAM TELLS ITS NUMBERS**, and what is left over is shorter than one. -/
theorem stream_injective (hx : ∀ n ∈ xs, n < 2 ^ w) :
    ∀ {ys : List Nat} {r s : List Bool}, (∀ n ∈ ys, n < 2 ^ w) →
      r.length < w → s.length < w → stream w xs ++ r = stream w ys ++ s →
      xs = ys := by
  induction xs with
  | nil =>
      intro ys r s _ hr _ h
      cases ys with
      | nil => rfl
      | cons m ys =>
          have hlen := congrArg List.length h
          simp only [List.length_append, length_stream, List.length_cons,
            List.length_nil, Nat.mul_succ] at hlen
          omega
  | cons n xs ih =>
      intro ys r s hy hr hs h
      cases ys with
      | nil =>
          have hlen := congrArg List.length h
          simp only [List.length_append, length_stream, List.length_cons,
            List.length_nil, Nat.mul_succ] at hlen
          omega
      | cons m ys =>
          have h' : bitsOf w n ++ (stream w xs ++ r)
              = bitsOf w m ++ (stream w ys ++ s) := by
            rw [← List.append_assoc, ← List.append_assoc]
            exact h
          obtain ⟨hhead, htail⟩ := List.append_inj h' (by
            rw [length_bitsOf, length_bitsOf])
          have hn := hx n List.mem_cons_self
          have hm := hy m List.mem_cons_self
          rw [bitsOf_injective hn hm hhead,
            ih (fun k hk => hx k (List.mem_cons_of_mem n hk))
              (fun k hk => hy k (List.mem_cons_of_mem m hk)) hr hs htail]

end

/-! ## Shift registers -/

/-- A register, and how many of its low bits are still owed. -/
structure Register where
  acc : Nat
  bits : Nat

/-- The bits that went in and did not come out. -/
def Register.pending (r : Register) : List Bool := bitsOf r.bits r.acc

/-- Shift `w` bits into a register of `m` bits. -/
def Register.push (m w v : Nat) (r : Register) : Register where
  acc := (r.acc <<< w ||| v) % 2 ^ m
  bits := r.bits + w

/-- The `w` bits that are owed the longest. -/
def Register.front (w : Nat) (r : Register) : Nat :=
  (r.acc >>> (r.bits - w)) &&& (2 ^ w - 1)

/-- Owe them no longer. -/
def Register.pop (w : Nat) (r : Register) : Register where
  acc := r.acc
  bits := r.bits - w

section

variable {r : Register} {m w v : Nat}

/-- **PUSH** appends the bits of a value, as long as the register has room. -/
theorem pending_push (hv : v < 2 ^ w) (hm : r.bits + w ≤ m) :
    (r.push m w v).pending = r.pending ++ bitsOf w v := by
  rw [Register.pending, Register.push, bitsOf_mod hm, bitsOf_shiftLeft_or hv]
  rfl

/-- **POP** takes off what `front` answered. -/
theorem pending_pop (h : w ≤ r.bits) :
    r.pending = bitsOf w (r.front w) ++ (r.pop w).pending := by
  have hbits : r.bits = w + (r.bits - w) := by omega
  rw [Register.pending, hbits, bitsOf_add, Register.front, bitsOf_and_mask]
  rfl

/-- What comes out has `w` bits. -/
theorem front_lt (w : Nat) (r : Register) : r.front w < 2 ^ w := by
  rw [Register.front, Nat.and_two_pow_sub_one_eq_mod]
  exact Nat.mod_lt _ (Nat.two_pow_pos w)

end

end BitStream
