import Mathlib.Data.List.GetD
import Mathlib.Data.List.TakeWhile

/-! # Memory byte by byte

    Memory behind an address, as a function from offsets to bytes, read and
    written in runs of bytes; a `Block` is memory that was allocated, and what
    is outside it can be neither read nor written.  A read sees the last write that it meets
    (`read_write_self`, `read_write_apart`), and a write changes nothing but its
    own bytes (`write_apart`).  A field of `n` bytes holds a C string when a
    zero byte ends it inside the field (`readCString`).

    Nothing here mentions the program. -/

namespace ByteMemory

/-- The bytes of a text of ASCII characters. -/
def ascii (s : String) : List UInt8 := s.toList.map (fun c => UInt8.ofNat c.toNat)

/-- The bytes behind an address. -/
abbrev Bytes : Type := Nat → UInt8

/-- The `n` bytes from offset `off` on. -/
def read (m : Bytes) (off n : Nat) : List UInt8 :=
  (List.range n).map (fun i => m (off + i))

/-- The memory with `bs` written from offset `off` on. -/
def write (m : Bytes) (off : Nat) (bs : List UInt8) : Bytes := fun i =>
  if off ≤ i ∧ i < off + bs.length then bs.getD (i - off) 0 else m i

/-- The C string in a field of `n` bytes, when one ends inside it. -/
def readCString (m : Bytes) (off n : Nat) : Option (List UInt8) :=
  if (0 : UInt8) ∈ read m off n then some ((read m off n).takeWhile (· ≠ 0))
  else none

/-- `memset(p, 0, n); strcpy(p, s)` with `p` at offset `off`. -/
def writeCString (m : Bytes) (off n : Nat) (s : List UInt8) : Bytes :=
  write (write m off (List.replicate n 0)) off (s ++ [0])

section

variable {m m' : Bytes} {off off' n i : Nat} {bs s : List UInt8}

@[simp] theorem length_read : (read m off n).length = n := by
  simp [read]

theorem getElem_read (h : i < (read m off n).length) :
    (read m off n)[i] = m (off + i) := by
  simp [read]

/-- **FRAME**: a write changes nothing but its own bytes. -/
theorem write_apart (h : i < off ∨ off + bs.length ≤ i) :
    write m off bs i = m i := by
  rw [write, if_neg (by omega)]

theorem write_inside (h : i < bs.length) :
    write m off bs (off + i) = bs.getD i 0 := by
  rw [write, if_pos (by omega), Nat.add_sub_cancel_left]

theorem read_congr (h : ∀ i, i < n → m (off + i) = m' (off' + i)) :
    read m off n = read m' off' n :=
  List.map_congr_left (fun i hi => h i (List.mem_range.mp hi))

theorem read_write_self (h : bs.length = n) :
    read (write m off bs) off n = bs := by
  refine List.ext_getElem (by rw [length_read, h]) ?_
  intro i hi hi'
  rw [getElem_read, write_inside hi', List.getD_eq_getElem _ _ hi']

theorem read_write_apart (h : off' + n ≤ off ∨ off + bs.length ≤ off') :
    read (write m off bs) off' n = read m off' n := by
  refine read_congr ?_
  intro i hi
  exact write_apart (by omega)

/-- A write that begins inside the last one and covers its end. -/
theorem write_over {t r u : List UInt8} (h : r.length ≤ u.length) :
    write (write m off (t ++ r)) (off + t.length) u = write m off (t ++ u) := by
  funext i
  simp only [write, List.length_append]
  by_cases hin : off + t.length ≤ i ∧ i < off + t.length + u.length
  · rw [if_pos hin, if_pos (by omega), List.getD_append_right _ _ _ _ (by omega),
      show i - off - t.length = i - (off + t.length) by omega]
  · rw [if_neg hin]
    by_cases hfront : off ≤ i ∧ i < off + t.length
    · rw [if_pos (by omega), if_pos (by omega), List.getD_append _ _ _ _ (by omega),
        List.getD_append _ _ _ _ (by omega)]
    · rw [if_neg (by omega), if_neg (by omega)]

/-- A string ends before the field does, and has no zero byte. -/
theorem readCString_some (h : readCString m off n = some s) :
    s.length < n ∧ (0 : UInt8) ∉ s := by
  rw [readCString] at h
  by_cases hz : (0 : UInt8) ∈ read m off n
  · rw [if_pos hz] at h
    cases h
    refine ⟨?_, ?_⟩
    · -- the zero byte is not part of the string
      have hle := (List.takeWhile_sublist (fun b : UInt8 => decide (b ≠ 0))
        (l := read m off n)).length_le
      rw [length_read] at hle
      refine Nat.lt_of_le_of_ne hle ?_
      intro heq
      have hall : (read m off n).takeWhile (· ≠ 0) = read m off n :=
        (List.takeWhile_prefix _).eq_of_length (by rw [heq, length_read])
      have hne := List.takeWhile_eq_self_iff.mp hall 0 hz
      simp at hne
    · intro hmem
      have hne := List.mem_takeWhile_imp hmem
      simp at hne
  · rw [if_neg hz] at h
    cases h

/-- A zero byte behind the text ends it. -/
theorem readCString_of_read {rest : List UInt8}
    (h : read m off n = s ++ 0 :: rest) (hs : (0 : UInt8) ∉ s) :
    readCString m off n = some s := by
  rw [readCString, h, if_pos (by simp)]
  rw [List.takeWhile_append_of_pos]
  · simp
  · intro b hb
    have hne : b ≠ 0 := fun hb0 => hs (hb0 ▸ hb)
    simpa using hne

/-- A copied string takes its bytes and the zero byte behind it, and no more of
    the memory outside the field. -/
theorem writeCString_apart (h : i < off ∨ (off + n ≤ i ∧ off + s.length + 1 ≤ i)) :
    writeCString m off n s i = m i := by
  rw [writeCString, write_apart, write_apart]
  · rw [List.length_replicate]
    omega
  · rw [List.length_append, List.length_singleton]
    omega

/-- The text, and the zero behind it. -/
theorem writeCString_inside (h : i < s.length + 1) :
    writeCString m off n s (off + i) = (s ++ [0]).getD i 0 :=
  write_inside (by rw [List.length_append, List.length_singleton]; exact h)

/-- Inside the field stand the string and zeros. -/
theorem writeCString_field (h : i < n) :
    writeCString m off n s (off + i) = (s ++ [0]).getD i 0 := by
  by_cases hin : i < s.length + 1
  · exact writeCString_inside hin
  · have hlen : (s ++ [(0 : UInt8)]).length = s.length + 1 := by simp
    rw [writeCString, write_apart (Or.inr (by rw [hlen]; omega)),
      write_inside (by rw [List.length_replicate]; exact h),
      List.getD_replicate 0 h, List.getD_eq_default _ _ (by rw [hlen]; omega)]

/-- A string shorter than the field fills it up with zeros. -/
theorem read_writeCString (h : s.length < n) :
    read (writeCString m off n s) off n
      = s ++ 0 :: List.replicate (n - s.length - 1) 0 := by
  rw [← List.replicate_succ]
  refine List.ext_getElem ?_ ?_
  · rw [length_read, List.length_append, List.length_replicate]
    omega
  · intro i hi hi'
    rw [length_read] at hi
    rw [getElem_read, writeCString_field hi]
    by_cases hin : i < s.length
    · rw [List.getD_append _ _ _ _ hin, List.getD_eq_getElem _ _ hin,
        List.getElem_append_left hin]
    · rw [List.getD_append_right _ _ _ _ (by omega),
        List.getElem_append_right (by omega), List.getElem_replicate,
        List.getD_eq_getElem?_getD,
        List.getElem?_getD_singleton_default_eq]

end

/-! ## Allocated memory -/

/-- Memory that was allocated: how much, and what is in it. -/
structure Block where
  size : Nat
  bytes : Bytes

/-- `calloc(n, 1)`. -/
def Block.zeroed (n : Nat) : Block := ⟨n, fun _ => 0⟩

/-- The bytes of a string. -/
def Block.ofList (bs : List UInt8) : Block := ⟨bs.length, fun i => bs.getD i 0⟩

/-- Read `n` bytes, if they are all allocated. -/
def Block.load (b : Block) (off n : Nat) : Option (List UInt8) :=
  if off + n ≤ b.size then some (read b.bytes off n) else none

/-- Write bytes, if they are all allocated. -/
def Block.store (b : Block) (off : Nat) (bs : List UInt8) : Option Block :=
  if off + bs.length ≤ b.size then some { b with bytes := write b.bytes off bs }
  else none

section

variable {b : Block} {m m' : Bytes} {off n k : Nat} {bs : List UInt8}

theorem load_some (h : off + n ≤ b.size) :
    b.load off n = some (read b.bytes off n) := if_pos h

theorem store_some (h : off + bs.length ≤ b.size) :
    b.store off bs = some { b with bytes := write b.bytes off bs } := if_pos h

theorem read_append (m : Bytes) (off n k : Nat) :
    read m off (n + k) = read m off n ++ read m (off + n) k := by
  rw [read, List.range_add, List.map_append, List.map_map]
  refine congrArg (read m off n ++ ·) ?_
  exact List.map_congr_left (fun i _ => congrArg m (Nat.add_assoc off n i).symm)

theorem apply_of_read (h : read m off n = read m' off n) {i : Nat} (hi : i < n) :
    m (off + i) = m' (off + i) := by
  have hget := List.getElem_of_eq h (i := i) (by rw [length_read]; exact hi)
  rw [getElem_read, getElem_read] at hget
  exact hget

theorem read_take (h : k ≤ n) : (read m off n).take k = read m off k := by
  obtain ⟨rest, hrest⟩ : ∃ rest, n = k + rest := ⟨n - k, by omega⟩
  rw [hrest, read_append]
  exact List.take_left' length_read

theorem read_drop (m : Bytes) (off n k : Nat) :
    (read m off (n + k)).drop n = read m (off + n) k := by
  rw [read_append]
  exact List.drop_left' length_read

/-- A run of blocks is the blocks one behind the other. -/
theorem read_flatMap {f : Nat → List UInt8}
    (h : ∀ i, i < k → read m (n * i) n = f i) :
    read m 0 (n * k) = (List.range k).flatMap f := by
  induction k with
  | zero => rfl
  | succ k ih =>
      rw [Nat.mul_succ, read_append, ih (fun i hi => h i (Nat.lt_succ_of_lt hi)),
        Nat.zero_add, h k (Nat.lt_succ_self k), List.range_succ,
        List.flatMap_append, List.flatMap_singleton]

/-- What is the same block by block is the same. -/
theorem read_of_blocks (h : ∀ i, i < k → read m (n * i) n = read m' (n * i) n) :
    read m 0 (n * k) = read m' 0 (n * k) := by
  induction k with
  | zero => rfl
  | succ k ih =>
      rw [Nat.mul_succ, read_append, read_append,
        ih (fun i hi => h i (Nat.lt_succ_of_lt hi)), Nat.zero_add,
        h k (Nat.lt_succ_self k)]

end

end ByteMemory
