import StpPlatform.Md5
import StpPlatform.Md5Digest
import StpPlatform.SineTable

/-! # MD5, the rounds

    `MD5_Transform` is the compression of the digest (`tuple_md5Transform`).  The
    source writes out 64 lines with the names of the variables going round; the
    digest has one step and turns the words instead.  `view` reads the variables
    in the order of the next line, and then a line is a step (`view_run`).  That
    every line has the right names, index, shift and constant is checked over the
    table (`fits_lines`). -/

namespace StpMd5

open BlockHash ByteOrder

/-! ## Words -/

/-- The state, as the digest has it. -/
def Words.tuple (w : Words) : Md5Digest.State := (w.a, w.b, w.c, w.d)

/-- `ROTATE_LEFT` is a rotation for the amounts that occur; shifting by 32 would not
    be defined. -/
theorem rotateLeft_eq {s : UInt32} (x : UInt32) (hpos : 0 < s.toNat) (hlt : s.toNat < 32) :
    rotateLeft x s = Md5Digest.rotl x s.toNat := by
  have hsub : (32 - s).toNat = 32 - s.toNat :=
    UInt32.toNat_sub_of_le _ _ (UInt32.le_iff_toNat_le.mpr hlt.le)
  refine UInt32.toBitVec_inj.mp (BitVec.eq_of_toNat_eq ?_)
  rw [Md5Digest.rotl, BitVec.rotateLeft_def, UInt32.toNat_toBitVec, rotateLeft,
    UInt32.toNat_or, UInt32.toNat_shiftLeft, UInt32.toNat_shiftRight, hsub,
    BitVec.toNat_or, BitVec.toNat_shiftLeft, BitVec.toNat_ushiftRight,
    Nat.mod_eq_of_lt hlt, Nat.mod_eq_of_lt (by omega : 32 - s.toNat < 32)]
  rfl

/-- A byte shifted over what is there already adds to it. -/
theorem toNat_or_byte (x : UInt32) (b : UInt8) {k : Nat} (hk : k ≤ 24)
    (hx : x.toNat < 2 ^ k) :
    (x ||| (b.toUInt32 <<< UInt32.ofNat k)).toNat = b.toNat * 2 ^ k + x.toNat := by
  have hb : b.toNat * 2 ^ k < 2 ^ 32 := by
    calc b.toNat * 2 ^ k < 2 ^ 8 * 2 ^ k :=
          Nat.mul_lt_mul_of_pos_right b.toNat_lt (Nat.two_pow_pos k)
      _ = 2 ^ (8 + k) := (Nat.pow_add 2 8 k).symm
      _ ≤ 2 ^ 32 := Nat.pow_le_pow_right two_pos (by omega)
  have hsize : k < UInt32.size := Nat.lt_of_le_of_lt hk (by decide)
  rw [UInt32.toNat_or, UInt32.toNat_shiftLeft, UInt32.toNat_ofNat_of_lt' hsize,
    UInt8.toNat_toUInt32, Nat.mod_eq_of_lt (by omega : k < 32), Nat.shiftLeft_eq,
    Nat.mod_eq_of_lt hb, Nat.or_comm, ← Nat.shiftLeft_eq,
    Nat.shiftLeft_add_eq_or_of_lt hx]

/-- Four bytes shifted together are the number they denote. -/
theorem toNat_or_bytes (b₀ b₁ b₂ b₃ : UInt8) :
    (b₀.toUInt32 ||| (b₁.toUInt32 <<< 8) ||| (b₂.toUInt32 <<< 16) ||| (b₃.toUInt32 <<< 24)).toNat
      = Endian.little.load [b₀, b₁, b₂, b₃] := by
  have hb₀ := b₀.toNat_lt
  have hb₁ := b₁.toNat_lt
  have hb₂ := b₂.toNat_lt
  have h₁ : (b₀.toUInt32 ||| (b₁.toUInt32 <<< 8)).toNat = b₁.toNat * 2 ^ 8 + b₀.toNat :=
    toNat_or_byte _ b₁ (k := 8) (by omega) hb₀
  have h₂ : (b₀.toUInt32 ||| (b₁.toUInt32 <<< 8) ||| (b₂.toUInt32 <<< 16)).toNat
      = b₂.toNat * 2 ^ 16 + (b₁.toNat * 2 ^ 8 + b₀.toNat) := by
    rw [← h₁]
    exact toNat_or_byte _ b₂ (k := 16) (by omega) (by rw [h₁]; omega)
  have h₃ : (b₀.toUInt32 ||| (b₁.toUInt32 <<< 8) ||| (b₂.toUInt32 <<< 16)
        ||| (b₃.toUInt32 <<< 24)).toNat
      = b₃.toNat * 2 ^ 24 + (b₂.toNat * 2 ^ 16 + (b₁.toNat * 2 ^ 8 + b₀.toNat)) := by
    rw [← h₂]
    exact toNat_or_byte _ b₃ (k := 24) (by omega) (by rw [h₂]; omega)
  have hload : Endian.little.load [b₀, b₁, b₂, b₃]
      = ((b₃.toNat * 0x100 + b₂.toNat) * 0x100 + b₁.toNat) * 0x100 + b₀.toNat :=
    ofNetwork_four b₃ b₂ b₁ b₀
  rw [h₃, hload]
  omega

/-- One turn of the loop of `MD5_Decode` makes a word of the block. -/
theorem decodeWord_eq {input : List UInt8} {k : Nat} (h : 4 * k + 4 ≤ input.length) :
    decodeWord input (4 * k) = Md5Digest.word input k := by
  -- the four bytes that the turn reads
  obtain ⟨b₀, b₁, b₂, b₃, hbytes⟩ : ∃ b₀ b₁ b₂ b₃, (input.drop (4 * k)).take 4 = [b₀, b₁, b₂, b₃] :=
    exists_four (by rw [List.length_take, List.length_drop]; omega)
  have hget : ∀ j, j < 4 → input.getD (4 * k + j) 0 = [b₀, b₁, b₂, b₃].getD j 0 := by
    intro j hj
    rw [← hbytes, List.getD_eq_getElem?_getD, List.getD_eq_getElem?_getD,
      List.getElem?_take_of_lt hj, List.getElem?_drop]
  refine UInt32.toNat_inj.mp ?_
  rw [Md5Digest.word, hbytes, ← toNat_or_bytes, UInt32.ofNat_toNat, decodeWord,
    hget 1 (by omega), hget 2 (by omega), hget 3 (by omega)]
  rw [show input.getD (4 * k) 0 = b₀ from hget 0 (by omega)]
  rfl

/-- One turn of `MD5_Encode` writes a word, its lowest byte first. -/
theorem encodeWord_eq (v : UInt32) : encodeWord v = Endian.little.store32 v.toNat := by
  -- a mask of one byte is the truncation of the digest's own words
  have hbyte : ∀ w : UInt32, (w &&& 0xff).toUInt8 = UInt8.ofNat w.toNat := by
    intro w
    refine UInt8.toNat_inj.mp ?_
    rw [UInt32.toNat_toUInt8, UInt32.toNat_and, UInt8.toNat_ofNat']
    exact (Nat.mod_eq_of_lt (Nat.and_lt_two_pow _ (by decide))).trans
      (Nat.and_two_pow_sub_one_eq_mod w.toNat 8)
  rw [encodeWord, hbyte, hbyte, hbyte, hbyte, UInt32.toNat_shiftRight, UInt32.toNat_shiftRight,
    UInt32.toNat_shiftRight, Nat.shiftRight_eq_div_pow, Nat.shiftRight_eq_div_pow,
    Nat.shiftRight_eq_div_pow]
  rfl

/-! ## The 64 lines -/

/-- The names that line `i` is called with. -/
def names (i : Nat) : Reg × Reg × Reg × Reg :=
  match i % 4 with
  | 0 => (.a, .b, .c, .d)
  | 1 => (.d, .a, .b, .c)
  | 2 => (.c, .d, .a, .b)
  | _ => (.b, .c, .d, .a)

/-- The words in the order of line `i`. -/
def Words.view (w : Words) (i : Nat) : Md5Digest.State :=
  (w.get (names i).1, w.get (names i).2.1, w.get (names i).2.2.1, w.get (names i).2.2.2)

/-- The macro of line `i`. -/
def mixOf (i : Nat) : Mix :=
  match i / 16 with
  | 0 => .f
  | 1 => .g
  | 2 => .h
  | _ => .i

/-- A line is what step `i` asks for; its constant is checked with integers. -/
def Fits (l : Line) (i : Nat) : Prop :=
  l.mix = mixOf i ∧ (l.p, l.q, l.r, l.t) = names i ∧
    l.k = Md5Digest.wordIndex i ∧ l.k < 16 ∧
    l.s.toNat = Md5Digest.shift i ∧ 0 < l.s.toNat ∧ l.s.toNat < 32 ∧
    SineTable.Pins (2 ^ 32) (i + 1) (3 * (i + 1) + 24) l.ac.toNat

/-- The table is checked line by line. -/
instance (l : Line) (i : Nat) : Decidable (Fits l i) :=
  inferInstanceAs (Decidable (_ ∧ _ ∧ _ ∧ _ ∧ _ ∧ _ ∧ _ ∧ _))

/-- **THE TABLE**: names, indices, shifts and constants of all lines. -/
theorem fits_lines :
    ∀ p ∈ (round1 ++ round2 ++ round3 ++ round4).zipIdx, Fits p.1 p.2 := by
  decide +kernel

/-- The four macros are the four mixing functions. -/
theorem mixOf_apply (i : Nat) (b c d : UInt32) :
    (mixOf i).apply b c d = Md5Digest.mixing i b c d := by
  rw [mixOf, Md5Digest.mixing]
  match i / 16 with
  | 0 => rfl
  | 1 => rfl
  | 2 => rfl
  | _ + 3 => rfl

/-- From line to line the names move on by one place. -/
theorem names_succ (i : Nat) :
    names (i + 1) = ((names i).2.2.2, (names i).1, (names i).2.1, (names i).2.2.1) := by
  have hmod : (i + 1) % 4 = (i % 4 + 1) % 4 := by omega
  rw [names, names, hmod]
  have hlt : i % 4 < 4 := Nat.mod_lt _ (by decide)
  generalize i % 4 = j at hlt
  match j, hlt with
  | 0, _ => rfl
  | 1, _ => rfl
  | 2, _ => rfl
  | 3, _ => rfl

/-- A line does not read the word it writes, but by the first of its names. -/
theorem names_fresh (i : Nat) :
    (names i).2.1 ≠ (names i).1 ∧ (names i).2.2.1 ≠ (names i).1
      ∧ (names i).2.2.2 ≠ (names i).1 := by
  rw [names]
  match i % 4 with
  | 0 => decide
  | 1 => decide
  | 2 => decide
  | _ + 3 => exact (by decide : Reg.c ≠ .b ∧ Reg.d ≠ .b ∧ Reg.a ≠ .b)

@[simp] theorem Words.get_set_self (w : Words) (r : Reg) (v : UInt32) :
    (w.set r v).get r = v := by
  cases r <;> rfl

theorem Words.get_set_of_ne {w : Words} {r r' : Reg} {v : UInt32} (h : r' ≠ r) :
    (w.set r v).get r' = w.get r' := by
  cases r <;> cases r' <;> first | rfl | exact absurd rfl h

/-- A line writes its word three times, and only the last one stays. -/
@[simp] theorem Words.set_set (w : Words) (r : Reg) (v v' : UInt32) :
    (w.set r v).set r v' = w.set r v' := by
  cases r <;> rfl

section

variable {l : Line} {i : Nat} {w : Words} {block : List UInt8}

/-- The constant of a line is the number of the sine. -/
theorem Fits.ac_eq (h : Fits l i) : l.ac = Md5Digest.sine i := by
  obtain ⟨-, -, -, -, -, -, -, hpins⟩ := h
  rw [Md5Digest.sine, SineTable.floor_abs_sin hpins, UInt32.ofNat_toNat]

/-- Word `k` of the array is word `k` of the block. -/
theorem getD_md5Decode {k : Nat} (hk : k < 16) (hlen : block.length = 64) :
    (md5Decode block 64).getD k 0 = Md5Digest.word block k := by
  have hin : k < (md5Decode block 64).length := by
    rw [md5Decode, List.length_map, List.length_range]
    exact hk
  rw [List.getD_eq_getElem _ _ hin]
  simp only [md5Decode, List.getElem_map, List.getElem_range]
  exact decodeWord_eq (by omega)

/-- **ONE LINE IS ONE STEP**, seen in the order of the names. -/
theorem view_run (h : Fits l i) (hlen : block.length = 64) :
    (l.run (md5Decode block 64) w).view (i + 1) = Md5Digest.step block (w.view i) i := by
  have hac := h.ac_eq
  obtain ⟨hmix, hnames, hk, hk16, hs, hpos, hlt, -⟩ := h
  obtain ⟨hq, hr, ht⟩ : l.q ≠ l.p ∧ l.r ≠ l.p ∧ l.t ≠ l.p := by
    have hfresh := names_fresh i
    rwa [← hnames] at hfresh
  have hword := getD_md5Decode (hk ▸ hk16) hlen
  have hview : w.view i = (w.get l.p, w.get l.q, w.get l.r, w.get l.t) := by
    rw [Words.view, ← hnames]
  -- the line's statements come to one assignment, of the word it is named for
  have hnew : l.run (md5Decode block 64) w
      = w.set l.p (Md5Digest.step block (w.view i) i).2.1 := by
    simp only [Line.run, Words.set_set, Words.get_set_self, Words.get_set_of_ne hq,
      rotateLeft_eq _ hpos hlt, hmix, mixOf_apply, hac, hs, hk,
      hword, hview, Md5Digest.step]
    rw [UInt32.add_comm (w.get l.q), UInt32.add_assoc (w.get l.p + _),
      UInt32.add_assoc (w.get l.p), UInt32.add_assoc (Md5Digest.mixing _ _ _ _)]
  -- in the order of the next line that word is the second
  rw [hnew, Words.view, names_succ, ← hnames]
  simp only [Words.get_set_self, Words.get_set_of_ne hq, Words.get_set_of_ne hr,
    Words.get_set_of_ne ht]
  rw [hview]
  rfl

/-- **ALL LINES**: by induction on the lines, with the number of the first. -/
theorem view_foldl (hlen : block.length = 64) :
    ∀ {lines : List Line} {i : Nat} {w : Words}, (∀ p ∈ lines.zipIdx i, Fits p.1 p.2) →
      (lines.foldl (Line.run (md5Decode block 64)) w).view (i + lines.length)
        = (List.range' i lines.length).foldl (Md5Digest.step block) (w.view i) := by
  intro lines
  induction lines with
  | nil =>
      intro i w _
      rfl
  | cons l lines ih =>
      intro i w h
      rw [List.zipIdx_cons] at h
      have hl : Fits l i := h (l, i) List.mem_cons_self
      have hrest := ih (w := l.run (md5Decode block 64) w)
        (fun p hp => h p (List.mem_cons_of_mem _ hp))
      rw [List.length_cons, List.range'_succ, List.foldl_cons, List.foldl_cons,
        ← view_run hl hlen, ← hrest, show i + (lines.length + 1) = i + 1 + lines.length by omega]

/-- **A BLOCK**: `MD5_Transform` takes it into the state. -/
theorem tuple_md5Transform (state : Words) (hlen : block.length = 64) :
    (md5Transform state block).tuple = Md5Digest.compress state.tuple block := by
  have hfold := view_foldl (w := state) hlen fits_lines
  have hlines : (round1 ++ round2 ++ round3 ++ round4).length = 64 := rfl
  -- after 64 lines the names are back in their order
  have hview : ∀ w : Words, w.view 0 = w.tuple ∧ w.view (0 + 64) = w.tuple :=
    fun _ => ⟨rfl, rfl⟩
  rw [hlines, (hview _).1, (hview _).2] at hfold
  have hsum : ∀ w : Words,
      (Words.mk (state.a + w.a) (state.b + w.b) (state.c + w.c) (state.d + w.d)).tuple
        = state.tuple + w.tuple := fun _ => rfl
  rw [Md5Digest.compress, List.range_eq_range', ← hfold, ← hsum]
  rfl

end

end StpMd5
