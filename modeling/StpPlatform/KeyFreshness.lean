import StpPlatform.NegotiateGuarantees

/-! # Do negotiated keys repeat?

    `GenerateRandomKey` calls `srandom(time(NULL))` before it draws, each time.
    So a key is a function of the second in which it was drawn: a generator
    whose windows of 32 draws never give one key twice is of no help, since
    only the first window after a seed is ever used.  `keys_differ_iff` says
    that the keys of a run differ exactly if the seeds do, and
    `keys_repeat` is the run of two calls within one second. -/

namespace StpFreshness

open LabelledRun StpDetail StpNegotiate StpInvariant StpContract StpGuarantee

/-! ## Seeded generators -/

/-- What `random()` answers: the seed and the number of the draw since. -/
abbrev Generator : Type := UInt32 → Nat → Nat

/-- `srandom(time(NULL))`: the seed is an `unsigned int`. -/
def srandomSeed (t : Int) : UInt32 := UInt32.ofNat (t % 0x100000000).toNat

/-- The generator as `GenerateRandomKey` meets it, seeded by the clock. -/
def seeded (gen : Generator) (t : Int) (n : Nat) : Nat := gen (srandomSeed t) n

/-- The key drawn from window number `n` after the seed. -/
def windowKey (gen : Generator) (seed : UInt32) (n : Nat) : List UInt8 :=
  keyText (fun i => gen seed (32 * n + i))

/-- The first `n` windows of all seeds give pairwise different keys. -/
def Unique (gen : Generator) (n : Nat) : Prop :=
  ∀ s s' i i', i < n → i' < n → windowKey gen s i = windowKey gen s' i' →
    s = s' ∧ i = i'

/-- A key is the first window of the generator's output. -/
theorem keyText_seeded (gen : Generator) (t : Int) :
    keyText (seeded gen t) = windowKey gen (srandomSeed t) 0 := by
  rw [windowKey]
  simp only [Nat.mul_zero, Nat.zero_add]
  rfl

/-! ## The keys of a run -/

/-- The calls that succeeded, in order. -/
def granted (cs : List Call) : List Call := cs.filter (fun c => c.ret)

/-- The seed with which the call draws its key. -/
def keySeed (c : Call) : UInt32 := srandomSeed c.env.seed

/-- What the claim of fresh keys asks. -/
def KeysDiffer (cs : List Call) : Prop :=
  (granted cs).Pairwise (fun c d => c.out.key ≠ d.out.key)

/-- The same of the seconds in which the calls are made. -/
def SeedsDiffer (cs : List Call) : Prop :=
  (granted cs).Pairwise (fun c d => keySeed c ≠ keySeed d)

/-- No clock reading of a call is before one of an earlier call. -/
def ClockMonotone (cs : List Call) : Prop :=
  cs.Pairwise (fun c d => c.env.seed ≤ d.env.now)
    ∧ ∀ c ∈ cs, c.env.now ≤ c.env.seed

/-- The run draws its keys from `gen`. -/
def DrawsFrom (gen : Generator) (cs : List Call) : Prop :=
  ∀ c ∈ cs, c.env.random = seeded gen

/-- Every key of a run is drawn from the seed of its call. -/
theorem keys_of_run {cfg : Config} {w w' : World} {cs : List Call}
    (hw : Reachable cfg w) (hrun : Run (CallStep cfg) w cs w') :
    ∀ c ∈ cs, c.ret = true → c.out.key = keyText (c.env.random c.env.seed) := by
  have hboth : Reachable cfg w' ∧ ∀ c ∈ cs, c.ret = true →
      c.out.key = keyText (c.env.random c.env.seed) := by
    induction hrun with
    | start => exact ⟨hw, fun c hc => absurd hc List.not_mem_nil⟩
    | @next es t u e hpre hstep ih =>
        obtain ⟨ht, hkeys⟩ := ih
        refine ⟨ht.step (e := .negotiate e.env e.args e.ret e.out) hstep, ?_⟩
        intro c hc hret
        rcases List.mem_append.mp hc with hc | hc
        · exact hkeys c hc hret
        · rw [List.mem_singleton.mp hc] at hret ⊢
          rw [CallStep, hret] at hstep
          rw [negotiate_out ht hstep]
          rfl
  exact hboth.2

/-- **KEYS ARE AS FRESH AS THE SECONDS**: the keys of a run differ exactly if
    the seeds do, however good the generator. -/
theorem keys_differ_iff {cfg : Config} {gen : Generator} {n : Nat} {w w' : World}
    {cs : List Call} (hw : Reachable cfg w) (hgen : Unique gen n)
    (hdraws : DrawsFrom gen cs) (hlen : (granted cs).length ≤ n)
    (hrun : Run (CallStep cfg) w cs w') : KeysDiffer cs ↔ SeedsDiffer cs := by
  have hkey : ∀ c ∈ granted cs, c.out.key = windowKey gen (keySeed c) 0 := by
    intro c hc
    obtain ⟨hmem, hret⟩ := List.mem_filter.mp hc
    rw [keys_of_run hw hrun c hmem hret, hdraws c hmem]
    exact keyText_seeded gen c.env.seed
  rw [KeysDiffer, SeedsDiffer]
  refine List.Pairwise.iff_of_mem ?_
  intro c d hc hd
  have hpos : 0 < n := by
    have := List.length_pos_of_mem hc
    omega
  rw [hkey c hc, hkey d hd]
  constructor
  · rintro hne heq
    exact hne (by rw [heq])
  · rintro hne heq
    exact hne (hgen _ _ 0 0 hpos hpos heq).1

/-! ## Two calls within one second -/

/-- Keys do not repeat in runs that a generator of different windows feeds. -/
def NeverRepeats (cfg : Config) : Prop :=
  ∀ (gen : Generator) (n : Nat) (w w' : World) (cs : List Call),
    Unique gen n → Reachable cfg w → Run (CallStep cfg) w cs w' →
    DrawsFrom gen cs → ClockMonotone cs → (granted cs).length ≤ n →
    KeysDiffer cs

/-- A generator that writes the seed in base 62 into the first six characters
    of a window, and the number of the window into the others. -/
def digitGen : Generator := fun seed i =>
  if i % 32 < 6 then seed.toNat / 62 ^ (i % 32) else i / 32

theorem keyTab_nodup : keyTab.Nodup := by decide +kernel

/-- So a character tells what the draw was, up to multiples of 62. -/
theorem keyChar_inj {r r' : Nat} (h : keyChar r = keyChar r') :
    r % 62 = r' % 62 := by
  have hlt : ∀ r : Nat, r % 62 < keyTab.length := by
    intro r
    exact Nat.mod_lt _ (by decide)
  have hget : ∀ r, keyChar r = keyTab.get ⟨r % 62, hlt r⟩ := by
    intro r
    show keyTab.getD (r % 62) 0 = _
    rw [List.getD_eq_getElem?_getD, List.getElem?_eq_getElem (hlt r)]
    rfl
  rw [hget, hget] at h
  exact congrArg Fin.val (keyTab_nodup.get_inj_iff.mp h)

/-- Numbers with the same `n` digits in base 62 are equal. -/
theorem eq_of_digits : ∀ (n a b : Nat), a < 62 ^ n → b < 62 ^ n →
    (∀ j, j < n → a / 62 ^ j % 62 = b / 62 ^ j % 62) → a = b := by
  intro n
  induction n with
  | zero =>
      intro a b ha hb _
      omega
  | succ n ih =>
      intro a b ha hb hdigits
      rw [Nat.pow_succ] at ha hb
      have h0 := hdigits 0 (Nat.succ_pos n)
      rw [Nat.pow_zero, Nat.div_one, Nat.div_one] at h0
      have hrest : a / 62 = b / 62 := by
        refine ih (a / 62) (b / 62) ?_ ?_ ?_
        · exact Nat.div_lt_of_lt_mul (by rw [Nat.mul_comm]; exact ha)
        · exact Nat.div_lt_of_lt_mul (by rw [Nat.mul_comm]; exact hb)
        · intro j hj
          have hd := hdigits (j + 1) (by omega)
          rw [Nat.pow_succ, Nat.mul_comm, ← Nat.div_div_eq_div_mul,
            ← Nat.div_div_eq_div_mul] at hd
          exact hd
      omega

/-- Equal keys come from equal draws, up to multiples of 62. -/
theorem windowKey_char {gen : Generator} {s s' : UInt32} {i i' : Nat}
    (h : windowKey gen s i = windowKey gen s' i') {j : Nat} (hj : j < 32) :
    gen s (32 * i + j) % 62 = gen s' (32 * i' + j) % 62 := by
  have hmap : (List.range 32).map (fun j => keyChar (gen s (32 * i + j)))
      = (List.range 32).map (fun j => keyChar (gen s' (32 * i' + j))) := h
  exact keyChar_inj (List.map_inj_left.mp hmap j (List.mem_range.mpr hj))

/-- Two windows of the counting generator begin with different digits. -/
theorem unique_digitGen : Unique digitGen 2 := by
  intro s s' i i' hi hi' heq
  refine ⟨?_, ?_⟩
  · -- the first six characters give the seed
    refine UInt32.toNat_inj.mp (eq_of_digits 6 _ _ ?_ ?_ ?_)
    · exact Nat.lt_of_lt_of_le s.toNat_lt (by decide)
    · exact Nat.lt_of_lt_of_le s'.toNat_lt (by decide)
    · intro j hj
      have hc := windowKey_char heq (j := j) (by omega)
      have hmod : ∀ m, (32 * m + j) % 32 = j := by
        intro m
        omega
      simp only [digitGen, hmod, if_pos hj] at hc
      exact hc
  · -- the seventh gives the window
    have hc := windowKey_char heq (j := 6) (by decide)
    have hmod : ∀ m, (32 * m + 6) % 32 = 6 := by
      intro m
      omega
    simp only [digitGen, hmod] at hc
    rw [if_neg (by decide), if_neg (by decide)] at hc
    omega

/-- `quietCall` at time `t`, with keys from `digitGen`. -/
def digitCall (t : Int) : CallEnv :=
  { quietCall with now := t, seed := t, random := seeded digitGen }

/-- A request for slot `0` of group `0`. -/
def slotZero : NegotiateArgs := { firstCall with group := 0, idx := 0 }

/-- The call for slot `0` at time `t`. -/
def grantAt (t : Int) : Call where
  env := digitCall t
  args := slotZero
  ret := true
  out := grantedArgs oneSlot (digitCall t) slotZero

/-- Two grants of the same slot, at two times. -/
theorem run_grants (s t : Int) :
    ∃ w, Run (CallStep oneSlot) freshWorld [grantAt s, grantAt t] w := by
  have hfirst : CallStep oneSlot freshWorld (grantAt s)
      (freshWorld.granted oneSlot (digitCall s) freshGroup slotZero 1) :=
    freshWorld_grants (digitCall s) (Int.le_refl 0) rfl
  have hinv := storeInv_negotiate ready_freshWorld.storeInv hfirst
  have hsecond : CallStep oneSlot _ (grantAt t) _ :=
    renegotiation_granted hinv (show _ = some freshGroup from rfl)
      Int.one_pos rfl (Int.le_refl 0) (Int.le_refl 0) Int.one_pos
  exact ⟨_, (Run.start.next hfirst).next hsecond⟩

/-- Both draw from the generator. -/
theorem drawsFrom_grants (s t : Int) :
    DrawsFrom digitGen [grantAt s, grantAt t] := by
  intro c hc
  rcases List.mem_pair.mp hc with h | h <;> rw [h] <;> rfl

/-- One second apart. -/
theorem keys_differ_iff_oneSlot :
    KeysDiffer [grantAt 1000, grantAt 1001]
      ↔ SeedsDiffer [grantAt 1000, grantAt 1001] := by
  obtain ⟨w, hrun⟩ := run_grants 1000 1001
  exact keys_differ_iff ready_freshWorld.1 unique_digitGen
    (drawsFrom_grants 1000 1001) (by decide) hrun

/-- **TWO CALLS WITHIN ONE SECOND ANSWER ONE KEY**. -/
theorem keys_repeat : ¬ NeverRepeats oneSlot := by
  intro hnever
  obtain ⟨w, hrun⟩ := run_grants 1000 1000
  have hclock : ClockMonotone [grantAt 1000, grantAt 1000] := by
    refine ⟨List.pairwise_pair.mpr (Int.le_refl 1000), ?_⟩
    intro c hc
    rcases List.mem_pair.mp hc with h | h <;> rw [h] <;> exact Int.le_refl 1000
  have hdiffer : KeysDiffer [grantAt 1000, grantAt 1000] :=
    hnever digitGen 2 freshWorld w _ unique_digitGen ready_freshWorld.1 hrun
      (drawsFrom_grants 1000 1000) hclock (by decide)
  exact (List.pairwise_pair.mp hdiffer) rfl

end StpFreshness
