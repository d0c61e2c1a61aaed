import Mathlib.Data.List.Basic
import Mathlib.Data.List.Infix

/-! # Decoding a byte stream that arrives in pieces

    A receiver sees a stream cut at arbitrary places.  A `Decoder` reads one
    item off the front of what is buffered or asks for more; `drain` reads all
    complete items.  Two facts carry every argument:

    * `drain_append` — draining commutes with waiting: what is complete in
      `s ++ t` is what was complete in `s`, then what the leftover of `s`
      completes with `t`;
    * `next_of_start` — on a prefix of a stream of encoded items a decoder
      can only read the item that was encoded first.

    A `Receiver` that takes ONE item per arrival is then compared with the
    drain: it loses nothing (`sound_arrive`), and it keeps up exactly as long
    as no arrival completes two items (`settled_arrive_iff`). -/

namespace StreamDecoder

variable {α β : Type}

/-- A stream decoder: take one item off the front, or wait for more input. -/
structure Decoder (α β : Type) where
  next : List α → Option (β × List α)
  shrinks : ∀ {buf b rest}, next buf = some (b, rest) →
    rest.length < buf.length
  grows : ∀ {buf b rest} (more : List α), next buf = some (b, rest) →
    next (buf ++ more) = some (b, rest ++ more)

/-- Take at most `n` items off the front. -/
def drainFuel (d : Decoder α β) : Nat → List α → List β × List α
  | 0, buf => ([], buf)
  | n + 1, buf =>
      match d.next buf with
      | none => ([], buf)
      | some (b, rest) => (b :: (drainFuel d n rest).1, (drainFuel d n rest).2)

/-- All complete items of a buffer, and the incomplete rest. -/
def drain (d : Decoder α β) (buf : List α) : List β × List α :=
  drainFuel d buf.length buf

/-- How many items of a stream are complete. -/
def complete (d : Decoder α β) (buf : List α) : Nat :=
  (drain d buf).1.length

variable (d : Decoder α β)

theorem next_nil : d.next [] = none := by
  cases h : d.next [] with
  | none => rfl
  | some p =>
      obtain ⟨b, rest⟩ := p
      exact absurd (d.shrinks h) (by simp)

/-- Any fuel that covers the buffer drains it alike. -/
theorem drainFuel_eq_of_le :
    ∀ (n m : Nat) (buf : List α), buf.length ≤ n → buf.length ≤ m →
      drainFuel d n buf = drainFuel d m buf := by
  intro n
  induction n with
  | zero =>
      intro m buf hn _
      have hbuf : buf = [] := List.length_eq_zero_iff.mp (Nat.le_zero.mp hn)
      subst hbuf
      cases m with
      | zero => rfl
      | succ m => simp only [drainFuel, next_nil]
  | succ n ih =>
      intro m buf hn hm
      cases m with
      | zero =>
          have hbuf : buf = [] := List.length_eq_zero_iff.mp (Nat.le_zero.mp hm)
          subst hbuf
          simp only [drainFuel, next_nil]
      | succ m =>
          cases h : d.next buf with
          | none => simp only [drainFuel, h]
          | some p =>
              obtain ⟨b, rest⟩ := p
              have hlt := d.shrinks h
              simp only [drainFuel, h]
              rw [ih m rest (by omega) (by omega)]

theorem drain_of_none {buf : List α} (h : d.next buf = none) :
    drain d buf = ([], buf) := by
  rw [drain]
  cases hn : buf.length with
  | zero => rfl
  | succ n => simp only [drainFuel, h]

theorem drain_of_some {buf rest : List α} {b : β}
    (h : d.next buf = some (b, rest)) :
    drain d buf = (b :: (drain d rest).1, (drain d rest).2) := by
  have hlt := d.shrinks h
  obtain ⟨n, hn⟩ : ∃ n, buf.length = n + 1 := ⟨buf.length - 1, by omega⟩
  rw [drain, drain, hn]
  simp only [drainFuel, h]
  rw [drainFuel_eq_of_le d n rest.length rest (by omega) (Nat.le_refl _)]

/-- **DRAINING COMMUTES WITH WAITING**. -/
theorem drain_append :
    ∀ (n : Nat) (s t : List α), s.length ≤ n →
      drain d (s ++ t)
        = ((drain d s).1 ++ (drain d ((drain d s).2 ++ t)).1,
            (drain d ((drain d s).2 ++ t)).2) := by
  -- on a bound of `s.length`: every item read shortens the buffer
  intro n
  induction n with
  | zero =>
      intro s t hs
      have hnil : s = [] := List.length_eq_zero_iff.mp (Nat.le_zero.mp hs)
      subst hnil
      rw [drain_of_none d (next_nil d)]
      simp
  | succ n ih =>
      intro s t hs
      cases h : d.next s with
      | none =>
          rw [drain_of_none d h]
          simp
      | some p =>
          obtain ⟨b, rest⟩ := p
          have hlt := d.shrinks h
          rw [drain_of_some d (d.grows t h), drain_of_some d h,
            ih rest t (by omega)]
          simp

/-! ## One item per arrival -/

/-- What a receiver holds: the unread bytes and what it handed on. -/
structure Receiver (α β : Type) where
  buffer : List α
  delivered : List β

/-- A chunk arrives; at most one item is read. -/
def arrive (d : Decoder α β) (r : Receiver α β) (chunk : List α) :
    Receiver α β :=
  match d.next (r.buffer ++ chunk) with
  | none => { r with buffer := r.buffer ++ chunk }
  | some (b, rest) => { buffer := rest, delivered := r.delivered ++ [b] }

theorem arrive_of_none {r : Receiver α β} {chunk : List α}
    (h : d.next (r.buffer ++ chunk) = none) :
    arrive d r chunk = { r with buffer := r.buffer ++ chunk } := by
  rw [arrive, h]

theorem arrive_of_some {r : Receiver α β} {chunk rest : List α} {b : β}
    (h : d.next (r.buffer ++ chunk) = some (b, rest)) :
    arrive d r chunk = { buffer := rest, delivered := r.delivered ++ [b] } := by
  rw [arrive, h]

/-- Nothing of the stream is lost: what was handed on and what the buffer still
    yields are the complete items received. -/
structure Sound (d : Decoder α β) (received : List α) (r : Receiver α β) :
    Prop where
  items : r.delivered ++ (drain d r.buffer).1 = (drain d received).1
  rest : (drain d r.buffer).2 = (drain d received).2

/-- The receiver waits for more input. -/
def Settled (d : Decoder α β) (r : Receiver α β) : Prop :=
  d.next r.buffer = none

theorem sound_empty : Sound d [] { buffer := [], delivered := [] } :=
  ⟨rfl, rfl⟩

/-- Receiving more without reading keeps a receiver sound. -/
theorem sound_extend {received : List α} {r : Receiver α β}
    (h : Sound d received r) (chunk : List α) :
    Sound d (received ++ chunk) { r with buffer := r.buffer ++ chunk } := by
  have hr := drain_append d r.buffer.length r.buffer chunk (Nat.le_refl _)
  have hc := drain_append d received.length received chunk (Nat.le_refl _)
  constructor
  · show r.delivered ++ (drain d (r.buffer ++ chunk)).1 = _
    rw [hr, hc, ← h.rest, ← h.items]
    simp
  · show (drain d (r.buffer ++ chunk)).2 = _
    rw [hr, hc, h.rest]

/-- **NOTHING IS LOST**: an arrival keeps a receiver sound. -/
theorem sound_arrive {received : List α} {r : Receiver α β}
    (h : Sound d received r) (chunk : List α) :
    Sound d (received ++ chunk) (arrive d r chunk) := by
  have hx := sound_extend d h chunk
  cases hn : d.next (r.buffer ++ chunk) with
  | none =>
      rw [arrive_of_none d hn]
      exact hx
  | some p =>
      obtain ⟨b, rest⟩ := p
      have hd := drain_of_some d hn
      rw [arrive_of_some d hn]
      -- the item moves from the front of the drain to the end of what is
      -- delivered
      constructor
      · have hi := hx.items
        simp only [hd] at hi
        show (r.delivered ++ [b]) ++ (drain d rest).1 = _
        rw [← hi]
        simp
      · have hr := hx.rest
        simp only [hd] at hr
        exact hr

/-- What was handed on and what can still be read adds up. -/
theorem Sound.length_items {received : List α} {r : Receiver α β}
    (h : Sound d received r) :
    r.delivered.length + (drain d r.buffer).1.length = complete d received := by
  rw [complete, ← h.items, List.length_append]

theorem settled_iff_complete {received : List α} {r : Receiver α β}
    (h : Sound d received r) :
    Settled d r ↔ complete d received = r.delivered.length := by
  have hlen := h.length_items
  constructor
  · intro hs
    rw [drain_of_none d hs] at hlen
    simpa using hlen.symm
  · intro hc
    cases hn : d.next r.buffer with
    | none => exact hn
    | some p =>
        obtain ⟨b, rest⟩ := p
        rw [drain_of_some d hn] at hlen
        simp only [List.length_cons] at hlen
        omega

/-- A receiver that waits has handed on every complete item. -/
theorem delivered_of_settled {received : List α} {r : Receiver α β}
    (h : Sound d received r) (hs : Settled d r) :
    r.delivered = (drain d received).1 := by
  have hi := h.items
  rw [drain_of_none d hs] at hi
  simpa using hi

/-- **KEEPING UP**: a waiting receiver still waits after an arrival exactly if
    the arrival completed at most one item. -/
theorem settled_arrive_iff {received : List α} {r : Receiver α β}
    (h : Sound d received r) (hs : Settled d r) (chunk : List α) :
    Settled d (arrive d r chunk)
      ↔ complete d (received ++ chunk) ≤ complete d received + 1 := by
  rw [settled_iff_complete d (sound_arrive d h chunk)]
  have h0 : complete d received = r.delivered.length :=
    (settled_iff_complete d h).mp hs
  have hlen := (sound_extend d h chunk).length_items
  cases hn : d.next (r.buffer ++ chunk) with
  | none =>
      rw [drain_of_none d hn] at hlen
      rw [arrive_of_none d hn]
      show complete d (received ++ chunk) = r.delivered.length ↔ _
      simp only [List.length_nil] at hlen
      omega
  | some p =>
      obtain ⟨b, rest⟩ := p
      rw [drain_of_some d hn] at hlen
      rw [arrive_of_some d hn]
      show complete d (received ++ chunk) = (r.delivered ++ [b]).length ↔ _
      simp only [List.length_cons, List.length_append, List.length_nil]
        at hlen ⊢
      omega

/-! ## A stream cut into chunks -/

/-- The receiver after all chunks of a cut. -/
def arriveAll (d : Decoder α β) (cut : List (List α)) : Receiver α β :=
  cut.foldl (arrive d) { buffer := [], delivered := [] }

theorem arriveAll_snoc (cut : List (List α)) (chunk : List α) :
    arriveAll d (cut ++ [chunk]) = arrive d (arriveAll d cut) chunk :=
  List.foldl_concat ..

/-- Nothing is lost over a whole cut. -/
theorem sound_arriveAll (cut : List (List α)) :
    Sound d cut.flatten (arriveAll d cut) := by
  induction cut using List.reverseRecOn with
  | nil => exact sound_empty d
  | append_singleton cut chunk ih =>
      rw [arriveAll_snoc, List.flatten_concat]
      exact sound_arrive d ih chunk

/-- **KEEPING UP WITH A CUT**: the receiver waits after every chunk exactly if
    no chunk completes two items. -/
theorem settled_prefixes_iff (cut : List (List α)) :
    (∀ pre, pre <+: cut → Settled d (arriveAll d pre))
      ↔ ∀ pre chunk, pre ++ [chunk] <+: cut →
        complete d (pre.flatten ++ chunk) ≤ complete d pre.flatten + 1 := by
  constructor
  · intro h pre chunk hpre
    have hs := h pre ((List.prefix_append pre [chunk]).trans hpre)
    refine (settled_arrive_iff d (sound_arriveAll d pre) hs chunk).mp ?_
    rw [← arriveAll_snoc]
    exact h _ hpre
  · intro h pre
    induction pre using List.reverseRecOn with
    | nil =>
        intro _
        exact next_nil d
    | append_singleton pre chunk ih =>
        intro hpre
        have hs := ih ((List.prefix_append pre [chunk]).trans hpre)
        rw [arriveAll_snoc]
        exact (settled_arrive_iff d (sound_arriveAll d pre) hs chunk).mpr
          (h pre chunk hpre)

/-! ## Encoded streams -/

/-- A decoder with its encoder: an encoded item is read back as soon as it is
    whole, and not before. -/
structure Codec (α β : Type) extends Decoder α β where
  enc : β → List α
  Encodable : β → Prop
  next_enc : ∀ {b} (rest : List α), Encodable b →
    next (enc b ++ rest) = some (b, rest)
  next_part : ∀ {b part}, Encodable b → part <+: enc b → part ≠ enc b →
    next part = none

/-- The stream that carries a list of items. -/
def encAll (c : Codec α β) (bs : List β) : List α :=
  bs.flatMap c.enc

theorem encAll_append (c : Codec α β) (bs cs : List β) :
    encAll c (bs ++ cs) = encAll c bs ++ encAll c cs :=
  List.flatMap_append

/-- **ONLY THE FIRST ITEM CAN BE READ** off a prefix of an encoded stream, and
    what remains is a prefix of the stream of the others. -/
theorem next_of_start (c : Codec α β) {bs : List β} {buf rest : List α} {b : β}
    (hbs : ∀ x ∈ bs, c.Encodable x) (hpre : buf <+: encAll c bs)
    (hn : c.next buf = some (b, rest)) :
    ∃ bs', bs = b :: bs' ∧ buf = c.enc b ++ rest ∧ rest <+: encAll c bs' := by
  cases bs with
  | nil =>
      have hnil : buf = [] := List.prefix_nil.mp hpre
      rw [hnil, next_nil] at hn
      exact nomatch hn
  | cons x bs' =>
      have hx : c.Encodable x := hbs x List.mem_cons_self
      have hpre' : buf <+: c.enc x ++ encAll c bs' := hpre
      -- the buffer ends inside the first item, or holds all of it
      rcases List.prefix_or_prefix_of_prefix hpre'
        (List.prefix_append (c.enc x) (encAll c bs')) with hshort | hlong
      · by_cases heq : buf = c.enc x
        · have hread := c.next_enc [] hx
          rw [List.append_nil, ← heq, hn] at hread
          have hp := Option.some.inj hread
          have hb : b = x := congrArg Prod.fst hp
          have hr : rest = [] := congrArg Prod.snd hp
          subst hb
          subst hr
          exact ⟨bs', rfl, by rw [List.append_nil]; exact heq,
            List.nil_prefix⟩
        · rw [c.next_part hx hshort heq] at hn
          exact nomatch hn
      · obtain ⟨r, hr⟩ := hlong
        subst hr
        rw [c.next_enc r hx] at hn
        have hp := Option.some.inj hn
        have hb : x = b := congrArg Prod.fst hp
        have hrest : r = rest := congrArg Prod.snd hp
        subst hb
        subst hrest
        exact ⟨bs', rfl, rfl, (List.prefix_append_right_inj _).mp hpre'⟩

end StreamDecoder
