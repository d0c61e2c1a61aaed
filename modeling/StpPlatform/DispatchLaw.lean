import StpPlatform.Backlog
import StpPlatform.Framing

/-! # How far behind a connection falls

    `ProcessReadEvent` reads one frame an event, so a connection is a queue of
    frames with the read events as its rounds.  `dispatch_law` says how many
    frames are dispatched, for every stream and every cut of it; and all complete
    frames are dispatched in the end exactly if no last stretch of read events
    completes more frames than it has events. -/

namespace Framing

open StreamDecoder Connection Backlog

/-- The number of frames that the first `k` chunks of a cut complete. -/
def completed (cut : List (List UInt8)) (k : Nat) : Nat :=
  complete frameDecoder (cut.take k).flatten

section

variable {α β : Type} (d : Decoder α β)

/-- A receiver that is behind hands one item on, and one that is not waits. -/
theorem length_arrive {received : List α} {r : Receiver α β} (h : Sound d received r)
    (chunk : List α) :
    (arrive d r chunk).delivered.length
      = min (r.delivered.length + 1) (complete d (received ++ chunk)) := by
  have hlen : r.delivered.length + (drain d (r.buffer ++ chunk)).1.length
      = complete d (received ++ chunk) := (sound_extend d h chunk).length_items
  cases hn : d.next (r.buffer ++ chunk) with
  | none =>
      rw [drain_of_none d hn, List.length_nil, Nat.add_zero] at hlen
      rw [arrive_of_none d hn, ← hlen]
      exact (min_eq_right (Nat.le_succ _)).symm
  | some p =>
      obtain ⟨b, rest⟩ := p
      rw [drain_of_some d hn, List.length_cons] at hlen
      rw [arrive_of_some d hn, min_eq_left (by omega), List.length_append,
        List.length_singleton]

/-- What is handed on is the beginning of the complete items. -/
theorem delivered_eq_take {received : List α} {r : Receiver α β} (h : Sound d received r) :
    r.delivered = (drain d received).1.take r.delivered.length := by
  rw [← h.items, List.take_left]

theorem length_arriveAll (cut : List (List α)) :
    (arriveAll d cut).delivered.length
      = served (fun k => complete d (cut.take k).flatten) cut.length := by
  induction cut using List.reverseRecOn with
  | nil => rfl
  | append_singleton cut chunk ih =>
      have hsame : ∀ k, k ≤ cut.length →
          served (fun k => complete d ((cut ++ [chunk]).take k).flatten) k
            = served (fun k => complete d (cut.take k).flatten) k := by
        intro k
        induction k with
        | zero =>
            intro _
            rfl
        | succ k ihk =>
            intro hk
            rw [served, served, ihk (Nat.le_of_succ_le hk), List.take_append_of_le_length hk]
      rw [arriveAll_snoc, length_arrive d (sound_arriveAll d cut), ih, List.length_append,
        List.length_singleton, served, hsame _ (Nat.le_refl _), List.take_of_length_le,
        List.flatten_concat]
      rw [List.length_append, List.length_singleton]

end

/-- **THE DISPATCH LAW**: after any read events the packets dispatched are the
    first of the complete frames, as many as the queue has served; and they are
    all exactly if no stretch of events up to the last one completed more frames
    than it has events. -/
theorem dispatch_law (e : ByteOrder.Endian) (side : Side) (junk : List UInt8)
    (cut : List (List UInt8)) :
    (readAll (host64 e) side junk cut).dispatched
        = (drain frameDecoder cut.flatten).1.take (served (completed cut) cut.length) ∧
      IsLeast {n | ∃ j, j ≤ cut.length ∧ n = completed cut j + (cut.length - j)}
        (readAll (host64 e) side junk cut).dispatched.length ∧
      ((readAll (host64 e) side junk cut).dispatched = (drain frameDecoder cut.flatten).1 ↔
        ∀ j, j ≤ cut.length →
          completed cut cut.length ≤ completed cut j + (cut.length - j)) := by
  have hreader := @readAll_eq (host64 e) side junk (host64_sizeMod e) cut
  have hdispatched : (readAll (host64 e) side junk cut).dispatched
      = (arriveAll frameDecoder cut).delivered := congrArg Receiver.delivered hreader.2
  have hsound := sound_arriveAll frameDecoder cut
  have htake := delivered_eq_take frameDecoder hsound
  have hlen : (arriveAll frameDecoder cut).delivered.length
      = served (completed cut) cut.length := length_arriveAll frameDecoder cut
  have htotal : completed cut cut.length = (drain frameDecoder cut.flatten).1.length := by
    rw [completed, List.take_length]
    rfl
  rw [hdispatched]
  refine ⟨?_, ?_, ?_⟩
  · rw [← hlen]
    exact htake
  · rw [hlen]
    exact served_isLeast rfl cut.length
  · rw [← served_eq_arrived_iff rfl, ← hlen, htotal]
    constructor
    · intro h
      rw [h]
    · intro h
      rw [htake, h, List.take_length]

end Framing
