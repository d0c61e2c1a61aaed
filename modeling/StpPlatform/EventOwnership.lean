import Mathlib.Data.List.Count
import Mathlib.Logic.Function.Basic
import StpPlatform.LabelledRun

/-! # Signal and timer events (`stputil/event_notifier`)

    The four methods of `EventNotifier` that make and delete event objects.  A
    signal's event is kept in `signal_events_`; a timer's event is the caller's.
    Objects are numbered as they are made, and every `delete` is noted, so that
    one that is never freed or freed twice can be told.

    `Accounted` is the balance: each object is owned or has been freed, once.
    `accounted_iff` says in which sequences of calls it holds throughout: those
    in which `event_add` does not fail, no signal is deleted or registered anew
    while it is registered, and no timer is deleted twice (`Careful`). -/

namespace EventOwnership

open LabelledRun

/-- An `event*` that is not `NULL`: the number of its object. -/
abbrev EventId : Type := Nat

/-- What an event object was made for. -/
inductive Kind where
  | signal (sig : Int)
  | timer
  deriving DecidableEq

/-- The event objects, in the order in which they were made, `signal_events_`,
    what has been deleted, and what has gone wrong on the way. -/
structure Notifier where
  objects : List Kind
  signalEvents : Int → Option EventId
  freed : List EventId
  readErased : Bool
  crashed : Bool

/-- `EventNotifier()`, before `Initialize`. -/
def Notifier.new : Notifier := ⟨[], fun _ => none, [], false, false⟩

/-! ## The methods -/

namespace Notifier

/-- `bool DeleteSignalEvent(int sig)`.  The node of the map is read once more
    after it has been erased; `stale` is the object that is found there. -/
def deleteSignalEvent (n : Notifier) (sig : Int) (stale : Option EventId) :
    Bool × Notifier :=
  match n.signalEvents sig with
  | none => (false, n)
  | some _ =>
      (true, { n with
        signalEvents := Function.update n.signalEvents sig none
        readErased := true
        freed := n.freed ++ stale.toList })

/-- `bool AddSignalEvent(int sig, void (*ptr)(int, short, void*))`, by whether
    `evsignal_new` makes an event and whether `event_add` takes it. -/
def addSignalEvent (n : Notifier) (sig : Int) (evsignalNew eventAdd : Bool)
    (stale : Option EventId) : Bool × Notifier :=
  if evsignalNew then
    let ev := n.objects.length
    let made : Notifier := { n with objects := n.objects ++ [.signal sig] }
    if eventAdd then
      let cleared := (made.deleteSignalEvent sig stale).2
      (true, { cleared with
        signalEvents := Function.update cleared.signalEvents sig (some ev) })
    else (false, made)
  -- `event_del(NULL)`
  else (false, { n with crashed := true })

/-- `event *AddTimerEvent(void (*ptr)(int, short, void*), timeval tv, bool once)`,
    by whether `event_add` takes the event. -/
def addTimerEvent (n : Notifier) (eventAdd : Bool) : Option EventId × Notifier :=
  let ev := n.objects.length
  let made : Notifier := { n with objects := n.objects ++ [.timer] }
  if eventAdd then (some ev, made) else (none, made)

/-- `bool DeleteTimerEvent(event *ev)`, by whether `event_del` returns `0`. -/
def deleteTimerEvent (n : Notifier) (ev : Option EventId) (eventDel : Bool) :
    Bool × Notifier :=
  match ev with
  | none => (false, n)
  | some ev => (eventDel, { n with freed := n.freed ++ [ev] })

end Notifier

/-! ## Sequences of calls -/

/-- A call of one of the four methods, with what libevent answers. -/
inductive Call where
  | addSignalEvent (sig : Int) (evsignalNew eventAdd : Bool) (stale : Option EventId)
  | deleteSignalEvent (sig : Int) (stale : Option EventId)
  | addTimerEvent (eventAdd : Bool)
  | deleteTimerEvent (ev : Option EventId) (eventDel : Bool)

/-- What the caller has been told, and what it has done. -/
inductive Act where
  | signalAdded (sig : Int) (ev : EventId)
  | signalDeleted (sig : Int)
  | timerAdded (ev : EventId)
  | timerDeleted (ev : EventId)
  deriving DecidableEq

/-- A notifier, and what its callers know and have done. -/
structure World where
  notifier : Notifier
  log : List Act

def World.new : World := ⟨Notifier.new, []⟩

/-- One call, and what its caller learns from it.  The caller has no other
    pointers to events than `AddTimerEvent` returned to it. -/
def World.call (w : World) : Call → World
  | .addSignalEvent sig evsignalNew eventAdd stale =>
      match w.notifier.addSignalEvent sig evsignalNew eventAdd stale with
      | (true, n) => ⟨n, w.log ++ [.signalAdded sig w.notifier.objects.length]⟩
      | (false, n) => ⟨n, w.log⟩
  | .deleteSignalEvent sig stale =>
      ⟨(w.notifier.deleteSignalEvent sig stale).2, w.log ++ [.signalDeleted sig]⟩
  | .addTimerEvent eventAdd =>
      match w.notifier.addTimerEvent eventAdd with
      | (some ev, n) => ⟨n, w.log ++ [.timerAdded ev]⟩
      | (none, n) => ⟨n, w.log⟩
  | .deleteTimerEvent none eventDel =>
      ⟨(w.notifier.deleteTimerEvent none eventDel).2, w.log⟩
  | .deleteTimerEvent (some ev) eventDel =>
      if .timerAdded ev ∈ w.log then
        ⟨(w.notifier.deleteTimerEvent (some ev) eventDel).2,
          w.log ++ [.timerDeleted ev]⟩
      else w

/-- After a crash there are no calls. -/
def step (w : World) (c : Call) : World :=
  if w.notifier.crashed then w else w.call c

/-! ## The balance -/

/-- An event object of this kind has an owner: the map, for its signal, or the
    caller, to whom it was returned and who has not deleted it. -/
def Owned (w : World) (id : EventId) : Kind → Prop
  | .signal sig => w.notifier.signalEvents sig = some id
  | .timer => .timerAdded id ∈ w.log ∧ .timerDeleted id ∉ w.log

/-- The call was about this signal. -/
def Act.Concerns (sig : Int) : Act → Prop
  | .signalAdded sig' _ => sig' = sig
  | .signalDeleted sig' => sig' = sig
  | .timerAdded _ => False
  | .timerDeleted _ => False

/-- `ev` is the event of the last successful `AddSignalEvent` for the signal, and
    it has not been deleted since. -/
def LastAdded (log : List Act) (sig : Int) (ev : EventId) : Prop :=
  ∃ pre post, log = pre ++ .signalAdded sig ev :: post
    ∧ ∀ a ∈ post, ¬ a.Concerns sig

/-- **ACCOUNTED**: every object is owned and not freed, or was freed once; the
    map has what the caller registered; nothing was read after it was erased. -/
structure Accounted (w : World) : Prop where
  objects : ∀ id kind, w.notifier.objects[id]? = some kind →
    (Owned w id kind ∧ w.notifier.freed.count id = 0)
      ∨ (¬ Owned w id kind ∧ w.notifier.freed.count id = 1)
  registered : ∀ sig ev,
    w.notifier.signalEvents sig = some ev ↔ LastAdded w.log sig ev
  intact : w.notifier.readErased = false

/-- `event_add` succeeds, a signal that is deleted or registered is not
    registered, and a timer that is deleted has not been deleted. -/
def Careful (w : World) (c : Call) : Prop :=
  w.notifier.crashed = false →
    match c with
    | .addSignalEvent sig evsignalNew eventAdd _ =>
        evsignalNew = true → eventAdd = true ∧ w.notifier.signalEvents sig = none
    | .deleteSignalEvent sig _ => w.notifier.signalEvents sig = none
    | .addTimerEvent eventAdd => eventAdd = true
    | .deleteTimerEvent none _ => True
    | .deleteTimerEvent (some ev) _ =>
        .timerAdded ev ∈ w.log → .timerDeleted ev ∉ w.log

/-! ## What was registered last -/

section

variable {log : List Act} {sig : Int} {ev : EventId}

theorem not_lastAdded_nil : ¬ LastAdded [] sig ev := by
  rintro ⟨pre, post, hlog, -⟩
  cases pre <;> cases hlog

/-- The last call decides, if it was about the signal. -/
theorem lastAdded_snoc {a : Act} :
    LastAdded (log ++ [a]) sig ev
      ↔ a = .signalAdded sig ev ∨ (LastAdded log sig ev ∧ ¬ a.Concerns sig) := by
  constructor
  · rintro ⟨pre, post, hlog, hpost⟩
    rcases concat_split hlog with ⟨-, ha⟩ | ⟨post', hpre⟩
    · exact Or.inl ha.symm
    · rw [hpre, List.append_assoc] at hlog
      have hsplit := List.append_cancel_left hlog
      rw [List.cons_append] at hsplit
      obtain ⟨-, hpost'⟩ := List.cons.inj hsplit
      rw [← hpost'] at hpost
      refine Or.inr ⟨⟨pre, post', hpre, ?_⟩, ?_⟩
      · exact fun b hb => hpost b (List.mem_append_left _ hb)
      · exact hpost a (List.mem_append_right _ (List.mem_singleton_self a))
  · rintro (ha | ⟨⟨pre, post, hlog, hpost⟩, ha⟩)
    · exact ⟨log, [], by rw [ha], fun b hb => absurd hb List.not_mem_nil⟩
    · refine ⟨pre, post ++ [a], ?_, ?_⟩
      · rw [hlog, List.append_assoc, List.cons_append]
      · intro b hb
        rcases List.mem_append.mp hb with hb | hb
        · exact hpost b hb
        · rw [List.mem_singleton.mp hb]
          exact ha

end

/-! ## Careful calls -/

/-- The balance, and that every number in use is that of an object. -/
structure Balanced (w : World) : Prop extends Accounted w where
  signal_known : ∀ sig id, w.notifier.signalEvents sig = some id →
    w.notifier.objects[id]? = some (.signal sig)
  timer_known : ∀ id, .timerAdded id ∈ w.log →
    w.notifier.objects[id]? = some .timer
  deleted_added : ∀ id, .timerDeleted id ∈ w.log → .timerAdded id ∈ w.log
  freed_known : ∀ id ∈ w.notifier.freed, id < w.notifier.objects.length

section

variable {w w' : World}

theorem lt_length_of_getElem? {α : Type} {l : List α} {n : Nat} {a : α}
    (h : l[n]? = some a) : n < l.length :=
  (List.getElem?_eq_some_iff.mp h).1

/-- An object of a longer list is an old one, or the new one. -/
theorem getElem?_concat_iff {α : Type} {l : List α} {a b : α} {n : Nat} :
    (l ++ [a])[n]? = some b ↔ l[n]? = some b ∨ (n = l.length ∧ b = a) := by
  rcases Nat.lt_trichotomy n l.length with hlt | heq | hgt
  · rw [List.getElem?_append_left hlt]
    exact (or_iff_left (fun h => absurd h.1 (Nat.ne_of_lt hlt))).symm
  · subst heq
    simp [eq_comm]
  · have hnone : (l ++ [a])[n]? = none :=
      List.getElem?_eq_none (by rw [List.length_append, List.length_singleton]; omega)
    have hold : l[n]? = none := List.getElem?_eq_none (Nat.le_of_lt hgt)
    rw [hnone, hold]
    simp only [reduceCtorEq, false_or, false_iff, not_and]
    intro heq
    omega

theorem Balanced.count_new (h : Balanced w) :
    w.notifier.freed.count w.notifier.objects.length = 0 :=
  List.count_eq_zero.mpr (fun hmem => Nat.lt_irrefl _ (h.freed_known _ hmem))

/-- A new object with an owner keeps the balance, if those there are keep theirs. -/
theorem Balanced.grow (h : Balanced w) {k : Kind}
    (hobjects : w'.notifier.objects = w.notifier.objects ++ [k])
    (hfreed : w'.notifier.freed = w.notifier.freed)
    (hold : ∀ id kind, w.notifier.objects[id]? = some kind →
      (Owned w' id kind ↔ Owned w id kind))
    (hnew : Owned w' w.notifier.objects.length k) :
    ∀ id kind, w'.notifier.objects[id]? = some kind →
      (Owned w' id kind ∧ w'.notifier.freed.count id = 0)
        ∨ (¬ Owned w' id kind ∧ w'.notifier.freed.count id = 1) := by
  intro id kind hid
  rw [hobjects, getElem?_concat_iff] at hid
  rw [hfreed]
  rcases hid with hid | ⟨hid, hkind⟩
  · rw [hold id kind hid]
    exact h.objects id kind hid
  · rw [hid, hkind]
    exact Or.inl ⟨hnew, h.count_new⟩

/-- **A NEW SIGNAL** is registered. -/
theorem Balanced.signalAdded (h : Balanced w) {sig : Int}
    (hnone : w.notifier.signalEvents sig = none) :
    Balanced ⟨{ w.notifier with
        objects := w.notifier.objects ++ [.signal sig]
        signalEvents := Function.update w.notifier.signalEvents sig
          (some w.notifier.objects.length) },
      w.log ++ [.signalAdded sig w.notifier.objects.length]⟩ := by
  have hlast : ∀ ev, ¬ LastAdded w.log sig ev := by
    intro ev hev
    rw [(h.registered sig ev).mpr hev] at hnone
    cases hnone
  refine ⟨⟨h.grow rfl rfl ?_ ?_, ?_, h.intact⟩, ?_, ?_, ?_, ?_⟩
  · intro id kind hid
    cases kind with
    | signal sig' =>
        show Function.update w.notifier.signalEvents sig _ sig' = some id
          ↔ w.notifier.signalEvents sig' = some id
        by_cases hsig : sig' = sig
        · rw [hsig, Function.update_self, hnone]
          have hne := Nat.ne_of_gt (lt_length_of_getElem? hid)
          exact iff_of_false (fun heq => hne (Option.some.inj heq))
            (fun heq => Option.some_ne_none id heq.symm)
        · rw [Function.update_of_ne hsig]
    | timer => simp [Owned]
  · exact Function.update_self ..
  · intro sig' ev
    show Function.update w.notifier.signalEvents sig _ sig' = some ev ↔ _
    rw [lastAdded_snoc]
    by_cases hsig : sig' = sig
    · rw [hsig, Function.update_self]
      simp [Act.Concerns, eq_comm]
    · rw [Function.update_of_ne hsig, h.registered sig' ev]
      simp [Act.Concerns, Ne.symm hsig]
  · intro sig' id hid
    have hid' : Function.update w.notifier.signalEvents sig
        (some w.notifier.objects.length) sig' = some id := hid
    rw [getElem?_concat_iff]
    by_cases hsig : sig' = sig
    · rw [hsig, Function.update_self] at hid'
      exact Or.inr ⟨(Option.some.inj hid').symm, by rw [hsig]⟩
    · rw [Function.update_of_ne hsig] at hid'
      exact Or.inl (h.signal_known sig' id hid')
  · intro id hid
    rw [getElem?_concat_iff]
    exact Or.inl (h.timer_known id (by simpa using hid))
  · intro id hid
    simpa using h.deleted_added id (by simpa using hid)
  · intro id hid
    rw [List.length_append]
    exact Nat.lt_add_right _ (h.freed_known id hid)

/-- To delete a signal that is not registered changes nothing. -/
theorem Balanced.signalDeleted (h : Balanced w) {sig : Int}
    (hnone : w.notifier.signalEvents sig = none) :
    Balanced ⟨w.notifier, w.log ++ [.signalDeleted sig]⟩ := by
  refine ⟨⟨?_, ?_, h.intact⟩, h.signal_known, ?_, ?_, h.freed_known⟩
  · intro id kind hid
    have howned : Owned ⟨w.notifier, w.log ++ [.signalDeleted sig]⟩ id kind
        ↔ Owned w id kind := by
      cases kind with
      | signal sig' => exact Iff.rfl
      | timer => simp [Owned]
    rw [howned]
    exact h.objects id kind hid
  · intro sig' ev
    rw [lastAdded_snoc, ← h.registered sig' ev]
    by_cases hsig : sig' = sig
    · rw [hsig]
      show w.notifier.signalEvents sig = some ev ↔ _
      simp [hnone]
    · simp [Act.Concerns, Ne.symm hsig]
  · intro id hid
    exact h.timer_known id (by simpa using hid)
  · intro id hid
    simpa using h.deleted_added id (by simpa using hid)

/-- **A NEW TIMER** is its caller's. -/
theorem Balanced.timerAdded (h : Balanced w) :
    Balanced ⟨{ w.notifier with objects := w.notifier.objects ++ [.timer] },
      w.log ++ [.timerAdded w.notifier.objects.length]⟩ := by
  have hdeleted : .timerDeleted w.notifier.objects.length ∉ w.log := by
    intro hmem
    have hlt := lt_length_of_getElem? (h.timer_known _ (h.deleted_added _ hmem))
    exact Nat.lt_irrefl _ hlt
  refine ⟨⟨h.grow rfl rfl ?_ ?_, ?_, h.intact⟩, ?_, ?_, ?_, ?_⟩
  · intro id kind hid
    cases kind with
    | signal sig => exact Iff.rfl
    | timer =>
        have hne := Nat.ne_of_lt (lt_length_of_getElem? hid)
        simp [Owned, hne]
  · refine ⟨List.mem_append_right _ (List.mem_singleton_self _), ?_⟩
    simpa using hdeleted
  · intro sig ev
    rw [lastAdded_snoc, ← h.registered sig ev]
    simp [Act.Concerns]
  · intro sig id hid
    rw [getElem?_concat_iff]
    exact Or.inl (h.signal_known sig id hid)
  · intro id hid
    rw [getElem?_concat_iff]
    rcases List.mem_append.mp hid with hid | hid
    · exact Or.inl (h.timer_known id hid)
    · exact Or.inr ⟨Act.timerAdded.inj (List.mem_singleton.mp hid), rfl⟩
  · intro id hid
    exact List.mem_append_left _ (h.deleted_added id (by simpa using hid))
  · intro id hid
    rw [List.length_append]
    exact Nat.lt_add_right _ (h.freed_known id hid)

/-- **A TIMER** that its caller has is freed. -/
theorem Balanced.timerDeleted (h : Balanced w) {ev : EventId}
    (hadded : .timerAdded ev ∈ w.log) (hdeleted : .timerDeleted ev ∉ w.log) :
    Balanced ⟨{ w.notifier with freed := w.notifier.freed ++ [ev] },
      w.log ++ [.timerDeleted ev]⟩ := by
  have hev := h.timer_known ev hadded
  refine ⟨⟨?_, ?_, h.intact⟩, h.signal_known, ?_, ?_, ?_⟩
  · intro id kind hid
    show (_ ∧ (w.notifier.freed ++ [ev]).count id = 0)
      ∨ (_ ∧ (w.notifier.freed ++ [ev]).count id = 1)
    rw [List.count_append]
    by_cases hne : id = ev
    · subst hne
      have hkind : kind = .timer := Option.some.inj (hid.symm.trans hev)
      subst hkind
      rcases h.objects id .timer hid with ⟨-, hcount⟩ | ⟨hnot, -⟩
      · refine Or.inr ⟨?_, ?_⟩
        · exact fun howned =>
            howned.2 (List.mem_append_right _ (List.mem_singleton_self _))
        · simp [hcount]
      · exact absurd ⟨hadded, hdeleted⟩ hnot
    · have howned : Owned ⟨{ w.notifier with freed := w.notifier.freed ++ [ev] },
          w.log ++ [.timerDeleted ev]⟩ id kind ↔ Owned w id kind := by
        cases kind with
        | signal sig => exact Iff.rfl
        | timer => simp [Owned, hne]
      have hzero : [ev].count id = 0 := by simp [Ne.symm hne]
      rw [howned, hzero, Nat.add_zero]
      exact h.objects id kind hid
  · intro sig ev'
    rw [lastAdded_snoc, ← h.registered sig ev']
    simp [Act.Concerns]
  · intro id hid
    exact h.timer_known id (by simpa using hid)
  · intro id hid
    refine List.mem_append_left _ ?_
    rcases List.mem_append.mp hid with hid | hid
    · exact h.deleted_added id hid
    · rw [Act.timerDeleted.inj (List.mem_singleton.mp hid)]
      exact hadded
  · intro id hid
    rcases List.mem_append.mp hid with hid | hid
    · exact h.freed_known id hid
    · rw [List.mem_singleton.mp hid]
      exact lt_length_of_getElem? hev

theorem deleteSignalEvent_none {n : Notifier} {sig : Int}
    (h : n.signalEvents sig = none) (stale : Option EventId) :
    n.deleteSignalEvent sig stale = (false, n) := by
  rw [Notifier.deleteSignalEvent, h]

theorem deleteSignalEvent_readErased {n : Notifier} {sig : Int}
    (h : n.signalEvents sig ≠ none) (stale : Option EventId) :
    (n.deleteSignalEvent sig stale).2.readErased = true := by
  rw [Notifier.deleteSignalEvent]
  cases hsig : n.signalEvents sig with
  | none => exact absurd hsig h
  | some ev => rfl

/-- **ONE CALL** with care. -/
theorem balanced_step {c : Call} (h : Balanced w) (hc : Careful w c) :
    Balanced (step w c) := by
  rw [step]
  split_ifs with hcrashed
  · exact h
  · have hcare := hc (Bool.eq_false_iff.mpr hcrashed)
    cases c with
    | addSignalEvent sig evsignalNew eventAdd stale =>
        cases evsignalNew with
        | false =>
            exact ⟨⟨h.objects, h.registered, h.intact⟩, h.signal_known,
              h.timer_known, h.deleted_added, h.freed_known⟩
        | true =>
            obtain ⟨hadd, hnone⟩ := hcare rfl
            subst hadd
            have hclear := @deleteSignalEvent_none { w.notifier with
              objects := w.notifier.objects ++ [.signal sig] } sig hnone stale
            simp only [World.call, Notifier.addSignalEvent, if_true, hclear]
            exact h.signalAdded hnone
    | deleteSignalEvent sig stale =>
        rw [World.call, deleteSignalEvent_none hcare]
        exact h.signalDeleted hcare
    | addTimerEvent eventAdd =>
        cases eventAdd with
        | false => cases hcare
        | true => exact h.timerAdded
    | deleteTimerEvent ev eventDel =>
        cases ev with
        | none => exact h
        | some ev =>
            show Balanced (if _ then _ else _)
            split_ifs with hadded
            · exact h.timerDeleted hadded (hcare hadded)
            · exact h

/-- An object without an owner that nothing has freed is lost. -/
theorem not_accounted_of_lost {k : Kind} (h : Balanced w)
    (hobjects : w'.notifier.objects = w.notifier.objects ++ [k])
    (hfreed : w'.notifier.freed = w.notifier.freed)
    (hnew : ¬ Owned w' w.notifier.objects.length k) : ¬ Accounted w' := by
  intro hacc
  have hid : w'.notifier.objects[w.notifier.objects.length]? = some k := by
    rw [hobjects, getElem?_concat_iff]
    exact Or.inr ⟨rfl, rfl⟩
  rcases hacc.objects _ k hid with ⟨howned, -⟩ | ⟨-, hcount⟩
  · exact hnew howned
  · rw [hfreed, h.count_new] at hcount
    exact absurd hcount (by decide)

/-- A timer that its caller has given back is freed a second time. -/
theorem not_accounted_of_twice (h : Balanced w) {ev : EventId}
    (hadded : .timerAdded ev ∈ w.log) (hdeleted : .timerDeleted ev ∈ w.log) :
    ¬ Accounted ⟨{ w.notifier with freed := w.notifier.freed ++ [ev] },
      w.log ++ [.timerDeleted ev]⟩ := by
  intro hacc
  have hev := h.timer_known ev hadded
  have hfreed : w.notifier.freed.count ev = 1 := by
    rcases h.objects ev .timer hev with ⟨howned, -⟩ | ⟨-, hcount⟩
    · exact absurd hdeleted howned.2
    · exact hcount
  have htwo : (w.notifier.freed ++ [ev]).count ev = 2 := by
    rw [List.count_append, hfreed, List.count_singleton_self]
  rcases hacc.objects ev .timer hev with ⟨-, hcount⟩ | ⟨-, hcount⟩
  · exact absurd (htwo.symm.trans hcount) (by decide)
  · exact absurd (htwo.symm.trans hcount) (by decide)

/-- **A CARELESS CALL** shows at once. -/
theorem not_accounted_step {c : Call} (h : Balanced w) (hc : ¬ Careful w c) :
    ¬ Accounted (step w c) := by
  obtain ⟨hcrashed, hcare⟩ := Classical.not_imp.mp hc
  rw [step, if_neg (by rw [hcrashed]; decide)]
  cases c with
  | addSignalEvent sig evsignalNew eventAdd stale =>
      cases evsignalNew with
      | false => exact absurd (fun heq => Bool.noConfusion heq) hcare
      | true =>
          cases eventAdd with
          | false =>
              refine not_accounted_of_lost h rfl rfl ?_
              intro howned
              have hid := h.signal_known sig _ howned
              exact Nat.lt_irrefl _ (lt_length_of_getElem? hid)
          | true =>
              intro hacc
              have hne : w.notifier.signalEvents sig ≠ none :=
                fun hnone => hcare (fun _ => ⟨rfl, hnone⟩)
              have hread := @deleteSignalEvent_readErased { w.notifier with
                objects := w.notifier.objects ++ [.signal sig] } sig hne stale
              exact Bool.false_ne_true (hacc.intact.symm.trans hread)
  | deleteSignalEvent sig stale =>
      intro hacc
      have hread := deleteSignalEvent_readErased hcare stale
      exact Bool.false_ne_true (hacc.intact.symm.trans hread)
  | addTimerEvent eventAdd =>
      cases eventAdd with
      | true => exact absurd rfl hcare
      | false =>
          refine not_accounted_of_lost h rfl rfl ?_
          rintro ⟨hadded, -⟩
          exact Nat.lt_irrefl _ (lt_length_of_getElem? (h.timer_known _ hadded))
  | deleteTimerEvent ev eventDel =>
      cases ev with
      | none => exact absurd trivial hcare
      | some ev =>
          obtain ⟨hadded, hdeleted⟩ := Classical.not_imp.mp hcare
          have hdeleted' := Classical.not_not.mp hdeleted
          show ¬ Accounted (if _ then _ else _)
          rw [if_pos hadded]
          exact not_accounted_of_twice h hadded hdeleted'

theorem balanced_new : Balanced World.new := by
  refine ⟨⟨?_, ?_, rfl⟩, ?_, ?_, ?_, ?_⟩
  · intro id kind hid
    cases hid
  · exact fun sig ev => iff_of_false (fun h => by cases h) not_lastAdded_nil
  · intro sig id hid
    cases hid
  · exact fun _ hid => absurd hid List.not_mem_nil
  · exact fun _ hid => absurd hid List.not_mem_nil
  · exact fun _ hid => absurd hid List.not_mem_nil

end

/-- **OWNERSHIP** holds at every point of a sequence of calls if, and only if, each
    of them is made with care and `event_add` does not fail. -/
theorem accounted_iff (calls : List Call) :
    (∀ pre, pre <+: calls → Accounted (after step World.new pre))
      ↔ EveryEvent (fun pre c => Careful (after step World.new pre) c) calls :=
  (everyEvent_iff_always Balanced Accounted balanced_new
    (fun _ _ h hc => balanced_step h hc) (fun _ h => h.toAccounted)
    (fun _ _ h hc => not_accounted_step h hc) calls).symm

/-! ## A deletion -/

/-- A signal is registered and deleted; the memory of the erased node still has
    the event in it. -/
def addDelete : List Call :=
  [.addSignalEvent 2 true true none, .deleteSignalEvent 2 (some 0)]

/-- The node is read after it has been erased. -/
theorem addDelete_reads_erased :
    ¬ ∀ pre, pre <+: addDelete → Accounted (after step World.new pre) := by
  intro h
  have hread := (h addDelete (List.prefix_refl _)).intact
  exact absurd hread (by decide)

end EventOwnership
