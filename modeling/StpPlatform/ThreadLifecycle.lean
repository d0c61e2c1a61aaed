import Mathlib.Data.List.Count
import StpPlatform.LabelledRun
import StpPlatform.Thread

/-! # The life of a `Thread`

    `Lifecycle` is what `Start` and `Stop` are for: every created thread is
    joined once, nothing else is joined, and `Start` tells whether there is a
    thread.  `lifecycle_iff` says which runs have it: those in which
    `pthread_create` never fails, and the owner starts and stops in turn
    (`Handled`).

    Up to the first event that is not handled, a run is `Tracked`: the owner
    knows from the two flags and its own place whether there is a thread.  From
    then on it is `Fated`, and it stays so until the destructor has ended. -/

namespace ThreadLifecycle

open LabelledRun StpThread

/-! ## What the calls are for -/

/-- What is joined was created and has not been joined since. -/
def JoinOwned (pre : List Act) (a : Act) : Prop :=
  ∀ id, a = .joined id → pre.count (.joined id) < pre.count (.created id)

/-- Nothing has gone wrong yet. -/
structure Sound (s : World) : Prop where
  joins : EveryEvent JoinOwned s.log
  starts : ∀ created, .startReturned true created ∈ s.log → created = true

/-- **LIFECYCLE**: only unjoined threads are joined, all of them when the
    destructor ends, and `Start` is true of created threads only. -/
structure Lifecycle (s : World) : Prop extends Sound s where
  settled : s.pc = .done →
    ∀ id, s.log.count (.joined id) = s.log.count (.created id)

/-- `pthread_create` succeeds, `Start` finds no thread that was not joined, and
    `Stop` finds one. -/
def Handled (s : World) : Event → Prop
  | .call .start => True
  | .call .stop => s.pc = .idle → ¬ s.NoThread
  | .call .destruct => s.pc = .idle → s.stoped = false → ¬ s.NoThread
  | .go => s.pc = .starting → s.running = false → s.NoThread
  | .create r => s.pc = .creating → ∃ id, r = .ok id
  | .enter _ => True
  | .leave _ => True

/-! ## The log -/

section

variable {s t : World}

/-- What went wrong stays in the log. -/
theorem Sound.of_prefix (h : Sound t) (hpre : s.log <+: t.log) : Sound s :=
  ⟨h.joins.of_prefix hpre, fun created hmem => h.starts created (hpre.subset hmem)⟩

theorem joinOwned_created (pre : List Act) (id : ThreadId) :
    JoinOwned pre (.created id) := by
  intro id' h
  cases h

theorem joinOwned_startReturned (pre : List Act) (ret created : Bool) :
    JoinOwned pre (.startReturned ret created) := by
  intro id' h
  cases h

/-- `1` for a thread that was created and not joined. -/
def live (children : ThreadId → Option Phase) (id : ThreadId) : Nat :=
  if children id = none then 0 else 1

theorem live_none {children : ThreadId → Option Phase} {id : ThreadId}
    (h : children id = none) : live children id = 0 := if_pos h

/-- A thread counts once, whatever it is doing. -/
theorem live_some {children : ThreadId → Option Phase} {id : ThreadId}
    (h : children id ≠ none) : live children id = 1 := if_neg h

/-- What happens to one thread is not counted for another. -/
theorem live_other (children : ThreadId → Option Phase) {id id' : ThreadId}
    (h : id' ≠ id) (v : Option Phase) :
    live (Function.update children id v) id' = live children id' := by
  rw [live, Function.update_of_ne h, live]

/-- The ids are no null pointers, and while every join is of a thread the log
    says which threads there are. -/
structure Base (s : World) : Prop where
  nonzero : ∀ id, s.children id ≠ none → id ≠ 0
  ledger : EveryEvent JoinOwned s.log → ∀ id,
    s.log.count (.created id) = s.log.count (.joined id) + live s.children id

/-! ## Steps of the threads -/

/-- The owner sees no difference, and the same threads are there. -/
structure Alike (s t : World) : Prop where
  log : t.log = s.log
  pc : t.pc = s.pc
  stoped : t.stoped = s.stoped
  pthreadId : t.pthreadId = s.pthreadId
  children : ∀ id, t.children id = none ↔ s.children id = none

theorem alike_update {id : ThreadId} {phase phase' : Phase} {running : Bool}
    (h : s.children id = some phase) :
    Alike s { s with
      running := running
      children := Function.update s.children id (some phase') } := by
  refine ⟨rfl, rfl, rfl, rfl, ?_⟩
  intro id'
  show Function.update s.children id (some phase') id' = none ↔ _
  -- the thread that moves was there and is there
  by_cases hid : id' = id
  · rw [hid, Function.update_self, h]
    exact iff_of_false (Option.some_ne_none _) (Option.some_ne_none _)
  · rw [Function.update_of_ne hid]

theorem alike_refl (s : World) : Alike s s := ⟨rfl, rfl, rfl, rfl, fun _ => Iff.rfl⟩

/-- A thread that begins to run is the thread it was. -/
theorem alike_enter (s : World) (id : ThreadId) : Alike s (step s (.enter id)) := by
  rw [step]
  split_ifs with h
  · exact alike_update h
  · exact alike_refl s

/-- One that has returned is there until it is joined. -/
theorem alike_leave (s : World) (id : ThreadId) : Alike s (step s (.leave id)) := by
  rw [step]
  split_ifs with h
  · exact alike_update h
  · exact alike_refl s

theorem Alike.noThread (h : Alike s t) : t.NoThread ↔ s.NoThread :=
  forall_congr' h.children

/-- The threads' own steps keep the ledger. -/
theorem Alike.base (h : Alike s t) (hs : Base s) : Base t := by
  refine ⟨?_, ?_⟩
  · intro id hid
    exact hs.nonzero id (fun hnone => hid ((h.children id).mpr hnone))
  · intro hjoins id
    rw [h.log] at hjoins ⊢
    rw [hs.ledger hjoins id, live, live]
    simp only [h.children id]

theorem Alike.sound (h : Alike s t) (hs : Sound s) : Sound t :=
  hs.of_prefix (⟨[], by rw [List.append_nil, h.log]⟩)

/-! ## Steps of the owner -/

/-- The owner leaves the threads and the id alone. -/
structure Quiet (s t : World) : Prop where
  children : t.children = s.children
  pthreadId : t.pthreadId = s.pthreadId
  log : t.log = s.log ∨ t.log = s.log ++ [.startReturned false false]

/-- A call only moves the owner to the body of the function. -/
theorem quiet_call (s : World) (c : Call) : Quiet s (s.call c) := by
  cases c with
  | start => exact ⟨rfl, rfl, Or.inl rfl⟩
  | stop => exact ⟨rfl, rfl, Or.inl rfl⟩
  | destruct =>
      rw [World.call]
      split_ifs
      · exact ⟨rfl, rfl, Or.inl rfl⟩
      · exact ⟨rfl, rfl, Or.inl rfl⟩

/-- Every step inside a call but `pthread_join` is quiet. -/
theorem quiet_go (hpc : ∀ dtor, s.pc ≠ .joining dtor) : Quiet s s.go := by
  rw [World.go]
  cases h : s.pc with
  | idle => exact ⟨rfl, rfl, Or.inl rfl⟩
  | starting =>
      show Quiet s (if _ then _ else _)
      split_ifs
      · exact ⟨rfl, rfl, Or.inr rfl⟩
      · exact ⟨rfl, rfl, Or.inl rfl⟩
  | setting => exact ⟨rfl, rfl, Or.inl rfl⟩
  | creating => exact ⟨rfl, rfl, Or.inl rfl⟩
  | waiting dtor i =>
      show Quiet s (if _ then _ else _)
      split_ifs
      · exact ⟨rfl, rfl, Or.inl rfl⟩
      · exact ⟨rfl, rfl, Or.inl rfl⟩
  | joining dtor => exact absurd h (hpc dtor)
  | clearing dtor => exact ⟨rfl, rfl, Or.inl rfl⟩
  | done => exact ⟨rfl, rfl, Or.inl rfl⟩

/-- The owner's next step: outside `pthread_join` it is quiet, and there it waits
    for a thread or joins. -/
inductive GoCase (s : World) : Prop where
  | quiet (hpc : ∀ dtor, s.pc ≠ .joining dtor) (hq : Quiet s s.go)
  | waits (hgo : s.go = s) (hthread : s.children s.pthreadId ≠ none)
  | joins (dtor : Bool) (hpc : s.pc = .joining dtor) (hgo : s.go = s.join dtor)

theorem go_cases (s : World) : GoCase s := by
  by_cases hj : ∃ dtor, s.pc = .joining dtor
  · obtain ⟨dtor, hpc⟩ := hj
    -- in `pthread_join` it depends on what the thread is doing
    have hgo : s.go = s ∧ s.children s.pthreadId ≠ none ∨ s.go = s.join dtor := by
      rw [World.go]
      cases s.children s.pthreadId with
      | none => simp only [hpc, or_true]
      | some phase => cases phase <;> simp [hpc]
    rcases hgo with ⟨hgo, hthread⟩ | hgo
    · exact .waits hgo hthread
    · exact .joins dtor hpc hgo
  · have hpc : ∀ dtor, s.pc ≠ .joining dtor := fun dtor hpc => hj ⟨dtor, hpc⟩
    exact .quiet hpc (quiet_go hpc)

theorem join_self (s : World) (dtor : Bool) :
    (s.join dtor).children s.pthreadId = none :=
  Function.update_self ..

theorem join_other (s : World) (dtor : Bool) {id : ThreadId}
    (h : id ≠ s.pthreadId) : (s.join dtor).children id = s.children id :=
  Function.update_of_ne h ..

/-- To return from `Start` without a thread changes nothing that is counted. -/
theorem Base.startReturned (h : Base s) {ret created : Bool}
    (hch : t.children = s.children)
    (hlog : t.log = s.log ++ [.startReturned ret created]) : Base t := by
  refine ⟨?_, ?_⟩
  · rw [hch]
    exact h.nonzero
  · intro hjoins id
    rw [hlog] at hjoins ⊢
    have hcount := h.ledger hjoins.init id
    rw [hch]
    simpa using hcount

/-- Quiet steps keep the ledger. -/
theorem Base.quiet (h : Base s) (hq : Quiet s t) : Base t := by
  rcases hq.log with hlog | hlog
  · refine ⟨?_, ?_⟩
    · rw [hq.children]
      exact h.nonzero
    · rw [hq.children, hlog]
      exact h.ledger
  · exact h.startReturned hq.children hlog

/-- **JOINED** is entered against **CREATED**, as long as the join was of a
    thread. -/
theorem Base.join (h : Base s) (dtor : Bool) : Base (s.join dtor) := by
  refine ⟨?_, ?_⟩
  · intro id hid
    by_cases hpid : id = s.pthreadId
    · rw [hpid] at hid
      exact absurd (join_self s dtor) hid
    · rw [join_other s dtor hpid] at hid
      exact h.nonzero id hid
  · intro hjoins id
    -- the join itself must have been of a thread
    have hlog : EveryEvent JoinOwned (s.log ++ [.joined s.pthreadId]) := hjoins
    have hcount := h.ledger hlog.init id
    show (s.log ++ [Act.joined s.pthreadId]).count (.created id)
      = (s.log ++ [Act.joined s.pthreadId]).count (.joined id)
        + live (s.join dtor).children id
    rw [List.count_append, List.count_append]
    by_cases hpid : id = s.pthreadId
    · -- the thread that is joined was there
      have howned := hlog.last id (congrArg Act.joined hpid.symm)
      have hlive : live s.children id ≤ 1 := by
        rw [live]
        split_ifs <;> omega
      rw [← hpid, live_none (hpid ▸ join_self s dtor)]
      simp
      omega
    · have hne : Act.joined s.pthreadId ≠ .joined id :=
        fun heq => hpid (Act.joined.inj heq).symm
      rw [live, join_other s dtor hpid, ← live, hcount]
      simp [hne]

theorem Base.created (h : Base s) {id : ThreadId} (hid : id ≠ 0)
    (hfresh : s.children id = none) (ret : Bool) : Base { s with
      pthreadId := id
      pc := .idle
      children := Function.update s.children id (some .created)
      log := s.log ++ [.created id, .startReturned ret true] } := by
  refine ⟨?_, ?_⟩
  · intro id' hid'
    -- the new thread, or one that was there before
    by_cases heq : id' = id
    · rw [heq]
      exact hid
    · refine h.nonzero id' ?_
      intro hnone
      refine hid' ?_
      show Function.update s.children id _ id' = none
      rw [Function.update_of_ne heq, hnone]
  · intro hjoins id'
    have hcount := h.ledger (hjoins.of_prefix (List.prefix_append ..)) id'
    show (s.log ++ [Act.created id, .startReturned ret true]).count (.created id')
      = (s.log ++ [Act.created id, .startReturned ret true]).count (.joined id')
        + live (Function.update s.children id (some .created)) id'
    rw [List.count_append, List.count_append]
    by_cases heq : id' = id
    · rw [heq] at hcount ⊢
      rw [live_none hfresh] at hcount
      rw [live_some (by rw [Function.update_self]; exact Option.some_ne_none _)]
      simp
      omega
    · have hne : Act.created id ≠ .created id' :=
        fun h => heq (Act.created.inj h).symm
      rw [live_other _ heq, hcount]
      simp [hne]

/-- The owner's steps keep the ledger. -/
theorem Base.go (h : Base s) : Base s.go := by
  cases go_cases s with
  | quiet _ hq => exact h.quiet hq
  | waits hgo _ =>
      rw [hgo]
      exact h
  | joins dtor _ hgo =>
      rw [hgo]
      exact h.join dtor

/-- `pthread_create` keeps it, whether it succeeds or not. -/
theorem Base.create (h : Base s) (r : Created) : Base (s.create r) := by
  cases r with
  | ok id =>
      rw [World.create]
      split_ifs with hfresh
      · exact h.created hfresh.1 hfresh.2 _
      · exact h
  | error errno hpos junk => exact h.startReturned rfl rfl

/-- **THE LEDGER** is kept by every step. -/
theorem base_step (h : Base s) (e : Event) : Base (step s e) := by
  cases e with
  | call c =>
      rw [step]
      split_ifs
      · exact h.quiet (quiet_call s c)
      · exact h
  | go => exact h.go
  | create r =>
      rw [step]
      split_ifs
      · exact h.create r
      · exact h
  | enter id => exact (alike_enter s id).base h
  | leave id => exact (alike_leave s id).base h

/-! ## Runs in which every event is handled -/

/-- What the owner may count on, by where it is. -/
def Expected (s : World) : Prop :=
  match s.pc with
  | .idle => s.stoped = true → s.NoThread
  | .starting => s.stoped = true → s.NoThread
  | .setting => s.NoThread
  | .creating => s.NoThread ∧ s.stoped = false
  | .waiting _ _ => ¬ s.NoThread
  | .joining _ => ¬ s.NoThread
  | .clearing _ => s.NoThread
  | .done => s.NoThread

/-- At most one thread is there, its id is in `pthread_id_`, and the owner is
    right about it. -/
structure Tracked (s : World) : Prop where
  base : Base s
  sound : Sound s
  only : ∀ id, s.children id ≠ none → id = s.pthreadId
  expected : Expected s

/-- A quiet step does nothing wrong. -/
theorem Sound.quiet (h : Sound s) (hq : Quiet s t) : Sound t := by
  rcases hq.log with hlog | hlog
  · exact h.of_prefix ⟨[], by rw [List.append_nil, hlog]⟩
  · refine ⟨?_, ?_⟩
    · rw [hlog]
      exact h.joins.snoc (joinOwned_startReturned _ _ _)
    · intro created hmem
      rw [hlog] at hmem
      rcases List.mem_append.mp hmem with hmem | hmem
      · exact h.starts created hmem
      · cases List.mem_singleton.mp hmem

/-- The owner goes on and leaves the threads alone. -/
theorem Tracked.move (h : Tracked s) (hq : Quiet s t) (hexp : Expected t) :
    Tracked t := by
  refine ⟨h.base.quiet hq, h.sound.quiet hq, ?_, hexp⟩
  rw [hq.children, hq.pthreadId]
  exact h.only

/-- If there is a thread it is the one whose id the owner has. -/
theorem Tracked.thread (h : Tracked s) (hthread : ¬ s.NoThread) :
    s.children s.pthreadId ≠ none := by
  intro hnone
  refine hthread ?_
  intro id
  by_contra hid
  rw [h.only id hid] at hid
  exact hid hnone

/-- A call that is handled finds what it expects. -/
theorem Tracked.call (h : Tracked s) {c : Call} (hpc : s.pc = .idle)
    (hc : Handled s (.call c)) : Tracked (s.call c) := by
  refine h.move (quiet_call s c) ?_
  have hidle : s.stoped = true → s.NoThread := by
    have hexp := h.expected
    rw [Expected, hpc] at hexp
    exact hexp
  cases c with
  | start => exact hidle
  | stop => exact hc hpc
  | destruct =>
      rw [World.call]
      split_ifs with hstoped
      · exact hidle hstoped
      · exact hc hpc ((Bool.not_eq_true _).mp hstoped)

/-- The owner waited for its one thread, and there is none now. -/
theorem Tracked.join (h : Tracked s) (hthread : s.children s.pthreadId ≠ none)
    (dtor : Bool) : Tracked (s.join dtor) := by
  -- there was only the one
  have hnone : (s.join dtor).NoThread := by
    intro id
    by_cases hid : id = s.pthreadId
    · rw [hid, join_self]
    · rw [join_other s dtor hid]
      by_contra hlive
      exact hid (h.only id hlive)
  refine ⟨h.base.join dtor, ⟨?_, ?_⟩, ?_, hnone⟩
  · refine h.sound.joins.snoc ?_
    intro id hid
    cases hid
    -- so it was created once more often than joined
    have hcount := h.base.ledger h.sound.joins s.pthreadId
    rw [live_some hthread] at hcount
    omega
  · intro created hmem
    rcases List.mem_append.mp hmem with hmem | hmem
    · exact h.sound.starts created hmem
    · cases List.mem_singleton.mp hmem
  · intro id hid
    exact absurd (hnone id) hid

/-- The owner's own steps keep it right about the thread. -/
theorem expected_go (hexp : Expected s) (hgo : Handled s .go)
    (hpc : ∀ dtor, s.pc ≠ .joining dtor) : Expected s.go := by
  rw [World.go]
  rw [Expected] at hexp
  cases h : s.pc with
  | idle => simpa only [Expected, h] using hexp
  | starting =>
      simp only [h] at hexp
      show Expected (if _ then _ else _)
      split_ifs with hrun
      · exact hexp
      · -- `Start` goes on only where it found no thread
        exact hgo h ((Bool.not_eq_true _).mp hrun)
  | setting =>
      simp only [h] at hexp
      exact ⟨hexp, rfl⟩
  | creating => simpa only [Expected, h] using hexp
  | waiting dtor i =>
      simp only [h] at hexp
      show Expected (if _ then _ else _)
      split_ifs
      · exact hexp
      · exact hexp
  | joining dtor => exact absurd h (hpc dtor)
  | clearing dtor =>
      simp only [h] at hexp
      cases dtor with
      | false => exact fun _ => hexp
      | true => exact hexp
  | done => simpa only [Expected, h] using hexp

/-- The owner's own step. -/
theorem Tracked.go (h : Tracked s) (hgo : Handled s .go) : Tracked s.go := by
  cases go_cases s with
  | quiet hpc hq => exact h.move hq (expected_go h.expected hgo hpc)
  | waits hs _ =>
      rw [hs]
      exact h
  | joins dtor hpc hs =>
      have hexp := h.expected
      rw [Expected, hpc] at hexp
      rw [hs]
      exact h.join (h.thread hexp) dtor

/-- A thread that was created is the only one: `Start` looked for that. -/
theorem Tracked.create (h : Tracked s) {r : Created} (hpc : s.pc = .creating)
    (hr : Handled s (.create r)) : Tracked (s.create r) := by
  obtain ⟨id, hid⟩ := hr hpc
  subst hid
  have hexp := h.expected
  rw [Expected, hpc] at hexp
  obtain ⟨hnone, hstoped⟩ := hexp
  have hbase := h.base.create (.ok id)
  rw [World.create] at hbase ⊢
  split_ifs at hbase ⊢ with hfresh
  · refine ⟨hbase, ⟨?_, ?_⟩, ?_, ?_⟩
    · -- two entries: created, and returned
      show EveryEvent JoinOwned (s.log ++ ([.created id] ++ [.startReturned _ true]))
      rw [← List.append_assoc]
      exact (h.sound.joins.snoc (joinOwned_created _ _)).snoc
        (joinOwned_startReturned _ _ _)
    · intro created hmem
      rcases List.mem_append.mp hmem with hmem | hmem
      · exact h.sound.starts created hmem
      · simp at hmem
        exact hmem.2
    · intro id' hid'
      by_contra hne
      refine hid' ?_
      show Function.update s.children id _ id' = none
      rw [Function.update_of_ne hne, hnone id']
    · -- `Start` has taken `stoped_` back
      intro htrue
      exact absurd (hstoped.symm.trans htrue) Bool.false_ne_true
  · exact h

theorem Alike.tracked (h : Alike s t) (hs : Tracked s) : Tracked t := by
  refine ⟨h.base hs.base, h.sound hs.sound, ?_, ?_⟩
  · intro id hid
    rw [h.pthreadId]
    exact hs.only id (fun hnone => hid ((h.children id).mpr hnone))
  · have hexp := hs.expected
    rw [Expected] at hexp ⊢
    rw [h.pc]
    simp only [h.stoped, h.noThread]
    exact hexp

/-- **ONE STEP** that is handled. -/
theorem tracked_step {e : Event} (h : Tracked s) (he : Handled s e) :
    Tracked (step s e) := by
  cases e with
  | call c =>
      rw [step]
      split_ifs with hpc
      · exact h.call hpc he
      · exact h
  | go => exact h.go he
  | create r =>
      rw [step]
      split_ifs with hpc
      · exact h.create hpc he
      · exact h
  | enter id => exact (alike_enter s id).tracked h
  | leave id => exact (alike_leave s id).tracked h

/-! ## Runs in which one is not -/

/-- The owner waits for a thread in `Stop`. -/
def InStop : Pc → Bool
  | .waiting _ _ => true
  | .joining _ => true
  | .idle => false
  | .starting => false
  | .setting => false
  | .creating => false
  | .clearing _ => false
  | .done => false

/-- It has gone wrong, or it will: a thread whose id is lost is not joined any
    more, and a call of `Stop` without a thread joins something else. -/
inductive Fated (s : World) : Prop where
  | unsound (h : ¬ Sound s)
  | lost (id : ThreadId) (hlive : s.children id ≠ none)
      (hlost : s.pthreadId ≠ id ∨ s.pc = .setting ∨ s.pc = .creating)
  | absent (hpc : InStop s.pc = true) (hnone : s.children s.pthreadId = none)

/-- The threads cannot put it right. -/
theorem Alike.fated (h : Alike s t) (hs : Fated s) : Fated t := by
  cases hs with
  | unsound hs => exact .unsound (fun ht => hs (ht.of_prefix ⟨[], by simp [h.log]⟩))
  | lost id hlive hlost =>
      refine .lost id (fun hnone => hlive ((h.children id).mp hnone)) ?_
      rw [h.pthreadId, h.pc]
      exact hlost
  | absent hpc hnone =>
      refine .absent ?_ ?_
      · rw [h.pc]
        exact hpc
      · rw [h.pthreadId]
        exact (h.children _).mpr hnone

/-- An error number is positive, and `Start` looks for a negative one. -/
theorem create_error_unsound (s : World) {errno : Nat} (hpos : 0 < errno)
    (junk : ThreadId) : ¬ Sound (s.create (.error errno hpos junk)) := by
  intro hsound
  -- `ret < 0` is false of an error number, and `Start` returns true
  have hret : decide (¬ (errno : Int) < 0) = true := by
    rw [decide_eq_true_eq]
    omega
  have hmem : Act.startReturned true false
      ∈ (s.create (.error errno hpos junk)).log := by
    show _ ∈ s.log ++ [Act.startReturned (decide (¬ (errno : Int) < 0)) false]
    rw [hret]
    exact List.mem_append_right _ (List.mem_singleton_self _)
  exact Bool.false_ne_true (hsound.starts false hmem)

/-- **THE FALL**: an event that is not handled decides the run. -/
theorem fated_of_not_handled {e : Event} (he : ¬ Handled s e) :
    Fated (step s e) := by
  cases e with
  | call c =>
      cases c with
      | start => exact absurd trivial he
      | stop =>
          obtain ⟨hpc, hnone⟩ := Classical.not_imp.mp he
          rw [step, if_pos hpc]
          -- `Stop` will join what is in `pthread_id_`
          exact .absent rfl (Classical.not_not.mp hnone _)
      | destruct =>
          obtain ⟨hpc, hrest⟩ := Classical.not_imp.mp he
          obtain ⟨hstoped, hnone⟩ := Classical.not_imp.mp hrest
          rw [step, if_pos hpc, World.call, if_neg (by rw [hstoped]; decide)]
          exact .absent rfl (Classical.not_not.mp hnone _)
  | go =>
      obtain ⟨hpc, hrest⟩ := Classical.not_imp.mp he
      obtain ⟨hrun, hthread⟩ := Classical.not_imp.mp hrest
      obtain ⟨id, hlive⟩ := Classical.not_forall.mp hthread
      rw [step, World.go]
      simp only [hpc, hrun]
      -- `Start` is about to overwrite the id of a thread that is there
      exact .lost id hlive (Or.inr (Or.inl rfl))
  | create r =>
      obtain ⟨hpc, herr⟩ := Classical.not_imp.mp he
      rw [step, if_pos hpc]
      cases r with
      | ok id => exact absurd ⟨id, rfl⟩ herr
      | error errno hpos junk => exact .unsound (create_error_unsound s hpos junk)
  | enter id => exact absurd trivial he
  | leave id => exact absurd trivial he

/-- A lost id stays lost while the owner leaves the id alone. -/
theorem Quiet.lost (hq : Quiet s t) {id : ThreadId} (hlive : s.children id ≠ none)
    (hid : s.pthreadId ≠ id) : Fated t := by
  refine .lost id ?_ (Or.inl ?_)
  · rw [hq.children]
    exact hlive
  · rw [hq.pthreadId]
    exact hid

/-- No call helps: the owner does not look for lost threads. -/
theorem Fated.call (h : Fated s) (hpc : s.pc = .idle) (c : Call) :
    Fated (s.call c) := by
  cases h with
  | unsound hs =>
      have hpre := log_grows s (.call c)
      rw [step, if_pos hpc] at hpre
      exact .unsound (fun ht => hs (ht.of_prefix hpre))
  | lost id hlive hlost =>
      rcases hlost with hid | hset | hcr
      · exact (quiet_call s c).lost hlive hid
      · exact absurd (hpc.symm.trans hset) (by decide)
      · exact absurd (hpc.symm.trans hcr) (by decide)
  | absent hpc' _ =>
      rw [hpc] at hpc'
      cases hpc'

/-- To join what is not a thread is unsound. -/
theorem Base.join_unsound (h : Base s) (hnone : s.children s.pthreadId = none)
    (dtor : Bool) : ¬ Sound (s.join dtor) := by
  intro hsound
  have hlog : EveryEvent JoinOwned (s.log ++ [.joined s.pthreadId]) := hsound.joins
  have hcount := h.ledger hlog.init s.pthreadId
  rw [live_none hnone] at hcount
  have howned := hlog.last s.pthreadId rfl
  omega

/-- A thread whose id is lost is not the one that is joined. -/
theorem Base.join_lost (h : Base s) {id : ThreadId} (hlive : s.children id ≠ none)
    (hid : s.pthreadId ≠ id) (dtor : Bool) : Fated (s.join dtor) := by
  -- a join sets the id to `0`, which is no thread's
  refine .lost id ?_ (Or.inl (h.nonzero id hlive).symm)
  rw [join_other s dtor (Ne.symm hid)]
  exact hlive

/-- Nothing inside a call puts it right; a join without a thread shows at once. -/
theorem Fated.go (hbase : Base s) (h : Fated s) : Fated s.go := by
  cases h with
  | unsound hs => exact .unsound (fun ht => hs (ht.of_prefix (log_grows s .go)))
  | lost id hlive hlost =>
      rcases hlost with hid | hset | hcr
      · cases go_cases s with
        | quiet _ hq => exact hq.lost hlive hid
        | waits hgo _ =>
            rw [hgo]
            exact .lost id hlive (Or.inl hid)
        | joins dtor _ hgo =>
            rw [hgo]
            exact hbase.join_lost hlive hid dtor
      · rw [World.go]
        simp only [hset]
        exact .lost id hlive (Or.inr (Or.inr rfl))
      · rw [World.go]
        simp only [hcr]
        exact .lost id hlive (Or.inr (Or.inr hcr))
  | absent hstop hnone =>
      cases go_cases s with
      | quiet hpc _ =>
          cases h : s.pc with
          | waiting dtor i =>
              -- from here on the id is overwritten
              rw [World.go]
              simp only [h]
              split_ifs
              · exact .absent rfl hnone
              · exact .absent rfl hnone
          | joining dtor => exact absurd h (hpc dtor)
          | _ =>
              rw [h] at hstop
              cases hstop
      | waits _ hthread => exact absurd hnone hthread
      | joins dtor _ hgo =>
          rw [hgo]
          exact .unsound (hbase.join_unsound hnone dtor)

/-- A further thread takes the place of the lost one's id. -/
theorem Fated.create (h : Fated s) (hpc : s.pc = .creating) (r : Created) :
    Fated (s.create r) := by
  cases h with
  | unsound hs =>
      have hpre := log_grows s (.create r)
      rw [step, if_pos hpc] at hpre
      exact .unsound (fun ht => hs (ht.of_prefix hpre))
  | lost id hlive hlost =>
      cases r with
      | ok id' =>
          rw [World.create]
          split_ifs with hfresh
          · -- the new id is none that is in use
            have hne : id ≠ id' := by
              intro heq
              rw [heq] at hlive
              exact hlive hfresh.2
            refine .lost id ?_ (Or.inl (Ne.symm hne))
            show Function.update s.children id' _ id ≠ none
            rw [Function.update_of_ne hne]
            exact hlive
          · exact .lost id hlive hlost
      | error errno hpos junk => exact .unsound (create_error_unsound s hpos junk)
  | absent hpc' _ =>
      rw [hpc] at hpc'
      cases hpc'

/-- **NO RECOVERY**. -/
theorem fated_step (hbase : Base s) (h : Fated s) (e : Event) : Fated (step s e) := by
  cases e with
  | call c =>
      rw [step]
      split_ifs with hpc
      · exact h.call hpc c
      · exact h
  | go => exact h.go hbase
  | create r =>
      rw [step]
      split_ifs with hpc
      · exact h.create hpc r
      · exact h
  | enter id => exact (alike_enter s id).fated h
  | leave id => exact (alike_leave s id).fated h

/-- When the destructor ends it shows. -/
theorem Fated.not_lifecycle (hbase : Base s) (h : Fated s) (hpc : s.pc = .done) :
    ¬ Lifecycle s := by
  intro hlife
  cases h with
  | unsound hs => exact hs hlife.toSound
  | lost id hlive _ =>
      -- the lost thread was created and not joined
      have hcount := hbase.ledger hlife.joins id
      have hsettled := hlife.settled hpc id
      rw [live_some hlive] at hcount
      omega
  | absent hpc' _ =>
      rw [hpc] at hpc'
      cases hpc'

/-- All has gone well so far, and at the end no thread is left. -/
theorem Tracked.lifecycle (h : Tracked s) : Lifecycle s := by
  refine ⟨h.sound, ?_⟩
  intro hpc id
  have hcount := h.base.ledger h.sound.joins id
  have hexp := h.expected
  rw [Expected, hpc] at hexp
  rw [live_none (hexp id)] at hcount
  omega

/-- An object that was just constructed has no thread. -/
theorem tracked_new (junk : ThreadId) : Tracked (World.new junk) := by
  refine ⟨⟨?_, ?_⟩, ⟨EveryEvent.nil, ?_⟩, ?_, ?_⟩
  · exact fun id hid => absurd rfl hid
  · exact fun _ _ => rfl
  · exact fun _ hmem => absurd hmem List.not_mem_nil
  · exact fun id hid => absurd rfl hid
  · exact fun _ _ => rfl

/-- Every run is handled throughout, or decided. -/
theorem tracked_or_fated (junk : ThreadId) (es : List Event) :
    (EveryEvent (fun pre e => Handled (after step (World.new junk) pre) e) es
        ∧ Tracked (after step (World.new junk) es))
      ∨ (Base (after step (World.new junk) es)
        ∧ Fated (after step (World.new junk) es)) := by
  refine good_or_bad_after Tracked (fun s => Base s ∧ Fated s) (tracked_new junk)
    ?_ ?_ ?_ es
  · exact fun s e hs he => tracked_step hs he
  · -- one event that is not handled is enough, wherever it comes
    exact fun s e hs he => ⟨base_step hs.base e, fated_of_not_handled he⟩
  · exact fun s e hs => ⟨base_step hs.1 e, fated_step hs.1 hs.2 e⟩

end

/-- **LIFECYCLE**: it holds at every point of a run in which every event is
    handled, and at the end of no other. -/
theorem lifecycle_iff (junk : ThreadId) (es : List Event) :
    (EveryEvent (fun pre e => Handled (after step (World.new junk) pre) e) es →
        ∀ pre, pre <+: es → Lifecycle (after step (World.new junk) pre))
      ∧ ((after step (World.new junk) es).pc = .done →
        Lifecycle (after step (World.new junk) es) →
        EveryEvent (fun pre e => Handled (after step (World.new junk) pre) e) es) := by
  refine ⟨?_, ?_⟩
  · intro hes pre hpre
    have htracked : Tracked (after step (World.new junk) pre) :=
      invariant_after Tracked (tracked_new junk) (fun _ _ hs he => tracked_step hs he)
        (hes.of_prefix hpre)
    exact htracked.lifecycle
  · intro hpc hlife
    rcases tracked_or_fated junk es with ⟨hes, -⟩ | ⟨hbase, hfated⟩
    · exact hes
    · exact absurd hlife (hfated.not_lifecycle hbase hpc)

/-- `main` of `tests/thread_test.cc`: the thread ends while `Stop` waits. -/
def oneThread : List Event :=
  [.call .start, .go, .go, .create (.ok 7), .enter 7, .call .stop, .go, .leave 7, .go,
    .go, .go, .call .destruct]

/-- Each of the twelve events is handled. -/
theorem handled_oneThread :
    EveryEvent (fun pre e => Handled (after step (World.new 0) pre) e) oneThread := by
  refine EveryEvent.snoc (EveryEvent.snoc (EveryEvent.snoc (EveryEvent.snoc
    (EveryEvent.snoc (EveryEvent.snoc (EveryEvent.snoc (EveryEvent.snoc
      (EveryEvent.snoc (EveryEvent.snoc (EveryEvent.snoc (EveryEvent.snoc EveryEvent.nil
        ?_) ?_) ?_) ?_) ?_) ?_) ?_) ?_) ?_) ?_) ?_) ?_
  · trivial
  · exact fun _ _ _ => rfl
  · exact fun hpc => absurd hpc (by decide)
  · exact fun _ => ⟨7, rfl⟩
  · trivial
  · exact fun _ hnone => absurd (hnone 7) (by decide)
  · exact fun hpc => absurd hpc (by decide)
  · trivial
  · exact fun hpc => absurd hpc (by decide)
  · exact fun hpc => absurd hpc (by decide)
  · exact fun hpc => absurd hpc (by decide)
  · exact fun _ hstoped => absurd hstoped (by decide)

/-- The program of the test comes to its end. -/
theorem lifecycle_iff_oneThread :
    (after step (World.new 0) oneThread).pc = .done
      ∧ Lifecycle (after step (World.new 0) oneThread) :=
  ⟨by decide, (lifecycle_iff 0 oneThread).1 handled_oneThread _ (List.prefix_refl _)⟩

/-! ## A thread that was never created -/

/-- `pthread_create` has no more resources: `EAGAIN`. -/
def noThread : List Event :=
  [.call .start, .go, .go, .create (.error 11 (by decide) 0)]

/-- `Start` returns true. -/
theorem noThread_started : ¬ Lifecycle (after step (World.new 0) noThread) := by
  intro h
  have hmem : Act.startReturned true false
      ∈ (after step (World.new 0) noThread).log := by decide
  exact Bool.false_ne_true (h.starts false hmem)

end ThreadLifecycle
