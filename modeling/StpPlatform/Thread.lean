import Mathlib.Data.List.Basic
import Mathlib.Logic.Function.Basic

/-! # `class Thread` (`stputil/thread`)

    A `Thread` object and the threads that it creates.  The owner calls `Start`
    and `Stop`, one after the other, and ends the object's life; a thread that
    was created runs `ThreadFunc` at its own pace.  `running_` is written by
    both, and the wait in `Stop` polls it.  What passes between the object and
    the threads is logged. -/

namespace StpThread

/-- `pthread_t`. -/
abbrev ThreadId : Type := Nat

/-- How far a created thread is in `ThreadFunc`. -/
inductive Phase where
  | created
  | entered
  | exited
  deriving DecidableEq

/-- Where the owner is.  `dtor` marks the call of `Stop` in the destructor. -/
inductive Pc where
  | idle
  | starting
  | setting
  | creating
  | waiting (dtor : Bool) (i : Nat)
  | joining (dtor : Bool)
  | clearing (dtor : Bool)
  | done
  deriving DecidableEq

/-- What the owner did at the interface of the threads and at its own. -/
inductive Act where
  | created (id : ThreadId)
  | joined (id : ThreadId)
  | startReturned (ret created : Bool)
  deriving DecidableEq

/-- The object, the owner, the threads that were created and not joined, and the
    log. -/
structure World where
  running : Bool
  stoped : Bool
  pthreadId : ThreadId
  pc : Pc
  children : ThreadId → Option Phase
  log : List Act

/-- `Thread::Thread(name)`: `pthread_id_` is not initialised. -/
def World.new (junk : ThreadId) : World :=
  ⟨false, false, junk, .idle, fun _ => none, []⟩

/-! ## The calls -/

/-- The outcome of `pthread_create`: a thread, or an error number.  After an
    error `pthread_id_` may hold anything. -/
inductive Created where
  | ok (id : ThreadId)
  | error (errno : Nat) (hpos : 0 < errno) (junk : ThreadId)

def Created.ret : Created → Int
  | .ok _ => 0
  | .error errno _ _ => errno

/-- A call by the thread's owner. -/
inductive Call where
  | start
  | stop
  | destruct

/-- A call, a step inside one, or a step of a thread. -/
inductive Event where
  | call (c : Call)
  | go
  | create (r : Created)
  | enter (id : ThreadId)
  | leave (id : ThreadId)

/-- `Start()`, `Stop()` or `~Thread()` begins. -/
def World.call (s : World) : Call → World
  | .start => { s with pc := .starting }
  | .stop => { s with stoped := true, pc := .waiting false 0 }
  | .destruct =>
      if s.stoped then { s with pc := .done }
      else { s with stoped := true, pc := .waiting true 0 }

/-- `pthread_join(pthread_id_, NULL)` and the `memset` after it. -/
def World.join (s : World) (dtor : Bool) : World :=
  { s with
    pthreadId := 0
    pc := .clearing dtor
    children := Function.update s.children s.pthreadId none
    log := s.log ++ [.joined s.pthreadId] }

/-- The owner's next step in a call. -/
def World.go (s : World) : World :=
  match s.pc with
  | .starting =>
      if s.running then
        { s with pc := .idle, log := s.log ++ [.startReturned false false] }
      else { s with pc := .setting }
  | .setting => { s with running := true, stoped := false, pc := .creating }
  | .waiting dtor i =>
      if s.running ∧ i < 30 then { s with pc := .waiting dtor (i + 1) }
      else { s with pc := .joining dtor }
  | .joining dtor =>
      match s.children s.pthreadId with
      -- waits for the thread to end
      | some .created => s
      | some .entered => s
      | some .exited => s.join dtor
      | none => s.join dtor
  | .clearing dtor =>
      { s with running := false, pc := if dtor then .done else .idle }
  | .idle => s
  | .creating => s
  | .done => s

/-- `pthread_create(&pthread_id_, NULL, &Thread::ThreadFunc, this)`, and the
    return from `Start` after it.  A new thread has the id of no other. -/
def World.create (s : World) (r : Created) : World :=
  match r with
  | .ok id =>
      if id ≠ 0 ∧ s.children id = none then
        { s with
          pthreadId := id
          pc := .idle
          children := Function.update s.children id (some .created)
          log := s.log ++ [.created id, .startReturned (¬ r.ret < 0) true] }
      else s
  | .error _ _ junk =>
      { s with
        pthreadId := junk
        pc := .idle
        log := s.log ++ [.startReturned (¬ r.ret < 0) false] }

/-- One step.  An event that is not possible changes nothing. -/
def step (s : World) : Event → World
  | .call c => if s.pc = .idle then s.call c else s
  | .go => s.go
  | .create r => if s.pc = .creating then s.create r else s
  | .enter id =>
      if s.children id = some .created then
        { s with
          running := true
          children := Function.update s.children id (some .entered) }
      else s
  | .leave id =>
      if s.children id = some .entered then
        { s with
          running := false
          children := Function.update s.children id (some .exited) }
      else s

/-- No thread is left unjoined. -/
def World.NoThread (s : World) : Prop := ∀ id, s.children id = none

/-- Nothing is taken out of the log. -/
theorem log_grows (s : World) (e : Event) : s.log <+: (step s e).log := by
  cases e with
  | call c =>
      rw [step]
      split_ifs
      · cases c with
        | start => exact List.prefix_refl _
        | stop => exact List.prefix_refl _
        | destruct =>
            rw [World.call]
            split_ifs <;> exact List.prefix_refl _
      · exact List.prefix_refl _
  | go =>
      rw [step, World.go]
      split
      · split_ifs
        · exact List.prefix_append ..
        · exact List.prefix_refl _
      · exact List.prefix_refl _
      · split_ifs <;> exact List.prefix_refl _
      · split
        · exact List.prefix_refl _
        · exact List.prefix_refl _
        · exact List.prefix_append ..
        · exact List.prefix_append ..
      · exact List.prefix_refl _
      · exact List.prefix_refl _
      · exact List.prefix_refl _
      · exact List.prefix_refl _
  | create r =>
      rw [step]
      split_ifs
      · cases r with
        | ok id =>
            rw [World.create]
            split_ifs
            · exact List.prefix_append ..
            · exact List.prefix_refl _
        | error errno hpos junk => exact List.prefix_append ..
      · exact List.prefix_refl _
  | enter id =>
      rw [step]
      split_ifs <;> exact List.prefix_refl _
  | leave id =>
      rw [step]
      split_ifs <;> exact List.prefix_refl _

end StpThread
