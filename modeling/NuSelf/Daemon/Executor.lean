/-
  The daemon scheduler with its threads.

  `Daemon.Scheduler` has the locked sections as single steps.  Here they are interleaved with what
  the threads do between them: the dispatcher takes a task under the lock, hands it to the
  executor, and attaches the callback; a worker runs the handler; the callback, in the worker or,
  when the handler was faster, in the dispatcher, frees the task under the lock and settles its
  future afterwards.  Any number of other threads submit, start and shut down in between.

  Every queued occurrence (a submission, and each round of a periodic task) is named by the number
  of its future, and `stage` says how far it has come.

  1. `schedulerStep` — one step of one thread.  The executor's queue is taken from in any order,
     which allows more interleavings than its first-in-first-out queue does.
  2. `complete_eq` — `_complete` of `Daemon.Scheduler` is the locked section and the settling.
  3. `takes_spec`, `submit_admits`, `releases`, `beginShutdown_cases` — what each locked section
     does, said once.
-/
import Mathlib.Algebra.Order.Ring.Unbundled.Rat
import Mathlib.Data.Prod.Lex
import NuSelf.Daemon.Scheduler
import NuSelf.Lib.Run

namespace NuSelf.Daemon

open NuSelf.Lib

variable {π ρ : Type}

/-- What an executed task leaves in the future of its occurrence. -/
def Settlement.of : Except String ρ → Settlement ρ
  | .error error => .failure error
  | .ok value => .result value

namespace DaemonScheduler

/-! ## The halves of `_complete` -/

/-- The locked section of `_complete(queued, executed)`: all of it but the settling. -/
def release [DecidableEq π] (s : DaemonScheduler π ρ) (queued : QueuedTask π)
    (executed : Except String ρ) (now : Rat) : DaemonScheduler π ρ :=
  { s.complete queued executed now with settled := s.settled }

/-- `queued.completion.set_result(result)` or `.set_exception(error)`. -/
def settle (s : DaemonScheduler π ρ) (n : Nat) (executed : Except String ρ) : DaemonScheduler π ρ :=
  { s with settled := s.settled ++ [(n, .of executed)] }

/-- The futures that the first section of `shutdown` cancels. -/
def cancels (s : DaemonScheduler π ρ) (cancel_pending : Bool) : List Nat :=
  if s.phase = .stopped then []
  else if cancel_pending = true then s.pending.map fun q => q.completion
  else []

/-- What the dispatcher takes when it looks with the clock at `now`. -/
def takes (s : DaemonScheduler π ρ) (now : Rat) : Option (QueuedTask π) :=
  if s.dispatcher_alive = false then none else s.nextRunnable now

theorem complete_eq [DecidableEq π] (s : DaemonScheduler π ρ) (q : QueuedTask π)
    (executed : Except String ρ) (now : Rat) :
    s.complete q executed now = (s.release q executed now).settle q.completion executed := by
  unfold settle release complete
  cases executed <;> cases q.interval_seconds <;> simp only [Settlement.of] <;> split <;> rfl

end DaemonScheduler

/-! ## The threads -/

/-- How far a queued occurrence has come. -/
inductive TaskStage (ρ : Type) where
  /-- In `pending`, or not made yet. -/
  | waiting
  /-- Taken by the dispatcher, not handed to the executor. -/
  | taken
  /-- In the executor's queue. -/
  | submitted
  /-- A worker runs the handler. -/
  | running
  /-- The executor's future is finished; `_complete` has not entered its locked section. -/
  | executed (outcome : Except String ρ)
  /-- `_complete` has left its locked section. -/
  | released (outcome : Except String ρ)
  /-- The occurrence's own future is done. -/
  | settled

namespace TaskStage

/-- Taken, and not freed by `_complete`. -/
def inFlight : TaskStage ρ → Bool
  | taken | submitted | running | executed _ => true
  | waiting | released _ | settled => false

/-- The handler may have been called. -/
def begun : TaskStage ρ → Bool
  | running | executed _ | released _ | settled => true
  | waiting | taken | submitted => false

/-- No thread has anything left to do for the occurrence. -/
def atRest : TaskStage ρ → Bool
  | waiting | settled => true
  | taken | submitted | running | executed _ | released _ => false

end TaskStage

/-- Where the dispatcher thread is. -/
inductive DispatcherPoint where
  /-- At the lock: looking for a task, or waiting. -/
  | loop
  /-- Before `self._executor.submit(self._run, queued.task)`. -/
  | handing (n : Nat)
  /-- Before `future.add_done_callback(...)`. -/
  | attaching (n : Nat)
  /-- In `_complete`, which it calls itself when the task was executed before the callback came. -/
  | completing (n : Nat)
  deriving DecidableEq

structure SchedulerThreads (π ρ : Type) where
  sched : DaemonScheduler π ρ
  dispatcher : DispatcherPoint
  /-- By the number of the occurrence's future. -/
  stage : Nat → TaskStage ρ
  /-- Whether the callback is left to the worker. -/
  attached : Nat → Bool
  /-- The occurrences whose handler has been called, in the order of the calls. -/
  runs : List Nat
  /-- The futures that `submit` has returned. -/
  returned : List Nat

inductive SchedulerInput (π ρ : Type) where
  | start
  | submit (task : DaemonTask π) (delay_seconds : Rat) (interval_seconds : Option Rat) (now : Rat)
  /-- The dispatcher looks for a task: it takes one, leaves, or waits. -/
  | dispatch (now : Rat)
  | handOver
  | attach
  /-- A worker takes an occurrence from the executor's queue and calls its handler. -/
  | beginHandler (n : Nat)
  | finishHandler (n : Nat) (outcome : Except String ρ)
  | release (n : Nat) (now : Rat)
  | settle (n : Nat)
  /-- The first section of a `shutdown` call. -/
  | shutdown (cancel_pending : Bool)
  /-- The last section of a `shutdown` call, once its joins have succeeded. -/
  | finishShutdown

inductive SchedulerReport (π : Type) where
  | silent
  | rejected (error : SchedulerError)
  | future (n : Nat)
  | dispatched (queued : QueuedTask π)

namespace SchedulerThreads

/-- `DaemonScheduler(handlers, max_concurrency, queue_capacity)`, before any thread. -/
def new (handlers : List String) (max_concurrency queue_capacity : Nat) : SchedulerThreads π ρ where
  sched := .new handlers max_concurrency queue_capacity
  dispatcher := .loop
  stage := fun _ => .waiting
  attached := fun _ => false
  runs := []
  returned := []

def setStage (s : SchedulerThreads π ρ) (n : Nat) (x : TaskStage ρ) : Nat → TaskStage ρ :=
  fun m => if m = n then x else s.stage m

/-- Whether a thread is in, or will call, `_complete` for the occurrence. -/
def completes (s : SchedulerThreads π ρ) (n : Nat) : Bool :=
  s.attached n || decide (s.dispatcher = .completing n)

/-- The executor has run everything it was handed, callbacks included, so that the join of its
    workers succeeds. -/
def drained (s : SchedulerThreads π ρ) : Bool :=
  (List.range s.sched.next_completion).all fun n => (s.stage n).atRest

end SchedulerThreads

open SchedulerThreads in
/-- One step of one thread.  A step that its thread cannot make does nothing. -/
def schedulerStep [DecidableEq π] (s : SchedulerThreads π ρ) :
    SchedulerInput π ρ → SchedulerThreads π ρ × SchedulerReport π
  | .start =>
    match s.sched.start with
    | .error e => (s, .rejected e)
    | .ok sched => ({ s with sched := sched }, .silent)
  | .submit task delay_seconds interval_seconds now =>
    match s.sched.submit task delay_seconds interval_seconds now with
    | .error e => (s, .rejected e)
    | .ok (sched, n) => ({ s with sched := sched, returned := s.returned ++ [n] }, .future n)
  | .dispatch now =>
    if s.dispatcher = .loop then
      match s.sched.takes now with
      | some queued =>
        ({ s with
          sched := s.sched.dispatch now
          dispatcher := .handing queued.completion
          stage := s.setStage queued.completion .taken }, .dispatched queued)
      | none => ({ s with sched := s.sched.dispatch now }, .silent)
    else (s, .silent)
  | .handOver =>
    match s.dispatcher with
    | .handing n =>
      ({ s with dispatcher := .attaching n, stage := s.setStage n .submitted }, .silent)
    | _ => (s, .silent)
  | .attach =>
    match s.dispatcher with
    | .attaching n =>
      match s.stage n with
      | .executed _ => ({ s with dispatcher := .completing n }, .silent)
      | _ =>
        ({ s with
          dispatcher := .loop
          attached := fun m => decide (m = n) || s.attached m }, .silent)
    | _ => (s, .silent)
  | .beginHandler n =>
    match s.stage n with
    | .submitted => ({ s with stage := s.setStage n .running, runs := s.runs ++ [n] }, .silent)
    | _ => (s, .silent)
  | .finishHandler n outcome =>
    match s.stage n with
    | .running => ({ s with stage := s.setStage n (.executed outcome) }, .silent)
    | _ => (s, .silent)
  | .release n now =>
    if s.completes n = true then
      match s.stage n, s.sched.in_flight.find? fun q => decide (q.completion = n) with
      | .executed outcome, some queued =>
        ({ s with
          sched := s.sched.release queued outcome now
          stage := s.setStage n (.released outcome) }, .silent)
      | _, _ => (s, .silent)
    else (s, .silent)
  | .settle n =>
    if s.completes n = true then
      match s.stage n with
      | .released outcome =>
        ({ s with
          sched := s.sched.settle n outcome
          stage := s.setStage n .settled
          dispatcher := if s.dispatcher = .completing n then .loop else s.dispatcher }, .silent)
      | _ => (s, .silent)
    else (s, .silent)
  | .shutdown cancel_pending =>
    ({ s with
      sched := s.sched.beginShutdown cancel_pending
      stage := fun m =>
        if m ∈ s.sched.cancels cancel_pending then .settled else s.stage m }, .silent)
  | .finishShutdown =>
    if s.drained = true then ({ s with sched := s.sched.endShutdown }, .silent) else (s, .silent)

/-! ## The order of the runnable tasks -/

/-- The sort key `(priority, run_at, sequence)`. -/
def QueuedTask.key (q : QueuedTask π) : ℤ ×ₗ ℚ ×ₗ ℕ :=
  toLex (q.task.priority, toLex (q.run_at, q.sequence))

namespace DaemonScheduler

theorem runsBefore_iff (a b : QueuedTask π) : runsBefore a b = true ↔ a.key < b.key := by
  simp only [runsBefore, QueuedTask.key, Prod.Lex.toLex_lt_toLex, Bool.or_eq_true,
    Bool.and_eq_true, decide_eq_true_eq]

theorem leastTask_least : ∀ {l : List (QueuedTask π)} {q : QueuedTask π},
    leastTask l = some q → ∀ r ∈ l, q.key ≤ r.key := by
  intro l
  induction l with
  | nil => intro q h; cases h
  | cons a rest ih =>
    intro q h r hr
    rw [leastTask] at h
    split at h
    · rename_i hnone
      -- only an empty rest has no least task
      have hrest : rest = [] := by
        cases rest with
        | nil => rfl
        | cons b rest =>
          rw [leastTask] at hnone
          split at hnone
          · cases hnone
          · split at hnone <;> cases hnone
      subst hrest
      obtain rfl := Option.some.inj h
      obtain rfl := List.mem_singleton.mp hr
      exact le_rfl
    · rename_i least hleast
      split at h
      · rename_i hbefore
        obtain rfl := Option.some.inj h
        rcases List.mem_cons.mp hr with rfl | hr
        · exact le_of_lt ((runsBefore_iff _ _).mp hbefore)
        · exact ih hleast r hr
      · rename_i hbefore
        obtain rfl := Option.some.inj h
        rcases List.mem_cons.mp hr with rfl | hr
        · exact le_rfl
        · have hle : a.key ≤ least.key :=
            not_lt.mp fun hlt => hbefore ((runsBefore_iff _ _).mpr hlt)
          exact hle.trans (ih hleast r hr)

/-- A waiting task that the dispatcher may take with the clock at `now`. -/
def Runnable (s : DaemonScheduler π ρ) (now : Rat) (q : QueuedTask π) : Prop :=
  q ∈ s.pending ∧ q.run_at ≤ now ∧ q.task.resource ∉ s.busy_resources

/-- **What the dispatcher takes** is the first of the runnable tasks, while a slot is free. -/
theorem takes_spec {s : DaemonScheduler π ρ} {now : Rat} {q : QueuedTask π}
    (h : s.takes now = some q) :
    s.dispatcher_alive = true ∧ s.busy_resources.length < s.max_concurrency ∧
      s.Runnable now q ∧ ∀ r, s.Runnable now r → q.key ≤ r.key := by
  unfold takes at h
  split at h
  · cases h
  · rename_i halive
    unfold nextRunnable at h
    split at h
    · cases h
    · rename_i hfree
      have hrunnable : ∀ r, r ∈ (s.pending.filter fun q =>
          decide (q.run_at ≤ now) && !s.busy_resources.contains q.task.resource) ↔
          s.Runnable now r := by
        intro r
        simp only [List.mem_filter, Bool.and_eq_true, decide_eq_true_eq, Bool.not_eq_true',
          Runnable]
        rw [← Bool.not_eq_true, List.contains_iff_mem]
      refine ⟨by simpa using halive, by omega, (hrunnable q).mp (leastTask_mem h), fun r hr => ?_⟩
      exact leastTask_least h r ((hrunnable r).mpr hr)

/-! ## What a section leaves -/

theorem dispatch_some [DecidableEq π] {s : DaemonScheduler π ρ} {now : Rat} {q : QueuedTask π}
    (h : s.takes now = some q) :
    s.dispatch now = { s with
      pending := s.pending.erase q
      busy_resources := q.task.resource :: s.busy_resources
      in_flight := q :: s.in_flight } := by
  unfold takes at h
  unfold dispatch
  split at h
  · cases h
  · rename_i halive
    rw [if_neg halive, h]

theorem dispatch_none [DecidableEq π] {s : DaemonScheduler π ρ} {now : Rat}
    (h : s.takes now = none) :
    s.dispatch now = s ∨ s.dispatch now = { s with dispatcher_alive := false } := by
  unfold takes at h
  unfold dispatch
  split
  · exact Or.inl rfl
  · rename_i halive
    rw [if_neg halive] at h
    rw [h]
    dsimp only
    split
    · exact Or.inr rfl
    · exact Or.inl rfl

/-- `s'` is `s` with the occurrence `r` admitted: it waits, under the next number. -/
structure Admits (s : DaemonScheduler π ρ) (r : QueuedTask π) (s' : DaemonScheduler π ρ) :
    Prop where
  number : r.completion = s.next_completion
  pending : s'.pending = s.pending ++ [r]
  next : s'.next_completion = s.next_completion + 1

/-- The slots and the capacity do not change. -/
structure SameBounds (s s' : DaemonScheduler π ρ) : Prop where
  slots : s'.max_concurrency = s.max_concurrency
  capacity : s'.queue_capacity = s.queue_capacity

/-- A submission returns the future of the task already admitted under the identity, or it admits
    one more task while there is room. -/
theorem submit_admits {s s' : DaemonScheduler π ρ} {task : DaemonTask π} {delay now : Rat}
    {interval : Option Rat} {n : Nat} (h : s.submit task delay interval now = .ok (s', n)) :
    (∃ existing, s.active.get task.identity = some existing ∧ s' = s ∧ n = existing.completion) ∨
    (n = s.next_completion ∧ ∃ r, s.Admits r s' ∧ s.SameBounds s' ∧
      s.active.keys.length < s.queue_capacity ∧ s'.in_flight = s.in_flight ∧
      s'.busy_resources = s.busy_resources ∧ s'.settled = s.settled) := by
  unfold submit at h
  split at h
  · cases h
  split at h
  · cases h
  split at h
  · cases h
  split at h
  · cases h
  split at h
  · rename_i existing hget
    obtain ⟨rfl, rfl⟩ := Prod.mk.inj (Except.ok.inj h)
    exact Or.inl ⟨existing, hget, rfl, rfl⟩
  · split at h
    · cases h
    · rename_i hroom
      obtain ⟨rfl, rfl⟩ := Prod.mk.inj (Except.ok.inj h)
      have hroom' : s.active.keys.length < s.queue_capacity := by
        rw [Table.keys, List.length_map]
        omega
      exact Or.inr ⟨rfl, _, ⟨rfl, rfl, rfl⟩, ⟨rfl, rfl⟩, hroom', rfl, rfl, rfl⟩

/-- **What the locked section of `_complete` leaves**: the task is no longer in flight and its
    resource no longer held; a periodic task waits for its next round. -/
structure Releases [DecidableEq π] (s : DaemonScheduler π ρ) (q : QueuedTask π)
    (s' : DaemonScheduler π ρ) : Prop where
  bounds : s.SameBounds s'
  in_flight : s'.in_flight = s.in_flight.erase q
  busy : s'.busy_resources = s.busy_resources.erase q.task.resource
  settled : s'.settled = s.settled
  waits : (s'.pending = s.pending ∧ s'.next_completion = s.next_completion) ∨
    (s.phase = .running ∧ ∃ r, s.Admits r s')

theorem releases [DecidableEq π] (s : DaemonScheduler π ρ) (q : QueuedTask π)
    (executed : Except String ρ) (now : Rat) : s.Releases q (s.release q executed now) := by
  unfold release complete
  cases q.interval_seconds with
  | none => exact ⟨⟨rfl, rfl⟩, rfl, rfl, rfl, Or.inl ⟨rfl, rfl⟩⟩
  | some interval =>
    dsimp only
    split
    · rename_i hphase
      exact ⟨⟨rfl, rfl⟩, rfl, rfl, rfl, Or.inr ⟨hphase, _, rfl, rfl, rfl⟩⟩
    · exact ⟨⟨rfl, rfl⟩, rfl, rfl, rfl, Or.inl ⟨rfl, rfl⟩⟩

theorem beginShutdown_cases (s : DaemonScheduler π ρ) (cancel_pending : Bool) :
    (s.cancels cancel_pending = [] ∧ ∃ phase, s.beginShutdown cancel_pending =
      { s with phase := phase }) ∨
    (s.cancels cancel_pending = s.pending.map (fun q => q.completion) ∧
      (s.beginShutdown cancel_pending).pending = [] ∧
      (s.beginShutdown cancel_pending).in_flight = s.in_flight ∧
      (s.beginShutdown cancel_pending).busy_resources = s.busy_resources ∧
      (s.beginShutdown cancel_pending).next_completion = s.next_completion ∧
      (s.beginShutdown cancel_pending).settled =
        s.settled ++ s.pending.map (fun q => (q.completion, .cancelled)) ∧
      s.SameBounds (s.beginShutdown cancel_pending)) := by
  unfold cancels beginShutdown
  by_cases hstopped : s.phase = .stopped
  · rw [if_pos hstopped, if_pos hstopped]
    exact Or.inl ⟨rfl, s.phase, rfl⟩
  · rw [if_neg hstopped, if_neg hstopped]
    cases cancel_pending with
    | false => exact Or.inl ⟨rfl, .stopping, rfl⟩
    | true => exact Or.inr ⟨rfl, rfl, rfl, rfl, rfl, rfl, ⟨rfl, rfl⟩⟩

end DaemonScheduler

end NuSelf.Daemon
