/-
  The daemon scheduler: admission, coalescing by identity, dispatch and completion.

  `DaemonScheduler π ρ` is the state the scheduler keeps under its one condition, for tasks with
  payloads `π` and results `ρ`.  Two parts of it live outside that condition in the program and
  are made explicit here: the tasks handed to the executor whose done-callback has not run yet
  (`in_flight`), and what became of each future (`settled`).  Futures are numbered in the order
  they are made.  Every locked section is one function; whatever it reads from outside (the clock,
  the outcome of a handler) is an argument.

  The invariant everything rests on is `Admitted`: no two tasks that are waiting or in flight
  share an identity, and the active map sends each identity to exactly that task.
-/
import Mathlib.Data.List.Perm.Basic
import Mathlib.Data.Rat.Init
import NuSelf.Lib.Table
import NuSelf.Lib.Text

namespace NuSelf.Daemon

open NuSelf.Lib

/-! ## The state -/

inductive SchedulerPhase where
  | created | running | stopping | stopped
  deriving DecidableEq, Repr

/-- `DaemonTask` with the checks of its `__post_init__`; the runtime context is carried, not read,
    by the scheduler and is left out. -/
structure DaemonTask (π : Type) where
  kind : String
  identity : String
  resource : String
  payload : π
  priority : Int
  kind_nonblank : blank kind = false
  identity_nonblank : blank identity = false
  resource_nonblank : blank resource = false
  deriving DecidableEq

/-- `_QueuedTask`; `completion` is the number of its future. -/
structure QueuedTask (π : Type) where
  task : DaemonTask π
  completion : Nat
  run_at : Rat
  sequence : Nat
  interval_seconds : Option Rat
  deriving DecidableEq

/-- What became of a future. -/
inductive Settlement (ρ : Type) where
  | result (value : ρ)
  | failure (error : String)
  | cancelled
  deriving DecidableEq

structure DaemonScheduler (π ρ : Type) where
  /-- The registered task kinds. -/
  handlers : List String
  max_concurrency : Nat
  queue_capacity : Nat
  pending : List (QueuedTask π)
  active : Table String (QueuedTask π)
  busy_resources : List String
  sequence : Nat
  phase : SchedulerPhase
  last_error : Option String
  /-- Whether the dispatcher thread exists and has not returned. -/
  dispatcher_alive : Bool
  /-- Tasks handed to the executor whose `_complete` has not run yet. -/
  in_flight : List (QueuedTask π)
  /-- The number of the next future. -/
  next_completion : Nat
  settled : List (Nat × Settlement ρ)

inductive SchedulerError where
  | negativeDelay
  | nonpositiveInterval
  | stopped (text : String)
  | unknownKind (kind : String)
  | full
  deriving DecidableEq

variable {π ρ : Type}

namespace DaemonScheduler

/-- `DaemonScheduler(handlers, max_concurrency, queue_capacity)`. -/
def new (handlers : List String) (max_concurrency queue_capacity : Nat) : DaemonScheduler π ρ where
  handlers := handlers
  max_concurrency := max_concurrency
  queue_capacity := queue_capacity
  pending := []
  active := Table.empty
  busy_resources := []
  sequence := 0
  phase := .created
  last_error := none
  dispatcher_alive := false
  in_flight := []
  next_completion := 0
  settled := []

/-! ## The locked sections -/

/-- `start()`. -/
def start (s : DaemonScheduler π ρ) : Except SchedulerError (DaemonScheduler π ρ) :=
  match s.phase with
  | .stopping | .stopped => .error (.stopped "daemon scheduler has already stopped")
  | .running => .ok s
  | .created => .ok { s with phase := .running, dispatcher_alive := true }

/-- Whether admission is open. -/
def accepting (s : DaemonScheduler π ρ) : Bool := s.phase == .created || s.phase == .running

/-- `snapshot().running`. -/
def isRunning (s : DaemonScheduler π ρ) : Bool := s.phase == .running && s.dispatcher_alive

/-- `submit()` past its argument checks, with the clock at `now`: the scheduler after the call and
    the future it returns. -/
def submit (s : DaemonScheduler π ρ) (task : DaemonTask π) (delay_seconds : Rat)
    (interval_seconds : Option Rat) (now : Rat) :
    Except SchedulerError (DaemonScheduler π ρ × Nat) :=
  if delay_seconds < 0 then .error .negativeDelay
  else if interval_seconds.any (fun i => decide (i ≤ 0)) = true then .error .nonpositiveInterval
  else if s.accepting = false then .error (.stopped "daemon scheduler is not accepting tasks")
  else if task.kind ∉ s.handlers then .error (.unknownKind task.kind)
  else
    match s.active.get task.identity with
    | some existing => .ok (s, existing.completion)
    | none =>
      if s.queue_capacity ≤ s.active.rows.length then .error .full
      else
        let queued : QueuedTask π :=
          { task := task, completion := s.next_completion, run_at := now + delay_seconds,
            sequence := s.sequence, interval_seconds := interval_seconds }
        .ok ({ s with
          sequence := s.sequence + 1
          next_completion := s.next_completion + 1
          pending := s.pending ++ [queued]
          active := s.active.set task.identity queued }, s.next_completion)

/-- The order of `_next_runnable_locked`: priority, then run time, then sequence. -/
def runsBefore (a b : QueuedTask π) : Bool :=
  decide (a.task.priority < b.task.priority) ||
    (decide (a.task.priority = b.task.priority) &&
      (decide (a.run_at < b.run_at) ||
        (decide (a.run_at = b.run_at) && decide (a.sequence < b.sequence))))

/-- `min(eligible, key=..., default=None)`: the first least task. -/
def leastTask : List (QueuedTask π) → Option (QueuedTask π)
  | [] => none
  | q :: rest =>
    match leastTask rest with
    | none => some q
    | some r => if runsBefore r q = true then some r else some q

/-- `_next_runnable_locked()` with the clock at `now`. -/
def nextRunnable (s : DaemonScheduler π ρ) (now : Rat) : Option (QueuedTask π) :=
  if s.max_concurrency ≤ s.busy_resources.length then none
  else
    leastTask (s.pending.filter fun q =>
      decide (q.run_at ≤ now) && !s.busy_resources.contains q.task.resource)

/-- One turn of the dispatcher: hand the next runnable task to the executor, leave when the
    scheduler is stopping and idle, otherwise wait. -/
def dispatch [DecidableEq π] (s : DaemonScheduler π ρ) (now : Rat) : DaemonScheduler π ρ :=
  if s.dispatcher_alive = false then s
  else
    match s.nextRunnable now with
    | some queued =>
      { s with
        pending := s.pending.erase queued
        busy_resources := queued.task.resource :: s.busy_resources
        in_flight := queued :: s.in_flight }
    | none =>
      if s.phase = .stopping ∧ s.busy_resources = [] then { s with dispatcher_alive := false }
      else s

/-- `_complete(queued, executed)`: free the resource and the identity, admit the next round of a
    periodic task, settle the future. -/
def complete [DecidableEq π] (s : DaemonScheduler π ρ) (queued : QueuedTask π)
    (executed : Except String ρ) (now : Rat) : DaemonScheduler π ρ :=
  let freed : DaemonScheduler π ρ :=
    { s with
      in_flight := s.in_flight.erase queued
      busy_resources := s.busy_resources.erase queued.task.resource
      active := s.active.erase queued.task.identity
      last_error := match executed with
        | .error error => some (queued.task.kind ++ ":" ++ error)
        | .ok _ => none
      settled := s.settled ++ [(queued.completion, match executed with
        | .error error => .failure error
        | .ok value => .result value)] }
  match queued.interval_seconds with
  | none => freed
  | some interval =>
    if s.phase = .running then
      let repeated : QueuedTask π :=
        { task := queued.task, completion := s.next_completion, run_at := now + interval,
          sequence := s.sequence, interval_seconds := some interval }
      { freed with
        sequence := s.sequence + 1
        next_completion := s.next_completion + 1
        pending := s.pending ++ [repeated]
        active := freed.active.set queued.task.identity repeated }
    else freed

/-- The first locked section of `shutdown(cancel_pending=...)`. -/
def beginShutdown (s : DaemonScheduler π ρ) (cancel_pending : Bool) : DaemonScheduler π ρ :=
  if s.phase = .stopped then s
  else if cancel_pending = true then
    { s with
      phase := .stopping
      pending := []
      active := s.active.keep fun identity =>
        !(s.pending.map fun q => q.task.identity).contains identity
      settled := s.settled ++ s.pending.map fun q => (q.completion, .cancelled) }
  else { s with phase := .stopping }

/-- The last section of `shutdown`, after the join of the dispatcher and of the executor. -/
def endShutdown (s : DaemonScheduler π ρ) : DaemonScheduler π ρ :=
  if s.phase = .stopping ∧ s.dispatcher_alive = false ∧ s.in_flight.isEmpty = true then
    { s with phase := .stopped }
  else s

/-! ## What a section does -/

/-- The tasks that are waiting or in flight. -/
def live (s : DaemonScheduler π ρ) : List (QueuedTask π) := s.pending ++ s.in_flight

/-- How a locked section moves the admitted tasks, up to their order: they stay, a task that `may`
    join joins under a free identity with a new future, or some leave with their identities. -/
inductive Change (may : DaemonTask π → Prop) :
    DaemonScheduler π ρ → DaemonScheduler π ρ → Prop where
  | stay {s s' : DaemonScheduler π ρ} (hlive : s'.live.Perm s.live)
      (hactive : s'.active = s.active) (hnext : s'.next_completion = s.next_completion)
      (hhandlers : s'.handlers = s.handlers) : Change may s s'
  | join {s s' : DaemonScheduler π ρ} (q : QueuedTask π) (hmay : may q.task)
      (hfree : s.active.get q.task.identity = none) (hfuture : q.completion = s.next_completion)
      (hlive : s'.live.Perm (q :: s.live)) (hactive : s'.active = s.active.set q.task.identity q)
      (hnext : s'.next_completion = s.next_completion + 1)
      (hhandlers : s'.handlers = s.handlers) : Change may s s'
  | leave {s s' : DaemonScheduler π ρ} (gone : List (QueuedTask π))
      (hlive : s.live.Perm (gone ++ s'.live))
      (hactive : ∀ identity, s'.active.get identity =
        if identity ∈ gone.map (fun q => q.task.identity) then none else s.active.get identity)
      (hnext : s'.next_completion = s.next_completion)
      (hhandlers : s'.handlers = s.handlers) : Change may s s'
  | andThen {s t s' : DaemonScheduler π ρ} (first : Change may s t) (second : Change may t s') :
      Change may s s'

theorem change_start {may : DaemonTask π → Prop} {s s' : DaemonScheduler π ρ}
    (h : s.start = .ok s') : Change may s s' := by
  unfold start at h
  split at h
  · cases h
  · cases h
  · cases h; exact .stay (List.Perm.refl _) rfl rfl rfl
  · cases h; exact .stay (List.Perm.refl _) rfl rfl rfl

/-- **Inversion of `submit`**: it returns the future of the task already admitted under the
    identity and changes nothing, or it admits the task with a new future. -/
theorem submit_cases {s s' : DaemonScheduler π ρ} {task : DaemonTask π} {delay now : Rat}
    {interval : Option Rat} {c : Nat} (h : s.submit task delay interval now = .ok (s', c)) :
    (∃ existing, s.active.get task.identity = some existing ∧ s' = s ∧ c = existing.completion) ∨
    (s.active.get task.identity = none ∧ c = s.next_completion ∧
      Change (fun t => t = task) s s') := by
  unfold submit at h
  split at h
  · cases h
  split at h
  · cases h
  split at h
  · cases h
  split at h
  · cases h
  split at h
  · rename_i existing hget
    cases h
    exact Or.inl ⟨existing, hget, rfl, rfl⟩
  · rename_i hget
    split at h
    · cases h
    · cases h
      refine Or.inr ⟨hget, rfl, ?_⟩
      refine .join { task := task, completion := s.next_completion, run_at := now + delay,
                     sequence := s.sequence, interval_seconds := interval }
        rfl hget rfl ?_ rfl rfl rfl
      simp only [live, List.append_assoc]
      exact List.perm_middle

theorem change_submit {s s' : DaemonScheduler π ρ} {task : DaemonTask π} {delay now : Rat}
    {interval : Option Rat} {c : Nat} (h : s.submit task delay interval now = .ok (s', c)) :
    Change (fun t => t = task) s s' := by
  rcases submit_cases h with ⟨_, -, rfl, -⟩ | ⟨-, -, hc⟩
  · exact .stay (List.Perm.refl _) rfl rfl rfl
  · exact hc

theorem leastTask_mem : ∀ {l : List (QueuedTask π)} {q : QueuedTask π},
    leastTask l = some q → q ∈ l := by
  intro l
  induction l with
  | nil => intro q h; cases h
  | cons r rest ih =>
    intro q h
    simp only [leastTask] at h
    split at h
    · cases h; exact List.mem_cons_self
    · rename_i r' hr'
      split at h
      · cases h; exact List.mem_cons_of_mem _ (ih hr')
      · cases h; exact List.mem_cons_self

theorem nextRunnable_mem {s : DaemonScheduler π ρ} {now : Rat} {q : QueuedTask π}
    (h : s.nextRunnable now = some q) : q ∈ s.pending := by
  unfold nextRunnable at h
  split at h
  · cases h
  · exact List.mem_of_mem_filter (leastTask_mem h)

theorem change_dispatch [DecidableEq π] {may : DaemonTask π → Prop} (s : DaemonScheduler π ρ)
    (now : Rat) : Change may s (s.dispatch now) := by
  unfold dispatch
  split
  · exact .stay (List.Perm.refl _) rfl rfl rfl
  · split
    · rename_i q hq
      -- the task moves from waiting to in flight
      have hmem : q ∈ s.pending := nextRunnable_mem hq
      refine .stay ?_ rfl rfl rfl
      exact List.perm_middle.trans ((List.perm_cons_erase hmem).symm.append_right _)
    · split <;> exact .stay (List.Perm.refl _) rfl rfl rfl

/-- `complete` frees the identity before the next round of a periodic task takes it again. -/
theorem change_complete [DecidableEq π] {s : DaemonScheduler π ρ} {q : QueuedTask π}
    (hq : q ∈ s.in_flight) (executed : Except String ρ) (now : Rat) :
    Change (fun t => t = q.task) s (s.complete q executed now) := by
  have leaves : ∀ freed : DaemonScheduler π ρ, freed.pending = s.pending →
      freed.in_flight = s.in_flight.erase q → freed.active = s.active.erase q.task.identity →
      freed.next_completion = s.next_completion → freed.handlers = s.handlers →
      Change (fun t => t = q.task) s freed := by
    intro freed hpend hfl hact hnext hhandlers
    have hp : s.live.Perm ([q] ++ freed.live) := by
      rw [live, live, hpend, hfl]
      exact ((List.perm_cons_erase hq).append_left _).trans List.perm_middle
    refine .leave [q] hp (fun identity => ?_) hnext hhandlers
    rw [hact, Table.get_erase]
    simp
  unfold complete
  cases q.interval_seconds with
  | none => exact leaves _ rfl rfl rfl rfl rfl
  | some interval =>
    by_cases hphase : s.phase = .running
    · simp only [if_pos hphase]
      refine .andThen (leaves { s with
        in_flight := s.in_flight.erase q
        active := s.active.erase q.task.identity } rfl rfl rfl rfl rfl) ?_
      refine .join { task := q.task, completion := s.next_completion, run_at := now + interval,
                     sequence := s.sequence, interval_seconds := some interval }
        rfl (by simp) rfl ?_ rfl rfl rfl
      simp only [live, List.append_assoc]
      exact List.perm_middle
    · simp only [if_neg hphase]
      exact leaves _ rfl rfl rfl rfl rfl

theorem change_beginShutdown {may : DaemonTask π → Prop} (s : DaemonScheduler π ρ)
    (cancel_pending : Bool) : Change may s (s.beginShutdown cancel_pending) := by
  unfold beginShutdown
  split
  · exact .stay (List.Perm.refl _) rfl rfl rfl
  · split
    · refine .leave s.pending (List.Perm.refl (s.pending ++ s.in_flight)) (fun identity => ?_) rfl
        rfl
      rw [Table.get_keep]
      by_cases hm : identity ∈ s.pending.map fun q => q.task.identity
      · rw [if_pos hm, if_neg (by simpa using hm)]
      · rw [if_neg hm, if_pos (by simpa using hm)]
    · exact .stay (List.Perm.refl _) rfl rfl rfl

theorem change_endShutdown {may : DaemonTask π → Prop} (s : DaemonScheduler π ρ) :
    Change may s s.endShutdown := by
  unfold endShutdown
  split <;> exact .stay (List.Perm.refl _) rfl rfl rfl

/-! ## The admission invariant -/

/-- One identity, one admitted task, one future: the identities of waiting and in-flight tasks are
    distinct, the active map is the map from identity to task, and so are the futures, all of
    them older than the next one. -/
structure Admitted (s : DaemonScheduler π ρ) : Prop where
  distinct : (s.live.map fun q => q.task.identity).Nodup
  active_iff : ∀ identity q, s.active.get identity = some q ↔
    q ∈ s.live ∧ q.task.identity = identity
  futures : (s.live.map fun q => q.completion).Nodup
  numbered : ∀ q ∈ s.live, q.completion < s.next_completion

theorem admitted_new (handlers : List String) (m c : Nat) :
    Admitted (new handlers m c : DaemonScheduler π ρ) where
  distinct := List.nodup_nil
  active_iff := fun identity q => by simp [new, live]
  futures := List.nodup_nil
  numbered := fun q hq => nomatch hq

theorem Admitted.stay {s s' : DaemonScheduler π ρ} (h : Admitted s) (hlive : s'.live.Perm s.live)
    (hactive : s'.active = s.active) (hnext : s'.next_completion = s.next_completion) :
    Admitted s' where
  distinct := (hlive.map _).nodup_iff.mpr h.distinct
  active_iff := fun identity q => by rw [hactive, h.active_iff, hlive.mem_iff]
  futures := (hlive.map _).nodup_iff.mpr h.futures
  numbered := fun q hq => by rw [hnext]; exact h.numbered q (hlive.mem_iff.mp hq)

theorem Admitted.identity_ne {s : DaemonScheduler π ρ} (h : Admitted s) {identity : String}
    (hfree : s.active.get identity = none) : ∀ r ∈ s.live, r.task.identity ≠ identity := by
  intro r hr hid
  have hget := (h.active_iff identity r).mpr ⟨hr, hid⟩
  rw [hfree] at hget
  cases hget

theorem Admitted.join {s s' : DaemonScheduler π ρ} (h : Admitted s) {q : QueuedTask π}
    (hfree : s.active.get q.task.identity = none) (hfuture : q.completion = s.next_completion)
    (hlive : s'.live.Perm (q :: s.live)) (hactive : s'.active = s.active.set q.task.identity q)
    (hnext : s'.next_completion = s.next_completion + 1) : Admitted s' where
  distinct := by
    refine (hlive.map _).nodup_iff.mpr (List.nodup_cons.mpr ⟨?_, h.distinct⟩)
    intro hm
    obtain ⟨r, hr, hid⟩ := List.mem_map.mp hm
    exact h.identity_ne hfree r hr hid
  active_iff := fun identity r => by
    rw [hactive, Table.get_set, hlive.mem_iff, List.mem_cons]
    by_cases hid : identity = q.task.identity
    · subst hid
      rw [if_pos rfl]
      constructor
      · intro hq
        cases hq
        exact ⟨Or.inl rfl, rfl⟩
      · rintro ⟨rfl | hr, hrid⟩
        · rfl
        · exact absurd hrid (h.identity_ne hfree r hr)
    · rw [if_neg hid, h.active_iff]
      constructor
      · rintro ⟨hr, hrid⟩; exact ⟨Or.inr hr, hrid⟩
      · rintro ⟨rfl | hr, hrid⟩
        · exact absurd hrid.symm hid
        · exact ⟨hr, hrid⟩
  futures := by
    refine (hlive.map _).nodup_iff.mpr (List.nodup_cons.mpr ⟨?_, h.futures⟩)
    intro hm
    obtain ⟨r, hr, hrc⟩ := List.mem_map.mp hm
    have hlt := h.numbered r hr
    have hrc' : r.completion = q.completion := hrc
    omega
  numbered := fun r hr => by
    rcases List.mem_cons.mp (hlive.mem_iff.mp hr) with rfl | hr
    · omega
    · have hlt := h.numbered r hr
      omega

theorem Admitted.leave {s s' : DaemonScheduler π ρ} (h : Admitted s) {gone : List (QueuedTask π)}
    (hlive : s.live.Perm (gone ++ s'.live)) (hactive : ∀ identity, s'.active.get identity =
      if identity ∈ gone.map (fun q => q.task.identity) then none else s.active.get identity)
    (hnext : s'.next_completion = s.next_completion) : Admitted s' := by
  have hnd := (hlive.map fun q => q.task.identity).nodup_iff.mp h.distinct
  have hfut := (hlive.map fun q => q.completion).nodup_iff.mp h.futures
  rw [List.map_append, List.nodup_append'] at hnd hfut
  obtain ⟨-, hnd', hdisj⟩ := hnd
  refine ⟨hnd', fun identity q => ?_, hfut.2.1, fun q hq => ?_⟩
  · rw [hactive]
    by_cases hg : identity ∈ gone.map fun q => q.task.identity
    · rw [if_pos hg]
      constructor
      · intro hq; cases hq
      · rintro ⟨hq, hid⟩
        exact absurd (List.mem_map.mpr ⟨q, hq, hid⟩) (fun hm => hdisj hg hm)
    · rw [if_neg hg, h.active_iff, hlive.mem_iff, List.mem_append]
      constructor
      · rintro ⟨hq | hq, hid⟩
        · exact absurd (List.mem_map.mpr ⟨q, hq, hid⟩) hg
        · exact ⟨hq, hid⟩
      · rintro ⟨hq, hid⟩; exact ⟨Or.inr hq, hid⟩
  · rw [hnext]
    exact h.numbered q (hlive.mem_iff.mpr (List.mem_append_right _ hq))

/-- **Every section keeps the admission invariant.** -/
theorem Admitted.change {may : DaemonTask π → Prop} {s s' : DaemonScheduler π ρ}
    (hc : Change may s s') (h : Admitted s) : Admitted s' := by
  induction hc with
  | stay hlive hactive hnext _ => exact h.stay hlive hactive hnext
  | join q _ hfree hfuture hlive hactive hnext _ =>
    exact h.join hfree hfuture hlive hactive hnext
  | leave gone hlive hactive hnext _ => exact h.leave hlive hactive hnext
  | andThen _ _ ih₁ ih₂ => exact ih₂ (ih₁ h)

/-- **Nothing is admitted that was not submitted**: a fact of all admitted tasks that holds of
    whatever may join survives every section. -/
theorem Change.forall_task {may P : DaemonTask π → Prop} {s s' : DaemonScheduler π ρ}
    (hc : Change may s s') (hmay : ∀ t, may t → P t) (h : ∀ q ∈ s.live, P q.task) :
    ∀ q ∈ s'.live, P q.task := by
  induction hc with
  | stay hlive _ _ _ => exact fun q hq => h q (hlive.mem_iff.mp hq)
  | join q hq _ _ hlive _ _ _ =>
    intro r hr
    rcases List.mem_cons.mp (hlive.mem_iff.mp hr) with rfl | hr
    · exact hmay _ hq
    · exact h r hr
  | leave gone hlive _ _ _ =>
    exact fun q hq => h q (hlive.mem_iff.mpr (List.mem_append_right _ hq))
  | andThen _ _ ih₁ ih₂ => exact ih₂ (ih₁ h)

theorem Change.mono {may may' : DaemonTask π → Prop} {s s' : DaemonScheduler π ρ}
    (hc : Change may s s') (h : ∀ t, may t → may' t) : Change may' s s' := by
  induction hc with
  | stay hlive hactive hnext hhandlers => exact .stay hlive hactive hnext hhandlers
  | join q hq hfree hfuture hlive hactive hnext hhandlers =>
    exact .join q (h _ hq) hfree hfuture hlive hactive hnext hhandlers
  | leave gone hlive hactive hnext hhandlers => exact .leave gone hlive hactive hnext hhandlers
  | andThen _ _ ih₁ ih₂ => exact .andThen ih₁ ih₂

theorem Change.handlers_eq {may : DaemonTask π → Prop} {s s' : DaemonScheduler π ρ}
    (hc : Change may s s') : s'.handlers = s.handlers := by
  induction hc with
  | stay _ _ _ hhandlers => exact hhandlers
  | join _ _ _ _ _ _ _ hhandlers => exact hhandlers
  | leave _ _ _ _ hhandlers => exact hhandlers
  | andThen _ _ ih₁ ih₂ => exact ih₂.trans ih₁

/-- **Whose future a submission gets**: that of the one admitted task with its identity, if there
    is one, and a new one otherwise. -/
theorem submit_future_iff {s s' : DaemonScheduler π ρ} (h : Admitted s) {task : DaemonTask π}
    {delay now : Rat} {interval : Option Rat} {c : Nat}
    (hs : s.submit task delay interval now = .ok (s', c)) {q : QueuedTask π} (hq : q ∈ s.live) :
    q.completion = c ↔ q.task.identity = task.identity := by
  rcases submit_cases hs with ⟨existing, hget, -, rfl⟩ | ⟨hfree, rfl, -⟩
  · obtain ⟨hmem, hid⟩ := (h.active_iff _ _).mp hget
    constructor
    · intro hc
      rw [List.inj_on_of_nodup_map h.futures hq hmem hc, hid]
    · intro hqid
      rw [List.inj_on_of_nodup_map h.distinct hq hmem (hqid.trans hid.symm)]
  · constructor
    · intro hc
      have hlt := h.numbered q hq
      omega
    · intro hqid
      exact absurd hqid (h.identity_ne hfree q hq)

theorem submit_accepting {s s' : DaemonScheduler π ρ} {task : DaemonTask π} {delay now : Rat}
    {interval : Option Rat} {c : Nat} (h : s.submit task delay interval now = .ok (s', c)) :
    s.accepting = true := by
  unfold submit at h
  cases hopen : s.accepting with
  | true => rfl
  | false =>
    rw [hopen] at h
    split at h
    · cases h
    · split at h
      · cases h
      · cases h

/-- While admission is open, an identity that is admitted already answers with its future. -/
theorem submit_coalesces {s : DaemonScheduler π ρ} {task : DaemonTask π} (now : Rat)
    (hopen : s.accepting = true) (hkind : task.kind ∈ s.handlers) {existing : QueuedTask π}
    (hget : s.active.get task.identity = some existing) :
    s.submit task 0 none now = .ok (s, existing.completion) := by
  have hdelay : ¬ (0 : Rat) < 0 := by decide
  unfold submit
  rw [if_neg hdelay, if_neg (by simp), if_neg (by simp [hopen]), if_neg (by simp [hkind])]
  simp only [hget]

end DaemonScheduler
end NuSelf.Daemon
