/-
  Reason exports under the daemon scheduler: whether a wake-up is lost.

  A wake-up of an export is a task whose identity names the job, the thread and an attempt number:
  0 for a planned job and for every reconciliation, and the number of the next attempt for a retry.
  The task keeps its identity until `_complete`, so while `process` runs, what it asks for under
  its own identity is answered with its own future and is lost.

  A retry never is: its number is above every number the job has been given (`ExportInv`).  A
  reconciliation that the first wake-up of a job asks for always is.

  1. `submit_with_room` — a submission to a running scheduler with room left.
  2. `exportInv_step` — no task of the job has a number above the next attempt.
  3. `keeps_step_iff`, `wakeup_lost_iff` — a wake-up of the job is left after `process` exactly when
     the one that ended does not lose it.
-/
import Mathlib.Algebra.Group.Nat.Defs
import NuSelf.Daemon.Chat
import NuSelf.Reason.Export

namespace NuSelf.Daemon

open NuSelf.Lib NuSelf.Reason

variable {ρ : Type}

/-! ## The tasks of one job -/

/-- The task of a wake-up with this attempt number. -/
def exportTask (thread_id job_id : String) (attempt : Nat) : DaemonTask TaskPayload :=
  (DaemonWork.reasonExport job_id thread_id (toString attempt) 0).task

/-- The task that `_schedule_reason_export` submits for a message. -/
def messageTask (message : JobMessage) : DaemonTask TaskPayload :=
  exportTask message.resource_id message.job_id message.attempt

/-- Whether a task is a wake-up of the job. -/
def wakesJob (thread_id job_id : String) (task : DaemonTask TaskPayload) : Bool :=
  match task.payload with
  | .job job resource _ => decide (job = job_id ∧ resource = thread_id)
  | _ => false

/-- A task of something else than the job. -/
structure Foreign (thread_id job_id : String) (task : DaemonTask TaskPayload) : Prop where
  elsewhere : wakesJob thread_id job_id task = false
  apart : ∀ attempt, task.identity ≠ (exportTask thread_id job_id attempt).identity

theorem exportTask_identity_iff {thread_id job_id : String} {m n : Nat} :
    (exportTask thread_id job_id m).identity = (exportTask thread_id job_id n).identity ↔
      m = n := by
  show "reason.export:" ++ joinKey ':' job_id (joinKey ':' thread_id (toString m)) =
    "reason.export:" ++ joinKey ':' job_id (joinKey ':' thread_id (toString n)) ↔ m = n
  simp only [joinKey, append_right_cancel_text, numeral_inj]

theorem foreign_chat (thread_id job_id : String) (call : ChatCall) :
    Foreign thread_id job_id call.task where
  elsewhere := rfl
  apart := fun _ h => work_identity_ne _ call h.symm

theorem foreign_work (thread_id job_id : String) {work : DaemonWork}
    (h : ∀ job resource attempt delay, work ≠ .reasonExport job resource attempt delay) :
    Foreign thread_id job_id work.task where
  elsewhere := by
    cases work with
    | reasonExport job resource attempt delay => exact absurd rfl (h job resource attempt delay)
    | periodic | memoryCurate | conversationCompress => rfl
  apart := by
    intro attempt hid
    have hlist := congrArg (fun s => s.toList.take 1) hid
    cases work with
    | reasonExport job resource attempt delay => exact h job resource attempt delay rfl
    | periodic | memoryCurate | conversationCompress =>
      simp [DaemonWork.task, exportTask, String.toList_append] at hlist

theorem foreign_export {thread_id job_id other_thread other_job : String} (attempt : Nat)
    (hjob : ':' ∉ job_id.toList) (hother : ':' ∉ other_job.toList)
    (hne : ¬ (other_job = job_id ∧ other_thread = thread_id)) :
    Foreign thread_id job_id (exportTask other_thread other_job attempt) where
  elsewhere := by simpa [wakesJob, exportTask, DaemonWork.task] using hne
  apart := by
    intro n hid
    have hkey : joinKey ':' other_job (joinKey ':' other_thread (toString attempt)) =
        joinKey ':' job_id (joinKey ':' thread_id (toString n)) :=
      append_right_cancel_text.mp hid
    have hcut : ∀ k : Nat, ':' ∉ (toString k).toList := fun k => not_mem_numeral (by decide) k
    rcases joinKey_eq_iff.mp hkey with ⟨rfl, hrest⟩ | ⟨m, hm, -⟩ | ⟨m, hm, -⟩
    · exact hne ⟨rfl, ((joinKey_inj_right (hcut _) (hcut _)).mp hrest).1⟩
    · exact hother (by rw [hm, toList_joinKey]; simp)
    · exact hjob (by rw [hm, toList_joinKey]; simp)

/-! ## The daemon around one job -/

/-- `_next_backoff`, in seconds. -/
def nextBackoff (attempts : Nat) : Nat := min 600 (10 * 2 ^ (attempts - 1))

/-- The message of a retry after this many failures. -/
def retryMessage (thread_id job_id : String) (attempts : Nat) : JobMessage :=
  { job_id := job_id, resource_id := thread_id
    data := .daemon_retry (attempts + 1) (Nat.succ_pos attempts) }

def reconciliationMessage (thread_id job_id : String) : JobMessage :=
  { job_id := job_id, resource_id := thread_id, data := .daemon_reconciliation }

/-- The message of `plan_job`. -/
def plannedMessage (thread_id job_id : String)
    (hints : Option (ReasonOutputMode × ReasonOutputFormat)) : JobMessage :=
  { job_id := job_id, resource_id := thread_id, data := .reasoning hints }

def scheduleReasonExport (message : JobMessage) (delay_seconds now : Rat)
    (s : DaemonScheduler TaskPayload ρ) :
    Except SchedulerError (DaemonScheduler TaskPayload ρ × Nat) :=
  s.submit (messageTask message) delay_seconds none now

/-- A submission whose error is only reported. -/
def submitted (s : DaemonScheduler TaskPayload ρ) :
    Except SchedulerError (DaemonScheduler TaskPayload ρ × Nat) → DaemonScheduler TaskPayload ρ
  | .ok (s', _) => s'
  | .error _ => s

def scheduleDelayedReconciliation (thread_id job_id : String) (now : Rat)
    (s : DaemonScheduler TaskPayload ρ) : DaemonScheduler TaskPayload ρ :=
  submitted s (scheduleReasonExport (reconciliationMessage thread_id job_id) 10 now s)

/-- What `process` asks of the task sink before it ends. -/
def askSink (thread_id job_id : String) (now : Rat) (s : DaemonScheduler TaskPayload ρ) :
    Outcome ReasonOutputError WakeUp → DaemonScheduler TaskPayload ρ
  | .returned (.retry attempts) =>
    match scheduleReasonExport (retryMessage thread_id job_id attempts) (nextBackoff attempts) now
      s with
    | .ok (s', _) => s'
    -- the sink has refused the retry
    | .error _ => scheduleDelayedReconciliation thread_id job_id now s
  | .returned .reconciliation => scheduleDelayedReconciliation thread_id job_id now s
  | _ => s

/-- The scheduler of the daemon, and one export job. -/
structure ExportDaemon (ρ : Type) where
  scheduler : DaemonScheduler TaskPayload ρ
  directory : JobDirectory
  /-- The wake-ups whose `process` has ended, by the numbers of their futures. -/
  ended : List Nat

/-- What happens around the job.  Everything that is not about it submits foreign tasks. -/
inductive ExportDaemonInput (ρ : Type) (thread_id job_id : String) where
  | submit (task : DaemonTask TaskPayload) (foreign : Foreign thread_id job_id task)
      (delay_seconds : Rat) (interval_seconds : Option Rat) (now : Rat)
  /-- The wake-up of `plan_job`. -/
  | enqueue (hints : Option (ReasonOutputMode × ReasonOutputFormat)) (now : Rat)
  | recover (answer : Option ReasonOutputError) (now : Rat)
  /-- The handler of a wake-up that is in flight. -/
  | process (completion : Nat) (attempt : ExportAttempt) (now : Rat)
  | start
  | dispatch (now : Rat)
  | complete (completion : Nat) (executed : Except String ρ) (now : Rat)
  | beginShutdown (cancel_pending : Bool)
  | endShutdown
  /-- The daemon has been stopped and is started again. -/
  | restart

inductive ExportDaemonOutput where
  | silent
  | processed (queued : QueuedTask TaskPayload) (outcome : Outcome ReasonOutputError WakeUp)

/-- A new scheduler, started. -/
def restarted (s : DaemonScheduler TaskPayload ρ) : DaemonScheduler TaskPayload ρ :=
  { DaemonScheduler.new daemonTaskKinds s.max_concurrency s.queue_capacity with
    phase := .running
    dispatcher_alive := true }

/-- One happening.  A wake-up of the job is processed once while it is in flight, and completes
    after that; where the process stops in it the daemon is started again. -/
def exportDaemonStep (service : ReasonOutputService) {thread_id job_id : String}
    (s : ExportDaemon ρ) :
    ExportDaemonInput ρ thread_id job_id → ExportDaemon ρ × ExportDaemonOutput
  | .submit task _ delay_seconds interval_seconds now =>
    let answer := s.scheduler.submit task delay_seconds interval_seconds now
    ({ s with scheduler := submitted s.scheduler answer }, .silent)
  | .enqueue hints now =>
    let answer := scheduleReasonExport (plannedMessage thread_id job_id hints) 0 now s.scheduler
    ({ s with scheduler := submitted s.scheduler answer }, .silent)
  | .recover answer now =>
    match recoverJob thread_id answer s.directory with
    | none => (s, .silent)
    | some message =>
      let answer := scheduleReasonExport message 0 now s.scheduler
      ({ s with scheduler := submitted s.scheduler answer }, .silent)
  | .process completion attempt now =>
    match s.scheduler.in_flight.find? fun q => decide (q.completion = completion) with
    | none => (s, .silent)
    | some q =>
      if wakesJob thread_id job_id q.task = true ∧ completion ∉ s.ended then
        let (outcome, d) := Reason.process service thread_id job_id attempt s.directory
        if outcome = .stopped then
          ({ scheduler := restarted s.scheduler, directory := d, ended := [] },
            .processed q outcome)
        else
          -- the task that ends is still admitted while its handler asks
          ({ scheduler := askSink thread_id job_id now s.scheduler outcome, directory := d
             ended := completion :: s.ended }, .processed q outcome)
      else (s, .silent)
  | .start =>
    match s.scheduler.start with
    | .error _ => (s, .silent)
    | .ok scheduler => ({ s with scheduler := scheduler }, .silent)
  | .dispatch now => ({ s with scheduler := s.scheduler.dispatch now }, .silent)
  | .complete completion executed now =>
    match s.scheduler.in_flight.find? fun q => decide (q.completion = completion) with
    | none => (s, .silent)
    | some q =>
      -- a wake-up completes after its handler
      if wakesJob thread_id job_id q.task = true ∧ completion ∉ s.ended then (s, .silent)
      else ({ s with scheduler := s.scheduler.complete q executed now }, .silent)
  | .beginShutdown cancel_pending =>
    ({ s with scheduler := s.scheduler.beginShutdown cancel_pending }, .silent)
  | .endShutdown => ({ s with scheduler := s.scheduler.endShutdown }, .silent)
  | .restart => ({ s with scheduler := restarted s.scheduler, ended := [] }, .silent)

/-! ## Submissions -/

/-- **A submission with room left**: the identity is admitted already, or the task joins. -/
theorem submit_with_room {s : DaemonScheduler TaskPayload ρ} {task : DaemonTask TaskPayload}
    {delay now : Rat} (hphase : s.phase = .running)
    (hroom : s.active.rows.length < s.queue_capacity) (hkind : task.kind ∈ s.handlers)
    (hdelay : 0 ≤ delay) :
    ∃ s' c, s.submit task delay none now = .ok (s', c) ∧
      ((∃ existing, s.active.get task.identity = some existing ∧ s' = s) ∨
        ∃ q, q.task = task ∧ s'.live.Perm (q :: s.live)) := by
  have hopen : ¬ s.accepting = false := by
    simp [DaemonScheduler.accepting, hphase]
  unfold DaemonScheduler.submit
  rw [if_neg (Rat.not_lt.mpr hdelay), if_neg (by simp), if_neg hopen,
    if_neg (not_not.mpr hkind)]
  cases hget : s.active.get task.identity with
  | some existing => exact ⟨s, existing.completion, rfl, Or.inl ⟨existing, rfl, rfl⟩⟩
  | none =>
    simp only
    rw [if_neg (Nat.not_le.mpr hroom)]
    refine ⟨_, _, rfl, Or.inr ⟨{ task := task, completion := s.next_completion, run_at := now + delay
                                 sequence := s.sequence, interval_seconds := none }, rfl, ?_⟩⟩
    simp only [DaemonScheduler.live, List.append_assoc]
    exact List.perm_middle

theorem change_submitted (s : DaemonScheduler TaskPayload ρ) (task : DaemonTask TaskPayload)
    (delay now : Rat) (interval : Option Rat) :
    DaemonScheduler.Change (fun t => t = task) s
      (submitted s (s.submit task delay interval now)) := by
  cases hs : s.submit task delay interval now with
  | error e => exact .stay (List.Perm.refl _) rfl rfl rfl
  | ok r => exact DaemonScheduler.change_submit hs

section Job

variable {thread_id job_id : String}

/-- The task sink admits wake-ups of the job only: a retry under the next number, a reconciliation
    under 0. -/
theorem change_askSink (now : Rat) (s : DaemonScheduler TaskPayload ρ)
    (outcome : Outcome ReasonOutputError WakeUp) :
    DaemonScheduler.Change (fun t => t = exportTask thread_id job_id 0 ∨
      ∃ attempts, outcome = .returned (.retry attempts) ∧
        t = exportTask thread_id job_id (attempts + 1)) s
      (askSink thread_id job_id now s outcome) := by
  have hreconcile : DaemonScheduler.Change (fun t => t = exportTask thread_id job_id 0) s
      (scheduleDelayedReconciliation thread_id job_id now s) := change_submitted s _ _ _ _
  cases outcome with
  | raised e => exact .stay (List.Perm.refl _) rfl rfl rfl
  | stopped => exact .stay (List.Perm.refl _) rfl rfl rfl
  | returned wakeUp =>
    cases wakeUp with
    | nothing => exact .stay (List.Perm.refl _) rfl rfl rfl
    | reconciliation => exact hreconcile.mono fun t ht => Or.inl ht
    | retry attempts =>
      simp only [askSink]
      split
      · rename_i s' c hs
        exact (DaemonScheduler.change_submit hs).mono fun t ht => Or.inr ⟨attempts, rfl, ht⟩
      · exact hreconcile.mono fun t ht => Or.inl ht

/-! ## What the daemon keeps -/

/-- The failures that the manifest counts. -/
def storedAttempts (d : JobDirectory) : Nat :=
  match d.manifest with
  | some m => m.attempts
  | none => 0

/-- The task is foreign, or a wake-up of the job with a number that is not above its next
    attempt. -/
def Numbered (thread_id job_id : String) (d : JobDirectory) (task : DaemonTask TaskPayload) :
    Prop :=
  Foreign thread_id job_id task ∨
    ∃ n ≤ storedAttempts d + 1, task = exportTask thread_id job_id n

/-- The manifest is the one of the job. -/
def Named (thread_id job_id : String) (d : JobDirectory) : Prop :=
  ∀ m, d.manifest = some m → m.job_id = job_id ∧ m.thread_id = thread_id

/-- The invariant of the daemon around one job. -/
structure ExportInv (thread_id job_id : String) (s : ExportDaemon ρ) : Prop where
  admitted : s.scheduler.Admitted
  kinds : s.scheduler.handlers = daemonTaskKinds
  tasks : ∀ q ∈ s.scheduler.live, Numbered thread_id job_id s.directory q.task
  named : Named thread_id job_id s.directory

theorem storedAttempts_of {d : JobDirectory} {m : ReasonOutputManifest}
    (h : d.manifest = some m) : storedAttempts d = m.attempts := by
  rw [storedAttempts, h]

theorem failureWakeUp_retry {attempt : ExportAttempt} {attempts n : Nat}
    (h : failureWakeUp attempt attempts = .returned (.retry n)) :
    persists attempt = true ∧ attempts = n := by
  cases hpersists : persists attempt with
  | false =>
    rcases failureWakeUp_of_lost hpersists attempts with hw | hw
    · rw [hw] at h
      cases h
    · rw [hw] at h
      cases h
  | true =>
    rcases failureWakeUp_of_counted hpersists attempts with ⟨-, hw⟩ | ⟨-, hw⟩
    · rw [hw] at h
      split at h
      · cases h
      · cases h
        exact ⟨rfl, rfl⟩
    · rw [hw] at h
      cases h

/-- **What `process` leaves**: the manifest of the job, with no fewer attempts, and with exactly as
    many as the retry it asks for is for. -/
theorem process_numbers (service : ReasonOutputService) (attempt : ExportAttempt)
    {d : JobDirectory} (hnamed : Named thread_id job_id d) :
    Named thread_id job_id (Reason.process service thread_id job_id attempt d).2 ∧
    storedAttempts d ≤ storedAttempts (Reason.process service thread_id job_id attempt d).2 ∧
    ∀ n, (Reason.process service thread_id job_id attempt d).1 = .returned (.retry n) →
      storedAttempts (Reason.process service thread_id job_id attempt d).2 = n := by
  by_cases hpending : attempt.reads .inspect = none ∧ ∃ m, Pending thread_id job_id d m
  · obtain ⟨hread, m, hm⟩ := hpending
    have hattempts : storedAttempts d = m.attempts := storedAttempts_of hm.stored
    -- a failure that is not counted asks for no retry
    have hlost : persists attempt = false → ∀ n,
        failureWakeUp attempt (m.attempts + 1) ≠ .returned (.retry n) := by
      intro hpersists n hn
      rw [(failureWakeUp_retry hn).1] at hpersists
      cases hpersists
    have hstored : ∀ {d' : JobDirectory} {m' : ReasonOutputManifest}, d'.manifest = some m' →
        m'.job_id = m.job_id ∧ m'.thread_id = m.thread_id → Named thread_id job_id d' := by
      intro d' m' hm' hids m'' hm''
      rw [hm', Option.some.injEq] at hm''
      rw [← hm'', hids.1, hids.2]
      exact hm.identity
    cases process_cases service hread hm with
    | kept hmarks hrecords ho =>
      have hmanifest := (records_eq hrecords).1.trans hm.stored
      refine ⟨hstored hmanifest ⟨rfl, rfl⟩, ?_, fun n hn => ?_⟩
      · rw [hattempts, storedAttempts_of hmanifest]
      · rcases ho with ho | ⟨ho, hpersists⟩
        · rw [ho] at hn
          cases hn
        · exact absurd (ho.symm.trans hn) (hlost hpersists n)
    | counted e d₁ hmarks hrecords hpersists ho hd =>
      rw [hd, ho]
      refine ⟨hstored rfl ⟨rfl, rfl⟩, ?_, fun n hn => (failureWakeUp_retry hn).2⟩
      rw [hattempts]
      exact Nat.le_succ m.attempts
    | marked updated hmarks hmarked hcounts ho =>
      refine ⟨hstored hmarked.stored hmarked.identity, ?_, fun n hn => ?_⟩
      · rw [hattempts, storedAttempts_of hmarked.stored, hmarked.attempts]
      · rcases ho with ho | ho | ⟨ho, hpersists⟩
        · rw [ho] at hn
          cases hn
        · rw [ho] at hn
          cases hn
        · exact absurd (ho.symm.trans hn) (hlost hpersists n)
    | overturned e d₁ updated hmarks hmarked hcounts ho hd =>
      have hafter : storedAttempts (d₁.putManifest .failure (failureManifest attempt e updated)) =
          m.attempts + 1 := by
        rw [← hmarked.attempts]
        rfl
      rw [hd, ho, hafter, hattempts]
      exact ⟨hstored rfl hmarked.identity, Nat.le_succ m.attempts,
        fun n hn => (failureWakeUp_retry hn).2⟩
  · rw [process_idle hpending]
    exact ⟨hnamed, Nat.le_refl _, fun n hn => nomatch hn⟩

theorem Numbered.mono {d d' : JobDirectory} {task : DaemonTask TaskPayload}
    (h : Numbered thread_id job_id d task) (hle : storedAttempts d ≤ storedAttempts d') :
    Numbered thread_id job_id d' task := by
  rcases h with hforeign | ⟨n, hn, htask⟩
  · exact Or.inl hforeign
  · exact Or.inr ⟨n, by omega, htask⟩

theorem numbered_zero (d : JobDirectory) :
    Numbered thread_id job_id d (exportTask thread_id job_id 0) :=
  Or.inr ⟨0, Nat.zero_le _, rfl⟩

variable {service : ReasonOutputService} {s : ExportDaemon ρ}

theorem ExportInv.change (h : ExportInv thread_id job_id s) {may : DaemonTask TaskPayload → Prop}
    {scheduler : DaemonScheduler TaskPayload ρ} (ended : List Nat)
    (hc : DaemonScheduler.Change may s.scheduler scheduler)
    (hmay : ∀ t, may t → Numbered thread_id job_id s.directory t) :
    ExportInv thread_id job_id
      ({ scheduler := scheduler, directory := s.directory, ended := ended } : ExportDaemon ρ) where
  admitted := h.admitted.change hc
  kinds := hc.handlers_eq.trans h.kinds
  tasks := hc.forall_task hmay h.tasks
  named := h.named

theorem ExportInv.relabel (h : ExportInv thread_id job_id s) {d : JobDirectory}
    (hnamed : Named thread_id job_id d) (hle : storedAttempts s.directory ≤ storedAttempts d) :
    ExportInv thread_id job_id ({ s with directory := d } : ExportDaemon ρ) where
  admitted := h.admitted
  kinds := h.kinds
  tasks := fun q hq => (h.tasks q hq).mono hle
  named := hnamed

theorem exportInv_restarted {d : JobDirectory} (hnamed : Named thread_id job_id d)
    (scheduler : DaemonScheduler TaskPayload ρ) : ExportInv thread_id job_id
      ({ scheduler := restarted scheduler, directory := d, ended := [] } : ExportDaemon ρ) where
  admitted := (DaemonScheduler.admitted_new daemonTaskKinds scheduler.max_concurrency
    scheduler.queue_capacity).stay (List.Perm.refl _) rfl rfl
  kinds := rfl
  tasks := fun _ hq => nomatch hq
  named := hnamed

/-- The message of a recovery names the job of the manifest, which is this one. -/
theorem recoverJob_task {answer : Option ReasonOutputError}
    {d : JobDirectory} {message : JobMessage} (hnamed : Named thread_id job_id d)
    (h : recoverJob thread_id answer d = some message) :
    messageTask message = exportTask thread_id job_id 0 := by
  unfold recoverJob at h
  rcases readManifest_cases answer d with ⟨m, hread⟩ | ⟨e, hread⟩
  · rw [hread] at h
    simp only at h
    split at h
    · cases h
    · cases h
      have hstored := (readManifest_returned_iff.mp hread).2.1
      rw [messageTask, (hnamed m hstored).1]
      rfl
  · rw [hread] at h
    cases h

/-- **One happening keeps the invariant.** -/
theorem exportInv_step (s : ExportDaemon ρ) (i : ExportDaemonInput ρ thread_id job_id)
    (h : ExportInv thread_id job_id s) :
    ExportInv thread_id job_id (exportDaemonStep service s i).1 := by
  have hnone : ∀ t : DaemonTask TaskPayload, False → Numbered thread_id job_id s.directory t :=
    fun t ht => ht.elim
  have hzero : ∀ t, t = exportTask thread_id job_id 0 →
      Numbered thread_id job_id s.directory t := by
    rintro t rfl
    exact numbered_zero _
  cases i with
  | submit task foreign delay_seconds interval_seconds now =>
    exact h.change s.ended (change_submitted _ _ _ _ _) fun t ht => Or.inl (ht ▸ foreign)
  | enqueue hints now => exact h.change s.ended (change_submitted _ _ _ _ _) hzero
  | recover answer now =>
    simp only [exportDaemonStep]
    split
    · exact h
    · rename_i message hmessage
      refine h.change s.ended (change_submitted _ _ _ _ _) ?_
      rw [recoverJob_task h.named hmessage]
      exact hzero
  | process completion attempt now =>
    simp only [exportDaemonStep]
    split
    · exact h
    · split
      · obtain ⟨hnamed, hle, hretry⟩ := process_numbers service attempt h.named
        split
        · exact exportInv_restarted hnamed _
        · refine (h.relabel hnamed hle).change _ (change_askSink now _ _) ?_
          rintro t (rfl | ⟨n, hn, rfl⟩)
          · exact numbered_zero _
          · have hn' := hretry n hn
            refine Or.inr ⟨n + 1, ?_, rfl⟩
            show n + 1 ≤ storedAttempts (Reason.process service thread_id job_id attempt
              s.directory).2 + 1
            omega
      · exact h
  | start =>
    simp only [exportDaemonStep]
    split
    · exact h
    · rename_i scheduler hs
      exact h.change s.ended (DaemonScheduler.change_start hs) hnone
  | dispatch now => exact h.change s.ended (DaemonScheduler.change_dispatch _ now) hnone
  | complete completion executed now =>
    simp only [exportDaemonStep]
    split
    · exact h
    · rename_i q hq
      split
      · exact h
      · have hmem : q ∈ s.scheduler.in_flight := List.mem_of_find?_eq_some hq
        refine h.change s.ended (DaemonScheduler.change_complete hmem executed now) ?_
        rintro t rfl
        exact h.tasks q (List.mem_append_right _ hmem)
  | beginShutdown cancel_pending =>
    exact h.change s.ended (DaemonScheduler.change_beginShutdown _ cancel_pending) hnone
  | endShutdown => exact h.change s.ended (DaemonScheduler.change_endShutdown _) hnone
  | restart => exact exportInv_restarted h.named _

/-! ## Wake-ups that are left -/

/-- A wake-up of the job is pending or in flight under another identity. -/
def Waits (thread_id job_id : String) (s : DaemonScheduler TaskPayload ρ) (identity : String) :
    Prop :=
  ∃ r ∈ s.live, (∃ n, r.task = exportTask thread_id job_id n) ∧ r.task.identity ≠ identity

/-- The scheduler is running, with queue capacity left. -/
def Room (s : DaemonScheduler TaskPayload ρ) : Prop :=
  s.phase = .running ∧ s.active.rows.length < s.queue_capacity

/-- The persisted manifest is neither complete nor failed. -/
def Unfinished (d : JobDirectory) : Prop :=
  ∃ m, d.manifest = some m ∧ m.decodes = true ∧ m.status.terminal = false

/-- The failure of the attempt is recorded without an error. -/
def recordsCleanly (attempt : ExportAttempt) : Bool :=
  (attempt.reads .failure).isNone && decide (attempt.writes .failure = .written)

/-- **How a wake-up is lost.**  No other one of the job is admitted, and the manifest cannot be
    read, or the attempt of the wake-up with number 0 fails before it marks the job and that
    failure cannot be recorded either: the reconciliation has number 0 too. -/
def LosesWakeUp (thread_id job_id : String) (s : ExportDaemon ρ) (identity : String)
    (attempt : ExportAttempt) : Prop :=
  ¬ Waits thread_id job_id s.scheduler identity ∧
    ∃ m, Pending thread_id job_id s.directory m ∧
      (attempt.reads .inspect ≠ none ∨
        (identity = (exportTask thread_id job_id 0).identity ∧
          ¬ Marks thread_id job_id attempt s.directory m ∧ recordsCleanly attempt = false ∧
          (persists attempt = true → m.attempts + 1 < maxExportAttempts)))

/-- A wake-up of the job under another identity is left after a submission when there was one, or
    the submitted one is it. -/
theorem waits_submitted_iff (h : ExportInv thread_id job_id s) (hroom : Room s.scheduler)
    {delay now : Rat} (hdelay : 0 ≤ delay) (n : Nat) :
    ∃ s' c, s.scheduler.submit (exportTask thread_id job_id n) delay none now = .ok (s', c) ∧
      ∀ identity, Waits thread_id job_id s' identity ↔
        Waits thread_id job_id s.scheduler identity ∨
          identity ≠ (exportTask thread_id job_id n).identity := by
  have hkind : (exportTask thread_id job_id n).kind ∈ s.scheduler.handlers := by
    rw [h.kinds]
    show "reason.export" ∈ daemonTaskKinds
    decide
  obtain ⟨s', c, hs, hcase⟩ := @submit_with_room _ s.scheduler _ delay now hroom.1 hroom.2 hkind
    hdelay
  refine ⟨s', c, hs, fun identity => ?_⟩
  rcases hcase with ⟨existing, hget, rfl⟩ | ⟨q, hq, hlive⟩
  · -- the task that has the identity is a wake-up of the job
    obtain ⟨hmem, hid⟩ := (h.admitted.active_iff _ _).mp hget
    constructor
    · exact Or.inl
    · rintro (hwaits | hne)
      · exact hwaits
      · rcases h.tasks existing hmem with hforeign | ⟨k, -, htask⟩
        · exact absurd hid (hforeign.apart n)
        · exact ⟨existing, hmem, ⟨k, htask⟩, fun hsame => hne (hsame.symm.trans hid)⟩
  · constructor
    · rintro ⟨r, hr, hjob, hne⟩
      rcases List.mem_cons.mp (hlive.mem_iff.mp hr) with rfl | hr
      · exact Or.inr fun hsame => hne (by rw [hq, hsame])
      · exact Or.inl ⟨r, hr, hjob, hne⟩
    · rintro (⟨r, hr, hjob, hne⟩ | hne)
      · exact ⟨r, hlive.mem_iff.mpr (List.mem_cons_of_mem _ hr), hjob, hne⟩
      · exact ⟨q, hlive.mem_iff.mpr List.mem_cons_self, ⟨n, hq⟩, fun hsame => hne
          (by rw [← hsame, hq])⟩

theorem waits_reconciliation_iff (h : ExportInv thread_id job_id s) (hroom : Room s.scheduler)
    (now : Rat) (identity : String) :
    Waits thread_id job_id (askSink thread_id job_id now s.scheduler (.returned .reconciliation))
        identity ↔
      Waits thread_id job_id s.scheduler identity ∨
        identity ≠ (exportTask thread_id job_id 0).identity := by
  obtain ⟨s', c, hs, hiff⟩ := @waits_submitted_iff _ _ _ s h hroom 10 now (by decide) 0
  have hanswer : askSink thread_id job_id now s.scheduler (.returned .reconciliation) = s' := by
    show submitted s.scheduler (s.scheduler.submit _ 10 none now) = s'
    rw [show messageTask (reconciliationMessage thread_id job_id) = exportTask thread_id job_id 0
      from rfl, hs]
    rfl
  rw [hanswer]
  exact hiff identity

theorem waits_retry_iff (h : ExportInv thread_id job_id s) (hroom : Room s.scheduler)
    (now : Rat) (attempts : Nat) (identity : String) :
    Waits thread_id job_id (askSink thread_id job_id now s.scheduler
        (.returned (.retry attempts))) identity ↔
      Waits thread_id job_id s.scheduler identity ∨
        identity ≠ (exportTask thread_id job_id (attempts + 1)).identity := by
  have hdelay : (0 : Rat) ≤ (nextBackoff attempts : Nat) := Rat.natCast_nonneg
  obtain ⟨s', c, hs, hiff⟩ := @waits_submitted_iff _ _ _ s h hroom _ now hdelay (attempts + 1)
  have hanswer : askSink thread_id job_id now s.scheduler (.returned (.retry attempts)) = s' := by
    simp only [askSink, scheduleReasonExport]
    rw [show messageTask (retryMessage thread_id job_id attempts) =
      exportTask thread_id job_id (attempts + 1) from rfl, hs]
  rw [hanswer]
  exact hiff identity

theorem waits_askSink (h : ExportInv thread_id job_id s) (hroom : Room s.scheduler) (now : Rat)
    (outcome : Outcome ReasonOutputError WakeUp) {identity : String}
    (hwaits : Waits thread_id job_id s.scheduler identity) :
    Waits thread_id job_id (askSink thread_id job_id now s.scheduler outcome) identity := by
  cases outcome with
  | raised e => exact hwaits
  | stopped => exact hwaits
  | returned wakeUp =>
    cases wakeUp with
    | nothing => exact hwaits
    | reconciliation => exact (waits_reconciliation_iff h hroom now identity).mpr (Or.inl hwaits)
    | retry attempts => exact (waits_retry_iff h hroom now attempts identity).mpr (Or.inl hwaits)

theorem not_unfinished {d : JobDirectory} {m : ReasonOutputManifest}
    (hstored : d.manifest = some m) (hdone : m.status.terminal = true) : ¬ Unfinished d := by
  rintro ⟨m', hstored', -, hopen⟩
  rw [hstored, Option.some.injEq] at hstored'
  rw [← hstored', hdone] at hopen
  cases hopen

theorem unfinished_of_pending {d : JobDirectory} {m : ReasonOutputManifest}
    (h : Pending thread_id job_id d m) : Unfinished d :=
  ⟨m, h.stored, h.decodes, by rw [h.planned]; rfl⟩

theorem pending_of_unfinished (h : ExportInv thread_id job_id s)
    (hopen : Unfinished s.directory) : ∃ m, Pending thread_id job_id s.directory m := by
  obtain ⟨m, hstored, hdecodes, hstatus⟩ := hopen
  have hplanned : m.status = .planned := by
    cases hm : m.status with
    | planned => rfl
    | complete => rw [hm] at hstatus; cases hstatus
    | failed => rw [hm] at hstatus; cases hstatus
  exact ⟨m, hstored, hdecodes, h.named m hstored, hplanned⟩

/-- How the only wake-up of a pending job that is read may be lost. -/
def LostAfterRead (thread_id job_id : String) (attempt : ExportAttempt) (d : JobDirectory)
    (m : ReasonOutputManifest) (attempts : Nat) : Prop :=
  attempts = 0 ∧ ¬ Marks thread_id job_id attempt d m ∧ recordsCleanly attempt = false ∧
    (persists attempt = true → m.attempts + 1 < maxExportAttempts)

theorem losesWakeUp_iff {attempts : Nat} {attempt : ExportAttempt} {m : ReasonOutputManifest}
    (hwaits : ¬ Waits thread_id job_id s.scheduler (exportTask thread_id job_id attempts).identity)
    (hread : attempt.reads .inspect = none) (hm : Pending thread_id job_id s.directory m) :
    LosesWakeUp thread_id job_id s (exportTask thread_id job_id attempts).identity attempt ↔
      LostAfterRead thread_id job_id attempt s.directory m attempts := by
  constructor
  · rintro ⟨-, m', hm', hinspect | ⟨hid, hrest⟩⟩
    · exact absurd hread hinspect
    · have hsame := hm'.stored
      rw [hm.stored, Option.some.injEq] at hsame
      rw [LostAfterRead, hsame]
      exact ⟨exportTask_identity_iff.mp hid, hrest⟩
  · rintro ⟨hzero, hrest⟩
    exact ⟨hwaits, m, hm, Or.inr ⟨exportTask_identity_iff.mpr hzero, hrest⟩⟩

section

variable (h : ExportInv thread_id job_id s) (hroom : Room s.scheduler) (now : Rat)
  {attempts : Nat} {attempt : ExportAttempt} {m : ReasonOutputManifest}
  (hwaits : ¬ Waits thread_id job_id s.scheduler (exportTask thread_id job_id attempts).identity)
include h hroom hwaits

/-- A reconciliation is left exactly when the wake-up that ends has another number. -/
theorem waits_reconciled_iff :
    Waits thread_id job_id (askSink thread_id job_id now s.scheduler (.returned .reconciliation))
      (exportTask thread_id job_id attempts).identity ↔ attempts ≠ 0 := by
  rw [waits_reconciliation_iff h hroom, or_iff_right hwaits, Ne, exportTask_identity_iff]

theorem waits_lost_iff {d : JobDirectory} (hopen : Unfinished d)
    (hmarks : ¬ Marks thread_id job_id attempt s.directory m)
    (hpersists : persists attempt = false)
    (hended : failureWakeUp attempt (m.attempts + 1) ≠ .stopped) :
    (Unfinished d → Waits thread_id job_id
        (askSink thread_id job_id now s.scheduler (failureWakeUp attempt (m.attempts + 1)))
        (exportTask thread_id job_id attempts).identity) ↔
      ¬ LostAfterRead thread_id job_id attempt s.directory m attempts := by
  have hw := (failureWakeUp_of_lost hpersists (m.attempts + 1)).resolve_right hended
  have hunclean : recordsCleanly attempt = false := by
    cases hclean : recordsCleanly attempt with
    | false => rfl
    | true =>
      simp only [recordsCleanly, Bool.and_eq_true, decide_eq_true_eq] at hclean
      rw [persists, hclean.1, hclean.2] at hpersists
      cases hpersists
  rw [hw, waits_reconciled_iff h hroom now hwaits, imp_iff_right hopen]
  constructor
  · exact fun hne hlost => hne hlost.1
  · intro hnot hzero
    refine hnot ⟨hzero, hmarks, hunclean, fun hp => ?_⟩
    rw [hpersists] at hp
    cases hp

theorem waits_counted_iff (hm : Pending thread_id job_id s.directory m)
    (hattempts : attempts ≤ m.attempts + 1)
    (hmarks : ¬ Marks thread_id job_id attempt s.directory m)
    (hpersists : persists attempt = true) (e : ReasonOutputError) (d : JobDirectory) :
    (Unfinished (d.putManifest .failure (failureManifest attempt e m)) →
      Waits thread_id job_id
        (askSink thread_id job_id now s.scheduler (failureWakeUp attempt (m.attempts + 1)))
        (exportTask thread_id job_id attempts).identity) ↔
      ¬ LostAfterRead thread_id job_id attempt s.directory m attempts := by
  have hfailed : maxExportAttempts ≤ m.attempts + 1 →
      ¬ Unfinished (d.putManifest .failure (failureManifest attempt e m)) := by
    intro hlast
    refine not_unfinished rfl ?_
    rw [failureManifest_status, if_pos hlast]
    rfl
  rcases failureWakeUp_of_counted hpersists (m.attempts + 1) with ⟨hwrite, hw⟩ | ⟨hwrite, hw⟩
  · -- the failure is recorded: the retry has a number above that of the wake-up
    have hclean : recordsCleanly attempt = true := by
      simp only [persists, Bool.and_eq_true] at hpersists
      simp [recordsCleanly, hwrite, hpersists.1]
    rw [hw]
    constructor
    · rintro - ⟨-, -, hunclean, -⟩
      rw [hclean] at hunclean
      cases hunclean
    · intro _ hopen
      by_cases hlast : maxExportAttempts ≤ m.attempts + 1
      · exact absurd hopen (hfailed hlast)
      · rw [if_neg hlast, waits_retry_iff h hroom]
        refine Or.inr fun hid => ?_
        have hnumber := exportTask_identity_iff.mp hid
        omega
  · have hunclean : recordsCleanly attempt = false := by
      simp [recordsCleanly, hwrite]
    rw [hw, waits_reconciled_iff h hroom now hwaits]
    constructor
    · rintro hleft ⟨hzero, -, -, hfew⟩
      refine hleft ⟨_, rfl, ?_, ?_⟩ hzero
      · exact decodes_withUpdates hm.decodes nofun nofun
      · rw [failureManifest_status, if_neg (Nat.not_le.mpr (hfew hpersists)), hm.planned]
        rfl
    · intro hnot hopen hzero
      refine hnot ⟨hzero, hmarks, hunclean, fun _ => ?_⟩
      exact Nat.not_le.mp fun hlast => hfailed hlast hopen

end

/-- **One call of `process`** that ends, for a wake-up whose number is not above the next attempt:
    a wake-up of an unfinished job is left exactly when none is lost. -/
theorem process_waits_iff (h : ExportInv thread_id job_id s) (hroom : Room s.scheduler)
    {attempts : Nat} (hattempts : attempts ≤ storedAttempts s.directory + 1)
    (attempt : ExportAttempt) (now : Rat)
    (hended : (Reason.process service thread_id job_id attempt s.directory).1 ≠ .stopped) :
    (Unfinished (Reason.process service thread_id job_id attempt s.directory).2 →
      Waits thread_id job_id (askSink thread_id job_id now s.scheduler
          (Reason.process service thread_id job_id attempt s.directory).1)
        (exportTask thread_id job_id attempts).identity) ↔
    ¬ LosesWakeUp thread_id job_id s (exportTask thread_id job_id attempts).identity attempt := by
  by_cases hwaits : Waits thread_id job_id s.scheduler
      (exportTask thread_id job_id attempts).identity
  · exact ⟨fun _ hloses => hloses.1 hwaits, fun _ _ => waits_askSink h hroom now _ hwaits⟩
  by_cases hpending : attempt.reads .inspect = none ∧ ∃ m, Pending thread_id job_id s.directory m
  · obtain ⟨hread, m, hm⟩ := hpending
    rw [storedAttempts_of hm.stored] at hattempts
    rw [losesWakeUp_iff hwaits hread hm]
    cases process_cases service hread hm with
    | kept hmarks hrecords ho =>
      obtain ⟨ho, hpersists⟩ := ho.resolve_left hended
      rw [ho] at hended ⊢
      exact waits_lost_iff h hroom now hwaits
        ⟨m, (records_eq hrecords).1.trans hm.stored, hm.decodes, by rw [hm.planned]; rfl⟩ hmarks
        hpersists hended
    | counted e d₁ hmarks hrecords hpersists ho hd =>
      rw [hd, ho]
      exact waits_counted_iff h hroom now hwaits hm hattempts hmarks hpersists e d₁
    | marked updated hmarks hmarked hcounts ho =>
      refine ⟨fun _ hloses => hloses.2.1 hmarks, fun _ hopen => ?_⟩
      exact absurd hopen (not_unfinished hmarked.stored (by rw [hmarked.complete]; rfl))
    | overturned e d₁ updated hmarks hmarked hcounts ho hd =>
      refine ⟨fun _ hloses => hloses.2.1 hmarks, fun _ hopen => ?_⟩
      rw [hd] at hopen
      refine absurd hopen (not_unfinished rfl ?_)
      rw [failureManifest_status, hmarked.complete]
      split <;> rfl
  · -- the manifest is not read: nothing is asked for
    rw [process_idle hpending]
    constructor
    · rintro hleft ⟨-, m, hm, -⟩
      exact hwaits (hleft (unfinished_of_pending hm))
    · intro hnot hopen
      obtain ⟨m, hm⟩ := pending_of_unfinished h hopen
      exact absurd ⟨hwaits, m, hm, Or.inl fun hread => hpending ⟨hread, m, hm⟩⟩ hnot

/-! ## Whole runs -/

/-- A step of the daemon around one job. -/
abbrev ExportEvent (ρ : Type) (thread_id job_id : String) : Type :=
  Step (ExportDaemon ρ) (ExportDaemonInput ρ thread_id job_id) ExportDaemonOutput

/-- Where `process` ends with room left in the scheduler and the job unfinished, a wake-up of the
    job is pending or in flight under an identity other than the one that ended. -/
def KeepsWakeUp (e : ExportEvent ρ thread_id job_id) : Prop :=
  ∀ completion attempt now q outcome, e.input = .process completion attempt now →
    e.output = .processed q outcome → outcome ≠ .stopped → Room e.before.scheduler →
    Unfinished e.after.directory → Waits thread_id job_id e.after.scheduler q.task.identity

/-- Where `process` ends with room left, it does not lose the wake-up. -/
def LosesNone (e : ExportEvent ρ thread_id job_id) : Prop :=
  ∀ completion attempt now q outcome, e.input = .process completion attempt now →
    e.output = .processed q outcome → outcome ≠ .stopped → Room e.before.scheduler →
    ¬ LosesWakeUp thread_id job_id e.before q.task.identity attempt

theorem processed_cases {completion : Nat} {attempt : ExportAttempt} {now : Rat}
    {q : QueuedTask TaskPayload} {outcome : Outcome ReasonOutputError WakeUp}
    {e : ExportEvent ρ thread_id job_id} (he : e.Of (exportDaemonStep service))
    (hinput : e.input = .process completion attempt now) (houtput : e.output = .processed q outcome)
    (hended : outcome ≠ .stopped) :
    q ∈ e.before.scheduler.in_flight ∧ wakesJob thread_id job_id q.task = true ∧
      outcome = (Reason.process service thread_id job_id attempt e.before.directory).1 ∧
      e.after.directory = (Reason.process service thread_id job_id attempt e.before.directory).2 ∧
      e.after.scheduler = askSink thread_id job_id now e.before.scheduler outcome := by
  have hout := he.output_eq
  have hafter := he.after_eq
  rw [hinput] at hout hafter
  rw [houtput] at hout
  simp only [exportDaemonStep] at hout hafter
  split at hout
  · cases hout
  · rename_i q' hq'
    simp only [hq'] at hafter
    split at hout
    · rename_i hwakes
      rw [if_pos hwakes] at hafter
      split at hout
      · rename_i hstopped
        cases hout
        exact absurd hstopped hended
      · rename_i hrunning
        rw [if_neg hrunning] at hafter
        cases hout
        rw [← hafter]
        exact ⟨List.mem_of_find?_eq_some hq', hwakes.1, rfl, rfl, rfl⟩
    · cases hout

/-- **One happening leaves a wake-up exactly when it loses none.** -/
theorem keeps_step_iff {e : ExportEvent ρ thread_id job_id} (he : e.Of (exportDaemonStep service))
    (h : ExportInv thread_id job_id e.before) : KeepsWakeUp e ↔ LosesNone e := by
  refine forall₅_congr fun completion attempt now q outcome => ?_
  refine forall₄_congr fun hinput houtput hended hroom => ?_
  obtain ⟨hq, hwakes, rfl, hdirectory, hscheduler⟩ := processed_cases he hinput houtput hended
  rw [hdirectory, hscheduler]
  rcases h.tasks q (List.mem_append_right _ hq) with hforeign | ⟨n, hn, htask⟩
  · rw [hforeign.elsewhere] at hwakes
    cases hwakes
  · rw [htask]
    exact process_waits_iff h hroom hn attempt now hended

end Job

/-- The daemon before it starts, with one planned job. -/
def ExportDaemon.new (max_concurrency queue_capacity : Nat) (root : String)
    (manifest : ReasonOutputManifest) : ExportDaemon ρ where
  scheduler := .new daemonTaskKinds max_concurrency queue_capacity
  directory := plannedDirectory root manifest
  ended := []

theorem exportInv_new (max_concurrency queue_capacity : Nat) (root : String)
    (manifest : ReasonOutputManifest) :
    ExportInv manifest.thread_id manifest.job_id
      (ExportDaemon.new max_concurrency queue_capacity root manifest : ExportDaemon ρ) where
  admitted := DaemonScheduler.admitted_new _ _ _
  kinds := rfl
  tasks := fun _ hq => nomatch hq
  named := fun m hm => by
    cases hm
    exact ⟨rfl, rfl⟩

/-- **When no wake-up is lost**: in every run of the daemon around a planned job, every call of
    `process` that ends leaves a wake-up of the unfinished job exactly when none of them loses
    it. -/
theorem wakeup_lost_iff (service : ReasonOutputService) (sel : PlanSelection)
    (sections : List ReasonOutputSection) (job_id planned_at root : String)
    (max_concurrency queue_capacity : Nat)
    (inputs : List (ExportDaemonInput ρ sel.thread.id job_id)) :
    (∀ e ∈ run (exportDaemonStep service) (ExportDaemon.new max_concurrency queue_capacity root
        (plannedManifest sel sections job_id planned_at)) inputs, KeepsWakeUp e) ↔
    ∀ e ∈ run (exportDaemonStep service) (ExportDaemon.new max_concurrency queue_capacity root
        (plannedManifest sel sections job_id planned_at)) inputs, LosesNone e := by
  have hinv := run_invariant (fun s i h => @exportInv_step ρ _ _ service s i h)
    (exportInv_new max_concurrency queue_capacity root
      (plannedManifest sel sections job_id planned_at)) inputs
  refine forall₂_congr fun e he => ?_
  exact keeps_step_iff (run_of _ _ _ e he) (hinv e he).1

/-- The first wake-up of the small job is in flight. -/
def beforeLoss : ExportDaemon Unit :=
  final (exportDaemonStep ⟨"exports", id⟩) (ExportDaemon.new 4 256 "root"
    (plannedManifest tidesSelection tidesSections "job-1" "now"))
    ([.start, .enqueue none 0, .dispatch 0] : List (ExportDaemonInput Unit "reason-1" "job-1"))

/-- Its runner raises, and the failure cannot be written. -/
def silentLoss : ExportDaemonInput Unit "reason-1" "job-1" :=
  .process 0 (tidesAttempt
    (fun w => if w = .failure then .refused (.other "disk full") else .written)
    fun _ => .raised (.other "no model")) 0

/-- The reconciliation that it asks for has its own identity, and is lost. -/
theorem first_reconciliation_is_lost :
    ¬ ∀ e ∈ run (exportDaemonStep ⟨"exports", id⟩) (ExportDaemon.new 4 256 "root"
      (plannedManifest tidesSelection tidesSections "job-1" "now"))
      [.start, .enqueue none 0, .dispatch 0, silentLoss], KeepsWakeUp e := by
  intro h
  have hlast := h ⟨beforeLoss, silentLoss, (exportDaemonStep ⟨"exports", id⟩ beforeLoss
    silentLoss).2, (exportDaemonStep ⟨"exports", id⟩ beforeLoss silentLoss).1⟩
    (List.mem_of_getLast? rfl)
  have hsame : (match (exportDaemonStep ⟨"exports", id⟩ beforeLoss silentLoss).2 with
      | .processed q outcome => decide (outcome = .returned .reconciliation) &&
          (exportDaemonStep ⟨"exports", id⟩ beforeLoss silentLoss).1.scheduler.live.all fun r =>
            decide (r.task.identity = q.task.identity)
      | .silent => false) = true := by
    decide +kernel
  have hroom : Room beforeLoss.scheduler := ⟨by decide +kernel, by decide +kernel⟩
  have hopen : (exportDaemonStep ⟨"exports", id⟩ beforeLoss silentLoss).1.directory.manifest =
      some (plannedManifest tidesSelection tidesSections "job-1" "now") := by
    decide +kernel
  cases hout : (exportDaemonStep ⟨"exports", id⟩ beforeLoss silentLoss).2 with
  | silent =>
    rw [hout] at hsame
    cases hsame
  | processed q outcome =>
    simp only [hout, Bool.and_eq_true, decide_eq_true_eq, List.all_eq_true] at hsame
    have hended : outcome ≠ .stopped := by
      rw [hsame.1]
      nofun
    obtain ⟨r, hr, -, hne⟩ := hlast _ _ _ q outcome rfl hout hended hroom
      ⟨_, hopen, by decide +kernel, rfl⟩
    exact hne (hsame.2 r hr)

end NuSelf.Daemon
