/-
  Shutting the scheduler down: whose futures are done afterwards.

  A caller of `submit` holds a future and may block on it, so when `shutdown` has returned every
  future handed out should be done.  The tasks in flight are waited for, and their futures are.
  What waits in `pending` is cancelled only when the caller asks for it (`cancel_pending`, the
  default); without it the dispatcher still runs what is due, but it leaves as soon as nothing is
  busy, whatever waits for a later time, and a scheduler that was never started has no dispatcher
  at all.

  1. `abandons_iff` — no future is abandoned exactly in the runs in which, when a `shutdown`
     finishes, no task still waits whose future `submit` has returned.
  2. `delayed_is_abandoned` — a task with a delay, and `shutdown(cancel_pending=False)`.
-/
import NuSelf.Daemon.Interleaving

namespace NuSelf.Daemon

open NuSelf.Lib

variable {π ρ : Type}

/-- Whether the joins of a `shutdown` call have succeeded and its last section ends the phase. -/
def SchedulerThreads.finishes (s : SchedulerThreads π ρ) : Bool :=
  s.drained && decide (s.sched.phase = .stopping ∧ s.sched.dispatcher_alive = false ∧
    s.sched.in_flight.isEmpty = true)

/-- Once a `shutdown` has returned, every future that `submit` has returned is done. -/
def AbandonsNone (e : Step (SchedulerThreads π ρ) (SchedulerInput π ρ) (SchedulerReport π)) :
    Prop :=
  e.after.sched.phase = .stopped →
    ∀ n ∈ e.after.returned, n ∈ e.after.sched.settled.map Prod.fst

/-- When a `shutdown` finishes, no task waits whose future `submit` has returned. -/
def LeavesNoneWaiting (s : SchedulerThreads π ρ) : SchedulerInput π ρ → Prop
  | .finishShutdown => s.finishes = true → ∀ q ∈ s.sched.pending, q.completion ∉ s.returned
  | _ => True

/-! ## The phase -/

section
variable {s s' : DaemonScheduler π ρ}

theorem submit_phase {task : DaemonTask π} {delay now : Rat} {interval : Option Rat} {n : Nat}
    (h : s.submit task delay interval now = .ok (s', n)) : s'.phase = s.phase := by
  unfold DaemonScheduler.submit at h
  split at h
  · cases h
  split at h
  · cases h
  split at h
  · cases h
  split at h
  · cases h
  split at h
  · obtain ⟨rfl, -⟩ := Prod.mk.inj (Except.ok.inj h)
    rfl
  split at h
  · cases h
  · obtain ⟨rfl, -⟩ := Prod.mk.inj (Except.ok.inj h)
    rfl

theorem start_phase (h : s.start = .ok s') :
    s'.phase = s.phase ∨ s.phase = .created ∧ s'.phase = .running := by
  unfold DaemonScheduler.start at h
  split at h
  · cases h
  · cases h
  · obtain rfl := Except.ok.inj h
    exact Or.inl rfl
  · rename_i hphase
    obtain rfl := Except.ok.inj h
    exact Or.inr ⟨hphase, rfl⟩

theorem beginShutdown_phase (s : DaemonScheduler π ρ) (cancel_pending : Bool) :
    (s.phase = .stopped ∧ s.beginShutdown cancel_pending = s) ∨
      (s.phase ≠ .stopped ∧ (s.beginShutdown cancel_pending).phase = .stopping) := by
  unfold DaemonScheduler.beginShutdown
  split
  · rename_i h
    exact Or.inl ⟨h, rfl⟩
  · rename_i h
    refine Or.inr ⟨h, ?_⟩
    split
    · rfl
    · rfl

theorem release_phase [DecidableEq π] (s : DaemonScheduler π ρ) (q : QueuedTask π)
    (executed : Except String ρ) (now : Rat) : (s.release q executed now).phase = s.phase := by
  unfold DaemonScheduler.release DaemonScheduler.complete
  cases q.interval_seconds with
  | none => rfl
  | some interval => dsimp only; split <;> rfl

theorem dispatch_phase [DecidableEq π] (s : DaemonScheduler π ρ) (now : Rat) :
    (s.dispatch now).phase = s.phase := by
  cases htakes : s.takes now with
  | some q => rw [DaemonScheduler.dispatch_some htakes]
  | none => rcases DaemonScheduler.dispatch_none htakes with heq | heq <;> rw [heq]

end

section
variable [DecidableEq π]

theorem finish_phase {s : SchedulerThreads π ρ} (h : s.finishes = false) :
    (schedulerStep s .finishShutdown).1.sched.phase = s.sched.phase := by
  simp only [schedulerStep]
  split
  · rename_i hdrained
    show s.sched.endShutdown.phase = s.sched.phase
    unfold DaemonScheduler.endShutdown
    split
    · rename_i hjoined
      rw [SchedulerThreads.finishes, hdrained, decide_eq_true hjoined] at h
      cases h
    · rfl
  · rfl

/-- **Who changes the phase**: `start` opens it, the first section of `shutdown` closes it, and the
    last one ends it. -/
theorem phase_step (s : SchedulerThreads π ρ) (i : SchedulerInput π ρ) :
    (schedulerStep s i).1.sched.phase = s.sched.phase ∨
    (s.sched.phase = .created ∧ (schedulerStep s i).1.sched.phase = .running) ∨
    (s.sched.phase ≠ .stopped ∧ (schedulerStep s i).1.sched.phase = .stopping ∧
      ∃ cancel_pending, i = .shutdown cancel_pending) ∨
    (i = .finishShutdown ∧ s.finishes = true) := by
  cases i with
  | start =>
    simp only [schedulerStep]
    split
    · exact Or.inl rfl
    · rename_i hsched
      rcases start_phase hsched with hphase | hphase
      · exact Or.inl hphase
      · exact Or.inr (Or.inl hphase)
  | submit task delay interval now =>
    simp only [schedulerStep]
    split
    · exact Or.inl rfl
    · rename_i hok
      exact Or.inl (submit_phase hok)
  | dispatch now =>
    simp only [schedulerStep]
    split
    · split
      · exact Or.inl (dispatch_phase s.sched now)
      · exact Or.inl (dispatch_phase s.sched now)
    · exact Or.inl rfl
  | release n now =>
    simp only [schedulerStep]
    split
    · split
      · exact Or.inl (release_phase s.sched _ _ now)
      · exact Or.inl rfl
    · exact Or.inl rfl
  | shutdown cancel_pending =>
    simp only [schedulerStep]
    rcases beginShutdown_phase s.sched cancel_pending with ⟨-, heq⟩ | ⟨hopen, hphase⟩
    · exact Or.inl (congrArg DaemonScheduler.phase heq)
    · exact Or.inr (Or.inr (Or.inl ⟨hopen, hphase, cancel_pending, rfl⟩))
  | finishShutdown =>
    cases hfinishes : s.finishes with
    | true => exact Or.inr (Or.inr (Or.inr ⟨rfl, rfl⟩))
    | false => exact Or.inl (finish_phase hfinishes)
  | handOver | beginHandler | finishHandler =>
    simp only [schedulerStep]
    split <;> exact Or.inl rfl
  | attach | settle =>
    simp only [schedulerStep]
    split
    · split <;> exact Or.inl rfl
    · exact Or.inl rfl

/-! ## The futures -/

/-- How the futures of `s` and `s'` compare when `s'` comes after `s`. -/
structure Grows (s s' : SchedulerThreads π ρ) : Prop where
  next : s.sched.next_completion ≤ s'.sched.next_completion
  settled : ∀ n ∈ s.sched.settled.map Prod.fst, n ∈ s'.sched.settled.map Prod.fst
  returned : ∀ n ∈ s'.returned, n ∈ s.returned ∨
    s.sched.accepting = true ∧ n < s'.sched.next_completion
  waits : s.sched.accepting = true ∨ ∀ q ∈ s'.sched.pending, q ∈ s.sched.pending

omit [DecidableEq π] in
theorem Grows.of_same {s s' : SchedulerThreads π ρ}
    (hnext : s'.sched.next_completion = s.sched.next_completion)
    (hsettled : s'.sched.settled = s.sched.settled) (hreturned : s'.returned = s.returned)
    (hpending : ∀ q ∈ s'.sched.pending, q ∈ s.sched.pending) : Grows s s' where
  next := hnext.ge
  settled := by
    rw [hsettled]
    exact fun _ hn => hn
  returned := by
    rw [hreturned]
    exact fun _ hn => Or.inl hn
  waits := Or.inr hpending

omit [DecidableEq π] in
theorem Grows.refl (s : SchedulerThreads π ρ) : Grows s s :=
  Grows.of_same rfl rfl rfl fun _ hq => hq

theorem grows_submit {m c : Nat} {s : SchedulerThreads π ρ} (h : ThreadsInv m c s)
    (task : DaemonTask π) (delay : Rat) (interval : Option Rat) (now : Rat) :
    Grows s (schedulerStep s (.submit task delay interval now)).1 := by
  simp only [schedulerStep]
  split
  · exact Grows.refl s
  · rename_i sched n hok
    have haccepting := DaemonScheduler.submit_accepting hok
    have hreturned : ∀ k ∈ s.returned ++ [n], n < sched.next_completion →
        k ∈ s.returned ∨ s.sched.accepting = true ∧ k < sched.next_completion := by
      intro k hk hlt
      rcases List.mem_append.mp hk with hk | hk
      · exact Or.inl hk
      · rw [List.mem_singleton.mp hk]
        exact Or.inr ⟨haccepting, hlt⟩
    rcases DaemonScheduler.submit_admits hok with ⟨existing, hget, rfl, rfl⟩ | ⟨rfl, hnew⟩
    · -- the future of an admitted task is an old one
      have hlive := ((h.admitted.active_iff _ _).mp hget).1
      have hlt := h.admitted.numbered existing hlive
      exact ⟨le_refl _, fun _ hk => hk, fun k hk => hreturned k hk hlt, Or.inl haccepting⟩
    · obtain ⟨r, hr, -, -, -, -, hsettled⟩ := hnew
      have hnext := hr.next
      refine ⟨?_, ?_, fun k hk => hreturned k hk (by omega), Or.inl haccepting⟩
      · show _ ≤ sched.next_completion
        omega
      · show ∀ k ∈ _, k ∈ sched.settled.map Prod.fst
        rw [hsettled]
        exact fun _ hk => hk

theorem grows_release (s : SchedulerThreads π ρ) (n : Nat) (now : Rat) :
    Grows s (schedulerStep s (.release n now)).1 := by
  simp only [schedulerStep]
  split
  · split
    · rename_i outcome q _ _
      have hr := DaemonScheduler.releases s.sched q outcome now
      refine ⟨?_, ?_, fun _ hn => Or.inl hn, ?_⟩
      · show _ ≤ (s.sched.release q outcome now).next_completion
        rcases hr.waits with ⟨-, hnext⟩ | ⟨-, r, hadmits⟩
        · omega
        · have hnext := hadmits.next
          omega
      · show ∀ n ∈ _, n ∈ (s.sched.release q outcome now).settled.map Prod.fst
        rw [hr.settled]
        exact fun _ hn => hn
      · rcases hr.waits with ⟨hpending, -⟩ | ⟨hphase, -⟩
        · exact Or.inr fun q hq => hpending ▸ hq
        · -- only a running scheduler queues a task again
          refine Or.inl ?_
          rw [DaemonScheduler.accepting, hphase]
          rfl
    · exact Grows.refl s
  · exact Grows.refl s

theorem grows_shutdown (s : SchedulerThreads π ρ) (cancel_pending : Bool) :
    Grows s (schedulerStep s (.shutdown cancel_pending)).1 := by
  simp only [schedulerStep]
  rcases s.sched.beginShutdown_cases cancel_pending with ⟨-, phase, heq⟩ | ⟨-, hsame⟩
  · rw [heq]
    exact Grows.of_same rfl rfl rfl fun _ hq => hq
  · obtain ⟨hpending, -, -, hnext, hsettled, -⟩ := hsame
    refine ⟨hnext.ge, fun k hk => ?_, fun _ hn => Or.inl hn, Or.inr fun q hq => ?_⟩
    · show k ∈ (s.sched.beginShutdown cancel_pending).settled.map Prod.fst
      rw [hsettled, List.map_append]
      exact List.mem_append_left _ hk
    · replace hq : q ∈ (s.sched.beginShutdown cancel_pending).pending := hq
      rw [hpending] at hq
      exact nomatch hq

/-- **No step takes a future back**: numbers grow, settled futures stay settled, and tasks come to
    wait only while admission is open. -/
theorem grows_step {m c : Nat} {s : SchedulerThreads π ρ} (h : ThreadsInv m c s)
    (i : SchedulerInput π ρ) : Grows s (schedulerStep s i).1 := by
  cases i with
  | submit task delay interval now => exact grows_submit h task delay interval now
  | release n now => exact grows_release s n now
  | shutdown cancel_pending => exact grows_shutdown s cancel_pending
  | start =>
    simp only [schedulerStep]
    split
    · exact Grows.refl s
    · rename_i hsched
      rcases start_eq hsched with rfl | rfl
      · exact Grows.refl s
      · exact Grows.of_same rfl rfl rfl fun _ hq => hq
  | dispatch now =>
    simp only [schedulerStep]
    split
    · split
      · rename_i htakes
        rw [DaemonScheduler.dispatch_some htakes]
        exact Grows.of_same rfl rfl rfl fun _ hq => List.mem_of_mem_erase hq
      · rename_i hnone
        rcases DaemonScheduler.dispatch_none hnone with heq | heq
        · rw [heq]
          exact Grows.refl s
        · rw [heq]
          exact Grows.of_same rfl rfl rfl fun _ hq => hq
    · exact Grows.refl s
  | settle n =>
    simp only [schedulerStep]
    split
    · split
      · refine ⟨le_refl _, fun k hk => ?_, fun _ hn => Or.inl hn, Or.inr fun _ hq => hq⟩
        show k ∈ (s.sched.settled ++ _).map Prod.fst
        rw [List.map_append]
        exact List.mem_append_left _ hk
      · exact Grows.refl s
    · exact Grows.refl s
  | finishShutdown =>
    simp only [schedulerStep]
    split
    · rcases endShutdown_eq s.sched with heq | heq
      · rw [heq]
        exact Grows.refl s
      · rw [heq]
        exact Grows.of_same rfl rfl rfl fun _ hq => hq
    · exact Grows.refl s
  | handOver | beginHandler | finishHandler =>
    simp only [schedulerStep]
    split <;> exact Grows.of_same rfl rfl rfl fun _ hq => hq
  | attach =>
    simp only [schedulerStep]
    split
    · split <;> exact Grows.of_same rfl rfl rfl fun _ hq => hq
    · exact Grows.refl s

/-! ## The last section -/

/-- The invariant of runs in which no future has been abandoned. -/
structure ShutdownInv (m c : Nat) (s : SchedulerThreads π ρ) : Prop where
  threads : ThreadsInv m c s
  handing : Handing s
  issued : ∀ n ∈ s.returned, n < s.sched.next_completion
  done : s.sched.phase = .stopped → ∀ n ∈ s.returned, n ∈ s.sched.settled.map Prod.fst

variable {m c : Nat} {s : SchedulerThreads π ρ}

omit [DecidableEq π] in
theorem shutdownInv_new (handlers : List String) (m c : Nat) :
    ShutdownInv m c (.new handlers m c : SchedulerThreads π ρ) where
  threads := threadsInv_new handlers m c
  handing := fun _ hn => nomatch hn
  issued := fun _ hn => nomatch hn
  done := fun hphase => nomatch hphase

omit [DecidableEq π] in
/-- **When the executor is drained**, a future is done unless its task still waits. -/
theorem done_iff (h : ThreadsInv m c s) (hdrained : s.drained = true) {n : Nat}
    (hn : n < s.sched.next_completion) :
    n ∈ s.sched.settled.map Prod.fst ↔ n ∉ numbers s.sched.pending := by
  have hrest : (s.stage n).atRest = true :=
    List.all_eq_true.mp hdrained n (List.mem_range.mpr hn)
  rw [h.tracked.settled n, h.tracked.waiting n]
  cases hstage : s.stage n with
  | waiting =>
    constructor
    · intro hs; cases hs
    · intro hw; exact absurd ⟨hn, rfl⟩ hw
  | settled =>
    constructor
    · rintro - ⟨-, hw⟩; cases hw
    · intro _; rfl
  | taken | submitted | running | executed | released =>
    rw [hstage] at hrest
    cases hrest

theorem finishShutdown_eq (h : s.finishes = true) :
    (schedulerStep s .finishShutdown).1 =
      { s with sched := { s.sched with phase := .stopped } } := by
  obtain ⟨hdrained, hjoined⟩ := (Bool.and_eq_true _ _).mp h
  simp only [schedulerStep]
  rw [if_pos hdrained]
  unfold DaemonScheduler.endShutdown
  rw [if_pos (of_decide_eq_true hjoined)]

theorem abandonsNone_iff (e : Step (SchedulerThreads π ρ) (SchedulerInput π ρ) (SchedulerReport π))
    (hof : e.Of schedulerStep) (h : ShutdownInv m c e.before) :
    AbandonsNone e ↔ LeavesNoneWaiting e.before e.input := by
  obtain ⟨s, i, o, s'⟩ := e
  obtain rfl : (schedulerStep s i).1 = s' := hof.after_eq
  replace h : ShutdownInv m c s := h
  show ((schedulerStep s i).1.sched.phase = .stopped → ∀ n ∈ (schedulerStep s i).1.returned,
    n ∈ (schedulerStep s i).1.sched.settled.map Prod.fst) ↔ LeavesNoneWaiting s i
  by_cases hlast : i = .finishShutdown ∧ s.finishes = true
  · obtain ⟨rfl, hfinishes⟩ := hlast
    have hdrained := ((Bool.and_eq_true _ _).mp hfinishes).1
    rw [finishShutdown_eq hfinishes]
    constructor
    · intro hdone _ q hq hreturned
      have hsettled := hdone rfl q.completion hreturned
      have hnot := (done_iff h.threads hdrained (h.issued _ hreturned)).mp hsettled
      exact hnot (List.mem_map_of_mem hq)
    · intro hnone _ n hn
      refine (done_iff h.threads hdrained (h.issued n hn)).mpr fun hpending => ?_
      obtain ⟨q, hq, rfl⟩ := List.mem_map.mp hpending
      exact hnone hfinishes q hq hn
  · have hcondition : LeavesNoneWaiting s i := by
      cases i with
      | finishShutdown => exact fun hfinishes => absurd ⟨rfl, hfinishes⟩ hlast
      | start | submit | dispatch | handOver | attach | beginHandler | finishHandler | release
        | settle | shutdown => trivial
    refine ⟨fun _ => hcondition, fun _ hstopped n hn => ?_⟩
    have hgrows := grows_step h.threads i
    rcases phase_step s i with hphase | ⟨-, hphase⟩ | ⟨-, hphase, -⟩ | hfinish
    · -- it was stopped before
      have hbefore : s.sched.phase = .stopped := hphase.symm.trans hstopped
      rcases hgrows.returned n hn with hn | ⟨haccepting, -⟩
      · exact hgrows.settled n (h.done hbefore n hn)
      · unfold DaemonScheduler.accepting at haccepting
        rw [hbefore] at haccepting
        cases haccepting
    · rw [hstopped] at hphase; cases hphase
    · rw [hstopped] at hphase; cases hphase
    · exact absurd hfinish hlast

theorem shutdownInv_step (s : SchedulerThreads π ρ) (i : SchedulerInput π ρ)
    (h : ShutdownInv m c s) (hok : LeavesNoneWaiting s i) :
    ShutdownInv m c (schedulerStep s i).1 where
  threads := threadsInv_step h.threads h.handing i
  handing := handing_step h.threads h.handing i
  issued := fun n hn => by
    have hgrows := grows_step h.threads i
    rcases hgrows.returned n hn with hn | ⟨-, hlt⟩
    · exact (h.issued n hn).trans_le hgrows.next
    · exact hlt
  done := (abandonsNone_iff ⟨s, i, (schedulerStep s i).2, (schedulerStep s i).1⟩ rfl h).mpr hok

/-- **No future is abandoned** exactly in the runs in which no task whose future `submit` has
    returned still waits when a `shutdown` finishes. -/
theorem abandons_iff (handlers : List String) (max_concurrency queue_capacity : Nat)
    (inputs : List (SchedulerInput π ρ)) :
    (∀ e ∈ run schedulerStep (.new handlers max_concurrency queue_capacity) inputs,
      AbandonsNone e) ↔
      ∀ e ∈ run schedulerStep (.new handlers max_concurrency queue_capacity) inputs,
        LeavesNoneWaiting e.before e.input :=
  @run_forall_iff _ _ _ _ (ShutdownInv max_concurrency queue_capacity) _ _ shutdownInv_step
    abandonsNone_iff _ inputs (shutdownInv_new handlers max_concurrency queue_capacity)

/-! ## A delayed task -/

/-- A task that is due in ten seconds; it is waiting when `shutdown(cancel_pending=False)` closes
    admission, the dispatcher finds nothing to run and leaves, and the scheduler stops. -/
def delayedRun : List (SchedulerInput Unit Unit) :=
  [.start, .submit sampleTask 10 none 0,
    .shutdown false, .dispatch 1, .finishShutdown]

theorem delayed_is_abandoned :
    ¬ ∀ e ∈ run schedulerStep (.new ["k"] 4 256) delayedRun, AbandonsNone e := by
  intro h
  have hlast := h ((run schedulerStep (.new ["k"] 4 256) delayedRun).get ⟨4, by decide +kernel⟩)
    (List.get_mem _ _)
  unfold AbandonsNone at hlast
  revert hlast
  decide +kernel

end

end NuSelf.Daemon
