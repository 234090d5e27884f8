/-
  The daemon scheduler in every interleaving of its threads.

  `ThreadsInv` joins the admission invariant of `Daemon.Scheduler` with the two of
  `Daemon.Occurrences`; each step of a thread keeps it.  From it, at every moment of every run:

  - the active map has exactly the identities of the waiting and in-flight tasks;
  - the tasks in flight fit the slots and hold pairwise different resources, the busy ones;
  - the active tasks fit the capacity;
  - no handler was called twice for one occurrence, and no future was completed twice;

  and each task that a step dispatches is the first of the runnable ones (`scheduler_sound`).
-/
import NuSelf.Daemon.Occurrences

namespace NuSelf.Daemon

open NuSelf.Lib

variable {π ρ : Type}

/-! ## Every interleaving -/

/-- The three invariants of the scheduler and its threads. -/
structure ThreadsInv (m c : Nat) (s : SchedulerThreads π ρ) : Prop where
  admitted : s.sched.Admitted
  tracked : Tracked s.sched s.stage s.runs
  bounds : InBounds m c s.sched

section
variable {m c : Nat} {s : SchedulerThreads π ρ}

theorem threadsInv_new (handlers : List String) (m c : Nat) :
    ThreadsInv m c (.new handlers m c : SchedulerThreads π ρ) :=
  ⟨DaemonScheduler.admitted_new handlers m c, tracked_new handlers m c, inBounds_new handlers m c⟩

theorem ThreadsInv.pending_numbers (h : ThreadsInv m c s) : (numbers s.sched.pending).Nodup := by
  have hall := h.admitted.futures
  rw [DaemonScheduler.live, List.map_append, List.nodup_append'] at hall
  exact hall.1

theorem ThreadsInv.flight_numbers (h : ThreadsInv m c s) : (numbers s.sched.in_flight).Nodup := by
  have hall := h.admitted.futures
  rw [DaemonScheduler.live, List.map_append, List.nodup_append'] at hall
  exact hall.2.1

/-- A section that moves no occurrence: only the phase and the dispatcher's life change. -/
theorem ThreadsInv.turn (h : ThreadsInv m c s) (phase : SchedulerPhase) (alive : Bool)
    {dispatcher : DispatcherPoint} {attached : Nat → Bool} {returned : List Nat} :
    ThreadsInv m c ⟨{ s.sched with phase := phase, dispatcher_alive := alive }, dispatcher,
      s.stage, attached, s.runs, returned⟩ :=
  ⟨h.admitted.stay (List.Perm.refl _) rfl rfl, h.tracked.of_eq rfl rfl rfl rfl,
    h.bounds.same ⟨rfl, rfl⟩ rfl rfl h.bounds.room⟩

theorem ThreadsInv.advance (h : ThreadsInv m c s) {n : Nat} {x : TaskStage ρ}
    (hold : (s.stage n).inFlight = true) (hnew : x.inFlight = true)
    (hbegun : (s.stage n).begun = true → x.begun = true) {dispatcher : DispatcherPoint}
    {attached : Nat → Bool} {returned : List Nat} :
    ThreadsInv m c ⟨s.sched, dispatcher, s.setStage n x, attached, s.runs, returned⟩ :=
  ⟨h.admitted, h.tracked.advance hold hnew hbegun, h.bounds⟩

/-- What the dispatcher is about to hand over is only taken. -/
def Handing (s : SchedulerThreads π ρ) : Prop := ∀ n, s.dispatcher = .handing n → s.stage n = .taken

/-- Another occurrence's stage moves; the dispatcher hands over nothing new. -/
theorem Handing.move (h : Handing s) {n : Nat} {x : TaskStage ρ} (hn : s.stage n ≠ .taken)
    {sched : DaemonScheduler π ρ} {dispatcher : DispatcherPoint} {attached : Nat → Bool}
    {runs returned : List Nat} (hpoint : ∀ m, dispatcher = .handing m → s.dispatcher = .handing m) :
    Handing ⟨sched, dispatcher, s.setStage n x, attached, runs, returned⟩ := by
  intro m hm
  have hstage := h m (hpoint m hm)
  show (if m = n then x else s.stage m) = .taken
  rw [if_neg]
  · exact hstage
  · rintro rfl
    exact hn hstage

variable [DecidableEq π]

attribute [local simp] schedulerStep

theorem threadsInv_start (h : ThreadsInv m c s) :
    ThreadsInv m c (schedulerStep s .start).1 := by
  simp only [schedulerStep]
  split
  · exact h
  · rename_i sched hsched
    rcases start_eq hsched with rfl | rfl
    · exact h
    · exact h.turn .running true

theorem threadsInv_submit (h : ThreadsInv m c s) (task : DaemonTask π) (delay now : Rat)
    (interval : Option Rat) :
    ThreadsInv m c (schedulerStep s (.submit task delay interval now)).1 := by
  simp only [schedulerStep]
  split
  · exact h
  · rename_i sched n hsched
    have hadmitted := h.admitted.change (DaemonScheduler.change_submit hsched)
    rcases DaemonScheduler.submit_admits hsched with ⟨-, -, rfl, -⟩ | ⟨-, hnew⟩
    · exact ⟨hadmitted, h.tracked, h.bounds⟩
    · obtain ⟨r, hr, hbounds, hroom, hflight, hbusy, hsettled⟩ := hnew
      refine ⟨hadmitted, h.tracked.admit hr hflight hsettled,
        h.bounds.same hbounds hflight hbusy ?_⟩
      -- one more task is active, and the map said there was room for it
      have hkeys := (active_keys h.admitted).length_eq
      have hcapacity := h.bounds.capacity
      rw [List.length_map] at hkeys
      rw [DaemonScheduler.live, hr.pending, hflight, List.append_assoc, List.length_append]
      simp only [DaemonScheduler.live, List.length_append, List.length_singleton] at hkeys ⊢
      omega

theorem threadsInv_dispatch (h : ThreadsInv m c s) (now : Rat) :
    ThreadsInv m c (schedulerStep s (.dispatch now)).1 := by
  simp only [schedulerStep]
  split
  · split
    · rename_i q hq
      have hadmitted := h.admitted.change
        (DaemonScheduler.change_dispatch s.sched now : DaemonScheduler.Change (fun _ => True) _ _)
      have hmem := (DaemonScheduler.takes_spec hq).2.2.1.1
      have heq := DaemonScheduler.dispatch_some hq
      refine ⟨hadmitted, ?_, h.bounds.take hq⟩
      exact h.tracked.take h.pending_numbers hmem (by rw [heq]) (by rw [heq]) (by rw [heq])
        (by rw [heq])
    · rename_i hnone
      rcases DaemonScheduler.dispatch_none hnone with heq | heq
      · rw [heq]
        exact h
      · rw [heq]
        exact h.turn s.sched.phase false
  · exact h

theorem threadsInv_release (h : ThreadsInv m c s) (n : Nat) (now : Rat) :
    ThreadsInv m c (schedulerStep s (.release n now)).1 := by
  simp only [schedulerStep]
  split
  · split
    · rename_i outcome q hstage hfind
      have hmem : q ∈ s.sched.in_flight := List.mem_of_find?_eq_some hfind
      have hn : q.completion = n := by
        have hprop := List.find?_some hfind
        exact of_decide_eq_true hprop
      subst hn
      have hr := DaemonScheduler.releases s.sched q outcome now
      have hchange := DaemonScheduler.change_complete hmem outcome now
      refine ⟨?_, ?_, h.bounds.free hmem hr⟩
      · exact (h.admitted.change hchange).stay (List.Perm.refl _) rfl rfl
      · -- the locked section is the taking out, and then the next round's admission
        have hfreed : Tracked { s.sched with in_flight := s.sched.in_flight.erase q }
            (s.setStage q.completion (.released outcome)) s.runs :=
          h.tracked.free h.flight_numbers hmem hstage rfl rfl rfl rfl
        rcases hr.waits with ⟨hpending, hnext⟩ | ⟨-, r, hadmits⟩
        · exact hfreed.of_eq hpending hr.in_flight hnext hr.settled
        · exact hfreed.admit ⟨hadmits.number, hadmits.pending, hadmits.next⟩ hr.in_flight hr.settled
    · exact h
  · exact h

theorem threadsInv_settle (h : ThreadsInv m c s) (n : Nat) :
    ThreadsInv m c (schedulerStep s (.settle n)).1 := by
  simp only [schedulerStep]
  split
  · split
    · rename_i outcome hstage
      refine ⟨h.admitted.stay (List.Perm.refl _) rfl rfl, ?_, h.bounds.same ⟨rfl, rfl⟩ rfl rfl
        h.bounds.room⟩
      have hnotWaiting : n ∉ numbers s.sched.pending := by
        intro hn
        have hw := ((h.tracked.waiting n).mp hn).2
        rw [hstage] at hw
        cases hw
      have hlt : n < s.sched.next_completion := by
        rcases Nat.lt_or_ge n s.sched.next_completion with hlt | hge
        · exact hlt
        · have hw := h.tracked.fresh n hge
          rw [hstage] at hw
          cases hw
      have hdone : Tracked (s.sched.settle n outcome)
          (fun m => if m ∈ [n] then .settled else s.stage m) s.runs := by
        refine h.tracked.complete rfl (List.nodup_singleton n) (fun m hm => ?_) (fun m => ?_)
          rfl rfl rfl
        · obtain rfl := List.mem_singleton.mp hm
          rw [hstage]
          exact ⟨hlt, rfl, fun he => nomatch he⟩
        · constructor
          · intro hm
            exact ⟨hm, fun hmn => hnotWaiting (List.mem_singleton.mp hmn ▸ hm)⟩
          · rintro ⟨hm, -⟩
            exact hm
      simp only [List.mem_singleton] at hdone
      exact hdone
    · exact h
  · exact h

theorem threadsInv_shutdown (h : ThreadsInv m c s) (cancel_pending : Bool) :
    ThreadsInv m c (schedulerStep s (.shutdown cancel_pending)).1 := by
  simp only [schedulerStep]
  have hadmitted := h.admitted.change (DaemonScheduler.change_beginShutdown s.sched cancel_pending :
    DaemonScheduler.Change (fun _ => True) _ _)
  rcases s.sched.beginShutdown_cases cancel_pending with ⟨hnone, phase, heq⟩ | ⟨hall, hsame⟩
  · rw [hnone, heq]
    simp only [List.not_mem_nil, if_false]
    exact h.turn phase s.sched.dispatcher_alive
  · obtain ⟨hpending, hflight, hbusy, hnext, hsettled, hbounds⟩ := hsame
    rw [hall]
    refine ⟨hadmitted, ?_, h.bounds.same hbounds hflight hbusy ?_⟩
    · refine h.tracked.complete ?_ h.pending_numbers (fun m hm => ?_) (fun m => ?_) hflight hnext
        hsettled
      · rw [List.map_map]; rfl
      · obtain ⟨hlt, hstage⟩ := (h.tracked.waiting m).mp hm
        rw [hstage]
        exact ⟨hlt, rfl, fun he => nomatch he⟩
      · rw [hpending]
        constructor
        · intro hm; exact nomatch hm
        · rintro ⟨hm, hn⟩; exact absurd hm hn
    · have hroom := h.bounds.room
      rw [DaemonScheduler.live, List.length_append] at hroom ⊢
      rw [hpending, hflight, List.length_nil]
      omega

theorem handing_step (h : ThreadsInv m c s) (hh : Handing s) (i : SchedulerInput π ρ) :
    Handing (schedulerStep s i).1 := by
  cases i with
  | start | submit | finishShutdown =>
    simp only [schedulerStep]
    split
    · exact hh
    · exact hh
  | dispatch now =>
    simp only [schedulerStep]
    split
    · rename_i hloop
      split
      · intro n hn
        obtain rfl := DispatcherPoint.handing.inj hn
        exact if_pos rfl
      · exact hh
    · exact hh
  | handOver =>
    simp only [schedulerStep]
    split
    · intro n hn; cases hn
    · exact hh
  | attach =>
    simp only [schedulerStep]
    split
    · split
      · intro n hn; cases hn
      · intro n hn; cases hn
    · exact hh
  | beginHandler n =>
    simp only [schedulerStep]
    split
    · rename_i hstage
      exact hh.move (by rw [hstage]; exact fun he => nomatch he) fun _ he => he
    · exact hh
  | finishHandler n outcome =>
    simp only [schedulerStep]
    split
    · rename_i hstage
      exact hh.move (by rw [hstage]; exact fun he => nomatch he) fun _ he => he
    · exact hh
  | release n now =>
    simp only [schedulerStep]
    split
    · split
      · rename_i hstage _
        exact hh.move (by rw [hstage]; exact fun he => nomatch he) fun _ he => he
      · exact hh
    · exact hh
  | settle n =>
    simp only [schedulerStep]
    split
    · split
      · rename_i hstage
        refine hh.move (by rw [hstage]; exact fun he => nomatch he) fun m he => ?_
        split at he
        · cases he
        · exact he
      · exact hh
    · exact hh
  | shutdown cancel_pending =>
    simp only [schedulerStep]
    intro n hn
    have hstage := hh n hn
    show (if n ∈ s.sched.cancels cancel_pending then TaskStage.settled else s.stage n) = .taken
    rw [if_neg]
    · exact hstage
    · intro hcancelled
      -- only waiting occurrences are cancelled
      rcases s.sched.beginShutdown_cases cancel_pending with ⟨hnone, -⟩ | ⟨hall, -⟩
      · rw [hnone] at hcancelled; exact nomatch hcancelled
      · rw [hall] at hcancelled
        have hwaiting := ((h.tracked.waiting n).mp hcancelled).2
        rw [hstage] at hwaiting
        cases hwaiting

/-- **Every step of every thread keeps the invariants.** -/
theorem threadsInv_step (h : ThreadsInv m c s) (hh : Handing s) (i : SchedulerInput π ρ) :
    ThreadsInv m c (schedulerStep s i).1 := by
  cases i with
  | start => exact threadsInv_start h
  | submit task delay interval now => exact threadsInv_submit h task delay now interval
  | dispatch now => exact threadsInv_dispatch h now
  | release n now => exact threadsInv_release h n now
  | settle n => exact threadsInv_settle h n
  | shutdown cancel_pending => exact threadsInv_shutdown h cancel_pending
  | handOver =>
    simp only [schedulerStep]
    split
    · rename_i n hpoint
      have hstage := hh n hpoint
      exact h.advance (by rw [hstage]; rfl) rfl (by rw [hstage]; exact fun he => nomatch he)
    · exact h
  | attach =>
    simp only [schedulerStep]
    split
    · split
      · exact h.turn s.sched.phase s.sched.dispatcher_alive
      · exact h.turn s.sched.phase s.sched.dispatcher_alive
    · exact h
  | beginHandler n =>
    simp only [schedulerStep]
    split
    · rename_i hstage
      have hcalled := h.tracked.call (n := n) (by rw [hstage]; rfl) h.tracked.begun
      have hmoved : Tracked s.sched (s.setStage n .running) s.runs :=
        h.tracked.advance (by rw [hstage]; rfl) rfl fun _ => rfl
      refine ⟨h.admitted, { hmoved with begun := fun m hm => ?_, run_once := hcalled }, h.bounds⟩
      rcases List.mem_append.mp hm with hm | hm
      · exact hmoved.begun m hm
      · show (if m = n then TaskStage.running else s.stage m).begun = true
        rw [if_pos (List.mem_singleton.mp hm)]
        rfl
    · exact h
  | finishHandler n outcome =>
    simp only [schedulerStep]
    split
    · rename_i hstage
      exact h.advance (by rw [hstage]; rfl) rfl fun _ => rfl
    · exact h
  | finishShutdown =>
    simp only [schedulerStep]
    split
    · rcases endShutdown_eq s.sched with heq | heq
      · rw [heq]; exact h
      · rw [heq]
        exact h.turn .stopped s.sched.dispatcher_alive
    · exact h

/-- What holds of the scheduler at every moment. -/
structure SchedulerSound (m c : Nat) (s : SchedulerThreads π ρ) : Prop where
  /-- The keys of the active map are the identities of the waiting and in-flight tasks. -/
  active : s.sched.active.keys.Perm
    ((s.sched.pending ++ s.sched.in_flight).map fun q => q.task.identity)
  active_once : s.sched.active.keys.Nodup
  slots : s.sched.in_flight.length ≤ m
  resources : (s.sched.in_flight.map fun q => q.task.resource).Nodup
  /-- The busy set is the resources of the tasks in flight. -/
  busy : s.sched.busy_resources.Perm (s.sched.in_flight.map fun q => q.task.resource)
  capacity : s.sched.active.keys.length ≤ c
  called_once : s.runs.Nodup
  completed_once : (s.sched.settled.map Prod.fst).Nodup

omit [DecidableEq π] in
theorem ThreadsInv.sound (h : ThreadsInv m c s) : SchedulerSound m c s where
  active := active_keys h.admitted
  active_once := s.sched.active.nodup
  slots := h.bounds.flights
  resources := h.bounds.busy.nodup_iff.mp h.bounds.apart
  busy := h.bounds.busy
  capacity := by
    have hkeys := (active_keys h.admitted).length_eq
    rw [List.length_map] at hkeys
    rw [hkeys]
    exact h.bounds.room
  called_once := h.tracked.run_once
  completed_once := h.tracked.settled_once

/-- A task that the step dispatches is the first of the runnable ones, and in flight after it. -/
def DispatchesFirst (e : Step (SchedulerThreads π ρ) (SchedulerInput π ρ) (SchedulerReport π)) :
    Prop :=
  ∀ q, e.output = .dispatched q → ∃ now, e.input = .dispatch now ∧
    e.before.sched.Runnable now q ∧ (∀ r, e.before.sched.Runnable now r → q.key ≤ r.key) ∧
    e.after.sched.in_flight = q :: e.before.sched.in_flight

omit s in
theorem dispatchesFirst_step (s : SchedulerThreads π ρ) (i : SchedulerInput π ρ) :
    DispatchesFirst ⟨s, i, (schedulerStep s i).2, (schedulerStep s i).1⟩ := by
  intro q hq
  cases i with
  | dispatch now =>
    dsimp only at hq ⊢
    simp only [schedulerStep] at hq ⊢
    split at hq
    · rename_i hloop
      rw [if_pos hloop]
      split at hq
      · rename_i taken htaken
        obtain rfl := SchedulerReport.dispatched.inj hq
        obtain ⟨-, -, hrunnable, hfirst⟩ := DaemonScheduler.takes_spec htaken
        refine ⟨now, rfl, hrunnable, hfirst, ?_⟩
        show (s.sched.dispatch now).in_flight = _
        rw [DaemonScheduler.dispatch_some htaken]
      · cases hq
    · cases hq
  | start | submit | handOver | attach | beginHandler | finishHandler | release | settle | shutdown
    | finishShutdown =>
    -- the other steps report no dispatch
    exfalso
    dsimp only at hq
    simp only [schedulerStep] at hq
    repeat' split at hq
    all_goals cases hq

/-- **The scheduler is sound in every interleaving.** -/
theorem scheduler_sound (handlers : List String) (max_concurrency queue_capacity : Nat)
    (inputs : List (SchedulerInput π ρ)) :
    ∀ e ∈ run schedulerStep (.new handlers max_concurrency queue_capacity) inputs,
      SchedulerSound max_concurrency queue_capacity e.before ∧
      SchedulerSound max_concurrency queue_capacity e.after ∧ DispatchesFirst e := by
  intro e he
  have hkeep : ∀ (s : SchedulerThreads π ρ) (i : SchedulerInput π ρ),
      ThreadsInv max_concurrency queue_capacity s ∧ Handing s →
      ThreadsInv max_concurrency queue_capacity (schedulerStep s i).1 ∧
        Handing (schedulerStep s i).1 :=
    fun s i h => ⟨threadsInv_step h.1 h.2 i, handing_step h.1 h.2 i⟩
  have hstart : ThreadsInv max_concurrency queue_capacity
        (.new handlers max_concurrency queue_capacity : SchedulerThreads π ρ) ∧
      Handing (.new handlers max_concurrency queue_capacity : SchedulerThreads π ρ) :=
    ⟨threadsInv_new handlers max_concurrency queue_capacity, fun n hn => nomatch hn⟩
  obtain ⟨hbefore, hafter⟩ := run_invariant hkeep hstart inputs e he
  refine ⟨hbefore.1.sound, hafter.1.sound, ?_⟩
  have hof := run_of schedulerStep _ inputs e he
  have hafter' : (schedulerStep e.before e.input).1 = e.after := hof.after_eq
  have houtput : (schedulerStep e.before e.input).2 = e.output := congrArg Prod.snd hof
  have hfirst := dispatchesFirst_step e.before e.input
  rw [hafter', houtput] at hfirst
  exact hfirst

def sampleTask : DaemonTask Unit :=
  ⟨"k", "i", "r", (), 100, by decide, by decide, by decide⟩

/-- A submission before the scheduler starts, and its dispatch. -/
def promptRun : List (SchedulerInput Unit Unit) :=
  [.submit sampleTask 0 none 0, .start, .dispatch 1]

theorem prompt_sound :
    SchedulerSound 1 1 (final schedulerStep (.new ["k"] 1 1) promptRun) ∧
      (final schedulerStep (.new ["k"] 1 1) promptRun).sched.busy_resources = ["r"] := by
  have hlast := scheduler_sound ["k"] 1 1 promptRun
    ((run schedulerStep (.new ["k"] 1 1) promptRun).get ⟨2, by decide +kernel⟩) (List.get_mem _ _)
  exact ⟨hlast.2.1, by decide +kernel⟩

end

end NuSelf.Daemon
