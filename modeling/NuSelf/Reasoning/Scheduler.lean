/-
  The reason scheduler: which thread a pass advances, and which threads wait.

  A pass lists the threads, oldest first, and takes the first active one whose deferral is over.
  Once the advancer has answered, the thread is deferred by one interval.  The daemon starts the
  next pass one interval after the pass has ended, which is later: by then that deferral is over.

  The observer keeps the threads that the scheduler itself has deferred last (`cooled`), and who
  has waited since whose selection (`waits`).

  1. `cooldowns_step` — the deferrals of the scheduler are over when a pass can start.
  2. `select_eq_oldest` — so a pass takes the oldest thread that nobody else has deferred.
  3. `not_starved_iff` — a run starves no thread exactly when this order happens to go round.

  Every input brings the time since the one before, so the clock is strictly increasing; a pass
  that is not due does not start.
-/
import Mathlib.Data.List.Find
import Mathlib.Data.List.Sort
import NuSelf.Lib.Run
import NuSelf.Lib.Shelf
import NuSelf.Reasoning.Service

namespace NuSelf.Reasoning

open NuSelf.Lib

/-! ## The stored threads -/

/-- `reason_threads`, as far as its records decode. -/
abbrev ReasonThreads := Shelf ReasoningThread.id fun _ => true

/-- What may happen to the stored threads. -/
inductive ThreadChange where
  | start (topic working_summary : String) (active_items : List Mapping) (mandates : List String)
      (prompt id : String)
  | setStatus (id : String) (new_status : ReasonStatus)
  | advance (id : String) (step : ReasoningStep)
  | defer (id until_time : String)
  | delete (id : String)

/-- The order of the listing: `(created_at, id)`. -/
def listedBefore (a b : ReasoningThread) : Prop :=
  a.created_at < b.created_at ∨ (a.created_at = b.created_at ∧ a.id ≤ b.id)

instance : DecidableRel listedBefore := fun a b =>
  inferInstanceAs
    (Decidable (a.created_at < b.created_at ∨ (a.created_at = b.created_at ∧ a.id ≤ b.id)))

namespace ReasonThreads

/-- `list_threads(status=None)`: the active and the paused ones. -/
def listThreads (threads : ReasonThreads) : List ReasoningThread :=
  (threads.records.filter fun t => decide (t.status = .active ∨ t.status = .paused)).insertionSort
    listedBefore

/-- A thread is read, changed and saved. -/
def update (threads : ReasonThreads) (id : String)
    (f : ReasoningThread → Except ReasonError ReasoningThread) : Except ReasonError ReasonThreads :=
  match threads.get id with
  | none => .error (.notFound id)
  | some thread => (f thread).map fun updated => threads.put updated rfl

variable (iso : IsoTime)

/-- The service call. -/
def change (threads : ReasonThreads) (now : Int) : ThreadChange → Except ReasonError ReasonThreads
  | .start topic working_summary active_items mandates prompt id =>
    (startThread iso topic working_summary active_items mandates prompt id now).map fun thread =>
      threads.put thread rfl
  | .setStatus id new_status => threads.update id fun thread => transition iso thread new_status now
  | .advance id step => threads.update id fun thread => advanceThread iso thread step now
  | .defer id until_time => threads.update id fun thread => deferAdvancement iso thread until_time
  | .delete id =>
    match threads.get id with
    | none => .error (.notFound id)
    | some _ => .ok (threads.remove id)

end ReasonThreads

/-! ## A pass -/

section

variable (iso : IsoTime) (interval_seconds : Nat)

/-- The end of a deferral; a thread that decodes has no text there that is not a time. -/
def cooldownEnd (thread : ReasoningThread) : Option Int :=
  thread.skip_next_advance_until.bind fun text =>
    match iso.fromisoformat text with
    | some (.aware t) => some t
    | _ => none

/-- The deferral is over, or there is none. -/
def eligible (now : Int) (thread : ReasoningThread) : Bool :=
  (cooldownEnd iso thread).all fun cooldown_end => decide (cooldown_end ≤ now)

/-- The active threads, oldest first. -/
def activeThreads (threads : ReasonThreads) : List ReasoningThread :=
  threads.listThreads.filter fun t => decide (t.status = .active)

/-- The candidate of `run_once`. -/
def select (now : Int) (threads : ReasonThreads) : Option ReasoningThread :=
  (activeThreads threads).find? (eligible iso now)

/-- Where the task is. -/
inductive TaskPhase where
  /-- It is queued to run at this time. -/
  | waiting (run_at : Int)
  | advancing (id : String)
  /-- The advance has ended; `_apply_cooldown` is next. -/
  | cooling (id : String)
  | ending
  deriving DecidableEq

structure SchedulerState where
  threads : ReasonThreads
  phase : TaskPhase
  clock : Int

/-- What the advancer does. -/
inductive AdvancerAnswer where
  /-- It raises, or returns no step. -/
  | nothing
  | step (step : ReasoningStep)

inductive SchedulerEvent where
  | check
  | advanced (answer : AdvancerAnswer)
  | cool
  /-- `DaemonScheduler._complete`: the task is queued again. -/
  | complete
  /-- A call from elsewhere. -/
  | call (change : ThreadChange)

/-- An event, so much later than the one before. -/
structure SchedulerInput where
  elapsed : Nat
  event : SchedulerEvent

inductive SchedulerOutput where
  | selected (id : String)
  /-- The scheduler has deferred the thread. -/
  | cooled (id : String)
  /-- Someone else has. -/
  | deferred (id : String)
  | other
  deriving DecidableEq

namespace SchedulerState

/-- The time of an input. -/
def now (s : SchedulerState) (i : SchedulerInput) : Int := s.clock + 1 + i.elapsed

/-- The end of the cooldown that starts now. -/
def cooldownFrom (now : Int) : Int := now + interval_seconds * 1000000

/-- `run_once` up to the call of the advancer. -/
def check (s : SchedulerState) (now : Int) : SchedulerState × SchedulerOutput :=
  match s.phase with
  | .waiting run_at =>
    if now < run_at then ({ s with clock := now }, .other)
    else
      match select iso now s.threads with
      | none => ({ s with clock := now, phase := .ending }, .other)
      | some candidate =>
        ({ s with clock := now, phase := .advancing candidate.id }, .selected candidate.id)
  | _ => ({ s with clock := now }, .other)

/-- A step is applied by `advance_thread`, which may raise. -/
def advanced (s : SchedulerState) (answer : AdvancerAnswer) (now : Int) :
    SchedulerState × SchedulerOutput :=
  match s.phase, answer with
  | .advancing id, .nothing => ({ s with clock := now, phase := .cooling id }, .other)
  | .advancing id, .step step =>
    match s.threads.change iso now (.advance id step) with
    | .ok threads => ({ threads, clock := now, phase := .cooling id }, .other)
    | .error _ => ({ s with clock := now, phase := .ending }, .other)
  | _, _ => ({ s with clock := now }, .other)

/-- `_apply_cooldown`. -/
def cool (s : SchedulerState) (now : Int) : SchedulerState × SchedulerOutput :=
  match s.phase with
  | .cooling id =>
    match s.threads.change iso now
        (.defer id (iso.isoformat (cooldownFrom interval_seconds now))) with
    | .ok threads => ({ threads, clock := now, phase := .ending }, .cooled id)
    | .error _ => ({ s with clock := now, phase := .ending }, .other)
  | _ => ({ s with clock := now }, .other)

/-- The task is queued again, one interval from now. -/
def complete (s : SchedulerState) (now : Int) : SchedulerState × SchedulerOutput :=
  match s.phase with
  | .ending =>
    ({ s with clock := now, phase := .waiting (cooldownFrom interval_seconds now) }, .other)
  | _ => ({ s with clock := now }, .other)

/-- A call from elsewhere; one that raises changes nothing. -/
def call (s : SchedulerState) (change : ThreadChange) (now : Int) :
    SchedulerState × SchedulerOutput :=
  match s.threads.change iso now change with
  | .error _ => ({ s with clock := now }, .other)
  | .ok threads =>
    ({ s with threads, clock := now },
      match change with
      | .defer id _ => .deferred id
      | _ => .other)

def step (s : SchedulerState) (i : SchedulerInput) : SchedulerState × SchedulerOutput :=
  match i.event with
  | .check => s.check iso (s.now i)
  | .advanced answer => s.advanced iso answer (s.now i)
  | .cool => s.cool iso interval_seconds (s.now i)
  | .complete => s.complete interval_seconds (s.now i)
  | .call change => s.call iso change (s.now i)

end SchedulerState

/-! ## The observer -/

structure Watch where
  /-- The threads that the scheduler was the last to defer. -/
  cooled : List String := []
  /-- `(a, b)`: since the latest selection of `a`, `b` has been active and not deferred, and has
      not been selected. -/
  waits : List (String × String) := []

/-- Whom a selection of `a` leaves waiting. -/
def leftWaiting (now : Int) (threads : ReasonThreads) (a : String) : List (String × String) :=
  ((activeThreads threads).filter fun t => eligible iso now t && decide (t.id ≠ a)).map
    fun t => (a, t.id)

/-- The thread is stored, and active. -/
def isActive (threads : ReasonThreads) (id : String) : Bool :=
  (threads.get id).any fun t => decide (t.status = .active)

def seeWaits (w : Watch) (e : Step SchedulerState SchedulerInput SchedulerOutput) : Watch :=
  match e.output with
  | .selected a =>
    { w with waits := leftWaiting iso e.after.clock e.after.threads a ++
        w.waits.filter fun p => decide (p.1 ≠ a ∧ p.2 ≠ a) }
  | .cooled id =>
    { cooled := id :: w.cooled, waits := w.waits.filter fun p => decide (p.2 ≠ id) }
  | .deferred id =>
    { cooled := w.cooled.filter fun other => decide (other ≠ id)
      waits := w.waits.filter fun p => decide (p.2 ≠ id) }
  | .other => { w with waits := w.waits.filter fun p => isActive e.after.threads p.2 }

/-- A selection starves nobody: no other thread has waited since the same thread was selected. -/
def NotStarved (e : Step (SchedulerState × Watch) SchedulerInput SchedulerOutput) : Prop :=
  ∀ a, e.output = .selected a → ∀ b, (a, b) ∉ e.before.2.waits

/-- The oldest active thread, without those that someone else has deferred. -/
def oldest (w : Watch) (now : Int) (threads : ReasonThreads) : Option ReasoningThread :=
  (activeThreads threads).find? fun t => decide (t.id ∈ w.cooled) || eligible iso now t

/-- Whenever a pass starts, nobody has waited since the oldest thread was selected last. -/
def GoesRound (s : SchedulerState × Watch) (i : SchedulerInput) : Prop :=
  i.event = .check → ∀ run_at, s.1.phase = .waiting run_at → run_at ≤ s.1.now i →
    ∀ t, oldest iso s.2 (s.1.now i) s.1.threads = some t → ∀ b, (t.id, b) ∉ s.2.waits

/-! ## What a change does to deferrals -/

variable {iso : IsoTime} {interval_seconds : Nat}

theorem update_ok {threads threads' : ReasonThreads} {id : String}
    {f : ReasoningThread → Except ReasonError ReasoningThread}
    (h : threads.update id f = .ok threads') :
    ∃ thread updated, threads.get id = some thread ∧ f thread = .ok updated ∧
      threads' = threads.put updated rfl := by
  rw [ReasonThreads.update] at h
  cases hget : threads.get id with
  | none => rw [hget] at h; cases h
  | some thread =>
    rw [hget] at h
    cases hf : f thread with
    | error e => simp only [hf] at h; cases h
    | ok updated =>
      simp only [hf] at h
      cases h
      exact ⟨thread, updated, rfl, hf, rfl⟩

theorem startThread_skip {topic working_summary prompt id : String} {active_items : List Mapping}
    {mandates : List String} {now : Int} {thread : ReasoningThread}
    (h : startThread iso topic working_summary active_items mandates prompt id now = .ok thread) :
    thread.skip_next_advance_until = none := by
  rw [startThread] at h
  split at h
  · cases h
  · split at h
    · cases h
    · obtain ⟨rfl, -⟩ := ReasoningThread.postInit_ok_iff.mp h
      rfl

theorem update_get {threads threads' : ReasonThreads} {id id' : String}
    {f : ReasoningThread → Except ReasonError ReasoningThread}
    (h : threads.update id f = .ok threads')
    (hf : ∀ thread updated, f thread = .ok updated → updated.id = thread.id ∧
      updated.skip_next_advance_until = thread.skip_next_advance_until)
    {found : ReasoningThread} (hget : threads'.get id' = some found) :
    ∃ thread, threads.get id' = some thread ∧
      found.skip_next_advance_until = thread.skip_next_advance_until := by
  obtain ⟨thread, updated, hthread, hupdated, rfl⟩ := update_ok h
  obtain ⟨hid, hskip⟩ := hf thread updated hupdated
  rw [Shelf.get_put] at hget
  split at hget
  · rename_i hkey
    cases hget
    rw [hkey, hid, threads.key_of_get hthread]
    exact ⟨thread, hthread, hskip⟩
  · exact ⟨found, hget, rfl⟩

/-- **A change** leaves the deferral of a thread, or the thread has none, or it defers the thread. -/
theorem change_get {threads threads' : ReasonThreads} {now : Int} {change : ThreadChange}
    (h : threads.change iso now change = .ok threads') {id : String} {found : ReasoningThread}
    (hget : threads'.get id = some found) :
    ((∃ thread, threads.get id = some thread ∧
        found.skip_next_advance_until = thread.skip_next_advance_until) ∧
          ∀ text, change ≠ .defer id text) ∨
      found.skip_next_advance_until = none ∨
      ∃ until_time, change = .defer id until_time ∧
        found.skip_next_advance_until = some until_time := by
  cases change with
  | start topic working_summary active_items mandates prompt new_id =>
    rw [ReasonThreads.change] at h
    cases hstart : startThread iso topic working_summary active_items mandates prompt new_id now with
    | error e => rw [hstart] at h; cases h
    | ok thread =>
      rw [hstart] at h
      cases h
      rw [Shelf.get_put] at hget
      split at hget
      · cases hget
        exact Or.inr (Or.inl (startThread_skip hstart))
      · exact Or.inl ⟨⟨found, hget, rfl⟩, nofun⟩
  | setStatus id' new_status =>
    refine Or.inl ⟨update_get h (fun thread updated hok => ?_) hget, nofun⟩
    obtain ⟨-, -, rfl⟩ := transition_ok hok
    exact ⟨rfl, rfl⟩
  | advance id' step =>
    refine Or.inl ⟨update_get h (fun thread updated hok => ?_) hget, nofun⟩
    obtain ⟨-, -, hid, hskip, -⟩ := advanceThread_ok hok
    exact ⟨hid, hskip⟩
  | defer id' until_time =>
    obtain ⟨thread, updated, hthread, hupdated, rfl⟩ := update_ok h
    obtain ⟨-, rfl⟩ := deferAdvancement_ok hupdated
    have hid : thread.id = id' := threads.key_of_get hthread
    rw [Shelf.get_put] at hget
    split at hget
    · rename_i hkey
      cases hget
      rw [hkey]
      exact Or.inr (Or.inr ⟨until_time, congrArg (ThreadChange.defer · until_time) hid.symm, rfl⟩)
    · rename_i hkey
      refine Or.inl ⟨⟨found, hget, rfl⟩, fun text heq => hkey ?_⟩
      exact (ThreadChange.defer.inj heq).1.symm.trans hid.symm
  | delete id' =>
    rw [ReasonThreads.change] at h
    split at h
    · cases h
    · cases h
      rw [Shelf.get_remove] at hget
      split at hget
      · cases hget
      · exact Or.inl ⟨⟨found, hget, rfl⟩, nofun⟩

/-! ## The cooldowns are over -/

variable (interval_seconds) in
/-- No cooldown reaches further than this. -/
def cooldownBound (s : SchedulerState) : Int :=
  match s.phase with
  | .waiting run_at => run_at
  | _ => SchedulerState.cooldownFrom interval_seconds s.clock

variable (iso interval_seconds) in
/-- The deferrals of the scheduler are over when the next pass can start. -/
def CooldownsEnd (s : SchedulerState × Watch) : Prop :=
  ∀ id ∈ s.2.cooled, ∀ thread, s.1.threads.get id = some thread →
    ∀ cooldown_end ∈ cooldownEnd iso thread, cooldown_end ≤ cooldownBound interval_seconds s.1

theorem cooldownEnd_congr {a b : ReasoningThread}
    (h : a.skip_next_advance_until = b.skip_next_advance_until) :
    cooldownEnd iso a = cooldownEnd iso b := by
  rw [cooldownEnd, cooldownEnd, h]

variable (iso interval_seconds) in
theorem step_threads (s : SchedulerState) (i : SchedulerInput) :
    ((s.step iso interval_seconds i).1.threads = s.threads ∧
        ∀ id, (s.step iso interval_seconds i).2 ≠ .cooled id ∧
          (s.step iso interval_seconds i).2 ≠ .deferred id) ∨
      ∃ change, s.threads.change iso (s.now i) change =
          .ok (s.step iso interval_seconds i).1.threads ∧
        ((s.step iso interval_seconds i).2 = .other ∧ (∀ id text, change ≠ .defer id text) ∨
          ∃ id text, change = .defer id text ∧
            ((s.step iso interval_seconds i).2 = .deferred id ∨
              ((s.step iso interval_seconds i).2 = .cooled id ∧
                (s.step iso interval_seconds i).1.phase = .ending ∧
                (s.step iso interval_seconds i).1.clock = s.now i ∧
                text = iso.isoformat
                  (SchedulerState.cooldownFrom interval_seconds (s.now i))))) := by
  obtain ⟨elapsed, event⟩ := i
  cases event with
  | check =>
    left
    simp only [SchedulerState.step, SchedulerState.check]
    split
    · split
      · exact ⟨rfl, fun id => ⟨nofun, nofun⟩⟩
      · split <;> exact ⟨rfl, fun id => ⟨nofun, nofun⟩⟩
    · exact ⟨rfl, fun id => ⟨nofun, nofun⟩⟩
  | complete =>
    left
    simp only [SchedulerState.step, SchedulerState.complete]
    split <;> exact ⟨rfl, fun id => ⟨nofun, nofun⟩⟩
  | advanced answer =>
    simp only [SchedulerState.step, SchedulerState.advanced]
    split
    · exact Or.inl ⟨rfl, fun id => ⟨nofun, nofun⟩⟩
    · split
      · rename_i hok
        exact Or.inr ⟨_, hok, Or.inl ⟨rfl, nofun⟩⟩
      · exact Or.inl ⟨rfl, fun id => ⟨nofun, nofun⟩⟩
    · exact Or.inl ⟨rfl, fun id => ⟨nofun, nofun⟩⟩
  | cool =>
    simp only [SchedulerState.step, SchedulerState.cool]
    split
    · split
      · rename_i hok
        exact Or.inr ⟨_, hok, Or.inr ⟨_, _, rfl, Or.inr ⟨rfl, rfl, rfl, rfl⟩⟩⟩
      · exact Or.inl ⟨rfl, fun id => ⟨nofun, nofun⟩⟩
    · exact Or.inl ⟨rfl, fun id => ⟨nofun, nofun⟩⟩
  | call change =>
    simp only [SchedulerState.step, SchedulerState.call]
    cases hchange : s.threads.change iso (s.now ⟨elapsed, .call change⟩) change with
    | error e => exact Or.inl ⟨rfl, fun id => ⟨nofun, nofun⟩⟩
    | ok threads =>
      refine Or.inr ⟨change, hchange, ?_⟩
      cases change with
      | defer id text => exact Or.inr ⟨id, text, rfl, Or.inl rfl⟩
      | start => exact Or.inl ⟨rfl, nofun⟩
      | setStatus => exact Or.inl ⟨rfl, nofun⟩
      | advance => exact Or.inl ⟨rfl, nofun⟩
      | delete => exact Or.inl ⟨rfl, nofun⟩

variable (iso interval_seconds) in
theorem bound_step (s : SchedulerState) (i : SchedulerInput) :
    cooldownBound interval_seconds s ≤
      cooldownBound interval_seconds (s.step iso interval_seconds i).1 := by
  obtain ⟨threads, phase, clock⟩ := s
  obtain ⟨elapsed, event⟩ := i
  cases event with
  | check =>
    cases phase with
    | waiting run_at =>
      simp only [SchedulerState.step, SchedulerState.check]
      split
      · exact le_rfl
      · rename_i hdue
        split <;>
          simp only [cooldownBound, SchedulerState.cooldownFrom, SchedulerState.now] at hdue ⊢ <;>
          omega
    | _ =>
      simp only [SchedulerState.step, SchedulerState.check, cooldownBound,
        SchedulerState.cooldownFrom, SchedulerState.now]
      omega
  | advanced answer =>
    simp only [SchedulerState.step, SchedulerState.advanced]
    cases phase with
    | waiting run_at => exact le_rfl
    | advancing id =>
      cases answer with
      | nothing =>
        simp only [cooldownBound, SchedulerState.cooldownFrom, SchedulerState.now]
        omega
      | step step =>
        simp only
        split <;> simp only [cooldownBound, SchedulerState.cooldownFrom, SchedulerState.now] <;> omega
    | _ =>
      simp only [cooldownBound, SchedulerState.cooldownFrom, SchedulerState.now]
      omega
  | cool =>
    simp only [SchedulerState.step, SchedulerState.cool]
    cases phase with
    | waiting run_at => exact le_rfl
    | cooling id =>
      simp only
      split <;> simp only [cooldownBound, SchedulerState.cooldownFrom, SchedulerState.now] <;> omega
    | _ =>
      simp only [cooldownBound, SchedulerState.cooldownFrom, SchedulerState.now]
      omega
  | complete =>
    simp only [SchedulerState.step, SchedulerState.complete]
    cases phase with
    | waiting run_at => exact le_rfl
    | _ =>
      simp only [cooldownBound, SchedulerState.cooldownFrom, SchedulerState.now]
      omega
  | call change =>
    simp only [SchedulerState.step, SchedulerState.call]
    split <;> cases phase <;>
      simp only [cooldownBound, SchedulerState.cooldownFrom, SchedulerState.now] <;> omega

theorem mem_cooled {w : Watch} {e : Step SchedulerState SchedulerInput SchedulerOutput}
    {id : String} (h : id ∈ (seeWaits iso w e).cooled) :
    (id ∈ w.cooled ∧ e.output ≠ .deferred id) ∨ e.output = .cooled id := by
  rw [seeWaits] at h
  split at h
  · rename_i houtput
    exact Or.inl ⟨h, by rw [houtput]; nofun⟩
  · rename_i houtput
    rcases List.mem_cons.mp h with rfl | h
    · exact Or.inr houtput
    · exact Or.inl ⟨h, by rw [houtput]; nofun⟩
  · rename_i other houtput
    obtain ⟨hmem, hne⟩ := List.mem_filter.mp h
    refine Or.inl ⟨hmem, fun heq => of_decide_eq_true hne ?_⟩
    exact (SchedulerOutput.deferred.inj (houtput.symm.trans heq)).symm
  · rename_i houtput
    exact Or.inl ⟨h, by rw [houtput]; nofun⟩

/-- **The cooldowns stay in bounds.** -/
theorem cooldowns_step (s : SchedulerState × Watch) (i : SchedulerInput)
    (h : CooldownsEnd iso interval_seconds s) :
    CooldownsEnd iso interval_seconds
      (watched (SchedulerState.step iso interval_seconds) (seeWaits iso) s i).1 := by
  obtain ⟨s, w⟩ := s
  have hbound := bound_step iso interval_seconds s i
  intro id hid thread hthread cooldown_end hend
  have hthread : (s.step iso interval_seconds i).1.threads.get id = some thread := hthread
  show cooldown_end ≤ cooldownBound interval_seconds (s.step iso interval_seconds i).1
  -- a deferral that the scheduler had written before
  have hkept : ∀ before, id ∈ w.cooled → s.threads.get id = some before →
      thread.skip_next_advance_until = before.skip_next_advance_until →
      cooldown_end ≤ cooldownBound interval_seconds (s.step iso interval_seconds i).1 := by
    intro before hcooled hbefore hskip
    rw [cooldownEnd_congr hskip] at hend
    exact (h id hcooled before hbefore cooldown_end hend).trans hbound
  rcases step_threads iso interval_seconds s i with
    ⟨hthreads, hquiet⟩ | ⟨change, hchange, hkind⟩
  · rcases mem_cooled hid with ⟨hcooled, -⟩ | hcooled
    · exact hkept thread hcooled (hthreads ▸ hthread) rfl
    · exact absurd hcooled (hquiet id).1
  · rcases change_get hchange hthread with
      ⟨⟨before, hbefore, hskip⟩, hnot⟩ | hnone | ⟨text, rfl, hskip⟩
    · rcases mem_cooled hid with ⟨hcooled, -⟩ | hcooled
      · exact hkept before hcooled hbefore hskip
      · rcases hkind with ⟨hother, -⟩ | ⟨id', text, rfl, hdeferred | ⟨hcooled', -⟩⟩
        · cases hother.symm.trans hcooled
        · cases hdeferred.symm.trans hcooled
        · cases hcooled'.symm.trans hcooled
          exact absurd rfl (hnot text)
    · rw [cooldownEnd, hnone] at hend
      cases hend
    · rcases hkind with ⟨-, hnot⟩ | ⟨id', text', heq, hdeferred | ⟨-, hphase, hclock, rfl⟩⟩
      · exact absurd rfl (hnot id text)
      · cases heq
        rcases mem_cooled hid with ⟨-, hnot⟩ | hcooled
        · exact absurd hdeferred hnot
        · cases hdeferred.symm.trans hcooled
      · -- the deferral that the scheduler writes now
        cases heq
        rw [cooldownEnd, hskip] at hend
        simp only [Option.bind_some, iso.from_isoformat, Option.mem_def, Option.some.injEq] at hend
        rw [cooldownBound, hphase, hclock, ← hend]

/-! ## The selection -/

theorem mem_activeThreads {threads : ReasonThreads} {t : ReasoningThread}
    (h : t ∈ activeThreads threads) : threads.get t.id = some t := by
  rw [activeThreads, ReasonThreads.listThreads] at h
  have hlisted := (List.mem_insertionSort _).mp (List.mem_filter.mp h).1
  exact threads.mem_records_iff.mp (List.mem_filter.mp hlisted).1

/-- **A pass takes the oldest thread** that nobody else has deferred. -/
theorem select_eq_oldest {s : SchedulerState} {w : Watch} {now run_at : Int}
    (h : CooldownsEnd iso interval_seconds (s, w)) (hphase : s.phase = .waiting run_at)
    (hdue : run_at ≤ now) : select iso now s.threads = oldest iso w now s.threads := by
  have hbound : cooldownBound interval_seconds s = run_at := by rw [cooldownBound, hphase]
  refine List.find?_congr fun t ht => ?_
  by_cases hcooled : t.id ∈ w.cooled
  · have heligible : eligible iso now t = true := by
      rw [eligible, Option.all_eq_true]
      intro cooldown_end hend
      have hle := h t.id hcooled t (mem_activeThreads ht) cooldown_end hend
      exact decide_eq_true ((hle.trans_eq hbound).trans hdue)
    rw [heligible, Bool.or_true]
  · rw [decide_eq_false hcooled, Bool.false_or]

theorem selected_iff (s : SchedulerState) (i : SchedulerInput) (a : String) :
    (s.step iso interval_seconds i).2 = .selected a ↔
      i.event = .check ∧ ∃ run_at, s.phase = .waiting run_at ∧ run_at ≤ s.now i ∧
        ∃ t, select iso (s.now i) s.threads = some t ∧ t.id = a := by
  obtain ⟨elapsed, event⟩ := i
  cases event with
  | check =>
    simp only [SchedulerState.step, SchedulerState.check, true_and]
    split
    · rename_i run_at hphase
      split
      · rename_i hearly
        refine ⟨nofun, ?_⟩
        rintro ⟨run_at', hwaiting, hdue, -⟩
        cases hphase.symm.trans hwaiting
        exact absurd hdue (not_le.mpr hearly)
      · rename_i hdue
        cases hselect : select iso (s.now ⟨elapsed, .check⟩) s.threads with
        | none =>
          refine ⟨nofun, ?_⟩
          rintro ⟨-, -, -, t, ht, -⟩
          cases ht
        | some candidate =>
          constructor
          · intro h
            exact ⟨run_at, hphase, not_lt.mp hdue, candidate, rfl, SchedulerOutput.selected.inj h⟩
          · rintro ⟨-, -, -, t, ht, rfl⟩
            cases ht
            rfl
    · rename_i hphase
      refine ⟨nofun, ?_⟩
      rintro ⟨run_at, hwaiting, -⟩
      exact absurd hwaiting (hphase run_at)
  | advanced answer =>
    refine ⟨fun h => ?_, fun h => nomatch h.1⟩
    simp only [SchedulerState.step, SchedulerState.advanced] at h
    split at h
    · cases h
    · split at h <;> cases h
    · cases h
  | cool =>
    refine ⟨fun h => ?_, fun h => nomatch h.1⟩
    simp only [SchedulerState.step, SchedulerState.cool] at h
    split at h
    · split at h <;> cases h
    · cases h
  | complete =>
    refine ⟨fun h => ?_, fun h => nomatch h.1⟩
    simp only [SchedulerState.step, SchedulerState.complete] at h
    split at h <;> cases h
  | call change =>
    refine ⟨fun h => ?_, fun h => nomatch h.1⟩
    simp only [SchedulerState.step, SchedulerState.call] at h
    split at h
    · cases h
    · cases change <;> cases h

/-- **One event** starves nobody exactly when the order goes round. -/
theorem not_starved_step {e : Step (SchedulerState × Watch) SchedulerInput SchedulerOutput}
    (hof : e.Of (watched (SchedulerState.step iso interval_seconds) (seeWaits iso)))
    (hinv : CooldownsEnd iso interval_seconds e.before) :
    NotStarved e ↔ GoesRound iso e.before e.input := by
  obtain ⟨⟨s, w⟩, i, output, after⟩ := e
  obtain rfl : (s.step iso interval_seconds i).2 = output := hof.output_eq
  constructor
  · intro h hcheck run_at hphase hdue t ht
    rw [← select_eq_oldest hinv hphase hdue] at ht
    exact h t.id ((selected_iff s i t.id).mpr ⟨hcheck, run_at, hphase, hdue, t, ht, rfl⟩)
  · intro h a ha
    obtain ⟨hcheck, run_at, hphase, hdue, t, ht, rfl⟩ := (selected_iff s i a).mp ha
    rw [select_eq_oldest hinv hphase hdue] at ht
    exact h hcheck run_at hphase hdue t ht

end

/-- **Nobody is starved**: for every set of threads and every run of the task among calls from
    elsewhere, no selection starves a thread, exactly when the order of the threads goes round. -/
theorem not_starved_iff (iso : IsoTime) (interval_seconds : Nat) (threads : ReasonThreads)
    (clock run_at : Int) (inputs : List SchedulerInput) :
    (∀ e ∈ run (watched (SchedulerState.step iso interval_seconds) (seeWaits iso))
        (⟨threads, .waiting run_at, clock⟩, {}) inputs, NotStarved e) ↔
      ∀ e ∈ run (watched (SchedulerState.step iso interval_seconds) (seeWaits iso))
        (⟨threads, .waiting run_at, clock⟩, {}) inputs, GoesRound iso e.before e.input := by
  refine @run_forall_iff _ _ _ _ (CooldownsEnd iso interval_seconds) _ _
    (fun s i hs _ => cooldowns_step s i hs) (fun e hof hs => not_starved_step hof hs) _ _ ?_
  intro id hid
  cases hid

/-- A younger thread beside the one that was started at noon. -/
def youngerThread : ReasoningThread :=
  { emptyThread with
    id := "reason-2"
    created_at := "2026-01-01T12:00:01+00:00"
    updated_at := "2026-01-01T12:00:01+00:00" }

def twoThreads : ReasonThreads := (Shelf.empty.put emptyThread rfl).put youngerThread rfl

/-- Two passes around noon; the second starts ten minutes after the first has ended. -/
def twoPasses : List SchedulerInput :=
  [⟨0, .check⟩, ⟨0, .advanced .nothing⟩, ⟨0, .cool⟩, ⟨0, .complete⟩, ⟨600000000, .check⟩]

/-- **Starved**: the older thread is selected twice while the younger one waits. -/
theorem younger_starved :
    ¬ ∀ e ∈ run (watched (SchedulerState.step noonIso 600) (seeWaits noonIso))
        (⟨twoThreads, .waiting 1767268799999998, 1767268799999997⟩, {}) twoPasses, NotStarved e := by
  intro h
  have hlast := h _ (List.mem_cons_of_mem _ (List.mem_cons_of_mem _ (List.mem_cons_of_mem _
    (List.mem_cons_of_mem _ List.mem_cons_self))))
  exact hlast "reason-1" (by decide +kernel) "reason-2" (by decide +kernel)

end NuSelf.Reasoning
