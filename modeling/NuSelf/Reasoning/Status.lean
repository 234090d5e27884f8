/-
  The status of a reason thread under concurrent calls.

  Every call of the service reads the whole thread, works on what it has read, and saves the whole
  thread; an advance asks a model in between.  Nothing ties the save to the read.  So the status
  that is saved is the one that was read (`deferAdvancement`), or follows from it
  (`advanceThread`), whatever other calls have saved since.

  The observer keeps what the user has last brought about by a pause, an archive or a delete
  (`Guard`), until a resume or a resolve changes it.

  1. `background_right_iff` — a save of an advance or a deferral is right exactly when it is
     harmless: the status was not changed since it was read, or is written as it is, or nobody is
     overruled.
  2. `held_step` — while every save is harmless, the guard holds of what is stored.
  3. `status_kept_iff` — so a run loses no status exactly when all its saves are harmless.
-/
import Mathlib.Logic.Function.Basic
import NuSelf.Lib.Run
import NuSelf.Reasoning.Service

namespace NuSelf.Reasoning

open NuSelf.Lib

/-! ## Calls and their steps -/

/-- `pause_thread`, `resume_thread`, `resolve_thread`, `archive_thread`. -/
inductive StatusOp where
  | pause | resume | resolve | archive
  deriving DecidableEq

def StatusOp.status : StatusOp → ReasonStatus
  | .pause => .paused
  | .resume => .active
  | .resolve => .resolved
  | .archive => .archived

inductive ThreadOp where
  | setStatus (op : StatusOp)
  | delete
  | defer (until_time : String)
  | advance
  deriving DecidableEq

/-- A call between its read and its save. -/
structure ThreadCall where
  op : ThreadOp
  read : ReasoningThread

/-- The stored thread, its steps, and the calls that are under way. -/
structure ThreadSystem (ω : Type) where
  stored : Option ReasoningThread
  steps : List ReasoningStep := []
  calls : ω → Option ThreadCall := fun _ => none

inductive ThreadInput (ω : Type) where
  /-- The call resolves the thread, and checks its status. -/
  | read (caller : ω) (op : ThreadOp)
  /-- The call saves; `step` is the one of an advance. -/
  | save (caller : ω) (step : ReasoningStep) (now : Int)
  /-- The call ends with an error of the model or of the storage. -/
  | fail (caller : ω)

inductive ThreadOutput where
  | read
  /-- The call has saved, and returns. -/
  | saved (op : ThreadOp)
  | raised (error : ReasonError)
  | ignored

namespace ThreadSystem

variable {ω : Type} [DecidableEq ω] (iso : IsoTime) (id : String)

/-- What a call checks of the thread that it has read. -/
def checkRead (op : ThreadOp) (thread : ReasoningThread) : Except ReasonError Unit :=
  match op with
  | .setStatus op =>
    if op.status ∈ allowed thread.status then .ok ()
    else .error (.transition ("Cannot transition thread " ++ thread.id ++ " from '" ++
      thread.status.name ++ "' to '" ++ op.status.name ++ "'"))
  | .advance =>
    if thread.status = .active then .ok ()
    else .error (.advance ("Cannot advance thread " ++ thread.id ++ ": status is '" ++
      thread.status.name ++ "', expected 'active'"))
  | .delete | .defer _ => .ok ()

/-- What a call makes of the thread that it has read: the thread that it saves, or none. -/
def outcome (call : ThreadCall) (step : ReasoningStep) (now : Int) :
    Except ReasonError (Option ReasoningThread) :=
  match call.op with
  | .setStatus op => (transition iso call.read op.status now).map some
  | .delete => .ok none
  | .defer until_time => (deferAdvancement iso call.read until_time).map some
  | .advance => (advanceThread iso call.read step now).map some

/-- The steps after a save. -/
def savedSteps (s : ThreadSystem ω) (op : ThreadOp) (step : ReasoningStep) : List ReasoningStep :=
  match op with
  | .delete => []
  | .advance => s.steps.filter (fun other => decide (other.id ≠ step.id)) ++ [step]
  | .setStatus _ | .defer _ => s.steps

def setCall (s : ThreadSystem ω) (caller : ω) (call : Option ThreadCall) : ThreadSystem ω :=
  { s with calls := Function.update s.calls caller call }

def step (s : ThreadSystem ω) : ThreadInput ω → ThreadSystem ω × ThreadOutput
  | .read caller op =>
    match s.calls caller, s.stored with
    | some _, _ => (s, .ignored)
    | none, none => (s, .raised (.notFound id))
    | none, some thread =>
      match checkRead op thread with
      | .ok () => (s.setCall caller (some ⟨op, thread⟩), .read)
      | .error e => (s, .raised e)
  | .save caller step now =>
    match s.calls caller with
    | none => (s, .ignored)
    | some call =>
      match outcome iso call step now with
      | .error e => (s.setCall caller none, .raised e)
      | .ok stored =>
        ({ s with stored, steps := s.savedSteps call.op step }.setCall caller none, .saved call.op)
  | .fail caller => (s.setCall caller none, .raised (.value "failed"))

end ThreadSystem

/-! ## The guard -/

/-- What the user has brought about. -/
inductive Guard where
  | paused | archived | deleted
  deriving DecidableEq

/-- What is stored is what the user has brought about. -/
def Holds (guard : Option Guard) (stored : Option ReasoningThread) : Prop :=
  match guard with
  | none => True
  | some .paused => stored.map (·.status) = some .paused
  | some .archived => stored.map (·.status) = some .archived
  | some .deleted => stored = none

instance (guard : Option Guard) (stored : Option ReasoningThread) :
    Decidable (Holds guard stored) :=
  match guard, stored with
  | none, _ => isTrue trivial
  | some .paused, stored => inferInstanceAs (Decidable (stored.map (·.status) = some .paused))
  | some .archived, stored => inferInstanceAs (Decidable (stored.map (·.status) = some .archived))
  | some .deleted, none => isTrue rfl
  | some .deleted, some _ => isFalse fun h => nomatch h

/-- The guard after a call has returned. -/
def guardAfter (guard : Option Guard) : ThreadOutput → Option Guard
  | .saved (.setStatus .pause) => some .paused
  | .saved (.setStatus .archive) => some .archived
  | .saved .delete => some .deleted
  | .saved (.setStatus .resume) | .saved (.setStatus .resolve) => none
  | _ => guard

section

variable {ω : Type} [DecidableEq ω]

/-- The observer. -/
def seeGuard (guard : Option Guard) (e : Step (ThreadSystem ω) (ThreadInput ω) ThreadOutput) :
    Option Guard := guardAfter guard e.output

/-- The thread has been resolved or archived. -/
def Ended (stored : Option ReasoningThread) : Prop :=
  stored.map (·.status) = some .resolved ∨ stored.map (·.status) = some .archived

/-- The operation is one that goes on in the background. -/
def ThreadOp.background : ThreadOp → Bool
  | .defer _ | .advance => true
  | .setStatus _ | .delete => false

/-- The step loses no status. -/
structure StatusKept (e : Step (ThreadSystem ω × Option Guard) (ThreadInput ω) ThreadOutput) :
    Prop where
  /-- Only a resume makes an ended thread active. -/
  ended : Ended e.before.1.stored → e.after.1.stored.map (·.status) = some .active →
    e.output = .saved (.setStatus .resume)
  /-- An advance or a deferral undoes no pause, archive or delete. -/
  guarded : ∀ op, e.output = .saved op → op.background = true →
    Holds e.before.2 e.after.1.stored

/-! ## When a save is right -/

/-- The status that a background call writes. -/
def writtenStatus (call : ThreadCall) (step : ReasoningStep) : ReasonStatus :=
  match call.op with
  | .advance => step.terminal_status.reasonStatus.getD call.read.status
  | _ => call.read.status

/-- Where an advance or a deferral saves, the thread is still there, and its status was not changed
    since the call read it, or the call writes the same status, or it overrules nobody: no pause or
    archive of the user, and no end by making the thread active. -/
def HarmlessSave (iso : IsoTime) (s : ThreadSystem ω × Option Guard) (i : ThreadInput ω) : Prop :=
  ∀ caller step now call updated, i = .save caller step now → s.1.calls caller = some call →
    call.op.background = true → ThreadSystem.outcome iso call step now = .ok updated →
    ∃ current, s.1.stored = some current ∧
      (current.status = call.read.status ∨ writtenStatus call step = current.status ∨
        (s.2 = none ∧
          ¬ (writtenStatus call step = .active ∧
            (current.status = .resolved ∨ current.status = .archived))))

/-- While nothing has gone wrong the guard holds, and a thread that is gone was deleted. -/
structure Held (s : ThreadSystem ω × Option Guard) : Prop where
  holds : Holds s.2 s.1.stored
  gone : s.1.stored = none → s.2 = some .deleted

variable {iso : IsoTime} {id : String}

omit [DecidableEq ω] in
theorem map_some_ok {x : Except ReasonError ReasoningThread} {stored : Option ReasoningThread}
    (h : x.map some = .ok stored) : ∃ u, x = .ok u ∧ stored = some u := by
  cases x with
  | error e => cases h
  | ok u =>
    cases h
    exact ⟨u, rfl, rfl⟩

omit [DecidableEq ω] in
theorem outcome_background {call : ThreadCall} {step : ReasoningStep} {now : Int}
    {updated : Option ReasoningThread} (hop : call.op.background = true)
    (h : ThreadSystem.outcome iso call step now = .ok updated) :
    ∃ u, updated = some u ∧ u.status = writtenStatus call step ∧
      (call.op = .advance → call.read.status = .active) := by
  obtain ⟨op, read⟩ := call
  cases op with
  | setStatus op => cases hop
  | delete => cases hop
  | defer until_time =>
    have hmap : (deferAdvancement iso read until_time).map some = .ok updated := h
    obtain ⟨u, hdefer, rfl⟩ := map_some_ok hmap
    obtain ⟨-, rfl⟩ := deferAdvancement_ok hdefer
    exact ⟨_, rfl, rfl, fun hadvance => nomatch hadvance⟩
  | advance =>
    have hmap : (advanceThread iso read step now).map some = .ok updated := h
    obtain ⟨u, hadvance, rfl⟩ := map_some_ok hmap
    obtain ⟨hactive, -, -, -, hstatus⟩ := advanceThread_ok hadvance
    exact ⟨u, rfl, hstatus, fun _ => hactive⟩

omit [DecidableEq ω] in
theorem outcome_setStatus {op : StatusOp} {read : ReasoningThread} {step : ReasoningStep}
    {now : Int} {updated : Option ReasoningThread}
    (h : ThreadSystem.outcome iso ⟨.setStatus op, read⟩ step now = .ok updated) :
    updated.map (·.status) = some op.status := by
  have hmap : (transition iso read op.status now).map some = .ok updated := h
  obtain ⟨u, htransition, rfl⟩ := map_some_ok hmap
  obtain ⟨-, -, rfl⟩ := transition_ok htransition
  rfl

/-! ## One save -/

variable {s : ThreadSystem ω} {guard : Option Guard} {caller : ω} {step : ReasoningStep} {now : Int}
  {call : ThreadCall} {updated : Option ReasoningThread}

variable (id) in
theorem step_save (hcall : s.calls caller = some call)
    (houtcome : ThreadSystem.outcome iso call step now = .ok updated) :
    (s.step iso id (.save caller step now)).1.stored = updated ∧
      (s.step iso id (.save caller step now)).2 = .saved call.op := by
  simp only [ThreadSystem.step, hcall, houtcome]
  exact ⟨rfl, trivial⟩

variable (iso id s) in
/-- Where a step changes what is stored, or says that it has saved, a call has saved. -/
theorem step_cases (i : ThreadInput ω) :
    (∃ caller step now call updated, i = .save caller step now ∧ s.calls caller = some call ∧
        ThreadSystem.outcome iso call step now = .ok updated) ∨
      ((s.step iso id i).1.stored = s.stored ∧
        ∀ op, (s.step iso id i).2 ≠ .saved op) := by
  cases i with
  | fail caller => exact Or.inr ⟨rfl, fun op hop => (nomatch hop)⟩
  | read caller op =>
    refine Or.inr ?_
    simp only [ThreadSystem.step]
    split
    · exact ⟨rfl, fun op hop => (nomatch hop)⟩
    · exact ⟨rfl, fun op hop => (nomatch hop)⟩
    · split <;> exact ⟨rfl, fun op hop => (nomatch hop)⟩
  | save caller step now =>
    cases hcall : s.calls caller with
    | none =>
      refine Or.inr ?_
      simp only [ThreadSystem.step, hcall]
      exact ⟨trivial, fun op hop => (nomatch hop)⟩
    | some call =>
      cases houtcome : ThreadSystem.outcome iso call step now with
      | ok updated => exact Or.inl ⟨caller, step, now, call, updated, rfl, hcall, houtcome⟩
      | error e =>
        refine Or.inr ?_
        simp only [ThreadSystem.step, hcall, houtcome]
        exact ⟨rfl, fun op hop => (nomatch hop)⟩

omit [DecidableEq ω] in
theorem holds_of_status_eq {stored stored' : Option ReasoningThread}
    (hstatus : stored.map (·.status) = stored'.map (·.status)) (h : Holds guard stored) :
    Holds guard stored' := by
  cases guard with
  | none => trivial
  | some g =>
    cases g with
    | paused => exact hstatus.symm.trans h
    | archived => exact hstatus.symm.trans h
    | deleted =>
      have hnone : stored = none := h
      rw [hnone] at hstatus
      exact Option.map_eq_none_iff.mp hstatus.symm

/-- Neither a thread that has ended is active again, nor a guard broken. -/
def SaveRight (guard : Option Guard) (stored updated : Option ReasoningThread) : Prop :=
  ¬ (Ended stored ∧ updated.map (·.status) = some .active) ∧ Holds guard updated

omit [DecidableEq ω] in
theorem right_of_same {current u : ReasoningThread} (hsame : u.status = current.status)
    (hholds : Holds guard (some current)) : SaveRight guard (some current) (some u) := by
  have hmap : (some current).map (·.status) = (some u).map (·.status) := congrArg some hsame.symm
  refine ⟨?_, holds_of_status_eq hmap hholds⟩
  rintro ⟨hended, hactive⟩
  have hcurrent : some current.status = some .active := hsame ▸ hactive
  rcases hended with h | h
  · cases h.symm.trans hcurrent
  · cases h.symm.trans hcurrent

omit [DecidableEq ω] in
theorem right_of_active {current u : ReasoningThread} (hactive : current.status = .active)
    (hholds : Holds guard (some current)) : SaveRight guard (some current) (some u) := by
  refine ⟨?_, ?_⟩
  · rintro ⟨h | h, -⟩
    · cases h.symm.trans (congrArg some hactive)
    · cases h.symm.trans (congrArg some hactive)
  · cases guard with
    | none => trivial
    | some g =>
      cases g with
      | paused | archived => cases hholds.symm.trans (congrArg some hactive)
      | deleted => cases hholds

omit [DecidableEq ω] in
/-- **A background save is right exactly when it is harmless.** -/
theorem background_right_iff (hheld : Held (s, guard)) (hop : call.op.background = true)
    (houtcome : ThreadSystem.outcome iso call step now = .ok updated) :
    (¬ (Ended s.stored ∧ updated.map (·.status) = some .active) ∧ Holds guard updated) ↔
      ∃ current, s.stored = some current ∧
        (current.status = call.read.status ∨ writtenStatus call step = current.status ∨
          (guard = none ∧ ¬ (writtenStatus call step = .active ∧
            (current.status = .resolved ∨ current.status = .archived)))) := by
  obtain ⟨u, rfl, hstatus, hadvance⟩ := outcome_background hop houtcome
  have hholds : Holds guard s.stored := hheld.holds
  have hgone : s.stored = none → guard = some .deleted := hheld.gone
  constructor
  · rintro ⟨hended, hguard⟩
    cases hstored : s.stored with
    | none =>
      rw [hgone hstored] at hguard
      cases hguard
    | some current =>
      rw [hstored] at hholds hended
      refine ⟨current, rfl, ?_⟩
      cases guard with
      | none =>
        refine Or.inr (Or.inr ⟨rfl, fun ⟨hactive, hcurrent⟩ => hended ⟨?_, ?_⟩⟩)
        · exact hcurrent.imp (congrArg some) (congrArg some)
        · exact congrArg some (hstatus.trans hactive)
      | some g =>
        cases g with
        | deleted => cases hguard
        | paused | archived =>
          have hsame : some u.status = some current.status := Eq.trans hguard (Eq.symm hholds)
          rw [← hstatus]
          exact Or.inr (Or.inl (Option.some.inj hsame))
  · rintro ⟨current, hstored, hcases⟩
    rw [hstored] at hholds ⊢
    rcases hcases with hread | hwritten | ⟨rfl, hnot⟩
    · by_cases hop' : call.op = .advance
      · exact right_of_active (hread.trans (hadvance hop')) hholds
      · -- a deferral writes the status that it has read
        refine right_of_same (hstatus.trans ?_) hholds
        rw [writtenStatus]
        split
        · contradiction
        · exact hread.symm
    · exact right_of_same (hstatus.trans hwritten) hholds
    · refine ⟨?_, trivial⟩
      rintro ⟨hended, hactive⟩
      refine hnot ⟨hstatus.symm.trans (Option.some.inj hactive), ?_⟩
      exact hended.imp Option.some.inj Option.some.inj

/-! ## Whole runs -/

theorem held_step {s : ThreadSystem ω × Option Guard} (i : ThreadInput ω) (hheld : Held s)
    (hok : HarmlessSave iso s i) : Held (watched (ThreadSystem.step iso id) seeGuard s i).1 := by
  obtain ⟨s, guard⟩ := s
  rcases step_cases iso id s i with
    ⟨caller, step, now, call, updated, rfl, hcall, houtcome⟩ | ⟨hstored, hquiet⟩
  · obtain ⟨hafter, houtput⟩ := step_save id hcall houtcome
    suffices h : Holds (guardAfter guard (.saved call.op)) updated ∧
        (updated = none → guardAfter guard (.saved call.op) = some .deleted) by
      refine ⟨?_, ?_⟩
      · show Holds (guardAfter guard (s.step iso id _).2) (s.step iso id _).1.stored
        rw [hafter, houtput]
        exact h.1
      · show (s.step iso id _).1.stored = none → guardAfter guard (s.step iso id _).2 = _
        rw [hafter, houtput]
        exact h.2
    by_cases hop : call.op.background = true
    · obtain ⟨u, rfl, -, -⟩ := outcome_background hop houtcome
      have hright := (background_right_iff hheld hop houtcome).mpr
        (hok caller step now call _ rfl hcall hop houtcome)
      have hguard : guardAfter guard (.saved call.op) = guard := by
        cases hcase : call.op with
        | setStatus op => rw [hcase] at hop; cases hop
        | delete => rw [hcase] at hop; cases hop
        | defer until_time => rfl
        | advance => rfl
      rw [hguard]
      exact ⟨hright.2, fun h => (nomatch h)⟩
    · obtain ⟨op, read⟩ := call
      cases op with
      | defer until_time => exact absurd rfl hop
      | advance => exact absurd rfl hop
      | delete =>
        cases houtcome
        exact ⟨rfl, fun _ => rfl⟩
      | setStatus op =>
        have hstatus := outcome_setStatus houtcome
        refine ⟨?_, fun h => ?_⟩
        · cases op with
          | pause => exact hstatus
          | archive => exact hstatus
          | resume => trivial
          | resolve => trivial
        · rw [h] at hstatus
          cases hstatus
  · have hguard : guardAfter guard (s.step iso id i).2 = guard := by
      cases houtput : (s.step iso id i).2 with
      | saved op => exact absurd houtput (hquiet op)
      | read => rfl
      | raised e => rfl
      | ignored => rfl
    refine ⟨?_, ?_⟩
    · show Holds (guardAfter guard (s.step iso id i).2) (s.step iso id i).1.stored
      rw [hguard, hstored]
      exact hheld.holds
    · show (s.step iso id i).1.stored = none → guardAfter guard (s.step iso id i).2 = _
      rw [hguard, hstored]
      exact hheld.gone

/-- **One step** loses no status exactly when what it saves is harmless. -/
theorem step_kept_iff {e : Step (ThreadSystem ω × Option Guard) (ThreadInput ω) ThreadOutput}
    (hof : e.Of (watched (ThreadSystem.step iso id) seeGuard)) (hheld : Held e.before) :
    StatusKept e ↔ HarmlessSave iso e.before e.input := by
  obtain ⟨⟨s, guard⟩, i, output, after⟩ := e
  obtain ⟨rfl, rfl⟩ : after = (watched (ThreadSystem.step iso id) seeGuard (s, guard) i).1 ∧
      output = (s.step iso id i).2 := ⟨hof.after_eq.symm, hof.output_eq.symm⟩
  rcases step_cases iso id s i with
    ⟨caller, step, now, call, updated, rfl, hcall, houtcome⟩ | ⟨hstored, hquiet⟩
  · obtain ⟨hafter, houtput⟩ := step_save id hcall houtcome
    have hharmless : HarmlessSave iso (s, guard) (.save caller step now) ↔
        (call.op.background = true → ∃ current, s.stored = some current ∧
          (current.status = call.read.status ∨ writtenStatus call step = current.status ∨
            (guard = none ∧ ¬ (writtenStatus call step = .active ∧
              (current.status = .resolved ∨ current.status = .archived))))) := by
      refine ⟨fun h hop => h caller step now call updated rfl hcall hop houtcome, ?_⟩
      intro h caller' step' now' call' updated' hinput hcall' hop _
      cases hinput
      obtain rfl : call = call' := Option.some.inj (hcall.symm.trans hcall')
      exact h hop
    rw [hharmless]
    by_cases hop : call.op.background = true
    · rw [← background_right_iff hheld hop houtcome]
      constructor
      · rintro ⟨hended, hguarded⟩ -
        refine ⟨?_, hafter ▸ hguarded call.op houtput hop⟩
        rintro ⟨hbefore, hactive⟩
        have hresume : (s.step iso id (.save caller step now)).2 = .saved (.setStatus .resume) :=
          hended hbefore (hafter.symm ▸ hactive)
        rw [houtput] at hresume
        rw [ThreadOutput.saved.inj hresume] at hop
        cases hop
      · intro h
        obtain ⟨hended, hholds⟩ := h hop
        refine ⟨fun hbefore hactive => absurd ⟨hbefore, hafter ▸ hactive⟩ hended, ?_⟩
        intro op _ _
        show Holds guard (s.step iso id _).1.stored
        rw [hafter]
        exact hholds
    · refine iff_of_true ⟨fun _ hactive => ?_, fun op hsaved hop' => ?_⟩ fun h => absurd h hop
      · have hactive' : updated.map (·.status) = some .active := hafter ▸ hactive
        show (s.step iso id (.save caller step now)).2 = _
        rw [houtput]
        obtain ⟨op, read⟩ := call
        cases op with
        | defer until_time => exact absurd rfl hop
        | advance => exact absurd rfl hop
        | delete => cases houtcome; cases hactive'
        | setStatus op =>
          rw [outcome_setStatus houtcome] at hactive'
          cases op with
          | resume => rfl
          | pause => cases hactive'
          | resolve => cases hactive'
          | archive => cases hactive'
      · rw [ThreadOutput.saved.inj (houtput.symm.trans hsaved)] at hop
        exact absurd hop' hop
  · refine iff_of_true ⟨fun hended hactive => ?_, fun op hsaved => absurd hsaved (hquiet op)⟩ ?_
    · have hactive' : s.stored.map (·.status) = some .active := hstored ▸ hactive
      rcases hended with h | h
      · cases h.symm.trans hactive'
      · cases h.symm.trans hactive'
    · rintro caller step now call updated rfl hcall - houtcome
      exact absurd (step_save id hcall houtcome).2 (hquiet call.op)

end

/-- **The status is kept**: no run loses a status, exactly when every save of an advance or a
    deferral in it is harmless. -/
theorem status_kept_iff {ω : Type} [DecidableEq ω] (iso : IsoTime) (thread : ReasoningThread)
    (inputs : List (ThreadInput ω)) :
    (∀ e ∈ run (watched (ThreadSystem.step iso thread.id) seeGuard)
        ({ stored := some thread }, none) inputs, StatusKept e) ↔
      ∀ e ∈ run (watched (ThreadSystem.step iso thread.id) seeGuard)
        ({ stored := some thread }, none) inputs, HarmlessSave iso e.before e.input := by
  refine @run_forall_iff _ _ _ _ Held _ _ (fun s i hs hok => held_step i hs hok)
    (fun e hof hs => step_kept_iff hof hs) _ _ ?_
  exact ⟨trivial, fun h => (nomatch h)⟩

/-- While an advance asks its model, the user archives the thread. -/
def archivedMeanwhile : List (ThreadInput Bool) :=
  [.read true .advance, .read false (.setStatus .archive),
    .save false noonStep 1767268800000000, .save true noonStep 1767268800000000]

/-- **Reactivated**: the advance makes the archived thread active again. -/
theorem archive_undone :
    ¬ ∀ e ∈ run (watched (ThreadSystem.step noonIso emptyThread.id) seeGuard)
      ({ stored := some emptyThread }, none) archivedMeanwhile, StatusKept e := by
  intro hkept
  have hlast := hkept _ (List.mem_cons_of_mem _ (List.mem_cons_of_mem _
    (List.mem_cons_of_mem _ List.mem_cons_self)))
  have hresume := hlast.ended (Or.inr rfl) rfl
  cases hresume

end NuSelf.Reasoning
