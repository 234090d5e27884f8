/-
  Deleting a reason thread: the directory of its workspace, its record, the records of its steps.

  Each record goes in a commit of its own.  Before each call the deletion may fail, or its process
  may stop; a call that fails when its work is done is one that is followed by such an end.  All
  the while advances of the thread may read it, and later write it back with a new step, in one
  transaction.  They may be of another process, so the lock of the repository orders nothing here.

  The observer keeps the ids of the steps that the thread has been given (`saved`).

  1. `Stage` — what holds before each call of the deletion.
  2. `stage_step` — every event keeps it, but for a failure that leaves steps behind, and an
     advance that writes a thread which is gone.
  3. `deletion_atomic` — so a run without these deletes everything or nothing.
-/
import NuSelf.Reasoning.Scheduler

namespace NuSelf.Reasoning

open NuSelf.Lib

/-! ## The repository -/

abbrev ReasonSteps := Shelf ReasoningStep.id fun _ => true

structure ReasonRecords where
  threads : ReasonThreads
  steps : ReasonSteps

namespace ReasonRecords

/-- `find(thread_id=thread_id)` -/
def findSteps (records : ReasonRecords) (thread_id : String) : List ReasoningStep :=
  records.steps.records.filter fun step => decide (step.thread_id = thread_id)

/-- The batch of an advance. -/
def saveAdvance (records : ReasonRecords) (step : ReasoningStep) (updated : ReasoningThread) :
    ReasonRecords :=
  ⟨records.threads.put updated rfl, records.steps.put step rfl⟩

def deleteThreadRecord (records : ReasonRecords) (thread_id : String) : ReasonRecords :=
  { records with threads := records.threads.remove thread_id }

def deleteStepRecord (records : ReasonRecords) (sid : String) : ReasonRecords :=
  { records with steps := records.steps.remove sid }

end ReasonRecords

/-! ## A deletion among advances -/

/-- The next call of `delete_thread`; the thread is resolved. -/
inductive DeletePhase where
  /-- `shutil.rmtree`, where there is a directory. -/
  | workspace
  | thread
  | find
  /-- The loop over the steps that were found. -/
  | steps (ids : List String)
  | returned
  /-- It has raised, or its process is gone. -/
  | raised
  deriving DecidableEq

/-- The deletion is over. -/
def DeletePhase.ended : DeletePhase → Bool
  | .returned | .raised => true
  | _ => false

/-- The thread record is deleted, and the steps are not. -/
def DeletePhase.underWay : DeletePhase → Bool
  | .find | .steps _ => true
  | _ => false

structure DeletionSystem (ω : Type) where
  records : ReasonRecords
  /-- There is a directory. -/
  workspace : Bool
  phase : DeletePhase := .workspace
  /-- The advances that are under way, each with the thread that it has read. -/
  advances : ω → Option ReasoningThread := fun _ => none

/-- The answer of a model, and what else a step is made of. -/
structure StepParts where
  output : ReasonStepOutput
  id : String
  created_at : String
  tool_logs : List Mapping

inductive DeletionEvent (ω : Type) where
  /-- The deletion makes its next call. -/
  | proceed
  /-- It fails before, or its process stops. -/
  | fail
  /-- An advance resolves the thread, and checks its status. -/
  | read (caller : ω)
  /-- It writes its batch. -/
  | write (caller : ω) (parts : StepParts) (now : Int)
  /-- It raises, or its transaction is rolled back. -/
  | drop (caller : ω)

namespace DeletionSystem

variable {ω : Type} [DecidableEq ω] (iso : IsoTime) (id : String)

/-- What an advance writes. -/
def prepare (read : ReasoningThread) (parts : StepParts) (now : Int) :
    Except ReasonError (ReasoningStep × ReasoningThread) := do
  let step ← parts.output.toStep parts.id parts.created_at read.id parts.tool_logs
  let updated ← advanceThread iso read step now
  return (step, updated)

/-- The next call of the deletion. -/
def proceed (s : DeletionSystem ω) : DeletionSystem ω :=
  match s.phase with
  | .workspace => { s with workspace := false, phase := .thread }
  | .thread => { s with records := s.records.deleteThreadRecord id, phase := .find }
  | .find => { s with phase := .steps ((s.records.findSteps id).map (·.id)) }
  | .steps [] => { s with phase := .returned }
  | .steps (sid :: rest) => { s with records := s.records.deleteStepRecord sid, phase := .steps rest }
  | .returned | .raised => s

/-- The deletion ends here. -/
def fail (s : DeletionSystem ω) : DeletionSystem ω :=
  if s.phase.ended = true then s else { s with phase := .raised }

def setAdvance (s : DeletionSystem ω) (caller : ω) (read : Option ReasoningThread) :
    DeletionSystem ω :=
  { s with advances := Function.update s.advances caller read }

/-- An event; the output is the id of the step that is saved. -/
def step (s : DeletionSystem ω) : DeletionEvent ω → DeletionSystem ω × Option String
  | .proceed => (s.proceed id, none)
  | .fail => (s.fail, none)
  | .read caller =>
    match s.records.threads.get id with
    | none => (s, none)
    | some thread =>
      if thread.status = .active then (s.setAdvance caller (some thread), none) else (s, none)
  | .write caller parts now =>
    match s.advances caller with
    | none => (s, none)
    | some read =>
      match prepare iso read parts now with
      | .error _ => (s.setAdvance caller none, none)
      | .ok (step, updated) =>
        ({ s with records := s.records.saveAdvance step updated }.setAdvance caller none,
          some step.id)
  | .drop caller => (s.setAdvance caller none, none)

end DeletionSystem

/-- The observer. -/
def seeSaved {ω : Type} (saved : List String)
    (e : Step (DeletionSystem ω) (DeletionEvent ω) (Option String)) : List String :=
  e.output.toList ++ saved

/-! ## Everything or nothing -/

section

variable {ω : Type} (id : String)

/-- The thread is stored, and so are its steps. -/
def Whole (records : ReasonRecords) (saved : List String) : Prop :=
  (∃ thread, records.threads.get id = some thread) ∧
    ∀ sid ∈ saved, ∃ step, records.steps.get sid = some step ∧ step.thread_id = id

/-- No step of the thread is stored. -/
def NoSteps (records : ReasonRecords) : Prop :=
  ∀ sid step, records.steps.get sid = some step → step.thread_id ≠ id

/-- Nothing of the thread is stored. -/
def Gone (records : ReasonRecords) : Prop := records.threads.get id = none ∧ NoSteps id records

structure DeletionAtomic (s : DeletionSystem ω × List String) : Prop where
  /-- After it has returned nothing is left. -/
  returned : s.1.phase = .returned → Gone id s.1.records
  /-- Where it has not, everything is, or nothing. -/
  raised : s.1.phase = .raised → Whole id s.1.records s.2 ∨ Gone id s.1.records
  /-- No step is left without its thread. -/
  no_orphans : s.1.phase.underWay = false → s.1.records.threads.get id = none →
    NoSteps id s.1.records

/-- No failure leaves steps behind, and no advance writes a thread that is gone. -/
structure Undisturbed (iso : IsoTime) (s : DeletionSystem ω) (i : DeletionEvent ω) : Prop where
  finishes : i = .fail → s.phase.underWay = true → NoSteps id s.records
  writes : ∀ caller parts now read written, i = .write caller parts now →
    s.advances caller = some read → DeletionSystem.prepare iso read parts now = .ok written →
    s.records.threads.get id ≠ none

/-- What holds before each call. -/
def AtPhase (records : ReasonRecords) (saved : List String) : DeletePhase → Prop
  | .workspace | .thread => Whole id records saved
  | .find => records.threads.get id = none
  | .steps ids => records.threads.get id = none ∧
    ∀ sid step, records.steps.get sid = some step → step.thread_id = id → sid ∈ ids
  | .returned => Gone id records
  | .raised => Whole id records saved ∨ Gone id records

/-- The invariant of the run: besides, an advance has read this thread. -/
structure Stage (s : DeletionSystem ω × List String) : Prop where
  at_phase : AtPhase id s.1.records s.2 s.1.phase
  reads : ∀ caller read, s.1.advances caller = some read → read.id = id

end

/-! ## The steps -/

section

variable {ω : Type} [DecidableEq ω] {iso : IsoTime} {id : String} {records : ReasonRecords}
  {saved : List String}

theorem mem_findSteps {step : ReasoningStep} :
    step ∈ records.findSteps id ↔ records.steps.get step.id = some step ∧ step.thread_id = id := by
  rw [ReasonRecords.findSteps, List.mem_filter, decide_eq_true_eq, records.steps.mem_records_iff]

/-- **The listing** finds the steps of the thread. -/
theorem listed_of_stored {sid : String} {step : ReasoningStep}
    (hget : records.steps.get sid = some step) (hown : step.thread_id = id) :
    sid ∈ (records.findSteps id).map (·.id) := by
  have hkey : step.id = sid := records.steps.key_of_get hget
  subst hkey
  exact List.mem_map_of_mem (mem_findSteps.mpr ⟨hget, hown⟩)

theorem Whole.stored (h : Whole id records saved) : records.threads.get id ≠ none := by
  obtain ⟨⟨thread, hthread⟩, -⟩ := h
  rw [hthread]
  simp

theorem AtPhase.whole {phase : DeletePhase} (h : AtPhase id records saved phase)
    (hstored : records.threads.get id ≠ none) : Whole id records saved := by
  cases phase with
  | workspace => exact h
  | thread => exact h
  | find => exact absurd h hstored
  | steps ids => exact absurd h.1 hstored
  | returned => exact absurd h.1 hstored
  | raised =>
    rcases h with h | h
    · exact h
    · exact absurd h.1 hstored

omit [DecidableEq ω] in
/-- **Each call of the deletion** leads to the next phase. -/
theorem stage_proceed {s : DeletionSystem ω} (h : Stage id (s, saved)) :
    Stage id (s.proceed id, saved) := by
  obtain ⟨hphase, hreads⟩ := h
  have hphase : AtPhase id s.records saved s.phase := hphase
  rw [DeletionSystem.proceed]
  cases hnow : s.phase with
  | workspace =>
    rw [hnow] at hphase
    exact ⟨hphase, hreads⟩
  | thread =>
    refine ⟨?_, hreads⟩
    show (s.records.threads.remove id).get id = none
    rw [Shelf.get_remove, if_pos rfl]
  | find =>
    rw [hnow] at hphase
    exact ⟨⟨hphase, fun sid step hget hown => listed_of_stored hget hown⟩, hreads⟩
  | returned => exact ⟨by rw [hnow] at hphase ⊢; exact hphase, hreads⟩
  | raised => exact ⟨by rw [hnow] at hphase ⊢; exact hphase, hreads⟩
  | steps ids =>
    rw [hnow] at hphase
    obtain ⟨hgone, hlisted⟩ := hphase
    cases ids with
    | nil =>
      refine ⟨⟨hgone, fun sid step hget hown => ?_⟩, hreads⟩
      cases hlisted sid step hget hown
    | cons sid rest =>
      refine ⟨⟨hgone, fun other step hget hown => ?_⟩, hreads⟩
      have hget : (s.records.steps.remove sid).get other = some step := hget
      rw [Shelf.get_remove] at hget
      split at hget
      · cases hget
      · rename_i hne
        exact (List.mem_cons.mp (hlisted other step hget hown)).resolve_left hne

omit [DecidableEq ω] in
/-- **A failure** keeps everything, or has nothing left to keep. -/
theorem stage_fail {s : DeletionSystem ω} (h : Stage id (s, saved))
    (hok : Undisturbed id iso s .fail) : Stage id (s.fail, saved) := by
  rw [DeletionSystem.fail]
  split
  · exact h
  · rename_i hrunning
    refine ⟨?_, h.reads⟩
    show Whole id s.records saved ∨ Gone id s.records
    by_cases hgone : s.records.threads.get id = none
    · refine Or.inr ⟨hgone, hok.finishes rfl ?_⟩
      have hphase : AtPhase id s.records saved s.phase := h.at_phase
      -- the thread is gone, and the deletion is not over
      cases hnow : s.phase with
      | workspace => rw [hnow] at hphase; exact absurd hgone (Whole.stored hphase)
      | thread => rw [hnow] at hphase; exact absurd hgone (Whole.stored hphase)
      | find => rfl
      | steps ids => rfl
      | returned => rw [hnow] at hrunning; exact absurd rfl hrunning
      | raised => rw [hnow] at hrunning; exact absurd rfl hrunning
    · exact Or.inl (h.at_phase.whole hgone)

omit [DecidableEq ω] in
/-- **A failure that leaves steps behind** leaves them without their thread. -/
theorem fail_leaves_orphans {s : DeletionSystem ω} (h : Stage id (s, saved))
    (hway : s.phase.underWay = true) (hsteps : ¬ NoSteps id s.records) :
    ¬ DeletionAtomic id (s.fail, saved) := by
  have hphase : AtPhase id s.records saved s.phase := h.at_phase
  have hgone : s.records.threads.get id = none := by
    cases hnow : s.phase with
    | find => rw [hnow] at hphase; exact hphase
    | steps ids => rw [hnow] at hphase; exact hphase.1
    | workspace => rw [hnow] at hway; cases hway
    | thread => rw [hnow] at hway; cases hway
    | returned => rw [hnow] at hway; cases hway
    | raised => rw [hnow] at hway; cases hway
  have hrunning : ¬ s.phase.ended = true := by
    intro hended
    cases hnow : s.phase with
    | returned => rw [hnow] at hway; cases hway
    | raised => rw [hnow] at hway; cases hway
    | _ => rw [hnow] at hended; cases hended
  have hfail : s.fail = { s with phase := .raised } := if_neg hrunning
  rw [hfail]
  exact fun hatomic => hsteps (hatomic.no_orphans rfl hgone)

theorem prepare_ok {read updated : ReasoningThread} {parts : StepParts} {now : Int}
    {step : ReasoningStep} (h : DeletionSystem.prepare iso read parts now = .ok (step, updated)) :
    step.thread_id = read.id ∧ updated.id = read.id := by
  obtain ⟨made, hmade, h⟩ := bind_ok h
  obtain ⟨next, hnext, h⟩ := bind_ok h
  cases h
  refine ⟨?_, (advanceThread_ok hnext).2.2.1⟩
  rw [ReasonStepOutput.toStep, ReasoningStep.postInit] at hmade
  split at hmade
  · cases hmade
  · split at hmade
    · cases hmade
    · obtain ⟨-, -, hmade⟩ := bind_ok hmade
      obtain ⟨-, -, hmade⟩ := bind_ok hmade
      obtain ⟨-, -, hmade⟩ := bind_ok hmade
      obtain ⟨-, -, hmade⟩ := bind_ok hmade
      obtain ⟨-, -, hmade⟩ := bind_ok hmade
      cases hmade
      rfl

/-- **A batch** on a thread that is whole: so it is with the new step. -/
theorem whole_saveAdvance (h : Whole id records saved) {step : ReasoningStep}
    {updated : ReasoningThread} (hstep : step.thread_id = id) (hupdated : updated.id = id) :
    Whole id (records.saveAdvance step updated) (step.id :: saved) := by
  have hthread : (records.threads.put updated rfl).get id = some updated := by
    rw [Shelf.get_put, if_pos hupdated.symm]
  refine ⟨⟨updated, hthread⟩, fun sid hsid => ?_⟩
  show ∃ other, (records.steps.put step rfl).get sid = some other ∧ other.thread_id = id
  rw [Shelf.get_put]
  split
  · exact ⟨step, rfl, hstep⟩
  · rename_i hne
    exact h.2 sid ((List.mem_cons.mp hsid).resolve_left hne)

theorem AtPhase.of_whole {records' : ReasonRecords} {saved' : List String} {phase : DeletePhase}
    (h : AtPhase id records saved phase) (hstored : records.threads.get id ≠ none)
    (hwhole : Whole id records' saved') : AtPhase id records' saved' phase := by
  cases phase with
  | workspace => exact hwhole
  | thread => exact hwhole
  | find => exact absurd h hstored
  | steps ids => exact absurd h.1 hstored
  | returned => exact absurd h.1 hstored
  | raised => exact Or.inl hwhole

theorem reads_setAdvance {s : DeletionSystem ω} {caller : ω} {read : Option ReasoningThread}
    (hreads : ∀ other thread, s.advances other = some thread → thread.id = id)
    (hread : ∀ thread ∈ read, thread.id = id) :
    ∀ other thread, (s.setAdvance caller read).advances other = some thread → thread.id = id := by
  intro other thread hthread
  have hthread : Function.update s.advances caller read other = some thread := hthread
  rw [Function.update_apply] at hthread
  split at hthread
  · exact hread thread hthread
  · exact hreads other thread hthread

/-- **Every event** keeps the invariant, where it disturbs nothing. -/
theorem stage_step (s : DeletionSystem ω × List String) (i : DeletionEvent ω) (h : Stage id s)
    (hok : Undisturbed id iso s.1 i) :
    Stage id (watched (DeletionSystem.step iso id) seeSaved s i).1 := by
  obtain ⟨s, saved⟩ := s
  show Stage id ((s.step iso id i).1, (s.step iso id i).2.toList ++ saved)
  have hnone : ∀ thread ∈ (none : Option ReasoningThread), thread.id = id := by
    intro thread hthread
    cases hthread
  cases i with
  | proceed => exact stage_proceed h
  | fail => exact stage_fail h hok
  | drop caller => exact ⟨h.at_phase, reads_setAdvance h.reads hnone⟩
  | read caller =>
    rw [DeletionSystem.step]
    split
    · exact h
    · rename_i thread hget
      split
      · refine ⟨h.at_phase, reads_setAdvance h.reads ?_⟩
        rintro _ ⟨⟩
        exact s.records.threads.key_of_get hget
      · exact h
  | write caller parts now =>
    rw [DeletionSystem.step]
    split
    · exact h
    · rename_i read hread
      split
      · exact ⟨h.at_phase, reads_setAdvance h.reads hnone⟩
      · rename_i step updated hprepare
        have hown : read.id = id := h.reads caller read hread
        obtain ⟨hstep, hupdated⟩ := prepare_ok hprepare
        have hstored := hok.writes caller parts now read _ rfl hread hprepare
        have hwhole := whole_saveAdvance (h.at_phase.whole hstored) (hstep.trans hown)
          (hupdated.trans hown)
        refine ⟨?_, reads_setAdvance h.reads hnone⟩
        exact h.at_phase.of_whole hstored hwhole

omit [DecidableEq ω] in
theorem Stage.atomic {s : DeletionSystem ω × List String} (h : Stage id s) :
    DeletionAtomic id s := by
  obtain ⟨⟨records, workspace, phase, advances⟩, saved⟩ := s
  have hphase : AtPhase id records saved phase := h.at_phase
  refine ⟨?_, ?_, ?_⟩
  · rintro rfl
    exact hphase
  · rintro rfl
    exact hphase
  · intro hway hgone
    have hgone : records.threads.get id = none := hgone
    have hway : phase.underWay = false := hway
    cases phase with
    | workspace => exact absurd hgone (Whole.stored hphase)
    | thread => exact absurd hgone (Whole.stored hphase)
    | find => cases hway
    | steps ids => cases hway
    | returned => exact hphase.2
    | raised =>
      rcases hphase with hphase | hphase
      · exact absurd hgone (Whole.stored hphase)
      · exact hphase.2

end

/-- **Everything or nothing**: in every run in which no failure leaves steps behind and no advance
    writes a thread that is gone. -/
theorem deletion_atomic {ω : Type} [DecidableEq ω] (iso : IsoTime) (id : String)
    (records : ReasonRecords) (workspace : Bool) (events : List (DeletionEvent ω))
    (hthread : ∃ thread, records.threads.get id = some thread)
    (hok : ∀ e ∈ run (watched (DeletionSystem.step iso id) seeSaved)
      ({ records, workspace }, (records.findSteps id).map (·.id)) events,
      Undisturbed id iso e.before.1 e.input) :
    ∀ e ∈ run (watched (DeletionSystem.step iso id) seeSaved)
      ({ records, workspace }, (records.findSteps id).map (·.id)) events,
      DeletionAtomic id e.after := by
  have hstart : Stage (ω := ω) id ({ records, workspace }, (records.findSteps id).map (·.id)) := by
    refine ⟨⟨hthread, fun sid hsid => ?_⟩, ?_⟩
    · obtain ⟨step, hstep, rfl⟩ := List.mem_map.mp hsid
      exact ⟨step, mem_findSteps.mp hstep⟩
    · intro caller read hread
      cases hread
  intro e he
  have hrun := @run_induct _ _ _ _ (Stage id) (fun s i => Undisturbed id iso s.1 i)
    (fun s i h hmeets => stage_step s i h hmeets) _ events hstart hok
  exact (hrun e he).2.atomic

/-- A thread with a step. -/
def oneStep : ReasonRecords := ⟨Shelf.empty.put emptyThread rfl, Shelf.empty.put noonStep rfl⟩

/-- A deletion that nothing disturbs. -/
def deletedInPeace : List (DeletionEvent Unit) := List.replicate 5 .proceed

theorem deletion_in_peace :
    (∃ thread, oneStep.threads.get "reason-1" = some thread) ∧
    ∀ e ∈ run (watched (DeletionSystem.step noonIso "reason-1") seeSaved)
      ({ records := oneStep, workspace := true }, (oneStep.findSteps "reason-1").map (·.id))
      deletedInPeace, DeletionAtomic "reason-1" e.after := by
  refine ⟨⟨emptyThread, rfl⟩,
    deletion_atomic noonIso "reason-1" oneStep true deletedInPeace ⟨emptyThread, rfl⟩ ?_⟩
  intro e he
  have hinput : e.input = .proceed := List.eq_of_mem_replicate (input_mem _ _ _ e he)
  rw [hinput]
  refine ⟨fun hfail => ?_, fun caller parts now read written hwrite => ?_⟩
  · cases hfail
  · cases hwrite

/-- The thread is deleted, its step is found, and its deletion fails. -/
def failedHalfway : List (DeletionEvent Unit) := [.proceed, .proceed, .proceed, .fail]

/-- **Half deleted**: the step is left without its thread. -/
theorem step_left_behind :
    ¬ ∀ e ∈ run (watched (DeletionSystem.step noonIso "reason-1") seeSaved)
      ({ records := oneStep, workspace := true }, (oneStep.findSteps "reason-1").map (·.id))
      failedHalfway, DeletionAtomic "reason-1" e.after := by
  intro hatomic
  have hlast := hatomic _ (List.mem_cons_of_mem _ (List.mem_cons_of_mem _
    (List.mem_cons_of_mem _ List.mem_cons_self)))
  exact hlast.no_orphans rfl rfl "step-1" noonStep rfl rfl

end NuSelf.Reasoning
