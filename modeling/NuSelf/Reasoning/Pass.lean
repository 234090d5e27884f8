/-
  One pass of the reason scheduler, with everything that may go wrong in it.

  A pass selects a thread, asks the advancer for a step, hands the step to `advance_thread`, and
  defers the thread by one interval.  While the advancer works others may change what is stored, in
  any way; and each write may fail.  A thread that is gone by then is looked up once more, as the
  index of a thread in the listing.

  1. `advanceThreadCall_run`, `applyCooldown_run` — what each call writes.
  2. `pass_present`, `pass_resolved` — what the pass writes, where the thread is still there and where
     it is gone.
  3. `pass_right_iff` — the pass is right exactly when the deferral is reached and written, or is
     not needed.

  `advance_thread` stands outside the handler of `run_once`: where it raises, nothing is deferred.
-/
import NuSelf.Lib.Interruptible
import NuSelf.Reasoning.Deletion

namespace NuSelf.Reasoning

open NuSelf.Lib NuSelf.Lib.Interruptible

/-! ## Calls that write -/

/-- A record that a pass writes. -/
inductive RecordWrite where
  | step (step : ReasoningStep)
  | thread (updated : ReasoningThread)

/-- The write is one of a step. -/
def RecordWrite.isStep : RecordWrite → Bool
  | .step _ => true
  | .thread _ => false

def ReasonRecords.write (records : ReasonRecords) : RecordWrite → ReasonRecords
  | .step step => { records with steps := records.steps.put step rfl }
  | .thread updated => { records with threads := records.threads.put updated rfl }

/-- What is stored, and what the pass has written of it. -/
structure PassStore where
  records : ReasonRecords
  writes : List RecordWrite := []

/-- The store after more writes. -/
def PassStore.written (s : PassStore) (writes : List RecordWrite) : PassStore :=
  ⟨writes.foldl ReasonRecords.write s.records, s.writes ++ writes⟩

inductive PassError where
  | reason (error : ReasonError)
  /-- A write has failed. -/
  | storage (text : String)

/-- What a pass meets with. -/
structure PassWorld (iso : IsoTime) where
  /-- The time when the pass selects a thread. -/
  now : Int
  answer : AdvancerAnswer
  /-- What is stored when the advancer has answered. -/
  later : ReasonRecords
  /-- A stored thread is one that decodes. -/
  decoded : ∀ id thread, later.threads.get id = some thread → thread.WellFormed iso
  advanced_at : Int
  /-- How the transaction of the advance fails, if it does. -/
  batch : Option String
  inbox : Option String
  /-- The time when the cooldown is computed. -/
  cooled_at : Int
  deferral : Option String

section

variable (iso : IsoTime) (interval_seconds : Nat)
  -- `int(value)` where `value.isdigit()`
  (visible_index : String → Option Nat)

/-- `ReasonRepository.resolve_thread`: by its id, or by its place in the listing of all threads. -/
def resolveThread (threads : ReasonThreads) (id_or_index : String) :
    Except ReasonError ReasoningThread :=
  match threads.get id_or_index with
  | some thread => .ok thread
  | none =>
    match visible_index id_or_index with
    | none => .error (.notFound id_or_index)
    | some index =>
      match (threads.records.insertionSort listedBefore)[index]? with
      | some thread => .ok thread
      | none => .error (.notFound id_or_index)

/-- The result of a computation of the service. -/
def reasonCall {α : Type} : Except ReasonError α → Interruptible PassStore PassError α
  | .ok a => pure a
  | .error e => raise (.reason e)

/-- A transaction: all of it is written, or it fails. -/
def commit (failure : Option String) (writes : List RecordWrite) :
    Interruptible PassStore PassError Unit :=
  match failure with
  | some text => raise (.storage text)
  | none => modify fun s => s.written writes

/-- `InboxService.add`; the inbox is none of the records here. -/
def addToInbox : Option String → Interruptible PassStore PassError Unit
  | some text => raise (.storage text)
  | none => pure ()

variable {iso}

/-- `ReasonService.advance_thread`, with a step. -/
def advanceThreadCall (world : PassWorld iso) (id_or_index : String) (step : ReasoningStep) :
    Interruptible PassStore PassError ReasoningThread := do
  let s ← get
  let thread ← reasonCall (resolveThread visible_index s.records.threads id_or_index)
  let updated ← reasonCall (advanceThread iso thread step world.advanced_at)
  commit world.batch [.step step, .thread updated]
  addToInbox (if step.requiresAttention = true then world.inbox else none)
  return updated

/-- `ReasonService.defer_advancement`. -/
def deferCall (world : PassWorld iso) (id_or_index until_time : String) :
    Interruptible PassStore PassError Unit := do
  let s ← get
  let thread ← reasonCall (resolveThread visible_index s.records.threads id_or_index)
  let updated ← reasonCall (deferAdvancement iso thread until_time)
  commit world.deferral [.thread updated]

def applyCooldown (world : PassWorld iso) (id : String) : Interruptible PassStore PassError Unit :=
  deferCall visible_index world id
    (iso.isoformat (SchedulerState.cooldownFrom interval_seconds world.cooled_at))

/-- `run_once`, once a thread is selected. -/
def advanceCandidate (world : PassWorld iso) (candidate : ReasoningThread) :
    Interruptible PassStore PassError Unit :=
  match world.answer with
  | .nothing => applyCooldown interval_seconds visible_index world candidate.id
  | .step step => do
    let updated ← advanceThreadCall visible_index world candidate.id step
    applyCooldown interval_seconds visible_index world updated.id

/-- `run_once`, with the thread that it selects. -/
def runOnce (threads : ReasonThreads) (world : PassWorld iso) :
    Option ReasoningThread × Outcome PassError Unit × PassStore :=
  match select iso world.now threads with
  | none => (none, .returned (), ⟨world.later, []⟩)
  | some candidate =>
    (some candidate,
      advanceCandidate interval_seconds visible_index world candidate ⟨world.later, []⟩)

/-! ## A pass that is right -/

/-- The cooldown of the thread lasts an interval from `now`. -/
def CoolsFrom (iso : IsoTime) (now : Int) (thread : ReasoningThread) : Prop :=
  ∃ cooldown_end ∈ cooldownEnd iso thread,
    SchedulerState.cooldownFrom interval_seconds now ≤ cooldown_end

structure PassRight (threads : ReasonThreads) (world : PassWorld iso)
    (pass : Option ReasoningThread × Outcome PassError Unit × PassStore) : Prop where
  /-- The thread that is selected was active and not in cooldown. -/
  selected : ∀ c ∈ pass.1, threads.get c.id = some c ∧ c.status = .active ∧
    eligible iso world.now c = true
  /-- What is stored is what others have left, with the writes of the pass. -/
  stored : pass.2.2.records = pass.2.2.writes.foldl ReasonRecords.write world.later
  one_step : pass.2.2.writes.countP RecordWrite.isStep ≤ 1
  /-- No other thread is written. -/
  others_unwritten : ∀ t, .thread t ∈ pass.2.2.writes → ∃ c ∈ pass.1, t.id = c.id
  others_unchanged : ∀ id, (∀ c ∈ pass.1, c.id ≠ id) →
    pass.2.2.records.threads.get id = world.later.threads.get id
  /-- The thread that is selected cools down, if it is still there. -/
  cools : ∀ c ∈ pass.1, ∀ t, pass.2.2.records.threads.get c.id = some t →
    CoolsFrom interval_seconds iso world.now t

/-- `advance_thread` is not called, or returns. -/
def AdvanceReturns (world : PassWorld iso) (thread : ReasoningThread) : Prop :=
  match world.answer with
  | .nothing => True
  | .step step =>
    (∃ updated, advanceThread iso thread step world.advanced_at = .ok updated) ∧
      world.batch = none ∧ (step.requiresAttention = true → world.inbox = none)

/-- The call that comes first writes nothing to this thread. -/
def WritesNothing (world : PassWorld iso) (thread : ReasoningThread) : Prop :=
  match world.answer with
  | .nothing => world.deferral ≠ none
  | .step step =>
    ∀ updated, advanceThread iso thread step world.advanced_at = .ok updated → world.batch ≠ none

/-- The cooldown is reached and written, or is not needed. -/
structure CooldownReached (threads : ReasonThreads) (world : PassWorld iso) : Prop where
  /-- The thread is still there: `advance_thread` returns, the deferral is written and the clock has
      not gone back; or the thread has such a cooldown already. -/
  present : ∀ c thread, select iso world.now threads = some c →
    world.later.threads.get c.id = some thread →
    (AdvanceReturns world thread ∧ world.deferral = none ∧ world.now ≤ world.cooled_at) ∨
      (¬ (AdvanceReturns world thread ∧ world.deferral = none) ∧
        CoolsFrom interval_seconds iso world.now thread)
  /-- The thread is gone: no other one is found by its id, or none is written. -/
  gone : ∀ c other, select iso world.now threads = some c →
    world.later.threads.get c.id = none →
    resolveThread visible_index world.later.threads c.id = .ok other → WritesNothing world other

end

/-! ## What is written -/

section

variable {iso : IsoTime} {interval_seconds : Nat} {visible_index : String → Option Nat}
  {world : PassWorld iso} {id : String} {thread : ReasoningThread} {s : PassStore}

/-- The thread with its new cooldown. -/
def PassWorld.deferred (world : PassWorld iso) (interval_seconds : Nat)
    (thread : ReasoningThread) : ReasoningThread :=
  let until_time := iso.isoformat (SchedulerState.cooldownFrom interval_seconds world.cooled_at)
  { thread with skip_next_advance_until := some until_time }

theorem resolveThread_get {threads : ReasonThreads} (h : threads.get id = some thread) :
    resolveThread visible_index threads id = .ok thread := by
  rw [resolveThread, h]

theorem resolveThread_stored {threads : ReasonThreads}
    (h : resolveThread visible_index threads id = .ok thread) :
    threads.get thread.id = some thread := by
  rw [resolveThread] at h
  split at h
  · rename_i found hget
    cases h
    rwa [threads.key_of_get hget]
  · split at h
    · cases h
    · split at h
      · rename_i index _ found hfound
        cases h
        have hmem := (List.mem_insertionSort _).mp (List.mem_of_getElem? hfound)
        exact threads.mem_records_iff.mp hmem
      · cases h

theorem deferAdvancement_deferred (hwell : thread.WellFormed iso) :
    deferAdvancement iso thread
        (iso.isoformat (SchedulerState.cooldownFrom interval_seconds world.cooled_at)) =
      .ok (world.deferred interval_seconds thread) := by
  refine ReasoningThread.postInit_ok_iff.mpr ⟨rfl, ?_⟩
  refine { hwell with skip_next_advance_until := ?_ }
  rintro _ ⟨⟩
  exact aware_isoformat iso _

/-- **The deferral**: one record, or none. -/
theorem applyCooldown_run
    (hresolve : resolveThread visible_index s.records.threads id = .ok thread)
    (hwell : thread.WellFormed iso) :
    (applyCooldown interval_seconds visible_index world id s).2 =
      if world.deferral = none then s.written [.thread (world.deferred interval_seconds thread)]
      else s := by
  rw [applyCooldown, deferCall, get_bind, hresolve, reasonCall, pure_bind_run,
    deferAdvancement_deferred hwell, reasonCall, pure_bind_run]
  cases world.deferral with
  | none => rfl
  | some text => rfl

theorem applyCooldown_missing {e : ReasonError}
    (hresolve : resolveThread visible_index s.records.threads id = .error e) :
    (applyCooldown interval_seconds visible_index world id s).2 = s := by
  rw [applyCooldown, deferCall, get_bind, hresolve, reasonCall, bind_run, raise_run]

variable {step : ReasoningStep}

/-- **The advance**: its batch, or nothing; it may raise when the batch is written. -/
theorem advanceThreadCall_run
    (hresolve : resolveThread visible_index s.records.threads id = .ok thread) :
    advanceThreadCall visible_index world id step s =
      match advanceThread iso thread step world.advanced_at, world.batch with
      | .error e, _ => (.raised (.reason e), s)
      | .ok _, some text => (.raised (.storage text), s)
      | .ok updated, none =>
        match if step.requiresAttention = true then world.inbox else none with
        | some text => (.raised (.storage text), s.written [.step step, .thread updated])
        | none => (.returned updated, s.written [.step step, .thread updated]) := by
  rw [advanceThreadCall, get_bind, hresolve, reasonCall, pure_bind_run]
  cases advanceThread iso thread step world.advanced_at with
  | error e => rfl
  | ok updated =>
    rw [reasonCall, pure_bind_run]
    cases world.batch with
    | some text => rfl
    | none =>
      rw [commit, modify_bind]
      cases if step.requiresAttention = true then world.inbox else none with
      | some text => rfl
      | none => rfl

theorem advanceThreadCall_missing {e : ReasonError}
    (hresolve : resolveThread visible_index s.records.threads id = .error e) :
    advanceThreadCall visible_index world id step s = (.raised (.reason e), s) := by
  rw [advanceThreadCall, get_bind, hresolve, reasonCall, bind_run, raise_run]

end

/-! ## Writes to one thread -/

section

variable {records : ReasonRecords} {id : String} {P : ReasoningThread → Prop}

theorem writes_get_of_ne : ∀ {writes : List RecordWrite} {records : ReasonRecords},
    (∀ t, RecordWrite.thread t ∈ writes → t.id ≠ id) →
      (writes.foldl ReasonRecords.write records).threads.get id = records.threads.get id
  | [], _, _ => rfl
  | write :: rest, records, h => by
    rw [List.foldl_cons, writes_get_of_ne fun t ht => h t (List.mem_cons_of_mem _ ht)]
    cases write with
    | step step => rfl
    | thread updated =>
      have hne : id ≠ updated.id := fun heq => h updated List.mem_cons_self heq.symm
      show (records.threads.put updated rfl).get id = _
      rw [Shelf.get_put, if_neg hne]

/-- **Writes of one thread**: what holds of each holds of what is stored. -/
theorem writes_get : ∀ {writes : List RecordWrite} {records : ReasonRecords},
    (∀ t, RecordWrite.thread t ∈ writes → t.id = id ∧ P t) →
      (∃ t, records.threads.get id = some t ∧ P t) →
        ∃ t, (writes.foldl ReasonRecords.write records).threads.get id = some t ∧ P t
  | [], _, _, hstored => hstored
  | write :: rest, records, h, hstored => by
    rw [List.foldl_cons]
    refine writes_get (fun t ht => h t (List.mem_cons_of_mem _ ht)) ?_
    cases write with
    | step step => exact hstored
    | thread updated =>
      obtain ⟨hid, hP⟩ := h updated List.mem_cons_self
      refine ⟨updated, ?_, hP⟩
      show (records.threads.put updated rfl).get id = _
      rw [Shelf.get_put, if_pos hid.symm]

end

/-! ## The pass -/

section

variable {iso : IsoTime} {interval_seconds : Nat} {visible_index : String → Option Nat}
  {world : PassWorld iso} {c thread : ReasoningThread}

/-- What is stored when the advancer has answered. -/
def PassWorld.start (world : PassWorld iso) : PassStore := ⟨world.later, []⟩

/-- The writes are of this thread, leave its cooldown, and one step at most is among them. -/
structure KeepsCooldown (id : String) (skip : Option String) (writes : List RecordWrite) : Prop where
  own : ∀ t, RecordWrite.thread t ∈ writes → t.id = id ∧ t.skip_next_advance_until = skip
  one_step : writes.countP RecordWrite.isStep ≤ 1

theorem keepsCooldown_nil {id : String} {skip : Option String} : KeepsCooldown id skip [] :=
  ⟨fun _ ht => absurd ht List.not_mem_nil, Nat.zero_le 1⟩

theorem keepsCooldown_batch {step : ReasoningStep} {updated : ReasoningThread} {at_time : Int}
    (hadvance : advanceThread iso thread step at_time = .ok updated) :
    KeepsCooldown thread.id thread.skip_next_advance_until [.step step, .thread updated] := by
  obtain ⟨-, -, hid, hskip, -⟩ := advanceThread_ok hadvance
  refine ⟨fun t ht => ?_, Nat.le_refl 1⟩
  simp only [List.mem_cons, reduceCtorEq, RecordWrite.thread.injEq, List.not_mem_nil, or_false,
    false_or] at ht
  subst ht
  exact ⟨hid, hskip⟩

theorem written_written {s : PassStore} {first second : List RecordWrite} :
    (s.written first).written second = s.written (first ++ second) := by
  rw [PassStore.written, PassStore.written, PassStore.written, List.foldl_append,
    List.append_assoc]

/-- **A deferral** behind the batch of an advance. -/
theorem cooldown_after_batch {step : ReasoningStep} {updated : ReasoningThread} {at_time : Int}
    (hadvance : advanceThread iso thread step at_time = .ok updated) :
    (applyCooldown interval_seconds visible_index world updated.id
        (world.start.written [.step step, .thread updated])).2 =
      if world.deferral = none then
        world.start.written
          ([.step step, .thread updated] ++ [.thread (world.deferred interval_seconds updated)])
      else world.start.written [.step step, .thread updated] := by
  have hstored : (world.start.written [.step step, .thread updated]).records.threads.get updated.id =
      some updated := by
    show (Shelf.put _ updated rfl).get updated.id = some updated
    rw [Shelf.get_put, if_pos rfl]
  rw [applyCooldown_run (resolveThread_get hstored) (advanceThread_ok hadvance).2.1,
    written_written]

/-- **A thread that is still there** is deferred, or keeps the cooldown that it has. -/
theorem pass_present (hget : world.later.threads.get c.id = some thread) :
    ∃ front, KeepsCooldown c.id thread.skip_next_advance_until front ∧
      ((AdvanceReturns world thread ∧ world.deferral = none) ∧
          (∃ last : ReasoningThread, last.id = c.id ∧
            (advanceCandidate interval_seconds visible_index world c world.start).2 =
              world.start.written (front ++ [.thread (world.deferred interval_seconds last)])) ∨
        ¬ (AdvanceReturns world thread ∧ world.deferral = none) ∧
          (advanceCandidate interval_seconds visible_index world c world.start).2 =
            world.start.written front) := by
  have hid : thread.id = c.id := world.later.threads.key_of_get hget
  have hresolve : resolveThread visible_index world.start.records.threads c.id = .ok thread :=
    resolveThread_get hget
  have hempty : world.start = world.start.written [] := rfl
  cases hanswer : world.answer with
  | nothing =>
    simp only [advanceCandidate, AdvanceReturns, hanswer, true_and]
    refine ⟨[], keepsCooldown_nil, ?_⟩
    rw [applyCooldown_run hresolve (world.decoded _ _ hget)]
    split
    · rename_i hdeferral
      exact Or.inl ⟨hdeferral, thread, hid, rfl⟩
    · rename_i hdeferral
      exact Or.inr ⟨hdeferral, hempty⟩
  | step step =>
    simp only [advanceCandidate, AdvanceReturns, hanswer]
    have hrun := @advanceThreadCall_run iso visible_index world c.id thread world.start step hresolve
    cases hadvance : advanceThread iso thread step world.advanced_at with
    | error e =>
      simp only [hadvance] at hrun
      rw [raised_bind hrun]
      exact ⟨[], keepsCooldown_nil, Or.inr ⟨by simp, hempty⟩⟩
    | ok updated =>
      have hbatch := keepsCooldown_batch hadvance
      rw [hid] at hbatch
      cases hcommit : world.batch with
      | some text =>
        simp only [hadvance, hcommit] at hrun
        rw [raised_bind hrun]
        exact ⟨[], keepsCooldown_nil, Or.inr ⟨by simp, hempty⟩⟩
      | none =>
        simp only [hadvance, hcommit] at hrun
        refine ⟨_, hbatch, ?_⟩
        cases hinbox : if step.requiresAttention = true then world.inbox else none with
        | some text =>
          simp only [hinbox] at hrun
          rw [raised_bind hrun]
          refine Or.inr ⟨?_, rfl⟩
          rintro ⟨⟨-, -, hnone⟩, -⟩
          split at hinbox
          · rename_i hattention
            rw [hnone hattention] at hinbox
            cases hinbox
          · cases hinbox
        | none =>
          simp only [hinbox] at hrun
          rw [returned_bind hrun, cooldown_after_batch hadvance]
          have hreturns : step.requiresAttention = true → world.inbox = none := fun hattention => by
            rwa [if_pos hattention] at hinbox
          split
          · rename_i hdeferral
            exact Or.inl ⟨⟨⟨⟨updated, rfl⟩, rfl, hreturns⟩, hdeferral⟩, updated,
              (hbatch.own updated (by simp)).1, rfl⟩
          · rename_i hdeferral
            exact Or.inr ⟨fun h => hdeferral h.2, rfl⟩

/-- **The thread that is looked up**: where it is another one, because the first is gone and its id
    is an index, that one is written, or nothing. -/
theorem pass_resolved :
    ((advanceCandidate interval_seconds visible_index world c world.start).2 = world.start ∧
        ∀ other, resolveThread visible_index world.later.threads c.id = .ok other →
          WritesNothing world other) ∨
      ∃ other t, resolveThread visible_index world.later.threads c.id = .ok other ∧
        ¬ WritesNothing world other ∧ t.id = other.id ∧ RecordWrite.thread t ∈
          (advanceCandidate interval_seconds visible_index world c world.start).2.writes := by
  cases hresolve : resolveThread visible_index world.later.threads c.id with
  | error e =>
    refine Or.inl ⟨?_, fun other hother => by cases hother⟩
    have hresolve : resolveThread visible_index world.start.records.threads c.id = .error e :=
      hresolve
    cases hanswer : world.answer with
    | nothing =>
      simp only [advanceCandidate, hanswer]
      exact applyCooldown_missing hresolve
    | step step =>
      simp only [advanceCandidate, hanswer]
      rw [raised_bind (advanceThreadCall_missing hresolve)]
  | ok other =>
    have hstored := resolveThread_stored hresolve
    have hresolve : resolveThread visible_index world.start.records.threads c.id = .ok other :=
      hresolve
    have hone : ∀ found, (Except.ok other : Except ReasonError ReasoningThread) = .ok found →
        other = found := fun found hfound => Except.ok.inj hfound
    cases hanswer : world.answer with
    | nothing =>
      simp only [advanceCandidate, WritesNothing, hanswer]
      rw [applyCooldown_run hresolve (world.decoded _ _ hstored)]
      split
      · rename_i hdeferral
        refine Or.inr ⟨other, world.deferred interval_seconds other, rfl, by simp [hdeferral], rfl, ?_⟩
        exact List.mem_cons_self
      · rename_i hdeferral
        exact Or.inl ⟨rfl, fun _ _ => hdeferral⟩
    | step step =>
      simp only [advanceCandidate, WritesNothing, hanswer]
      have hrun := @advanceThreadCall_run iso visible_index world c.id other world.start step hresolve
      cases hadvance : advanceThread iso other step world.advanced_at with
      | error e =>
        simp only [hadvance] at hrun
        rw [raised_bind hrun]
        refine Or.inl ⟨rfl, fun found hfound updated hupdated => ?_⟩
        rw [← hone found hfound, hadvance] at hupdated
        cases hupdated
      | ok updated =>
        have hid := (advanceThread_ok hadvance).2.2.1
        cases hcommit : world.batch with
        | some text =>
          simp only [hadvance, hcommit] at hrun
          rw [raised_bind hrun]
          exact Or.inl ⟨rfl, fun _ _ _ _ => by simp⟩
        | none =>
          simp only [hadvance, hcommit] at hrun
          refine Or.inr ⟨other, updated, rfl, fun h => h updated hadvance rfl, hid, ?_⟩
          cases hinbox : if step.requiresAttention = true then world.inbox else none with
          | some text =>
            simp only [hinbox] at hrun
            rw [raised_bind hrun]
            exact List.mem_cons_of_mem _ List.mem_cons_self
          | none =>
            simp only [hinbox] at hrun
            rw [returned_bind hrun, cooldown_after_batch hadvance]
            split
            · exact List.mem_cons_of_mem _ List.mem_cons_self
            · exact List.mem_cons_of_mem _ List.mem_cons_self

/-! ## When it is right -/

variable {threads : ReasonThreads}

theorem select_spec {now : Int} (h : select iso now threads = some c) :
    threads.get c.id = some c ∧ c.status = .active ∧ eligible iso now c = true := by
  rw [select] at h
  have hmem := List.mem_of_find?_eq_some h
  have hactive := (List.mem_filter.mp (show c ∈ threads.listThreads.filter _ from hmem)).2
  exact ⟨mem_activeThreads hmem, of_decide_eq_true hactive, List.find?_some h⟩

/-- A pass that writes its own thread only is right if that thread cools down. -/
theorem right_of_own {o : Outcome PassError Unit} {writes : List RecordWrite}
    (hselect : select iso world.now threads = some c)
    (hown : ∀ t, RecordWrite.thread t ∈ writes → t.id = c.id)
    (hstep : writes.countP RecordWrite.isStep ≤ 1)
    (hcools : ∀ t, (world.start.written writes).records.threads.get c.id = some t →
      CoolsFrom interval_seconds iso world.now t) :
    PassRight interval_seconds threads world (some c, o, world.start.written writes) := by
  refine ⟨?_, rfl, hstep, fun t ht => ⟨c, rfl, hown t ht⟩, fun id hid => ?_, ?_⟩
  · rintro _ ⟨⟩
    exact select_spec hselect
  · refine writes_get_of_ne fun t ht heq => hid c rfl ?_
    exact (hown t ht).symm.trans heq
  · rintro _ ⟨⟩
    exact hcools

theorem coolsFrom_congr {a b : ReasoningThread} {now : Int}
    (h : a.skip_next_advance_until = b.skip_next_advance_until) :
    CoolsFrom interval_seconds iso now a ↔ CoolsFrom interval_seconds iso now b := by
  rw [CoolsFrom, CoolsFrom, cooldownEnd_congr h]

/-- **The new cooldown** is long enough, if the clock has not gone back. -/
theorem coolsFrom_deferred :
    CoolsFrom interval_seconds iso world.now (world.deferred interval_seconds thread) ↔
      world.now ≤ world.cooled_at := by
  have hend : cooldownEnd iso (world.deferred interval_seconds thread) =
      some (SchedulerState.cooldownFrom interval_seconds world.cooled_at) := by
    simp only [cooldownEnd, PassWorld.deferred, Option.bind_some, iso.from_isoformat]
  rw [CoolsFrom, hend]
  simp only [Option.mem_def, Option.some.injEq, exists_eq_left', SchedulerState.cooldownFrom]
  omega

theorem deferred_get {id : String} {front : List RecordWrite} {last : ReasoningThread}
    (hid : last.id = id) :
    (world.start.written (front ++ [.thread last])).records.threads.get id = some last := by
  show ((front ++ [RecordWrite.thread last]).foldl ReasonRecords.write world.later).threads.get id = _
  rw [List.foldl_append]
  show (Shelf.put _ last rfl).get id = some last
  rw [Shelf.get_put, if_pos hid.symm]

/-- The pass of a thread that is still stored. -/
theorem present_right_iff {o : Outcome PassError Unit}
    (hselect : select iso world.now threads = some c)
    (hget : world.later.threads.get c.id = some thread) :
    PassRight interval_seconds threads world
        (some c, o, (advanceCandidate interval_seconds visible_index world c world.start).2) ↔
      (AdvanceReturns world thread ∧ world.deferral = none ∧ world.now ≤ world.cooled_at) ∨
        (¬ (AdvanceReturns world thread ∧ world.deferral = none) ∧
          CoolsFrom interval_seconds iso world.now thread) := by
  obtain ⟨front, hfront, ⟨hdone, last, hid, hafter⟩ | ⟨hdone, hafter⟩⟩ :=
    @pass_present iso interval_seconds visible_index world c thread hget
  · -- the deferral is written
    have hlast : (world.deferred interval_seconds last).id = c.id := hid
    have hcools := @coolsFrom_deferred iso interval_seconds world last
    rw [hafter, or_iff_left fun h => h.1 hdone, ← and_assoc, and_iff_right hdone]
    constructor
    · exact fun h => hcools.mp (h.cools c rfl _ (deferred_get hlast))
    · intro hclock
      refine right_of_own hselect (fun t ht => ?_) ?_ fun t ht => ?_
      · rcases List.mem_append.mp ht with ht | ht
        · exact (hfront.own t ht).1
        · obtain rfl := RecordWrite.thread.inj (List.mem_singleton.mp ht)
          exact hlast
      · rw [List.countP_append]
        exact hfront.one_step
      · rw [deferred_get hlast] at ht
        obtain rfl := Option.some.inj ht
        exact hcools.mpr hclock
  · -- it is not, and the thread keeps the cooldown that it had
    have hstored : ∃ t, (world.start.written front).records.threads.get c.id = some t ∧
        t.skip_next_advance_until = thread.skip_next_advance_until :=
      writes_get hfront.own ⟨thread, hget, rfl⟩
    obtain ⟨kept, hkept, hskip⟩ := hstored
    have hsame := @coolsFrom_congr iso interval_seconds kept thread world.now hskip
    rw [hafter, or_iff_right fun h => hdone ⟨h.1, h.2.1⟩, and_iff_right hdone]
    constructor
    · exact fun h => hsame.mp (h.cools c rfl kept hkept)
    · intro hcools
      refine right_of_own hselect (fun t ht => (hfront.own t ht).1) hfront.one_step fun t ht => ?_
      obtain rfl := Option.some.inj (hkept.symm.trans ht)
      exact hsame.mpr hcools

/-- The pass of a thread that is gone meanwhile. -/
theorem gone_right_iff {o : Outcome PassError Unit}
    (hselect : select iso world.now threads = some c)
    (hget : world.later.threads.get c.id = none) :
    PassRight interval_seconds threads world
        (some c, o, (advanceCandidate interval_seconds visible_index world c world.start).2) ↔
      ∀ other, resolveThread visible_index world.later.threads c.id = .ok other →
        WritesNothing world other := by
  obtain ⟨hafter, hnothing⟩ | ⟨other, t, hresolve, hwrites, hid, ht⟩ :=
    @pass_resolved iso interval_seconds visible_index world c
  · refine iff_of_true ?_ hnothing
    rw [hafter]
    refine @right_of_own iso interval_seconds world c threads _ [] hselect
      (fun t ht => absurd ht List.not_mem_nil) (Nat.zero_le 1) fun t ht => ?_
    cases hget.symm.trans ht
  · refine iff_of_false (fun h => ?_) fun h => hwrites (h other hresolve)
    obtain ⟨_, ⟨⟩, hsame⟩ := h.others_unwritten t ht
    have hstored := resolveThread_stored hresolve
    rw [← hid, hsame, hget] at hstored
    cases hstored

end

/-- **A pass is right** exactly when the deferral is reached and written, or is not needed. -/
theorem pass_right_iff (iso : IsoTime) (interval_seconds : Nat)
    (visible_index : String → Option Nat) (threads : ReasonThreads) (world : PassWorld iso) :
    PassRight interval_seconds threads world
        (runOnce interval_seconds visible_index threads world) ↔
      CooldownReached interval_seconds visible_index threads world := by
  rw [runOnce]
  cases hselect : select iso world.now threads with
  | none =>
    refine iff_of_true ?_ ⟨fun c _ hc => ?_, fun c _ hc => ?_⟩
    · refine ⟨fun c hc => ?_, rfl, Nat.zero_le 1, fun t ht => ?_, fun _ _ => rfl, fun c hc => ?_⟩
      · cases hc
      · exact absurd ht List.not_mem_nil
      · cases hc
    · rw [hselect] at hc
      cases hc
    · rw [hselect] at hc
      cases hc
  | some c =>
    have hone : ∀ other, select iso world.now threads = some other → c = other := by
      intro other hother
      exact Option.some.inj (hselect.symm.trans hother)
    show PassRight interval_seconds threads world (some c,
      (advanceCandidate interval_seconds visible_index world c world.start).1,
      (advanceCandidate interval_seconds visible_index world c world.start).2) ↔ _
    cases hget : world.later.threads.get c.id with
    | some thread =>
      have hreached : CooldownReached interval_seconds visible_index threads world ↔
          (AdvanceReturns world thread ∧ world.deferral = none ∧ world.now ≤ world.cooled_at) ∨
            (¬ (AdvanceReturns world thread ∧ world.deferral = none) ∧
              CoolsFrom interval_seconds iso world.now thread) := by
        refine ⟨fun h => h.present c thread hselect hget, fun h => ⟨?_, ?_⟩⟩
        · intro other found hother hfound
          obtain rfl := hone other hother
          obtain rfl := Option.some.inj (hget.symm.trans hfound)
          exact h
        · intro other found hother hgone
          obtain rfl := hone other hother
          cases hget.symm.trans hgone
      rw [hreached]
      exact present_right_iff hselect hget
    | none =>
      have hreached : CooldownReached interval_seconds visible_index threads world ↔
          ∀ other, resolveThread visible_index world.later.threads c.id = .ok other →
            WritesNothing world other := by
        refine ⟨fun h other hother => h.gone c other hselect hget hother, fun h => ⟨?_, ?_⟩⟩
        · intro other found hother hfound
          obtain rfl := hone other hother
          cases hget.symm.trans hfound
        · intro other found hother _ hfound
          obtain rfl := hone other hother
          exact h found hfound
      rw [hreached]
      exact gone_right_iff hselect hget

/-- The thread is paused while its step is made. -/
def pausedThread : ReasoningThread := { emptyThread with status := .paused }

theorem pausedThread_wellFormed : pausedThread.WellFormed noonIso :=
  (ReasoningThread.postInit_ok_iff.mp
    (show ReasoningThread.postInit noonIso pausedThread = .ok pausedThread by rfl)).2

/-- The advancer brings a step for a thread that was paused meanwhile. -/
def pausedWorld : PassWorld noonIso where
  now := 1767268800000000
  answer := .step noonStep
  later := ⟨Shelf.empty.put pausedThread rfl, Shelf.empty⟩
  decoded := by
    intro id thread hget
    rw [Shelf.get_put] at hget
    split at hget
    · cases hget
      exact pausedThread_wellFormed
    · cases hget
  advanced_at := 1767268800000000
  batch := none
  inbox := none
  cooled_at := 1767268800000000
  deferral := none

/-- **Not deferred**: `advance_thread` raises, and the thread has no cooldown. -/
theorem paused_not_deferred :
    ¬ PassRight 600 (Shelf.empty.put emptyThread rfl) pausedWorld
      (runOnce 600 (fun _ => none) (Shelf.empty.put emptyThread rfl) pausedWorld) := by
  intro h
  have hselected : (runOnce 600 (fun _ => none) (Shelf.empty.put emptyThread rfl) pausedWorld).1 =
      some emptyThread := by rfl
  have hstored : (runOnce 600 (fun _ => none) (Shelf.empty.put emptyThread rfl)
      pausedWorld).2.2.records.threads.get "reason-1" = some pausedThread := by rfl
  obtain ⟨cooldown_end, hend, -⟩ := h.cools emptyThread hselected pausedThread hstored
  cases hend

end NuSelf.Reasoning
