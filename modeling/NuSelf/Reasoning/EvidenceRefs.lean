/-
  The evidence references of a thread, over any calls of `advance_thread`.

  A step brings references; the thread takes those that it does not hold yet, and keeps the last
  twenty.  What is held is looked up once, before the first of them is taken, so a reference that
  the step repeats is taken twice.

  The observer keeps the history: the references the thread was started with, and by each advance
  those that were new, each of them once (`seeAdded`).

  1. `RefsKept` — distinct, at most twenty, in the order of the history, and none missing that is
     not followed by twenty later ones.
  2. `refs_step` — an advance keeps the last twenty of the history, if its repeats are pushed out
     at once.
  3. `evidence_refs_kept` — so do any calls.
-/
import NuSelf.Lib.Recent
import NuSelf.Lib.Run
import NuSelf.Reasoning.Service

namespace NuSelf.Reasoning

open NuSelf.Lib

/-! ## The calls -/

/-- A call of `advance_thread`, with all that the environment decides. -/
structure AdvanceThread where
  /-- The step that the caller brings. -/
  step : Option ReasoningStep
  /-- The answer of the advancer, if there is one. -/
  advancer : Option (Option ReasoningStep)
  now : Int
  /-- The step and the thread are committed. -/
  commits : Bool

/-- The step of a call. -/
def AdvanceThread.generated (call : AdvanceThread) (id : String) :
    Except ReasonError ReasoningStep :=
  match call.step, call.advancer with
  | some step, _ => .ok step
  | none, some (some step) => .ok step
  | none, some none =>
    .error (.advance ("Cannot advance thread " ++ id ++
      ": advancer did not produce a structured step"))
  | none, none =>
    .error (.advance ("Cannot advance thread " ++ id ++ ": no reason advancer configured"))

/-- The thread that the call saves with its step. -/
def AdvanceThread.updated (iso : IsoTime) (thread : ReasoningThread) (call : AdvanceThread) :
    Except ReasonError (ReasoningStep × ReasoningThread) :=
  if thread.status ≠ .active then
    .error (.advance ("Cannot advance thread " ++ thread.id ++ ": status is '" ++
      thread.status.name ++ "', expected 'active'"))
  else do
    let step ← call.generated thread.id
    let updated ← advanceThread iso thread step call.now
    return (step, updated)

/-- `advance_thread` on the stored thread; the step that was saved with it, if one was.  What the
    call does afterwards is not about the thread. -/
def advanceCall (iso : IsoTime) (thread : ReasoningThread) (call : AdvanceThread) :
    ReasoningThread × Option ReasoningStep :=
  match call.updated iso thread with
  | .error _ => (thread, none)
  | .ok (step, updated) => if call.commits then (updated, some step) else (thread, none)

/-! ## The history -/

/-- The references of a step that the thread does not hold. -/
def unheldRefs (thread : ReasoningThread) (step : ReasoningStep) : List String :=
  step.evidence_refs.filter fun ref => !thread.evidence_refs.contains ref

/-- The references in the order in which they were added; one that a step repeats is added once. -/
def seeAdded (added : List String) (e : Step ReasoningThread AdvanceThread (Option ReasoningStep)) :
    List String :=
  match e.output with
  | none => added
  | some step => added ++ (unheldRefs e.before step).eraseDups

/-- What holds of the references after every advance. -/
structure RefsKept (added refs : List String) : Prop where
  distinct : refs.Nodup
  bounded : refs.length ≤ maxEvidenceRefs
  in_order : refs.Sublist added
  /-- One that is missing was pushed out by later ones. -/
  pushed_out : ∀ older ref newer, added = older ++ ref :: newer → ref ∉ refs →
    maxEvidenceRefs ≤ newer.length

/-- A reference that the step of the call repeats, and the thread does not hold, is followed by as
    many others as the thread keeps; a call on a thread that is not active, or one that is not
    committed, takes no references. -/
def RepeatsPushedOut (thread : ReasoningThread) (call : AdvanceThread) : Prop :=
  thread.status = .active → call.commits = true → ∀ step, call.generated thread.id = .ok step →
    RepeatsPushed maxEvidenceRefs (unheldRefs thread step)

/-! ## One advance -/

variable {iso : IsoTime}

/-- The thread holds the last references of its history. -/
structure HoldsRecent (s : ReasoningThread × List String) : Prop where
  recent : s.1.evidence_refs = s.2.rtake maxEvidenceRefs
  distinct : s.1.evidence_refs.Nodup

theorem HoldsRecent.kept {s : ReasoningThread × List String} (h : HoldsRecent s) :
    RefsKept s.2 s.1.evidence_refs where
  distinct := h.distinct
  bounded := by
    rw [h.recent]
    exact rtake_length_le _ _
  in_order := by
    rw [h.recent]
    exact (rtake_suffix _ _).sublist
  pushed_out := by
    intro older ref newer hadded hmissing
    rw [h.recent, hadded] at hmissing
    exact length_of_not_mem_rtake hmissing

theorem advanceThread_refs {thread updated : ReasoningThread} {step : ReasoningStep} {now : Int}
    (h : advanceThread iso thread step now = .ok updated) :
    updated.evidence_refs =
      (thread.evidence_refs ++ unheldRefs thread step).rtake maxEvidenceRefs := by
  rw [advanceThread] at h
  split at h
  · cases h
  · obtain ⟨active, -, h⟩ := bind_ok h
    obtain ⟨pending, -, h⟩ := bind_ok h
    obtain ⟨rfl, -⟩ := ReasoningThread.postInit_ok_iff.mp h
    rfl

/-- A call saves no step and leaves the thread, or it saves the thread with a step. -/
theorem advanceCall_cases (iso : IsoTime) (thread : ReasoningThread) (call : AdvanceThread) :
    advanceCall iso thread call = (thread, none) ∨
      ∃ step updated, advanceCall iso thread call = (updated, some step) ∧
        call.commits = true ∧ call.generated thread.id = .ok step ∧
          advanceThread iso thread step call.now = .ok updated := by
  cases hcall : call.updated iso thread with
  | error e => exact Or.inl (by rw [advanceCall, hcall])
  | ok saved =>
    obtain ⟨step, updated⟩ := saved
    rw [advanceCall, hcall]
    cases hcommits : call.commits with
    | false => exact Or.inl rfl
    | true =>
      rw [AdvanceThread.updated] at hcall
      split at hcall
      · cases hcall
      · obtain ⟨step', hstep, hcall⟩ := bind_ok hcall
        obtain ⟨updated', hupdated, hcall⟩ := bind_ok hcall
        cases hcall
        exact Or.inr ⟨step, updated, rfl, rfl, hstep, hupdated⟩

/-- **One advance** keeps the last of the history. -/
theorem refs_step (s : ReasoningThread × List String) (call : AdvanceThread) (h : HoldsRecent s)
    (hpushed : RepeatsPushedOut s.1 call) :
    HoldsRecent (watched (advanceCall iso) seeAdded s call).1 := by
  obtain ⟨thread, added⟩ := s
  rcases advanceCall_cases iso thread call with
    hcall | ⟨step, updated, hcall, hcommits, hstep, hupdated⟩
  · have hsame : (watched (advanceCall iso) seeAdded (thread, added) call).1 = (thread, added) := by
      rw [watched, seeAdded, hcall]
    rw [hsame]
    exact h
  · have hsaved : (watched (advanceCall iso) seeAdded (thread, added) call).1 =
        (updated, added ++ (unheldRefs thread step).eraseDups) := by
      rw [watched, seeAdded, hcall]
    have hrepeats : RepeatsPushed maxEvidenceRefs (unheldRefs thread step) :=
      hpushed (advanceThread_ok hupdated).1 hcommits step hstep
    -- what is taken is as good as the new references, each of them once
    have hrefs : updated.evidence_refs =
        (thread.evidence_refs ++ (unheldRefs thread step).eraseDups).rtake maxEvidenceRefs := by
      rw [advanceThread_refs hupdated, rtake_append_eraseDups hrepeats]
    have hnew : ∀ ref ∈ (unheldRefs thread step).eraseDups, ref ∉ thread.evidence_refs := by
      intro ref hmem
      have hunheld := (List.mem_filter.mp (List.mem_eraseDups.mp hmem)).2
      simpa using hunheld
    rw [hsaved]
    constructor
    · show updated.evidence_refs = _
      rw [hrefs, show thread.evidence_refs = _ from h.recent, rtake_append_rtake]
    · show updated.evidence_refs.Nodup
      rw [hrefs]
      refine List.Nodup.sublist (rtake_suffix _ _).sublist ?_
      refine List.nodup_append.mpr ⟨h.distinct, nodup_eraseDups _, ?_⟩
      rintro ref hheld ref' hadded rfl
      exact hnew ref hadded hheld

/-! ## Any calls -/

/-- **The references are kept**: for every thread with at most twenty references that are distinct,
    and every sequence of calls whose repeats are pushed out at once. -/
theorem evidence_refs_kept (iso : IsoTime) (thread : ReasoningThread)
    (hdistinct : thread.evidence_refs.Nodup)
    (hbounded : thread.evidence_refs.length ≤ maxEvidenceRefs) (calls : List AdvanceThread)
    (hpushed : ∀ e ∈ run (watched (advanceCall iso) seeAdded) (thread, thread.evidence_refs) calls,
      RepeatsPushedOut e.before.1 e.input) :
    ∀ e ∈ run (watched (advanceCall iso) seeAdded) (thread, thread.evidence_refs) calls,
      RefsKept e.after.2 e.after.1.evidence_refs := by
  have hstart : HoldsRecent (thread, thread.evidence_refs) :=
    ⟨(rtake_of_length_le hbounded).symm, hdistinct⟩
  intro e he
  have hstep : ∀ s call, HoldsRecent s → RepeatsPushedOut s.1 call →
      HoldsRecent (watched (advanceCall iso) seeAdded s call).1 := fun s call => refs_step s call
  exact (run_induct hstep _ calls hstart hpushed e he).2.kept

/-- A call with a step that brings these references. -/
def bringRefs (refs : List String) : AdvanceThread where
  step := some { noonStep with evidence_refs := refs }
  advancer := none
  now := 1767268800000000
  commits := true

/-- A new reference beside one that is held, and then another. -/
theorem overlapping_refs_kept :
    ["a"].Nodup ∧
    ∀ e ∈ run (watched (advanceCall noonIso) seeAdded)
        ({ emptyThread with evidence_refs := ["a"] }, ["a"]) [bringRefs ["a", "b"], bringRefs ["c"]],
      RefsKept e.after.2 e.after.1.evidence_refs := by
  refine ⟨List.nodup_singleton "a",
    evidence_refs_kept noonIso { emptyThread with evidence_refs := ["a"] }
      (List.nodup_singleton "a") (by decide) _ fun e he => ?_⟩
  have hinput : e.input = bringRefs ["a", "b"] ∨ e.input = bringRefs ["c"] := by
    simpa using input_mem _ _ _ e he
  intro hactive hcommits step hstep
  refine RepeatsPushed.of_nodup (List.Nodup.filter _ ?_)
  rcases hinput with hinput | hinput
  · rw [hinput] at hstep
    cases hstep
    exact List.nodup_cons.mpr ⟨by decide, List.nodup_singleton "b"⟩
  · rw [hinput] at hstep
    cases hstep
    exact List.nodup_singleton "c"

/-- **Taken twice**: a step that repeats a new reference. -/
theorem repeated_ref_taken_twice :
    ¬ ∀ e ∈ run (watched (advanceCall noonIso) seeAdded) (emptyThread, emptyThread.evidence_refs)
        [bringRefs ["a", "a"]],
      RefsKept e.after.2 e.after.1.evidence_refs := by
  intro h
  have hrefs : ["a", "a"].Nodup := (h _ List.mem_cons_self).distinct
  exact absurd hrefs (by decide)

end NuSelf.Reasoning
