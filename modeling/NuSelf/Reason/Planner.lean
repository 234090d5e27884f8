/-
  Planning the sections of an export: the answer of the section agent, and what becomes of it.

  The agent is asked for a list of sections with a first and a last step each.  Its answer is
  checked twice: by the schema, section by section, and by `_materialize_section_plan`, which wants
  the ranges to follow one another from the first step to the last.  A `ValueError` from either, or
  from the agent itself, makes way for `plan_sections`; any other error is passed on.

  1. `materialize_ok_iff` — the check accepts exactly the plans that tile the steps.
  2. `planSections_tiles` — `plan_sections` always tiles the steps.
  3. `planner_tiles` — so whatever the agent answers, a plan that comes out of the planner tiles the
     steps, and a plan of the agent that does is taken as it is.
-/
import NuSelf.Lib.Json
import NuSelf.Lib.Spans
import NuSelf.Reason.Compose

namespace NuSelf.Reason

open NuSelf.Lib

/-! ## The schema -/

structure ReasonSectionOutput where
  title : String
  focus : String
  step_start : Nat
  step_end : Nat
  title_nonempty : title ≠ ""
  focus_nonempty : focus ≠ ""
  range_is_ordered : step_start ≤ step_end

structure ReasonSectionPlanOutput where
  sections : List ReasonSectionOutput
  min_length : 1 ≤ sections.length
  max_length : sections.length ≤ 8

/-- One section of an answer; `trim` is the `strip_whitespace` of the schema. -/
def ReasonSectionOutput.modelValidate (trim : String → String) : Json → Option ReasonSectionOutput
  | .obj fields =>
    if fields.all (fun f => ["title", "focus", "step_start", "step_end"].contains f.1) = true then
      match fields.lookup "title", fields.lookup "focus", fields.lookup "step_start",
          fields.lookup "step_end" with
      | some (.str title), some (.str focus), some (.int step_start), some (.int step_end) =>
        if h : (trim title ≠ "" ∧ trim focus ≠ "") ∧ 0 ≤ step_start ∧ 0 ≤ step_end ∧
            step_start ≤ step_end then
          some { title := trim title, focus := trim focus
                 step_start := step_start.toNat, step_end := step_end.toNat
                 title_nonempty := h.1.1, focus_nonempty := h.1.2
                 range_is_ordered := Int.toNat_le_toNat h.2.2.2 }
        else none
      | _, _, _, _ => none
    else none
  | _ => none

/-- The whole answer. -/
def ReasonSectionPlanOutput.modelValidate (trim : String → String) :
    Json → Option ReasonSectionPlanOutput
  | .obj [("sections", .arr items)] =>
    (items.mapM (ReasonSectionOutput.modelValidate trim)).bind fun sections =>
      if h : 1 ≤ sections.length ∧ sections.length ≤ 8 then some ⟨sections, h.1, h.2⟩ else none
  | _ => none

/-- What the section agent answers when the model sends `response`; `invalid` is the error that a
    response off the schema ends in. -/
def sectionAnswer (trim : String → String) (invalid : ReasonOutputError) (response : Json) :
    Except ReasonOutputError ReasonSectionPlanOutput :=
  match ReasonSectionPlanOutput.modelValidate trim response with
  | some output => .ok output
  | none => .error invalid

/-! ## The planner -/

/-- The loop of `_materialize_section_plan` from `expected_start` on. -/
def materializeFrom (step_count : Nat) : Nat → List ReasonSectionOutput →
    Except ReasonOutputError Unit
  | expected_start, [] =>
    if expected_start ≠ step_count then
      .error (.value "section ranges must cover every reason step")
    else .ok ()
  | expected_start, s :: rest =>
    if s.step_start ≠ expected_start then
      .error (.value "section ranges must be ordered, contiguous, and non-overlapping")
    else if step_count ≤ s.step_end then
      .error (.value "section range exceeds available reason steps")
    else materializeFrom step_count (s.step_end + 1) rest

def materializeSectionPlan (output : ReasonSectionPlanOutput) (steps : List ReasoningStep) :
    Except ReasonOutputError (List ReasonSectionOutput) := do
  materializeFrom steps.length 0 output.sections
  return output.sections

/-- Section number `index` of a plan that was accepted, so that every position has its step. -/
def plannedSection (steps : List ReasoningStep) (now : String) (index : Nat)
    (s : ReasonSectionOutput) : ReasonOutputSection where
  index := index
  title := s.title
  focus := s.focus
  step_ids := (List.range' s.step_start (s.step_end + 1 - s.step_start)).filterMap fun position =>
    steps[position]?.map fun step => step.id
  source_start_index := s.step_start
  source_end_index := s.step_end
  summary := String.ofList (s.focus.toList.take 80)
  created_at := now

/-- `planner(thread, steps, mode)`, by what the section agent answers. -/
def planner (service : ReasonOutputService)
    (answer : Except ReasonOutputError ReasonSectionPlanOutput) (thread : ReasoningThread)
    (steps : List ReasoningStep) (mode : ReasonOutputMode) (now : String) :
    Except ReasonOutputError (List ReasonOutputSection) :=
  if steps = [] then service.planSections thread steps mode now
  else
    match answer.bind fun output => materializeSectionPlan output steps with
    | .ok sections => .ok (sections.mapIdx (plannedSection steps now))
    | .error (.value _) => service.planSections thread steps mode now
    | .error error => .error error

/-! ## What a plan covers -/

def ReasonSectionOutput.span (s : ReasonSectionOutput) : Int × Int := (s.step_start, s.step_end)

def ReasonOutputSection.span (s : ReasonOutputSection) : Int × Int :=
  (s.source_start_index, s.source_end_index)

theorem materializeFrom_ok_iff {step_count : Nat} : ∀ {sections : List ReasonSectionOutput}
    {expected_start : Nat}, materializeFrom step_count expected_start sections = .ok () ↔
      Abutting expected_start (sections.map ReasonSectionOutput.span) step_count
  | [], expected_start => by
    rw [materializeFrom]
    show _ ↔ (expected_start : Int) = step_count
    split
    · rename_i hne
      exact ⟨nofun, fun h => absurd (Int.ofNat.inj h) hne⟩
    · rename_i heq
      exact ⟨fun _ => congrArg _ (not_not.mp heq), fun _ => rfl⟩
  | s :: rest, expected_start => by
    rw [materializeFrom]
    show _ ↔ (s.step_start : Int) = expected_start ∧ (s.step_start : Int) ≤ s.step_end ∧
      Abutting ((s.step_end : Int) + 1) (rest.map ReasonSectionOutput.span) step_count
    have hordered := s.range_is_ordered
    have hrest := @materializeFrom_ok_iff step_count rest (s.step_end + 1)
    rw [Int.natCast_add, Int.natCast_one] at hrest
    split
    · rename_i hstart
      exact ⟨nofun, fun h => absurd (Int.ofNat.inj h.1) hstart⟩
    · rename_i hstart
      split
      · rename_i hend
        -- a chain that leaves the steps cannot stop at the last one
        refine ⟨nofun, fun h => ?_⟩
        have hle := h.2.2.le
        omega
      · rw [hrest]
        exact ⟨fun h => ⟨by omega, by omega, h⟩, fun h => h.2.2⟩

/-- **The check accepts exactly the plans that tile the steps.** -/
theorem materialize_ok_iff {output : ReasonSectionPlanOutput} {steps : List ReasoningStep} :
    materializeSectionPlan output steps = .ok output.sections ↔
      Tiles steps.length (output.sections.map ReasonSectionOutput.span) := by
  rw [tiles_iff, ← Int.natCast_zero, ← materializeFrom_ok_iff, materializeSectionPlan]
  cases hloop : materializeFrom steps.length 0 output.sections with
  | error e => exact ⟨nofun, nofun⟩
  | ok u => exact ⟨fun _ => rfl, fun _ => rfl⟩

theorem materialize_cases (output : ReasonSectionPlanOutput) (steps : List ReasoningStep) :
    materializeSectionPlan output steps = .ok output.sections ∨
      ∃ text, materializeSectionPlan output steps = .error (.value text) := by
  have hloop : ∀ (sections : List ReasonSectionOutput) (expected_start : Nat),
      materializeFrom steps.length expected_start sections = .ok () ∨
        ∃ text, materializeFrom steps.length expected_start sections = .error (.value text) := by
    intro sections
    induction sections with
    | nil =>
      intro expected_start
      rw [materializeFrom]
      split
      · exact Or.inr ⟨_, rfl⟩
      · exact Or.inl rfl
    | cons s rest ih =>
      intro expected_start
      rw [materializeFrom]
      split
      · exact Or.inr ⟨_, rfl⟩
      split
      · exact Or.inr ⟨_, rfl⟩
      · exact ih _
  rw [materializeSectionPlan]
  rcases hloop output.sections 0 with h | ⟨text, h⟩
  · rw [h]
    exact Or.inl rfl
  · rw [h]
    exact Or.inr ⟨text, rfl⟩

section

variable (service : ReasonOutputService) (thread : ReasoningThread) (steps : List ReasoningStep)
  (mode : ReasonOutputMode) (now : String)

/-- The loop of `plan_sections` goes through the batches one after the other. -/
theorem planSectionsFrom_chained (total_steps count : Nat) : ∀ {batches : List (List ReasoningStep)}
    (index offset : Nat), (∀ batch ∈ batches, batch ≠ []) →
      Abutting offset ((service.planSectionsFrom thread mode total_steps count now index offset
        batches).map ReasonOutputSection.span) ((offset + batches.flatten.length : Nat) : Int)
  | [], index, offset, _ => rfl
  | batch :: rest, index, offset, h => by
    obtain ⟨hbatch, hrest⟩ := List.forall_mem_cons.mp h
    have hpos : 0 < batch.length := List.length_pos_iff.mpr hbatch
    have htail := planSectionsFrom_chained total_steps count (index + 1) (offset + batch.length) hrest
    show (offset : Int) = offset ∧ (offset : Int) ≤ offset + batch.length - 1 ∧ Abutting
      ((offset : Int) + batch.length - 1 + 1) _ ((offset + (batch :: rest).flatten.length : Nat) : Int)
    have hnext : (offset : Int) + batch.length - 1 + 1 = ((offset + batch.length : Nat) : Int) := by
      omega
    rw [hnext, List.flatten_cons, List.length_append, ← Nat.add_assoc]
    exact ⟨rfl, by omega, htail⟩

/-- **The fall-back split always tiles the steps.** -/
theorem planSections_tiles : ∃ sections, service.planSections thread steps mode now = .ok sections ∧
    Tiles steps.length (sections.map ReasonOutputSection.span) := by
  obtain ⟨batches, hbatches⟩ := partitionSteps_ok steps (sectionWindowSize_pos mode steps.length)
  refine ⟨_, by rw [ReasonOutputService.planSections, hbatches], tiles_iff.mpr ?_⟩
  have hchain := planSectionsFrom_chained service thread mode now steps.length batches.length 0 0
    (partition_nonempty hbatches)
  rwa [partition_flatten hbatches, Nat.zero_add] at hchain

theorem planned_spans (sections : List ReasonSectionOutput) :
    (sections.mapIdx (plannedSection steps now)).map ReasonOutputSection.span =
      sections.map ReasonSectionOutput.span := by
  refine List.ext_getElem (by rw [List.length_map, List.length_map, List.length_mapIdx]) ?_
  intro k _ _
  rw [List.getElem_map, List.getElem_map, List.getElem_mapIdx]
  rfl

theorem not_tiles_zero (output : ReasonSectionPlanOutput) :
    ¬ Tiles 0 (output.sections.map ReasonSectionOutput.span) := by
  intro h
  have hsections := output.min_length
  cases hlist : output.sections with
  | nil =>
    rw [hlist] at hsections
    exact absurd hsections (by decide)
  | cons s rest =>
    rw [hlist, tiles_iff] at h
    obtain ⟨hstart, hspan, hrest⟩ : (s.step_start : Int) = 0 ∧ (s.step_start : Int) ≤ s.step_end ∧
      Abutting ((s.step_end : Int) + 1) (rest.map ReasonSectionOutput.span) (0 : Nat) := h
    have hle := hrest.le
    omega

theorem planner_taken_iff (output : ReasonSectionPlanOutput) :
    planner service (.ok output) thread steps mode now =
        .ok (output.sections.mapIdx (plannedSection steps now)) ↔
      Tiles steps.length (output.sections.map ReasonSectionOutput.span) := by
  obtain ⟨fallback, hfallback, htiles⟩ := planSections_tiles service thread steps mode now
  -- the fall-back split tiles the steps, so it is not a plan that does not
  have hsame : (Except.ok fallback : Except ReasonOutputError _) =
      .ok (output.sections.mapIdx (plannedSection steps now)) →
        Tiles steps.length (output.sections.map ReasonSectionOutput.span) := by
    intro h
    rw [← planned_spans steps now, ← Except.ok.inj h]
    exact htiles
  rw [planner]
  by_cases hsteps : steps = []
  · subst hsteps
    rw [if_pos rfl, hfallback]
    exact ⟨hsame, fun h => absurd h (not_tiles_zero output)⟩
  · rw [if_neg hsteps, ← materialize_ok_iff]
    show (match materializeSectionPlan output steps with
      | .ok sections => Except.ok (sections.mapIdx (plannedSection steps now))
      | .error (.value _) => service.planSections thread steps mode now
      | .error error => .error error) = _ ↔ _
    rcases materialize_cases output steps with h | ⟨text, h⟩
    · rw [h]
      exact ⟨fun _ => rfl, fun _ => rfl⟩
    · rw [h]
      show service.planSections thread steps mode now = _ ↔ _
      rw [hfallback]
      refine ⟨fun hok => ?_, nofun⟩
      rw [← h]
      exact materialize_ok_iff.mpr (hsame hok)

/-- Whatever the agent answers, the planner passes an error of the agent on or returns a plan that
    tiles the steps. -/
theorem planner_cases (answer : Except ReasonOutputError ReasonSectionPlanOutput) :
    (∃ error, answer = .error error ∧ planner service answer thread steps mode now = .error error) ∨
      ∃ sections, planner service answer thread steps mode now = .ok sections ∧
        Tiles steps.length (sections.map ReasonOutputSection.span) := by
  have hfallback := planSections_tiles service thread steps mode now
  rw [planner]
  by_cases hsteps : steps = []
  · rw [if_pos hsteps]
    exact Or.inr hfallback
  rw [if_neg hsteps]
  cases answer with
  | error error =>
    cases error with
    | value text => exact Or.inr hfallback
    | notFound _ | runtime _ | fileNotFound _ | other _ => exact Or.inl ⟨_, rfl, rfl⟩
  | ok output =>
    show _ ∨ ∃ sections, (match materializeSectionPlan output steps with
      | .ok sections => Except.ok (sections.mapIdx (plannedSection steps now))
      | .error (.value _) => service.planSections thread steps mode now
      | .error error => .error error) = .ok sections ∧ _
    rcases materialize_cases output steps with h | ⟨text, h⟩
    · rw [h]
      refine Or.inr ⟨_, rfl, ?_⟩
      rw [planned_spans]
      exact materialize_ok_iff.mp h
    · rw [h]
      exact Or.inr hfallback

/-- **Every plan tiles the steps.**  The check accepts exactly the plans whose ranges are not empty
    and give every step once and in order; the fall-back split is such a plan; and whatever the
    agent answers, the planner returns such a plan or passes on the agent's error, and takes the
    agent's own plan exactly when it is one. -/
theorem plans_tile :
    (∀ output : ReasonSectionPlanOutput, materializeSectionPlan output steps = .ok output.sections ↔
      Tiles steps.length (output.sections.map ReasonSectionOutput.span)) ∧
    (∃ sections, service.planSections thread steps mode now = .ok sections ∧
      Tiles steps.length (sections.map ReasonOutputSection.span)) ∧
    (∀ answer : Except ReasonOutputError ReasonSectionPlanOutput,
      (∃ error, answer = .error error ∧
        planner service answer thread steps mode now = .error error) ∨
      ∃ sections, planner service answer thread steps mode now = .ok sections ∧
        Tiles steps.length (sections.map ReasonOutputSection.span)) ∧
    ∀ output : ReasonSectionPlanOutput, planner service (.ok output) thread steps mode now =
        .ok (output.sections.mapIdx (plannedSection steps now)) ↔
      Tiles steps.length (output.sections.map ReasonSectionOutput.span) :=
  ⟨fun _ => materialize_ok_iff, planSections_tiles service thread steps mode now,
    planner_cases service thread steps mode now, planner_taken_iff service thread steps mode now⟩

end

end NuSelf.Reason
