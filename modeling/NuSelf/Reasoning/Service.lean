/-
  The reason service: what starts a thread, what an advance makes of it, what changes its status.

  The functions here compute the new thread from the one that was read; when it is read and
  written is the matter of the modules that use them.  Labels are compared as the sets of the code
  compare them (`labelKey`).

  1. `toStep` — a step from the structured output of a model.
  2. `startThread`, `advanceThread`, `transition`, `deferAdvancement` — the threads that are saved.
  3. `advanceThread_ok` and the like — each of them is one that the constructor accepts.
-/
import NuSelf.Lib.JsonEq
import NuSelf.Reasoning.Model

namespace NuSelf.Reasoning

open NuSelf.Lib NuSelf.Storage

/-! ## Steps -/

structure ReasoningStep where
  id : String
  thread_id : String
  kind : StepKind
  summary : String
  delta : String
  evidence_refs : List String
  output : String
  tool_logs : List Mapping
  confidence : Option Double
  created_at : String
  new_findings_data : List Mapping
  new_pending_data : List Mapping
  retired_findings_data : List Mapping
  next_steps_data : List Mapping
  terminal_status : TerminalStatus
  terminal_reason : String

def ReasoningStep.postInit (step : ReasoningStep) : Except ReasonError ReasoningStep :=
  if blank step.thread_id then .error (.value "step thread_id must not be empty")
  else if blank step.summary then .error (.value "step summary must not be empty")
  else do
    ReasoningThread.freezeMappings step.tool_logs
    ReasoningThread.freezeMappings step.new_findings_data
    ReasoningThread.freezeMappings step.new_pending_data
    ReasoningThread.freezeMappings step.retired_findings_data
    ReasoningThread.freezeMappings step.next_steps_data
    return step

/-- The step can be saved: a confidence that is no number cannot be encoded. -/
def ReasoningStep.finite (step : ReasoningStep) : Bool :=
  match step.confidence with
  | none => true
  | some confidence => confidence.isFinite

/-- `_step_requires_attention`; there always is a terminal status, "continue" if no other. -/
def ReasoningStep.requiresAttention (step : ReasoningStep) : Bool :=
  decide (step.kind ≠ .no_change)

/-- `TrackedItemOutput`, as the strict schema accepts it. -/
structure TrackedItemOutput where
  label : String
  description : String := ""
  kind : String := ""
  status : String := "active"
  label_ne : label ≠ ""

def TrackedItemOutput.modelDump (item : TrackedItemOutput) : Mapping :=
  [("label", .str item.label), ("description", .str item.description), ("kind", .str item.kind),
    ("status", .str item.status)]

/-- `ReasonStepOutput`, as the strict schema accepts it. -/
structure ReasonStepOutput where
  summary : String
  delta : String
  kind : StepKind
  output : String
  evidence_refs : List String := []
  confidence : Option Double := none
  new_findings : List TrackedItemOutput := []
  new_pending : List TrackedItemOutput := []
  retired_findings : List TrackedItemOutput := []
  next_steps : List TrackedItemOutput := []
  terminal_status : TerminalStatus := .continue
  terminal_reason : String := ""
  confidence_unit : ∀ c ∈ confidence, Double.le 0x0#64 c = true ∧ c.le 0x3ff0000000000000#64 = true

/-- `to_step`; `id` and `created_at` are the defaults of the step. -/
def ReasonStepOutput.toStep (out : ReasonStepOutput) (id created_at thread_id : String)
    (tool_logs : List Mapping) : Except ReasonError ReasoningStep :=
  ReasoningStep.postInit
    { id := id, thread_id, kind := out.kind, summary := strip out.summary, delta := strip out.delta,
      evidence_refs := out.evidence_refs, output := out.output, tool_logs,
      confidence := out.confidence, created_at
      new_findings_data := out.new_findings.map (·.modelDump)
      new_pending_data := out.new_pending.map (·.modelDump)
      retired_findings_data := out.retired_findings.map (·.modelDump)
      next_steps_data := out.next_steps.map (·.modelDump)
      terminal_status := out.terminal_status, terminal_reason := strip out.terminal_reason }

/-! ## Merging -/

def maxEvidenceRefs : Nat := 20

def mergeStrLists (existing new_items : List String) (max_items : Nat) : List String :=
  let merged := existing ++ new_items.filter fun item => !existing.contains item
  merged.drop (merged.length - max_items)

/-- `d.get("label", "")`. -/
def itemLabel (d : Mapping) : Json := (d.lookup "label").getD (.str "")

mutual

/-- A frozen value as a set compares it: numbers by what they stand for, booleans among them. -/
def labelKey : Json → Json
  | .arr items => .arr (labelKeys items)
  | v => (v.number.map Json.int).getD v

def labelKeys : List Json → List Json
  | [] => []
  | v :: rest => labelKey v :: labelKeys rest

end

def itemKey (d : Mapping) : Json := labelKey (itemLabel d)

mutual

/-- A frozen value can be a member of a set: there is no mapping in it. -/
def hashable : Json → Bool
  | .obj _ => false
  | .arr items => hashableItems items
  | _ => true

def hashableItems : List Json → Bool
  | [] => true
  | v :: rest => hashable v && hashableItems rest

end

/-- `bool(label)`. -/
def truthy : Json → Bool
  | .null | .bool false | .int 0 | .str "" | .arr [] | .obj [] => false
  | .float bits => !Double.eq bits 0x0#64
  | _ => true

/-- The loop over the new items. -/
def addItems : List Mapping → List Mapping → List Mapping
  | merged, [] => merged
  | merged, d :: rest =>
    let label := itemLabel d
    if truthy label ∧ itemKey d ∉ merged.map itemKey then addItems (merged ++ [d]) rest
    else addItems merged rest

/-- `_merge_tracked_items`; a label that is looked up in a set must be hashable. -/
def mergeTrackedItems (existing new_items retired : List Mapping) :
    Except ReasonError (List Mapping) :=
  if ((retired ++ existing).all fun d => hashable (itemLabel d)) ∧
      new_items.all fun d => !truthy (itemLabel d) || hashable (itemLabel d) then
    let kept := existing.filter fun d => decide (itemKey d ∉ retired.map itemKey)
    .ok (addItems kept new_items)
  else .error (.type "unhashable type")

/-! ## Starting and advancing -/

/-- `reason_propose` and `start_thread`; `prompt` is what the generator returns, `id` and `now` are
    the defaults of the thread. -/
def startThread (iso : IsoTime) (topic working_summary : String) (active_items : List Mapping)
    (mandates : List String) (prompt id : String) (now : Int) :
    Except ReasonError ReasoningThread :=
  if blank topic then .error (.value "topic must be a non-empty string")
  else if blank prompt then
    .error (.prompt
      "Cannot start reason thread: reasoning prompt generation returned empty output")
  else
    ReasoningThread.postInit iso
      { id := id, topic := strip topic, working_summary := strip working_summary
        active_items_data := active_items, mandates_data := mandates
        reasoning_prompt := strip prompt
        created_at := iso.isoformat now, updated_at := iso.isoformat now }

/-- The thread after a step, with the merged items. -/
def ReasoningThread.withStep (iso : IsoTime) (thread : ReasoningThread) (step : ReasoningStep)
    (now : Int) (active_items_data pending_items_data : List Mapping) : ReasoningThread :=
  { thread with
    status := step.terminal_status.reasonStatus.getD thread.status
    working_summary := if step.summary = "" then thread.working_summary else step.summary
    evidence_refs := mergeStrLists thread.evidence_refs step.evidence_refs maxEvidenceRefs
    last_advanced_at := some (iso.isoformat now)
    updated_at := iso.isoformat now
    active_items_data, pending_items_data
    next_steps_data :=
      if step.next_steps_data = [] then thread.next_steps_data else step.next_steps_data }

/-- The thread that `advance_thread` saves with its step. -/
def advanceThread (iso : IsoTime) (thread : ReasoningThread) (step : ReasoningStep) (now : Int) :
    Except ReasonError ReasoningThread :=
  if thread.status ≠ .active then
    .error (.advance ("Cannot advance thread " ++ thread.id ++ ": status is '" ++
      thread.status.name ++ "', expected 'active'"))
  else do
    let active_items_data ← mergeTrackedItems thread.active_items_data step.new_findings_data
      step.retired_findings_data
    let pending_items_data ← mergeTrackedItems thread.pending_items_data step.new_pending_data []
    ReasoningThread.postInit iso
      (thread.withStep iso step now active_items_data pending_items_data)

/-! ## Statuses -/

/-- The table of `_transition`. -/
def allowed : ReasonStatus → List ReasonStatus
  | .active => [.paused, .resolved, .archived]
  | .paused => [.active, .resolved, .archived]
  | .resolved => [.archived]
  | .archived => []

def ReasoningThread.withStatus (iso : IsoTime) (thread : ReasoningThread) (status : ReasonStatus)
    (now : Int) : ReasoningThread :=
  { thread with status, updated_at := iso.isoformat now }

/-- The thread that `_transition` saves. -/
def transition (iso : IsoTime) (thread : ReasoningThread) (new_status : ReasonStatus) (now : Int) :
    Except ReasonError ReasoningThread :=
  if new_status ∈ allowed thread.status then
    ReasoningThread.postInit iso (thread.withStatus iso new_status now)
  else
    .error (.transition ("Cannot transition thread " ++ thread.id ++ " from '" ++
      thread.status.name ++ "' to '" ++ new_status.name ++ "'"))

/-- The thread that `defer_advancement` saves. -/
def deferAdvancement (iso : IsoTime) (thread : ReasoningThread) (until_time : String) :
    Except ReasonError ReasoningThread :=
  ReasoningThread.postInit iso { thread with skip_next_advance_until := some until_time }

/-! ## What is saved is well-formed -/

section

variable {iso : IsoTime} {thread updated : ReasoningThread} {now : Int}

theorem advanceThread_ok {step : ReasoningStep}
    (h : advanceThread iso thread step now = .ok updated) :
    thread.status = .active ∧ updated.WellFormed iso ∧ updated.id = thread.id ∧
      updated.skip_next_advance_until = thread.skip_next_advance_until ∧
      updated.status = step.terminal_status.reasonStatus.getD thread.status := by
  rw [advanceThread] at h
  split at h
  · cases h
  · rename_i hactive
    obtain ⟨active, -, h⟩ := bind_ok h
    obtain ⟨pending, -, h⟩ := bind_ok h
    obtain ⟨rfl, hwell⟩ := ReasoningThread.postInit_ok_iff.mp h
    exact ⟨not_not.mp hactive, hwell, rfl, rfl, rfl⟩

theorem transition_ok {new_status : ReasonStatus}
    (h : transition iso thread new_status now = .ok updated) :
    new_status ∈ allowed thread.status ∧ updated.WellFormed iso ∧
      updated = thread.withStatus iso new_status now := by
  rw [transition] at h
  split at h
  · rename_i hallowed
    obtain ⟨rfl, hwell⟩ := ReasoningThread.postInit_ok_iff.mp h
    exact ⟨hallowed, hwell, rfl⟩
  · cases h

theorem deferAdvancement_ok {until_time : String}
    (h : deferAdvancement iso thread until_time = .ok updated) :
    updated.WellFormed iso ∧
      updated = { thread with skip_next_advance_until := some until_time } := by
  obtain ⟨rfl, hwell⟩ := ReasoningThread.postInit_ok_iff.mp h
  exact ⟨hwell, rfl⟩

theorem startThread_ok {topic working_summary prompt id : String} {active_items : List Mapping}
    {mandates : List String}
    (h : startThread iso topic working_summary active_items mandates prompt id now =
      .ok updated) :
    updated.WellFormed iso ∧ updated.status = .active ∧ updated.active_items_data = active_items ∧
      updated.pending_items_data = [] ∧ updated.next_steps_data = [] := by
  rw [startThread] at h
  split at h
  · cases h
  · split at h
    · cases h
    · obtain ⟨rfl, hwell⟩ := ReasoningThread.postInit_ok_iff.mp h
      exact ⟨hwell, rfl, rfl, rfl, rfl⟩

end

/-- A step that goes on. -/
def noonStep : ReasoningStep where
  id := "step-1"
  thread_id := "reason-1"
  kind := .progress
  summary := "A step"
  delta := ""
  evidence_refs := []
  output := ""
  tool_logs := []
  confidence := none
  created_at := "2026-01-01T12:00:00+00:00"
  new_findings_data := []
  new_pending_data := []
  retired_findings_data := []
  next_steps_data := []
  terminal_status := .continue
  terminal_reason := ""

end NuSelf.Reasoning
