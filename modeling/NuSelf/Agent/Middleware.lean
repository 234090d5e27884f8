/-
  The middleware around the tool calls of an agent: what has run, and what is answered from a cache.

  A call that was answered before, by its name and its arguments, is not run again.  Any other one
  is handed to its handler, and noted when that has ended, unless it has ended in a suspension.
  Whether a tool writes is read off its metadata; a tool that is not known counts as one that does.

  The state keeps, beside what the middleware notes (`captured`), what has really run (`ran`).

  `runCalls_noted` — every registered tool that has run is noted, with its execution.
-/
import NuSelf.Agent.Failover
import NuSelf.Feature.Execution
import NuSelf.Lib.Table

namespace NuSelf.Agent

open NuSelf.Lib NuSelf.Feature

/-- A registered tool: its name, which its declaration keeps from being blank, and
    `metadata["execution"]`. -/
structure Tool where
  name : String
  execution : Option String
  name_nonblank : blank name = false

/-- `ToolCallRequest`: the call, and the tool that is registered under its name. -/
structure ToolCallRequest where
  name : Option String
  args : List (String × Json)
  tool : Option Tool
  tool_named : ∀ t ∈ tool, name = some t.name

/-- What the handler does: the text of its result, or what it raises. -/
inductive HandlerOutcome where
  | returned (text : String)
  | raised (e : AgentException)

structure ExecutedTool where
  name : String
  execution : Execution
  succeeded : Bool
  deriving DecidableEq

structure ToolState where
  captured : List ExecutedTool := []
  cache : Table String String := .empty
  /-- The registered tools that have run to their end, as the observer sees them. -/
  ran : List Execution := []

def toolExecution (request : ToolCallRequest) : Execution :=
  match request.tool with
  | none => .mutating
  | some tool =>
    match tool.execution with
    | some "readonly" => .readonly
    | _ => .mutating

section

variable (dumps : List (String × Json) → String)

/-- `_tool_cache_key`; `dumps` is the canonical text of the arguments, for those that JSON can
    hold. -/
def toolCacheKey (tool_name : String) (args : List (String × Json)) : Option String :=
  if Json.allFields Json.finiteLeaf (fun _ => true) args then some (tool_name ++ ":" ++ dumps args)
  else none

/-- `_capture`; `ExecutedTool` refuses a blank name. -/
def capture (s : ToolState) (executed : ExecutedTool) : Except AgentException ToolState :=
  if blank executed.name then .error (.plain "executed Tool name must not be blank")
  else .ok { s with captured := s.captured ++ [executed] }

/-- The tool has run. -/
def ToolState.run (s : ToolState) (request : ToolCallRequest) : ToolState :=
  match request.tool with
  | none => s
  | some _ => { s with ran := s.ran ++ [toolExecution request] }

/-- The outcome is noted, and the call ends so. -/
def note (s : ToolState) (executed : ExecutedTool) (result : Except AgentException String) :
    Except AgentException String × ToolState :=
  match capture s executed with
  | .ok s' => (result, s')
  | .error e => (.error e, s)

/-- `wrap_tool_call` after the handler has ended. -/
def afterHandler (request : ToolCallRequest) (name : String) (cache_key : Option String)
    (s : ToolState) : HandlerOutcome → Except AgentException String × ToolState
  | .raised e =>
    if e.effect.isSome then (.error e, s)
    else note (s.run request) ⟨name, toolExecution request, false⟩ (.error e)
  | .returned text =>
    let s' := s.run request
    let s' := { s' with cache := cache_key.elim s'.cache fun key => s'.cache.set key text }
    note s' ⟨name, toolExecution request, true⟩ (.ok text)

def wrapToolCall (s : ToolState) (request : ToolCallRequest) (handler : HandlerOutcome) :
    Except AgentException String × ToolState :=
  let name := request.name.getD "unknown"
  let cache_key := toolCacheKey dumps name request.args
  match cache_key.bind s.cache.get with
  | some cached => (.ok cached, s)
  | none => afterHandler request name cache_key s handler

/-- The calls of an agent, one after the other. -/
def runCalls (s : ToolState) : List (ToolCallRequest × HandlerOutcome) → ToolState
  | [] => s
  | (request, handler) :: rest => runCalls (wrapToolCall dumps s request handler).2 rest

/-! ## What is noted -/

/-- What has run is noted. -/
def ToolState.Noted (s : ToolState) : Prop :=
  ∀ execution ∈ s.ran, ∃ executed ∈ s.captured, executed.execution = execution

theorem ToolState.mem_run {s : ToolState} {request : ToolCallRequest} {execution : Execution}
    (h : execution ∈ (s.run request).ran) : execution ∈ s.ran ∨ execution = toolExecution request := by
  rw [ToolState.run] at h
  split at h
  · exact Or.inl h
  · exact (List.mem_append.mp h).imp_right List.mem_singleton.mp

theorem ToolState.run_captured (s : ToolState) (request : ToolCallRequest) :
    (s.run request).captured = s.captured := by
  rw [ToolState.run]
  split <;> rfl

theorem blank_requested {request : ToolCallRequest} {tool : Tool}
    (htool : request.tool = some tool) : blank (request.name.getD "unknown") = false := by
  rw [request.tool_named tool htool]
  exact tool.name_nonblank

/-- **What has run is noted**, whether its name is refused or not. -/
theorem note_noted {s s' : ToolState} (hnoted : s.Noted) {request : ToolCallRequest}
    (hran : s'.ran = (s.run request).ran) (hcaptured : s'.captured = s.captured)
    (succeeded : Bool) (result : Except AgentException String) :
    (note s' ⟨request.name.getD "unknown", toolExecution request, succeeded⟩ result).2.Noted := by
  rw [note, capture]
  by_cases hblank : blank (request.name.getD "unknown") = true
  · rw [if_pos hblank]
    cases htool : request.tool with
    | none =>
      have hsame : (s.run request).ran = s.ran := by rw [ToolState.run, htool]
      intro execution hexecution
      have hexecution : execution ∈ s'.ran := hexecution
      rw [hran, hsame] at hexecution
      show ∃ executed ∈ s'.captured, executed.execution = execution
      rw [hcaptured]
      exact hnoted execution hexecution
    | some tool =>
      rw [blank_requested htool] at hblank
      cases hblank
  · rw [if_neg hblank]
    intro execution hexecution
    have hexecution : execution ∈ s'.ran := hexecution
    rw [hran] at hexecution
    rcases ToolState.mem_run hexecution with hold | rfl
    · obtain ⟨executed, hmem, rfl⟩ := hnoted execution hold
      exact ⟨executed, List.mem_append_left _ (hcaptured ▸ hmem), rfl⟩
    · exact ⟨_, List.mem_append_right _ List.mem_cons_self, rfl⟩

/-- **One call** leaves everything noted that has run. -/
theorem afterHandler_noted {s : ToolState} (hnoted : s.Noted) (request : ToolCallRequest)
    (cache_key : Option String) (handler : HandlerOutcome) :
    (afterHandler request (request.name.getD "unknown") cache_key s handler).2.Noted := by
  cases handler with
  | raised e =>
    rw [afterHandler]
    split
    · exact hnoted
    · exact note_noted hnoted rfl (ToolState.run_captured s request) false _
  | returned text =>
    rw [afterHandler]
    refine note_noted hnoted ?_ ?_ true _
    · rfl
    · exact ToolState.run_captured s request

/-- **All calls** do. -/
theorem runCalls_noted : ∀ (calls : List (ToolCallRequest × HandlerOutcome)) (s : ToolState),
    s.Noted → (runCalls dumps s calls).Noted
  | [], _, h => h
  | (request, handler) :: rest, s, h => by
    refine runCalls_noted rest _ ?_
    rw [wrapToolCall]
    split
    · exact h
    · exact afterHandler_noted h request _ handler

end

end NuSelf.Agent
