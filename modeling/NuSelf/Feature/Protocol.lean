/-
  The typed suspension protocol of tool effects: requests, decisions, resolutions.

  A tool effect suspends a tool call with a request and is answered by a resolution bound to one
  request.  The repository has one concrete pair, approval; the abstract bases are open to others,
  so a request or a resolution of another class is kept as `foreign` with the fields the base
  class has.  The constructors' checks are fields of the structures: a blank action, an approved
  decision without an approver or a declined decision with affirmative input cannot be built.
-/
import NuSelf.Lib.Text

namespace NuSelf.Feature

open NuSelf.Lib

inductive ApprovalRisk where
  | reversible | destructive | external
  deriving DecidableEq, Repr

def ApprovalRisk.text : ApprovalRisk → String
  | .reversible => "reversible"
  | .destructive => "destructive"
  | .external => "external"

inductive ApprovalInput where
  | affirmative | declined | eof | interrupt | unavailable
  deriving DecidableEq, Repr

def ApprovalInput.text : ApprovalInput → String
  | .affirmative => "affirmative"
  | .declined => "declined"
  | .eof => "eof"
  | .interrupt => "interrupt"
  | .unavailable => "unavailable"

/-- `ApprovalEffectRequest` with the checks of its two `__post_init__`. -/
@[ext] structure ApprovalEffectRequest where
  component : String
  operation : String
  action : String
  resource : String
  risk : ApprovalRisk
  summary : String
  component_nonblank : blank component = false
  operation_nonblank : blank operation = false
  action_nonblank : blank action = false
  resource_nonblank : blank resource = false
  summary_nonblank : blank summary = false

instance : DecidableEq ApprovalEffectRequest := fun _ _ =>
  decidable_of_iff _ ApprovalEffectRequest.ext_iff.symm

/-- `ApprovalEffectRequest(...)`: the checks of the base class, then its own; the error is the text
    of the `ValueError`. -/
def ApprovalEffectRequest.new (component operation action resource : String) (risk : ApprovalRisk)
    (summary : String) : Except String ApprovalEffectRequest :=
  if hc : blank component = true then .error "Tool effect component must not be blank"
  else if ho : blank operation = true then .error "Tool effect operation must not be blank"
  else if ha : blank action = true then .error "approval action must not be blank"
  else if hr : blank resource = true then .error "approval resource must not be blank"
  else if hs : blank summary = true then .error "approval summary must not be blank"
  else .ok ⟨component, operation, action, resource, risk, summary, by simpa using hc,
    by simpa using ho, by simpa using ha, by simpa using hr, by simpa using hs⟩

/-- `ApprovalEffectDecision`: approval needs affirmative input and a named approver, and
    affirmative input is never a decline. -/
structure ApprovalEffectDecision where
  approved : Bool
  approver : Option String
  input_kind : ApprovalInput
  affirmative_iff : approved = true ↔ input_kind = .affirmative
  approver_named : approved = true → ∃ name, approver = some name ∧ blank name = false

theorem ApprovalEffectDecision.ext' {d e : ApprovalEffectDecision} (ha : d.approved = e.approved)
    (hp : d.approver = e.approver) (hi : d.input_kind = e.input_kind) : d = e := by
  cases d; cases e; cases ha; cases hp; cases hi; rfl

instance : DecidableEq ApprovalEffectDecision := fun d e =>
  decidable_of_iff (d.approved = e.approved ∧ d.approver = e.approver ∧ d.input_kind = e.input_kind)
    ⟨fun h => ApprovalEffectDecision.ext' h.1 h.2.1 h.2.2, fun h => by cases h; exact ⟨rfl, rfl, rfl⟩⟩

/-- A `ToolEffectRequest` of any class. -/
inductive ToolEffectRequest where
  | approval (request : ApprovalEffectRequest)
  | foreign (kind component operation : String)
  deriving DecidableEq

def ToolEffectRequest.operation : ToolEffectRequest → String
  | .approval request => request.operation
  | .foreign _ _ operation => operation

/-- A `ToolEffectResolution` of any class, bound to its request. -/
inductive ToolEffectResolution where
  | approval (request : ApprovalEffectRequest) (decision : ApprovalEffectDecision)
  | foreign (kind : String) (request : ToolEffectRequest)
  deriving DecidableEq

def ToolEffectResolution.request : ToolEffectResolution → ToolEffectRequest
  | .approval request _ => .approval request
  | .foreign _ request => request

end NuSelf.Feature
