/-
  Failures of an agent, and the endpoints that are asked in order.

  Only two things about an exception decide what follows it: whether it is a defect of the
  implementation, and whether it, or one that it was raised from, says that the endpoint is
  unavailable.  `invokeAgentEndpoint` is the shared loop over the endpoints, by the rules of
  `NuSelf.Lib.Failover`.
-/
import NuSelf.Feature.Protocol
import NuSelf.Lib.Failover

namespace NuSelf.Agent

open NuSelf.Lib NuSelf.Feature

/-! ## Exceptions -/

/-- What `is_endpoint_availability_error` reads of one exception of a chain. -/
structure ExceptionLink where
  /-- It is one of `_ENDPOINT_AVAILABILITY_ERRORS`. -/
  availability : Bool := false
  /-- `status_code` where that is an `int`, and `response.status_code`. -/
  status_code : Option Int := none
  response_status : Option Int := none
  deriving DecidableEq

/-- An `Exception` that an attempt raises. -/
structure AgentException where
  text : String
  /-- It is one of `_AGENT_IMPLEMENTATION_ERRORS`. -/
  implementation : Bool := false
  /-- The request, if it is a `ToolEffectRequired`. -/
  effect : Option ToolEffectRequest := none
  link : ExceptionLink := {}
  /-- Its causes and contexts, the nearest first, each once. -/
  chain : List ExceptionLink := []
  deriving DecidableEq

namespace AgentException

/-- `RuntimeError` and the classes that come from it, or `ValueError`. -/
def plain (text : String) : AgentException where
  text := text

def typeError (text : String) : AgentException where
  text := text
  implementation := true

/-- `ToolEffectRequired`. -/
def effectRequired (request : ToolEffectRequest) : AgentException where
  text := "frontend effect resolution required for " ++ request.operation
  effect := some request

/-- `AgentModelUnavailableError`, raised from the last error. -/
def unavailable (text : String) (cause : Option AgentException) : AgentException where
  text := text
  chain := cause.elim [] fun e => e.link :: e.chain

end AgentException

/-- `_ENDPOINT_AVAILABILITY_STATUS_CODES`. -/
def availabilityStatusCodes : List Int := [401, 402, 403, 408, 429, 500, 502, 503, 504]

/-- One round of the loop in `is_endpoint_availability_error`. -/
def ExceptionLink.unavailable (link : ExceptionLink) : Bool :=
  link.availability || link.status_code.any (availabilityStatusCodes.contains ·) ||
    link.response_status.any (availabilityStatusCodes.contains ·)

def isEndpointAvailabilityError (e : AgentException) : Bool :=
  (e.link :: e.chain).any ExceptionLink.unavailable

def isRecoverableAgentFailure (e : AgentException) : Bool := !e.implementation

/-! ## The endpoints -/

/-- `LangChainLLMEndpoint`, by its index in the configuration and its model. -/
structure LLMEndpoint where
  index : Nat
  model : String
  deriving DecidableEq

section

variable {σ ρ : Type} (redact : AgentException → String)
  (operation : LLMEndpoint → σ → Except AgentException ρ × σ)
  (retry_if failover_if : AgentException → σ → Bool)

/-- How a call has gone: the attempts it made, what it returns or raises, the state it leaves. -/
structure EndpointRun (σ ρ : Type) where
  tries : List (Try LLMEndpoint σ AgentException ρ)
  result : Except AgentException ρ
  state : σ

/-- `AgentModelUnavailableError` once all endpoints have failed. -/
def endpointsFailed (last_error : AgentException) : AgentException :=
  .unavailable ("all configured LLM endpoints failed: " ++ redact last_error) (some last_error)

/-- What the loop comes to. -/
def loopResult : FailoverEnd AgentException ρ → Except AgentException ρ
  | .returned value => .ok value
  | .raised e => .error e
  | .exhausted e => .error (endpointsFailed redact e)

/-- `invoke_agent_endpoint`; the pause between two attempts is left out. -/
def invokeAgentEndpoint (endpoints : List LLMEndpoint) (attempts_per_endpoint : Nat) (s : σ) :
    EndpointRun σ ρ :=
  match endpoints with
  | [] => ⟨[], .error (.unavailable "no configured LangChain model" none), s⟩
  | endpoint :: rest =>
    if attempts_per_endpoint < 1 then
      ⟨[], .error (.plain "attempts_per_endpoint must be at least 1"), s⟩
    else
      let loop :=
        failoverFrom operation retry_if failover_if attempts_per_endpoint 0 endpoint rest s
      ⟨loop.tries, loopResult redact loop.ended, loop.state⟩

end

end NuSelf.Agent
