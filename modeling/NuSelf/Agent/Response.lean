/-
  The response of a chat turn: which endpoints are asked, and when no other is.

  An attempt builds a supervisor for its endpoint and runs the graph of the agent, in which the
  middleware notes the tools.  If the attempt fails after a tool that writes, the turn is closed for
  retries.  What the model and the tools do is an input (`ModelPlay`), one for each attempt.

  A suspended supervisor is kept under the key of its turn, and resumed by a call that brings the
  resolution.  Logs are left out.

  1. `completeOn_spec` — what an attempt leaves.
  2. `movesOn_of_next` — who is asked after whom.
  3. `complete_law` — the law of the attempts of a call.
-/
import Mathlib.Data.List.Infix
import NuSelf.Agent.Middleware
import NuSelf.Chat.Engine

namespace NuSelf.Agent

open NuSelf.Lib NuSelf.Feature NuSelf.Chat

/-! ## What the graph returns -/

/-- A message; `tool_calls` if it has any, valid or not. -/
structure AgentMessage where
  ai : Bool
  tool_calls : Bool
  text : String

/-- `state["structured_response"]`. -/
inductive StructuredValue where
  | output (value : ChatStructuredOutput)
  | other (type_name : String)

/-- The final state: a dictionary, or not. -/
inductive AgentState where
  | dict (structured_response : Option StructuredValue) (messages : Option (List AgentMessage))
  | other (type_name : String)

/-- What `agent.invoke` does; the payload of an interrupt is a request, or nothing of the kind. -/
inductive GraphResult where
  | raised (e : AgentException)
  | notGraphOutput
  | output (interrupts : List (Option ToolEffectRequest)) (value : AgentState)

def rejectVisibleToolCall (response : ChatStructuredOutput) :
    Except AgentException ChatStructuredOutput :=
  if "minimax:tool_call".toList <:+: response.answer.toList then
    .error (.plain "Agent produced visible tool call text instead of a structured response")
  else .ok response

def compatibleFinalMessage : AgentState → Except AgentException (Option ChatStructuredOutput)
  | .dict none (some messages) =>
    match messages.reverse.find? (·.ai) with
    | none => .ok none
    | some message =>
      if message.tool_calls then .ok none
      else if strip message.text = "" then .ok none
      else (rejectVisibleToolCall { answer := strip message.text }).map some
  | _ => .ok none

def requireStructuredResponse : AgentState → Except AgentException ChatStructuredOutput
  | .other type_name => .error (.plain ("LangChain agent returned invalid state: " ++ type_name))
  | .dict none _ => .error (.plain "LangChain agent state is missing structured_response")
  | .dict (some (.other type_name)) _ =>
    .error (.plain ("LangChain agent returned invalid structured_response: " ++ type_name))
  | .dict (some (.output value)) _ => .ok value

def structuredOutputFromState (state : AgentState) : Except AgentException ChatStructuredOutput := do
  match ← compatibleFinalMessage state with
  | some compatible => return compatible
  | none => rejectVisibleToolCall (← requireStructuredResponse state)

/-! ## The supervisor -/

/-- What the model and the tools do in an attempt. -/
structure ModelPlay where
  calls : List (ToolCallRequest × HandlerOutcome)
  graph : GraphResult

/-- `_LangChainChatSupervisor`; `started` once it has its agent. -/
structure ChatSupervisor where
  endpoint : LLMEndpoint
  tools : ToolState := {}
  started : Bool := false
  effect_request : Option ToolEffectRequest := none

namespace ChatSupervisor

def hasMutatingToolOutcomes (supervisor : ChatSupervisor) : Bool :=
  supervisor.tools.captured.any fun outcome => decide (outcome.execution = .mutating)

variable (dumps : List (String × Json) → String)

/-- `complete`, with or without a resolution. -/
def complete (supervisor : ChatSupervisor) (resolved : Bool) (play : ModelPlay) :
    Except AgentException ChatStructuredOutput × ChatSupervisor :=
  if supervisor.started && !resolved then
    (.error (.plain "chat checkpoint resume requires a Tool effect resolution"), supervisor)
  else
    let supervisor :=
      { supervisor with started := true, tools := runCalls dumps supervisor.tools play.calls }
    match play.graph with
    | .raised e => (.error e, supervisor)
    | .notGraphOutput =>
      (.error (.typeError "chat agent returned an invalid graph output"), supervisor)
    | .output [] value =>
      (structuredOutputFromState value, { supervisor with effect_request := none })
    | .output [some request] _ =>
      (.error (.effectRequired request), { supervisor with effect_request := some request })
    | .output [none] _ =>
      (.error (.typeError "chat Tool effect interrupt has an invalid payload"), supervisor)
    | .output _ _ =>
      (.error (.plain "chat turn produced multiple Tool effect interrupts"), supervisor)

end ChatSupervisor

/-! ## The turn -/

structure TurnState where
  retry_suppressed : Bool := false
  /-- The continuation under the key of the turn. -/
  continuation : Option ChatSupervisor := none
  /-- The attempts that were made, and the supervisor of the latest. -/
  made : Nat := 0
  latest : Option ChatSupervisor := none

abbrev TurnTry := Try LLMEndpoint TurnState AgentException ChatStructuredOutput

/-- A call of `complete`: its attempts, what it returns or raises, the continuation it leaves. -/
structure TurnRun where
  tries : List TurnTry
  result : Except AgentException ChatStructuredOutput
  continuation : Option ChatSupervisor

def retryIf (e : AgentException) (s : TurnState) : Bool :=
  e.effect.isNone && !s.retry_suppressed && isRecoverableAgentFailure e

def failoverIf (e : AgentException) (s : TurnState) : Bool :=
  retryIf e s && isEndpointAvailabilityError e

/-- `_configured_failure_response_output`. -/
def configuredFailureResponse (last_user : String) : ChatStructuredOutput where
  answer := "The configured LLM request failed, so I could not generate a " ++
    "model-backed reply. Check `nuself dev logs --component chat` " ++
    "and the endpoint provider/protocol configuration. " ++ "Last message: " ++ last_user
  epistemic_status := .unsupported

section

variable (dumps : List (String × Json) → String) (redact : AgentException → String)

/-- The operation on one endpoint. -/
def completeOn (plays : Nat → ModelPlay) (endpoint : LLMEndpoint) (s : TurnState) :
    Except AgentException ChatStructuredOutput × TurnState :=
  let (result, supervisor) :=
    ({ endpoint } : ChatSupervisor).complete dumps false (plays s.made)
  let s := { s with made := s.made + 1, latest := some supervisor }
  match result with
  | .ok output => (.ok output, s)
  | .error e =>
    if e.effect.isSome then (.error e, { s with continuation := some supervisor })
    else
      (.error e,
        { s with retry_suppressed := s.retry_suppressed || supervisor.hasMutatingToolOutcomes })

/-- `_complete_with_langchain_tools` without a continuation.  A failure that may fall back does so
    whether retries were suppressed or the endpoints are exhausted. -/
def completeAnew (endpoints : List LLMEndpoint) (plays : Nat → ModelPlay) (last_user : String) :
    TurnRun :=
  let run := invokeAgentEndpoint redact (completeOn dumps plays) retryIf failoverIf endpoints 2 {}
  { tries := run.tries
    continuation := run.state.continuation
    result :=
      match run.result with
      | .ok output => .ok output
      | .error e =>
        if e.effect.isSome || !isRecoverableAgentFailure e then .error e
        else .ok (configuredFailureResponse last_user) }

/-- A suspended supervisor goes on; it is kept only if it suspends again. -/
def resumeTurn (pending : ChatSupervisor) (play : ModelPlay) : TurnRun :=
  let (result, supervisor) := pending.complete dumps true play
  { tries := [⟨0, 0, pending.endpoint, {}, result, { made := 1, latest := some supervisor }⟩]
    result
    continuation :=
      match result with
      | .error e => if e.effect.isSome then some supervisor else none
      | .ok _ => none }

/-- `raise ToolEffectRequired(pending.require_effect_request())`. -/
def reportSuspended (pending : ChatSupervisor) : TurnRun where
  tries := []
  result :=
    match pending.effect_request with
    | some request => .error (.effectRequired request)
    | none => .error (.plain "chat checkpoint has no Tool effect request")
  continuation := some pending

/-- `ConversationResponseSynthesizer.complete`; `pending` is the continuation of the turn. -/
def completeTurn (endpoints : List LLMEndpoint) (pending : Option ChatSupervisor)
    (effect_resolution : Option ToolEffectResolution) (plays : Nat → ModelPlay)
    (last_user : String) : TurnRun :=
  if endpoints = [] then
    { tries := [], result := .ok (localResponse last_user), continuation := pending }
  else
    match pending, effect_resolution with
    | some pending, none => reportSuspended pending
    | some pending, some resolution =>
      if pending.effect_request ≠ some resolution.request then reportSuspended pending
      else resumeTurn dumps pending (plays 0)
    | none, some _ =>
      { tries := []
        result := .error (.plain "chat Tool effect checkpoint is unavailable")
        continuation := none }
    | none, none => completeAnew dumps redact endpoints plays last_user

end

/-! ## The law -/

/-- The attempt has run a registered tool that writes, as the observer sees it. -/
def RanMutating (t : TurnTry) : Prop :=
  ∃ supervisor, t.after.latest = some supervisor ∧ .mutating ∈ supervisor.tools.ran

/-- The middleware has noted a tool that writes. -/
def notedMutating (t : TurnTry) : Bool :=
  t.after.latest.any ChatSupervisor.hasMutatingToolOutcomes

/-- A failure after which the turn may go on: no suspension, no defect, no tool that writes. -/
def Retriable (t : TurnTry) (e : AgentException) : Prop :=
  t.result = .error e ∧ e.effect = none ∧ isRecoverableAgentFailure e = true ∧
    notedMutating t = false

/-- `b` follows `a`: the second attempt on the endpoint, or the first on the next one, if the
    endpoint is unavailable. -/
def MovesOn (a b : TurnTry) : Prop :=
  ∃ e, Retriable a e ∧
    ((a.attempt = 0 ∧ b.position = a.position ∧ b.attempt = 1) ∨
      (a.attempt = 1 ∧ isEndpointAvailabilityError e = true ∧ b.position = a.position + 1 ∧
        b.attempt = 0))

/-- The law of the attempts of a turn that starts anew. -/
structure TurnLaw (endpoints : List LLMEndpoint) (run : TurnRun) : Prop where
  /-- After a tool that writes, a failure is the end. -/
  after_mutation : ∀ pre t post, run.tries = pre ++ t :: post → RanMutating t →
    (∃ e, t.result = .error e) → post = []
  /-- The first attempt is on the first endpoint. -/
  starts : ∀ t ∈ run.tries.head?, t.position = 0 ∧ t.attempt = 0
  /-- The endpoints in their order, at most two attempts on each. -/
  in_order : run.tries.Pairwise Try.Before
  at_most_two : ∀ t ∈ run.tries, t.attempt < 2
  listed : ∀ t ∈ run.tries, endpoints[t.position]? = some t.endpoint
  /-- Who follows whom. -/
  moves_on : run.tries.IsChain MovesOn
  /-- Nobody follows the last only if it succeeded, may not be followed, or has no follower. -/
  stops : ∀ t ∈ run.tries.getLast?, ∀ e, Retriable t e →
    t.attempt = 1 ∧ (isEndpointAvailabilityError e = true → t.position + 1 = endpoints.length)
  /-- A success is returned, and is the last attempt. -/
  first_success : ∀ pre t post output, run.tries = pre ++ t :: post → t.result = .ok output →
    post = [] ∧ run.result = .ok output

section

variable {dumps : List (String × Json) → String} {redact : AgentException → String}
  {plays : Nat → ModelPlay}

theorem hasMutating_of_ran {supervisor : ChatSupervisor} (hnoted : supervisor.tools.Noted)
    (hran : .mutating ∈ supervisor.tools.ran) : supervisor.hasMutatingToolOutcomes = true := by
  obtain ⟨executed, hmem, hexecution⟩ := hnoted _ hran
  exact List.any_eq_true.mpr ⟨executed, hmem, decide_eq_true hexecution⟩

theorem complete_tools (supervisor : ChatSupervisor) (hnew : supervisor.started = false)
    (play : ModelPlay) :
    (supervisor.complete dumps false play).2.tools = runCalls dumps supervisor.tools play.calls := by
  rw [ChatSupervisor.complete, hnew]
  simp only [Bool.false_and, Bool.false_eq_true, if_false]
  split <;> rfl

/-- **What an attempt leaves.** -/
theorem completeOn_spec {endpoint : LLMEndpoint} {s s' : TurnState}
    {result : Except AgentException ChatStructuredOutput}
    (h : completeOn dumps plays endpoint s = (result, s')) :
    ∃ supervisor, s'.latest = some supervisor ∧ supervisor.tools.Noted ∧
      ∀ e, result = .error e → e.effect = none →
        s'.retry_suppressed = (s.retry_suppressed || supervisor.hasMutatingToolOutcomes) := by
  let run := ({ endpoint } : ChatSupervisor).complete dumps false (plays s.made)
  have hnoted : run.2.tools.Noted := by
    show (({ endpoint } : ChatSupervisor).complete dumps false (plays s.made)).2.tools.Noted
    rw [complete_tools _ rfl]
    exact runCalls_noted dumps _ _ fun _ hran => nomatch hran
  have hrun : (({ endpoint } : ChatSupervisor).complete dumps false (plays s.made)) =
      (run.1, run.2) := rfl
  rw [completeOn, hrun] at h
  refine ⟨run.2, ?_⟩
  cases hresult : run.1 with
  | ok output =>
    rw [hresult] at h
    cases h
    exact ⟨rfl, hnoted, fun e he => nomatch he⟩
  | error e =>
    rw [hresult] at h
    simp only at h
    split at h
    · rename_i heffect
      cases h
      refine ⟨rfl, hnoted, fun e' he' hnone => ?_⟩
      cases he'
      rw [hnone] at heffect
      cases heffect
    · cases h
      exact ⟨rfl, hnoted, fun e' _ _ => rfl⟩

theorem retryIf_iff {e : AgentException} {s : TurnState} :
    retryIf e s = true ↔ e.effect = none ∧ s.retry_suppressed = false ∧
      isRecoverableAgentFailure e = true := by
  rw [retryIf, Bool.and_eq_true, Bool.and_eq_true, Option.isNone_iff_eq_none, Bool.not_eq_true',
    and_assoc]

/-- The attempts of a turn, as the loop makes them. -/
abbrev TurnChained (dumps : List (String × Json) → String) (plays : Nat → ModelPlay)
    (endpoints : List LLMEndpoint) (tries : List TurnTry) : Prop :=
  Chained (completeOn dumps plays) retryIf failoverIf 2 endpoints 0 0 {} tries

section

variable {endpoints : List LLMEndpoint} {tries : List TurnTry}

theorem unsuppressed_before (h : TurnChained dumps plays endpoints tries) :
    ∀ t ∈ tries, t.before.retry_suppressed = false := by
  refine h.forall_before (P := fun s => s.retry_suppressed = false) rfl fun a b hnext => ?_
  obtain ⟨hbefore, e, -, ⟨⟨-, hretry⟩, -⟩ | ⟨-, hfailover, -⟩⟩ := hnext
  · rw [hbefore]
    exact (retryIf_iff.mp hretry).2.1
  · rw [hbefore]
    exact (retryIf_iff.mp (Bool.and_eq_true_iff.mp hfailover).1).2.1

/-- After a failure, retries are suppressed exactly when a tool that writes was noted. -/
theorem suppressed_after (h : TurnChained dumps plays endpoints tries) {t : TurnTry} (ht : t ∈ tries)
    {e : AgentException} (herror : t.result = .error e) (heffect : e.effect = none) :
    t.after.retry_suppressed = notedMutating t := by
  obtain ⟨-, -, hresult⟩ := h.each t ht
  obtain ⟨supervisor, hlatest, -, hsuppressed⟩ := completeOn_spec hresult
  rw [hsuppressed e herror heffect, unsuppressed_before h t ht, Bool.false_or, notedMutating,
    hlatest]
  rfl

theorem retryIf_iff_retriable (h : TurnChained dumps plays endpoints tries) {t : TurnTry}
    (ht : t ∈ tries) {e : AgentException} (herror : t.result = .error e) :
    retryIf e t.after = true ↔ Retriable t e := by
  rw [retryIf_iff]
  constructor
  · rintro ⟨heffect, hsuppressed, hrecoverable⟩
    exact ⟨herror, heffect, hrecoverable, suppressed_after h ht herror heffect ▸ hsuppressed⟩
  · rintro ⟨-, heffect, hrecoverable, hnoted⟩
    exact ⟨heffect, (suppressed_after h ht herror heffect).trans hnoted, hrecoverable⟩

/-- **Who is asked after whom.** -/
theorem movesOn_of_next (h : TurnChained dumps plays endpoints tries) {a b : TurnTry}
    (ha : a ∈ tries) (hnext : Next retryIf failoverIf 2 a b) : MovesOn a b := by
  obtain ⟨-, e, herror, ⟨⟨hmore, hretry⟩, hposition, hattempt⟩ | ⟨hspent, hfailover, hposition,
    hattempt⟩⟩ := hnext
  · refine ⟨e, (retryIf_iff_retriable h ha herror).mp hretry, Or.inl ⟨by omega, hposition, ?_⟩⟩
    rw [hattempt]
    omega
  · obtain ⟨hretry, havailability⟩ := Bool.and_eq_true_iff.mp hfailover
    have hlast : ¬ a.attempt + 1 < 2 := fun hmore => hspent ⟨hmore, hretry⟩
    have hbound := (h.each a ha).2.1
    exact ⟨e, (retryIf_iff_retriable h ha herror).mp hretry,
      Or.inr ⟨by omega, havailability, hposition, hattempt⟩⟩

theorem last_of_not_retriable (h : TurnChained dumps plays endpoints tries) {t : TurnTry}
    {pre post : List TurnTry} (htries : tries = pre ++ t :: post) (hnot : ∀ e, ¬ Retriable t e) :
    post = [] := by
  refine h.last_of_stuck htries fun b hnext => ?_
  have ht : t ∈ tries := htries ▸ List.mem_append_right _ List.mem_cons_self
  obtain ⟨e, hretriable, -⟩ := movesOn_of_next h ht hnext
  exact hnot e hretriable

theorem not_retriable_of_mutating (h : TurnChained dumps plays endpoints tries) {t : TurnTry}
    (ht : t ∈ tries) (hmutating : RanMutating t) (e : AgentException) : ¬ Retriable t e := by
  obtain ⟨supervisor, hlatest, hran⟩ := hmutating
  obtain ⟨-, -, hresult⟩ := h.each t ht
  obtain ⟨supervisor', hlatest', hnoted, -⟩ := completeOn_spec hresult
  cases hlatest.symm.trans hlatest'
  have hmutating : notedMutating t = true := by
    rw [notedMutating, hlatest]
    exact hasMutating_of_ran hnoted hran
  rintro ⟨-, -, -, hnone⟩
  cases hmutating.symm.trans hnone

/-- **Why nobody follows the last**, if the turn may go on. -/
theorem stops_of_ends (h : TurnChained dumps plays endpoints tries)
    {ended : FailoverEnd AgentException ChatStructuredOutput} {t : TurnTry} (ht : t ∈ tries)
    (hends : Ends retryIf failoverIf 2 t ended)
    (hexhausted : ∀ e, ended = .exhausted e → t.position + 1 = endpoints.length)
    {e : AgentException} (hretriable : Retriable t e) :
    t.attempt = 1 ∧ (isEndpointAvailabilityError e = true → t.position + 1 = endpoints.length) := by
  have hretry := (retryIf_iff_retriable h ht hretriable.1).mpr hretriable
  have hbound := (h.each t ht).2.1
  cases ended with
  | returned output => cases hretriable.1.symm.trans hends
  | raised e' =>
    obtain ⟨herror, hspent, hfailover⟩ := hends
    cases hretriable.1.symm.trans herror
    have hlast : ¬ t.attempt + 1 < 2 := fun hmore => hspent ⟨hmore, hretry⟩
    refine ⟨by omega, fun havailability => ?_⟩
    rw [failoverIf, hretry, havailability] at hfailover
    cases hfailover
  | exhausted e' =>
    obtain ⟨herror, hspent, -⟩ := hends
    cases hretriable.1.symm.trans herror
    have hlast : ¬ t.attempt + 1 < 2 := fun hmore => hspent ⟨hmore, hretry⟩
    exact ⟨by omega, fun _ => hexhausted _ rfl⟩

theorem returned_of_ends {ended : FailoverEnd AgentException ChatStructuredOutput} {t : TurnTry}
    (hends : Ends retryIf failoverIf 2 t ended) {output : ChatStructuredOutput}
    (hok : t.result = .ok output) : ended = .returned output := by
  cases ended with
  | returned value =>
    cases hok.symm.trans hends
    rfl
  | raised e => cases hok.symm.trans hends.1
  | exhausted e => cases hok.symm.trans hends.1

end

theorem turnLaw_of_no_tries {endpoints : List LLMEndpoint} {run : TurnRun} (h : run.tries = []) :
    TurnLaw endpoints run where
  after_mutation pre t post htries := by
    rw [h] at htries
    exact absurd htries (List.append_ne_nil_of_right_ne_nil _ (List.cons_ne_nil _ _)).symm
  starts t ht := by rw [h] at ht; cases ht
  in_order := by rw [h]; exact List.Pairwise.nil
  at_most_two t ht := by rw [h] at ht; cases ht
  listed t ht := by rw [h] at ht; cases ht
  moves_on := by rw [h]; exact List.isChain_nil
  stops t ht := by rw [h] at ht; cases ht
  first_success pre t post output htries := by
    rw [h] at htries
    exact absurd htries (List.append_ne_nil_of_right_ne_nil _ (List.cons_ne_nil _ _)).symm

/-- **A turn that starts anew** keeps the law. -/
theorem completeAnew_law (endpoints : List LLMEndpoint) (last_user : String) :
    TurnLaw endpoints (completeAnew dumps redact endpoints plays last_user) := by
  cases endpoints with
  | nil => exact turnLaw_of_no_tries rfl
  | cons endpoint rest =>
    let loop := failoverFrom (completeOn dumps plays) retryIf failoverIf 2 0 endpoint rest {}
    obtain ⟨hlawful, hexhausted⟩ : Lawful (completeOn dumps plays) retryIf failoverIf 2
        (endpoint :: rest) 0 0 {} loop ∧ ∀ e, loop.ended = .exhausted e →
          ∀ t ∈ loop.tries.getLast?, t.position + 1 = (endpoint :: rest).length :=
      @failoverFrom_lawful _ _ _ _ (completeOn dumps plays) retryIf failoverIf 2 (endpoint :: rest)
        Nat.two_pos rest endpoint 0 ({} : TurnState) rfl
    have hchained : TurnChained dumps plays (endpoint :: rest) loop.tries := hlawful.chained
    refine
      { after_mutation := ?_, starts := ?_, in_order := hchained.inOrder
        at_most_two := fun t ht => (hchained.each t ht).2.1
        listed := fun t ht => (hchained.each t ht).1, moves_on := ?_, stops := ?_
        first_success := ?_ }
    · intro pre t post htries hmutating _
      have htries : loop.tries = pre ++ t :: post := htries
      have ht : t ∈ loop.tries := htries ▸ List.mem_append_right _ List.mem_cons_self
      exact last_of_not_retriable hchained htries (not_retriable_of_mutating hchained ht hmutating)
    · intro t ht
      obtain ⟨hposition, hattempt, -⟩ := hchained.head t ht
      exact ⟨hposition, hattempt⟩
    · exact hchained.chain.imp_of_mem_imp fun a b ha _ hnext => movesOn_of_next hchained ha hnext
    · intro t ht e hretriable
      exact stops_of_ends hchained (List.mem_of_getLast? ht) (hlawful.last t ht).2
        (fun e' hended => hexhausted e' hended t ht) hretriable
    · intro pre t post output htries hok
      have htries : loop.tries = pre ++ t :: post := htries
      have hpost : post = [] := last_of_not_retriable hchained htries fun e hretriable => by
        cases hok.symm.trans hretriable.1
      refine ⟨hpost, ?_⟩
      have hlast : loop.tries.getLast? = some t := by
        rw [htries, hpost, List.getLast?_append_cons]
        rfl
      have hended := returned_of_ends (hlawful.last t hlast).2 hok
      show (match loopResult redact loop.ended with
        | .ok output => .ok output
        | .error e => _ : Except AgentException ChatStructuredOutput) = .ok output
      rw [hended]
      rfl

end

/-- The law of a call: a turn that starts anew, or one that is suspended and goes on, with one
    attempt at most. -/
def CallLaw (endpoints : List LLMEndpoint) (pending : Option ChatSupervisor) (run : TurnRun) :
    Prop :=
  match pending with
  | none => TurnLaw endpoints run
  | some _ => run.tries = [] ∨ ∃ t, run.tries = [t] ∧ run.result = t.result

/-- **Every call keeps the law.** -/
theorem complete_law (dumps : List (String × Json) → String) (redact : AgentException → String)
    (endpoints : List LLMEndpoint) (pending : Option ChatSupervisor)
    (effect_resolution : Option ToolEffectResolution) (plays : Nat → ModelPlay)
    (last_user : String) :
    CallLaw endpoints pending
      (completeTurn dumps redact endpoints pending effect_resolution plays last_user) := by
  unfold completeTurn
  cases pending with
  | none =>
    show TurnLaw endpoints _
    split
    · exact turnLaw_of_no_tries rfl
    · cases effect_resolution with
      | none => exact completeAnew_law endpoints last_user
      | some resolution => exact turnLaw_of_no_tries rfl
  | some pending =>
    show _ ∨ _
    split
    · exact Or.inl rfl
    · cases effect_resolution with
      | none => exact Or.inl rfl
      | some resolution =>
        simp only
        split
        · exact Or.inl rfl
        · exact Or.inr ⟨_, rfl, rfl⟩

/-- What an endpoint says that does not know what to do with the request, twice. -/
def refusedTwice : Nat → ModelPlay
  | 0 | 1 => { calls := [], graph := .raised (.plain "unknown response type") }
  | _ => { calls := [], graph := .output [] (.dict (some (.output { answer := "Noon." })) none) }

/-- Two endpoints, the first of which refuses: the second would answer, and is not asked. -/
theorem second_endpoint_not_asked :
    let endpoints : List LLMEndpoint := [⟨0, "first"⟩, ⟨1, "second"⟩]
    let run := completeTurn (fun _ => "") (·.text) endpoints none none refusedTwice "When?"
    run.tries.map (fun t => (t.position, t.attempt)) = [(0, 0), (0, 1)] ∧
      run.tries.all (fun t => !notedMutating t) = true ∧
      run.result = .ok (configuredFailureResponse "When?") ∧
      ∀ t ∈ run.tries.getLast?,
        (completeOn (fun _ => "") refusedTwice ⟨1, "second"⟩ t.after).1 =
          .ok { answer := "Noon." } := by
  refine ⟨rfl, rfl, rfl, fun t ht => ?_⟩
  cases ht
  rfl

end NuSelf.Agent
