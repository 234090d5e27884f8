/-
  The chat runtime: one turn of a conversation, its suspended continuations, and compression.

  `respond` runs one turn under the conversation's lock: the turn is marked as pending, a committed
  turn is answered from the stored messages, any other one goes through the response step, and the
  reply is committed together with the removal of the mark.  `complete` is the response step up to
  the model: it finds a suspended continuation under the turn's checkpoint key and reports it or
  resumes it, or starts anew.  What the model does is an input (`ModelOutcome`); the prompt, which
  only the model reads, is left out.

  `chatStep` is the runtime as a machine over turns and compressions.
-/
import NuSelf.Conversation.Store
import NuSelf.Feature.Protocol
import NuSelf.Lib.Text

namespace NuSelf.Chat

open NuSelf.Lib NuSelf.Feature NuSelf.Conversation

/-! ## Results -/

inductive EpistemicStatus where
  | grounded | inferred | uncertain | unsupported
  deriving DecidableEq, Repr

/-- `ChatStructuredOutput`; a confidence is the bits of its float. -/
structure ChatStructuredOutput where
  answer : String
  evidence_references : List String := []
  confidence : Option (BitVec 64) := none
  epistemic_status : EpistemicStatus := .inferred
  deriving DecidableEq

/-- `ChatResult`, without the identity of the trace it is recorded under. -/
structure ChatResult where
  answer : String
  conversation_id : String
  evidence_references : List String := []
  confidence : Option (BitVec 64) := none
  epistemic_status : EpistemicStatus := .inferred
  completed_turn : Option CompletedTurn := none
  deriving DecidableEq

inductive ChatError where
  /-- A blank id is no runtime context. -/
  | context (field : String)
  | store (error : StoreError)
  | effectRequired (request : ToolEffectRequest)
  /-- A stage of the turn raised. -/
  | node (error : String)
  deriving DecidableEq

structure ChatAgentSettings where
  recent_messages : Nat
  summary_trigger_messages : Nat
  summary_target_chars : Nat
  recent_pos : 0 < recent_messages

/-- What a run of the model, fresh or resumed, comes to.  A suspension reports a request; the
    continuation records it unless it was raised past the graph. -/
inductive ModelOutcome where
  | answer (output : ChatStructuredOutput)
  | suspended (request : ToolEffectRequest) (recorded : Option ToolEffectRequest)
  | failed (error : String)
  deriving DecidableEq

/-- One call of `respond`; `uuid` is the `uuid4().hex` of a call without a turn. -/
structure RespondCall where
  message : String
  conversation_id : String := "default"
  turn_id : Option String := none
  effect_resolution : Option ToolEffectResolution := none
  uuid : String := ""
  deriving DecidableEq

/-! ## Continuations -/

/-- Who suspended: the ids of a call, and the `uuid` that stands in for a missing turn. -/
structure CallOwner where
  conversation_id : String
  turn_id : Option String
  uuid : String
  deriving DecidableEq

def RespondCall.owner (c : RespondCall) : CallOwner := ⟨c.conversation_id, c.turn_id, c.uuid⟩

/-- The two texts that `_checkpoint_key` joins. -/
def CallOwner.keyParts (o : CallOwner) : String × String :=
  match o.turn_id with
  | none => ("ephemeral", o.uuid)
  | some t => (o.conversation_id, t)

/-- `_checkpoint_key()`. -/
def CallOwner.checkpointKey (o : CallOwner) : String :=
  "chat:" ++ joinKey ':' o.keyParts.1 o.keyParts.2

/-- A suspended `_LangChainChatSupervisor`, with the call that created it. -/
structure Supervisor where
  effect_request : Option ToolEffectRequest
  owner : CallOwner
  deriving DecidableEq

/-- What the response step comes to; `touched` is the creator of the continuation that the call
    was shown, resumed or consumed. -/
structure Completion where
  continuations : Table String Supervisor
  result : Except ChatError ChatStructuredOutput
  touched : Option CallOwner := none

/-- `raise ToolEffectRequired(pending.require_effect_request())`. -/
def reportPending (continuations : Table String Supervisor) (pending : Supervisor) : Completion :=
  match pending.effect_request with
  | some request =>
    { continuations := continuations, result := .error (.effectRequired request),
      touched := some pending.owner }
  | none =>
    { continuations := continuations,
      result := .error (.node "chat checkpoint has no Tool effect request") }

/-- `_complete_with_langchain_tools`. -/
def completeWithTools (continuations : Table String Supervisor) (c : RespondCall)
    (outcome : ModelOutcome) : Completion :=
  match continuations.get c.owner.checkpointKey with
  | some pending =>
    match c.effect_resolution with
    | none => reportPending continuations pending
    | some resolution =>
      if pending.effect_request ≠ some resolution.request then reportPending continuations pending
      else
        let taken := continuations.erase c.owner.checkpointKey
        match outcome with
        | .answer output =>
          { continuations := taken, result := .ok output, touched := some pending.owner }
        | .suspended request recorded =>
          { continuations :=
              taken.set c.owner.checkpointKey { pending with effect_request := recorded },
            result := .error (.effectRequired request), touched := some pending.owner }
        | .failed error =>
          { continuations := taken, result := .error (.node error), touched := some pending.owner }
  | none =>
    match c.effect_resolution with
    | some _ =>
      { continuations := continuations,
        result := .error (.node "chat Tool effect checkpoint is unavailable") }
    | none =>
      match outcome with
      | .answer output => { continuations := continuations, result := .ok output }
      | .suspended request recorded =>
        { continuations := continuations.set c.owner.checkpointKey
            { effect_request := recorded, owner := c.owner },
          result := .error (.effectRequired request) }
      | .failed error => { continuations := continuations, result := .error (.node error) }

/-- `_local_response_output`: the last user text of the prompt is the message of the turn. -/
def localResponse (message : String) : ChatStructuredOutput where
  answer := "LLM API is not configured yet. I saved the message and can use " ++
    "local memory/context, but real reasoning needs an API key. " ++ "Last message: " ++ message

/-- `complete`, with or without a configured model. -/
def complete (configured : Bool) (continuations : Table String Supervisor) (c : RespondCall)
    (outcome : ModelOutcome) : Completion :=
  if configured = true then completeWithTools continuations c outcome
  else { continuations := continuations, result := .ok (localResponse c.message) }

/-! ## One turn -/

/-- `_completed_turn_result`: the answer of a committed turn, read off the stored messages. -/
def completedTurnResult (state : ConversationState) (message conversation_id : String)
    (turn_id : Option String) : Except ChatError (Option ChatResult) :=
  match turn_id with
  | none => .ok none
  | some t =>
    if state.messages.length < 2 then .ok none
    else
      match state.messages.reverse.find? (ConversationMessage.isOf t .assistant) with
      | none => .ok none
      | some assistant_message =>
        match state.messages.reverse.find? (ConversationMessage.isOf t .user) with
        | none => .ok none
        | some item =>
          if item.content = message then
            .ok (some
              { answer := assistant_message.content
                conversation_id := conversation_id
                completed_turn := some
                  { conversation_id := conversation_id
                    start_index := state.message_start_index + state.messages.idxOf item
                    end_index :=
                      state.message_start_index + state.messages.idxOf assistant_message + 1
                    user_content := item.content
                    assistant_content := assistant_message.content
                    turn_id := some t } })
          else .error (.store (.turnConflict t))

/-- `_messages_for_prompt_context`: replies that report a missing model are dropped. -/
def promptMessages (messages : List ConversationMessage) : List ConversationMessage :=
  messages.filter fun m =>
    !(decide (m.role = .assistant) && hasPrefix "LLM API is not configured yet." m.content)

/-- The state a turn leaves: the messages of the prompt, the user's and the reply. -/
def turnState (state : ConversationState) (c : RespondCall) (answer : String) :
    ConversationState :=
  let saved_messages := promptMessages state.messages ++
    [{ role := .user, content := c.message, turn_id := c.turn_id },
      { role := .assistant, content := answer, turn_id := c.turn_id }]
  { state with
    messages := saved_messages
    next_message_index := state.message_start_index + saved_messages.length
    indexes := rfl }

def turnResult (state : ConversationState) (c : RespondCall) (output : ChatStructuredOutput) :
    ChatResult where
  answer := output.answer
  conversation_id := c.conversation_id
  evidence_references := output.evidence_references
  confidence := output.confidence
  epistemic_status := output.epistemic_status
  completed_turn := some
    { conversation_id := c.conversation_id
      start_index := state.next_message_index - 2
      end_index := state.next_message_index
      user_content := c.message
      assistant_content := output.answer
      turn_id := c.turn_id }

/-- The runtime: the store, and the continuations it keeps in memory. -/
structure ChatRuntime where
  store : ConversationStore
  continuations : Table String Supervisor

def ChatRuntime.empty : ChatRuntime := ⟨.empty, Table.empty⟩

/-- What a call gives its caller, and what it did: whether it was answered from the stored turn,
    whether it entered the response step, and whose continuation it touched. -/
structure RespondOutput where
  result : Except ChatError ChatResult
  reused : Bool := false
  consulted : Bool := false
  touched : Option CallOwner := none

variable (digest : String → String)

/-- The turn a call is for.  A blank turn id is no runtime context. -/
def RespondCall.attempt (c : RespondCall) :
    Except ChatError (Option ConversationStore.TurnAttempt) :=
  match c.turn_id with
  | none => .ok none
  | some t =>
    if h : blank t = true then .error (.context "turn_id")
    else .ok (some ⟨t, c.message, ne_empty_of_not_blank (by simpa using h)⟩)

def respond (s : ChatRuntime) (c : RespondCall) (configured : Bool) (outcome : ModelOutcome) :
    ChatRuntime × RespondOutput :=
  if blank c.conversation_id = true then (s, { result := .error (.context "conversation_id") })
  else
    match c.attempt with
    | .error error => (s, { result := .error error })
    | .ok attempt =>
      match s.store.beginUpdate digest c.conversation_id attempt c.effect_resolution.isSome with
      | .error error => (s, { result := .error (.store error) })
      | .ok (store, ticket) =>
        match completedTurnResult ticket.state c.message c.conversation_id c.turn_id with
        | .error error => ({ s with store := store }, { result := .error error })
        | .ok (some completed) =>
          match store.commitUpdate ticket ticket.state with
          | .error error => ({ s with store := store }, { result := .error (.store error) })
          | .ok store => ({ s with store := store }, { result := .ok completed, reused := true })
        | .ok none =>
          let done := complete configured s.continuations c outcome
          match done.result with
          | .error error =>
            ({ store := store, continuations := done.continuations },
              { result := .error error, consulted := true, touched := done.touched })
          | .ok output =>
            let updated := turnState ticket.state c output.answer
            match store.commitUpdate ticket updated with
            | .error error =>
              ({ store := store, continuations := done.continuations },
                { result := .error (.store error), consulted := true, touched := done.touched })
            | .ok store =>
              ({ store := store, continuations := done.continuations },
                { result := .ok (turnResult updated c output), consulted := true,
                  touched := done.touched })

/-! ## Compression -/

def localSummary (previous_summary transcript : String) (target_chars : Nat) : String :=
  let combined := "\n\n".intercalate ([previous_summary, transcript].filter fun part => part ≠ "")
  String.ofList (combined.toList.drop (combined.toList.length - target_chars))

/-- `_summarize`; `agent` is the text agent and what it answers. -/
def summarize (settings : ChatAgentSettings) (agent : Option (Except String String))
    (previous_summary : String) (messages : List ConversationMessage) : String :=
  let transcript := "\n".intercalate (messages.map fun m => m.role.text ++ ": " ++ m.content)
  let fallback := localSummary previous_summary transcript settings.summary_target_chars
  let summary := match agent with
    | some (.ok summary) => if blank summary = true then fallback else summary
    | some (.error _) => fallback
    | none => fallback
  String.ofList (summary.toList.take settings.summary_target_chars)

/-- `compress_conversation` on a state: older messages go into the summary. -/
def compressState (settings : ChatAgentSettings) (agent : Option (Except String String))
    (state : ConversationState) : ConversationState :=
  if state.messages.length ≤ settings.summary_trigger_messages then state
  else
    let cut := state.messages.length - settings.recent_messages
    { state with
      summary := summarize settings agent state.summary (state.messages.take cut)
      messages := state.messages.drop cut
      message_start_index := state.next_message_index - (state.messages.drop cut).length
      indexes := by
        have h := state.indexes
        rw [List.length_drop]
        omega }

/-- `compress_conversation(conversation_id)`. -/
def compressConversation (settings : ChatAgentSettings) (s : ChatRuntime) (conversation_id : String)
    (agent : Option (Except String String)) : ChatRuntime × Except ChatError Unit :=
  match s.store.beginUpdate digest conversation_id none false with
  | .error error => (s, .error (.store error))
  | .ok (store, ticket) =>
    match store.commitUpdate ticket (compressState settings agent ticket.state) with
    | .error error => ({ s with store := store }, .error (.store error))
    | .ok store => ({ s with store := store }, .ok ())

/-! ## The machine -/

inductive ChatInput where
  | respond (call : RespondCall) (configured : Bool) (outcome : ModelOutcome)
  | compress (conversation_id : String) (agent : Option (Except String String))

inductive ChatOutput where
  | responded (output : RespondOutput)
  | compressed (result : Except ChatError Unit)

def chatStep (settings : ChatAgentSettings) (s : ChatRuntime) :
    ChatInput → ChatRuntime × ChatOutput
  | .respond call configured outcome =>
    ((respond digest s call configured outcome).1,
      .responded (respond digest s call configured outcome).2)
  | .compress conversation_id agent =>
    ((compressConversation digest settings s conversation_id agent).1,
      .compressed (compressConversation digest settings s conversation_id agent).2)

end NuSelf.Chat
