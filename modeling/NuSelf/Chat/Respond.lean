/-
  What one call of `respond` does.

  A call reads its turn off the store: a committed turn is found by its stored messages, an
  unfinished one by its mark.  The lemmas here say what is found (`completedTurnResult_none`,
  `completedTurnResult_stored`) and put the branches of `respond` into one inversion,
  `respond_cases`: a call is refused and changes nothing, is answered from the store, fails in the
  response step, or commits its reply.  What follows about runs of calls uses the inversion only.
-/
import NuSelf.Chat.Engine

namespace NuSelf.Chat

open NuSelf.Lib NuSelf.Feature NuSelf.Conversation

variable {digest : String → String} {s s' : ChatRuntime} {c : RespondCall} {configured : Bool}
  {outcome : ModelOutcome}

/-! ## The stored turn -/

/-- An attempt is for the call's turn, which is not blank, and carries its message. -/
theorem attempt_ok {attempt : Option ConversationStore.TurnAttempt} (h : c.attempt = .ok attempt) :
    attempt.map ConversationStore.TurnAttempt.turn_id = c.turn_id ∧
      ∀ turn, attempt = some turn → turn.user_message = c.message ∧ blank turn.turn_id = false := by
  unfold RespondCall.attempt at h
  split at h
  · rename_i hnone
    cases h
    exact ⟨hnone.symm, fun _ hturn => nomatch hturn⟩
  · rename_i t hsome
    split at h
    · cases h
    · rename_i hb
      cases h
      refine ⟨hsome.symm, fun turn hturn => ?_⟩
      cases hturn
      exact ⟨rfl, by simpa using hb⟩

theorem attempt_error {error : ChatError} (h : c.attempt = .error error) :
    ∃ field, error = .context field ∧ ∃ t, c.turn_id = some t ∧ blank t = true := by
  unfold RespondCall.attempt at h
  split at h
  · cases h
  · rename_i t ht
    split at h
    · rename_i hb
      cases h
      exact ⟨_, rfl, t, ht, hb⟩
    · cases h

theorem hasReply_iff {state : ConversationState} {t : String} :
    ConversationStore.hasReply state t = true ↔
      ∃ m ∈ state.messages, m.isOf t .assistant = true := by
  simp [ConversationStore.hasReply]

/-- A turn without a stored reply, or without its stored question, has no result. -/
theorem completedTurnResult_none {state : ConversationState} {t : String} {role : ConversationRole}
    (h : ∀ m ∈ state.messages, m.isOf t role = false) (message conversation_id : String) :
    completedTurnResult state message conversation_id (some t) = .ok none := by
  have hfind : state.messages.reverse.find? (ConversationMessage.isOf t role) = none := by
    rw [List.find?_eq_none]
    intro m hm
    simp [h m (List.mem_reverse.mp hm)]
  unfold completedTurnResult
  simp only
  split
  · rfl
  · cases role with
    | assistant => rw [hfind]
    | user =>
      rw [hfind]
      split <;> rfl

/-- Whether a turn's question and reply are both stored. -/
def TurnStored (state : ConversationState) (t : String) : Prop :=
  (∃ m ∈ state.messages, m.isOf t .user = true) ∧ ∃ m ∈ state.messages, m.isOf t .assistant = true

theorem completedTurnResult_stored {state : ConversationState} {t : String}
    (h : TurnStored state t) (message conversation_id : String) :
    ∃ assistant user, assistant ∈ state.messages ∧ assistant.isOf t .assistant = true ∧
      user ∈ state.messages ∧ user.isOf t .user = true ∧
      (user.content = message → ∃ r, r.answer = assistant.content ∧
        completedTurnResult state message conversation_id (some t) = .ok (some r)) ∧
      (user.content ≠ message → completedTurnResult state message conversation_id (some t) =
        .error (.store (.turnConflict t))) := by
  obtain ⟨⟨u, hu, hut⟩, a, ha, hat⟩ := h
  have hlen : ¬ state.messages.length < 2 := by
    -- the two messages have different roles
    intro hlt
    have hne : a ≠ u := by
      rintro rfl
      have h1 := (ConversationMessage.isOf_iff.mp hut).2
      rw [(ConversationMessage.isOf_iff.mp hat).2] at h1
      cases h1
    cases hm : state.messages with
    | nil => rw [hm] at hu; cases hu
    | cons x rest =>
      cases rest with
      | nil =>
        rw [hm, List.mem_singleton] at hu ha
        exact hne (ha.trans hu.symm)
      | cons y rest =>
        rw [hm, List.length_cons, List.length_cons] at hlt
        omega
  have hfind : ∀ {role : ConversationRole} {m : ConversationMessage}, m ∈ state.messages →
      m.isOf t role = true →
      ∃ x, state.messages.reverse.find? (ConversationMessage.isOf t role) = some x := by
    intro role m hm hmt
    cases hf : state.messages.reverse.find? (ConversationMessage.isOf t role) with
    | some x => exact ⟨x, rfl⟩
    | none =>
      have hnone := List.find?_eq_none.mp hf m (List.mem_reverse.mpr hm)
      exact absurd hmt hnone
  obtain ⟨assistant, hfa⟩ := hfind ha hat
  obtain ⟨user, hfu⟩ := hfind hu hut
  refine ⟨assistant, user, List.mem_reverse.mp (List.mem_of_find?_eq_some hfa),
    List.find?_some hfa, List.mem_reverse.mp (List.mem_of_find?_eq_some hfu), List.find?_some hfu,
    fun hcontent => ?_, fun hcontent => ?_⟩
  · simp only [completedTurnResult, if_neg hlen, hfa, hfu, if_pos hcontent]
    exact ⟨_, rfl, rfl⟩
  · simp only [completedTurnResult, if_neg hlen, hfa, hfu, if_neg hcontent]

theorem completedTurnResult_error {state : ConversationState} {message conversation_id : String}
    {turn_id : Option String} {error : ChatError}
    (h : completedTurnResult state message conversation_id turn_id = .error error) :
    ∃ t, turn_id = some t ∧ error = .store (.turnConflict t) ∧
      ConversationStore.hasReply state t = true := by
  cases turn_id with
  | none => cases h
  | some t =>
    simp only [completedTurnResult] at h
    split at h
    · cases h
    · split at h
      · cases h
      · rename_i assistant hfa
        split at h
        · cases h
        · split at h
          · cases h
          · cases h
            exact ⟨t, rfl, rfl, hasReply_iff.mpr ⟨assistant,
              List.mem_reverse.mp (List.mem_of_find?_eq_some hfa), List.find?_some hfa⟩⟩

/-! ## What a call does -/

/-- A call that the runtime took on: its turn is not in conflict and not left unfinished. -/
def RespondOutput.accepted (o : RespondOutput) : Bool :=
  match o.result with
  | .error (.context _) => false
  | .error (.store _) => false
  | _ => true

/-- The reply that a call committed. -/
def RespondOutput.committed (o : RespondOutput) : Option String :=
  match o.result with
  | .ok result => if o.reused = true then none else some result.answer
  | .error _ => none

theorem complete_error {continuations : Table String Supervisor} {error : ChatError}
    (h : (complete configured continuations c outcome).result = .error error) :
    (∃ request, error = .effectRequired request) ∨ ∃ text, error = .node text := by
  unfold complete at h
  split at h
  · unfold completeWithTools reportPending at h
    repeat' split at h
    all_goals first
      | exact Or.inl ⟨_, (Except.error.inj h).symm⟩
      | exact Or.inr ⟨_, (Except.error.inj h).symm⟩
      | cases h
  · cases h

/-- Why a call is refused: an id that is no runtime context, an id that the store does not accept,
    a mark that its turn has already, or a stored turn with another question. -/
inductive Refusal (digest : String → String) (s : ChatRuntime) (c : RespondCall) :
    ChatError → Prop where
  | context {field : String}
      (h : blank c.conversation_id = true ∨ ∃ t, c.turn_id = some t ∧ blank t = true) :
      Refusal digest s c (.context field)
  | invalid (h : validId c.conversation_id = false) :
      Refusal digest s c (.store (.invalidId c.conversation_id))
  | marked {attempt : Option ConversationStore.TurnAttempt} {error : StoreError}
      (hattempt : c.attempt = .ok attempt)
      (h : ConversationStore.beginState digest (s.store.stateOf c.conversation_id) attempt
        c.effect_resolution.isSome = .error error) : Refusal digest s c (.store error)
  | stored {t : String} (ht : c.turn_id = some t)
      (h : completedTurnResult (s.store.stateOf c.conversation_id) c.message c.conversation_id
        (some t) = .error (.store (.turnConflict t))) :
      Refusal digest s c (.store (.turnConflict t))

/-- The four things a call can do. -/
inductive Responded (digest : String → String) (s : ChatRuntime) (c : RespondCall)
    (configured : Bool) (outcome : ModelOutcome) : ChatRuntime → RespondOutput → Prop where
  /-- It is refused, and nothing changes. -/
  | refused {error : ChatError} (hrefusal : Refusal digest s c error) :
      Responded digest s c configured outcome s { result := .error error }
  /-- It is answered from the stored turn. -/
  | replayed {attempt : Option ConversationStore.TurnAttempt} {store : ConversationStore}
      {ticket : ConversationStore.Ticket} {completed : ChatResult}
      (hcontext : blank c.conversation_id = false) (hattempt : c.attempt = .ok attempt)
      (hbegin : s.store.beginUpdate digest c.conversation_id attempt c.effect_resolution.isSome =
        .ok (store, ticket))
      (hcompleted : completedTurnResult ticket.state c.message c.conversation_id c.turn_id =
        .ok (some completed)) :
      Responded digest s c configured outcome
        { s with store := store.put (ticket.state.finishTurnAttempt c.turn_id) }
        { result := .ok completed, reused := true }
  /-- The response step raises; the mark of the turn stays. -/
  | failed {attempt : Option ConversationStore.TurnAttempt} {store : ConversationStore}
      {ticket : ConversationStore.Ticket} {error : ChatError}
      (hcontext : blank c.conversation_id = false) (hattempt : c.attempt = .ok attempt)
      (hbegin : s.store.beginUpdate digest c.conversation_id attempt c.effect_resolution.isSome =
        .ok (store, ticket))
      (hcompleted : completedTurnResult ticket.state c.message c.conversation_id c.turn_id =
        .ok none)
      (hdone : (complete configured s.continuations c outcome).result = .error error) :
      Responded digest s c configured outcome
        ⟨store, (complete configured s.continuations c outcome).continuations⟩
        { result := .error error, consulted := true,
          touched := (complete configured s.continuations c outcome).touched }
  /-- The reply is committed. -/
  | committed {attempt : Option ConversationStore.TurnAttempt} {store : ConversationStore}
      {ticket : ConversationStore.Ticket} {output : ChatStructuredOutput}
      (hcontext : blank c.conversation_id = false) (hattempt : c.attempt = .ok attempt)
      (hbegin : s.store.beginUpdate digest c.conversation_id attempt c.effect_resolution.isSome =
        .ok (store, ticket))
      (hcompleted : completedTurnResult ticket.state c.message c.conversation_id c.turn_id =
        .ok none)
      (hdone : (complete configured s.continuations c outcome).result = .ok output) :
      Responded digest s c configured outcome
        ⟨store.put ((turnState ticket.state c output.answer).finishTurnAttempt c.turn_id),
          (complete configured s.continuations c outcome).continuations⟩
        { result := .ok (turnResult (turnState ticket.state c output.answer) c output),
          consulted := true,
          touched := (complete configured s.continuations c outcome).touched }

/-- **Inversion of `respond`.** -/
theorem respond_cases (digest : String → String) (s : ChatRuntime) (c : RespondCall)
    (configured : Bool) (outcome : ModelOutcome) :
    Responded digest s c configured outcome (respond digest s c configured outcome).1
      (respond digest s c configured outcome).2 := by
  unfold respond
  cases hcontext : blank c.conversation_id with
  | true => exact .refused (.context (Or.inl hcontext))
  | false =>
    rw [if_neg (by simp)]
    cases hattempt : c.attempt with
    | error error =>
      obtain ⟨field, rfl, t, ht, hb⟩ := attempt_error hattempt
      exact .refused (.context (Or.inr ⟨t, ht, hb⟩))
    | ok attempt =>
      dsimp only
      cases hbegin : s.store.beginUpdate digest c.conversation_id attempt
          c.effect_resolution.isSome with
      | error error =>
        rcases ConversationStore.beginUpdate_error hbegin with ⟨hid, rfl⟩ | hstate
        · exact .refused (.invalid hid)
        · exact .refused (.marked hattempt hstate)
      | ok r =>
        obtain ⟨store, ticket⟩ := r
        obtain ⟨-, hstate, hstore, -, hid, hturn, horiginal⟩ :=
          ConversationStore.beginUpdate_spec hbegin
        have hcid : ticket.state.conversation_id = ticket.conversation_id := by
          rw [← hstore, store.stateOf_conversation_id, hid]
        have hcommit : ∀ updated : ConversationState,
            updated.conversation_id = ticket.conversation_id →
            store.commitUpdate ticket updated =
              .ok (store.put (updated.finishTurnAttempt c.turn_id)) := by
          intro updated hupdated
          rw [ConversationStore.commitUpdate_ok hupdated (by rw [hid, horiginal]), hturn,
            (attempt_ok hattempt).1]
        dsimp only
        cases hcompleted : completedTurnResult ticket.state c.message c.conversation_id
            c.turn_id with
        | error error =>
          -- the turn has its reply, so nothing was marked
          obtain ⟨t, ht, rfl, hreply⟩ := completedTurnResult_error hcompleted
          obtain ⟨hmap, -⟩ := attempt_ok hattempt
          cases attempt with
          | none => rw [ht] at hmap; cases hmap
          | some turn =>
            rw [ht] at hmap
            cases hmap
            have hmsgs := (ConversationStore.beginState_spec hstate).2.1
            have hreply' : ConversationStore.hasReply (s.store.stateOf c.conversation_id)
                turn.turn_id = true := by
              rw [hasReply_iff] at hreply ⊢
              rw [← hmsgs]
              exact hreply
            cases ConversationStore.beginUpdate_of_hasReply hbegin hreply'
            rw [ht, ← hstore] at hcompleted
            exact .refused (.stored ht hcompleted)
        | ok completed =>
          cases completed with
          | some completed =>
            rw [hcommit _ hcid]
            exact .replayed hcontext hattempt hbegin hcompleted
          | none =>
            dsimp only
            cases hdone : (complete configured s.continuations c outcome).result with
            | error error => exact .failed hcontext hattempt hbegin hcompleted hdone
            | ok output =>
              dsimp only
              rw [hcommit (turnState ticket.state c output.answer) hcid]
              exact .committed hcontext hattempt hbegin hcompleted hdone

end NuSelf.Chat
