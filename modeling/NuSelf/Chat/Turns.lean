/-
  Exactly-once turns: the chat runtime against the ledger of keyed requests.

  A stable turn is keyed by its conversation and its turn id.  The ledger (`Lib.Ledger`) says what
  the runtime owes: the first accepted message binds the turn, a committed reply is the turn's
  reply.  `seeTurn` keeps the ledger from what the calls did; a call is faithful when the ledger's
  verdict on it is what the caller gets.

  The runtime keeps no ledger.  It reads a turn's fate off the stored messages and the pending
  marks, and both the history compression and the filter of the next prompt drop stored messages.
  `TurnRecord` is the relation between a stored record and a ledger entry; it survives every step
  but one that runs a committed turn again.  So:

  1. `turnInv_step` — a step under the condition keeps the records true to the ledger;
  2. `turnFaithful_iff` — a step is faithful exactly under the condition;
  3. `exactly_once_iff` — so is a run, and then it commits each turn at most once.
-/
import NuSelf.Chat.Respond
import NuSelf.Lib.Ledger
import NuSelf.Lib.Run

namespace NuSelf.Chat

open NuSelf.Lib NuSelf.Feature NuSelf.Conversation

variable {digest : String → String} {s s' : ChatRuntime} {c : RespondCall} {configured : Bool}
  {outcome : ModelOutcome}

/-! ## Records and the ledger -/

/-- Conversation and turn. -/
abbrev TurnLedger := Ledger (String × String) String String

/-- What the ledger learns from a step. -/
def seeTurn (l : TurnLedger) (e : Step ChatRuntime ChatInput ChatOutput) : TurnLedger :=
  match e.input, e.output with
  | .respond c _ _, .responded o =>
    match c.turn_id with
    | none => l
    | some t =>
      if o.accepted = true then
        match o.committed with
        | none => l.bind (c.conversation_id, t) c.message
        | some answer => (l.bind (c.conversation_id, t) c.message).commit (c.conversation_id, t) answer
      else l
  | _, _ => l

/-- A stored record is true to a ledger entry of one of its turns: an unknown turn has no trace, a
    bound one has its mark, a replied one has no message but its own. -/
def TurnRecord (digest : String → String) (record : ConversationState) (t : String) :
    Option (Entry String String) → Prop
  | none => (∀ m ∈ record.messages, m.turn_id ≠ some t) ∧ record.pendingTurn t = none
  | some ⟨message, none⟩ => (∀ m ∈ record.messages, m.turn_id ≠ some t) ∧
      ∃ p, record.pendingTurn t = some p ∧ p.input_digest = digest message
  | some ⟨message, some answer⟩ => (∀ m ∈ record.messages, m.turn_id = some t →
      (m.role = .user → m.content = message) ∧ (m.role = .assistant → m.content = answer)) ∧
      record.pendingTurn t = none

/-- Records may lose messages, gain messages of other turns, and change other marks. -/
theorem TurnRecord.frame {record record' : ConversationState} {t : String}
    {entry : Option (Entry String String)} (h : TurnRecord digest record t entry)
    (hmsgs : ∀ m ∈ record'.messages, m.turn_id = some t → m ∈ record.messages)
    (hpending : record'.pendingTurn t = record.pendingTurn t) :
    TurnRecord digest record' t entry := by
  have hnone : (∀ m ∈ record.messages, m.turn_id ≠ some t) →
      ∀ m ∈ record'.messages, m.turn_id ≠ some t :=
    fun hno m hm hmt => hno m (hmsgs m hm hmt) hmt
  cases entry with
  | none => exact ⟨hnone h.1, by rw [hpending]; exact h.2⟩
  | some e =>
    obtain ⟨message, reply⟩ := e
    cases reply with
    | none => exact ⟨hnone h.1, by rw [hpending]; exact h.2⟩
    | some answer =>
      exact ⟨fun m hm hmt => h.1 m (hmsgs m hm hmt) hmt, by rw [hpending]; exact h.2⟩

/-- The stored records are true to the ledger, and the ledger knows only keys that a call can
    have. -/
structure TurnInv (digest : String → String) (s : ChatRuntime) (l : TurnLedger) : Prop where
  record : ∀ id t, TurnRecord digest (s.store.stateOf id) t (l (id, t))
  key : ∀ id t e, l (id, t) = some e → validId id = true ∧ blank id = false ∧ blank t = false

theorem turnInv_empty : TurnInv digest ChatRuntime.empty Ledger.empty where
  record := fun _ _ => ⟨fun _ hm => (nomatch hm), rfl⟩
  key := fun _ _ _ h => nomatch h

theorem respond_frame {o : RespondOutput} (h : Responded digest s c configured outcome s' o)
    {id t : String} (hne : ¬ (id = c.conversation_id ∧ c.turn_id = some t))
    {entry : Option (Entry String String)}
    (hrecord : TurnRecord digest (s.store.stateOf id) t entry) :
    TurnRecord digest (s'.store.stateOf id) t entry := by
  -- what holds of the state that the callback gets, and of what a commit makes of it
  have begun : ∀ {attempt store} {ticket : ConversationStore.Ticket}, c.attempt = .ok attempt →
      s.store.beginUpdate digest c.conversation_id attempt c.effect_resolution.isSome =
        .ok (store, ticket) → TurnRecord digest (store.stateOf id) t entry := by
    intro attempt store ticket hattempt hbegin
    obtain ⟨-, hstate, hstore, hother, -⟩ := ConversationStore.beginUpdate_spec hbegin
    by_cases hid : id = c.conversation_id
    · obtain ⟨-, hmsgs, hpending⟩ := ConversationStore.beginState_spec hstate
      rw [hid, hstore]
      rw [hid] at hrecord
      refine hrecord.frame (fun m hm _ => hmsgs ▸ hm) (hpending t fun turn hturn ht => ?_)
      have hmap := (attempt_ok hattempt).1
      rw [hturn] at hmap
      exact hne ⟨hid, by rw [← hmap, ← ht]; rfl⟩
    · have hsame : store.stateOf id = s.store.stateOf id := by
        rw [ConversationStore.stateOf, ConversationStore.stateOf, hother id hid]
      rw [hsame]
      exact hrecord
  have saved : ∀ {store : ConversationStore} {updated : ConversationState},
      updated.conversation_id = c.conversation_id →
      (∀ m ∈ updated.messages, m.turn_id = some t → c.turn_id = some t ∨
        m ∈ (store.stateOf c.conversation_id).messages) →
      updated.pending_turns = (store.stateOf c.conversation_id).pending_turns →
      TurnRecord digest (store.stateOf id) t entry →
      TurnRecord digest ((store.put (updated.finishTurnAttempt c.turn_id)).stateOf id) t entry := by
    intro store updated hcid hmsgs hpend hrec
    rw [ConversationStore.stateOf_put, ConversationState.finishTurnAttempt_conversation_id, hcid]
    by_cases hid : id = c.conversation_id
    · rw [if_pos hid]
      rw [hid] at hrec
      have hturn : c.turn_id ≠ some t := fun ht => hne ⟨hid, ht⟩
      refine hrec.frame (fun m hm hmt => ?_) ?_
      · rw [ConversationState.finishTurnAttempt_messages] at hm
        exact (hmsgs m hm hmt).resolve_left hturn
      · have hp : updated.pendingTurn t = (store.stateOf c.conversation_id).pendingTurn t := by
          rw [ConversationState.pendingTurn, hpend]
          rfl
        cases hct : c.turn_id with
        | none => exact hp
        | some t' =>
          rw [ConversationState.finishTurnAttempt_pendingTurn, if_neg, hp]
          rintro rfl
          exact hturn hct
    · rw [if_neg hid]
      exact hrec
  cases h with
  | refused => exact hrecord
  | replayed _ hattempt hbegin _ =>
    have hstore := (ConversationStore.beginUpdate_spec hbegin).2.2.1
    refine saved ?_ (fun m hm _ => Or.inr (hstore ▸ hm)) (by rw [hstore]) (begun hattempt hbegin)
    rw [← hstore, ConversationStore.stateOf_conversation_id]
  | failed _ hattempt hbegin _ _ => exact begun hattempt hbegin
  | committed _ hattempt hbegin _ _ =>
    have hstore := (ConversationStore.beginUpdate_spec hbegin).2.2.1
    refine saved ?_ (fun m hm hmt => ?_) (by rw [hstore]; rfl) (begun hattempt hbegin)
    · show _ = _
      rw [← ConversationStore.stateOf_conversation_id _ c.conversation_id, hstore]
      rfl
    · rcases List.mem_append.mp hm with hm | hm
      · exact Or.inr (hstore ▸ (List.mem_filter.mp hm).1)
      · left
        rcases List.mem_cons.mp hm with rfl | hm
        · exact hmt
        · rw [List.mem_singleton.mp hm] at hmt
          exact hmt

/-! ## The turn of the call itself -/

/-- The condition on a call: a turn that has its reply still has its question and its reply among
    the stored messages, and no other message with the digest of a bound turn is sent under it. -/
def TurnIntact (digest : String → String) (s : ChatRuntime) (l : TurnLedger) (c : RespondCall) :
    Prop :=
  ∀ t entry, c.turn_id = some t → l (c.conversation_id, t) = some entry →
    match entry.reply with
    | some _ => TurnStored (s.store.stateOf c.conversation_id) t
    | none => entry.message = c.message ∨ digest entry.message ≠ digest c.message

/-- What the ledger learns of the turn of a call. -/
def seeCall (l : TurnLedger) (c : RespondCall) (t : String) (o : RespondOutput) : TurnLedger :=
  if o.accepted = true then
    match o.committed with
    | none => l.bind (c.conversation_id, t) c.message
    | some answer => (l.bind (c.conversation_id, t) c.message).commit (c.conversation_id, t) answer
  else l

theorem seeCall_refused (l : TurnLedger) (t : String) {error : ChatError}
    (h : Refusal digest s c error) : seeCall l c t { result := .error error } = l := by
  cases h <;> rfl

theorem seeCall_failed (l : TurnLedger) (t : String) {error : ChatError}
    (hdone : (complete configured s.continuations c outcome).result = .error error)
    (touched : Option CallOwner) :
    seeCall l c t { result := .error error, consulted := true, touched := touched } =
      l.bind (c.conversation_id, t) c.message := by
  rcases complete_error hdone with ⟨request, rfl⟩ | ⟨text, rfl⟩ <;> rfl

theorem not_hasReply {record : ConversationState} {t : String}
    (h : ∀ m ∈ record.messages, m.turn_id ≠ some t) :
    ConversationStore.hasReply record t = false := by
  cases hr : ConversationStore.hasReply record t with
  | false => rfl
  | true =>
    obtain ⟨m, hm, hmt⟩ := hasReply_iff.mp hr
    exact absurd (ConversationMessage.isOf_iff.mp hmt).1 (h m hm)

section

variable {l : TurnLedger} {t : String} {o : RespondOutput} (ht : c.turn_id = some t)

include ht

/-- What the first half of the update has done to the turn, seen from the record it read. -/
theorem begun_own {attempt : Option ConversationStore.TurnAttempt} {store : ConversationStore}
    {ticket : ConversationStore.Ticket} (hattempt : c.attempt = .ok attempt)
    (hbegin : s.store.beginUpdate digest c.conversation_id attempt c.effect_resolution.isSome =
      .ok (store, ticket)) :
    store.stateOf c.conversation_id = ticket.state ∧
      ticket.state.messages = (s.store.stateOf c.conversation_id).messages ∧
      ((ConversationStore.hasReply (s.store.stateOf c.conversation_id) t = true ∧
          ticket.state = s.store.stateOf c.conversation_id) ∨
        (ConversationStore.hasReply (s.store.stateOf c.conversation_id) t = false ∧
          ∃ p, ticket.state.pendingTurn t = some p ∧ p.input_digest = digest c.message ∧
            ∀ q, (s.store.stateOf c.conversation_id).pendingTurn t = some q → q = p)) := by
  obtain ⟨-, hstate, hstore, -⟩ := ConversationStore.beginUpdate_spec hbegin
  refine ⟨hstore, (ConversationStore.beginState_spec hstate).2.1, ?_⟩
  obtain ⟨hmap, hturn⟩ := attempt_ok hattempt
  cases attempt with
  | none => rw [ht] at hmap; cases hmap
  | some turn =>
    rw [ht] at hmap
    cases hmap
    have hown := ConversationStore.beginState_own hstate
    rw [(hturn turn rfl).1] at hown
    exact hown

/-- Once the turn is begun it is marked or stored, so only a call that enters the response step can
    change an entry; under the condition it is an entry without a reply, of the same message. -/
theorem begun_entry (hrecord : TurnRecord digest (s.store.stateOf c.conversation_id) t
      (l (c.conversation_id, t))) (hintact : TurnIntact digest s l c)
    {attempt : Option ConversationStore.TurnAttempt} {store : ConversationStore}
    {ticket : ConversationStore.Ticket} (hattempt : c.attempt = .ok attempt)
    (hbegin : s.store.beginUpdate digest c.conversation_id attempt c.effect_resolution.isSome =
      .ok (store, ticket))
    (hcompleted : completedTurnResult ticket.state c.message c.conversation_id c.turn_id =
      .ok none) :
    (∀ m ∈ ticket.state.messages, m.turn_id ≠ some t) ∧
      (∃ p, ticket.state.pendingTurn t = some p ∧ p.input_digest = digest c.message) ∧
      (l (c.conversation_id, t) = none ∨ l (c.conversation_id, t) = some ⟨c.message, none⟩) := by
  obtain ⟨-, hmsgs, hown⟩ := begun_own ht hattempt hbegin
  cases hentry : l (c.conversation_id, t) with
  | none =>
    rw [hentry] at hrecord
    obtain ⟨hno, -⟩ := hrecord
    rcases hown with ⟨hreply, -⟩ | ⟨-, p, hp, hdigest, -⟩
    · rw [not_hasReply hno] at hreply
      cases hreply
    · exact ⟨by rw [hmsgs]; exact hno, ⟨p, hp, hdigest⟩, Or.inl rfl⟩
  | some e =>
    have hcond := hintact t e ht hentry
    obtain ⟨message, reply⟩ := e
    rw [hentry] at hrecord
    cases reply with
    | none =>
      obtain ⟨hno, q, hq, hqd⟩ := hrecord
      rcases hown with ⟨hreply, -⟩ | ⟨-, p, hp, hdigest, hsame⟩
      · rw [not_hasReply hno] at hreply
        cases hreply
      · -- the mark was made for the bound message, and it carries the digest of this one
        have hmessage : message = c.message := by
          rcases hcond with hcond | hcond
          · exact hcond
          · rw [hsame q hq, hdigest] at hqd
            exact absurd hqd.symm hcond
        exact ⟨by rw [hmsgs]; exact hno, ⟨p, hp, hdigest⟩, Or.inr (by rw [hmessage])⟩
    | some answer =>
      -- the stored turn would have answered
      have hstored : TurnStored ticket.state t := by
        rw [TurnStored, hmsgs]
        exact hcond
      obtain ⟨assistant, user, -, -, -, -, hyes, hno⟩ :=
        completedTurnResult_stored hstored c.message c.conversation_id
      rw [ht] at hcompleted
      by_cases hcontent : user.content = c.message
      · obtain ⟨r, -, hr⟩ := hyes hcontent
        rw [hr] at hcompleted
        cases hcompleted
      · rw [hno hcontent] at hcompleted
        cases hcompleted

/-- **A step under the condition keeps its own turn true to the ledger.** -/
theorem respond_own (h : Responded digest s c configured outcome s' o)
    (hrecord : TurnRecord digest (s.store.stateOf c.conversation_id) t (l (c.conversation_id, t)))
    (hintact : TurnIntact digest s l c) :
    TurnRecord digest (s'.store.stateOf c.conversation_id) t
      (seeCall l c t o (c.conversation_id, t)) := by
  cases h with
  | refused hrefusal =>
    rw [seeCall_refused l t hrefusal]
    exact hrecord
  | @replayed attempt store ticket completed _ hattempt hbegin hcompleted =>
    obtain ⟨hstore, hmsgs, hown⟩ := begun_own ht hattempt hbegin
    show TurnRecord digest _ t (l.bind (c.conversation_id, t) c.message (c.conversation_id, t))
    rw [ht] at hcompleted
    rw [ConversationStore.stateOf_put, ConversationState.finishTurnAttempt_conversation_id, ← hstore,
      ConversationStore.stateOf_conversation_id, if_pos rfl, hstore, ht]
    -- the answer was found, so the turn has a reply in the ledger
    have hassistant : ¬ ∀ m ∈ (s.store.stateOf c.conversation_id).messages, m.turn_id ≠ some t := by
      intro hno
      have hnone : ∀ m ∈ ticket.state.messages, m.isOf t .assistant = false := by
        intro m hm
        rw [hmsgs] at hm
        simp [ConversationMessage.isOf, hno m hm]
      rw [completedTurnResult_none hnone] at hcompleted
      cases hcompleted
    cases hentry : l (c.conversation_id, t) with
    | none =>
      rw [hentry] at hrecord
      exact absurd hrecord.1 hassistant
    | some e =>
      rw [hentry] at hrecord
      obtain ⟨message, reply⟩ := e
      cases reply with
      | none => exact absurd hrecord.1 hassistant
      | some answer =>
        rw [Ledger.bind_of_some hentry]
        refine ⟨fun m hm => ?_, by rw [ConversationState.finishTurnAttempt_pendingTurn, if_pos rfl]⟩
        rw [ConversationState.finishTurnAttempt_messages, hmsgs] at hm
        exact hrecord.1 m hm
  | failed _ hattempt hbegin hcompleted hdone =>
    obtain ⟨hstore, -⟩ := begun_own ht hattempt hbegin
    obtain ⟨hno, hmark, hentry⟩ := begun_entry ht hrecord hintact hattempt hbegin hcompleted
    rw [seeCall_failed l t hdone, hstore]
    rcases hentry with hentry | hentry
    · rw [Ledger.bind_of_none hentry]
      exact ⟨hno, hmark⟩
    · rw [Ledger.bind_of_some hentry]
      exact ⟨hno, hmark⟩
  | @committed attempt store ticket output _ hattempt hbegin hcompleted hdone =>
    obtain ⟨hstore, -⟩ := begun_own ht hattempt hbegin
    obtain ⟨hno, -, hentry⟩ := begun_entry ht hrecord hintact hattempt hbegin hcompleted
    have hbound : l.bind (c.conversation_id, t) c.message (c.conversation_id, t) =
        some ⟨c.message, none⟩ := by
      rcases hentry with hentry | hentry
      · exact Ledger.bind_of_none hentry
      · exact Ledger.bind_of_some hentry
    show TurnRecord digest _ t ((l.bind (c.conversation_id, t) c.message).commit
      (c.conversation_id, t) output.answer (c.conversation_id, t))
    have hcid : (turnState ticket.state c output.answer).conversation_id = c.conversation_id := by
      rw [← ConversationStore.stateOf_conversation_id store c.conversation_id, hstore]
      rfl
    rw [Ledger.commit_of_some hbound rfl, ConversationStore.stateOf_put,
      ConversationState.finishTurnAttempt_conversation_id, hcid, if_pos rfl, ht]
    refine ⟨fun m hm hmt => ?_, by rw [ConversationState.finishTurnAttempt_pendingTurn, if_pos rfl]⟩
    rw [ConversationState.finishTurnAttempt_messages] at hm
    -- the messages of the turn are the two that were just added
    rcases List.mem_append.mp hm with hm | hm
    · exact absurd hmt (hno m (List.mem_filter.mp hm).1)
    · rcases List.mem_cons.mp hm with rfl | hm
      · exact ⟨fun _ => rfl, fun h => (nomatch h)⟩
      · rw [List.mem_singleton.mp hm]
        exact ⟨fun h => (nomatch h), fun _ => rfl⟩

/-- With ids that a call can have, a refusal is about the turn: its mark, or its stored question. -/
theorem refusal_own {error : ChatError} (h : Refusal digest s c error)
    (hvalid : validId c.conversation_id = true) (hblank : blank c.conversation_id = false)
    (hb : blank t = false) :
    (∃ e p, error = .store e ∧
      ConversationStore.hasReply (s.store.stateOf c.conversation_id) t = false ∧
      (s.store.stateOf c.conversation_id).pendingTurn t = some p ∧
      ((p.input_digest ≠ digest c.message ∧ e = .turnConflict t) ∨
        (p.input_digest = digest c.message ∧ e = .turnIncomplete t))) ∨
    (error = .store (.turnConflict t) ∧ completedTurnResult (s.store.stateOf c.conversation_id)
      c.message c.conversation_id (some t) = .error (.store (.turnConflict t))) := by
  cases h with
  | context hctx =>
    exfalso
    rcases hctx with hctx | ⟨t', ht', hb'⟩
    · rw [hblank] at hctx
      cases hctx
    · rw [ht] at ht'
      cases ht'
      rw [hb] at hb'
      cases hb'
  | invalid hid =>
    rw [hvalid] at hid
    cases hid
  | marked hattempt hstate =>
    obtain ⟨hmap, hturn⟩ := attempt_ok hattempt
    obtain ⟨a, p, rfl, hnot, hp, hcases⟩ := ConversationStore.beginState_error hstate
    rw [ht] at hmap
    cases hmap
    rw [(hturn a rfl).1] at hcases
    exact Or.inl ⟨_, p, rfl, hnot, hp, hcases⟩
  | stored ht' herr =>
    rw [ht] at ht'
    cases ht'
    exact Or.inr ⟨rfl, herr⟩

/-- A turn that is stored is answered from the store: replayed for its question, in conflict for
    any other. -/
theorem respond_stored (h : Responded digest s c configured outcome s' o)
    (hvalid : validId c.conversation_id = true) (hblank : blank c.conversation_id = false)
    (hb : blank t = false) {message answer : String}
    (hrecord : TurnRecord digest (s.store.stateOf c.conversation_id) t
      (some ⟨message, some answer⟩))
    (hstored : TurnStored (s.store.stateOf c.conversation_id) t) :
    o.consulted = false ∧
      (message = c.message → o.reused = true ∧ ∃ r, o.result = .ok r ∧ r.answer = answer) ∧
      (message ≠ c.message → o.result = .error (.store (.turnConflict t)) ∧ s' = s) := by
  obtain ⟨assistant, user, ha, hat, hu, hut, hyes, hno⟩ :=
    completedTurnResult_stored hstored c.message c.conversation_id
  have hanswer : assistant.content = answer :=
    (hrecord.1 assistant ha (ConversationMessage.isOf_iff.mp hat).1).2
      (ConversationMessage.isOf_iff.mp hat).2
  have hquestion : user.content = message :=
    (hrecord.1 user hu (ConversationMessage.isOf_iff.mp hut).1).1
      (ConversationMessage.isOf_iff.mp hut).2
  have hreply : ConversationStore.hasReply (s.store.stateOf c.conversation_id) t = true :=
    hasReply_iff.mpr hstored.2
  rw [hquestion] at hyes hno
  -- nothing is marked for a turn that has its reply, so the scan sees the stored record
  have hscan : ∀ {attempt store} {ticket : ConversationStore.Ticket}, c.attempt = .ok attempt →
      s.store.beginUpdate digest c.conversation_id attempt c.effect_resolution.isSome =
        .ok (store, ticket) →
      completedTurnResult ticket.state c.message c.conversation_id c.turn_id =
        completedTurnResult (s.store.stateOf c.conversation_id) c.message c.conversation_id
          (some t) := by
    intro attempt store ticket hattempt hbegin
    rcases (begun_own ht hattempt hbegin).2.2 with ⟨-, hsame⟩ | ⟨hnot, -⟩
    · rw [hsame, ht]
    · rw [hreply] at hnot
      cases hnot
  have hfound : completedTurnResult (s.store.stateOf c.conversation_id) c.message
      c.conversation_id (some t) ≠ .ok none := by
    intro hnone
    by_cases hm : message = c.message
    · obtain ⟨r, -, hr⟩ := hyes hm
      rw [hr] at hnone
      cases hnone
    · rw [hno hm] at hnone
      cases hnone
  cases h with
  | refused hrefusal =>
    rcases refusal_own ht hrefusal hvalid hblank hb with ⟨e, p, -, hnot, -⟩ | ⟨rfl, herr⟩
    · rw [hreply] at hnot
      cases hnot
    · refine ⟨rfl, fun hm => ?_, fun _ => ⟨rfl, rfl⟩⟩
      obtain ⟨r, -, hr⟩ := hyes hm
      rw [hr] at herr
      cases herr
  | @replayed attempt store ticket completed _ hattempt hbegin hcompleted =>
    rw [hscan hattempt hbegin] at hcompleted
    refine ⟨rfl, fun hm => ⟨rfl, completed, rfl, ?_⟩, fun hm => ?_⟩
    · obtain ⟨r, hra, hr⟩ := hyes hm
      rw [hr] at hcompleted
      cases hcompleted
      rw [hra, hanswer]
    · rw [hno hm] at hcompleted
      cases hcompleted
  | failed _ hattempt hbegin hcompleted _ =>
    exact absurd ((hscan hattempt hbegin).symm.trans hcompleted) hfound
  | committed _ hattempt hbegin hcompleted _ =>
    exact absurd ((hscan hattempt hbegin).symm.trans hcompleted) hfound

omit ht in
theorem completedTurnResult_not_stored {state : ConversationState} (h : ¬ TurnStored state t)
    (message conversation_id : String) :
    completedTurnResult state message conversation_id (some t) = .ok none := by
  by_cases huser : ∃ m ∈ state.messages, m.isOf t .user = true
  · have hnone : ∀ m ∈ state.messages, m.isOf t .assistant = false := by
      intro m hm
      rw [Bool.eq_false_iff]
      exact fun hmt => h ⟨huser, m, hm, hmt⟩
    exact completedTurnResult_none hnone _ _
  · have hnone : ∀ m ∈ state.messages, m.isOf t .user = false := by
      intro m hm
      rw [Bool.eq_false_iff]
      exact fun hmt => huser ⟨m, hm, hmt⟩
    exact completedTurnResult_none hnone _ _

theorem respond_unstored (h : Responded digest s c configured outcome s' o)
    (hvalid : validId c.conversation_id = true) (hblank : blank c.conversation_id = false)
    (hb : blank t = false)
    (hpending : (s.store.stateOf c.conversation_id).pendingTurn t = none)
    (hstored : ¬ TurnStored (s.store.stateOf c.conversation_id) t) : o.consulted = true := by
  cases h with
  | refused hrefusal =>
    rcases refusal_own ht hrefusal hvalid hblank hb with ⟨e, p, -, -, hp, -⟩ | ⟨rfl, herr⟩
    · rw [hpending] at hp
      cases hp
    · rw [completedTurnResult_not_stored hstored] at herr
      cases herr
  | @replayed attempt store ticket completed _ hattempt hbegin hcompleted =>
    have hlost : ¬ TurnStored ticket.state t := by
      rw [TurnStored, (begun_own ht hattempt hbegin).2.1]
      exact hstored
    rw [ht, completedTurnResult_not_stored hlost] at hcompleted
    cases hcompleted
  | failed | committed => rfl

/-- A turn that is marked and not stored is in conflict with every message of another digest, and
    with no message of its own. -/
theorem respond_marked (h : Responded digest s c configured outcome s' o)
    (hvalid : validId c.conversation_id = true) (hblank : blank c.conversation_id = false)
    (hb : blank t = false) {p : PendingTurn}
    (hno : ∀ m ∈ (s.store.stateOf c.conversation_id).messages, m.turn_id ≠ some t)
    (hp : (s.store.stateOf c.conversation_id).pendingTurn t = some p) :
    (p.input_digest ≠ digest c.message →
      o.result = .error (.store (.turnConflict t)) ∧ o.consulted = false ∧ s' = s) ∧
    (o.result = .error (.store (.turnConflict t)) → o.consulted = false →
      p.input_digest ≠ digest c.message) := by
  have hbegun : ∀ {attempt store} {ticket : ConversationStore.Ticket}, c.attempt = .ok attempt →
      s.store.beginUpdate digest c.conversation_id attempt c.effect_resolution.isSome =
        .ok (store, ticket) → p.input_digest = digest c.message := by
    intro attempt store ticket hattempt hbegin
    rcases (begun_own ht hattempt hbegin).2.2 with ⟨hreply, -⟩ | ⟨-, q, -, hdigest, hsame⟩
    · rw [not_hasReply hno] at hreply
      cases hreply
    · rw [hsame p hp]
      exact hdigest
  cases h with
  | refused hrefusal =>
    rcases refusal_own ht hrefusal hvalid hblank hb with ⟨e, q, rfl, -, hq, hcases⟩ | ⟨rfl, herr⟩
    · rw [hp] at hq
      cases hq
      rcases hcases with ⟨hne, rfl⟩ | ⟨heq, rfl⟩
      · exact ⟨fun _ => ⟨rfl, rfl, rfl⟩, fun _ _ => hne⟩
      · exact ⟨fun hne => absurd heq hne, fun h => nomatch h⟩
    · obtain ⟨t', ht', -, hreply⟩ := completedTurnResult_error herr
      cases ht'
      rw [not_hasReply hno] at hreply
      cases hreply
  | replayed _ hattempt hbegin _ =>
    exact ⟨fun hne => absurd (hbegun hattempt hbegin) hne, fun h => nomatch h⟩
  | failed _ hattempt hbegin _ _ =>
    exact ⟨fun hne => absurd (hbegun hattempt hbegin) hne, fun _ h => nomatch h⟩
  | committed _ hattempt hbegin _ _ =>
    exact ⟨fun hne => absurd (hbegun hattempt hbegin) hne, fun _ h => nomatch h⟩

end

/-! ## Steps -/

variable {settings : ChatAgentSettings}

theorem compress_frame (digest : String → String) (s : ChatRuntime) (id t : String)
    (conversation_id : String) (agent : Option (Except String String))
    {entry : Option (Entry String String)}
    (h : TurnRecord digest (s.store.stateOf id) t entry) :
    TurnRecord digest
      ((compressConversation digest settings s conversation_id agent).1.store.stateOf id) t
      entry := by
  unfold compressConversation
  cases hbegin : s.store.beginUpdate digest conversation_id none false with
  | error error => exact h
  | ok r =>
    obtain ⟨store, ticket⟩ := r
    obtain ⟨-, hstate, hstore, hother, hid, hturn, horiginal⟩ :=
      ConversationStore.beginUpdate_spec hbegin
    have hticket : ticket.state = s.store.stateOf conversation_id := (Except.ok.inj hstate).symm
    rw [hticket] at hstore
    have hsame : ∀ other, store.stateOf other = s.store.stateOf other := by
      intro other
      by_cases hne : other = conversation_id
      · rw [hne, hstore]
      · rw [ConversationStore.stateOf, ConversationStore.stateOf, hother other hne]
    have hcompress : (compressState settings agent (s.store.stateOf conversation_id)).conversation_id
        = ticket.conversation_id := by
      rw [hid, ← s.store.stateOf_conversation_id conversation_id]
      unfold compressState
      split <;> simp [ConversationStore.stateOf_conversation_id]
    dsimp only
    rw [hticket, ConversationStore.commitUpdate_ok hcompress (by rw [hid, horiginal]), hturn]
    show TurnRecord digest ((store.put (compressState settings agent
      (s.store.stateOf conversation_id))).stateOf id) t entry
    rw [ConversationStore.stateOf_put, hcompress, hid, hsame]
    by_cases hne : id = conversation_id
    · rw [if_pos hne]
      rw [hne] at h
      refine h.frame (fun m hm _ => ?_) ?_
      · unfold compressState at hm
        split at hm
        · exact hm
        · exact List.mem_of_mem_drop hm
      · unfold compressState
        split <;> rfl
    · rw [if_neg hne]
      exact h

/-- The runtime with the ledger of what its calls did. -/
def watchedStep (digest : String → String) (settings : ChatAgentSettings) :
    ChatRuntime × TurnLedger → ChatInput → (ChatRuntime × TurnLedger) × ChatOutput :=
  watched (chatStep digest settings) seeTurn

/-- The condition on a step. -/
def TurnsIntact (digest : String → String) (s : ChatRuntime × TurnLedger) : ChatInput → Prop
  | .respond c _ _ => TurnIntact digest s.1 s.2 c
  | .compress _ _ => True

/-- The caller of a stable turn gets what the ledger says: the committed reply, without running the
    model, for the turn's message, and a conflict that leaves the stored record for any other. -/
def TurnFaithful (e : Step (ChatRuntime × TurnLedger) ChatInput ChatOutput) : Prop :=
  match e.input, e.output with
  | .respond c _ _, .responded o =>
    ∀ t, c.turn_id = some t →
      match e.before.2.consult (c.conversation_id, t) c.message with
      | .replay answer =>
        o.consulted = false ∧ o.reused = true ∧ ∃ r, o.result = .ok r ∧ r.answer = answer
      | .conflict =>
        o.consulted = false ∧ o.result = .error (.store (.turnConflict t)) ∧
          e.after.1.store.get c.conversation_id = e.before.1.store.get c.conversation_id
      | .fresh => True
      | .unfinished => True
  | _, _ => True

theorem seeTurn_respond (l : TurnLedger) (s s' : ChatRuntime) (c : RespondCall)
    (configured : Bool) (outcome : ModelOutcome) (o : RespondOutput) :
    seeTurn l ⟨s, .respond c configured outcome, .responded o, s'⟩ =
      match c.turn_id with
      | none => l
      | some t => seeCall l c t o := by
  cases ht : c.turn_id <;> simp [seeTurn, seeCall, ht]

theorem seeCall_ne (l : TurnLedger) (c : RespondCall) (t : String) (o : RespondOutput)
    {k : String × String} (hk : k ≠ (c.conversation_id, t)) : seeCall l c t o k = l k := by
  unfold seeCall
  split
  · cases o.committed with
    | none => exact Ledger.bind_ne hk
    | some answer => exact (Ledger.commit_ne hk).trans (Ledger.bind_ne hk)
  · rfl

theorem accepted_key {o : RespondOutput} (h : Responded digest s c configured outcome s' o)
    (haccepted : o.accepted = true) {t : String} (ht : c.turn_id = some t) :
    validId c.conversation_id = true ∧ blank c.conversation_id = false ∧ blank t = false := by
  have key : ∀ {attempt store} {ticket : ConversationStore.Ticket}, c.attempt = .ok attempt →
      s.store.beginUpdate digest c.conversation_id attempt c.effect_resolution.isSome =
        .ok (store, ticket) → validId c.conversation_id = true ∧ blank t = false := by
    intro attempt store ticket hattempt hbegin
    obtain ⟨hmap, hturn⟩ := attempt_ok hattempt
    cases attempt with
    | none => rw [ht] at hmap; cases hmap
    | some turn =>
      rw [ht] at hmap
      cases hmap
      exact ⟨(ConversationStore.beginUpdate_spec hbegin).1, (hturn turn rfl).2⟩
  cases h with
  | refused hrefusal => cases hrefusal <;> cases haccepted
  | replayed hcontext hattempt hbegin _ =>
    exact ⟨(key hattempt hbegin).1, hcontext, (key hattempt hbegin).2⟩
  | failed hcontext hattempt hbegin _ _ =>
    exact ⟨(key hattempt hbegin).1, hcontext, (key hattempt hbegin).2⟩
  | committed hcontext hattempt hbegin _ _ =>
    exact ⟨(key hattempt hbegin).1, hcontext, (key hattempt hbegin).2⟩

/-- **A step under the condition keeps the records true to the ledger.** -/
theorem turnInv_step (s : ChatRuntime × TurnLedger) (i : ChatInput)
    (hinv : TurnInv digest s.1 s.2) (hok : TurnsIntact digest s i) :
    TurnInv digest (watchedStep digest settings s i).1.1 (watchedStep digest settings s i).1.2 := by
  obtain ⟨s, l⟩ := s
  cases i with
  | compress conversation_id agent =>
    exact ⟨fun id t => compress_frame digest s id t conversation_id agent (hinv.record id t),
      hinv.key⟩
  | respond c configured outcome =>
    have hcases := respond_cases digest s c configured outcome
    simp only [watchedStep, watched, chatStep, seeTurn_respond]
    generalize (respond digest s c configured outcome).2 = o at hcases
    generalize (respond digest s c configured outcome).1 = s' at hcases
    cases ht : c.turn_id with
    | none =>
      refine ⟨fun id t => respond_frame hcases ?_ (hinv.record id t), hinv.key⟩
      rintro ⟨-, hsome⟩
      rw [ht] at hsome
      cases hsome
    | some t =>
      dsimp only
      constructor
      · intro id t'
        by_cases hk : (id, t') = (c.conversation_id, t)
        · cases hk
          exact respond_own ht hcases (hinv.record _ _) hok
        · rw [seeCall_ne l c t o hk]
          refine respond_frame hcases ?_ (hinv.record id t')
          rintro ⟨rfl, hsome⟩
          rw [ht] at hsome
          cases hsome
          exact hk rfl
      · intro id t' e he
        by_cases hk : (id, t') = (c.conversation_id, t)
        · cases hk
          cases hacc : o.accepted with
          | true => exact accepted_key hcases hacc ht
          | false =>
            rw [seeCall, hacc] at he
            exact hinv.key _ _ _ he
        · rw [seeCall_ne l c t o hk] at he
          exact hinv.key id t' e he

/-- What a verdict of the ledger asks of the call. -/
def VerdictKept (s s' : ChatRuntime) (c : RespondCall) (t : String) (o : RespondOutput) :
    Verdict String → Prop
  | .replay answer =>
    o.consulted = false ∧ o.reused = true ∧ ∃ r, o.result = .ok r ∧ r.answer = answer
  | .conflict =>
    o.consulted = false ∧ o.result = .error (.store (.turnConflict t)) ∧
      s'.store.get c.conversation_id = s.store.get c.conversation_id
  | .fresh => True
  | .unfinished => True

section

variable {l : TurnLedger} {t message : String} {o : RespondOutput} (ht : c.turn_id = some t)
  (hcases : Responded digest s c configured outcome s' o) (hinv : TurnInv digest s l)

include ht hcases hinv

/-- A turn without a reply: its verdict is kept for its message, and for every message of another
    digest. -/
theorem verdict_pending_iff (hentry : l (c.conversation_id, t) = some ⟨message, none⟩) :
    VerdictKept s s' c t o (l.consult (c.conversation_id, t) c.message) ↔
      message = c.message ∨ digest message ≠ digest c.message := by
  obtain ⟨hvalid, hblank, hb⟩ := hinv.key _ _ _ hentry
  have hrecord := hinv.record c.conversation_id t
  rw [hentry] at hrecord
  obtain ⟨hno, p, hp, hpd⟩ := hrecord
  obtain ⟨hconflict, hback⟩ := respond_marked ht hcases hvalid hblank hb hno hp
  rw [hpd] at hconflict hback
  by_cases hm : message = c.message
  · rw [Ledger.consult, hentry]
    simp only [hm, ne_eq, not_true_eq_false, if_false]
    exact ⟨fun _ => Or.inl trivial, fun _ => trivial⟩
  · rw [Ledger.consult, hentry]
    simp only [ne_eq, hm, not_false_eq_true, if_true, false_or]
    constructor
    · rintro ⟨hcons, hres, -⟩
      exact hback hres hcons
    · intro hne
      obtain ⟨hres, hcons, rfl⟩ := hconflict hne
      exact ⟨hcons, hres, rfl⟩

/-- A turn that has its reply: its verdict is kept when the turn is stored. -/
theorem verdict_replied_iff {answer : String}
    (hentry : l (c.conversation_id, t) = some ⟨message, some answer⟩) :
    VerdictKept s s' c t o (l.consult (c.conversation_id, t) c.message) ↔
      TurnStored (s.store.stateOf c.conversation_id) t := by
  obtain ⟨hvalid, hblank, hb⟩ := hinv.key _ _ _ hentry
  have hrecord := hinv.record c.conversation_id t
  rw [hentry] at hrecord
  have hverdict : l.consult (c.conversation_id, t) c.message =
      if message ≠ c.message then .conflict else .replay answer := by
    rw [Ledger.consult, hentry]
  rw [hverdict]
  by_cases hstored : TurnStored (s.store.stateOf c.conversation_id) t
  · obtain ⟨hcons, hyes, hno⟩ := respond_stored ht hcases hvalid hblank hb hrecord hstored
    refine iff_of_true ?_ hstored
    by_cases hm : message = c.message
    · rw [if_neg (not_not.mpr hm)]
      exact ⟨hcons, hyes hm⟩
    · obtain ⟨hres, rfl⟩ := hno hm
      rw [if_pos hm]
      exact ⟨hcons, hres, rfl⟩
  · -- the model runs, whatever the verdict was
    have hcons := respond_unstored ht hcases hvalid hblank hb hrecord.2 hstored
    refine iff_of_false (fun hkept => ?_) hstored
    by_cases hm : message = c.message
    · rw [if_neg (not_not.mpr hm)] at hkept
      cases hcons.symm.trans hkept.1
    · rw [if_pos hm] at hkept
      cases hcons.symm.trans hkept.1

end

/-- **A step is faithful exactly under the condition.** -/
theorem turnFaithful_iff (e : Step (ChatRuntime × TurnLedger) ChatInput ChatOutput)
    (he : e.Of (watchedStep digest settings)) (hinv : TurnInv digest e.before.1 e.before.2) :
    TurnFaithful e ↔ TurnsIntact digest e.before e.input := by
  obtain ⟨⟨s, l⟩, i, o, ⟨s', l'⟩⟩ := e
  have hstep : watchedStep digest settings (s, l) i = ((s', l'), o) := he
  cases i with
  | compress conversation_id agent => exact ⟨fun _ => trivial, fun _ => trivial⟩
  | respond c configured outcome =>
    have hcases := respond_cases digest s c configured outcome
    have hs' : (respond digest s c configured outcome).1 = s' :=
      congrArg (fun r => r.1.1) hstep
    have ho : ChatOutput.responded (respond digest s c configured outcome).2 = o :=
      congrArg (fun r => r.2) hstep
    rw [hs'] at hcases
    subst ho
    generalize (respond digest s c configured outcome).2 = o at hcases
    show (∀ t, c.turn_id = some t →
      VerdictKept s s' c t o (l.consult (c.conversation_id, t) c.message)) ↔ TurnIntact digest s l c
    -- both sides speak about the entry of the call's turn
    have hentry : ∀ t, c.turn_id = some t →
        (VerdictKept s s' c t o (l.consult (c.conversation_id, t) c.message) ↔
          ∀ entry, l (c.conversation_id, t) = some entry →
            match entry.reply with
            | some _ => TurnStored (s.store.stateOf c.conversation_id) t
            | none => entry.message = c.message ∨ digest entry.message ≠ digest c.message) := by
      intro t ht
      cases hl : l (c.conversation_id, t) with
      | none =>
        rw [Ledger.consult, hl]
        exact ⟨fun _ _ h => (by cases h), fun _ => trivial⟩
      | some entry =>
        obtain ⟨message, reply⟩ := entry
        simp only [Option.some.injEq, forall_eq']
        cases reply with
        | none => exact verdict_pending_iff ht hcases hinv hl
        | some answer => exact verdict_replied_iff ht hcases hinv hl
    constructor
    · intro h t entry ht
      exact (hentry t ht).mp (h t ht) entry
    · intro h t ht
      exact (hentry t ht).mpr fun entry => h t entry ht

/-! ## Runs -/

/-- Whether a step commits a reply for the turn. -/
def commitsTurn (k : String × String) (e : Step (ChatRuntime × TurnLedger) ChatInput ChatOutput) :
    Bool :=
  match e.input, e.output with
  | .respond c _ _, .responded o =>
    decide (c.turn_id.map (fun t => (c.conversation_id, t)) = some k) && o.committed.isSome
  | _, _ => false

/-- Exactly-once turns: every caller gets what the ledger says, and no turn gets a second reply. -/
def ExactlyOnce (steps : List (Step (ChatRuntime × TurnLedger) ChatInput ChatOutput)) : Prop :=
  (∀ e ∈ steps, TurnFaithful e) ∧ ∀ k, steps.countP (commitsTurn k) ≤ 1

theorem committed_accepted {o : RespondOutput} {answer : String} (h : o.committed = some answer) :
    o.accepted = true ∧ o.reused = false ∧ ∃ r, o.result = .ok r := by
  unfold RespondOutput.committed at h
  split at h
  · rename_i r hr
    split at h
    · cases h
    · rename_i hreused
      exact ⟨by simp [RespondOutput.accepted, hr], by simpa using hreused, r, hr⟩
  · cases h

/-- A faithful step commits a reply only for a turn that has none, and then the turn has it for
    ever. -/
theorem commitsTurn_step {k : String × String}
    (e : Step (ChatRuntime × TurnLedger) ChatInput ChatOutput)
    (he : e.Of (watchedStep digest settings)) (hfaithful : TurnFaithful e) :
    (e.before.2.Replied k → commitsTurn k e = false ∧ e.after.2.Replied k) ∧
      (commitsTurn k e = true → e.after.2.Replied k) := by
  obtain ⟨⟨s, l⟩, i, o, ⟨s', l'⟩⟩ := e
  have hl : l' = seeTurn l ⟨s, i, (chatStep digest settings s i).2, (chatStep digest settings s i).1⟩ :=
    (congrArg (fun r => r.1.2) (he : watchedStep digest settings (s, l) i = ((s', l'), o))).symm
  have ho : (chatStep digest settings s i).2 = o :=
    congrArg (fun r => r.2) (he : watchedStep digest settings (s, l) i = ((s', l'), o))
  rw [ho] at hl
  cases i with
  | compress conversation_id agent =>
    have hsame : l' = l := by rw [hl, ← ho]; rfl
    refine ⟨fun hk => ⟨rfl, by rw [hsame]; exact hk⟩, fun h => nomatch h⟩
  | respond c configured outcome =>
    subst ho
    simp only [chatStep] at hl hfaithful ⊢
    generalize (respond digest s c configured outcome).2 = o at hl hfaithful ⊢
    rw [seeTurn_respond] at hl
    cases ht : c.turn_id with
    | none =>
      rw [ht] at hl
      refine ⟨fun hk => ⟨by simp [commitsTurn, ht], by rw [hl]; exact hk⟩, fun h => ?_⟩
      simp [commitsTurn, ht] at h
    | some t =>
      rw [ht] at hl
      have hfaithful := hfaithful t ht
      have hkeep : l.Replied k → l'.Replied k := by
        intro hk
        rw [hl]
        dsimp only
        unfold seeCall
        split
        · cases o.committed with
          | none => exact hk.bind _ _
          | some answer => exact (hk.bind _ _).commit _ _
        · exact hk
      constructor
      · intro hk
        refine ⟨?_, hkeep hk⟩
        cases hcommits : commitsTurn k ⟨(s, l), .respond c configured outcome, .responded o,
            (s', l')⟩ with
        | false => rfl
        | true =>
          -- the ledger would have said replay or conflict
          exfalso
          simp only [commitsTurn, ht, Option.map_some, Option.some.injEq, Bool.and_eq_true,
            decide_eq_true_eq] at hcommits
          obtain ⟨rfl, hsome⟩ := hcommits
          obtain ⟨answer, hanswer⟩ := Option.isSome_iff_exists.mp hsome
          obtain ⟨-, hreused, r, hr⟩ := committed_accepted hanswer
          rcases Ledger.consult_of_replied hk c.message with hv | ⟨a, hv⟩
          · dsimp only at hfaithful
            rw [hv] at hfaithful
            rw [hr] at hfaithful
            exact nomatch hfaithful.2.1
          · dsimp only at hfaithful
            rw [hv] at hfaithful
            rw [hreused] at hfaithful
            exact nomatch hfaithful.2.1
      · intro hcommits
        simp only [commitsTurn, ht, Option.map_some, Option.some.injEq, Bool.and_eq_true,
          decide_eq_true_eq] at hcommits
        obtain ⟨rfl, hsome⟩ := hcommits
        obtain ⟨answer, hanswer⟩ := Option.isSome_iff_exists.mp hsome
        show l'.Replied (c.conversation_id, t)
        rw [hl]
        simp only [seeCall, (committed_accepted hanswer).1, hanswer, if_true]
        cases hentry : l (c.conversation_id, t) with
        | none => exact Ledger.replied_commit (Ledger.bind_of_none hentry) answer
        | some entry => exact Ledger.replied_commit (Ledger.bind_of_some hentry) answer

/-- In a run of faithful steps a turn gets at most one reply, and none once it has one. -/
theorem commitsTurn_run (k : String × String) :
    ∀ (inputs : List ChatInput) (s : ChatRuntime × TurnLedger),
      (∀ e ∈ run (watchedStep digest settings) s inputs, TurnFaithful e) →
      (run (watchedStep digest settings) s inputs).countP (commitsTurn k) ≤ 1 ∧
        (s.2.Replied k → (run (watchedStep digest settings) s inputs).countP (commitsTurn k) = 0)
  | [], _, _ => ⟨Nat.zero_le 1, fun _ => rfl⟩
  | i :: inputs, s, h => by
    simp only [run, List.forall_mem_cons] at h ⊢
    obtain ⟨hfirst, hrest⟩ := h
    have hof : Step.Of (watchedStep digest settings) ⟨s, i, (watchedStep digest settings s i).2,
        (watchedStep digest settings s i).1⟩ := rfl
    obtain ⟨hkeep, hnew⟩ := commitsTurn_step (k := k) _ hof hfirst
    obtain ⟨hle, hzero⟩ := commitsTurn_run k inputs _ hrest
    rw [List.countP_cons]
    constructor
    · split
      · rename_i hcommits
        rw [hzero (hnew hcommits)]
      · omega
    · intro hk
      obtain ⟨hnot, hafter⟩ := hkeep hk
      rw [hzero hafter, hnot]
      rfl

/-- **When turns are exactly once**: in every run of turns and compressions, every retry of a
    committed turn is answered from the store, every other message under a bound turn is in
    conflict, and no turn is answered twice, exactly when every call finds the question and the
    reply of its committed turn among the stored messages and no other message shares the digest
    of its bound turn. -/
theorem exactly_once_iff (digest : String → String) (settings : ChatAgentSettings)
    (inputs : List ChatInput) :
    ExactlyOnce (run (watchedStep digest settings) (ChatRuntime.empty, Ledger.empty) inputs) ↔
      ∀ e ∈ run (watchedStep digest settings) (ChatRuntime.empty, Ledger.empty) inputs,
        TurnsIntact digest e.before e.input := by
  rw [← run_forall_iff turnInv_step turnFaithful_iff
    (ChatRuntime.empty, Ledger.empty) inputs turnInv_empty]
  constructor
  · exact fun h => h.1
  · exact fun h => ⟨h, fun k => (commitsTurn_run k inputs _ h).1⟩

/-- The smallest context window that the configuration allows. -/
def smallWindow : ChatAgentSettings where
  recent_messages := 1
  summary_trigger_messages := 3
  summary_target_chars := 100
  recent_pos := by decide

/-- The digests of two messages. -/
def sampleDigest (message : String) : String :=
  if message = "hello" then "2cf24dba5fb0a30e26e83b2ac5b9e29e1b161e5c1fa7425e73043362938b9824"
  else if message = "more" then
    "187897ce0afcf20b50ba2b37dca84a951b7046f29ed5ab94f010619f69d6e189"
  else ""

/-- Two turns, a compression that keeps one message, and a retry of the first turn. -/
def retryAfterCompression : List ChatInput :=
  [.respond { message := "hello", turn_id := some "t1" } true (.answer { answer := "hi" }),
    .respond { message := "more", turn_id := some "t2" } true (.answer { answer := "yes" }),
    .compress "default" none,
    .respond { message := "hello", turn_id := some "t1" } true (.answer { answer := "hi again" })]

/-- Compression drops a committed turn, and its retry runs the model and commits a second reply. -/
theorem exactly_once_fails : ¬ ∀ inputs : List ChatInput,
    ExactlyOnce (run (watchedStep sampleDigest smallWindow) (ChatRuntime.empty, Ledger.empty)
      inputs) := by
  intro h
  have hcount := (h retryAfterCompression).2 ("default", "t1")
  have htwo : (run (watchedStep sampleDigest smallWindow) (ChatRuntime.empty, Ledger.empty)
      retryAfterCompression).countP (commitsTurn ("default", "t1")) = 2 := by decide
  omega

end NuSelf.Chat
