/-
  Conversations: messages, pending turns, and the state of one conversation.

  A stable turn is marked as pending, with a digest of its input, before its execution, and the
  mark is removed by the commit of its reply.  The digest (the hexadecimal SHA-256 of the message)
  is a parameter of this development.  The checks of the constructors and of the wire decoder are
  fields: a state whose indexes do not count its messages, or that marks one turn twice, cannot be
  built.
-/
import Mathlib.Data.List.Nodup

namespace NuSelf.Conversation

inductive ConversationRole where
  | user | assistant
  deriving DecidableEq, Repr

def ConversationRole.text : ConversationRole → String
  | .user => "user"
  | .assistant => "assistant"

structure ConversationMessage where
  role : ConversationRole
  content : String
  turn_id : Option String := none
  deriving DecidableEq

/-- A message of the turn in the role. -/
def ConversationMessage.isOf (turn_id : String) (role : ConversationRole)
    (m : ConversationMessage) : Bool :=
  decide (m.turn_id = some turn_id ∧ m.role = role)

theorem ConversationMessage.isOf_iff {turn_id : String} {role : ConversationRole}
    {m : ConversationMessage} :
    m.isOf turn_id role = true ↔ m.turn_id = some turn_id ∧ m.role = role :=
  decide_eq_true_iff

structure PendingTurn where
  turn_id : String
  input_digest : String
  turn_id_nonempty : turn_id ≠ ""
  deriving DecidableEq

structure ConversationState where
  conversation_id : String
  summary : String := ""
  messages : List ConversationMessage := []
  message_start_index : Nat := 0
  next_message_index : Nat := 0
  archived : Bool := false
  pending_turns : List PendingTurn := []
  indexes : next_message_index = message_start_index + messages.length
  pending_unique : (pending_turns.map PendingTurn.turn_id).Nodup
  deriving DecidableEq

/-- `CompletedTurn`: where a committed turn stands in its conversation. -/
structure CompletedTurn where
  conversation_id : String
  start_index : Nat
  end_index : Nat
  user_content : String
  assistant_content : String
  turn_id : Option String
  deriving DecidableEq

namespace ConversationState

def empty (conversation_id : String) : ConversationState where
  conversation_id := conversation_id
  messages := []
  pending_turns := []
  indexes := rfl
  pending_unique := List.nodup_nil

/-- A turn that has not begun has no mark. -/
def pendingTurn (s : ConversationState) (turn_id : String) : Option PendingTurn :=
  s.pending_turns.find? fun p => decide (p.turn_id = turn_id)

theorem pendingTurn_eq_some {s : ConversationState} {turn_id : String} {p : PendingTurn} :
    s.pendingTurn turn_id = some p ↔ p ∈ s.pending_turns ∧ p.turn_id = turn_id := by
  constructor
  · intro h
    exact ⟨List.mem_of_find?_eq_some h, by simpa using List.find?_some h⟩
  · rintro ⟨hmem, hid⟩
    cases hfind : s.pendingTurn turn_id with
    | none =>
      have hnone := List.find?_eq_none.mp hfind p hmem
      simp [hid] at hnone
    | some q =>
      have hq : q ∈ s.pending_turns := List.mem_of_find?_eq_some hfind
      have hqid : q.turn_id = turn_id := by simpa using List.find?_some hfind
      rw [List.inj_on_of_nodup_map s.pending_unique hq hmem (hqid.trans hid.symm)]

theorem pendingTurn_eq_none {s : ConversationState} {turn_id : String} :
    s.pendingTurn turn_id = none ↔ ∀ p ∈ s.pending_turns, p.turn_id ≠ turn_id := by
  simp [pendingTurn, List.find?_eq_none]

/-- `(*state.pending_turns, attempted)` for a turn without a mark. -/
def mark (s : ConversationState) (p : PendingTurn) (h : s.pendingTurn p.turn_id = none) :
    ConversationState :=
  { s with
    pending_turns := s.pending_turns ++ [p]
    pending_unique := by
      rw [List.map_append, List.nodup_append']
      refine ⟨s.pending_unique, List.nodup_singleton _, fun t ht ht' => ?_⟩
      obtain ⟨q, hq, rfl⟩ := List.mem_map.mp ht
      exact pendingTurn_eq_none.mp h q hq (by simpa using ht') }

/-- `_finish_turn_attempt(state, turn_id)`. -/
def finishTurnAttempt (s : ConversationState) (turn_id : Option String) : ConversationState :=
  match turn_id with
  | none => s
  | some t =>
    { s with
      pending_turns := s.pending_turns.filter fun p => decide (p.turn_id ≠ t)
      pending_unique := s.pending_unique.sublist (List.filter_sublist.map _) }

@[simp]
theorem finishTurnAttempt_messages (s : ConversationState) (turn_id : Option String) :
    (s.finishTurnAttempt turn_id).messages = s.messages := by
  cases turn_id <;> rfl

@[simp]
theorem finishTurnAttempt_conversation_id (s : ConversationState) (turn_id : Option String) :
    (s.finishTurnAttempt turn_id).conversation_id = s.conversation_id := by
  cases turn_id <;> rfl

theorem mark_pendingTurn (s : ConversationState) (p : PendingTurn)
    (h : s.pendingTurn p.turn_id = none) (turn_id : String) :
    (s.mark p h).pendingTurn turn_id =
      if turn_id = p.turn_id then some p else s.pendingTurn turn_id := by
  by_cases ht : turn_id = p.turn_id
  · rw [if_pos ht, pendingTurn_eq_some]
    exact ⟨List.mem_append_right _ List.mem_cons_self, ht.symm⟩
  · rw [if_neg ht]
    have hne : ¬ p.turn_id = turn_id := fun h => ht h.symm
    simp [pendingTurn, mark, hne]

theorem finishTurnAttempt_pendingTurn (s : ConversationState) (t turn_id : String) :
    (s.finishTurnAttempt (some t)).pendingTurn turn_id =
      if turn_id = t then none else s.pendingTurn turn_id := by
  by_cases ht : turn_id = t
  · rw [if_pos ht, pendingTurn_eq_none]
    intro p hp
    have hpt := (List.mem_filter.mp hp).2
    simpa [ht] using hpt
  · rw [if_neg ht]
    cases hold : s.pendingTurn turn_id with
    | none =>
      rw [pendingTurn_eq_none] at hold ⊢
      exact fun p hp => hold p (List.mem_filter.mp hp).1
    | some p =>
      rw [pendingTurn_eq_some] at hold ⊢
      refine ⟨List.mem_filter.mpr ⟨hold.1, ?_⟩, hold.2⟩
      simpa [hold.2] using ht

end ConversationState
end NuSelf.Conversation
