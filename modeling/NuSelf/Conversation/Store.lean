/-
  The conversation store: one record per conversation, every mutation under the conversation's lock.

  The store is a keyed table whose rows carry their own key (`keyed`), since every write goes
  through `_save_unlocked`.  Each locked mutation is one function on the table.  `update` alone has
  two transactions around its callback; it is modelled by its two halves, `beginUpdate` and
  `commitUpdate`, with the ticket that it keeps between them.

  Every operation has one lemma that says which records it changes (`get_*`); the theorems about
  runs use those and never look into an operation again.
-/
import Mathlib.Data.List.Sort
import NuSelf.Conversation.Model
import NuSelf.Lib.Table

namespace NuSelf.Conversation

open NuSelf.Lib

inductive StoreError where
  | invalidId (conversation_id : String)
  | notFound (conversation_id : String)
  | sourceNotFound (conversation_id : String)
  | alreadyExists (conversation_id : String)
  | archivedNotFound (conversation_id : String)
  | archivedExists (conversation_id : String)
  | branchIndex (index : Int) (count : Nat)
  | identityChanged
  | changedConcurrently
  | turnConflict (turn_id : String)
  | turnIncomplete (turn_id : String)
  deriving DecidableEq

/-- The text of the error; `quote` is the quoting of `{turn_id!r}`. -/
def StoreError.text (quote : String → String) : StoreError → String
  | .invalidId id => "invalid conversation id: " ++ id
  | .notFound id => "conversation not found: " ++ id
  | .sourceNotFound id => "source conversation not found: " ++ id
  | .alreadyExists id => "conversation already exists: " ++ id
  | .archivedNotFound id => "archived conversation not found: " ++ id
  | .archivedExists id => "archived conversation already exists: " ++ id
  | .branchIndex index count =>
    "branch index " ++ toString index ++ " out of range (0.." ++ toString count ++ ")"
  | .identityChanged => "conversation update cannot change conversation identity"
  | .changedConcurrently => "conversation changed concurrently; retry the turn"
  | .turnConflict turn_id =>
    "turn ID " ++ quote turn_id ++ " is already bound to different input"
  | .turnIncomplete turn_id => "turn ID " ++ quote turn_id ++ " has an unfinished prior execution"

/-- The ids that `_validate_id` accepts. -/
def validId (conversation_id : String) : Bool :=
  decide (conversation_id ≠ "") && !conversation_id.toList.contains '/' &&
    !conversation_id.toList.contains '\\' && decide (conversation_id ≠ ".") &&
    decide (conversation_id ≠ "..")

structure ConversationStore where
  records : Table String ConversationState
  /-- A record is stored under its own id. -/
  keyed : ∀ id s, records.get id = some s → s.conversation_id = id

namespace ConversationStore

def empty : ConversationStore := ⟨Table.empty, fun _ _ h => nomatch h⟩

variable (store : ConversationStore)

/-- The stored record of a conversation. -/
def get (conversation_id : String) : Option ConversationState := store.records.get conversation_id

/-- The record `load` works on: a conversation without a record is an empty one. -/
def stateOf (conversation_id : String) : ConversationState :=
  (store.get conversation_id).getD (.empty conversation_id)

/-- `_save_unlocked(state)`. -/
def put (state : ConversationState) : ConversationStore where
  records := store.records.set state.conversation_id state
  keyed := by
    intro id s h
    rw [Table.get_set] at h
    split at h
    · rename_i hid
      cases h
      exact hid.symm
    · exact store.keyed id s h

/-- `collection.delete(conversation_id)`. -/
def remove (conversation_id : String) : ConversationStore where
  records := store.records.erase conversation_id
  keyed := by
    intro id s h
    rw [Table.get_erase] at h
    split at h
    · cases h
    · exact store.keyed id s h

theorem get_put (state : ConversationState) (id : String) :
    (store.put state).get id = if id = state.conversation_id then some state else store.get id :=
  Table.get_set store.records _ _ _

theorem get_remove (conversation_id id : String) :
    (store.remove conversation_id).get id = if id = conversation_id then none else store.get id :=
  Table.get_erase store.records _ _

/-! ## Reading -/

def load (conversation_id : String) : Except StoreError ConversationState :=
  if validId conversation_id = false then .error (.invalidId conversation_id)
  else .ok (store.stateOf conversation_id)

/-- `sorted(...)` on ids. -/
def sortedIds (ids : List String) : List String := ids.insertionSort fun a b => a ≤ b

def list : List String :=
  sortedIds ((store.records.rows.filter fun r => !r.2.archived).map fun r => r.2.conversation_id)

def listArchived : List String :=
  sortedIds ((store.records.rows.filter fun r => r.2.archived).map fun r => r.2.conversation_id)

theorem mem_sorted_filter {p : ConversationState → Bool} {id : String} :
    id ∈ sortedIds ((store.records.rows.filter fun r => p r.2).map fun r => r.2.conversation_id) ↔
      ∃ s, store.get id = some s ∧ p s = true := by
  simp only [sortedIds, List.mem_insertionSort, List.mem_map, List.mem_filter, Prod.exists,
    Table.mem_rows_iff]
  constructor
  · rintro ⟨key, s, ⟨hget, hp⟩, rfl⟩
    rw [store.keyed key s hget]
    exact ⟨s, hget, hp⟩
  · rintro ⟨s, hget, hp⟩
    exact ⟨id, s, ⟨hget, hp⟩, store.keyed id s hget⟩

theorem mem_list_iff {id : String} :
    id ∈ store.list ↔ ∃ s, store.get id = some s ∧ s.archived = false := by
  rw [list, mem_sorted_filter (p := fun s => !s.archived)]
  simp

/-! ## Writing -/

def save (state : ConversationState) : Except StoreError ConversationStore :=
  if validId state.conversation_id = false then .error (.invalidId state.conversation_id)
  else .ok (store.put state)

def rename (old_conversation_id new_conversation_id : String) :
    Except StoreError ConversationStore :=
  if old_conversation_id = new_conversation_id then .ok store
  else if validId old_conversation_id = false then .error (.invalidId old_conversation_id)
  else if validId new_conversation_id = false then .error (.invalidId new_conversation_id)
  else
    match store.get old_conversation_id with
    | none => .error (.notFound old_conversation_id)
    | some state =>
      if (store.get new_conversation_id).isSome = true then
        .error (.alreadyExists new_conversation_id)
      else
        .ok ((store.put { state with conversation_id := new_conversation_id }).remove
          old_conversation_id)

/-- The first `count` messages of a conversation as a conversation of their own. -/
def branchOf (source : ConversationState) (new_conversation_id : String) (count : Nat)
    (h : count ≤ source.messages.length) : ConversationState where
  conversation_id := new_conversation_id
  summary := source.summary
  messages := source.messages.take count
  message_start_index := source.message_start_index
  next_message_index := source.message_start_index + count
  pending_turns := []
  indexes := by rw [List.length_take, Nat.min_eq_left h]
  pending_unique := List.nodup_nil

def branch (source_conversation_id new_conversation_id : String) (message_index : Option Int) :
    Except StoreError (ConversationStore × ConversationState) :=
  if validId source_conversation_id = false then .error (.invalidId source_conversation_id)
  else if validId new_conversation_id = false then .error (.invalidId new_conversation_id)
  else
    match store.get source_conversation_id with
    | none => .error (.sourceNotFound source_conversation_id)
    | some source =>
      if (store.get new_conversation_id).isSome = true then
        .error (.alreadyExists new_conversation_id)
      else
        let branch_index := message_index.getD source.messages.length
        if h : branch_index < 0 ∨ (source.messages.length : Int) < branch_index then
          .error (.branchIndex branch_index source.messages.length)
        else
          let branched := branchOf source new_conversation_id branch_index.toNat (by omega)
          .ok (store.put branched, branched)

def archive (conversation_id : String) : Except StoreError ConversationStore :=
  if validId conversation_id = false then .error (.invalidId conversation_id)
  else
    match store.get conversation_id with
    | none => .error (.notFound conversation_id)
    | some state =>
      if state.archived = true then .error (.archivedExists conversation_id)
      else .ok (store.put { state with archived := true })

def unarchive (conversation_id : String) : Except StoreError ConversationStore :=
  if validId conversation_id = false then .error (.invalidId conversation_id)
  else
    match store.get conversation_id with
    | none => .error (.archivedNotFound conversation_id)
    | some state =>
      if state.archived = false then .error (.alreadyExists conversation_id)
      else .ok (store.put { state with archived := false })

def delete (conversation_id : String) : Except StoreError ConversationStore :=
  if validId conversation_id = false then .error (.invalidId conversation_id)
  else if (store.get conversation_id).isNone = true then .error (.notFound conversation_id)
  else .ok (store.remove conversation_id)

/-! ### What a write changes -/

variable {store} {store' : ConversationStore}

theorem get_save {state : ConversationState} (h : store.save state = .ok store') (id : String) :
    store'.get id = if id = state.conversation_id then some state else store.get id := by
  unfold save at h
  split at h
  · cases h
  · cases h
    exact store.get_put state id

theorem get_rename {old new : String} (h : store.rename old new = .ok store') (hne : old ≠ new) :
    ∃ state, store.get old = some state ∧ store.get new = none ∧ ∀ id, store'.get id =
      if id = old then none
      else if id = new then some { state with conversation_id := new } else store.get id := by
  unfold rename at h
  rw [if_neg hne] at h
  split at h
  · cases h
  split at h
  · cases h
  split at h
  · cases h
  · rename_i state hstate
    split at h
    · cases h
    · rename_i hnew
      cases h
      refine ⟨state, hstate, by simpa using hnew, fun id => ?_⟩
      rw [get_remove, get_put]

/-- **What a branch is**: the first messages of a stored conversation, under a new id. -/
theorem branch_ok {source new : String} {index : Option Int} {branched : ConversationState}
    (h : store.branch source new index = .ok (store', branched)) :
    ∃ state n hn, store.get source = some state ∧ store.get new = none ∧
      branched = branchOf state new n hn ∧ store' = store.put branched := by
  unfold branch at h
  split at h
  · cases h
  split at h
  · cases h
  split at h
  · cases h
  · rename_i state hstate
    split at h
    · cases h
    · rename_i hnew
      simp only at h
      split at h
      · cases h
      · cases h
        exact ⟨state, _, _, hstate, by simpa using hnew, rfl, rfl⟩

theorem get_branch {source new : String} {index : Option Int} {branched : ConversationState}
    (h : store.branch source new index = .ok (store', branched)) :
    store.get new = none ∧ ∀ id, store'.get id =
      if id = new then some branched else store.get id := by
  obtain ⟨state, n, hn, -, hnew, rfl, rfl⟩ := branch_ok h
  exact ⟨hnew, fun id => store.get_put _ id⟩

theorem get_archive {conversation_id : String} (h : store.archive conversation_id = .ok store') :
    ∃ state, store.get conversation_id = some state ∧ ∀ id, store'.get id =
      if id = conversation_id then some { state with archived := true } else store.get id := by
  unfold archive at h
  split at h
  · cases h
  split at h
  · cases h
  · rename_i state hstate
    split at h
    · cases h
    · cases h
      refine ⟨state, hstate, fun id => ?_⟩
      rw [get_put, ← store.keyed _ _ hstate]

theorem get_unarchive {conversation_id : String}
    (h : store.unarchive conversation_id = .ok store') :
    ∃ state, store.get conversation_id = some state ∧ ∀ id, store'.get id =
      if id = conversation_id then some { state with archived := false } else store.get id := by
  unfold unarchive at h
  split at h
  · cases h
  split at h
  · cases h
  · rename_i state hstate
    split at h
    · cases h
    · cases h
      refine ⟨state, hstate, fun id => ?_⟩
      rw [get_put, ← store.keyed _ _ hstate]

theorem get_delete {conversation_id : String} (h : store.delete conversation_id = .ok store')
    (id : String) : store'.get id = if id = conversation_id then none else store.get id := by
  unfold delete at h
  split at h
  · cases h
  split at h
  · cases h
  · cases h
    exact store.get_remove conversation_id id

/-! ### When a write goes through -/

theorem rename_ok_iff {old new : String} (hne : old ≠ new) :
    (∃ store', store.rename old new = .ok store') ↔
      validId old = true ∧ validId new = true ∧ (∃ state, store.get old = some state) ∧
        store.get new = none := by
  rw [rename, if_neg hne]
  cases hold : validId old with
  | false => simp
  | true =>
    cases hnew : validId new with
    | false => simp
    | true => cases store.get old <;> cases store.get new <;> simp

/-- A branch needs a stored source and a free id, and its index must be in the range. -/
theorem branch_ok_iff {source new : String} {index : Option Int} :
    (∃ r, store.branch source new index = .ok r) ↔
      validId source = true ∧ validId new = true ∧ store.get new = none ∧
        ∃ state, store.get source = some state ∧
          ∀ i ∈ index, 0 ≤ i ∧ i ≤ (state.messages.length : Int) := by
  rw [branch]
  cases hsource : validId source with
  | false => simp
  | true =>
    cases hnew : validId new with
    | false => simp
    | true =>
      cases store.get source with
      | none => simp
      | some state =>
        cases store.get new with
        | some other => simp
        | none =>
          cases index with
          | none =>
            have hlength : ¬ (state.messages.length : Int) < 0 := by omega
            simp [hlength]
          | some i =>
            by_cases hrange : i < 0 ∨ (state.messages.length : Int) < i
            · simp [hrange]
              omega
            · simp [hrange]
              omega

theorem archive_ok_iff {conversation_id : String} :
    (∃ store', store.archive conversation_id = .ok store') ↔
      validId conversation_id = true ∧
        ∃ state, store.get conversation_id = some state ∧ state.archived = false := by
  rw [archive]
  cases hvalid : validId conversation_id with
  | false => simp
  | true =>
    cases hget : store.get conversation_id with
    | none => simp
    | some state => cases harchived : state.archived <;> simp [harchived]

theorem delete_ok_iff {conversation_id : String} :
    (∃ store', store.delete conversation_id = .ok store') ↔
      validId conversation_id = true ∧ ∃ state, store.get conversation_id = some state := by
  rw [delete]
  cases hvalid : validId conversation_id with
  | false => simp
  | true => cases store.get conversation_id <;> simp

/-! ## Updating -/

/-- A turn that an update is for. -/
structure TurnAttempt where
  turn_id : String
  user_message : String
  turn_id_nonempty : turn_id ≠ ""

/-- What `update` holds between its two transactions. -/
structure Ticket where
  conversation_id : String
  original : Option ConversationState
  state : ConversationState
  turn_id : Option String

/-- `_begin_turn_attempt(state, turn_id, message, resume_pending=...)`. -/
def beginTurnAttempt (digest : String → String) (state : ConversationState) (turn : TurnAttempt)
    (resume_pending : Bool) : Except StoreError ConversationState :=
  match h : state.pendingTurn turn.turn_id with
  | some pending =>
    if pending.input_digest ≠ digest turn.user_message then .error (.turnConflict turn.turn_id)
    else if resume_pending = true then .ok state
    else .error (.turnIncomplete turn.turn_id)
  | none => .ok (state.mark ⟨turn.turn_id, digest turn.user_message, turn.turn_id_nonempty⟩ h)

/-- Whether the turn has its reply among the stored messages. -/
def hasReply (state : ConversationState) (turn_id : String) : Bool :=
  state.messages.any (ConversationMessage.isOf turn_id .assistant)

/-- The state an update works on: the stored one, with its turn marked unless it has its reply. -/
def beginState (digest : String → String) (state : ConversationState) (turn : Option TurnAttempt)
    (continue_pending_turn : Bool) : Except StoreError ConversationState :=
  match turn with
  | none => .ok state
  | some turn =>
    if hasReply state turn.turn_id = true then .ok state
    else beginTurnAttempt digest state turn continue_pending_turn

variable (store)

/-- The first half of `update`: read the record and mark the turn.  The marked state is saved
    before the callback runs. -/
def beginUpdate (digest : String → String) (conversation_id : String) (turn : Option TurnAttempt)
    (continue_pending_turn : Bool) : Except StoreError (ConversationStore × Ticket) :=
  if validId conversation_id = false then .error (.invalidId conversation_id)
  else
    match beginState digest (store.stateOf conversation_id) turn continue_pending_turn with
    | .error error => .error error
    | .ok state =>
      let saves := turn.any fun turn => !hasReply (store.stateOf conversation_id) turn.turn_id
      let store := if saves = true then store.put state else store
      .ok (store, { conversation_id := conversation_id, original := store.get conversation_id,
                    state := state, turn_id := turn.map TurnAttempt.turn_id })

/-- The second half of `update`: save what the callback made of the state, if the record is still
    the one that was read. -/
def commitUpdate (ticket : Ticket) (updated : ConversationState) :
    Except StoreError ConversationStore :=
  if updated.conversation_id ≠ ticket.conversation_id then .error .identityChanged
  else if store.get ticket.conversation_id ≠ ticket.original then .error .changedConcurrently
  else .ok (store.put (updated.finishTurnAttempt ticket.turn_id))

/-! ### What an update changes -/

theorem stateOf_conversation_id (id : String) : (store.stateOf id).conversation_id = id := by
  unfold stateOf
  cases hget : store.get id with
  | none => rfl
  | some s => exact store.keyed id s hget

theorem stateOf_put (state : ConversationState) (id : String) :
    (store.put state).stateOf id =
      if id = state.conversation_id then state else store.stateOf id := by
  unfold stateOf
  rw [get_put]
  split <;> rfl

variable {store} {digest : String → String} {turn : Option TurnAttempt} {resume : Bool}

theorem beginState_spec {state state' : ConversationState}
    (h : beginState digest state turn resume = .ok state') :
    state'.conversation_id = state.conversation_id ∧ state'.messages = state.messages ∧
      ∀ t, (∀ a, turn = some a → a.turn_id ≠ t) → state'.pendingTurn t = state.pendingTurn t := by
  unfold beginState at h
  cases turn with
  | none =>
    cases h
    exact ⟨rfl, rfl, fun _ _ => rfl⟩
  | some turn =>
    simp only at h
    split at h
    · cases h
      exact ⟨rfl, rfl, fun _ _ => rfl⟩
    · unfold beginTurnAttempt at h
      split at h
      · split at h
        · cases h
        · split at h
          · cases h
            exact ⟨rfl, rfl, fun _ _ => rfl⟩
          · cases h
      · cases h
        refine ⟨rfl, rfl, fun t ht => ?_⟩
        rw [ConversationState.mark_pendingTurn, if_neg]
        exact fun heq => ht turn rfl heq.symm

/-- The turn of the attempt itself: either it has its reply and nothing is marked, or it is marked
    with the digest of its message, newly or from an earlier attempt. -/
theorem beginState_own {state state' : ConversationState} {turn : TurnAttempt}
    (h : beginState digest state (some turn) resume = .ok state') :
    (hasReply state turn.turn_id = true ∧ state' = state) ∨
      (hasReply state turn.turn_id = false ∧ ∃ p, state'.pendingTurn turn.turn_id = some p ∧
        p.input_digest = digest turn.user_message ∧
        ∀ q, state.pendingTurn turn.turn_id = some q → q = p) := by
  simp only [beginState] at h
  split at h
  · rename_i hreply
    cases h
    exact Or.inl ⟨hreply, rfl⟩
  · rename_i hreply
    refine Or.inr ⟨by simpa using hreply, ?_⟩
    unfold beginTurnAttempt at h
    split at h
    · rename_i p hp
      split at h
      · cases h
      · rename_i hdigest
        split at h
        · cases h
          exact ⟨p, hp, not_not.mp hdigest, fun q hq => Option.some.inj (hq.symm.trans hp)⟩
        · cases h
    · rename_i hp
      cases h
      refine ⟨⟨turn.turn_id, digest turn.user_message, turn.turn_id_nonempty⟩, ?_, rfl,
        fun q hq => ?_⟩
      · rw [ConversationState.mark_pendingTurn, if_pos rfl]
      · rw [hp] at hq
        cases hq

/-- An attempt is refused for a marked turn without a reply only: in conflict with another digest,
    unfinished otherwise. -/
theorem beginState_error {state : ConversationState} {error : StoreError}
    (h : beginState digest state turn resume = .error error) :
    ∃ a p, turn = some a ∧ hasReply state a.turn_id = false ∧
      state.pendingTurn a.turn_id = some p ∧
      ((p.input_digest ≠ digest a.user_message ∧ error = .turnConflict a.turn_id) ∨
        (p.input_digest = digest a.user_message ∧ error = .turnIncomplete a.turn_id)) := by
  unfold beginState at h
  cases turn with
  | none => cases h
  | some a =>
    simp only at h
    split at h
    · cases h
    · rename_i hreply
      unfold beginTurnAttempt at h
      split at h
      · rename_i p hp
        refine ⟨a, p, rfl, by simpa using hreply, hp, ?_⟩
        split at h
        · rename_i hdigest
          cases h
          exact Or.inl ⟨hdigest, rfl⟩
        · rename_i hdigest
          split at h
          · cases h
          · cases h
            exact Or.inr ⟨not_not.mp hdigest, rfl⟩
      · cases h

theorem beginUpdate_error {id : String} {error : StoreError}
    (h : store.beginUpdate digest id turn resume = .error error) :
    (validId id = false ∧ error = .invalidId id) ∨
      beginState digest (store.stateOf id) turn resume = .error error := by
  unfold beginUpdate at h
  split at h
  · rename_i hid
    cases h
    exact Or.inl ⟨hid, rfl⟩
  · split at h
    · rename_i e he
      cases h
      exact Or.inr he
    · cases h

/-- After the first half the record is the state the callback gets, and nothing else changed. -/
theorem beginUpdate_spec {store' : ConversationStore} {id : String} {ticket : Ticket}
    (h : store.beginUpdate digest id turn resume = .ok (store', ticket)) :
    validId id = true ∧ beginState digest (store.stateOf id) turn resume = .ok ticket.state ∧
      store'.stateOf id = ticket.state ∧ (∀ other, other ≠ id → store'.get other = store.get other) ∧
      ticket.conversation_id = id ∧ ticket.turn_id = turn.map TurnAttempt.turn_id ∧
      ticket.original = store'.get id := by
  unfold beginUpdate at h
  split at h
  · cases h
  rename_i hid
  split at h
  · cases h
  · rename_i state hbegin
    cases h
    have hcid : state.conversation_id = id :=
      (beginState_spec hbegin).1.trans (store.stateOf_conversation_id id)
    refine ⟨by simpa using hid, hbegin, ?_, fun other hne => ?_, rfl, rfl, rfl⟩
    · by_cases hsaves : (turn.any fun turn => !hasReply (store.stateOf id) turn.turn_id) = true
      · simp only [if_pos hsaves]
        rw [stateOf_put, if_pos hcid.symm]
      · simp only [if_neg hsaves]
        -- nothing was marked
        cases turn with
        | none => exact Except.ok.inj hbegin
        | some turn =>
          have hreply : hasReply (store.stateOf id) turn.turn_id = true := by simpa using hsaves
          simp only [beginState, if_pos hreply] at hbegin
          exact Except.ok.inj hbegin
    · by_cases hsaves : (turn.any fun turn => !hasReply (store.stateOf id) turn.turn_id) = true
      · simp only [if_pos hsaves]
        rw [get_put, if_neg (by rw [hcid]; exact hne)]
      · simp only [if_neg hsaves]

theorem beginUpdate_of_hasReply {store' : ConversationStore} {id : String} {ticket : Ticket}
    {turn : TurnAttempt} (h : store.beginUpdate digest id (some turn) resume = .ok (store', ticket))
    (hreply : hasReply (store.stateOf id) turn.turn_id = true) : store' = store := by
  unfold beginUpdate at h
  split at h
  · cases h
  split at h
  · cases h
  · cases h
    simp [hreply]

theorem commitUpdate_ok {ticket : Ticket} {updated : ConversationState}
    (hid : updated.conversation_id = ticket.conversation_id)
    (horiginal : ticket.original = store.get ticket.conversation_id) :
    store.commitUpdate ticket updated = .ok (store.put (updated.finishTurnAttempt ticket.turn_id)) := by
  unfold commitUpdate
  rw [if_neg (not_not.mpr hid), if_neg (not_not.mpr horiginal.symm)]

end ConversationStore
end NuSelf.Conversation
