/-
  The conversation store over its stored records.

  Every operation reads what it needs through the decoder and writes the wire form of a state
  through `_save_unlocked`, inside one transaction.  The first half of `update`, which marks the
  turn, is an operation of its own (`beginTurn`); `update` is the callback and the commit.

  1. **The code** — `runOp`, with what each operation has saved and deleted (`Effect`).
  2. **The invariant** (`Keeps`) — under each id lies the record of the state last saved under it,
     that state has this id, and the decoder gives it back.
  3. **The condition** (`Accepted`) — the pending turns that an operation adds are ones the decoder
     takes.  Neither the constructor of a pending turn nor the encoder asks for it.
  4. `store_keeps_records` — in every run of accepted operations.
-/
import NuSelf.Conversation.Wire
import NuSelf.Lib.Run

namespace NuSelf.Conversation.Wire

open NuSelf.Lib NuSelf.Storage

/-- `hashlib.sha256(...).hexdigest()` of a text. -/
structure Sha256 where
  hexdigest : String → String
  isDigest : ∀ message, isDigest (hexdigest message) = true

inductive RecordsError where
  | store (e : StoreError)
  /-- The decoder refuses a record. -/
  | wire (message : String)
  | storage (e : StorageError)
  /-- The callback of an update raises. -/
  | callback
  /-- SQLite does not carry the transaction out. -/
  | transaction
  deriving DecidableEq

def fromStorage {α : Type} : Except StorageError α → Except RecordsError α
  | .ok a => .ok a
  | .error e => .error (.storage e)

/-! ## Turn attempts -/

namespace ConversationState

def pendingTurn (s : ConversationState) (turn_id : String) : Option PendingTurn :=
  s.pending_turns.find? fun p => decide (p.turn_id = turn_id)

/-- `(*state.pending_turns, attempted)`. -/
def mark (s : ConversationState) (p : PendingTurn) (h : s.pendingTurn p.turn_id = none) :
    ConversationState :=
  { s with
    pending_turns := s.pending_turns ++ [p]
    pending_unique := by
      rw [List.map_append, List.nodup_append']
      refine ⟨s.pending_unique, List.nodup_singleton _, fun t ht ht' => ?_⟩
      obtain ⟨q, hq, rfl⟩ := List.mem_map.mp ht
      have hne := List.find?_eq_none.mp h q hq
      exact hne (decide_eq_true (List.mem_singleton.mp ht')) }

def finishTurnAttempt (s : ConversationState) : Option String → ConversationState
  | none => s
  | some turn_id =>
    { s with
      pending_turns := s.pending_turns.filter fun p => decide (p.turn_id ≠ turn_id)
      pending_unique := s.pending_unique.sublist (List.filter_sublist.map _) }

/-- Whether the turn has its reply. -/
def hasReply (s : ConversationState) (turn_id : String) : Bool :=
  s.messages.any (ConversationMessage.isOf turn_id .assistant)

/-- Every pending turn is one the decoder takes. -/
def Decodable (s : ConversationState) : Prop := ∀ p ∈ s.pending_turns, p.Decodable

instance (s : ConversationState) : Decidable s.Decodable :=
  inferInstanceAs (Decidable (∀ p ∈ s.pending_turns, p.Decodable))

/-- The first `count` messages under a new id. -/
def branchOf (source : ConversationState) (new_conversation_id : String) (count : Nat)
    (h : count ≤ source.messages.length) : ConversationState where
  conversation_id := new_conversation_id
  summary := source.summary
  messages := source.messages.take count
  message_start_index := source.message_start_index
  next_message_index := source.message_start_index + count
  archived := false
  pending_turns := []
  indexes := by rw [List.length_take, Nat.min_eq_left h]
  pending_unique := List.nodup_nil

end ConversationState

def beginTurnAttempt (sha : Sha256) (state : ConversationState) (turn_id message : String)
    (resume_pending : Bool) : Except RecordsError ConversationState :=
  let attempted : PendingTurn := ⟨turn_id, sha.hexdigest message⟩
  match h : state.pendingTurn turn_id with
  | some pending =>
    if pending.input_digest ≠ attempted.input_digest then .error (.store (.turnConflict turn_id))
    else if resume_pending = true then .ok state
    else .error (.store (.turnIncomplete turn_id))
  | none => .ok (state.mark attempted h)

/-! ## Operations -/

inductive StoreOp where
  | save (state : ConversationState)
  /-- The part of `update` before its callback. -/
  | beginTurn (conversation_id turn_id user_message : String) (continue_pending_turn : Bool)
  /-- The callback of `update` and its commit; `none` is a callback that raises. -/
  | update (conversation_id : String) (turn_id : Option String)
    (callback : ConversationState → Option ConversationState)
  | rename (old_conversation_id new_conversation_id : String)
  | branch (source_conversation_id new_conversation_id : String) (message_index : Option Int)
  | archive (conversation_id : String)
  | unarchive (conversation_id : String)
  | delete (conversation_id : String)

/-- What an operation has saved, and the id it has deleted. -/
structure Effect where
  saved : Option ConversationState
  deleted : Option String

section

variable (db : Records)

def checkId (conversation_id : String) : Except RecordsError Unit :=
  if validId conversation_id = false then .error (.store (.invalidId conversation_id)) else .ok ()

/-- `self._collection.get`. -/
def readRaw (conversation_id : String) : Except RecordsError (Option Record) :=
  fromStorage (collectionGet db "conversations" conversation_id)

def decodeRaw (raw : Record) : Except RecordsError ConversationState :=
  match ConversationState.fromWire raw with
  | .ok state => .ok state
  | .error message => .error (.wire message)

/-- The state of a conversation, empty without a record. -/
def stateOf (conversation_id : String) : Except RecordsError ConversationState := do
  match ← readRaw db conversation_id with
  | none => return .empty conversation_id
  | some raw => decodeRaw raw

def saveUnlocked (state : ConversationState) : Except RecordsError (Records × Effect) := do
  let db ← fromStorage (collectionPut db "conversations" state.conversation_id state.toWire)
  return (db, ⟨some state, none⟩)

def save (state : ConversationState) : Except RecordsError (Records × Effect) := do
  checkId state.conversation_id
  saveUnlocked db state

/-- `update` up to its callback. -/
def beginTurn (sha : Sha256) (conversation_id turn_id user_message : String)
    (continue_pending_turn : Bool) : Except RecordsError (Records × Effect) := do
  checkId conversation_id
  let state ← stateOf db conversation_id
  if state.hasReply turn_id = true then return (db, ⟨none, none⟩)
  else
    let state ← beginTurnAttempt sha state turn_id user_message continue_pending_turn
    saveUnlocked db state

/-- `update` from its callback on. -/
def update (conversation_id : String) (turn_id : Option String)
    (callback : ConversationState → Option ConversationState) :
    Except RecordsError (Records × Effect) := do
  checkId conversation_id
  let state ← stateOf db conversation_id
  match callback state with
  | none => .error .callback
  | some updated =>
    if updated.conversation_id ≠ conversation_id then .error (.store .identityChanged)
    else saveUnlocked db (updated.finishTurnAttempt turn_id)

def rename (old_conversation_id new_conversation_id : String) :
    Except RecordsError (Records × Effect) :=
  if old_conversation_id = new_conversation_id then .ok (db, ⟨none, none⟩)
  else do
    checkId old_conversation_id
    checkId new_conversation_id
    match ← readRaw db old_conversation_id with
    | none => .error (.store (.notFound old_conversation_id))
    | some raw =>
      match ← readRaw db new_conversation_id with
      | some _ => .error (.store (.alreadyExists new_conversation_id))
      | none =>
        let state ← decodeRaw raw
        let (db, effect) ← saveUnlocked db { state with conversation_id := new_conversation_id }
        return (collectionDelete db "conversations" old_conversation_id,
          { effect with deleted := some old_conversation_id })

def branch (source_conversation_id new_conversation_id : String) (message_index : Option Int) :
    Except RecordsError (Records × Effect) := do
  checkId source_conversation_id
  checkId new_conversation_id
  match ← readRaw db source_conversation_id with
  | none => .error (.store (.sourceNotFound source_conversation_id))
  | some raw =>
    match ← readRaw db new_conversation_id with
    | some _ => .error (.store (.alreadyExists new_conversation_id))
    | none =>
      let source ← decodeRaw raw
      let branch_index := message_index.getD source.messages.length
      if h : branch_index < 0 ∨ (source.messages.length : Int) < branch_index then
        .error (.store (.branchIndex branch_index source.messages.length))
      else
        saveUnlocked db (source.branchOf new_conversation_id branch_index.toNat (by omega))

/-- `archive` and `unarchive`: the flag is set, unless it is so already. -/
def setArchived (archived : Bool) (missing already : StoreError) (conversation_id : String) :
    Except RecordsError (Records × Effect) := do
  checkId conversation_id
  match ← readRaw db conversation_id with
  | none => .error (.store missing)
  | some raw =>
    let state ← decodeRaw raw
    if state.archived = archived then .error (.store already)
    else saveUnlocked db { state with archived := archived }

def archive (conversation_id : String) : Except RecordsError (Records × Effect) :=
  setArchived db true (.notFound conversation_id) (.archivedExists conversation_id) conversation_id

def unarchive (conversation_id : String) : Except RecordsError (Records × Effect) :=
  setArchived db false (.archivedNotFound conversation_id) (.alreadyExists conversation_id)
    conversation_id

def delete (conversation_id : String) : Except RecordsError (Records × Effect) := do
  checkId conversation_id
  match ← readRaw db conversation_id with
  | none => .error (.store (.notFound conversation_id))
  | some _ =>
    return (collectionDelete db "conversations" conversation_id, ⟨none, some conversation_id⟩)

end

/-- What an operation reads and writes in its transaction. -/
def runOp (sha : Sha256) (db : Records) : StoreOp → Except RecordsError (Records × Effect)
  | .save state => save db state
  | .beginTurn conversation_id turn_id user_message continue_pending_turn =>
    beginTurn db sha conversation_id turn_id user_message continue_pending_turn
  | .update conversation_id turn_id callback => update db conversation_id turn_id callback
  | .rename old_conversation_id new_conversation_id =>
    rename db old_conversation_id new_conversation_id
  | .branch source_conversation_id new_conversation_id message_index =>
    branch db source_conversation_id new_conversation_id message_index
  | .archive conversation_id => archive db conversation_id
  | .unarchive conversation_id => unarchive db conversation_id
  | .delete conversation_id => delete db conversation_id

/-- An operation, and whether SQLite carries its transaction out; a transaction that fails leaves
    the tables. -/
structure Call where
  op : StoreOp
  carriedOut : Bool

/-- One call. -/
def step (sha : Sha256) (db : Records) (call : Call) : Records × Except RecordsError Effect :=
  match runOp sha db call.op with
  | .error e => (db, .error e)
  | .ok (db', effect) =>
    if call.carriedOut = true then (db', .ok effect) else (db, .error .transaction)

/-! ## The invariant -/

/-- The state last saved under each id. -/
abbrev Saved := String → Option ConversationState

/-- Under the id lies the record of the state, which has this id, and it is decoded as the state. -/
structure Stored (db : Records) (id : String) (s : ConversationState) : Prop where
  nonempty : id ≠ ""
  key : s.conversation_id = id
  counts : s.next_message_index = s.message_start_index + s.messages.length
  distinct : (s.pending_turns.map PendingTurn.turn_id).Nodup
  decodes : ∃ r, collectionGet db "conversations" id = .ok (some r) ∧
    ConversationState.SameFields r s.toWire ∧ ConversationState.fromWire r = .ok s

structure Keeps (db : Records) (saved : Saved) : Prop where
  absent : ∀ id, saved id = none → db.get ("conversations", id) = none
  stored : ∀ id s, saved id = some s → Stored db id s

/-- What is saved after an operation. -/
def Effect.apply (effect : Effect) (saved : Saved) : Saved := fun id =>
  if effect.deleted = some id then none
  else
    match effect.saved with
    | none => saved id
    | some s => if s.conversation_id = id then some s else saved id

theorem keeps_empty : Keeps .empty fun _ => none := ⟨fun _ _ => rfl, fun _ _ h => nomatch h⟩

theorem validId_ne {id : String} (h : validId id = true) : id ≠ "" := by
  rintro rfl
  revert h
  decide

theorem checkId_valid {id : String} (h : checkId id = .ok ()) : validId id = true := by
  unfold checkId at h
  split at h
  · cases h
  · rename_i hid
    simpa using hid

theorem checkId_ok {id : String} (h : checkId id = .ok ()) : id ≠ "" := validId_ne (checkId_valid h)

theorem saveUnlocked_ok {db db' : Records} {state : ConversationState} {effect : Effect}
    (h : saveUnlocked db state = .ok (db', effect)) :
    ∃ p, db' = db.set ("conversations", state.conversation_id) p ∧
      p.record = state.toWire.erase "id" ∧ effect = ⟨some state, none⟩ := by
  obtain ⟨written, hput, h⟩ := bind_ok h
  cases h
  have hput' : collectionPut db "conversations" state.conversation_id state.toWire = .ok db' := by
    revert hput
    cases collectionPut db "conversations" state.conversation_id state.toWire with
    | error e => exact nofun
    | ok written => exact fun hput => by cases hput; rfl
  obtain ⟨p, hdb, hrecord, -, -⟩ := collectionPut_ok hput'
  exact ⟨p, hdb, hrecord, rfl⟩

namespace Stored

variable {db : Records} {id : String} {s : ConversationState}

theorem decodable (h : Stored db id s) : s.Decodable := by
  obtain ⟨r, -, hsame, hr⟩ := h.decodes
  exact ConversationState.decodable_of_fromWire hsame hr

theorem readRaw (h : Stored db id s) : ∃ r, readRaw db id = .ok (some r) ∧ decodeRaw r = .ok s := by
  obtain ⟨r, hget, -, hr⟩ := h.decodes
  exact ⟨r, by rw [Wire.readRaw, hget]; rfl, by rw [decodeRaw, hr]⟩

theorem of_get {db' : Records} (h : Stored db id s)
    (hget : db'.get ("conversations", id) = db.get ("conversations", id)) : Stored db' id s := by
  refine { h with decodes := ?_ }
  have hsame : collectionGet db' "conversations" id = collectionGet db "conversations" id := by
    rw [collectionGet, collectionGet, hget]
  rw [hsame]
  exact h.decodes

end Stored

namespace Keeps

variable {db db' : Records} {saved : Saved} {effect : Effect}

theorem readRaw_none (h : Keeps db saved) {id : String} (hid : saved id = none) :
    readRaw db id = .ok none := by
  rw [readRaw, collectionGet, h.absent id hid]
  rfl

theorem readRaw (h : Keeps db saved) {id : String} {raw : Option Record}
    (hread : readRaw db id = .ok raw) :
    (raw = none ∧ saved id = none) ∨
      ∃ r s, raw = some r ∧ saved id = some s ∧ decodeRaw r = .ok s := by
  cases hid : saved id with
  | none =>
    rw [h.readRaw_none hid] at hread
    cases hread
    exact .inl ⟨rfl, rfl⟩
  | some s =>
    obtain ⟨r, hr, hdecode⟩ := (h.stored id s hid).readRaw
    rw [hr] at hread
    cases hread
    exact .inr ⟨r, s, rfl, rfl, hdecode⟩

theorem stateOf (h : Keeps db saved) (id : String) :
    stateOf db id = .ok ((saved id).getD (.empty id)) := by
  rw [Wire.stateOf]
  cases hid : saved id with
  | none =>
    rw [h.readRaw_none hid]
    rfl
  | some s =>
    obtain ⟨r, hr, hdecode⟩ := (h.stored id s hid).readRaw
    rw [hr]
    exact hdecode

theorem stateOf_decodable (h : Keeps db saved) (id : String) :
    ((saved id).getD (.empty id)).Decodable := by
  cases hid : saved id with
  | none => exact fun p hp => nomatch hp
  | some s => exact (h.stored id s hid).decodable

theorem stateOf_id (h : Keeps db saved) (id : String) :
    ((saved id).getD (.empty id)).conversation_id = id := by
  cases hid : saved id with
  | none => rfl
  | some s => exact (h.stored id s hid).key

/-- **Saving a state whose pending turns are decodable.** -/
theorem saveUnlocked (h : Keeps db saved) {state : ConversationState}
    (hid : state.conversation_id ≠ "") (hdecodable : state.Decodable)
    (hsave : saveUnlocked db state = .ok (db', effect)) :
    effect = ⟨some state, none⟩ ∧ Keeps db' (effect.apply saved) := by
  obtain ⟨written, hput, ⟨r, hget, hsame⟩, hother⟩ :=
    ConversationState.put_toWire db state hid
  rw [Wire.saveUnlocked, hput] at hsave
  cases hsave
  refine ⟨rfl, ⟨fun id hnone => ?_, fun id s hs => ?_⟩⟩
  · simp only [Effect.apply, reduceCtorEq, if_false] at hnone
    split at hnone
    · cases hnone
    · rename_i hne
      rw [hother _ (by simpa using Ne.symm hne)]
      exact h.absent id hnone
  · simp only [Effect.apply, reduceCtorEq, if_false] at hs
    split at hs
    · rename_i heq
      cases hs
      subst heq
      exact ⟨hid, rfl, state.indexes, state.pending_unique, r, hget, hsame,
        ConversationState.fromWire_of_decodable hsame hdecodable⟩
    · rename_i hne
      exact (h.stored id s hs).of_get (hother _ (by simpa using Ne.symm hne))

theorem delete (h : Keeps db saved) (id : String) :
    Keeps (collectionDelete db "conversations" id)
      ((⟨none, some id⟩ : Effect).apply saved) := by
  have hget : ∀ other, (collectionDelete db "conversations" id).get ("conversations", other) =
      if other = id then none else db.get ("conversations", other) := by
    intro other
    rw [collectionDelete, Table.get_erase]
    by_cases heq : other = id
    · rw [if_pos heq, if_pos (by rw [heq])]
    · rw [if_neg heq, if_neg (by simpa using heq)]
  refine ⟨fun other hnone => ?_, fun other s hs => ?_⟩
  · rw [hget]
    split
    · rfl
    · rename_i hne
      refine h.absent other ?_
      simpa only [Effect.apply, Option.some.injEq, Ne.symm hne, if_false] using hnone
  · simp only [Effect.apply, Option.some.injEq] at hs
    split at hs
    · cases hs
    · rename_i hne
      exact (h.stored other s hs).of_get (by rw [hget, if_neg (Ne.symm hne)])

end Keeps

/-! ## The condition -/

/-- The pending turns that the operation adds are ones the decoder takes. -/
def Accepted (db : Records) : StoreOp → Prop
  | .save state => validId state.conversation_id = true → state.Decodable
  | .beginTurn conversation_id turn_id _ _ =>
    ∀ state, stateOf db conversation_id = .ok state → state.hasReply turn_id = false → turn_id ≠ ""
  | .update conversation_id turn_id callback =>
    ∀ state updated, stateOf db conversation_id = .ok state → callback state = some updated →
      ∀ p ∈ updated.pending_turns, turn_id = some p.turn_id ∨ p.Decodable
  | _ => True

section

variable {sha : Sha256} {db db' : Records} {saved : Saved} {effect : Effect}

theorem beginTurnAttempt_spec {state state' : ConversationState} {turn_id message : String}
    {resume_pending : Bool} (h : beginTurnAttempt sha state turn_id message resume_pending = .ok state')
    (hstate : state.Decodable) (hid : turn_id ≠ "") :
    state'.conversation_id = state.conversation_id ∧ state'.Decodable := by
  unfold beginTurnAttempt at h
  dsimp only at h
  split at h
  · split at h
    · cases h
    · split at h
      · cases h
        exact ⟨rfl, hstate⟩
      · cases h
  · cases h
    refine ⟨rfl, fun p hp => ?_⟩
    rcases List.mem_append.mp hp with hp | hp
    · exact hstate p hp
    · rw [List.mem_singleton.mp hp]
      exact ⟨hid, sha.isDigest message⟩

theorem finishTurnAttempt_spec {state : ConversationState} {turn_id : Option String}
    (h : ∀ p ∈ state.pending_turns, turn_id = some p.turn_id ∨ p.Decodable) :
    (state.finishTurnAttempt turn_id).conversation_id = state.conversation_id ∧
      (state.finishTurnAttempt turn_id).Decodable := by
  cases turn_id with
  | none =>
    refine ⟨rfl, fun p hp => ?_⟩
    rcases h p hp with hnone | hp
    · cases hnone
    · exact hp
  | some turn_id =>
    refine ⟨rfl, fun p hp => ?_⟩
    obtain ⟨hmem, hne⟩ := List.mem_filter.mp hp
    rcases h p hmem with heq | hp
    · rw [decide_eq_true_eq] at hne
      exact absurd (Option.some.inj heq).symm hne
    · exact hp

/-! ## Each operation keeps the invariant -/

theorem save_keeps (h : Keeps db saved) {state : ConversationState}
    (hok : Accepted db (.save state)) (hrun : save db state = .ok (db', effect)) :
    Keeps db' (effect.apply saved) := by
  obtain ⟨⟨⟩, hid, hrun⟩ := bind_ok hrun
  have hvalid : validId state.conversation_id = true := checkId_valid hid
  exact (h.saveUnlocked (validId_ne hvalid) (hok hvalid) hrun).2

theorem beginTurn_keeps (h : Keeps db saved) {conversation_id turn_id user_message : String}
    {resume : Bool} (hok : Accepted db (.beginTurn conversation_id turn_id user_message resume))
    (hrun : beginTurn db sha conversation_id turn_id user_message resume = .ok (db', effect)) :
    Keeps db' (effect.apply saved) := by
  obtain ⟨⟨⟩, hid, hrun⟩ := bind_ok hrun
  rw [h.stateOf] at hrun
  simp only [ok_bind] at hrun
  split at hrun
  · cases hrun
    exact h
  · rename_i hreply
    obtain ⟨state, hbegin, hrun⟩ := bind_ok hrun
    have hturn := hok _ (h.stateOf conversation_id) (by simpa using hreply)
    obtain ⟨hsame, hdecodable⟩ :=
      beginTurnAttempt_spec hbegin (h.stateOf_decodable conversation_id) hturn
    refine (h.saveUnlocked ?_ hdecodable hrun).2
    rw [hsame, h.stateOf_id]
    exact checkId_ok hid

theorem update_keeps (h : Keeps db saved) {conversation_id : String} {turn_id : Option String}
    {callback : ConversationState → Option ConversationState}
    (hok : Accepted db (.update conversation_id turn_id callback))
    (hrun : update db conversation_id turn_id callback = .ok (db', effect)) :
    Keeps db' (effect.apply saved) := by
  obtain ⟨⟨⟩, hid, hrun⟩ := bind_ok hrun
  have hstate := h.stateOf conversation_id
  rw [hstate] at hrun
  simp only [ok_bind] at hrun
  split at hrun
  · cases hrun
  · rename_i updated hcallback
    split at hrun
    · cases hrun
    · rename_i hsame
      obtain ⟨hkey, hdecodable⟩ := finishTurnAttempt_spec (hok _ updated hstate hcallback)
      refine (h.saveUnlocked ?_ hdecodable hrun).2
      rw [hkey, not_not.mp hsame]
      exact checkId_ok hid

theorem rename_keeps (h : Keeps db saved) {old new : String}
    (hrun : rename db old new = .ok (db', effect)) : Keeps db' (effect.apply saved) := by
  unfold rename at hrun
  split at hrun
  · cases hrun
    exact h
  · obtain ⟨⟨⟩, -, hrun⟩ := bind_ok hrun
    obtain ⟨⟨⟩, hnew, hrun⟩ := bind_ok hrun
    obtain ⟨raw, hraw, hrun⟩ := bind_ok hrun
    rcases h.readRaw hraw with ⟨rfl, -⟩ | ⟨r, s, rfl, hs, hdecode⟩
    · cases hrun
    · obtain ⟨taken, -, hrun⟩ := bind_ok hrun
      cases taken with
      | some _ => cases hrun
      | none =>
        obtain ⟨state, hstate, hrun⟩ := bind_ok hrun
        rw [hdecode] at hstate
        cases hstate
        obtain ⟨⟨written, saves⟩, hsave, hrun⟩ := bind_ok hrun
        have hdecodable : ({ s with conversation_id := new } : ConversationState).Decodable :=
          (h.stored old s hs).decodable
        obtain ⟨rfl, hkeeps⟩ := h.saveUnlocked (checkId_ok hnew) hdecodable hsave
        cases hrun
        exact hkeeps.delete old

theorem branchOf_decodable (source : ConversationState) (new : String) (count : Nat)
    (hcount : count ≤ source.messages.length) : (source.branchOf new count hcount).Decodable := by
  intro p hp
  cases hp

theorem branch_keeps (h : Keeps db saved) {source new : String} {index : Option Int}
    (hrun : branch db source new index = .ok (db', effect)) : Keeps db' (effect.apply saved) := by
  obtain ⟨⟨⟩, -, hrun⟩ := bind_ok hrun
  obtain ⟨⟨⟩, hnew, hrun⟩ := bind_ok hrun
  obtain ⟨raw, -, hrun⟩ := bind_ok hrun
  cases raw with
  | none => cases hrun
  | some raw =>
    obtain ⟨taken, -, hrun⟩ := bind_ok hrun
    cases taken with
    | some _ => cases hrun
    | none =>
      obtain ⟨state, -, hrun⟩ := bind_ok hrun
      dsimp only at hrun
      split at hrun
      · cases hrun
      · exact (h.saveUnlocked (checkId_ok hnew) (branchOf_decodable _ _ _ _) hrun).2

theorem setArchived_keeps (h : Keeps db saved) {archived : Bool} {missing already : StoreError}
    {conversation_id : String}
    (hrun : setArchived db archived missing already conversation_id = .ok (db', effect)) :
    Keeps db' (effect.apply saved) := by
  obtain ⟨⟨⟩, hid, hrun⟩ := bind_ok hrun
  obtain ⟨raw, hraw, hrun⟩ := bind_ok hrun
  rcases h.readRaw hraw with ⟨rfl, -⟩ | ⟨r, s, rfl, hs, hdecode⟩
  · cases hrun
  · obtain ⟨state, hstate, hrun⟩ := bind_ok hrun
    rw [hdecode] at hstate
    cases hstate
    split at hrun
    · cases hrun
    · have hstored := h.stored conversation_id s hs
      have hdecodable : ({ s with archived := archived } : ConversationState).Decodable :=
        hstored.decodable
      refine (h.saveUnlocked ?_ hdecodable hrun).2
      show s.conversation_id ≠ ""
      rw [hstored.key]
      exact hstored.nonempty

theorem delete_keeps (h : Keeps db saved) {conversation_id : String}
    (hrun : delete db conversation_id = .ok (db', effect)) : Keeps db' (effect.apply saved) := by
  obtain ⟨⟨⟩, -, hrun⟩ := bind_ok hrun
  obtain ⟨raw, -, hrun⟩ := bind_ok hrun
  cases raw with
  | none => cases hrun
  | some _ =>
    cases hrun
    exact h.delete conversation_id

theorem runOp_keeps (h : Keeps db saved) {op : StoreOp} (hok : Accepted db op)
    (hrun : runOp sha db op = .ok (db', effect)) : Keeps db' (effect.apply saved) := by
  cases op with
  | save state => exact save_keeps h hok hrun
  | beginTurn conversation_id turn_id user_message resume => exact beginTurn_keeps h hok hrun
  | update conversation_id turn_id callback => exact update_keeps h hok hrun
  | rename old new => exact rename_keeps h hrun
  | branch source new index => exact branch_keeps h hrun
  | archive conversation_id => exact setArchived_keeps h hrun
  | unarchive conversation_id => exact setArchived_keeps h hrun
  | delete conversation_id => exact delete_keeps h hrun

end

/-! ## Runs -/

/-- The observer notes what the calls that returned have saved. -/
def noteSaved (saved : Saved) (e : Step Records Call (Except RecordsError Effect)) : Saved :=
  match e.output with
  | .ok effect => effect.apply saved
  | .error _ => saved

/-- A run of calls on an empty store. -/
def storeRun (sha : Sha256) (calls : List Call) :
    List (Step (Records × Saved) Call (Except RecordsError Effect)) :=
  run (watched (step sha) noteSaved) (.empty, fun _ => none) calls

theorem step_keeps (sha : Sha256) (s : Records × Saved) (call : Call) (h : Keeps s.1 s.2)
    (hok : Accepted s.1 call.op) :
    Keeps (watched (step sha) noteSaved s call).1.1 (watched (step sha) noteSaved s call).1.2 := by
  show Keeps (step sha s.1 call).1 (noteSaved s.2 ⟨s.1, call, (step sha s.1 call).2, _⟩)
  rw [noteSaved, step]
  cases hrun : runOp sha s.1 call.op with
  | error e => exact h
  | ok r =>
    obtain ⟨db', effect⟩ := r
    dsimp only
    split
    · exact runOp_keeps h hok hrun
    · exact h

theorem step_error {sha : Sha256} {db : Records} {call : Call} {error : RecordsError}
    (h : (step sha db call).2 = .error error) : (step sha db call).1 = db := by
  unfold step at h ⊢
  split
  · rfl
  · rename_i hrun
    rw [hrun] at h
    dsimp only at h ⊢
    split
    · rename_i hdone
      rw [if_pos hdone] at h
      cases h
    · rfl

/-- **The store keeps its records.**  In every run in which the pending turns that are added are
    ones the decoder takes, under every id lies the record of the state last saved under it, it is
    decoded as that state, and a call that raises leaves every record as it was. -/
theorem store_keeps_records (sha : Sha256) (calls : List Call)
    (h : ∀ e ∈ storeRun sha calls, Accepted e.before.1 e.input.op) :
    ∀ e ∈ storeRun sha calls, Keeps e.after.1 e.after.2 ∧
      ∀ error, e.output = .error error → e.after = e.before := by
  intro e he
  have hkeep : ∀ s call, Keeps s.1 s.2 → Accepted s.1 call.op →
      Keeps (watched (step sha) noteSaved s call).1.1 (watched (step sha) noteSaved s call).1.2 :=
    step_keeps sha
  have hinv := run_induct hkeep (.empty, fun _ => none) calls keeps_empty h e he
  refine ⟨hinv.2, fun error herror => ?_⟩
  have hstep := run_of _ _ _ e he
  have hafter := hstep.after_eq
  have houtput := hstep.output_eq
  rw [← hafter]
  rw [herror] at houtput
  show (_, noteSaved e.before.2 ⟨e.before.1, e.input, (step sha e.before.1 e.input).2, _⟩) = e.before
  rw [noteSaved]
  have herror' : (step sha e.before.1 e.input).2 = .error error := houtput
  rw [herror', step_error herror']

/-- The digest of one message, and a row of noughts for the others. -/
def helloSha : Sha256 where
  hexdigest message :=
    if message = "hello" then "2cf24dba5fb0a30e26e83b2ac5b9e29e1b161e5c1fa7425e73043362938b9824"
    else String.ofList (List.replicate 64 '0')
  isDigest := by
    intro message
    split <;> decide +kernel

theorem store_keeps_records_renamed :
    let calls : List Call := [⟨.beginTurn "c" "turn-1" "hello" false, true⟩, ⟨.archive "c", true⟩,
      ⟨.rename "c" "d", true⟩, ⟨.rename "c" "e", true⟩]
    ∀ e ∈ storeRun helloSha calls, Keeps e.after.1 e.after.2 ∧
      ∀ error, e.output = .error error → e.after = e.before := by
  refine store_keeps_records helloSha _ fun e he => ?_
  have hinput := input_mem _ _ _ e he
  simp only [List.mem_cons, List.not_mem_nil, or_false] at hinput
  rcases hinput with h | h | h | h
  · rw [h]
    exact fun _ _ _ => by decide
  · rw [h]
    trivial
  · rw [h]
    trivial
  · rw [h]
    trivial

/-- A turn under the empty id is begun, and its conversation is not decoded any more. -/
theorem empty_turn_refused :
    ¬ ∀ calls, ∀ e ∈ storeRun helloSha calls, Keeps e.after.1 e.after.2 := by
  intro h
  have hkeeps := h [⟨.beginTurn "c" "" "hello" false, true⟩] _ List.mem_cons_self
  have hstored := hkeeps.stored "c" _ rfl
  have hdecodable := hstored.decodable ⟨"", helloSha.hexdigest "hello"⟩ List.mem_cons_self
  exact hdecodable.1 rfl

end NuSelf.Conversation.Wire
