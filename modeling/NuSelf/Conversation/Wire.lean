/-
  The wire form of a conversation, as the storage holds it.

  Here a pending turn is what its constructor accepts, which is any two texts; the decoder asks for
  more (`PendingTurn.Decodable`).  A conversation is what `ConversationState.__post_init__` accepts:
  its indexes count its messages, and no turn is pending twice.

  1. `PendingTurn.fromWire_toWire_iff` — the decoder takes exactly the decodable pending turns.
  2. `ConversationMessage.fromWire_toWire` — every message is decoded.
  3. `ConversationState.fromWire_of_decodable` and `decodable_of_fromWire` — a conversation is
     decoded from what is stored of it exactly when its pending turns are.
-/
import NuSelf.Conversation.Store
import NuSelf.Storage.Collection

namespace NuSelf.Conversation.Wire

open NuSelf.Lib NuSelf.Storage

/-- A JSON object inside a record. -/
abbrev Mapping := List (String × Json)

/-- `set(data) == {...}`. -/
def hasFields (data : Mapping) (names : List String) : Bool :=
  data.all (fun field => names.contains field.1) && names.all fun name => (data.lookup name).isSome

/-! ## Pending turns -/

structure PendingTurn where
  turn_id : String
  input_digest : String
  deriving DecidableEq

/-- 64 lower-case hexadecimal digits. -/
def isDigest (text : String) : Bool :=
  text.toList.length == 64 && text.toList.all fun c => "0123456789abcdef".toList.contains c

namespace PendingTurn

def toWire (p : PendingTurn) : Mapping :=
  [("turn_id", .str p.turn_id), ("input_digest", .str p.input_digest)]

def readTurnId : Option Json → Except String String
  | some (.str turn_id) =>
    if turn_id = "" then .error "pending turn ID must be a non-empty string" else .ok turn_id
  | _ => .error "pending turn ID must be a non-empty string"

def readInputDigest : Option Json → Except String String
  | some (.str input_digest) =>
    if isDigest input_digest = true then .ok input_digest
    else .error "pending turn input digest is invalid"
  | _ => .error "pending turn input digest is invalid"

def fromWire (data : Mapping) : Except String PendingTurn :=
  if hasFields data ["turn_id", "input_digest"] = false then
    .error "pending turn fields are invalid"
  else do
    let turn_id ← readTurnId (data.lookup "turn_id")
    let input_digest ← readInputDigest (data.lookup "input_digest")
    return { turn_id, input_digest }

/-- What the decoder accepts. -/
def Decodable (p : PendingTurn) : Prop := p.turn_id ≠ "" ∧ isDigest p.input_digest = true

instance (p : PendingTurn) : Decidable p.Decodable := inferInstanceAs (Decidable (_ ∧ _))

theorem fromWire_toWire_eq (p : PendingTurn) : fromWire p.toWire = (do
    let turn_id ← readTurnId (some (.str p.turn_id))
    let input_digest ← readInputDigest (some (.str p.input_digest))
    return { turn_id, input_digest }) := by
  have hfields : hasFields p.toWire ["turn_id", "input_digest"] = true := rfl
  rw [fromWire, hfields, if_neg (by simp)]
  rfl

theorem fromWire_toWire {p : PendingTurn} (h : p.Decodable) : fromWire p.toWire = .ok p := by
  rw [fromWire_toWire_eq, readTurnId, readInputDigest, if_neg h.1, if_pos h.2]
  rfl

/-- **The decoder takes no other.** -/
theorem fromWire_toWire_iff {p : PendingTurn} : (∃ q, fromWire p.toWire = .ok q) ↔ p.Decodable := by
  refine ⟨fun h => ?_, fun h => ⟨p, fromWire_toWire h⟩⟩
  obtain ⟨q, hq⟩ := h
  rw [fromWire_toWire_eq] at hq
  obtain ⟨turn_id, hid, hq⟩ := bind_ok hq
  obtain ⟨input_digest, hdigest, -⟩ := bind_ok hq
  refine ⟨fun hempty => ?_, ?_⟩
  · rw [readTurnId, if_pos hempty] at hid
    cases hid
  · rw [readInputDigest] at hdigest
    split at hdigest
    · assumption
    · cases hdigest

end PendingTurn

/-! ## Messages -/

namespace ConversationMessage

def toWire (m : ConversationMessage) : Mapping :=
  [("role", .str m.role.text), ("content", .str m.content)] ++
    match m.turn_id with
    | none => []
    | some turn_id => [("turn_id", .str turn_id)]

def readRole : Option Json → Except String ConversationRole
  | some (.str role) =>
    if role = "user" then .ok .user
    else if role = "assistant" then .ok .assistant
    else .error "conversation message role must be user or assistant"
  | _ => .error "conversation message role must be user or assistant"

def readContent : Option Json → Except String String
  | some (.str content) => .ok content
  | _ => .error "conversation message content must be a string"

def readTurnId : Option Json → Except String (Option String)
  | none => .ok none
  | some .null => .ok none
  | some (.str turn_id) => .ok (some turn_id)
  | _ => .error "conversation message turn_id must be a string when present"

def fromWire (data : Mapping) : Except String ConversationMessage :=
  if data.all (fun field => ["role", "content", "turn_id"].contains field.1) = false then
    .error "conversation message contains unsupported fields"
  else do
    let role ← readRole (data.lookup "role")
    let content ← readContent (data.lookup "content")
    let turn_id ← readTurnId (data.lookup "turn_id")
    return { role, content, turn_id }

/-- **Every message is decoded.** -/
theorem fromWire_toWire (m : ConversationMessage) : fromWire (toWire m) = .ok m := by
  obtain ⟨role, content, turn_id⟩ := m
  cases role <;> cases turn_id <;> rfl

end ConversationMessage

/-! ## Conversations -/

structure ConversationState where
  conversation_id : String
  summary : String
  messages : List ConversationMessage
  message_start_index : Nat
  next_message_index : Nat
  archived : Bool
  pending_turns : List PendingTurn
  indexes : next_message_index = message_start_index + messages.length
  pending_unique : (pending_turns.map PendingTurn.turn_id).Nodup

namespace ConversationState

def empty (conversation_id : String) : ConversationState where
  conversation_id := conversation_id
  summary := ""
  messages := []
  message_start_index := 0
  next_message_index := 0
  archived := false
  pending_turns := []
  indexes := rfl
  pending_unique := List.nodup_nil

def toWire (s : ConversationState) : Record where
  rows := [("conversation_id", .str s.conversation_id), ("summary", .str s.summary),
    ("messages", .arr (s.messages.map fun m => .obj (ConversationMessage.toWire m))),
    ("message_start_index", .int s.message_start_index),
    ("next_message_index", .int s.next_message_index), ("archived", .bool s.archived)] ++
    if s.pending_turns = [] then []
    else [("pending_turns", .arr (s.pending_turns.map fun p => .obj p.toWire))]
  nodup := by split <;> simp

def readText (error : String) : Option Json → Except String String
  | some (.str text) => .ok text
  | _ => .error error

def readList (error : String) : Json → Except String (List Json)
  | .arr items => .ok items
  | _ => .error error

/-- An `int` that is not negative. -/
def readIndex (error : String) : Json → Except String Nat
  | .int n => if 0 ≤ n then .ok n.toNat else .error error
  | _ => .error error

def readBool (error : String) : Json → Except String Bool
  | .bool b => .ok b
  | _ => .error error

def asObject (error : String) : Json → Except String Mapping
  | .obj fields => .ok fields
  | _ => .error error

/-- The indexes and the pending turns as `__post_init__` wants them. -/
def construct (conversation_id summary : String) (messages : List ConversationMessage)
    (message_start_index next_message_index : Nat) (archived : Bool)
    (pending_turns : List PendingTurn) : Except String ConversationState :=
  if hunique : (pending_turns.map PendingTurn.turn_id).Nodup then
    if hindexes : next_message_index = message_start_index + messages.length then
      .ok ⟨conversation_id, summary, messages, message_start_index, next_message_index, archived,
        pending_turns, hindexes, hunique⟩
    else .error "next_message_index must equal message_start_index plus the message count"
  else .error "pending turn IDs must be unique"

def fromWire (data : Record) : Except String ConversationState := do
  let conversation_id ← readText "conversation_id must be a string" (data.get "conversation_id")
  let summary ← readText "summary must be a string" (data.get "summary")
  let items ← readList "messages must be a list" ((data.get "messages").getD .null)
  let message_start_index ← readIndex "message_start_index must be a non-negative integer"
    ((data.get "message_start_index").getD (.int 0))
  let objects ← tryAll (asObject "every conversation message must be an object") items
  let messages ← tryAll ConversationMessage.fromWire objects
  let next_message_index ←
    match (data.get "next_message_index").getD .null with
    | .null => .ok (message_start_index + messages.length)
    | v => readIndex "next_message_index must be a non-negative integer" v
  let archived ← readBool "archived must be a boolean" ((data.get "archived").getD (.bool false))
  let pending_items ← readList "pending_turns must be an object list"
    ((data.get "pending_turns").getD (.arr []))
  let pending_objects ← tryAll (asObject "pending_turns must be an object list") pending_items
  let pending_turns ← tryAll PendingTurn.fromWire pending_objects
  construct conversation_id summary messages message_start_index next_message_index archived
    pending_turns

/-! ## The round trip -/

theorem get_conversation_id {record : Record} {state : ConversationState}
    (h : fromWire record = .ok state) :
    record.get "conversation_id" = some (.str state.conversation_id) := by
  have htext : ∀ {error : String} {v : Option Json} {s : String},
      readText error v = .ok s → v = some (.str s) := by
    intro error v s hv
    unfold readText at hv
    split at hv
    · cases hv
      rfl
    · cases hv
  have hmade : ∀ {id summary : String} {messages : List _} {start next : Nat} {archived : Bool}
      {pending : List _}, construct id summary messages start next archived
        pending = .ok state → state.conversation_id = id := by
    intro id summary messages start next archived pending hstate
    rw [construct] at hstate
    split at hstate
    · split at hstate
      · cases hstate
        rfl
      · cases hstate
    · cases hstate
  obtain ⟨conversation_id, hid, h⟩ := bind_ok h
  iterate 5
    obtain ⟨_, -, h⟩ := bind_ok h
  dsimp only at h
  have hmade' : state.conversation_id = conversation_id := by
    split at h
    · iterate 5
        obtain ⟨_, -, h⟩ := bind_ok h
      exact hmade h
    · iterate 5
        obtain ⟨_, -, h⟩ := bind_ok h
      exact hmade h
  rw [hmade']
  exact htext hid

/-- Only the fields of a conversation are read. -/
def SameFields (r r' : Record) : Prop := ∀ name, name ≠ "id" → r.get name = r'.get name

theorem toWire_pending (s : ConversationState) : (s.toWire.get "pending_turns").getD (.arr []) =
    .arr (s.pending_turns.map fun p => .obj p.toWire) := by
  show (s.toWire.rows.lookup "pending_turns").getD _ = _
  rw [toWire]
  by_cases hnone : s.pending_turns = []
  · simp [hnone, lookup_row]
  · simp [hnone, lookup_row]

theorem fromWire_eq {s : ConversationState} {r : Record} (h : SameFields r s.toWire) :
    fromWire r = (do
      let pending_turns ← tryAll PendingTurn.fromWire (s.pending_turns.map PendingTurn.toWire)
      construct s.conversation_id s.summary s.messages s.message_start_index s.next_message_index
        s.archived pending_turns) := by
  have hid : r.get "conversation_id" = some (.str s.conversation_id) := h _ (by decide)
  have hsummary : r.get "summary" = some (.str s.summary) := h _ (by decide)
  have hmessages : r.get "messages" =
      some (.arr (s.messages.map fun m => .obj (ConversationMessage.toWire m))) := h _ (by decide)
  have hstart : r.get "message_start_index" = some (.int s.message_start_index) := h _ (by decide)
  have hnext : r.get "next_message_index" = some (.int s.next_message_index) := h _ (by decide)
  have harchived : r.get "archived" = some (.bool s.archived) := h _ (by decide)
  have hpending : (r.get "pending_turns").getD (.arr []) =
      .arr (s.pending_turns.map fun p => .obj p.toWire) := by
    rw [h _ (by decide)]
    exact toWire_pending s
  have hobjects : tryAll (asObject "every conversation message must be an object")
      (s.messages.map fun m => .obj (ConversationMessage.toWire m)) =
      .ok (s.messages.map ConversationMessage.toWire) := tryAll_map fun _ _ => rfl
  have hdecoded : tryAll ConversationMessage.fromWire (s.messages.map ConversationMessage.toWire) =
      .ok (s.messages.map id) := tryAll_map fun m _ => ConversationMessage.fromWire_toWire m
  have hpendingObjects : tryAll (asObject "pending_turns must be an object list")
      (s.pending_turns.map fun p => .obj p.toWire) =
      .ok (s.pending_turns.map PendingTurn.toWire) := tryAll_map fun _ _ => rfl
  have hindex : ∀ (error : String) (n : Nat), readIndex error (.int n) = .ok n := by
    intro error n
    rw [readIndex, if_pos (Int.natCast_nonneg n), Int.toNat_natCast]
  rw [fromWire, hid, hsummary, hmessages, hstart, hnext, harchived, hpending]
  simp only [readText, readList, readBool, Option.getD_some, ok_bind, hindex, hobjects, hdecoded,
    List.map_id, hpendingObjects]

/-- **The round trip.** -/
theorem fromWire_of_decodable {s : ConversationState} {r : Record} (h : SameFields r s.toWire)
    (hpending : ∀ p ∈ s.pending_turns, p.Decodable) : fromWire r = .ok s := by
  have hdecoded : tryAll PendingTurn.fromWire (s.pending_turns.map PendingTurn.toWire) =
      .ok (s.pending_turns.map id) :=
    tryAll_map fun p hp => PendingTurn.fromWire_toWire (hpending p hp)
  rw [fromWire_eq h, hdecoded, List.map_id, ok_bind, construct, dif_pos s.pending_unique,
    dif_pos s.indexes]

/-- **A record with another pending turn is refused.** -/
theorem decodable_of_fromWire {s s' : ConversationState} {r : Record} (h : SameFields r s.toWire)
    (hs : fromWire r = .ok s') : ∀ p ∈ s.pending_turns, p.Decodable := by
  intro p hp
  rw [fromWire_eq h] at hs
  obtain ⟨decoded, hdecoded, -⟩ := bind_ok hs
  refine PendingTurn.fromWire_toWire_iff.mp ?_
  exact tryAll_isOk_iff.mp ⟨decoded, hdecoded⟩ p.toWire (List.mem_map_of_mem hp)

/-! ## In the storage -/

theorem toWire_id (s : ConversationState) : s.toWire.get "id" = none := by
  show s.toWire.rows.lookup "id" = none
  rw [toWire]
  by_cases hnone : s.pending_turns = []
  · simp [hnone, lookup_row]
  · simp [hnone, lookup_row]

theorem message_finite (m : ConversationMessage) :
    Json.finite (.obj (ConversationMessage.toWire m)) = true := by
  obtain ⟨role, content, turn_id⟩ := m
  cases turn_id <;> rfl

theorem toWire_finite (s : ConversationState) : s.toWire.finite = true := by
  have hmessages : Json.allItems Json.finiteLeaf (fun _ => true)
      (s.messages.map fun m => Json.obj (ConversationMessage.toWire m)) = true :=
    allItems_map fun m _ => message_finite m
  have hpending : Json.allItems Json.finiteLeaf (fun _ => true)
      (s.pending_turns.map fun p => Json.obj p.toWire) = true := allItems_map fun _ _ => rfl
  rw [finite_iff]
  intro k v hv
  have hrow := (Table.mem_rows_iff s.toWire).mpr hv
  rw [toWire] at hrow
  simp only [List.mem_append, List.mem_cons, Prod.mk.injEq, List.not_mem_nil, or_false] at hrow
  rcases hrow with (⟨-, rfl⟩ | ⟨-, rfl⟩ | ⟨-, rfl⟩ | ⟨-, rfl⟩ | ⟨-, rfl⟩ | ⟨-, rfl⟩) | hrow
  · rfl
  · rfl
  · exact hmessages
  · rfl
  · rfl
  · rfl
  · split at hrow
    · cases hrow
    · obtain ⟨-, rfl⟩ := Prod.mk.inj (List.mem_singleton.mp hrow)
      exact hpending

/-- Writing the record of a conversation goes through, and reading gives its fields back. -/
theorem put_toWire (db : Records) (s : ConversationState) (hid : s.conversation_id ≠ "") :
    ∃ db', collectionPut db "conversations" s.conversation_id s.toWire = .ok db' ∧
      (∃ r, collectionGet db' "conversations" s.conversation_id = .ok (some r) ∧
        SameFields r s.toWire) ∧
      ∀ k, k ≠ ("conversations", s.conversation_id) → db'.get k = db.get k := by
  have hmatches : idMatches s.toWire s.conversation_id := .inl (toWire_id s)
  refine ⟨_, by rw [collectionPut, if_pos hmatches, dif_pos (toWire_finite s)], ?_, ?_⟩
  · refine ⟨_, collectionGet_put hid (by rw [collectionPut, if_pos hmatches,
      dif_pos (toWire_finite s)]), fun name hname => ?_⟩
    show ((("id", Json.str s.conversation_id) :: (s.toWire.erase "id").rows).lookup name) = _
    rw [lookup_row, if_neg hname]
    exact (Table.get_erase _ _ _).trans (if_neg hname)
  · intro k hk
    exact Table.get_set_ne _ _ hk

end ConversationState

end NuSelf.Conversation.Wire
