/-
  Generic inspection and repair of records: `DataAdminService`.

  A resource names a collection.  Two resources are editable; `update` decodes the object as a
  record of theirs and hands it to the repository, which writes it under the key that it finds in
  the decoded record.  The check before that looks at the field `id` of the object, and only where
  there is none at `conversation_id`.

  1. `update_memory`, `update_conversation` — what a successful update writes, and under which key.
  2. **The law** (`Framed`) — an update that raises changes nothing; one that returns has replaced
     the addressed record and no other.
  3. `update_framed_iff` — the law holds of an object exactly when it does not name a second
     conversation (`NamesOther`).
-/
import NuSelf.Conversation.Records
import NuSelf.Memory.Entry

namespace NuSelf.Application

open NuSelf.Lib NuSelf.Storage
open NuSelf.Conversation.Wire (ConversationState RecordsError)
open NuSelf.Memory (PayloadEntry EntryError)

/-! ## Resources -/

structure DataResource where
  name : String
  collection : String
  editable : Bool := false
  internal : Bool := false
  deriving DecidableEq

/-- `_RESOURCES`. -/
def dataResources : List DataResource :=
  [{ name := "memory", collection := "memory_entries", editable := true },
    { name := "candidates", collection := "memory_candidates" },
    { name := "conversations", collection := "conversations", editable := true },
    { name := "profile", collection := "profile_items" },
    { name := "sources", collection := "source_documents" },
    { name := "source-chunks", collection := "source_chunks" },
    { name := "persona", collection := "persona_prompts" },
    { name := "reason-threads", collection := "reason_threads" },
    { name := "reason-steps", collection := "reason_steps" },
    { name := "traces", collection := "trace_nodes" },
    { name := "trace-edges", collection := "trace_edges" },
    { name := "inbox", collection := "inbox_items" },
    { name := "deliveries", collection := "delivery_records" },
    { name := "reflections", collection := "reflection_entries" },
    { name := "memory_observations", collection := "memory_observations", internal := true },
    { name := "memory_curator_plans", collection := "memory_curator_plans", internal := true },
    { name := "scheduler_state", collection := "scheduler_state", internal := true }]

inductive DataError where
  | unknownResource (name : String)
  | internalResource (name : String)
  | identityChanged
  | noContract (name : String)
  | readOnly (name : String)
  | memory (e : EntryError)
  /-- `MemoryEntryNotFound`. -/
  | entryNotFound (entry_id : String)
  | conversation (e : RecordsError)
  deriving DecidableEq

def DataError.text : DataError → Option String
  | .unknownResource name => some ("unknown data resource: " ++ name)
  | .internalResource name => some ("internal resource requires --internal: " ++ name)
  | .identityChanged => some "data update cannot change stable identity"
  | .noContract name => some ("data resource has no generic validation contract: " ++ name)
  | .readOnly name => some ("data resource is read-only: " ++ name)
  -- the errors of the repositories pass through
  | .memory _ | .entryNotFound _ | .conversation _ => none

def resolve (name : String) (internal : Bool) : Except DataError DataResource :=
  match dataResources.find? fun item => decide (name = item.name ∨ name = item.collection) with
  | none => .error (.unknownResource name)
  | some resource =>
    if resource.internal = true ∧ internal = false then .error (.internalResource name)
    else .ok resource

/-! ## Operations -/

section

variable (db : Records) (resource : DataResource) (record_id : String)

/-- `record.get("id", record.get("conversation_id"))`. -/
def identity (record : Record) : Option Json := (record.get "id").or (record.get "conversation_id")

def fromMemory {α : Type} : Except EntryError α → Except DataError α
  | .ok a => .ok a
  | .error e => .error (.memory e)

def fromConversation {α : Type} : Except RecordsError α → Except DataError α
  | .ok a => .ok a
  | .error e => .error (.conversation e)

/-- `update`; `now` is the clock. -/
def update (record : Record) (now : String) : Except DataError Records := do
  if identity record ≠ some (.str record_id) then .error .identityChanged
  else if resource.editable = false then .error (.noContract resource.name)
  else if resource.collection = "memory_entries" then
    let decoded ← fromMemory (PayloadEntry.fromWire record)
    fromMemory (Memory.saveEntry db decoded now)
  else
    let decoded ← fromConversation (Conversation.Wire.decodeRaw record)
    let (db, _) ← fromConversation (Conversation.Wire.save db decoded)
    return db

def delete : Except DataError Records :=
  if resource.editable = false then .error (.readOnly resource.name)
  else if resource.collection = "memory_entries" then
    match collectionGet db "memory_entries" record_id with
    | .error e => .error (.memory (.storage e))
    | .ok none => .error (.entryNotFound record_id)
    | .ok (some _) => .ok (collectionDelete db "memory_entries" record_id)
  else do
    let (db, _) ← fromConversation (Conversation.Wire.delete db record_id)
    return db

/-- The rows after a call, and what it raises. -/
def after : Except DataError Records → Records × Option DataError
  | .ok db' => (db', none)
  | .error e => (db, some e)

end

/-! ## What an update writes -/

theorem fromMemory_ok {α : Type} {x : Except EntryError α} {a : α} (h : fromMemory x = .ok a) :
    x = .ok a := by
  cases x with
  | error e => cases h
  | ok b =>
    cases h
    rfl

theorem fromConversation_ok {α : Type} {x : Except RecordsError α} {a : α}
    (h : fromConversation x = .ok a) : x = .ok a := by
  cases x with
  | error e => cases h
  | ok b =>
    cases h
    rfl

theorem decodeRaw_ok {record : Record} {state : ConversationState} :
    Conversation.Wire.decodeRaw record = .ok state ↔ ConversationState.fromWire record = .ok state := by
  rw [Conversation.Wire.decodeRaw]
  cases ConversationState.fromWire record with
  | error e => constructor <;> rintro ⟨⟩
  | ok s => exact ⟨fun h => by cases h; rfl, fun h => by cases h; rfl⟩

theorem entry_id {record : Record} {e : PayloadEntry} (h : PayloadEntry.fromWire record = .ok e) :
    record.get "id" = some (.str e.id) := by
  have hstr : ∀ {v : Option Json} {s : String}, Memory.expectStr "id" v = .ok s →
      v = some (.str s) := by
    intro v s hv
    unfold Memory.expectStr at hv
    split at hv
    · cases hv
      rfl
    · cases hv
  obtain ⟨id, hid, h⟩ := bind_ok h
  -- the other fields are read, and the entry is made of what was read
  iterate 19
    obtain ⟨_, -, h⟩ := bind_ok h
  rw [PayloadEntry.construct] at h
  split at h
  · cases h
    exact hstr hid
  · cases h

theorem update_memory {db db' : Records} {resource : DataResource} {record_id now : String}
    {record : Record} (hcollection : resource.collection = "memory_entries")
    (h : update db resource record_id record now = .ok db') :
    ∃ decoded entry p, PayloadEntry.fromWire record = .ok decoded ∧
      decoded.admitted now = .ok entry ∧ db' = db.set ("memory_entries", record_id) p ∧
      p.record = entry.toWire.erase "id" := by
  rw [update] at h
  split at h
  · cases h
  · rename_i hidentity
    split at h
    · cases h
    · obtain ⟨decoded, hdecoded, h⟩ := bind_ok h
      have hdecoded := fromMemory_ok hdecoded
      obtain ⟨entry, p, hadmitted, hdb, hp⟩ := Memory.saveEntry_ok (fromMemory_ok h)
      have hid := entry_id hdecoded
      have hrecord : decoded.id = record_id := by
        rw [identity, hid, Option.some_or] at hidentity
        simpa using hidentity
      rw [hrecord] at hdb
      exact ⟨decoded, entry, p, hdecoded, hadmitted, hdb, hp⟩

/-- What a successful update of a conversation writes: the row of the id that the object names. -/
theorem update_conversation {db db' : Records} {resource : DataResource} {record_id now : String}
    {record : Record} (hcollection : resource.collection ≠ "memory_entries")
    (h : update db resource record_id record now = .ok db') :
    ∃ state p, ConversationState.fromWire record = .ok state ∧
      Conversation.validId state.conversation_id = true ∧
      db' = db.set ("conversations", state.conversation_id) p ∧
      p.record = state.toWire.erase "id" := by
  rw [update] at h
  split at h
  · cases h
  · split at h
    · cases h
    · obtain ⟨state, hstate, h⟩ := bind_ok h
      obtain ⟨⟨db₁, effect⟩, hsave, h⟩ := bind_ok h
      cases h
      obtain ⟨⟨⟩, hid, hsave⟩ := bind_ok (fromConversation_ok hsave)
      obtain ⟨p, hdb, hrecord, -⟩ := Conversation.Wire.saveUnlocked_ok hsave
      exact ⟨state, p, decodeRaw_ok.mp (fromConversation_ok hstate),
        Conversation.Wire.checkId_valid hid, hdb, hrecord⟩

/-- An update of a conversation goes through if its object has the identity, decodes, and names a
    valid id. -/
theorem update_conversation_ok (db : Records) {resource : DataResource} {record_id now : String}
    {record : Record} {state : ConversationState} (heditable : resource.editable = true)
    (hcollection : resource.collection ≠ "memory_entries")
    (hidentity : identity record = some (.str record_id))
    (hstate : ConversationState.fromWire record = .ok state)
    (hvalid : Conversation.validId state.conversation_id = true) :
    ∃ db', update db resource record_id record now = .ok db' := by
  obtain ⟨db', hput, -, -⟩ :=
    ConversationState.put_toWire db state (Conversation.Wire.validId_ne hvalid)
  refine ⟨db', ?_⟩
  rw [update, if_neg (not_not.mpr hidentity), heditable, if_neg (by simp), if_neg hcollection,
    decodeRaw_ok.mpr hstate]
  simp only [fromConversation, ok_bind, Conversation.Wire.save, Conversation.Wire.checkId, hvalid,
    Bool.true_eq_false, if_false, Conversation.Wire.saveUnlocked, hput,
    Conversation.Wire.fromStorage]
  rfl

/-! ## The law -/

/-- The record under an id. -/
def recordAt (db : Records) (collection id : String) : Option Record :=
  (db.get (collection, id)).map Payload.record

/-- The record that the repository of a resource makes of an object, without the id. -/
def saved (resource : DataResource) (record : Record) (now : String) : Except DataError Record :=
  if resource.collection = "memory_entries" then do
    let decoded ← fromMemory (PayloadEntry.fromWire record)
    let entry ← fromMemory (decoded.admitted now)
    return entry.toWire.erase "id"
  else do
    let decoded ← fromConversation (Conversation.Wire.decodeRaw record)
    return decoded.toWire.erase "id"

/-- The addressed record is the saved one and every other is what it was. -/
structure Replaced (db db' : Records) (resource : DataResource) (record_id : String)
    (record : Record) (now : String) : Prop where
  addressed : ∃ r, saved resource record now = .ok r ∧
    recordAt db' resource.collection record_id = some r
  other : ∀ collection id, (collection, id) ≠ (resource.collection, record_id) →
    recordAt db' collection id = recordAt db collection id

/-- An update changes the addressed record only. -/
def Framed (db : Records) (resource : DataResource) (record_id : String) (record : Record)
    (now : String) : Prop :=
  let result := after db (update db resource record_id record now)
  (result.2 ≠ none ∧ result.1 = db) ∨
    (result.2 = none ∧ Replaced db result.1 resource record_id record now)

/-- The object has its identity in `id` and decodes as another conversation. -/
structure NamesOther (resource : DataResource) (record_id : String) (record : Record) : Prop where
  conversations : resource.collection = "conversations"
  id : record.get "id" = some (.str record_id)
  other : ∃ other, record.get "conversation_id" = some (.str other) ∧ other ≠ record_id ∧
    Conversation.validId other = true
  decodes : ∃ state, ConversationState.fromWire record = .ok state

section

variable {db db' : Records} {resource : DataResource} {record_id now : String} {record : Record}

theorem editable_collection (h : resource ∈ dataResources) (heditable : resource.editable = true) :
    resource.collection = "memory_entries" ∨ resource.collection = "conversations" := by
  have hall : ∀ r ∈ dataResources, r.editable = true →
      r.collection = "memory_entries" ∨ r.collection = "conversations" := by decide
  exact hall resource h heditable

theorem update_editable (h : update db resource record_id record now = .ok db') :
    resource.editable = true := by
  rw [update] at h
  split at h
  · cases h
  · split at h
    · cases h
    · rename_i heditable
      simpa using heditable

theorem update_identity (h : update db resource record_id record now = .ok db') :
    identity record = some (.str record_id) := by
  rw [update] at h
  split at h
  · cases h
  · rename_i hidentity
    exact not_not.mp hidentity

theorem recordAt_set_self (db : Records) (collection id : String) (p : Payload) :
    recordAt (db.set (collection, id) p) collection id = some p.record := by
  rw [recordAt, Table.get_set_self]
  rfl

theorem recordAt_set_ne {collection id collection' id' : String} (p : Payload)
    (hne : (collection', id') ≠ (collection, id)) :
    recordAt (db.set (collection, id) p) collection' id' = recordAt db collection' id' := by
  rw [recordAt, Table.get_set_ne _ _ hne]
  rfl

theorem replaced_of_set {r : Record} {p : Payload}
    (hsaved : saved resource record now = .ok r) (hp : p.record = r)
    (hdb : db' = db.set (resource.collection, record_id) p) :
    Replaced db db' resource record_id record now := by
  subst hdb
  refine ⟨⟨r, hsaved, ?_⟩, fun collection id hne => recordAt_set_ne p hne⟩
  rw [recordAt_set_self, hp]

/-- An update that returns has replaced the addressed record, if the object does not name another
    conversation. -/
theorem update_replaced (hresource : resource ∈ dataResources)
    (hother : ¬ NamesOther resource record_id record)
    (h : update db resource record_id record now = .ok db') :
    Replaced db db' resource record_id record now := by
  by_cases hcollection : resource.collection = "memory_entries"
  · obtain ⟨decoded, entry, p, hdecoded, hadmitted, hdb, hp⟩ := update_memory hcollection h
    refine replaced_of_set ?_ hp (by rw [hdb, hcollection])
    rw [saved, if_pos hcollection, hdecoded]
    simp only [fromMemory, ok_bind, hadmitted]
    rfl
  · obtain ⟨state, p, hstate, hvalid, hdb, hp⟩ := update_conversation hcollection h
    have hconversations : resource.collection = "conversations" :=
      (editable_collection hresource (update_editable h)).resolve_left hcollection
    have hid : state.conversation_id = record_id := by
      by_contra hne
      have hidentity := update_identity h
      rw [identity] at hidentity
      cases hget : record.get "id" with
      | none =>
        -- the identity is the `conversation_id` itself
        rw [hget, ConversationState.get_conversation_id hstate] at hidentity
        simp only [Option.none_or, Option.some.injEq, Json.str.injEq] at hidentity
        exact hne hidentity
      | some v =>
        rw [hget, Option.some_or] at hidentity
        exact hother ⟨hconversations, hget.trans hidentity,
          ⟨state.conversation_id, ConversationState.get_conversation_id hstate, hne, hvalid⟩,
          ⟨state, hstate⟩⟩
    refine replaced_of_set ?_ hp (by rw [hdb, hid, hconversations])
    rw [saved, if_neg hcollection, decodeRaw_ok.mpr hstate]
    rfl

/-- An object that names another conversation overwrites that one, and the addressed record stays
    as it is. -/
theorem update_other (hresource : resource ∈ dataResources)
    (hother : NamesOther resource record_id record) (db : Records) :
    ∃ state p, ConversationState.fromWire record = .ok state ∧ state.conversation_id ≠ record_id ∧
      update db resource record_id record now =
        .ok (db.set ("conversations", state.conversation_id) p) := by
  obtain ⟨other, hget, hne, hvalid⟩ := hother.other
  obtain ⟨state, hstate⟩ := hother.decodes
  have hid : state.conversation_id = other := by
    have hget' := ConversationState.get_conversation_id hstate
    rw [hget] at hget'
    cases hget'
    rfl
  have hcollection : resource.collection ≠ "memory_entries" := by
    rw [hother.conversations]
    decide
  have heditable : resource.editable = true := by
    have hall : ∀ r ∈ dataResources, r.collection = "conversations" → r.editable = true := by
      decide
    exact hall resource hresource hother.conversations
  have hidentity : identity record = some (.str record_id) := by
    rw [identity, hother.id]
    rfl
  rw [← hid] at hvalid hne
  obtain ⟨db', hupdate⟩ : ∃ db', update db resource record_id record now = .ok db' :=
    update_conversation_ok db heditable hcollection hidentity hstate hvalid
  obtain ⟨state', p, hstate', -, hdb, -⟩ := update_conversation hcollection hupdate
  rw [hstate] at hstate'
  cases hstate'
  exact ⟨state, p, hstate, hne, by rw [hupdate, hdb]⟩

theorem not_framed_of_other (hresource : resource ∈ dataResources)
    (hother : NamesOther resource record_id record) :
    ¬ Framed .empty resource record_id record now := by
  -- in an empty store nothing is under the addressed id afterwards
  obtain ⟨state, p, -, hne, hupdate⟩ :=
    @update_other resource record_id now record hresource hother .empty
  rintro (⟨hraised, -⟩ | ⟨-, hreplaced⟩)
  · rw [hupdate] at hraised
    exact hraised rfl
  · rw [hupdate] at hreplaced
    obtain ⟨r, -, hr⟩ := hreplaced.addressed
    rw [hother.conversations] at hr
    have hkey : ("conversations", record_id) ≠ ("conversations", state.conversation_id) := by
      intro heq
      exact hne (Prod.mk.inj heq).2.symm
    rw [after, recordAt_set_ne p hkey] at hr
    cases hr

/-- **The law of an update.**  Whatever the store holds, an update of a resource changes the
    addressed record only, or raises and changes none; unless the object gives its identity in
    `id` and is a conversation of another valid id. -/
theorem update_framed_iff (hresource : resource ∈ dataResources) :
    (∀ db, Framed db resource record_id record now) ↔ ¬ NamesOther resource record_id record := by
  constructor
  · intro hall hother
    exact not_framed_of_other hresource hother (hall .empty)
  · intro hother db
    cases hupdate : update db resource record_id record now with
    | error e =>
      refine .inl ⟨?_, ?_⟩
      · rw [hupdate]
        exact nofun
      · rw [hupdate]
        rfl
    | ok db' =>
      refine .inr ⟨?_, ?_⟩
      · rw [hupdate]
        rfl
      · rw [hupdate]
        exact update_replaced hresource hother hupdate

end

/-- An object with one conversation as its `id` and another as its `conversation_id`. -/
def twoNames (id conversation_id : String) : Record where
  rows := [("id", .str id), ("conversation_id", .str conversation_id), ("summary", .str ""),
    ("messages", .arr [])]
  nodup := by simp

/-- The conversations. -/
def conversationsResource : DataResource :=
  { name := "conversations", collection := "conversations", editable := true }

theorem update_framed_iff_same :
    (∀ db, Framed db conversationsResource "A" (twoNames "A" "A") "2026-01-01T12:00:00+00:00") ↔
      ¬ NamesOther conversationsResource "A" (twoNames "A" "A") :=
  update_framed_iff (by decide)

/-- The update of one conversation overwrites another. -/
theorem update_overwrites_other :
    ¬ ∀ resource ∈ dataResources, ∀ (db : Records) (record_id : String) (record : Record)
      (now : String), Framed db resource record_id record now := by
  intro h
  have hother : NamesOther conversationsResource "A" (twoNames "A" "B") :=
    ⟨rfl, rfl, ⟨"B", rfl, by decide, by decide⟩, ⟨_, rfl⟩⟩
  exact not_framed_of_other (by decide) hother
    (h conversationsResource (by decide) .empty "A" (twoNames "A" "B") "2026-01-01T12:00:00+00:00")

end NuSelf.Application
