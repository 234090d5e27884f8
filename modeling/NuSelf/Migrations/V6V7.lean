/-
  Schema v6 and v7: curation by conversation cursors becomes curation of observations.

  The upgrade goes through the conversations.  From the first message that the curator has not
  processed it cuts at most two ranges, the one that a stored plan has decided on and the rest, and
  publishes each as a pending observation under an id derived from the conversation and the range;
  the plan moves to the observation of its range.  Then the cursors go, the evidence of memory
  records is retagged, and plans that an earlier downgrade has parked come back.

  `uuid5` is the hexadecimal name-based identifier of a text.  What the upgrade publishes is not
  visible in its result otherwise, so `upgradeLogged` returns it with the new table.
-/
import NuSelf.Lib.Sequence
import NuSelf.Migrations.Evidence

namespace NuSelf.Migrations.V6V7

open NuSelf.Lib NuSelf.Storage NuSelf.Migrations

/-! ## Rows -/

/-- `_put`: write a row that is not there, accept one with the very same text. -/
def putRecord (db : Records) (collection record_id : String) (payload : Record) :
    Except MigrationError Records :=
  let stored_payload := payload.erase "id"
  match db.get (collection, record_id) with
  | some existing =>
    if existing.canonical = true ∧ existing.record = stored_payload then .ok db
    else .error (.identityCollision collection record_id)
  | none =>
    match dumps stored_payload with
    | .error e => .error e
    | .ok p => .ok (db.set (collection, record_id) p)

/-! ## Publishing a range -/

/-- `f"{role}: {content}"` of one message. -/
def fragmentOf : Json → Except MigrationError String
  | .obj message =>
    match message.lookup "role", message.lookup "content" with
    | some (.str role), some (.str content) => .ok (role ++ ": " ++ content)
    | _, _ => .error .invalidMessage
  | _ => .error .invalidMessage

def fragments (state : Record) (start stop : Int) : Except MigrationError (List String) :=
  match (state.get "message_start_index").getD (.int 0), state.get "messages" with
  | .int visible_start, some (.arr messages) =>
    tryAll fragmentOf (slice messages (start - visible_start) (stop - visible_start))
  | _, _ => .error .invalidRange

/-- What one call of `_publish_range` publishes: the messages of a range, at least one. -/
structure Publication where
  conversation_id : String
  start_index : Int
  end_index : Int
  fragments : List String
  nonempty : fragments ≠ []

section

variable (uuid5 : String → String)

def sourceRef (conversation_id : String) (start stop : Int) : String :=
  "interaction:" ++ uuid5 (conversation_id ++ ":" ++ toString start ++ "-" ++ toString stop)

def observationId (source_ref : String) : String := "obs_" ++ uuid5 source_ref

def Publication.source_ref (o : Publication) : String :=
  sourceRef uuid5 o.conversation_id o.start_index o.end_index

def Publication.observation_id (o : Publication) : String := observationId uuid5 (o.source_ref uuid5)

def migrationTime : String := "1970-01-01T00:00:00+00:00"

/-- The observation of a publication, as the upgrade hands it to `_put`. -/
def Publication.observation (o : Publication) : Record where
  rows := [("id", .str (o.observation_id uuid5)), ("source_ref", .str (o.source_ref uuid5)),
    ("fragments", .arr (o.fragments.map Json.str)), ("observed_at", .str migrationTime),
    ("status", .str "pending"), ("source_trace_id", .null)]
  nodup := by simp

def publishRange (db : Records) (conversation_id : String) (state : Record) (start stop : Int) :
    Except MigrationError (Records × Option Publication) :=
  if stop ≤ start then .ok (db, none)
  else
    match fragments state start stop with
    | .error e => .error e
    | .ok texts =>
      if h : texts = [] then .ok (db, none)
      else
        let published : Publication := ⟨conversation_id, start, stop, texts, h⟩
        match putRecord db "memory_observations" (published.observation_id uuid5)
          (published.observation uuid5) with
        | .error e => .error e
        | .ok db => .ok (db, some published)

/-! ## One conversation -/

/-- The indexes of a conversation, and the cursor of the curator in it. -/
structure Bounds where
  visible_start : Int
  visible_end : Int
  cursor : Int
  deriving DecidableEq

/-- The first visible message that the curator has not processed. -/
def Bounds.start (b : Bounds) : Int := max b.visible_start b.cursor

/-- `cursors.get(conversation_id, 0)`. -/
def cursorOf (db : Records) (conversation_id : String) : Json :=
  match db.get ("memory_curator_cursors", conversation_id) with
  | none => .int 0
  | some p => (p.record.get "processed_message_count").getD (.int 0)

def readBounds (db : Records) (conversation_id : String) (state : Record) :
    Except MigrationError Bounds :=
  match (state.get "message_start_index").getD (.int 0), state.get "next_message_index",
    cursorOf db conversation_id with
  | .int visible_start, some (.int visible_end), .int cursor =>
    .ok ⟨visible_start, visible_end, cursor⟩
  | _, _, _ => .error .invalidCursor

/-- The fields of a v6 curator plan that the upgrade reads. -/
structure StoredPlan where
  source_start : Int
  source_end : Int
  actions : List Json
  observed_at : String

def readPlan (plan : Record) : Except MigrationError StoredPlan :=
  match plan.get "source_start", plan.get "source_end", plan.get "actions",
    plan.get "observed_at" with
  | some (.int source_start), some (.int source_end), some (.arr actions), some (.str observed_at) =>
    .ok ⟨source_start, source_end, actions, observed_at⟩
  | _, _, _, _ => .error .invalidPlan

/-- The plan in its v7 form, for the observation of its range. -/
def StoredPlan.moved (plan : StoredPlan) (o : Publication) : Record where
  rows := [("observation_id", .str (o.observation_id uuid5)),
    ("source_ref", .str (o.source_ref uuid5)), ("observed_at", .str plan.observed_at),
    ("actions", .arr plan.actions)]
  nodup := by simp

/-- `UPDATE records SET id = ..., payload = ...` on the plan of a conversation. -/
def movePlan (db : Records) (conversation_id : String) (plan : StoredPlan) (o : Publication) :
    Except MigrationError Records :=
  let observation_id := o.observation_id uuid5
  if db.contains ("memory_curator_plans", conversation_id) = false then .ok db
  else
    match dumps (plan.moved uuid5 o) with
    | .error e => .error e
    | .ok p =>
      if observation_id ≠ conversation_id ∧
          db.contains ("memory_curator_plans", observation_id) = true then .error .integrity
      else
        .ok ((db.erase ("memory_curator_plans", conversation_id)).set
          ("memory_curator_plans", observation_id) p)

/-- The plan follows its range if that was published. -/
def attachPlan (db : Records) (conversation_id : String) (plan : StoredPlan) :
    Option Publication → Except MigrationError Records
  | none => .ok db
  | some o => movePlan uuid5 db conversation_id plan o

/-- The body of the loop over the conversations; `db₀` is the table that the cursors and the plans
    were loaded from. -/
def upgradeConversation (db₀ db : Records) (conversation_id : String) (state : Record) :
    Except MigrationError (Records × List Publication) := do
  let bounds ← readBounds db₀ conversation_id state
  match db₀.get ("memory_curator_plans", conversation_id) with
  | none =>
    let (db, rest) ← publishRange uuid5 db conversation_id state bounds.start bounds.visible_end
    return (db, rest.toList)
  | some stored =>
    let plan ← readPlan stored.record
    let (db, planned) ← publishRange uuid5 db conversation_id state
      (max bounds.start plan.source_start) plan.source_end
    let db ← attachPlan uuid5 db conversation_id plan planned
    let (db, rest) ← publishRange uuid5 db conversation_id state
      (max bounds.start plan.source_end) bounds.visible_end
    return (db, planned.toList ++ rest.toList)

/-- The loop over the conversations; the log has the publications of each. -/
def upgradeConversations (db₀ : Records) : List (String × Record) → Records →
    Except MigrationError (Records × List (String × List Publication))
  | [], db => .ok (db, [])
  | (conversation_id, state) :: rest, db => do
    let (db, published) ← upgradeConversation uuid5 db₀ db conversation_id state
    let (db, log) ← upgradeConversations db₀ rest db
    return (db, (conversation_id, published) :: log)

/-! ## The migration -/

def anonymizeLegacyRef (value : String) : String :=
  if hasPrefix "conversation:" value = true then
    "interaction:" ++ uuid5 (dropPrefix "conversation:" value)
  else value

/-- `_rewrite_evidence` on a record. -/
def rewriteEvidence (upgrade : Bool) (record : Record) : Record :=
  if upgrade = true then
    walkRecord "conversation" "observation" (some (anonymizeLegacyRef uuid5)) record
  else walkRecord "observation" "conversation" none record

def evidenceTransforms (upgrade : Bool) :
    List (String × (Record → Except MigrationError Record)) :=
  [("memory_entries", fun record => .ok (rewriteEvidence uuid5 upgrade record)),
    ("memory_candidates", fun record => .ok (rewriteEvidence uuid5 upgrade record)),
    ("profile_items", fun record => .ok (rewriteEvidence uuid5 upgrade record))]

/-- The evidence of memory records, then the suggested conversations of reflections. -/
def upgradeTransforms : List (String × (Record → Except MigrationError Record)) :=
  evidenceTransforms uuid5 true ++
    [("reflection_entries", fun record => .ok (record.erase "suggested_conversation_id"))]

/-- Put the parked plans back. -/
def restorePlans : List (String × Record) → Records → Except MigrationError Records
  | [], db => .ok db
  | (record_id, record) :: rest, db => do
    let db ← putRecord db "memory_curator_plans" record_id record
    restorePlans rest db

/-- `upgrade`, with the publications of each conversation. -/
def upgradeLogged (db : Records) :
    Except MigrationError (Records × List (String × List Publication)) := do
  let held_plans := loadRecords db "memory_observation_plans"
  let (db, log) ← upgradeConversations uuid5 db (loadRecords db "conversations") db
  let db := db.keep fun k => decide (k.1 ≠ "memory_curator_cursors")
  let db ← rewriteAll (upgradeTransforms uuid5) db
  let db ← restorePlans held_plans db
  return (db.keep fun k => decide (k.1 ≠ "memory_observation_plans"), log)

def upgrade (db : Records) : Except MigrationError Records :=
  (upgradeLogged uuid5 db).map Prod.fst

def downgrade (db : Records) : Except MigrationError Records :=
  if db.hasCollection "memory_observation_plans" = true then .error .holdingExists
  else
    match db.rekey (moveKey ("memory_curator_plans", "memory_observation_plans")) with
    | none => .error .integrity
    | some db => rewriteAll (evidenceTransforms uuid5 false) db

end

end NuSelf.Migrations.V6V7
