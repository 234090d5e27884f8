/-
  The memory collections with the extra payloads of their entries.

  `MemoryTables` leaves the payload of an entry out.  Here each entry has the one that is stored
  with it, so that what the curator reads of an entry (its conflicts, its tags) and what a review
  leaves of it can be told exactly.  Every entry that a review writes is built without a payload.

  1. `PayloadTables.accept` — the acceptance with the payloads; without them it is `accept`
     (`accept_tables`);
  2. `createOutcome`, `changeOutcome` — the candidate that the curator stages for an action;
  3. `createOutcome_case`, `changeOutcome_case` — where no entry has a payload these are the cases
     of `createCase` and `changeCase`.
-/
import NuSelf.Memory.Curation
import NuSelf.Memory.Entry

namespace NuSelf.Memory

open NuSelf.Lib

/-! ## The collections -/

/-- A payload as an entry holds it. -/
abbrev FrozenPayload := {payload : List (String × Json) // payloadFinite payload = true}

def noPayload : FrozenPayload := ⟨[], rfl⟩

def PayloadEntry.of (entry : MemoryEntry) (payload : FrozenPayload) : PayloadEntry :=
  { entry with payload := payload.1, payload_finite := payload.2 }

structure PayloadTables where
  tables : MemoryTables
  /-- The payloads of the entries, by id; an entry without a row here has an empty one. -/
  payloads : Table String FrozenPayload

namespace PayloadTables

def payload (t : PayloadTables) (entry_id : String) : FrozenPayload :=
  (t.payloads.get entry_id).getD noPayload

/-- The stored entry. -/
def entry (t : PayloadTables) (entry_id : String) : Option PayloadEntry :=
  (t.tables.entries.get entry_id).map fun e => PayloadEntry.of e (t.payload entry_id)

/-- `repository.list()`. -/
def list (t : PayloadTables) : List PayloadEntry :=
  (listEntries t.tables).map fun e => PayloadEntry.of e (t.payload e.id)

end PayloadTables

/-! ## Reviews -/

/-- The payloads after a write. -/
def payloadsAfter (payloads : Table String FrozenPayload) :
    Statement → Table String FrozenPayload
  | .saveEntry entry => payloads.erase entry.id
  | .deleteEntry entry_id => payloads.erase entry_id
  | .saveProfileItem _ | .deleteProfileItem _ | .saveCandidate _ => payloads

namespace PayloadTables

variable (uuid5 : String → String)

def transact (t : PayloadTables) (c : MemoryCandidate) (route : ReviewRoute)
    (target_review_state : TargetReviewState) (r : Readings) :
    Except ReviewError (PayloadTables × ReviewTarget) := do
  let commit ← routeCommit uuid5 t.tables c route target_review_state r
  let tables ← performAll commit.statements t.tables
  return (⟨tables, commit.statements.foldl payloadsAfter t.payloads⟩, commit.target)

def accept (t : PayloadTables) (candidate_id : String) (target_review_state : TargetReviewState)
    (r : Readings) : Except ReviewError (PayloadTables × ReviewTarget) := do
  let c ← t.tables.pendingCandidate candidate_id
  let route ← reviewRoute c
  t.transact uuid5 c route target_review_state r

variable {uuid5 : String → String} {t : PayloadTables}

end PayloadTables

/-! ## Conflicts -/

def optionalPayloadStr (payload : String → Option Json) (field_name : String) : String :=
  match payload field_name with
  | some (.str s) => s
  | _ => ""

def optionalMappingStrList (data : String → Option Json) (field_name : String) :
    Except EntryError (List String) :=
  match data field_name with
  | none | some .null => .ok []
  | some (.arr items) => tryAll (expectStrItem field_name) items
  | some _ => entryFieldError field_name "must be a list"

/-- The payload of the memory object of an action. -/
def IncomingMemory.payload (incoming : IncomingMemory) (field_name : String) : Option Json :=
  [("title", Json.str incoming.title), ("body", .str incoming.body),
    ("tags", stringItems incoming.tags)].lookup field_name

/-- The payload field that the descriptor of a type compares. -/
def conflictField (memory_type : String) : Option String :=
  if registered memory_type = false then none
  else if memory_type = "persona_instruction" then some "persona_id"
  else some "title"

/-- `registry.conflicts(existing.to_memory_object(), incoming)`; `lower` is `str.lower`. -/
def registryConflicts (lower : String → String) (existing : PayloadEntry)
    (incoming : IncomingMemory) : Bool :=
  match conflictField existing.type with
  | none => decide (existing.id = incoming.id)
  | some field_name =>
    let a := optionalPayloadStr existing.entryPayload field_name
    let b := optionalPayloadStr incoming.payload field_name
    (decide (a ≠ "") && decide (b ≠ "") && decide (lower (strip a) = lower (strip b))) ||
      decide (existing.id = incoming.id)

/-- The tags of `registry.merge(existing.to_memory_object(), incoming)`; its title and its body are
    the incoming ones. -/
def registryMergeTags (existing : PayloadEntry) (incoming : IncomingMemory) :
    Except EntryError (List String) :=
  if byTitle existing.type = true then do
    let existing_tags ← optionalMappingStrList existing.entryPayload "tags"
    return (existing_tags ++ incoming.tags).eraseDups
  else return incoming.tags

/-! ## The candidate of an action -/

/-- The memory object of an action, under the id that it draws. -/
def MemoryAction.incoming (action : MemoryAction) (r : ActionReadings) : IncomingMemory :=
  { id := r.incoming_id, title := action.title, body := action.body, tags := action.tags }

/-- What a create action comes to. -/
inductive CreateOutcome where
  /-- Its candidate is there already. -/
  | staged (c : MemoryCandidate)
  /-- A conflict: it becomes an update of the entry. -/
  | merged (existing : PayloadEntry) (c : MemoryCandidate)
  | new (c : MemoryCandidate)

section

variable (lower : String → String) (settings : StagingSettings) (t : PayloadTables)

/-- The entries that a create action is compared with. -/
def knownEntries : List PayloadEntry := t.list.take settings.existing_memory_limit

/-- `_create_candidate` up to its first write. -/
def createOutcome (action : MemoryAction) (source : ActionSource) (r : ActionReadings) :
    Except EntryError CreateOutcome :=
  match t.tables.candidates.get source.candidate_id with
  | some c => return .staged c
  | none =>
    match (knownEntries settings t).find? fun existing =>
        registryConflicts lower existing (action.incoming r) with
    | some existing => do
      let tags ← registryMergeTags existing (action.incoming r)
      return .merged existing (updateCandidate source action existing.toMemoryEntry
        action.title action.body tags r.readings.now)
    | none => return .new (newCandidate source action r.readings.now)

/-- `_update_candidate` up to its first write: the entry and its new candidate. -/
def changeOutcome (action : MemoryAction) (source : ActionSource) (r : ActionReadings) :
    Option (PayloadEntry × MemoryCandidate) :=
  match t.tables.candidates.get source.candidate_id with
  | some _ => none
  | none =>
    match action.entry_id.bind t.entry with
    | none => none
    | some existing =>
      some (existing, updateCandidate source action existing.toMemoryEntry
        (if action.title = "" then existing.title else action.title)
        (if action.body = "" then existing.body else action.body) action.tags r.readings.now)

end

/-! ## Without payloads -/

theorem optionalPayloadStr_title {e : PayloadEntry} (h : e.payload = []) :
    optionalPayloadStr e.entryPayload "title" = e.title := by
  have htitle : e.entryPayload "title" = some (.str e.title) := by
    rw [PayloadEntry.entryPayload, h]
    rfl
  rw [optionalPayloadStr, htitle]

theorem tryAll_texts (field_name : String) : ∀ items : List String,
    tryAll (expectStrItem field_name) (items.map Json.str) = .ok items
  | [] => rfl
  | item :: items => by
    rw [List.map_cons, tryAll_cons_ok]
    exact ⟨item, items, rfl, tryAll_texts field_name items, rfl⟩

theorem optionalMappingStrList_tags {e : PayloadEntry} (h : e.payload = []) :
    optionalMappingStrList e.entryPayload "tags" = .ok e.tags := by
  have htags : e.entryPayload "tags" = some (.arr (e.tags.map .str)) := by
    rw [PayloadEntry.entryPayload, h]
    rfl
  rw [optionalMappingStrList, htags]
  exact tryAll_texts "tags" e.tags

/-- **Without a payload** the registry compares titles, or ids. -/
theorem registryConflicts_of_no_payload (lower : String → String) {existing : PayloadEntry}
    (incoming : IncomingMemory) (h : existing.payload = []) :
    registryConflicts lower existing incoming =
      conflicts lower existing.toMemoryEntry incoming := by
  have hincoming : optionalPayloadStr incoming.payload "title" = incoming.title := rfl
  have hpersona : optionalPayloadStr incoming.payload "persona_id" = "" := rfl
  unfold registryConflicts conflictField conflicts byTitle
  by_cases hregistered : registered existing.type = false
  · rw [if_pos hregistered, hregistered]
    rfl
  · rw [if_neg hregistered, Bool.of_not_eq_false hregistered]
    by_cases htype : existing.type = "persona_instruction"
    · -- an action has no persona id
      rw [if_pos htype]
      dsimp only
      rw [hpersona, decide_eq_false (not_not.mpr htype)]
      simp
    · rw [if_neg htype]
      dsimp only
      rw [hincoming, optionalPayloadStr_title h, decide_eq_true htype]
      rfl

theorem registryMergeTags_of_no_payload {existing : PayloadEntry} (incoming : IncomingMemory)
    (h : existing.payload = []) :
    registryMergeTags existing incoming = .ok (mergedTags existing.toMemoryEntry incoming) := by
  unfold registryMergeTags mergedTags
  split_ifs
  · rw [optionalMappingStrList_tags h]
    rfl
  · rfl

namespace PayloadTables

variable {t : PayloadTables}

theorem payload_of_empty (h : t.payloads = Table.empty) (entry_id : String) :
    t.payload entry_id = noPayload := by
  rw [payload, h]
  rfl

theorem list_of_empty (h : t.payloads = Table.empty) :
    t.list = (listEntries t.tables).map fun e => PayloadEntry.of e noPayload := by
  unfold list
  refine List.map_congr_left fun e _ => ?_
  rw [payload_of_empty h]

end PayloadTables

/-- The case of an outcome. -/
def CreateOutcome.case (source : ActionSource) : CreateOutcome → ActionCase
  | .staged c => stagedCase source c
  | .merged _ c | .new c => .new c

/-- **Where no entry has a payload**, a create action comes to what `createCase` says. -/
theorem createOutcome_case (lower : String → String) (settings : StagingSettings)
    {t : PayloadTables} (h : t.payloads = Table.empty) (action : MemoryAction)
    (source : ActionSource) (r : ActionReadings) :
    (createOutcome lower settings t action source r).map (CreateOutcome.case source) =
      .ok (createCase lower settings t.tables action source r) := by
  unfold createOutcome createCase
  cases t.tables.candidates.get source.candidate_id with
  | some c => rfl
  | none =>
    dsimp only
    rw [knownEntries, PayloadTables.list_of_empty h, ← List.map_take, List.find?_map]
    have hsame : ((fun existing : PayloadEntry =>
          registryConflicts lower existing (action.incoming r)) ∘
        fun e => PayloadEntry.of e noPayload) =
        fun existing => conflicts lower existing
          ⟨r.incoming_id, action.title, action.body, action.tags⟩ := by
      funext e
      exact registryConflicts_of_no_payload lower _ rfl
    rw [hsame]
    cases ((listEntries t.tables).take settings.existing_memory_limit).find? fun existing =>
        conflicts lower existing ⟨r.incoming_id, action.title, action.body, action.tags⟩ with
    | none => rfl
    | some existing =>
      dsimp only [Option.map_some]
      rw [registryMergeTags_of_no_payload _ rfl]
      rfl

theorem changeOutcome_case {t : PayloadTables} (h : t.payloads = Table.empty)
    (action : MemoryAction) (source : ActionSource) (r : ActionReadings)
    (hfree : t.tables.candidates.get source.candidate_id = none) :
    (match changeOutcome t action source r with
      | some (_, c) => ActionCase.new c
      | none => .targetMissing) = changeCase t.tables action source r := by
  unfold changeOutcome changeCase
  rw [hfree]
  dsimp only
  have hentry : action.entry_id.bind t.entry =
      (action.entry_id.bind t.tables.entries.get).map fun e => PayloadEntry.of e noPayload := by
    cases action.entry_id with
    | none => rfl
    | some entry_id =>
      show (t.tables.entries.get entry_id).map _ = (t.tables.entries.get entry_id).map _
      rw [PayloadTables.payload_of_empty h]
  rw [hentry]
  cases action.entry_id.bind t.tables.entries.get with
  | none => rfl
  | some existing => rfl

end NuSelf.Memory
