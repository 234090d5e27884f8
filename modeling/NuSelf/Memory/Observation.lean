/-
  Memory observations: the durable inbox of curation.

  A producer publishes a batch of text fragments under a reference of its own; the id of the
  observation is derived from the reference, so publishing again is idempotent as long as the
  fragments are the same.  `uuid5` is the hexadecimal name-based identifier of a text, the clock's
  reading is an input.

  1. `MemoryObservation.fromWire_toWire` — the wire form of a well-formed observation decodes to it;
  2. `observe_of_free`, `observe_of_holds`, `markProcessed_keeps` — what the inbox holds afterwards;
  3. `publish_eq` — publishing a turn observes one observation that is always well formed.
-/
import Mathlib.Data.List.Sort
import NuSelf.Conversation.Model
import NuSelf.Lib.Text
import NuSelf.Storage.Collection

namespace NuSelf.Memory

open NuSelf.Conversation NuSelf.Lib NuSelf.Storage

inductive ObservationStatus where
  | pending | processed
  deriving DecidableEq, Repr

def ObservationStatus.text : ObservationStatus → String
  | .pending => "pending"
  | .processed => "processed"

structure MemoryObservation where
  id : String
  source_ref : String
  fragments : List String
  observed_at : String
  status : ObservationStatus := .pending
  source_trace_id : Option String := none
  deriving DecidableEq

inductive MemoryError where
  | storage (error : StorageError)
  | noFragments
  | blankSourceRef
  /-- `from_wire` refuses a field, or the set of fields. -/
  | observationField (name : String)
  | observationFields
  | identityCollision
  | notFound (id : String)
  /-- The plan of an observation cannot be trusted. -/
  | corruptPlan (observation_id : String)
  | invalidObservationId (observation_id : String)
  deriving DecidableEq

namespace MemoryObservation

/-! ## Construction -/

def create (uuid5 : String → String) (source_ref : String) (fragments : List String)
    (observed_at : String) (source_trace_id : Option String) :
    Except MemoryError MemoryObservation :=
  let normalized := (fragments.filter fun fragment => !blank fragment).map strip
  if normalized = [] then .error .noFragments
  else if blank source_ref = true then .error .blankSourceRef
  else
    .ok { id := "obs_" ++ uuid5 source_ref, source_ref, fragments := normalized, observed_at,
          source_trace_id }

/-! ## The wire form -/

def optionalText : Option String → Json
  | none => .null
  | some s => .str s

def toWire (o : MemoryObservation) : Record where
  rows := [("id", .str o.id), ("source_ref", .str o.source_ref),
    ("fragments", .arr (o.fragments.map Json.str)), ("observed_at", .str o.observed_at),
    ("status", .str o.status.text), ("source_trace_id", optionalText o.source_trace_id)]
  nodup := by simp

def wireFields : List String :=
  ["id", "source_ref", "fragments", "observed_at", "status", "source_trace_id"]

/-- `set(data) == expected`. -/
def sameFields (data : Record) (expected : List String) : Bool :=
  data.keys.all (fun k => expected.contains k) && expected.all fun k => data.contains k

/-- A text that is not empty. -/
def readText : Option Json → Option String
  | some (.str s) => if s = "" then none else some s
  | _ => none

/-- A list of texts none of which is empty. -/
def readFragments : Option Json → Option (List String)
  | some (.arr items) => if items = [] then none else items.mapM fun item => readText (some item)
  | _ => none

def readStatus : Option Json → Option ObservationStatus
  | some (.str s) =>
    if s = "pending" then some .pending else if s = "processed" then some .processed else none
  | _ => none

/-- `None` or a text. -/
def readOptionalText : Option Json → Option (Option String)
  | some .null => some none
  | some (.str s) => some (some s)
  | _ => none

def readObservationId : Option Json → Option String
  | some (.str s) => if hasPrefix "obs_" s = true then some s else none
  | _ => none

/-- A field, or the error that names it. -/
def required {α : Type} (name : String) : Option α → Except MemoryError α
  | none => .error (.observationField name)
  | some a => .ok a

def fromWire (data : Record) : Except MemoryError MemoryObservation :=
  if sameFields data wireFields = false then .error .observationFields
  else do
    let id ← required "id" (readObservationId (data.get "id"))
    let source_ref ← required "source_ref" (readText (data.get "source_ref"))
    let fragments ← required "fragments" (readFragments (data.get "fragments"))
    let observed_at ← required "observed_at" (readText (data.get "observed_at"))
    let status ← required "status" (readStatus (data.get "status"))
    let source_trace_id ← required "source_trace_id"
      (readOptionalText (data.get "source_trace_id"))
    return { id, source_ref, fragments, observed_at, status, source_trace_id }

/-- What the decoder accepts. -/
structure WellFormed (o : MemoryObservation) : Prop where
  id : hasPrefix "obs_" o.id = true
  source_ref : o.source_ref ≠ ""
  fragments : o.fragments ≠ []
  fragment : ∀ fragment ∈ o.fragments, fragment ≠ ""
  observed_at : o.observed_at ≠ ""

theorem readText_ok {s : String} (h : s ≠ "") : readText (some (.str s)) = some s := if_neg h

theorem readFragments_ok {fragments : List String} (hne : fragments ≠ [])
    (h : ∀ fragment ∈ fragments, fragment ≠ "") :
    readFragments (some (.arr (fragments.map Json.str))) = some fragments := by
  have hne' : fragments.map Json.str ≠ [] := by simpa using hne
  show (if fragments.map Json.str = [] then none else _) = _
  rw [if_neg hne']
  exact mapM_map_of_forall fun t ht => readText_ok (h t ht)

/-- **The wire form decodes to the observation**, and to no other. -/
theorem fromWire_toWire {o : MemoryObservation} (h : o.WellFormed) :
    fromWire o.toWire = .ok o := by
  have hfields : sameFields o.toWire wireFields = true := by
    simp [sameFields, wireFields, toWire, Table.keys, Table.contains, Table.get, lookup_row]
  have hid : readObservationId (o.toWire.get "id") = some o.id := if_pos h.id
  have href : readText (o.toWire.get "source_ref") = some o.source_ref := readText_ok h.source_ref
  have hfragments : readFragments (o.toWire.get "fragments") = some o.fragments :=
    readFragments_ok h.fragments h.fragment
  have hat : readText (o.toWire.get "observed_at") = some o.observed_at :=
    readText_ok h.observed_at
  have hstatus : readStatus (o.toWire.get "status") = some o.status := by
    show readStatus (some (.str o.status.text)) = _
    cases o.status <;> decide
  have htrace : readOptionalText (o.toWire.get "source_trace_id") = some o.source_trace_id := by
    show readOptionalText (some (optionalText o.source_trace_id)) = _
    cases o.source_trace_id <;> rfl
  rw [fromWire, hfields, if_neg (by simp), hid, href, hfragments, hat, hstatus, htrace]
  rfl

/-- What `create` accepts has a wire form that decodes, given a clock that reads something. -/
theorem create_wellFormed {uuid5 : String → String} {source_ref : String}
    {fragments : List String} {observed_at : String} {source_trace_id : Option String}
    {o : MemoryObservation}
    (h : create uuid5 source_ref fragments observed_at source_trace_id = .ok o)
    (hat : observed_at ≠ "") : o.WellFormed ∧ o.status = .pending := by
  unfold create at h
  dsimp only at h
  split at h
  · cases h
  · rename_i hne
    split at h
    · cases h
    · rename_i hblank
      cases h
      refine ⟨⟨hasPrefix_append _ _, ?_, hne, ?_, hat⟩, rfl⟩
      · exact ne_empty_of_not_blank (by simpa using hblank)
      · intro fragment hmem
        obtain ⟨raw, hraw, rfl⟩ := List.mem_map.mp hmem
        have hvisible : blank raw = false := by simpa using (List.mem_filter.mp hraw).2
        exact strip_ne_empty hvisible

end MemoryObservation

/-! ## The inbox -/

/-- The reference of a committed turn: `f"{conversation_id}:{start}:{end}"` made opaque. -/
def chatSourceRef (uuid5 : String → String) (turn : CompletedTurn) : String :=
  "interaction:" ++ uuid5 (turn.conversation_id ++ ":" ++ toString turn.start_index ++ ":" ++
    toString turn.end_index)

/-- A failure of the storage below. -/
def fromStorage {α : Type} : Except StorageError α → Except MemoryError α
  | .ok a => .ok a
  | .error e => .error (.storage e)

/-- `MemoryObservationRepository.observe`: the accepted observation and the table after it. -/
def observe (db : Records) (observation : MemoryObservation) :
    Except MemoryError (MemoryObservation × Records) := do
  match ← fromStorage (collectionGet db "memory_observations" observation.id) with
  | some existing =>
    let decoded ← MemoryObservation.fromWire existing
    if decoded.source_ref ≠ observation.source_ref ∨ decoded.fragments ≠ observation.fragments then
      .error .identityCollision
    else return (decoded, db)
  | none =>
    let db ← fromStorage
      (collectionPut db "memory_observations" observation.id observation.toWire)
    return (observation, db)

/-- `MemoryObservationRepository.get`. -/
def getObservation (db : Records) (observation_id : String) :
    Except MemoryError MemoryObservation := do
  match ← fromStorage (collectionGet db "memory_observations" observation_id) with
  | none => .error (.notFound observation_id)
  | some raw => MemoryObservation.fromWire raw

/-- `MemoryObservationRepository.pending`: the pending observations, oldest first. -/
def pendingObservations (db : Records) : Except MemoryError (List MemoryObservation) := do
  let records ← fromStorage (collectionList db "memory_observations")
  let observations ← tryAll MemoryObservation.fromWire
    (records.filter fun r => decide (r.get "status" = some (.str "pending")))
  return observations.insertionSort fun a b =>
    a.observed_at < b.observed_at ∨ (a.observed_at = b.observed_at ∧ a.id ≤ b.id)

def markProcessed (db : Records) (observation_id : String) : Except MemoryError Records := do
  let observation ← getObservation db observation_id
  fromStorage (collectionPut db "memory_observations" observation_id
    { observation with status := .processed }.toWire)

/-- `publish_chat_observation`: one committed turn becomes an observation. -/
def publishChatObservation (uuid5 : String → String) (db : Records) (turn : CompletedTurn)
    (observed_at : String) (source_trace_id : Option String) :
    Except MemoryError (MemoryObservation × Records) := do
  let observation ← MemoryObservation.create uuid5 (chatSourceRef uuid5 turn)
    ["user: " ++ turn.user_content, "assistant: " ++ turn.assistant_content] observed_at
    source_trace_id
  observe db observation

theorem fromStorage_ok {α : Type} {x : Except StorageError α} {a : α}
    (h : fromStorage x = .ok a) : x = .ok a := by
  cases x with
  | ok b => cases h; rfl
  | error e => cases h

theorem withId_toWire (o : MemoryObservation) :
    withId o.id (o.toWire.erase "id") (contains_erase_self o.toWire "id") = o.toWire := by
  refine Table.ext ?_
  simp [withId, MemoryObservation.toWire, Table.erase, Table.keep]

/-! ## What the inbox holds -/

/-- The inbox holds the observation under its id. -/
structure Holds (db : Records) (o : MemoryObservation) : Prop where
  wellFormed : o.WellFormed
  stored : collectionGet db "memory_observations" o.id = .ok (some o.toWire)

theorem Holds.read {db : Records} {o : MemoryObservation} (h : Holds db o) :
    getObservation db o.id = .ok o := by
  rw [getObservation, h.stored]
  exact MemoryObservation.fromWire_toWire h.wellFormed

theorem id_ne_empty {o : MemoryObservation} (h : o.WellFormed) : o.id ≠ "" := by
  intro he
  have hprefix := h.id
  rw [he] at hprefix
  revert hprefix
  decide

theorem toWire_finite (o : MemoryObservation) : o.toWire.finite = true := by
  have hfragments : Json.allItems Json.finiteLeaf (fun _ => true)
      (o.fragments.map Json.str) = true := allItems_map fun _ _ => rfl
  have htrace : Json.finite (MemoryObservation.optionalText o.source_trace_id) = true := by
    cases o.source_trace_id <;> rfl
  rw [finite_iff]
  intro k v hv
  have hmem := o.toWire.mem_rows_iff.mpr hv
  simp only [MemoryObservation.toWire, List.mem_cons, Prod.mk.injEq, List.not_mem_nil,
    or_false] at hmem
  rcases hmem with ⟨-, rfl⟩ | ⟨-, rfl⟩ | ⟨-, rfl⟩ | ⟨-, rfl⟩ | ⟨-, rfl⟩ | ⟨-, rfl⟩
  · rfl
  · rfl
  · exact hfragments
  · rfl
  · rfl
  · exact htrace

/-- **An observation can always be written**, and the inbox holds it then. -/
theorem put_toWire (db : Records) {o : MemoryObservation} (h : o.WellFormed) :
    ∃ db', collectionPut db "memory_observations" o.id o.toWire = .ok db' ∧ Holds db' o ∧
      ∀ k, k ≠ ("memory_observations", o.id) → db'.get k = db.get k := by
  have hid : idMatches o.toWire o.id := Or.inr (Or.inr rfl)
  obtain ⟨db', hput⟩ : ∃ db', collectionPut db "memory_observations" o.id o.toWire = .ok db' := by
    unfold collectionPut
    rw [if_pos hid, dif_pos (toWire_finite o)]
    exact ⟨_, rfl⟩
  have hread := collectionGet_put (id_ne_empty h) hput
  rw [withId_toWire] at hread
  obtain ⟨p, rfl, -⟩ := collectionPut_ok hput
  exact ⟨_, hput, ⟨h, hread⟩, fun k hk => Table.get_set_ne _ _ hk⟩

theorem observe_of_free {db : Records} {o : MemoryObservation} (h : o.WellFormed)
    (hfree : db.get ("memory_observations", o.id) = none) :
    ∃ db', observe db o = .ok (o, db') ∧ Holds db' o ∧
      ∀ k, k ≠ ("memory_observations", o.id) → db'.get k = db.get k := by
  obtain ⟨db', hput, hholds, hother⟩ := put_toWire db h
  have hget : collectionGet db "memory_observations" o.id = .ok none := by
    rw [collectionGet, hfree]
  refine ⟨db', ?_, hholds, hother⟩
  rw [observe, hget]
  show (fromStorage (collectionPut db "memory_observations" o.id o.toWire) >>= _) = _
  rw [hput]
  rfl

/-- Publishing again is idempotent for the same reference and fragments, and refused otherwise. -/
theorem observe_of_holds {db : Records} {o existing : MemoryObservation}
    (h : Holds db existing) (hid : existing.id = o.id) :
    observe db o =
      if existing.source_ref ≠ o.source_ref ∨ existing.fragments ≠ o.fragments then
        .error .identityCollision
      else .ok (existing, db) := by
  rw [observe, ← hid, h.stored]
  show (MemoryObservation.fromWire existing.toWire >>= _) = _
  rw [MemoryObservation.fromWire_toWire h.wellFormed]
  rfl

/-- An observation that the inbox holds can always be marked; only its status changes. -/
theorem markProcessed_of_holds {db : Records} {o : MemoryObservation} (h : Holds db o) :
    ∃ db', markProcessed db o.id = .ok db' ∧ Holds db' { o with status := .processed } ∧
      ∀ k, k ≠ ("memory_observations", o.id) → db'.get k = db.get k := by
  have hwell : ({ o with status := .processed } : MemoryObservation).WellFormed :=
    ⟨h.wellFormed.id, h.wellFormed.source_ref, h.wellFormed.fragments, h.wellFormed.fragment,
      h.wellFormed.observed_at⟩
  obtain ⟨db', hput, hholds, hother⟩ := put_toWire db hwell
  refine ⟨db', ?_, hholds, hother⟩
  rw [markProcessed, h.read]
  show fromStorage (collectionPut db "memory_observations" o.id _) = _
  rw [hput]
  rfl

/-- No observation appears, and those that the inbox holds keep their reference and fragments. -/
structure KeepsInbox (db db' : Records) : Prop where
  free : ∀ id, db.get ("memory_observations", id) = none →
    db'.get ("memory_observations", id) = none
  holds : ∀ o, Holds db o → ∃ o', Holds db' o' ∧ o'.id = o.id ∧ o'.source_ref = o.source_ref ∧
    o'.fragments = o.fragments

theorem KeepsInbox.of_same {db db' : Records}
    (h : ∀ id, db'.get ("memory_observations", id) = db.get ("memory_observations", id)) :
    KeepsInbox db db' where
  free := fun id hid => (h id).trans hid
  holds := fun o ho => by
    refine ⟨o, ⟨ho.wellFormed, ?_⟩, rfl, rfl, rfl⟩
    rw [collectionGet, h]
    exact ho.stored

theorem KeepsInbox.trans {db db₁ db' : Records} (h : KeepsInbox db db₁) (h' : KeepsInbox db₁ db') :
    KeepsInbox db db' where
  free := fun id hid => h'.free id (h.free id hid)
  holds := fun o ho => by
    obtain ⟨o₁, ho₁, hid₁, href₁, hfragments₁⟩ := h.holds o ho
    obtain ⟨o', ho', hid', href', hfragments'⟩ := h'.holds o₁ ho₁
    exact ⟨o', ho', hid'.trans hid₁, href'.trans href₁, hfragments'.trans hfragments₁⟩

theorem markProcessed_keeps {db db' : Records} {observation_id : String}
    (h : markProcessed db observation_id = .ok db') : KeepsInbox db db' := by
  obtain ⟨observation, hread, hput⟩ := bind_ok h
  obtain ⟨p, hdb, -⟩ := collectionPut_ok (fromStorage_ok hput)
  refine ⟨fun id hid => ?_, fun o ho => ?_⟩
  · have hne : id ≠ observation_id := by
      rintro rfl
      rw [getObservation, collectionGet, hid] at hread
      cases hread
    rw [hdb, Table.get_set_ne]
    · exact hid
    · intro he
      exact hne (congrArg Prod.snd he)
  · by_cases hid : o.id = observation_id
    · -- the observation itself: only its status changes
      obtain ⟨marked, hmarked, hholds, -⟩ := markProcessed_of_holds ho
      rw [hid, h] at hmarked
      obtain rfl := Except.ok.inj hmarked
      exact ⟨_, hholds, rfl, rfl, rfl⟩
    · refine ⟨o, ⟨ho.wellFormed, ?_⟩, rfl, rfl, rfl⟩
      rw [collectionGet, hdb, Table.get_set_ne]
      · exact ho.stored
      · intro he
        exact hid (congrArg Prod.snd he)

/-! ## The observation of a turn -/

/-- The fragments that a turn publishes. -/
def chatFragments (turn : CompletedTurn) : List String :=
  [strip ("user: " ++ turn.user_content), strip ("assistant: " ++ turn.assistant_content)]

/-- The id of the observation of a turn. -/
def observationId (uuid5 : String → String) (turn : CompletedTurn) : String :=
  "obs_" ++ uuid5 (chatSourceRef uuid5 turn)

/-- The observation that `publish_chat_observation` creates. -/
def chatObservation (uuid5 : String → String) (turn : CompletedTurn) (observed_at : String)
    (source_trace_id : Option String) : MemoryObservation where
  id := observationId uuid5 turn
  source_ref := chatSourceRef uuid5 turn
  fragments := chatFragments turn
  observed_at := observed_at
  source_trace_id := source_trace_id

theorem create_chat (uuid5 : String → String) (turn : CompletedTurn) (observed_at : String)
    (source_trace_id : Option String) :
    MemoryObservation.create uuid5 (chatSourceRef uuid5 turn)
      ["user: " ++ turn.user_content, "assistant: " ++ turn.assistant_content] observed_at
      source_trace_id = .ok (chatObservation uuid5 turn observed_at source_trace_id) := by
  have huser : blank ("user: " ++ turn.user_content) = false :=
    not_blank_append (by decide) turn.user_content
  have hassistant : blank ("assistant: " ++ turn.assistant_content) = false :=
    not_blank_append (by decide) turn.assistant_content
  have href : blank (chatSourceRef uuid5 turn) = false := not_blank_append (by decide) _
  unfold MemoryObservation.create
  simp only [List.filter_cons, huser, hassistant, href, List.filter_nil, Bool.not_false, if_true,
    List.map_cons, List.map_nil]
  rfl

/-- **Publishing a turn observes its observation.** -/
theorem publish_eq (uuid5 : String → String) (db : Records) (turn : CompletedTurn)
    (observed_at : String) (source_trace_id : Option String) :
    publishChatObservation uuid5 db turn observed_at source_trace_id =
      observe db (chatObservation uuid5 turn observed_at source_trace_id) := by
  unfold publishChatObservation
  rw [create_chat]
  rfl

theorem chatObservation_wellFormed (uuid5 : String → String) (turn : CompletedTurn)
    {observed_at : String} (hat : observed_at ≠ "") (source_trace_id : Option String) :
    (chatObservation uuid5 turn observed_at source_trace_id).WellFormed :=
  (MemoryObservation.create_wellFormed (create_chat uuid5 turn observed_at source_trace_id) hat).1

end NuSelf.Memory
