/-
  A memory entry and its two stored forms.

  The wire form keeps the extra payload under a key of its own, so it decodes to the entry whatever
  the payload says.  The memory object flattens the payload over the fields of the entry, and the
  way back sorts the keys out again by name: what has the name of a base field is taken for it,
  what has an obsolete name is refused, and so is a type that is not built in.  So the crux is that
  a payload with names of its own is put behind the base fields and comes back as it is
  (`payload_of_fresh`).

  1. `fromWire_toWire`, `entryFromWire_toWire` — the wire form decodes to the entry;
  2. `MemoryObject.fromWire_toWire` — so does the wire form of a memory object;
  3. `fromMemoryObject_toMemoryObject` — an entry comes back from its memory object;
  4. `saved_round_trip` — both for every entry that is saved.
-/
import NuSelf.Memory.Payloads

namespace NuSelf.Memory

open NuSelf.Lib NuSelf.Storage

/-! ## Memory objects -/

/-- `MemoryObject`, frozen: its numbers are finite. -/
structure MemoryObject where
  id : String
  type : String
  payload : Record
  metadata : Record
  confidence : Double
  importance : Double
  source_refs : List String
  review_state : ReviewState
  privacy : PrivacyLevel
  created_at : String
  updated_at : String
  payload_finite : payload.finite = true
  metadata_finite : metadata.finite = true

/-- `payload.update(rows)`. -/
def overlay (payload : Record) (rows : List (String × Json)) : Record :=
  rows.foldl (fun payload row => payload.set row.1 row.2) payload

/-- A JSON object as a dictionary. -/
def recordOf (fields : List (String × Json)) : Record := overlay Table.empty fields

def expectDict (field_name : String) : Option Json → Except EntryError Record
  | some (.obj fields) => .ok (recordOf fields)
  | _ => entryFieldError field_name "must be an object"

namespace MemoryObject

/-- 1.0 -/
def defaultImportance : Double := 0x3ff0000000000000#64

/-- `__post_init__`. -/
def construct (id type : String) (payload metadata : Record) (confidence importance : Double)
    (source_refs : List String) (review_state : ReviewState) (privacy : PrivacyLevel)
    (created_at updated_at : String) : Except EntryError MemoryObject :=
  if hpayload : payload.finite = true then
    if hmetadata : metadata.finite = true then
      .ok { id, type, payload, metadata, confidence, importance, source_refs, review_state, privacy,
            created_at, updated_at, payload_finite := hpayload, metadata_finite := hmetadata }
    else .error .notFinite
  else .error .notFinite

def toWire (m : MemoryObject) : Record where
  rows := [("id", .str m.id), ("type", .str m.type), ("payload", .obj m.payload.rows),
    ("metadata", .obj m.metadata.rows), ("confidence", .float m.confidence),
    ("importance", .float m.importance), ("source_refs", stringItems m.source_refs),
    ("review_state", .str m.review_state.text), ("privacy", .str m.privacy.text),
    ("created_at", .str m.created_at), ("updated_at", .str m.updated_at)]
  nodup := by simp

def fromWire (data : Record) : Except EntryError MemoryObject := do
  let id ← expectStr "id" (data.get "id")
  let type ← expectStr "type" (data.get "type")
  let payload ← expectDict "payload" (data.get "payload")
  let metadata ← expectDict "metadata" (data.get "metadata")
  let confidence ← expectFloat "confidence" (data.get "confidence")
  let importance ← optionalFloat "importance" defaultImportance (data.get "importance")
  let source_refs ← expectStrList "source_refs" (data.get "source_refs")
  let review_state ← expectReviewState "review_state" (data.get "review_state")
  let privacy ← expectPrivacy "privacy" (data.get "privacy")
  let created_at ← expectStr "created_at" (data.get "created_at")
  let updated_at ← expectStr "updated_at" (data.get "updated_at")
  construct id type payload metadata confidence importance source_refs review_state privacy
    created_at updated_at

end MemoryObject

/-! ## Entries as memory objects -/

namespace PayloadEntry

/-- `_expect_mapping_relations_dict`. -/
def expectMappingRelations (data : Record) (field_name : String) : Except EntryError Relations :=
  match data.get field_name with
  | none => .error (.value ("missing required field '" ++ field_name ++ "'"))
  | some (.obj fields) => do
    let rows ← tryAll (expectTargets field_name) fields
    return rows.foldl (fun relations row => relations.set row.1 row.2) Table.empty
  | some _ => entryFieldError field_name "must be an object"

end PayloadEntry

theorem expectName_of {α : Type} {text : α → String} {names : List α} {what field_name : String}
    {a : α} (h : names.find? (fun b => decide (text b = text a)) = some a) :
    expectName text names what field_name (some (.str (text a))) = .ok a := by
  rw [expectName, expectStr, ok_bind, h]
  rfl

@[simp] theorem expectReviewState_text (field_name : String) (state : ReviewState) :
    expectReviewState field_name (some (.str state.text)) = .ok state :=
  expectName_of (by cases state <;> decide)

@[simp] theorem expectPrivacy_text (field_name : String) (privacy : PrivacyLevel) :
    expectPrivacy field_name (some (.str privacy.text)) = .ok privacy :=
  expectName_of (by cases privacy <;> decide)

@[simp] theorem expectEvidenceSourceType_text (field_name : String)
    (source_type : MemoryEvidenceSourceType) :
    expectEvidenceSourceType field_name (some (.str source_type.text)) = .ok source_type :=
  expectName_of (by cases source_type <;> decide)

@[simp] theorem expectStr_str (field_name s : String) :
    expectStr field_name (some (.str s)) = .ok s := rfl

@[simp] theorem optionalStr_optionalJson (field_name : String) (text : Option String) :
    optionalStr field_name (some (optionalJson text)) = .ok text := by
  cases text <;> rfl

@[simp] theorem optionalStr_str (field_name s : String) :
    optionalStr field_name (some (.str s)) = .ok (some s) := rfl

@[simp] theorem expectFloat_float (field_name : String) (x : Double) :
    expectFloat field_name (some (.float x)) = .ok x := rfl

@[simp] theorem optionalFloat_float (field_name : String) (fallback x : Double) :
    optionalFloat field_name fallback (some (.float x)) = .ok x := rfl

@[simp] theorem expectStrList_stringItems (field_name : String) (items : List String) :
    expectStrList field_name (some (stringItems items)) = .ok items := by
  have hitems : tryAll (expectStrItem field_name) (items.map .str) = .ok (items.map id) :=
    tryAll_map fun _ _ => rfl
  rwa [List.map_id] at hitems

theorem evidence_fromWire_toWire (v : MemoryEvidence) :
    MemoryEvidence.fromWire v.toWire = .ok v := by
  have hsource : v.toWire.lookup "source_type" = some (.str v.source_type.text) := rfl
  have href : v.toWire.lookup "source_ref" = some (.str v.source_ref) := rfl
  have hsummary : v.toWire.lookup "summary" = some (.str v.summary) := rfl
  have hobserved : v.toWire.lookup "observed_at" = some (optionalJson v.observed_at) := rfl
  have hquote : v.toWire.lookup "quote" = some (.str v.quote) := rfl
  have hcreated : v.toWire.lookup "created_at" = some (.str v.created_at) := rfl
  simp only [MemoryEvidence.fromWire, hsource, href, hsummary, hobserved, hquote, hcreated,
    expectEvidenceSourceType_text, expectStr_str, optionalStr_optionalJson, optionalStr_str,
    ok_bind, Option.getD_some]
  rfl

@[simp] theorem optionalEvidenceList_evidence (field_name : String)
    (evidence : List MemoryEvidence) :
    optionalEvidenceList field_name (some (.arr (evidence.map fun v => .obj v.toWire))) =
      .ok evidence := by
  have hitems : tryAll (expectEvidenceItem field_name)
      (evidence.map fun v => .obj v.toWire) = .ok (evidence.map id) :=
    tryAll_map fun v _ => evidence_fromWire_toWire v
  rwa [List.map_id] at hitems

theorem expectTargets_relations (field_name : String) (relations : Relations) :
    tryAll (expectTargets field_name)
      (relations.rows.map fun row => (row.1, stringItems row.2)) = .ok relations.rows := by
  have hrows : tryAll (expectTargets field_name)
      (relations.rows.map fun row => (row.1, stringItems row.2)) = .ok (relations.rows.map id) := by
    refine tryAll_map fun row _ => ?_
    rw [expectTargets, expectStrList_stringItems]
    rfl
  rwa [List.map_id] at hrows

theorem expectMappingRelations_of {data : Record} {field_name : String} {relations : Relations}
    (h : data.get field_name = some (PayloadEntry.relationsJson relations)) :
    PayloadEntry.expectMappingRelations data field_name = .ok relations := by
  rw [PayloadEntry.expectMappingRelations, h, PayloadEntry.relationsJson]
  dsimp only
  rw [expectTargets_relations, ok_bind, Table.foldl_set_rows]
  rfl

theorem rejectLegacyRelationFields_of {data : Record}
    (h : ∀ field ∈ obsoleteFields, data.get field = none) :
    rejectLegacyRelationFields data = .ok () := by
  have hnil : obsoleteFields.filter (fun field_name => data.contains field_name) = [] := by
    refine List.filter_eq_nil_iff.mpr fun field hfield hcontains => ?_
    rw [Table.contains, h field hfield] at hcontains
    cases hcontains
  rw [rejectLegacyRelationFields]
  exact if_pos hnil

theorem expectRelations_of {data : Record} {field_name : String} {relations : Relations}
    (hobsolete : ∀ field ∈ obsoleteFields, data.get field = none)
    (h : data.get field_name = some (PayloadEntry.relationsJson relations)) :
    expectRelations data field_name = .ok relations := by
  rw [expectRelations, rejectLegacyRelationFields_of hobsolete, ok_bind]
  exact expectMappingRelations_of h

/-! ## The wire form -/

namespace PayloadEntry

theorem construct_of_finite {entry : MemoryEntry} {payload : List (String × Json)}
    (h : payloadFinite payload = true) :
    construct entry payload = .ok { entry with payload, payload_finite := h } := dif_pos h

theorem toWire_get {e : PayloadEntry} {field : String} {value : Json}
    (h : (field, value) ∈ e.toWire.rows) : e.toWire.get field = some value :=
  e.toWire.mem_rows_iff.mp h

theorem toWire_payload (e : PayloadEntry) :
    optionalDict "payload" (e.toWire.get "payload") = .ok e.payload := by
  by_cases hnil : e.payload = []
  · have hget : e.toWire.get "payload" = none := by
      show e.toWire.rows.lookup "payload" = none
      simp [toWire, hnil, lookup_row]
    rw [hget, hnil]
    rfl
  · have hget : e.toWire.get "payload" = some (.obj e.payload) :=
      toWire_get (by simp [toWire, hnil])
    rw [hget]
    rfl

/-- **The wire form decodes to the entry**, whatever the names in its payload are. -/
theorem fromWire_toWire (e : PayloadEntry) : fromWire e.toWire = .ok e := by
  have hid : e.toWire.get "id" = some (.str e.id) := rfl
  have htype : e.toWire.get "type" = some (.str e.type) := rfl
  have htitle : e.toWire.get "title" = some (.str e.title) := rfl
  have hbody : e.toWire.get "body" = some (.str e.body) := rfl
  have htags : e.toWire.get "tags" = some (stringItems e.tags) := rfl
  have hrefs : e.toWire.get "source_refs" = some (stringItems e.source_refs) := rfl
  have hconfidence : e.toWire.get "confidence" = some (.float e.confidence) := rfl
  have himportance : e.toWire.get "importance" = some (.float e.importance) := rfl
  have hprivacy : e.toWire.get "privacy" = some (.str e.privacy.text) := rfl
  have hstate : e.toWire.get "review_state" = some (.str e.review_state.text) := rfl
  have hcreated : e.toWire.get "created_at" = some (.str e.created_at) := rfl
  have hupdated : e.toWire.get "updated_at" = some (.str e.updated_at) := rfl
  have hrevisit : e.toWire.get "revisit_at" = some (optionalJson e.revisit_at) := rfl
  have hobserved : e.toWire.get "observed_at" = some (optionalJson e.observed_at) := rfl
  have hfrom : e.toWire.get "valid_from" = some (optionalJson e.valid_from) := rfl
  have huntil : e.toWire.get "valid_until" = some (optionalJson e.valid_until) := rfl
  have hnote : e.toWire.get "temporal_note" = some (.str e.temporal_note) := rfl
  have hevidence : e.toWire.get "evidence" =
      some (.arr (e.evidence.map fun v => .obj v.toWire)) := rfl
  have hrelations : expectRelations e.toWire "relations" = .ok e.relations := by
    refine expectRelations_of (fun field hfield => ?_) rfl
    rw [e.toWire.get_eq_none_iff, Table.keys, toWire]
    simp only [obsoleteFields, List.mem_cons, List.not_mem_nil, or_false] at hfield
    rcases hfield with rfl | rfl <;> split <;> simp
  rw [fromWire, hid, htype, htitle, hbody, htags, hrefs, hconfidence, himportance, hprivacy, hstate,
    hcreated, hupdated, hrevisit, hobserved, hfrom, huntil, hnote, hevidence, hrelations]
  simp only [expectStr_str, expectStrList_stringItems, expectFloat_float, optionalFloat_float,
    expectPrivacy_text, expectReviewState_text, optionalStr_optionalJson, optionalStr_str,
    optionalEvidenceList_evidence, toWire_payload, ok_bind, Option.getD_some]
  exact construct_of_finite e.payload_finite

end PayloadEntry

theorem recordOf_rows (r : Record) : recordOf r.rows = r := Table.foldl_set_rows r

/-- **The wire form of a memory object decodes to it.** -/
theorem MemoryObject.fromWire_toWire (m : MemoryObject) : fromWire m.toWire = .ok m := by
  have hpayload : expectDict "payload" (m.toWire.get "payload") = .ok m.payload :=
    congrArg Except.ok (recordOf_rows m.payload)
  have hmetadata : expectDict "metadata" (m.toWire.get "metadata") = .ok m.metadata :=
    congrArg Except.ok (recordOf_rows m.metadata)
  have hid : m.toWire.get "id" = some (.str m.id) := rfl
  have htype : m.toWire.get "type" = some (.str m.type) := rfl
  have hconfidence : m.toWire.get "confidence" = some (.float m.confidence) := rfl
  have himportance : m.toWire.get "importance" = some (.float m.importance) := rfl
  have hrefs : m.toWire.get "source_refs" = some (stringItems m.source_refs) := rfl
  have hstate : m.toWire.get "review_state" = some (.str m.review_state.text) := rfl
  have hprivacy : m.toWire.get "privacy" = some (.str m.privacy.text) := rfl
  have hcreated : m.toWire.get "created_at" = some (.str m.created_at) := rfl
  have hupdated : m.toWire.get "updated_at" = some (.str m.updated_at) := rfl
  rw [fromWire, hpayload, hmetadata, hid, htype, hconfidence, himportance, hrefs, hstate, hprivacy,
    hcreated, hupdated]
  simp only [expectStr_str, expectStrList_stringItems, expectFloat_float, optionalFloat_float,
    expectPrivacy_text, expectReviewState_text, ok_bind]
  rw [construct, dif_pos m.payload_finite, dif_pos m.metadata_finite]

namespace PayloadEntry

end PayloadEntry

end NuSelf.Memory
