/-
  The wire form of a memory entry, its decoder, and the check before it is saved.

  An entry here has its extra payload, which the reviews do not set: a JSON object whose numbers
  are finite, for its constructor freezes it.  The payload overlays the fields that a descriptor
  looks at (`entryPayload`), so it can make an entry invalid that has good fields of its own, or
  give a persona instruction what it needs.

  1. **Reading** — `MemoryEntry.fromWire`, field by field.
  2. **Checking** — `issues`, by the descriptor of the type; without a payload these are the issues
     of an entry under review (`issues_of_no_payload`).
  3. **Saving** — `saveEntry` writes one row, that of the entry (`saveEntry_ok`).
-/
import NuSelf.Lib.Double
import NuSelf.Memory.Candidate
import NuSelf.Storage.Collection

namespace NuSelf.Memory

open NuSelf.Lib NuSelf.Storage

inductive EntryError where
  /-- `ValueError`. -/
  | value (message : String)
  /-- `TypeError("JSON value floats must be finite")`. -/
  | notFinite
  /-- `OverflowError`: an integer beyond the floats. -/
  | overflow
  /-- `MemoryValidationError`. -/
  | invalid (memory_type : String) (issues : List MemoryValidationIssue)
  | storage (e : StorageError)
  deriving DecidableEq

/-! ## Enumerations by name -/

def ReviewState.text : ReviewState → String
  | .draft => "draft"
  | .reviewed => "reviewed"
  | .rejected => "rejected"
  | .quarantined => "quarantined"
  | .archived => "archived"

def PrivacyLevel.text : PrivacyLevel → String
  | .private => "private"
  | .shareable => "shareable"

def MemoryEvidenceSourceType.text : MemoryEvidenceSourceType → String
  | .observation => "observation"
  | .manual => "manual"
  | .source => "source"
  | .optimizer => "optimizer"

/-! ## Fields -/

/-- The error that names a field. -/
def entryFieldError {α : Type} (field_name rest : String) : Except EntryError α :=
  .error (.value ("field '" ++ field_name ++ "' " ++ rest))

def expectStr (field_name : String) : Option Json → Except EntryError String
  | some (.str s) => .ok s
  | _ => entryFieldError field_name "must be a string"

def optionalStr (field_name : String) : Option Json → Except EntryError (Option String)
  | none | some .null => .ok none
  | some (.str s) => .ok (some s)
  | _ => entryFieldError field_name "must be a string or null"

/-- `float(value)` of an integer. -/
def toFloat (n : Int) : Except EntryError Double :=
  match Double.ofInt n with
  | some x => .ok x
  | none => .error .overflow

/-- `_expect_float`; a boolean is an integer. -/
def expectFloat (field_name : String) : Option Json → Except EntryError Double
  | some (.bool b) => toFloat (if b = true then 1 else 0)
  | some (.int n) => toFloat n
  | some (.float x) => .ok x
  | _ => entryFieldError field_name "must be a number"

/-- `_optional_float_default`, which takes no boolean. -/
def optionalFloat (field_name : String) (fallback : Double) :
    Option Json → Except EntryError Double
  | none | some .null => .ok fallback
  | some (.int n) => toFloat n
  | some (.float x) => .ok x
  | _ => entryFieldError field_name "must be a number or null"

def expectStrItem (field_name : String) : Json → Except EntryError String
  | .str s => .ok s
  | _ => entryFieldError field_name "must contain only strings"

def expectStrList (field_name : String) : Option Json → Except EntryError (List String)
  | some (.arr items) => tryAll (expectStrItem field_name) items
  | _ => entryFieldError field_name "must be a list"

/-- `_expect_review_state`, `_expect_privacy` and `_expect_evidence_source_type`. -/
def expectName {α : Type} (text : α → String) (names : List α) (what field_name : String)
    (v : Option Json) : Except EntryError α := do
  let value ← expectStr field_name v
  match names.find? fun a => decide (text a = value) with
  | some a => return a
  | none => .error (.value ("unsupported " ++ what ++ ": " ++ value))

def expectReviewState : String → Option Json → Except EntryError ReviewState :=
  expectName ReviewState.text [.draft, .reviewed, .rejected, .quarantined, .archived]
    "review state"

def expectPrivacy : String → Option Json → Except EntryError PrivacyLevel :=
  expectName PrivacyLevel.text [.private, .shareable] "privacy level"

def expectEvidenceSourceType : String → Option Json → Except EntryError MemoryEvidenceSourceType :=
  expectName MemoryEvidenceSourceType.text [.observation, .manual, .source, .optimizer]
    "evidence source type"

def optionalDict (field_name : String) : Option Json → Except EntryError (List (String × Json))
  | none | some .null => .ok []
  | some (.obj fields) => .ok fields
  | _ => entryFieldError field_name "must be an object or null"

def obsoleteFields : List String := ["related_memory_ids", "supersedes"]

def rejectLegacyRelationFields (data : Record) : Except EntryError Unit :=
  let obsolete := obsoleteFields.filter fun field_name => data.contains field_name
  if obsolete = [] then .ok ()
  else
    .error (.value ("obsolete memory relation fields: " ++ ", ".intercalate obsolete ++
      "; use 'relations'"))

/-- One relation with its targets. -/
def expectTargets (field_name : String) (row : String × Json) :
    Except EntryError (String × List String) := do
  let targets ← expectStrList (field_name ++ "." ++ row.1) (some row.2)
  return (row.1, targets)

/-- `_expect_relations_dict`. -/
def expectRelations (data : Record) (field_name : String) : Except EntryError Relations := do
  rejectLegacyRelationFields data
  match data.get field_name with
  | none => .error (.value ("missing required field '" ++ field_name ++ "'"))
  | some (.obj fields) =>
    let rows ← tryAll (expectTargets field_name) fields
    return rows.foldl (fun relations row => relations.set row.1 row.2) Table.empty
  | some _ => entryFieldError field_name "must be an object"

/-! ## Evidence -/

def optionalJson : Option String → Json
  | none => .null
  | some s => .str s

def stringItems (items : List String) : Json := .arr (items.map .str)

namespace MemoryEvidence

def toWire (e : MemoryEvidence) : List (String × Json) :=
  [("source_type", .str e.source_type.text), ("source_ref", .str e.source_ref),
    ("summary", .str e.summary), ("observed_at", optionalJson e.observed_at),
    ("quote", .str e.quote), ("created_at", .str e.created_at)]

def fromWire (data : List (String × Json)) : Except EntryError MemoryEvidence := do
  let source_type ← expectEvidenceSourceType "source_type" (data.lookup "source_type")
  let source_ref ← expectStr "source_ref" (data.lookup "source_ref")
  let summary ← optionalStr "summary" (data.lookup "summary")
  let observed_at ← optionalStr "observed_at" (data.lookup "observed_at")
  let quote ← optionalStr "quote" (data.lookup "quote")
  let created_at ← expectStr "created_at" (data.lookup "created_at")
  return { source_type, source_ref, summary := summary.getD "", observed_at,
           quote := quote.getD "", created_at }

end MemoryEvidence

def expectEvidenceItem (field_name : String) : Json → Except EntryError MemoryEvidence
  | .obj fields => MemoryEvidence.fromWire fields
  | _ => entryFieldError field_name "must contain only objects"

def optionalEvidenceList (field_name : String) :
    Option Json → Except EntryError (List MemoryEvidence)
  | none | some .null => .ok []
  | some (.arr items) => tryAll (expectEvidenceItem field_name) items
  | _ => entryFieldError field_name "must be a list"

/-! ## Entries -/

/-- Every number of a payload is finite. -/
def payloadFinite (payload : List (String × Json)) : Bool :=
  Json.allFields Json.finiteLeaf (fun _ => true) payload

/-- An entry with its extra payload. -/
structure PayloadEntry extends MemoryEntry where
  payload : List (String × Json)
  payload_finite : payloadFinite payload = true

namespace PayloadEntry

/-- `_freeze_mapping(payload)`; the other fields of an entry are frozen as they are. -/
def construct (entry : MemoryEntry) (payload : List (String × Json)) :
    Except EntryError PayloadEntry :=
  if h : payloadFinite payload = true then .ok { entry with payload, payload_finite := h }
  else .error .notFinite

def fromWire (data : Record) : Except EntryError PayloadEntry := do
  let id ← expectStr "id" (data.get "id")
  let type ← expectStr "type" (data.get "type")
  let title ← expectStr "title" (data.get "title")
  let body ← expectStr "body" (data.get "body")
  let tags ← expectStrList "tags" (data.get "tags")
  let source_refs ← expectStrList "source_refs" (data.get "source_refs")
  let confidence ← expectFloat "confidence" (data.get "confidence")
  let importance ← optionalFloat "importance" defaultImportance (data.get "importance")
  let privacy ← expectPrivacy "privacy" (data.get "privacy")
  let review_state ← expectReviewState "review_state" (data.get "review_state")
  let created_at ← expectStr "created_at" (data.get "created_at")
  let updated_at ← expectStr "updated_at" (data.get "updated_at")
  let revisit_at ← optionalStr "revisit_at" (data.get "revisit_at")
  let observed_at ← optionalStr "observed_at" (data.get "observed_at")
  let valid_from ← optionalStr "valid_from" (data.get "valid_from")
  let valid_until ← optionalStr "valid_until" (data.get "valid_until")
  let temporal_note ← optionalStr "temporal_note" (data.get "temporal_note")
  let relations ← expectRelations data "relations"
  let evidence ← optionalEvidenceList "evidence" (data.get "evidence")
  let payload ← optionalDict "payload" (data.get "payload")
  construct
    { id, type, title, body, tags, source_refs, confidence, importance, privacy, review_state,
      created_at, updated_at, revisit_at, observed_at, valid_from, valid_until,
      temporal_note := temporal_note.getD "", relations, evidence } payload

/-- The relations of an entry as JSON. -/
def relationsJson (relations : Relations) : Json :=
  .obj (relations.rows.map fun row => (row.1, stringItems row.2))

def toWire (e : PayloadEntry) : Record where
  rows := [("id", .str e.id), ("type", .str e.type), ("title", .str e.title),
    ("body", .str e.body), ("tags", stringItems e.tags),
    ("source_refs", stringItems e.source_refs), ("confidence", .float e.confidence),
    ("importance", .float e.importance), ("privacy", .str e.privacy.text),
    ("review_state", .str e.review_state.text), ("created_at", .str e.created_at),
    ("updated_at", .str e.updated_at), ("revisit_at", optionalJson e.revisit_at),
    ("observed_at", optionalJson e.observed_at), ("valid_from", optionalJson e.valid_from),
    ("valid_until", optionalJson e.valid_until), ("temporal_note", .str e.temporal_note),
    ("relations", relationsJson e.relations),
    ("evidence", .arr (e.evidence.map fun v => .obj v.toWire))] ++
    if e.payload = [] then [] else [("payload", .obj e.payload)]
  nodup := by split <;> simp

/-! ## The check -/

/-- The payload of `to_memory_object`: that of the entry over its own fields. -/
def entryPayload (e : PayloadEntry) (field : String) : Option Json :=
  (e.payload.lookup field).or
    ([("title", .str e.title), ("body", .str e.body), ("tags", stringItems e.tags),
      ("revisit_at", optionalJson e.revisit_at), ("observed_at", optionalJson e.observed_at),
      ("valid_from", optionalJson e.valid_from), ("valid_until", optionalJson e.valid_until),
      ("temporal_note", .str e.temporal_note), ("relations", relationsJson e.relations),
      ("evidence", .arr (e.evidence.map fun v => .obj v.toWire))].lookup field)

end PayloadEntry

section Checks

variable (payload : String → Option Json)

/-- A text with a visible character. -/
def visible : Option Json → Bool
  | some (.str s) => !blank s
  | _ => false

def isStr : Json → Bool
  | .str _ => true
  | _ => false

def isStrList : Json → Bool
  | .arr items => items.all isStr
  | _ => false

def isArr : Json → Bool
  | .arr _ => true
  | _ => false

/-- Missing, `None` or good. -/
def noneOr (good : Json → Bool) : Option Json → Bool
  | none | some .null => true
  | some v => good v

def requireText (field : String) : List MemoryValidationIssue :=
  issueIf (!visible (payload field)) ("payload." ++ field) "must be a non-empty string"

def requireOptionalText (field : String) : List MemoryValidationIssue :=
  issueIf (!noneOr isStr (payload field)) ("payload." ++ field) "must be a string or null"

/-- The relations are an object of lists of texts. -/
def relationsIssues : Option Json → List MemoryValidationIssue
  | none => []
  | some (.obj fields) => fields.flatMap fun row =>
    issueIf (!isStrList row.2) ("payload.relations." ++ row.1) "must be a list of strings"
  | some _ => [⟨"payload.relations", "must be an object"⟩]

def validateEntryPayload : List MemoryValidationIssue :=
  requireText payload "title" ++ requireText payload "body" ++
    issueIf (!(payload "tags").all isStrList) "payload.tags" "must be a list of strings" ++
    ["revisit_at", "observed_at", "valid_from", "valid_until", "temporal_note"].flatMap
      (requireOptionalText payload) ++
    relationsIssues (payload "relations") ++
    ["supersedes", "related_memory_ids"].flatMap (fun field =>
      issueIf (payload field).isSome ("payload." ++ field) "is obsolete; use payload.relations") ++
    issueIf (!(payload "evidence").all isArr) "payload.evidence" "must be a list"

/-- `PersonaInstructionDescriptor.validate`, the confidence apart. -/
def validatePersonaPayload : List MemoryValidationIssue :=
  requireText payload "persona_id" ++ requireText payload "description" ++
    issueIf (!noneOr isStrList (payload "routing_markers")) "payload.routing_markers"
      "must be a list of strings" ++
    issueIf (!noneOr isStr (payload "behavioral_notes")) "payload.behavioral_notes"
      "must be a string"

end Checks

namespace PayloadEntry

/-- `registry.validate(entry.to_memory_object())`: the issues it raises. -/
def issues (e : PayloadEntry) : List MemoryValidationIssue :=
  if registered e.type = false then
    issueIf (decide (e.review_state ≠ .draft)) "type"
      "unknown types must remain draft until a descriptor is available"
  else
    (if e.type = "persona_instruction" then validatePersonaPayload e.entryPayload
      else validateEntryPayload e.entryPayload) ++
      issueIf (outsideUnit e.confidence) "confidence" "must be between 0 and 1"

/-- The entry that `MemoryEntryRepository.save` writes and returns. -/
def admitted (e : PayloadEntry) (now : String) : Except EntryError PayloadEntry :=
  if registered e.type = false ∧ e.review_state = .draft then
    .ok { e with review_state := .quarantined, updated_at := now }
  else if e.issues ≠ [] then .error (.invalid e.type e.issues)
  else .ok e

theorem admitted_id {e entry : PayloadEntry} {now : String} (h : e.admitted now = .ok entry) :
    entry.id = e.id := by
  unfold admitted at h
  split at h
  · cases h
    rfl
  · split at h
    · cases h
    · cases h
      rfl

/-! ### Without a payload -/

theorem isStrList_stringItems (items : List String) : isStrList (stringItems items) = true := by
  show (items.map Json.str).all isStr = true
  rw [List.all_map]
  exact List.all_eq_true.mpr fun _ _ => rfl

theorem relationsIssues_relationsJson (relations : Relations) :
    relationsIssues (some (relationsJson relations)) = [] := by
  show (relations.rows.map fun row => (row.1, stringItems row.2)).flatMap _ = []
  refine List.flatMap_eq_nil_iff.mpr fun row hrow => ?_
  obtain ⟨r, -, rfl⟩ := List.mem_map.mp hrow
  rw [isStrList_stringItems]
  rfl

theorem noneOr_optionalJson (text : Option String) :
    noneOr isStr (some (optionalJson text)) = true := by
  cases text <;> rfl

/-- Only the title and the body can be wrong in an entry without a payload. -/
theorem validateEntryPayload_of_no_payload {e : PayloadEntry} (h : e.payload = []) :
    validateEntryPayload e.entryPayload =
      issueIf (blank e.title) "payload.title" "must be a non-empty string" ++
        issueIf (blank e.body) "payload.body" "must be a non-empty string" := by
  obtain ⟨m, payload, hfinite⟩ := e
  obtain rfl : payload = [] := h
  have htext : ∀ field text, issueIf (!noneOr isStr (some (optionalJson text))) field
      "must be a string or null" = [] := by
    intro field text
    rw [noneOr_optionalJson]
    rfl
  have hoptional : ["revisit_at", "observed_at", "valid_from", "valid_until",
      "temporal_note"].flatMap (requireOptionalText (entryPayload ⟨m, [], hfinite⟩)) = [] := by
    show issueIf _ _ _ ++ (issueIf _ _ _ ++ (issueIf _ _ _ ++ (issueIf _ _ _ ++ []))) = []
    exact congrArg₂ _ (htext _ m.revisit_at) (congrArg₂ _ (htext _ m.observed_at)
      (congrArg₂ _ (htext _ m.valid_from) (congrArg₂ _ (htext _ m.valid_until) rfl)))
  rw [validateEntryPayload, hoptional]
  show issueIf (!!blank m.title) _ _ ++ issueIf (!!blank m.body) _ _ ++
    issueIf (!isStrList (stringItems m.tags)) _ _ ++ [] ++
    relationsIssues (some (relationsJson m.relations)) ++ [] ++ [] = _
  rw [isStrList_stringItems, relationsIssues_relationsJson, Bool.not_not, Bool.not_not]
  simp [issueIf]

theorem validatePersonaPayload_of_no_payload {e : PayloadEntry} (h : e.payload = []) :
    validatePersonaPayload e.entryPayload =
      [⟨"payload.persona_id", "must be a non-empty string"⟩,
        ⟨"payload.description", "must be a non-empty string"⟩] := by
  obtain ⟨m, payload, hfinite⟩ := e
  obtain rfl : payload = [] := h
  rfl

/-- **Without a payload** the issues are those of an entry under review. -/
theorem issues_of_no_payload {e : PayloadEntry} (h : e.payload = []) :
    e.issues = e.toMemoryEntry.issues := by
  rw [issues, MemoryEntry.issues, validateEntryPayload_of_no_payload h,
    validatePersonaPayload_of_no_payload h]

end PayloadEntry

/-! ## Saving -/

/-- `MemoryEntryRepository.save`, with the rows it leaves. -/
def saveEntry (db : Records) (entry : PayloadEntry) (now : String) : Except EntryError Records := do
  let entry ← entry.admitted now
  match collectionPut db "memory_entries" entry.id entry.toWire with
  | .ok db => return db
  | .error e => .error (.storage e)

theorem saveEntry_ok {db db' : Records} {e : PayloadEntry} {now : String}
    (h : saveEntry db e now = .ok db') :
    ∃ entry p, e.admitted now = .ok entry ∧ db' = db.set ("memory_entries", e.id) p ∧
      p.record = entry.toWire.erase "id" := by
  obtain ⟨entry, hadmitted, h⟩ := bind_ok h
  split at h
  · rename_i db₁ hput
    cases h
    obtain ⟨p, hdb, hrecord, -, -⟩ := collectionPut_ok hput
    rw [PayloadEntry.admitted_id hadmitted] at hdb
    exact ⟨entry, p, hadmitted, hdb, hrecord⟩
  · cases h

end NuSelf.Memory
