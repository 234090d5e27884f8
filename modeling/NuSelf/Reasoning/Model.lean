/-
  Reasoning threads and steps, and the wire form of a thread.

  A thread is what its constructor accepts: a topic with a visible character, times that carry
  their offset, and tracked items that JSON can hold (`postInit`, `WellFormed`).  Nothing in it
  looks into a tracked item: that is left to whoever reads the items (`TrackedItem.fromWire`).

  `fromWire_toWire` — a well-formed thread is decoded from its wire form.
-/
import NuSelf.Lib.Double
import NuSelf.Lib.Names
import NuSelf.Lib.Text
import NuSelf.Storage.Collection

namespace NuSelf.Reasoning

open NuSelf.Lib NuSelf.Storage

/-! ## Errors and times -/

inductive ReasonError where
  | value (text : String)
  /-- `TypeError`. -/
  | type (text : String)
  /-- `ReasonNotFound`. -/
  | notFound (id_or_index : String)
  | advance (text : String)
  | prompt (text : String)
  | transition (text : String)
  deriving DecidableEq

/-- What `datetime.fromisoformat` reads: a time with its offset, or one without. -/
inductive IsoTimestamp where
  | aware (at_time : Int)
  | naive

/-- ISO texts of times, as the library writes and reads them. -/
structure IsoTime where
  /-- `isoformat` of a UTC time. -/
  isoformat : Int → String
  fromisoformat : String → Option IsoTimestamp
  from_isoformat : ∀ t, fromisoformat (isoformat t) = some (.aware t)

/-- `_validate_aware_iso`; a blank text is none that the library reads. -/
def validateAwareIso (iso : IsoTime) (field_name value : String) : Except ReasonError Unit :=
  match iso.fromisoformat value with
  | none => .error (.value ("field '" ++ field_name ++ "' must be an ISO-8601 timestamp"))
  | some .naive => .error (.value ("field '" ++ field_name ++ "' must include a timezone"))
  | some (.aware _) => .ok ()

def validateOptionalAwareIso (iso : IsoTime) (field_name : String) :
    Option String → Except ReasonError Unit
  | none => .ok ()
  | some value => validateAwareIso iso field_name value

/-- The text is a time that carries its offset. -/
def Aware (iso : IsoTime) (value : String) : Prop :=
  ∃ t, iso.fromisoformat value = some (.aware t)

theorem aware_isoformat (iso : IsoTime) (t : Int) : Aware iso (iso.isoformat t) :=
  ⟨t, iso.from_isoformat t⟩

theorem validateAwareIso_ok_iff {iso : IsoTime} {field_name value : String} :
    validateAwareIso iso field_name value = .ok () ↔ Aware iso value := by
  rw [validateAwareIso, Aware]
  cases iso.fromisoformat value with
  | none => simp
  | some stamp => cases stamp <;> simp

theorem validateOptionalAwareIso_ok_iff {iso : IsoTime} {field_name : String}
    {value : Option String} :
    validateOptionalAwareIso iso field_name value = .ok () ↔ ∀ v ∈ value, Aware iso v := by
  cases value with
  | none => simp [validateOptionalAwareIso]
  | some v => simp [validateOptionalAwareIso, validateAwareIso_ok_iff]

/-! ## Statuses -/

inductive ReasonStatus where
  | active | paused | resolved | archived
  deriving DecidableEq, Repr

def ReasonStatus.name : ReasonStatus → String
  | .active => "active"
  | .paused => "paused"
  | .resolved => "resolved"
  | .archived => "archived"

/-- `REASON_STATUSES`. -/
def ReasonStatus.ofName (s : String) : Option ReasonStatus :=
  [ReasonStatus.active, .paused, .resolved, .archived].find? fun status => status.name == s

inductive ReasonPriority where
  | normal | high
  deriving DecidableEq, Repr

def ReasonPriority.name : ReasonPriority → String
  | .normal => "normal"
  | .high => "high"

/-- `REASON_PRIORITIES`. -/
def ReasonPriority.ofName (s : String) : Option ReasonPriority :=
  [ReasonPriority.normal, .high].find? fun priority => priority.name == s

/-- `STEP_KINDS`. -/
inductive StepKind where
  | progress | no_change | question | synthesis | contradiction | resolution | planning
  deriving DecidableEq, Repr

/-- `TERMINAL_STATUSES`. -/
inductive TerminalStatus where
  | continue | suggest_resolved | suggest_paused
  deriving DecidableEq, Repr

/-- `_status_from_terminal_status`. -/
def TerminalStatus.reasonStatus : TerminalStatus → Option ReasonStatus
  | .suggest_resolved => some .resolved
  | .suggest_paused => some .paused
  | .continue => none

theorem ReasonStatus.ofName_name (status : ReasonStatus) :
    ReasonStatus.ofName status.name = some status := by
  cases status <;> decide

theorem ReasonPriority.ofName_name (priority : ReasonPriority) :
    ReasonPriority.ofName priority.name = some priority := by
  cases priority <;> decide

/-! ## Tracked items -/

/-- A JSON object, by its fields. -/
abbrev Mapping := List (String × Json)

/-- `freeze_json_value` takes it: every float is finite. -/
def Mapping.finite (m : Mapping) : Bool := Json.allFields Json.finiteLeaf (fun _ => true) m

structure TrackedItem where
  label : String
  description : String
  kind : String
  status : String
  deriving DecidableEq

namespace TrackedItem

def optionalString (data : Mapping) (field_name default : String) : Except ReasonError String :=
  match data.lookup field_name with
  | none => .ok default
  | some (.str s) => .ok s
  | some _ => .error (.value ("tracked item field '" ++ field_name ++ "' must be a string"))

/-- `data.get("label")`, checked. -/
def readLabel (data : Mapping) : Except ReasonError String :=
  match data.lookup "label" with
  | some (.str s) =>
    if blank s then .error (.value "tracked item field 'label' must be a non-empty string")
    else .ok s
  | _ => .error (.value "tracked item field 'label' must be a non-empty string")

def fromWire (data : Mapping) : Except ReasonError TrackedItem := do
  let label ← readLabel data
  let description ← optionalString data "description" ""
  let kind ← optionalString data "kind" ""
  let status ← optionalString data "status" "active"
  return { label, description, kind, status }

end TrackedItem

/-- Some item is read from the object. -/
def Readable (data : Mapping) : Prop := ∃ item, TrackedItem.fromWire data = .ok item

/-! ## Threads -/

structure ReasoningThread where
  id : String
  topic : String
  status : ReasonStatus := .active
  working_summary : String := ""
  evidence_refs : List String := []
  priority : ReasonPriority := .normal
  last_advanced_at : Option String := none
  next_review_after : Option String := none
  skip_next_advance_until : Option String := none
  created_at : String
  updated_at : String
  active_items_data : List Mapping := []
  pending_items_data : List Mapping := []
  next_steps_data : List Mapping := []
  mandates_data : List String := []
  reasoning_prompt : String := ""

namespace ReasoningThread

def activeItems (t : ReasoningThread) : Except ReasonError (List TrackedItem) :=
  tryAll TrackedItem.fromWire t.active_items_data

def pendingItems (t : ReasoningThread) : Except ReasonError (List TrackedItem) :=
  tryAll TrackedItem.fromWire t.pending_items_data

def nextSteps (t : ReasoningThread) : Except ReasonError (List TrackedItem) :=
  tryAll TrackedItem.fromWire t.next_steps_data

/-- `_freeze_mapping_sequence`. -/
def freezeMappings (items : List Mapping) : Except ReasonError Unit :=
  if items.all Mapping.finite then .ok () else .error (.type "JSON value floats must be finite")

def postInit (iso : IsoTime) (t : ReasoningThread) : Except ReasonError ReasoningThread :=
  if blank t.topic then .error (.value "reason topic must not be empty")
  else do
    validateAwareIso iso "created_at" t.created_at
    validateAwareIso iso "updated_at" t.updated_at
    validateOptionalAwareIso iso "last_advanced_at" t.last_advanced_at
    validateOptionalAwareIso iso "next_review_after" t.next_review_after
    validateOptionalAwareIso iso "skip_next_advance_until" t.skip_next_advance_until
    freezeMappings t.active_items_data
    freezeMappings t.pending_items_data
    freezeMappings t.next_steps_data
    return t

/-- What the constructor accepts. -/
structure WellFormed (iso : IsoTime) (t : ReasoningThread) : Prop where
  topic : blank t.topic = false
  created_at : Aware iso t.created_at
  updated_at : Aware iso t.updated_at
  last_advanced_at : ∀ v ∈ t.last_advanced_at, Aware iso v
  next_review_after : ∀ v ∈ t.next_review_after, Aware iso v
  skip_next_advance_until : ∀ v ∈ t.skip_next_advance_until, Aware iso v
  active_items : t.active_items_data.all Mapping.finite = true
  pending_items : t.pending_items_data.all Mapping.finite = true
  next_steps : t.next_steps_data.all Mapping.finite = true

theorem freezeMappings_ok_iff {items : List Mapping} :
    freezeMappings items = .ok () ↔ items.all Mapping.finite = true := by
  rw [freezeMappings]
  split
  · rename_i h
    simp [h]
  · rename_i h
    simp [h]

theorem unit_bind_ok_iff {α : Type} {x : Except ReasonError Unit} {f : Unit → Except ReasonError α}
    {a : α} : (x >>= f) = .ok a ↔ x = .ok () ∧ f () = .ok a := by
  cases x with
  | error e => exact ⟨fun h => (nomatch h), fun h => (nomatch h.1)⟩
  | ok u => exact ⟨fun h => ⟨rfl, h⟩, fun h => h.2⟩

/-- **The constructor**, as a predicate. -/
theorem postInit_ok_iff {iso : IsoTime} {t t' : ReasoningThread} :
    postInit iso t = .ok t' ↔ t' = t ∧ t.WellFormed iso := by
  rw [postInit]
  split
  · rename_i hblank
    refine ⟨fun h => (nomatch h), fun h => ?_⟩
    have htopic := h.2.topic
    rw [hblank] at htopic
    cases htopic
  · rename_i hblank
    simp only [unit_bind_ok_iff, validateAwareIso_ok_iff, validateOptionalAwareIso_ok_iff,
      freezeMappings_ok_iff]
    constructor
    · rintro ⟨h₁, h₂, h₃, h₄, h₅, h₆, h₇, h₈, hlast⟩
      cases hlast
      exact ⟨rfl, by simpa using hblank, h₁, h₂, h₃, h₄, h₅, h₆, h₇, h₈⟩
    · rintro ⟨rfl, h⟩
      exact ⟨h.created_at, h.updated_at, h.last_advanced_at, h.next_review_after,
        h.skip_next_advance_until, h.active_items, h.pending_items, h.next_steps, rfl⟩

/-! ## The wire form -/

def optionalText : Option String → Json
  | none => .null
  | some s => .str s

def stringList (items : List String) : Json := .arr (items.map .str)

def mappingList (items : List Mapping) : Json := .arr (items.map .obj)

def toWire (t : ReasoningThread) : Record where
  rows := [("id", .str t.id), ("topic", .str t.topic), ("status", .str t.status.name),
    ("working_summary", .str t.working_summary),
    ("active_items_data", mappingList t.active_items_data),
    ("pending_items_data", mappingList t.pending_items_data),
    ("next_steps_data", mappingList t.next_steps_data),
    ("mandates_data", stringList t.mandates_data), ("reasoning_prompt", .str t.reasoning_prompt),
    ("evidence_refs", stringList t.evidence_refs), ("priority", .str t.priority.name),
    ("last_advanced_at", optionalText t.last_advanced_at),
    ("skip_next_advance_until", optionalText t.skip_next_advance_until),
    ("next_review_after", optionalText t.next_review_after),
    ("created_at", .str t.created_at), ("updated_at", .str t.updated_at)]
  nodup := by simp

/-- The error that names a field. -/
def fieldError {α : Type} (field_name rest : String) : Except ReasonError α :=
  .error (.value ("field '" ++ field_name ++ "' " ++ rest))

def expectStr (data : Record) (field_name : String) : Except ReasonError String :=
  match data.get field_name with
  | some (.str s) => .ok s
  | _ => fieldError field_name "must be a string"

def expectOptionalStr (data : Record) (field_name : String) :
    Except ReasonError (Option String) :=
  match data.get field_name with
  | some .null => .ok none
  | some (.str s) => .ok (some s)
  | _ => fieldError field_name "must be a string or null"

def asString : Json → Option String
  | .str s => some s
  | _ => none

def asMapping : Json → Option Mapping
  | .obj fields => some fields
  | _ => none

/-- `_expect_str_list` and `_expect_mandates`. -/
def expectStrList (data : Record) (field_name : String) : Except ReasonError (List String) :=
  match data.get field_name with
  | some (.arr items) =>
    match items.mapM asString with
    | some strings => .ok strings
    | none => fieldError field_name "must be a list of strings"
  | _ => fieldError field_name "must be a list of strings"

/-- `_expect_tracked_items`: objects, of whatever fields. -/
def expectTrackedItems (data : Record) (field_name : String) : Except ReasonError (List Mapping) :=
  match data.get field_name with
  | some (.arr items) =>
    match items.mapM asMapping with
    | some mappings => .ok mappings
    | none => fieldError field_name "must contain objects"
  | _ => fieldError field_name "must be a list"

/-- `_expect_reason_status` and `_expect_reason_priority`. -/
def expectName {α : Type} (ofName : String → Option α) (what : String) (data : Record)
    (field_name : String) : Except ReasonError α := do
  let value ← expectStr data field_name
  match ofName value with
  | some a => return a
  | none => fieldError field_name ("must be a reason " ++ what)

def fromWire (iso : IsoTime) (data : Record) : Except ReasonError ReasoningThread := do
  let id ← expectStr data "id"
  let topic ← expectStr data "topic"
  let status ← expectName ReasonStatus.ofName "status" data "status"
  let working_summary ← expectStr data "working_summary"
  let evidence_refs ← expectStrList data "evidence_refs"
  let priority ← expectName ReasonPriority.ofName "priority" data "priority"
  let last_advanced_at ← expectOptionalStr data "last_advanced_at"
  let next_review_after ← expectOptionalStr data "next_review_after"
  let skip_next_advance_until ← expectOptionalStr data "skip_next_advance_until"
  let created_at ← expectStr data "created_at"
  let updated_at ← expectStr data "updated_at"
  let active_items_data ← expectTrackedItems data "active_items_data"
  let pending_items_data ← expectTrackedItems data "pending_items_data"
  let next_steps_data ← expectTrackedItems data "next_steps_data"
  let mandates_data ← expectStrList data "mandates_data"
  let reasoning_prompt ← expectStr data "reasoning_prompt"
  postInit iso
    { id := id, topic, status, working_summary, evidence_refs, priority, last_advanced_at,
      next_review_after, skip_next_advance_until, created_at, updated_at, active_items_data,
      pending_items_data, next_steps_data, mandates_data, reasoning_prompt }

/-! ## The round trip -/

section Fields

variable {data : Record} {field_name : String}

theorem expectStr_ok {s : String} (h : data.get field_name = some (.str s)) :
    expectStr data field_name = .ok s := by
  rw [expectStr, h]

theorem expectOptionalStr_ok {s : Option String}
    (h : data.get field_name = some (optionalText s)) :
    expectOptionalStr data field_name = .ok s := by
  rw [expectOptionalStr, h]
  cases s <;> rfl

theorem expectStrList_ok {items : List String} (h : data.get field_name = some (stringList items)) :
    expectStrList data field_name = .ok items := by
  have hmap := @mapM_map_of_forall _ _ Json.str asString items fun _ _ => rfl
  rw [expectStrList, h]
  show (match (items.map Json.str).mapM asString with | some strings => _ | none => _) = _
  rw [hmap]

theorem expectTrackedItems_ok {items : List Mapping}
    (h : data.get field_name = some (mappingList items)) :
    expectTrackedItems data field_name = .ok items := by
  have hmap := @mapM_map_of_forall _ _ Json.obj asMapping items fun _ _ => rfl
  rw [expectTrackedItems, h]
  show (match (items.map Json.obj).mapM asMapping with | some mappings => _ | none => _) = _
  rw [hmap]

theorem expectName_ok {α : Type} {ofName : String → Option α} {what s : String} {a : α}
    (h : data.get field_name = some (.str s)) (hname : ofName s = some a) :
    expectName ofName what data field_name = .ok a := by
  rw [expectName, expectStr_ok h]
  show (match ofName s with | some a => _ | none => _) = _
  rw [hname]
  rfl

end Fields

/-- **The round trip**: a thread that the constructor accepts is decoded from its wire form. -/
theorem fromWire_toWire {iso : IsoTime} {t : ReasoningThread} (h : t.WellFormed iso) :
    fromWire iso t.toWire = .ok t := by
  have hid : expectStr t.toWire "id" = .ok t.id := expectStr_ok rfl
  have htopic : expectStr t.toWire "topic" = .ok t.topic := expectStr_ok rfl
  have hstatus : expectName ReasonStatus.ofName "status" t.toWire "status" = .ok t.status :=
    expectName_ok rfl (ReasonStatus.ofName_name t.status)
  have hsummary : expectStr t.toWire "working_summary" = .ok t.working_summary := expectStr_ok rfl
  have hrefs : expectStrList t.toWire "evidence_refs" = .ok t.evidence_refs := expectStrList_ok rfl
  have hpriority : expectName ReasonPriority.ofName "priority" t.toWire "priority" =
      .ok t.priority := expectName_ok rfl (ReasonPriority.ofName_name t.priority)
  have hadvanced : expectOptionalStr t.toWire "last_advanced_at" = .ok t.last_advanced_at :=
    expectOptionalStr_ok rfl
  have hreview : expectOptionalStr t.toWire "next_review_after" = .ok t.next_review_after :=
    expectOptionalStr_ok rfl
  have hskip : expectOptionalStr t.toWire "skip_next_advance_until" =
      .ok t.skip_next_advance_until := expectOptionalStr_ok rfl
  have hcreated : expectStr t.toWire "created_at" = .ok t.created_at := expectStr_ok rfl
  have hupdated : expectStr t.toWire "updated_at" = .ok t.updated_at := expectStr_ok rfl
  have hactive : expectTrackedItems t.toWire "active_items_data" = .ok t.active_items_data :=
    expectTrackedItems_ok rfl
  have hpending : expectTrackedItems t.toWire "pending_items_data" = .ok t.pending_items_data :=
    expectTrackedItems_ok rfl
  have hnext : expectTrackedItems t.toWire "next_steps_data" = .ok t.next_steps_data :=
    expectTrackedItems_ok rfl
  have hmandates : expectStrList t.toWire "mandates_data" = .ok t.mandates_data :=
    expectStrList_ok rfl
  have hprompt : expectStr t.toWire "reasoning_prompt" = .ok t.reasoning_prompt := expectStr_ok rfl
  rw [fromWire, hid, htopic, hstatus, hsummary, hrefs, hpriority, hadvanced, hreview, hskip,
    hcreated, hupdated, hactive, hpending, hnext, hmandates, hprompt]
  exact postInit_ok_iff.mpr ⟨rfl, h⟩

end ReasoningThread

/-! ## A thread at noon -/

/-- Noon of the first of January 2026, and ten minutes later. -/
def noonNames : List (Int × String) :=
  [(1767268800000000, "2026-01-01T12:00:00+00:00"),
    (1767269400000000, "2026-01-01T12:10:00+00:00")]

/-- These two times by name. -/
def noonIso : IsoTime where
  isoformat := namedText noonNames
  fromisoformat text := (readNamed noonNames text).map .aware
  from_isoformat t := by rw [readNamed_namedText (by decide) (by decide)]; rfl

/-- A thread that was started without items. -/
def emptyThread : ReasoningThread where
  id := "reason-1"
  topic := "A topic"
  created_at := "2026-01-01T12:00:00+00:00"
  updated_at := "2026-01-01T12:00:00+00:00"
  reasoning_prompt := "Think."

end NuSelf.Reasoning
