/-
  `LogEvent`: one record of a log, read from a decoded object and written as one.

  What is wrong with an object is a `TypeError` or a `ValueError` with its text; an object that nests
  too deep for the walk that freezes its metadata is neither.  `datetime.fromisoformat` is a
  parameter: nothing if there is no time in a text, else its instant, if it has a time zone.

  1. `fromRecord_continues` — the room for the walk decides only whether an object is read, not as
     what.
  2. `written_agree` — the texts that tell events apart do not depend on it either.
-/
import NuSelf.Daemon.Protocol
import NuSelf.Log.Cursor
import NuSelf.Runtime.Messages

namespace NuSelf.Log

def LogComponent.name : LogComponent → String
  | .daemon => "daemon"
  | .chat => "chat"
  | .memory => "memory"
  | .persona => "persona"
  | .inbox => "inbox"
  | .delivery => "delivery"
  | .reflection => "reflection"
  | .reasoning => "reasoning"
  | .storage => "storage"

namespace Record

open NuSelf.Lib NuSelf.Lib.JsonValue NuSelf.Runtime NuSelf.Daemon

/-! ## Events -/

inductive LogLevel where
  | debug
  | info
  | warning
  | error
  deriving DecidableEq

def LogLevel.name : LogLevel → String
  | .debug => "debug"
  | .info => "info"
  | .warning => "warning"
  | .error => "error"

def logLevels : List LogLevel := [.debug, .info, .warning, .error]

/-- What `LogEvent` raises. -/
inductive RecordError where
  | type_error (text : String)
  | value_error (text : String)
  | recursion_error
  deriving DecidableEq

def RecordError.ofJson : JsonError → RecordError
  | .type_error text => .type_error text
  | .value_error => .value_error ""
  | .recursion_error => .recursion_error

structure LogEvent (φ : Type) where
  time : PyText
  level : LogLevel
  component : LogComponent
  event : PyText
  message : PyText
  event_id : Option PyText := none
  schema_version : Option Int := none
  conversation_id : Option PyText := none
  reason_id : Option PyText := none
  request_id : Option PyText := none
  turn_id : Option PyText := none
  job_id : Option PyText := none
  trace_id : Option PyText := none
  source : Option PyText := none
  node : Option PyText := none
  duration_ms : Option Int := none
  status : Option PyText := none
  error : Option PyText := none
  metadata : Option (Frozen φ) := none
  /-- `_instant`. -/
  instant : Option Int := none

def runtimeSchemaVersion : Int := 1

/-! ## The checks of an event -/

def valueError {α : Type} (text : String) : Except RecordError α := .error (.value_error text)

def typeError {α : Type} (text : String) : Except RecordError α := .error (.type_error text)

/-- `raise` behind an `if`. -/
def refuse (invalid : Bool) (error : RecordError) : Except RecordError Unit :=
  if invalid then .error error else .ok ()

/-- `_IDENTITY_SEGMENT`. -/
def isIdentitySegment : PyText → Bool
  | .char c :: rest => c.isLower && rest.all fun
    | .char c => c.isLower || c.isDigit || c == '_'
    | .surrogate _ => false
  | _ => false

/-- `require_persisted_event_name`: one segment, or several with points between them. -/
def isPersistedEventName (name : PyText) : Bool :=
  (name.splitOnP (· == .char '.')).all isIdentitySegment

section

variable (fromisoformat : PyText → Option (Option Int))

def parseLogTimestamp (value : PyText) (allow_empty : Bool) : Except RecordError (Option Int) :=
  if value = [] then
    if allow_empty then .ok none else valueError "structured log time must not be empty"
  else
    match fromisoformat value with
    | none => valueError "log time must be an ISO-8601 timestamp"
    | some none => valueError "log time must include a timezone"
    | some (some instant) => .ok (some instant)

variable {φ : Type} (floats : FloatFormat φ) (limits : JsonLimits)

/-- `__post_init__` of an event whose fields have the right types. -/
def LogEvent.postInit (allow_empty_time : Bool) (metadata : Option (RawObject φ)) (e : LogEvent φ) :
    Except RecordError (LogEvent φ) := do
  refuse (e.event_id.isNone != e.schema_version.isNone)
    (.value_error "log event_id and schema_version must both be present or absent")
  refuse (e.event_id.any blankText) (.value_error "log event_id must not be blank")
  refuse (e.schema_version.any (· != runtimeSchemaVersion))
    (.value_error "log schema_version is unsupported")
  let instant ← parseLogTimestamp fromisoformat e.time
    (allow_empty_time && e.event == pyText "legacy" && e.event_id.isNone &&
      e.schema_version.isNone)
  refuse (e.duration_ms.any (· < 0)) (.type_error "log duration_ms must be a non-negative integer")
  refuse (e.schema_version.isSome && !isPersistedEventName e.event)
    (.value_error "log event name is invalid")
  match metadata with
  | none => return { e with instant }
  | some fields =>
    let frozen ← (freezeJsonValue floats limits.freeze (.ofJson (.obj fields))).mapError .ofJson
    return { e with instant, metadata := some frozen }

/-! ## Reading an object -/

/-- `component not in LOG_COMPONENTS`. -/
def recordComponent (record : RawObject φ) : Except RecordError LogComponent :=
  match record.get "component" with
  | some (.str name) =>
    match logComponents.find? fun c => pyText c.name == name with
    | some c => .ok c
    | none => valueError "log component is invalid"
  | _ => valueError "log component is invalid"

/-- `level not in {…}`: what cannot be in a set is a `TypeError`. -/
def recordLevel (record : RawObject φ) : Except RecordError LogLevel :=
  match record.get "level" with
  | some (.str name) =>
    match logLevels.find? fun level => pyText level.name == name with
    | some level => .ok level
    | none => valueError "log level is invalid"
  | some (.arr _) => typeError "unhashable type: 'list'"
  | some (.obj _) => typeError "unhashable type: 'dict'"
  | _ => valueError "log level is invalid"

def recordOptionalStr (record : RawObject φ) (field_name : String) :
    Except RecordError (Option PyText) :=
  match record.get field_name with
  | none | some .null => .ok none
  | some (.str value) => .ok (some value)
  | some _ => typeError ("log " ++ field_name ++ " must be a string")

def recordOptionalInt (record : RawObject φ) (field_name : String) :
    Except RecordError (Option Int) :=
  match record.get field_name with
  | none | some .null => .ok none
  | some (.int value) => .ok (some value)
  | some _ => typeError ("log " ++ field_name ++ " must be an integer")

def recordOptionalMapping (record : RawObject φ) (field_name : String) :
    Except RecordError (Option (RawObject φ)) :=
  match record.get field_name with
  | none | some .null => .ok none
  | some (.obj fields) => .ok (some fields)
  | some _ => typeError ("log " ++ field_name ++ " must be a mapping")

/-- The fields of an event as the object has them, its metadata apart. -/
def recordFields (record : RawObject φ) :
    Except RecordError (LogEvent φ × Option (RawObject φ)) := do
  let component ← recordComponent record
  let level ← recordLevel record
  match record.get "event", record.get "message", record.get "time" with
  | some (.str event), some (.str message), some (.str time) =>
    let event_id ← recordOptionalStr record "event_id"
    let schema_version ← recordOptionalInt record "schema_version"
    let conversation_id ← recordOptionalStr record "conversation_id"
    let reason_id ← recordOptionalStr record "reason_id"
    let request_id ← recordOptionalStr record "request_id"
    let turn_id ← recordOptionalStr record "turn_id"
    let job_id ← recordOptionalStr record "job_id"
    let trace_id ← recordOptionalStr record "trace_id"
    let source ← recordOptionalStr record "source"
    let node ← recordOptionalStr record "node"
    let duration_ms ← recordOptionalInt record "duration_ms"
    let status ← recordOptionalStr record "status"
    let error ← recordOptionalStr record "error"
    let metadata ← recordOptionalMapping record "metadata"
    return ({ time, level, component, event, message, event_id, schema_version, conversation_id,
              reason_id, request_id, turn_id, job_id, trace_id, source, node, duration_ms, status,
              error }, metadata)
  | _, _, _ => valueError "log event fields are invalid"

def fromRecord (record : RawObject φ) : Except RecordError (LogEvent φ) := do
  let (e, metadata) ← recordFields record
  e.postInit fromisoformat floats limits false metadata

end

/-! ## Writing an object -/

section

variable {φ : Type}

/-- What `to_record` writes of an event if it is there. -/
def LogEvent.optionalFields (e : LogEvent φ) : List (PyText × Frozen φ) :=
  [("event_id", e.event_id.map .str), ("schema_version", e.schema_version.map .int),
    ("conversation_id", e.conversation_id.map .str), ("reason_id", e.reason_id.map .str),
    ("request_id", e.request_id.map .str), ("turn_id", e.turn_id.map .str),
    ("job_id", e.job_id.map .str), ("trace_id", e.trace_id.map .str),
    ("source", e.source.map .str), ("node", e.node.map .str),
    ("duration_ms", e.duration_ms.map .int), ("status", e.status.map .str),
    ("error", e.error.map .str), ("metadata", e.metadata)].filterMap fun field =>
      field.2.map fun value => (pyText field.1, value)

def LogEvent.toRecord (limits : JsonLimits) (e : LogEvent φ) : Except JsonError (RawObject φ) := do
  let optional ← thawFields limits.thaw e.optionalFields
  return [(pyText "time", .str e.time), (pyText "level", .str (pyText e.level.name)),
    (pyText "component", .str (pyText e.component.name)), (pyText "event", .str e.event),
    (pyText "message", .str e.message)] ++ optional

variable (floats : FloatFormat φ) (limits : JsonLimits)

/-- `json.dumps(record, sort_keys=True, ensure_ascii=True)`; the floats of an event are finite. -/
def dumpsRecord (layout : Layout) (record : RawObject φ) : Except JsonError (List Char) :=
  match dumpsWith floats layout limits.encode (sortKeys (.obj record)) with
  | .ok text => .ok text
  | .error .value => .error .value_error
  | .error .recursion => .error .recursion_error

/-- `_log_event_fingerprint`. -/
def LogEvent.fingerprint (e : LogEvent φ) : Except JsonError (List Char) := do
  dumpsRecord floats limits .compact (← e.toRecord limits)

/-- The key of an event in `_reconcile_log_event_identities`. -/
def LogEvent.identity (e : LogEvent φ) : Except JsonError PyText :=
  match e.event_id with
  | some event_id => .ok (pyText "id:" ++ event_id)
  | none => do
    let record ← e.toRecord limits
    let text ← dumpsRecord floats limits (.plain none) (record.filter fun field =>
      field.1 != pyText "event_id" && field.1 != pyText "schema_version")
    return pyText "legacy:" ++ text.map .char

/-- What tells an event from others: its key and its fingerprint. -/
def LogEvent.written (e : LogEvent φ) : Except JsonError (PyText × List Char) := do
  let key ← e.identity floats limits
  let fingerprint ← e.fingerprint floats limits
  return (key, fingerprint)

end

/-! ## More room -/

section

variable {fromisoformat : PyText → Option (Option Int)} {φ : Type} {floats : FloatFormat φ}
  {limits limits' : JsonLimits}

theorem continues_ofJson {α : Type} {r r' : Except JsonError α}
    (h : Continues .recursion_error r r') :
    Continues .recursion_error (r.mapError RecordError.ofJson) (r'.mapError RecordError.ofJson) := by
  rcases h with rfl | rfl
  · exact .stopped _
  · exact .refl _

theorem postInit_continues (hle : limits.freeze ≤ limits'.freeze) (allow_empty_time : Bool)
    (metadata : Option (RawObject φ)) (e : LogEvent φ) :
    Continues .recursion_error (e.postInit fromisoformat floats limits allow_empty_time metadata)
      (e.postInit fromisoformat floats limits' allow_empty_time metadata) := by
  rw [LogEvent.postInit, LogEvent.postInit]
  refine (Continues.refl _).bind fun _ _ => (Continues.refl _).bind fun _ _ => ?_
  refine (Continues.refl _).bind fun _ _ => (Continues.refl _).bind fun instant _ => ?_
  refine (Continues.refl _).bind fun _ _ => (Continues.refl _).bind fun _ _ => ?_
  cases metadata with
  | none => exact .refl _
  | some fields =>
    exact (continues_ofJson (freezeJsonValue_continues _ hle)).bind fun _ _ => .refl _

/-- **More room** for the walk: an object is read as what it was read before. -/
theorem fromRecord_continues (hle : limits.freeze ≤ limits'.freeze) (record : RawObject φ) :
    Continues .recursion_error (fromRecord fromisoformat floats limits record)
      (fromRecord fromisoformat floats limits' record) := by
  refine (Continues.refl _).bind fun read _ => ?_
  obtain ⟨e, metadata⟩ := read
  exact postInit_continues hle false metadata e

theorem fromRecord_agree {record : RawObject φ}
    (hgoes : fromRecord fromisoformat floats limits record ≠ .error .recursion_error)
    (hgoes' : fromRecord fromisoformat floats limits' record ≠ .error .recursion_error) :
    fromRecord fromisoformat floats limits record = fromRecord fromisoformat floats limits' record :=
  Continues.agree ((Nat.le_total limits.freeze limits'.freeze).imp (fromRecord_continues · record)
    (fromRecord_continues · record)) hgoes hgoes'

theorem toRecord_agree {e : LogEvent φ} {record record' : RawObject φ}
    (h : e.toRecord limits = .ok record) (h' : e.toRecord limits' = .ok record') :
    record = record' := by
  obtain ⟨optional, hthaw, heq⟩ := bind_ok h
  obtain ⟨optional', hthaw', heq'⟩ := bind_ok h'
  rw [← Except.ok.inj heq, ← Except.ok.inj heq', ((thawFields_iff _ _ _).mp hthaw).2,
    ((thawFields_iff _ _ _).mp hthaw').2]

theorem dumpsRecord_ok {layout : Layout} {record : RawObject φ} {text : List Char}
    (h : dumpsRecord floats limits layout record = .ok text) :
    text = renderWith floats layout 0 (sortKeys (.obj record)) := by
  rw [dumpsRecord] at h
  cases hdumps : dumpsWith floats layout limits.encode (sortKeys (.obj record)) with
  | error e => cases e <;> (rw [hdumps] at h; cases h)
  | ok text' =>
    rw [hdumps] at h
    obtain ⟨_, -, heq⟩ := bind_ok hdumps
    rw [← Except.ok.inj h, ← Except.ok.inj heq]

/-- **What tells an event from others** does not depend on the room there is. -/
theorem written_agree {e : LogEvent φ} {w w' : PyText × List Char}
    (h : e.written floats limits = .ok w) (h' : e.written floats limits' = .ok w') : w = w' := by
  obtain ⟨key, hkey, h⟩ := bind_ok h
  obtain ⟨fingerprint, hfingerprint, h⟩ := bind_ok h
  obtain ⟨key', hkey', h'⟩ := bind_ok h'
  obtain ⟨fingerprint', hfingerprint', h'⟩ := bind_ok h'
  obtain ⟨record, hrecord, htext⟩ := bind_ok hfingerprint
  obtain ⟨record', hrecord', htext'⟩ := bind_ok hfingerprint'
  obtain rfl := toRecord_agree hrecord hrecord'
  have hfingerprints : fingerprint = fingerprint' :=
    (dumpsRecord_ok htext).trans (dumpsRecord_ok htext').symm
  have hkeys : key = key' := by
    rw [LogEvent.identity] at hkey hkey'
    cases hid : e.event_id with
    | some event_id =>
      rw [hid] at hkey hkey'
      exact (Except.ok.inj hkey).symm.trans (Except.ok.inj hkey')
    | none =>
      rw [hid] at hkey hkey'
      dsimp only at hkey hkey'
      rw [hrecord, ok_bind] at hkey
      rw [hrecord', ok_bind] at hkey'
      obtain ⟨text, hdumps, hkey⟩ := bind_ok hkey
      obtain ⟨text', hdumps', hkey'⟩ := bind_ok hkey'
      rw [← Except.ok.inj hkey, ← Except.ok.inj hkey', dumpsRecord_ok hdumps,
        dumpsRecord_ok hdumps']
  rw [← Except.ok.inj h, ← Except.ok.inj h', hkeys, hfingerprints]

theorem flat_fields : ∀ {fields : RawObject φ}, (∀ field ∈ fields, ∃ s, field.2 = .str s) →
    cleanFields floats fields = true ∧ nestingFields fields = 0
  | [], _ => ⟨rfl, rfl⟩
  | (k, v) :: rest, h => by
    obtain ⟨⟨s, hs⟩, hrest⟩ := List.forall_mem_cons.mp h
    obtain ⟨hclean, hnesting⟩ := flat_fields hrest
    obtain rfl : v = .str s := hs
    rw [cleanFields, nestingFields, hclean, hnesting]
    exact ⟨rfl, rfl⟩

theorem dumpsRecord_flat (floats : FloatFormat φ) (layout : Layout) {record : RawObject φ}
    (hflat : ∀ field ∈ record, ∃ s, field.2 = .str s) (hroom : 1 ≤ limits.encode) :
    ∃ text, dumpsRecord floats limits layout record = .ok text := by
  obtain ⟨hclean, hnesting⟩ := flat_fields hflat
  have hdumps : dumpsWith floats layout limits.encode (sortKeys (.obj record)) =
      .ok (renderWith floats layout 0 (sortKeys (.obj record))) := by
    refine dumpsWith_iff.mpr ⟨⟨?_, ?_⟩, rfl⟩
    · rw [clean_sortKeys]
      exact hclean
    · rw [nesting_sortKeys, nesting, hnesting]
      exact hroom
  rw [dumpsRecord, hdumps]
  exact ⟨_, rfl⟩

theorem written_flat {e : LogEvent φ} (hnone : e.optionalFields = []) (hid : e.event_id = none)
    (hroom : 1 ≤ limits.encode) : ∃ w, e.written floats limits = .ok w := by
  obtain ⟨record, hrecord, hflat⟩ : ∃ record, e.toRecord limits = .ok record ∧
      ∀ field ∈ record, ∃ s, field.2 = JsonValue.str s := by
    refine ⟨[(pyText "time", .str e.time), (pyText "level", .str (pyText e.level.name)),
      (pyText "component", .str (pyText e.component.name)), (pyText "event", .str e.event),
      (pyText "message", .str e.message)], ?_, ?_⟩
    · have hthaw : thawFields limits.thaw ([] : List (PyText × Frozen φ)) = .ok [] :=
        (thawFields_iff _ _ _).mpr ⟨Nat.zero_le _, rfl⟩
      rw [LogEvent.toRecord, hnone, hthaw]
      rfl
    · simp only [List.forall_mem_cons]
      exact ⟨⟨_, rfl⟩, ⟨_, rfl⟩, ⟨_, rfl⟩, ⟨_, rfl⟩, ⟨_, rfl⟩, nofun⟩
  obtain ⟨text, htext⟩ := dumpsRecord_flat floats .compact hflat hroom
  obtain ⟨key, hkey⟩ := dumpsRecord_flat floats (.plain none)
    (fun field hfield => hflat field (List.mem_of_mem_filter hfield)) hroom
  refine ⟨(pyText "legacy:" ++ key.map .char, text), ?_⟩
  rw [LogEvent.written, LogEvent.identity, hid]
  dsimp only
  rw [hrecord, ok_bind, hkey, LogEvent.fingerprint, hrecord]
  show (dumpsRecord floats limits .compact record).bind _ = _
  rw [htext]
  rfl

end

end Record

end NuSelf.Log
