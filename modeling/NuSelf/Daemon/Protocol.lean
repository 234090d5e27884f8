/-
  The JSONL protocol between client and daemon: one object on one line, with exactly the fields of
  its envelope.

  Everything that is wrong with a line is a `ProtocolError`, but for two things: a value that nests
  too deep (`RecursionError`), and a version with too many digits for its own error text
  (`ValueError`).  How deep the walks go is a property of the interpreter that runs them, at the
  point where they run (`Interpreter`).  How floats are written, what redaction does to a text and
  what a `JSONDecodeError` says are parameters.
-/
import Mathlib.Data.List.Lex
import NuSelf.Lib.JsonReread

namespace NuSelf.Daemon

open NuSelf.Lib

/-! ## Lines -/

abbrev Bytes := List UInt8

/-- `str.encode("utf-8")` of a text without surrogates. -/
def encodeUtf8 (text : List Char) : Bytes := text.flatMap String.utf8EncodeChar

/-- `bytes.decode("utf-8")`. -/
def decodeUtf8 (line : Bytes) : Option (List Char) :=
  line.toByteArray.utf8Decode?.map Array.toList

theorem decodeUtf8_encodeUtf8 (text : List Char) : decodeUtf8 (encodeUtf8 text) = some text := by
  have h : (text.flatMap String.utf8EncodeChar).toByteArray.utf8Decode? = some text.toArray :=
    List.utf8Decode?_utf8Encode
  rw [decodeUtf8, encodeUtf8, h]
  rfl

theorem decodeUtf8_eq_some_iff {line : Bytes} {text : List Char} :
    decodeUtf8 line = some text ↔ line = encodeUtf8 text := by
  constructor
  · intro h
    have hsome : line.toByteArray.utf8Decode?.isSome = true := by
      rw [← Option.isSome_map (f := Array.toList)]
      exact Option.isSome_of_mem h
    obtain ⟨text', htext⟩ := ByteArray.isSome_utf8Decode?_iff.mp hsome
    have hbytes : line = encodeUtf8 text' := by
      rw [← List.toList_data_toByteArray (l := line), htext, List.utf8Encode,
        List.toList_data_toByteArray]
      rfl
    rw [hbytes, decodeUtf8_encodeUtf8] at h
    rw [hbytes, Option.some.inj h]
  · rintro rfl
    exact decodeUtf8_encodeUtf8 text

def maxDaemonFrameBytes : Nat := 1024 * 1024

/-- How deep each walk goes before the interpreter gives up; there is room at least for an envelope
    and its payload. -/
structure Interpreter where
  scan : Nat
  encode : Nat
  validate : Nat
  scan_room : 2 ≤ scan
  encode_room : 2 ≤ encode
  validate_room : 3 ≤ validate

/-- The texts of exceptions: `redact_sensitive_text`, and the `JSONDecodeError` of a document. -/
structure Diagnostics where
  redact : PyText → PyText
  json_decode_error : List Char → PyText

/-- `ProtocolError` and its subclasses. -/
inductive ProtocolErrorClass where
  | protocolError
  | peerDisconnected
  | frameTooLarge
  | incompleteFrame
  | extraFrameData
  deriving DecidableEq

structure ProtocolError where
  cls : ProtocolErrorClass := .protocolError
  text : PyText

/-- What the codec raises: a `ProtocolError`, or what is none. -/
inductive CodecError where
  | protocol (e : ProtocolError)
  | valueError
  | recursionError

def CodecError.isProtocol : CodecError → Bool
  | .protocol _ => true
  | _ => false

/-- `raise ProtocolError(text)`. -/
def protocolError {α : Type} (text : PyText) : Except CodecError α := .error (.protocol { text })

def frameTooLarge : ProtocolError where
  cls := .frameTooLarge
  text := pyText "daemon frame exceeds 1048576 bytes"

def incompleteFrame : ProtocolError where
  cls := .incompleteFrame
  text := pyText "daemon frame ended before its newline"

def extraFrameData : ProtocolError where
  cls := .extraFrameData
  text := pyText "daemon connection contains more than one frame"

def peerDisconnected : ProtocolError where
  cls := .peerDisconnected
  text := pyText "peer closed connection before sending a frame"

def safeExceptionMessage (class_name : String) (text : PyText) : PyText :=
  if stripText text = [] then pyText class_name else stripText text

/-- `diagnostic_exception_message`. -/
def Diagnostics.message (diagnostics : Diagnostics) (class_name : String) (text : PyText) : PyText :=
  diagnostics.redact (safeExceptionMessage class_name text)

def validateJsonLineFrame (line : Bytes) : Except ProtocolError Unit :=
  if line = [] then .error peerDisconnected
  else if maxDaemonFrameBytes < line.length then .error frameTooLarge
  else if line.getLast? ≠ some 10 then .error incompleteFrame
  else if 10 ∈ line.dropLast then .error extraFrameData
  else .ok ()

/-! ## Decoding an object -/

/-- What the hooks raise. -/
inductive HookError where
  /-- `_reject_json_constant`. -/
  | constant (name : String)
  /-- `_decode_object_pairs`. -/
  | duplicate (key : PyText)

/-- The first key that was there before. -/
def firstDuplicate (seen : List PyText) : List PyText → Option PyText
  | [] => none
  | key :: rest => if key ∈ seen then some key else firstDuplicate (key :: seen) rest

section

variable {φ : Type}

def decodeObjectPairs (pairs : List (PyText × JsonValue φ)) : Except HookError (JsonValue φ) :=
  match firstDuplicate [] (pairs.map Prod.fst) with
  | some key => .error (.duplicate key)
  | none => .ok (.obj pairs)

/-- `parse_constant` and `object_pairs_hook` of `_decode_json_object`. -/
def frameHooks : ScanHooks HookError φ where
  constant name := .error (.constant name)
  pairs := decodeObjectPairs

variable (floats : FloatFormat φ)

mutual

/-- `_validate_json_value`, of which only the errors matter; for a container it calls a function of
    its own level before it goes deeper. -/
def validateJsonValue : Nat → PyText → JsonValue φ → Except CodecError Unit
  | 0, _, _ => .error .recursionError
  | _ + 1, path, .float x =>
    if floats.isFinite x then .ok ()
    else protocolError (pyText "field '" ++ path ++ pyText "' contains a non-finite number")
  | 1, _, .arr _ | 1, _, .obj _ => .error .recursionError
  | limit + 2, path, .arr items => validateJsonItems (limit + 1) path 0 items
  | limit + 2, path, .obj fields => validateJsonFields (limit + 1) path fields
  | _ + 1, path, .foreign type_name =>
    protocolError (pyText "field '" ++ path ++ pyText "' contains non-JSON value " ++
      pyText type_name)
  | _ + 1, _, _ => .ok ()

def validateJsonItems (limit : Nat) (path : PyText) : Nat → List (JsonValue φ) →
    Except CodecError Unit
  | _, [] => .ok ()
  | index, v :: rest => do
    validateJsonValue limit (path ++ pyText ("[" ++ toString index ++ "]")) v
    validateJsonItems limit path (index + 1) rest

def validateJsonFields (limit : Nat) (path : PyText) : List (PyText × JsonValue φ) →
    Except CodecError Unit
  | [] => .ok ()
  | (key, v) :: rest => do
    validateJsonValue limit (path ++ pyText "." ++ key) v
    validateJsonFields limit path rest

end

variable (diagnostics : Diagnostics)

/-- The `ValueError` of `int()`. -/
def tooManyDigits (count : Nat) : PyText :=
  pyText ("Exceeds the limit (4300 digits) for integer string conversion: value has " ++
    toString count ++ " digits; use sys.set_int_max_str_digits() to increase the limit")

/-- The error for a text that is not read. -/
def scanFailure (text : List Char) : ScanError HookError → CodecError
  | .decode =>
    .protocol { text := pyText "invalid json: " ++
      diagnostics.message "JSONDecodeError" (diagnostics.json_decode_error text) }
  | .digits count => .protocol { text := diagnostics.message "ValueError" (tooManyDigits count) }
  | .hook (.constant name) =>
    .protocol { text :=
      diagnostics.message "ValueError" (pyText ("invalid JSON constant: " ++ name)) }
  | .hook (.duplicate key) => .protocol { text := pyText "duplicate JSON object field: " ++ key }
  | .recursion => .recursionError

def decodeJsonObject (interpreter : Interpreter) (line : Bytes) :
    Except CodecError (List (PyText × JsonValue φ)) := do
  (validateJsonLineFrame line).mapError .protocol
  match decodeUtf8 line with
  | none => protocolError (pyText "frame is not valid UTF-8")
  | some text =>
    match loads floats frameHooks interpreter.scan text with
    | .error e => .error (scanFailure diagnostics text e)
    | .ok (.obj fields) => do
      validateJsonValue floats interpreter.validate (pyText "$") (.obj fields)
      return fields
    | .ok _ => protocolError (pyText "payload must be a JSON object")

/-! ## Envelopes -/

/-- The place of a code point in the order of texts. -/
def codePointValue : CodePoint → Nat
  | .char c => c.toNat
  | .surrogate s => 0xd800 + s

/-- `sorted` of texts. -/
def sortTexts (texts : List PyText) : List PyText :=
  texts.mergeSort fun a b => decide (a.map codePointValue ≤ b.map codePointValue)

/-- `", ".join`. -/
def joinTexts : List PyText → PyText
  | [] => []
  | [text] => text
  | text :: rest => text ++ pyText ", " ++ joinTexts rest

/-- A decoded object. -/
abbrev RawObject (φ : Type) := List (PyText × JsonValue φ)

/-- `raw.get(field_name)`. -/
def RawObject.get (raw : RawObject φ) (field_name : String) : Option (JsonValue φ) :=
  raw.lookup (pyText field_name)

def fieldError {α : Type} (field_name problem : String) : Except CodecError α :=
  protocolError (pyText ("field '" ++ field_name ++ "' must be " ++ problem))

def expectFields (raw : RawObject φ) (required optional : List String) : Except CodecError Unit :=
  let known := (required ++ optional).map pyText
  let unknown := (raw.map Prod.fst).filter fun key => !known.contains key
  if unknown = [] then .ok ()
  else protocolError (pyText "unknown envelope field(s): " ++ joinTexts (sortTexts unknown))

/-- `_expect_int`; a boolean is no integer here. -/
def expectInt (raw : RawObject φ) (field_name : String) : Except CodecError Int :=
  match raw.get field_name with
  | some (.int n) => .ok n
  | _ => fieldError field_name "an integer"

def protocolVersion : Int := 1

/-- `_expect_protocol_version`; an integer with too many digits has no text. -/
def expectProtocolVersion (raw : RawObject φ) : Except CodecError Int := do
  let version ← expectInt raw "version"
  if version = protocolVersion then return version
  else if (NumberLiteral.ofInt version).whole.length ≤ maxIntDigits then
    protocolError (pyText ("unsupported protocol version: " ++ toString version))
  else .error .valueError

def expectStr (raw : RawObject φ) (field_name : String) : Except CodecError PyText :=
  match raw.get field_name with
  | some (.str s) => .ok s
  | _ => fieldError field_name "a string"

def expectNonEmptyStr (raw : RawObject φ) (field_name : String) : Except CodecError PyText := do
  let value ← expectStr raw field_name
  if blankText value then fieldError field_name "a non-empty string" else return value

def expectObject (raw : RawObject φ) (field_name : String) : Except CodecError (RawObject φ) :=
  match raw.get field_name with
  | some (.obj fields) => .ok fields
  | _ => fieldError field_name "an object"

inductive RequestType where
  | ping
  | health
  | chat
  | shutdown
  | activity_open
  | activity_next
  | activity_close
  deriving DecidableEq

def RequestType.name : RequestType → String
  | .ping => "ping"
  | .health => "health"
  | .chat => "chat"
  | .shutdown => "shutdown"
  | .activity_open => "activity_open"
  | .activity_next => "activity_next"
  | .activity_close => "activity_close"

def requestTypes : List RequestType :=
  [.ping, .health, .chat, .shutdown, .activity_open, .activity_next, .activity_close]

def expectRequestType (raw : RawObject φ) (field_name : String) : Except CodecError RequestType := do
  let value ← expectStr raw field_name
  match requestTypes.find? fun type => decide (pyText type.name = value) with
  | some type => return type
  | none => protocolError (pyText "unsupported request type: " ++ value)

inductive ResponseStatus where
  | ok
  | error
  deriving DecidableEq

def ResponseStatus.name : ResponseStatus → String
  | .ok => "ok"
  | .error => "error"

def expectResponseStatus (raw : RawObject φ) (field_name : String) :
    Except CodecError ResponseStatus := do
  let value ← expectStr raw field_name
  if value = pyText "ok" then return .ok
  else if value = pyText "error" then return .error
  else protocolError (pyText "unsupported response status: " ++ value)

structure DaemonRequest (φ : Type) where
  type : RequestType
  payload : RawObject φ
  request_id : PyText
  version : Int

structure DaemonResponse (φ : Type) where
  request_id : PyText
  status : ResponseStatus
  payload : RawObject φ := []
  error : Option PyText := none
  version : Int := protocolVersion

def validateRequestWire (interpreter : Interpreter) (raw : RawObject φ) :
    Except CodecError (DaemonRequest φ) := do
  expectFields raw ["version", "request_id", "type", "payload"] []
  let version ← expectProtocolVersion raw
  let request_id ← expectNonEmptyStr raw "request_id"
  let type ← expectRequestType raw "type"
  let payload ← expectObject raw "payload"
  validateJsonValue floats interpreter.validate (pyText "payload") (.obj payload)
  return { type, payload, request_id, version }

def DaemonRequest.fromJsonLine (interpreter : Interpreter) (line : Bytes) :
    Except CodecError (DaemonRequest φ) := do
  let raw ← decodeJsonObject floats diagnostics interpreter line
  validateRequestWire floats interpreter raw

/-- The error of a response: there if and only if the status says so. -/
def expectResponseError (raw : RawObject φ) : ResponseStatus → Except CodecError (Option PyText)
  | .ok =>
    if (raw.get "error").isSome then
      protocolError (pyText "field 'error' must be absent for an ok response")
    else .ok none
  | .error => (expectNonEmptyStr raw "error").map some

def validateResponseWire (interpreter : Interpreter) (raw : RawObject φ) :
    Except CodecError (DaemonResponse φ) := do
  expectFields raw ["version", "request_id", "status", "payload"] ["error"]
  let version ← expectProtocolVersion raw
  let request_id ← expectNonEmptyStr raw "request_id"
  let status ← expectResponseStatus raw "status"
  let payload ← expectObject raw "payload"
  validateJsonValue floats interpreter.validate (pyText "payload") (.obj payload)
  let error ← expectResponseError raw status
  return { request_id, status, payload, error, version }

def DaemonRequest.toWire (request : DaemonRequest φ) : RawObject φ :=
  [(pyText "version", .int request.version), (pyText "request_id", .str request.request_id),
    (pyText "type", .str (pyText request.type.name)), (pyText "payload", .obj request.payload)]

def DaemonResponse.toWire (response : DaemonResponse φ) : RawObject φ :=
  [(pyText "version", .int response.version), (pyText "request_id", .str response.request_id),
    (pyText "status", .str (pyText response.status.name)),
    (pyText "payload", .obj response.payload)] ++
    response.error.elim [] fun error => [(pyText "error", .str error)]

def encodeJsonLine (interpreter : Interpreter) (wire : RawObject φ) : Except CodecError Bytes :=
  match JsonValue.dumps floats interpreter.encode (.obj wire) with
  | .error .value => protocolError (pyText "daemon frame is not valid JSON")
  | .error .recursion => .error .recursionError
  | .ok text =>
    let frame := encodeUtf8 (text ++ ['\n'])
    if maxDaemonFrameBytes < frame.length then .error (.protocol frameTooLarge) else .ok frame

def DaemonRequest.toJsonLine (interpreter : Interpreter) (request : DaemonRequest φ) :
    Except CodecError Bytes := do
  let _ ← validateRequestWire floats interpreter request.toWire
  encodeJsonLine floats interpreter request.toWire

def DaemonResponse.toJsonLine (interpreter : Interpreter) (response : DaemonResponse φ) :
    Except CodecError Bytes := do
  let _ ← validateResponseWire floats interpreter response.toWire
  encodeJsonLine floats interpreter response.toWire

def DaemonResponse.fromJsonLine (interpreter : Interpreter) (line : Bytes) :
    Except CodecError (DaemonResponse φ) := do
  let raw ← decodeJsonObject floats diagnostics interpreter line
  validateResponseWire floats interpreter raw

def DaemonResponse.fail (request_id error : PyText) : DaemonResponse φ where
  request_id
  status := .error
  error :=
    some (if stripText error = [] then pyText "daemon request failed" else stripText error)

end

end NuSelf.Daemon
