/-
  The wire forms of tool effects, and what the decoders accept.

  A value names its kind, which picks the codec; approval is the one kind there is.  The codec
  takes objects with exactly its own fields.  A resolution holds a request, an object that has a
  kind of its own: the codec wants the field, and does not look at what it says.

  1. `decodeEffectRequest_encode`, `decodeEffectResolution_encode` — what the constructors accept
     comes back.
  2. `decodeRequest_iff`, `decodeResolution_iff` — exactly the objects that are accepted.
  3. `effect_codec_iff` — an accepted request is encoded to the same value again, and a resolution
     is exactly when its request names the kind as well.
-/
import NuSelf.Feature.Protocol
import NuSelf.Lib.JsonEq
import NuSelf.Lib.Sequence

namespace NuSelf.Feature

open NuSelf.Lib

/-! ## Constructors and names -/

def ApprovalRisk.ofText (text : String) : Option ApprovalRisk :=
  [ApprovalRisk.reversible, .destructive, .external].find? fun risk => risk.text == text

def ApprovalInput.ofText (text : String) : Option ApprovalInput :=
  [ApprovalInput.affirmative, .declined, .eof, .interrupt, .unavailable].find? fun input =>
    input.text == text

/-- `ApprovalEffectDecision(...)`. -/
def ApprovalEffectDecision.new (approved : Bool) (approver : Option String)
    (input_kind : ApprovalInput) : Except String ApprovalEffectDecision :=
  match approved with
  | true =>
    if hinput : input_kind = .affirmative then
      match happrover : approver with
      | some name =>
        if hname : blank name = true then .error "approved decision requires an approver"
        else .ok ⟨true, some name, input_kind, by simp [hinput],
          fun _ => ⟨name, rfl, by simpa using hname⟩⟩
      | none => .error "approved decision requires an approver"
    else .error "approved decision requires affirmative input"
  | false =>
    if hinput : input_kind = .affirmative then
      .error "declined decision cannot have affirmative input"
    else .ok ⟨false, approver, input_kind, by simp [hinput], nofun⟩

namespace Codec

/-- An object, by its fields. -/
abbrev Payload := List (String × Json)

/-- `ToolEffectCodecError`, and what a constructor raises. -/
inductive CodecError where
  | codec (text : String)
  /-- The fields are invalid; the sets of names are sorted into the text. -/
  | fields (expected got : List String)
  /-- No text, or a blank one: the context and the name of the field. -/
  | nonBlank (context field : String)
  | unsupportedKind (kind : String)
  | unsupportedType
  /-- The diagnostic message of the cause. -/
  | decision (cause : String)
  /-- `ValueError`. -/
  | value (text : String)
  deriving DecidableEq

/-! ## Helpers -/

def mapping (value : Json) (context : String) : Except CodecError Payload :=
  match value with
  | .obj payload => .ok payload
  | _ => .error (.codec (context ++ " must be an object"))

/-- `_fields`: the names are the required ones. -/
def fields (payload : Payload) (required : List String) : Except CodecError Unit :=
  if (∀ name ∈ payload.map Prod.fst, name ∈ required) ∧
      ∀ name ∈ required, name ∈ payload.map Prod.fst then .ok ()
  else .error (.fields required (payload.map Prod.fst))

def string (payload : Payload) (field context : String) : Except CodecError String :=
  match payload.lookup field with
  | some (.str value) => if blank value then .error (.nonBlank context field) else .ok value
  | _ => .error (.nonBlank context field)

/-! ## The codec of approvals -/

def requestFields : List String :=
  ["kind", "component", "operation", "action", "resource", "risk", "summary"]

def encodeRequest (request : ApprovalEffectRequest) : Payload :=
  [("kind", .str "approval"), ("component", .str request.component),
    ("operation", .str request.operation), ("action", .str request.action),
    ("resource", .str request.resource), ("risk", .str request.risk.text),
    ("summary", .str request.summary)]

def decodeRequest (payload : Payload) : Except CodecError ApprovalEffectRequest := do
  fields payload requestFields
  let risk ← string payload "risk" "approval request"
  match ApprovalRisk.ofText risk with
  | none => .error (.codec "approval request risk is invalid")
  | some risk =>
    let component ← string payload "component" "approval request"
    let operation ← string payload "operation" "approval request"
    let action ← string payload "action" "approval request"
    let resource ← string payload "resource" "approval request"
    let summary ← string payload "summary" "approval request"
    (ApprovalEffectRequest.new component operation action resource risk summary).mapError .value

/-- `approver` on the wire. -/
def approverJson : Option String → Json
  | none => .null
  | some approver => .str approver

def decisionFields : List String := ["approved", "approver", "input_kind"]

def encodeDecision (decision : ApprovalEffectDecision) : Payload :=
  [("approved", .bool decision.approved), ("approver", approverJson decision.approver),
    ("input_kind", .str decision.input_kind.text)]

def resolutionFields : List String := ["kind", "request", "decision"]

def encodeResolution (request : ApprovalEffectRequest) (decision : ApprovalEffectDecision) :
    Payload :=
  [("kind", .str "approval"), ("request", .obj (encodeRequest request)),
    ("decision", .obj (encodeDecision decision))]

/-- `decision["approved"]`, a boolean. -/
def decodeApproved (decision : Payload) : Except CodecError Bool :=
  match decision.lookup "approved" with
  | some (.bool approved) => .ok approved
  | _ => .error (.codec "approval decision approved must be a boolean")

/-- `decision["approver"]`, a text or null. -/
def decodeApprover (decision : Payload) : Except CodecError (Option String) :=
  match decision.lookup "approver" with
  | some .null => .ok none
  | some (.str approver) => .ok (some approver)
  | _ => .error (.codec "approval decision approver must be a string or null")

/-- The decision of `decode_resolution`. -/
def decodeDecision (decision : Payload) : Except CodecError ApprovalEffectDecision := do
  fields decision decisionFields
  let approved ← decodeApproved decision
  let approver ← decodeApprover decision
  let input_kind ← string decision "input_kind" "approval decision"
  match ApprovalInput.ofText input_kind with
  | none => .error (.codec "approval decision input_kind is invalid")
  | some input_kind => (ApprovalEffectDecision.new approved approver input_kind).mapError .decision

/-- `decode_resolution`; the fields are there. -/
def decodeResolution (payload : Payload) :
    Except CodecError (ApprovalEffectRequest × ApprovalEffectDecision) := do
  fields payload resolutionFields
  let nested ← mapping ((payload.lookup "request").getD .null) "approval request"
  let request ← decodeRequest nested
  let decision ← mapping ((payload.lookup "decision").getD .null) "approval decision"
  let approval ← decodeDecision decision
  return (request, approval)

/-! ## Dispatch -/

/-- `_codec_for_kind`, with the one codec there is. -/
def codecForKind (payload : Payload) : Except CodecError Unit := do
  let kind ← string payload "kind" "Tool effect"
  if kind = "approval" then .ok () else .error (.unsupportedKind kind)

def encodeEffectRequest : ToolEffectRequest → Except CodecError Json
  | .approval request => .ok (.obj (encodeRequest request))
  | .foreign _ _ _ => .error .unsupportedType

def decodeEffectRequest (value : Json) : Except CodecError ToolEffectRequest := do
  let payload ← mapping value "Tool effect request"
  codecForKind payload
  let request ← decodeRequest payload
  return .approval request

def encodeEffectResolution : ToolEffectResolution → Except CodecError Json
  | .approval request decision => .ok (.obj (encodeResolution request decision))
  | .foreign _ _ => .error .unsupportedType

def decodeEffectResolution (value : Json) : Except CodecError ToolEffectResolution := do
  let payload ← mapping value "Tool effect resolution"
  codecForKind payload
  let (request, decision) ← decodeResolution payload
  return .approval request decision

/-! ## What the helpers accept -/

theorem mapping_iff {value : Json} {context : String} {payload : Payload} :
    mapping value context = .ok payload ↔ value = .obj payload := by
  cases value <;> simp [mapping]

theorem fields_iff {payload : Payload} {required : List String} {u : Unit} :
    fields payload required = .ok u ↔
      ∀ name, name ∈ payload.map Prod.fst ↔ name ∈ required := by
  rw [fields]
  split
  · rename_i h
    exact iff_of_true rfl fun name => ⟨h.1 name, h.2 name⟩
  · rename_i h
    refine iff_of_false nofun fun hsame => h ⟨fun name => (hsame name).mp, fun name => ?_⟩
    exact (hsame name).mpr

theorem string_iff {payload : Payload} {field context s : String} :
    string payload field context = .ok s ↔
      payload.lookup field = some (.str s) ∧ blank s = false := by
  rw [string]
  split
  · rename_i value hlookup
    rw [hlookup, Option.some.injEq, Json.str.injEq]
    cases hblank : blank value with
    | true =>
      refine iff_of_false nofun ?_
      rintro ⟨rfl, hvisible⟩
      cases hblank.symm.trans hvisible
    | false =>
      constructor
      · intro h
        cases h
        exact ⟨rfl, hblank⟩
      · rintro ⟨rfl, -⟩
        rfl
  · rename_i hother
    exact iff_of_false nofun fun h => hother s h.1

theorem ofText_risk {text : String} {risk : ApprovalRisk} :
    ApprovalRisk.ofText text = some risk ↔ text = risk.text := by
  constructor
  · intro h
    rw [ApprovalRisk.ofText] at h
    have hfound := List.find?_some h
    exact (beq_iff_eq.mp hfound).symm
  · rintro rfl
    cases risk <;> decide

theorem ofText_input {text : String} {input : ApprovalInput} :
    ApprovalInput.ofText text = some input ↔ text = input.text := by
  constructor
  · intro h
    rw [ApprovalInput.ofText] at h
    have hfound := List.find?_some h
    exact (beq_iff_eq.mp hfound).symm
  · rintro rfl
    cases input <;> decide

theorem mapError_ok_iff {ε ε' α : Type} {x : Except ε α} {f : ε → ε'} {a : α} :
    x.mapError f = .ok a ↔ x = .ok a := by
  cases x <;> simp [Except.mapError]

theorem request_new_iff {component operation action resource summary : String}
    {risk : ApprovalRisk} (hcomponent : blank component = false)
    (hoperation : blank operation = false) (haction : blank action = false)
    (hresource : blank resource = false) (hsummary : blank summary = false)
    {request : ApprovalEffectRequest} :
    ApprovalEffectRequest.new component operation action resource risk summary = .ok request ↔
      request = ⟨component, operation, action, resource, risk, summary, hcomponent, hoperation,
        haction, hresource, hsummary⟩ := by
  simp only [ApprovalEffectRequest.new, hcomponent, hoperation, haction, hresource, hsummary,
    Bool.false_eq_true, dite_false, Except.ok.injEq, eq_comm]

/-- The constructor of a decision keeps what it takes, and takes what a decision holds. -/
theorem decision_new_iff {approved : Bool} {approver : Option String} {input_kind : ApprovalInput}
    {decision : ApprovalEffectDecision} :
    ApprovalEffectDecision.new approved approver input_kind = .ok decision ↔
      decision.approved = approved ∧ decision.approver = approver ∧
        decision.input_kind = input_kind := by
  constructor
  · intro h
    unfold ApprovalEffectDecision.new at h
    split at h
    · split at h
      · split at h
        · split at h
          · cases h
          · cases h
            exact ⟨rfl, rfl, rfl⟩
        · cases h
      · cases h
    · split at h
      · cases h
      · cases h
        exact ⟨rfl, rfl, rfl⟩
  · rintro ⟨rfl, rfl, rfl⟩
    obtain ⟨approved, approver, input_kind, haffirmative, hnamed⟩ := decision
    unfold ApprovalEffectDecision.new
    cases approved with
    | true =>
      obtain rfl : input_kind = .affirmative := haffirmative.mp rfl
      obtain ⟨name, rfl, hname⟩ := hnamed rfl
      simp [hname]
    | false =>
      have hinput : input_kind ≠ .affirmative := fun h => nomatch haffirmative.mpr h
      simp [hinput]

/-! ## What the objects are -/

/-- An object that is read as this request; its kind may be anything. -/
structure IsRequest (payload : Payload) (request : ApprovalEffectRequest) : Prop where
  names : ∀ name, name ∈ payload.map Prod.fst ↔ name ∈ requestFields
  component : payload.lookup "component" = some (.str request.component)
  operation : payload.lookup "operation" = some (.str request.operation)
  action : payload.lookup "action" = some (.str request.action)
  resource : payload.lookup "resource" = some (.str request.resource)
  risk : payload.lookup "risk" = some (.str request.risk.text)
  summary : payload.lookup "summary" = some (.str request.summary)

/-- **A request is accepted** from exactly these objects. -/
theorem decodeRequest_iff {payload : Payload} {request : ApprovalEffectRequest} :
    decodeRequest payload = .ok request ↔ IsRequest payload request := by
  constructor
  · intro h
    obtain ⟨u, hnames, h⟩ := bind_ok h
    obtain ⟨risk_text, hrisk, h⟩ := bind_ok h
    split at h
    · cases h
    · rename_i risk hofText
      obtain ⟨component, hcomponent, h⟩ := bind_ok h
      obtain ⟨operation, hoperation, h⟩ := bind_ok h
      obtain ⟨action, haction, h⟩ := bind_ok h
      obtain ⟨resource, hresource, h⟩ := bind_ok h
      obtain ⟨summary, hsummary, h⟩ := bind_ok h
      rw [string_iff] at hrisk hcomponent hoperation haction hresource hsummary
      rw [mapError_ok_iff, request_new_iff hcomponent.2 hoperation.2 haction.2 hresource.2
        hsummary.2] at h
      subst h
      obtain rfl := ofText_risk.mp hofText
      exact ⟨fields_iff.mp hnames, hcomponent.1, hoperation.1, haction.1, hresource.1, hrisk.1,
        hsummary.1⟩
  · intro h
    have hrisk : blank request.risk.text = false := by
      cases request.risk <;> decide
    rw [decodeRequest, bind_ok_iff]
    refine ⟨(), fields_iff.mpr h.names, ?_⟩
    rw [bind_ok_iff]
    refine ⟨_, string_iff.mpr ⟨h.risk, hrisk⟩, ?_⟩
    rw [ofText_risk.mpr rfl]
    simp only [bind_ok_iff, mapError_ok_iff]
    exact ⟨_, string_iff.mpr ⟨h.component, request.component_nonblank⟩,
      _, string_iff.mpr ⟨h.operation, request.operation_nonblank⟩,
      _, string_iff.mpr ⟨h.action, request.action_nonblank⟩,
      _, string_iff.mpr ⟨h.resource, request.resource_nonblank⟩,
      _, string_iff.mpr ⟨h.summary, request.summary_nonblank⟩,
      (request_new_iff request.component_nonblank request.operation_nonblank
        request.action_nonblank request.resource_nonblank request.summary_nonblank).mpr rfl⟩

/-- An object that is read as this decision. -/
structure IsDecision (payload : Payload) (decision : ApprovalEffectDecision) : Prop where
  names : ∀ name, name ∈ payload.map Prod.fst ↔ name ∈ decisionFields
  approved : payload.lookup "approved" = some (.bool decision.approved)
  approver : payload.lookup "approver" = some (approverJson decision.approver)
  input_kind : payload.lookup "input_kind" = some (.str decision.input_kind.text)

theorem decodeApproved_iff {payload : Payload} {approved : Bool} :
    decodeApproved payload = .ok approved ↔ payload.lookup "approved" = some (.bool approved) := by
  rw [decodeApproved]
  split
  · rename_i value hlookup
    rw [hlookup, Except.ok.injEq, Option.some.injEq, Json.bool.injEq]
  · rename_i hother
    exact iff_of_false nofun (hother approved)

theorem decodeApprover_iff {payload : Payload} {approver : Option String} :
    decodeApprover payload = .ok approver ↔
      payload.lookup "approver" = some (approverJson approver) := by
  rw [decodeApprover]
  split
  · rename_i hlookup
    rw [hlookup]
    cases approver <;> simp [approverJson]
  · rename_i value hlookup
    rw [hlookup]
    cases approver <;> simp [approverJson]
  · rename_i hnull hstr
    refine iff_of_false nofun fun h => ?_
    cases approver with
    | none => exact hnull h
    | some value => exact hstr value h

theorem decodeDecision_iff {payload : Payload} {decision : ApprovalEffectDecision} :
    decodeDecision payload = .ok decision ↔ IsDecision payload decision := by
  constructor
  · intro h
    obtain ⟨u, hnames, h⟩ := bind_ok h
    obtain ⟨approved, happroved, h⟩ := bind_ok h
    obtain ⟨approver, happrover, h⟩ := bind_ok h
    obtain ⟨input_text, hinput, h⟩ := bind_ok h
    split at h
    · cases h
    · rename_i input_kind hofText
      obtain ⟨rfl, rfl, rfl⟩ := decision_new_iff.mp (mapError_ok_iff.mp h)
      obtain rfl := ofText_input.mp hofText
      exact ⟨fields_iff.mp hnames, decodeApproved_iff.mp happroved,
        decodeApprover_iff.mp happrover, (string_iff.mp hinput).1⟩
  · intro h
    have hinput : blank decision.input_kind.text = false := by
      cases decision.input_kind <;> decide
    rw [decodeDecision]
    simp only [bind_ok_iff]
    refine ⟨(), fields_iff.mpr h.names, _, decodeApproved_iff.mpr h.approved,
      _, decodeApprover_iff.mpr h.approver, _, string_iff.mpr ⟨h.input_kind, hinput⟩, ?_⟩
    rw [ofText_input.mpr rfl]
    exact mapError_ok_iff.mpr (decision_new_iff.mpr ⟨rfl, rfl, rfl⟩)

/-- An object that is read as this resolution, with the objects in it. -/
structure IsResolution (payload nested decided : Payload) (request : ApprovalEffectRequest)
    (decision : ApprovalEffectDecision) : Prop where
  names : ∀ name, name ∈ payload.map Prod.fst ↔ name ∈ resolutionFields
  has_request : payload.lookup "request" = some (.obj nested)
  request : IsRequest nested request
  has_decision : payload.lookup "decision" = some (.obj decided)
  decision : IsDecision decided decision

theorem getD_null_eq_obj {value : Option Json} {payload : Payload} :
    value.getD .null = .obj payload ↔ value = some (.obj payload) := by
  cases value <;> simp

/-- **A resolution is accepted** from exactly these objects. -/
theorem decodeResolution_iff {payload : Payload} {request : ApprovalEffectRequest}
    {decision : ApprovalEffectDecision} :
    decodeResolution payload = .ok (request, decision) ↔
      ∃ nested decided, IsResolution payload nested decided request decision := by
  rw [decodeResolution]
  simp only [bind_ok_iff, fields_iff, mapping_iff, getD_null_eq_obj, decodeRequest_iff,
    decodeDecision_iff]
  constructor
  · rintro ⟨-, hnames, nested, hnested, request', hrequest, decided, hdecided, decision',
      hdecision, h⟩
    cases h
    exact ⟨nested, decided, hnames, hnested, hrequest, hdecided, hdecision⟩
  · rintro ⟨nested, decided, h⟩
    exact ⟨(), h.names, nested, h.has_request, request, h.request, decided, h.has_decision,
      decision, h.decision, rfl⟩

theorem codecForKind_iff {payload : Payload} {u : Unit} :
    codecForKind payload = .ok u ↔ payload.lookup "kind" = some (.str "approval") := by
  rw [codecForKind]
  simp only [bind_ok_iff, string_iff]
  constructor
  · rintro ⟨kind, ⟨hkind, -⟩, h⟩
    split at h
    · rename_i happroval
      rw [hkind, happroval]
    · cases h
  · intro h
    exact ⟨"approval", ⟨h, by decide⟩, rfl⟩

/-! ## Exactness -/

/-- The fields of an object are written once each. -/
def WrittenOnce (payload : Payload) : Prop := (payload.map Prod.fst).Nodup

/-- What is encoded is an object like the one that was read, in the fields of which some hold in
    any case: what is left to ask is whether the others do. -/
theorem exact_iff {encoded payload : Payload} {required : List String}
    (hrequired : required.Nodup) (hencoded : encoded.map Prod.fst = required)
    (hnames : ∀ name, name ∈ payload.map Prod.fst ↔ name ∈ required) (honce : WrittenOnce payload) :
    Json.sameInAnyOrder (.obj encoded) (.obj payload) = true ↔
      ∀ field ∈ encoded, ∃ value, payload.lookup field.1 = some value ∧
        Json.sameInAnyOrder field.2 value = true := by
  refine Json.sameInAnyOrder_obj (hencoded ▸ hrequired) honce fun name => ?_
  rw [hnames, hencoded]

theorem same_str {payload : Payload} {name s : String} (h : payload.lookup name = some (.str s)) :
    ∃ value, payload.lookup name = some value ∧ Json.sameInAnyOrder (.str s) value = true :=
  ⟨.str s, h, (Json.sameInAnyOrder_scalar rfl).mpr rfl⟩

/-- **A request is encoded to the same object** exactly when its kind is approval. -/
theorem request_exact_iff {payload : Payload} {request : ApprovalEffectRequest}
    (h : IsRequest payload request) (honce : WrittenOnce payload) :
    Json.sameInAnyOrder (.obj (encodeRequest request)) (.obj payload) = true ↔
      payload.lookup "kind" = some (.str "approval") := by
  rw [exact_iff (by decide) (by rfl) h.names honce]
  constructor
  · intro hsame
    obtain ⟨value, hkind, hvalue⟩ := hsame ("kind", .str "approval") List.mem_cons_self
    rw [hkind, (Json.sameInAnyOrder_scalar rfl).mp hvalue]
  · intro hkind
    simp only [encodeRequest, List.forall_mem_cons, List.not_mem_nil, false_implies, implies_true,
      and_true]
    exact ⟨same_str hkind, same_str h.component, same_str h.operation, same_str h.action,
      same_str h.resource, same_str h.risk, same_str h.summary⟩

theorem decision_exact {payload : Payload} {decision : ApprovalEffectDecision}
    (h : IsDecision payload decision) (honce : WrittenOnce payload) :
    Json.sameInAnyOrder (.obj (encodeDecision decision)) (.obj payload) = true := by
  rw [exact_iff (by decide) (by rfl) h.names honce]
  simp only [encodeDecision, List.forall_mem_cons, List.not_mem_nil, false_implies, implies_true,
    and_true]
  have happrover : (approverJson decision.approver).scalar = true := by
    cases decision.approver <;> rfl
  exact ⟨⟨_, h.approved, (Json.sameInAnyOrder_scalar rfl).mpr rfl⟩,
    ⟨_, h.approver, (Json.sameInAnyOrder_scalar happrover).mpr rfl⟩, same_str h.input_kind⟩

/-- **A resolution is encoded to the same object** exactly when its request is. -/
theorem resolution_exact_iff {payload nested decided : Payload} {request : ApprovalEffectRequest}
    {decision : ApprovalEffectDecision} (h : IsResolution payload nested decided request decision)
    (hkind : payload.lookup "kind" = some (.str "approval")) (honce : WrittenOnce payload)
    (hnested : WrittenOnce nested) (hdecided : WrittenOnce decided) :
    Json.sameInAnyOrder (.obj (encodeResolution request decision)) (.obj payload) = true ↔
      nested.lookup "kind" = some (.str "approval") := by
  rw [exact_iff (by decide) (by rfl) h.names honce, ← request_exact_iff h.request hnested]
  simp only [encodeResolution, List.forall_mem_cons, List.not_mem_nil, false_implies, implies_true,
    and_true]
  constructor
  · rintro ⟨-, ⟨value, hvalue, hsame⟩, -⟩
    rw [h.has_request] at hvalue
    cases hvalue
    exact hsame
  · intro hsame
    exact ⟨same_str hkind, ⟨_, h.has_request, hsame⟩,
      ⟨_, h.has_decision, decision_exact h.decision hdecided⟩⟩

/-! ## Round trips -/

theorem isRequest_encode (request : ApprovalEffectRequest) :
    IsRequest (encodeRequest request) request where
  names := fun _ => Iff.rfl
  component := rfl
  operation := rfl
  action := rfl
  resource := rfl
  risk := rfl
  summary := rfl

theorem isDecision_encode (decision : ApprovalEffectDecision) :
    IsDecision (encodeDecision decision) decision where
  names := fun _ => Iff.rfl
  approved := rfl
  approver := rfl
  input_kind := rfl

theorem isResolution_encode (request : ApprovalEffectRequest) (decision : ApprovalEffectDecision) :
    IsResolution (encodeResolution request decision) (encodeRequest request)
      (encodeDecision decision) request decision where
  names := fun _ => Iff.rfl
  has_request := rfl
  request := isRequest_encode request
  has_decision := rfl
  decision := isDecision_encode decision

theorem decodeEffectRequest_iff {value : Json} {request : ApprovalEffectRequest} :
    decodeEffectRequest value = .ok (.approval request) ↔
      ∃ payload, value = .obj payload ∧ payload.lookup "kind" = some (.str "approval") ∧
        IsRequest payload request := by
  rw [decodeEffectRequest]
  simp only [bind_ok_iff, mapping_iff, codecForKind_iff, decodeRequest_iff]
  constructor
  · rintro ⟨payload, hvalue, -, hkind, request', hrequest, h⟩
    cases h
    exact ⟨payload, hvalue, hkind, hrequest⟩
  · rintro ⟨payload, hvalue, hkind, hrequest⟩
    exact ⟨payload, hvalue, (), hkind, request, hrequest, rfl⟩

theorem decodeEffectResolution_iff {value : Json} {request : ApprovalEffectRequest}
    {decision : ApprovalEffectDecision} :
    decodeEffectResolution value = .ok (.approval request decision) ↔
      ∃ payload nested decided, value = .obj payload ∧
        payload.lookup "kind" = some (.str "approval") ∧
        IsResolution payload nested decided request decision := by
  rw [decodeEffectResolution]
  simp only [bind_ok_iff, mapping_iff, codecForKind_iff]
  constructor
  · rintro ⟨payload, hvalue, -, hkind, ⟨request', decision'⟩, hresolution, h⟩
    cases h
    obtain ⟨nested, decided, his⟩ := decodeResolution_iff.mp hresolution
    exact ⟨payload, nested, decided, hvalue, hkind, his⟩
  · rintro ⟨payload, nested, decided, hvalue, hkind, his⟩
    exact ⟨payload, hvalue, (), hkind, (request, decision),
      decodeResolution_iff.mpr ⟨nested, decided, his⟩, rfl⟩

/-- **A request comes back.** -/
theorem decodeEffectRequest_encode (request : ApprovalEffectRequest) :
    decodeEffectRequest (.obj (encodeRequest request)) = .ok (.approval request) :=
  decodeEffectRequest_iff.mpr ⟨_, rfl, rfl, isRequest_encode request⟩

/-- **A resolution comes back.** -/
theorem decodeEffectResolution_encode (request : ApprovalEffectRequest)
    (decision : ApprovalEffectDecision) :
    decodeEffectResolution (.obj (encodeResolution request decision)) =
      .ok (.approval request decision) :=
  decodeEffectResolution_iff.mpr ⟨_, _, _, rfl, rfl, isResolution_encode request decision⟩

/-! ## The codec -/

/-- The constructors' values come back. -/
structure RoundTrips : Prop where
  requests : ∀ request : ApprovalEffectRequest, ∃ wire,
    encodeEffectRequest (.approval request) = .ok wire ∧
      decodeEffectRequest wire = .ok (.approval request)
  resolutions : ∀ (request : ApprovalEffectRequest) (decision : ApprovalEffectDecision), ∃ wire,
    encodeEffectResolution (.approval request decision) = .ok wire ∧
      decodeEffectResolution wire = .ok (.approval request decision)

/-- A value that is accepted as a request is what the request is encoded to. -/
def ExactRequest (value : Json) : Prop :=
  ∀ request, decodeEffectRequest value = .ok request → ∃ wire,
    encodeEffectRequest request = .ok wire ∧ Json.sameInAnyOrder wire value = true

/-- The value is what the resolution is encoded to. -/
def ExactResolution (value : Json) (resolution : ToolEffectResolution) : Prop :=
  ∃ wire, encodeEffectResolution resolution = .ok wire ∧ Json.sameInAnyOrder wire value = true

/-- The request in the value names its kind. -/
def NamesNestedKind (value : Json) : Prop :=
  ∃ payload nested, value = .obj payload ∧ payload.lookup "request" = some (.obj nested) ∧
    nested.lookup "kind" = some (.str "approval")

theorem exactRequest (value : Json) (honce : value.KeysOnce) : ExactRequest value := by
  intro request h
  cases request with
  | foreign kind component operation =>
    obtain ⟨payload, -, h⟩ := bind_ok h
    obtain ⟨u, -, h⟩ := bind_ok h
    obtain ⟨request, -, h⟩ := bind_ok h
    cases h
  | approval request =>
    obtain ⟨payload, rfl, hkind, his⟩ := decodeEffectRequest_iff.mp h
    exact ⟨_, rfl, (request_exact_iff his honce.1).mpr hkind⟩

end Codec

open Codec

/-- **The codec is exact** but for the kind of a nested request: what the constructors accept comes
    back, an accepted request is encoded to the same value, and an accepted resolution is exactly
    when the request in it names its kind. -/
theorem effect_codec_iff (value : Json) (honce : value.KeysOnce) :
    RoundTrips ∧ ExactRequest value ∧
      ∀ resolution, decodeEffectResolution value = .ok resolution →
        (ExactResolution value resolution ↔ NamesNestedKind value) := by
  refine ⟨⟨?_, ?_⟩, exactRequest value honce, ?_⟩
  · exact fun request => ⟨_, rfl, decodeEffectRequest_encode request⟩
  · exact fun request decision => ⟨_, rfl, decodeEffectResolution_encode request decision⟩
  · intro resolution h
    cases resolution with
    | foreign kind request =>
      obtain ⟨payload, -, h⟩ := bind_ok h
      obtain ⟨u, -, h⟩ := bind_ok h
      obtain ⟨⟨request', decision⟩, -, h⟩ := bind_ok h
      cases h
    | approval request decision =>
      obtain ⟨payload, nested, decided, rfl, hkind, his⟩ := decodeEffectResolution_iff.mp h
      have hnested := Json.KeysOnceFields.of_lookup honce.2 his.has_request
      have hdecided := Json.KeysOnceFields.of_lookup honce.2 his.has_decision
      have hexact := resolution_exact_iff his hkind honce.1 hnested.1 hdecided.1
      constructor
      · rintro ⟨wire, hwire, hsame⟩
        cases hwire
        exact ⟨payload, nested, rfl, his.has_request, hexact.mp hsame⟩
      · rintro ⟨payload', nested', hvalue, hrequest, hnames⟩
        cases hvalue
        cases his.has_request.symm.trans hrequest
        exact ⟨_, rfl, hexact.mpr hnames⟩

/-- A request to delete a file. -/
def deleteRequest : ApprovalEffectRequest where
  component := "files"
  operation := "delete"
  action := "delete"
  resource := "notes.txt"
  risk := .destructive
  summary := "delete notes.txt"
  component_nonblank := by decide
  operation_nonblank := by decide
  action_nonblank := by decide
  resource_nonblank := by decide
  summary_nonblank := by decide

def approvedByOwner : ApprovalEffectDecision where
  approved := true
  approver := some "owner"
  input_kind := .affirmative
  affirmative_iff := by decide
  approver_named := fun _ => ⟨"owner", rfl, by decide⟩

/-- A resolution whose request says that it is of another kind. -/
def otherNestedKind : Json :=
  .obj [("kind", .str "approval"),
    ("request", .obj (("kind", .str "other") :: (encodeRequest deleteRequest).tail)),
    ("decision", .obj (encodeDecision approvedByOwner))]

/-- The encoded resolution is exact. -/
theorem encoded_resolution_exact :
    ExactResolution (.obj (encodeResolution deleteRequest approvedByOwner))
      (.approval deleteRequest approvedByOwner) := by
  have honce : (Json.obj (encodeResolution deleteRequest approvedByOwner)).KeysOnce := by
    simp [Json.KeysOnce, Json.KeysOnceFields, encodeResolution, encodeRequest, encodeDecision,
      approverJson, approvedByOwner]
  refine ((effect_codec_iff _ honce).2.2 _ (decodeEffectResolution_encode _ _)).mpr ?_
  exact ⟨_, _, rfl, rfl, rfl⟩

/-- **Accepted under another kind**: the decision is taken, and the value is not what it is encoded
    to. -/
theorem other_nested_kind_accepted :
    decodeEffectResolution otherNestedKind = .ok (.approval deleteRequest approvedByOwner) ∧
      ¬ ExactResolution otherNestedKind (.approval deleteRequest approvedByOwner) := by
  constructor
  · refine decodeEffectResolution_iff.mpr ⟨_, ("kind", .str "other") :: (encodeRequest
      deleteRequest).tail, encodeDecision approvedByOwner, rfl, rfl, ?_⟩
    refine ⟨fun _ => Iff.rfl, rfl, ⟨fun _ => Iff.rfl, rfl, rfl, rfl, rfl, rfl, rfl⟩, rfl, ?_⟩
    exact isDecision_encode approvedByOwner
  · rintro ⟨wire, hwire, hsame⟩
    cases hwire
    revert hsame
    decide +kernel

end NuSelf.Feature
