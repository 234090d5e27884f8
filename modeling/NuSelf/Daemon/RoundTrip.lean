/-
  The whole format: what is written on a line, and what a line may hold.

  A request goes the way of a response (`fromJsonLine_requestLine`): its line is read by who has
  room for it, and as the request, its pairs of surrogates joined.  So the value comes back if it
  has no pair to join, and if there is room.

  1. `decodeJsonObject_unique` — the crux of strictness: a decoder that keeps every field sees the
     same object behind an accepted line, so no field was dropped and no key came twice.
  2. `perm_of_get` — an object whose fields are known by name is known up to their order.
  3. `DaemonRequest.fromJsonLine_strict`, `DaemonResponse.fromJsonLine_strict` — an accepted line
     holds the wire form of what was read.
  4. `codec_round_trip_iff` — both directions, for both envelopes.
-/
import NuSelf.Daemon.SocketServer
import NuSelf.Lib.Table

namespace NuSelf.Daemon

open NuSelf.Lib NuSelf.Lib.JsonValue

variable {φ : Type} {floats : FloatFormat φ} {diagnostics : Diagnostics}

/-! ## Requests on a line -/

theorem RequestType.eq_of_name {type type' : RequestType} (h : pyText type.name = pyText type'.name) :
    type = type' := by
  have hfind : ∀ type : RequestType,
      requestTypes.find? (fun other => decide (pyText other.name = pyText type.name)) =
        some type := by
    intro type
    cases type <;> decide
  have hfound := hfind type
  rw [h, hfind type'] at hfound
  exact (Option.some.inj hfound).symm

/-- **A request is the envelope** that it is sent as, if its own fields are right. -/
theorem validateRequestWire_toWire {interpreter : Interpreter} (request r : DaemonRequest φ) :
    validateRequestWire floats interpreter request.toWire = .ok r ↔
      r = request ∧ request.version = protocolVersion ∧ blankText request.request_id = false ∧
        validateJsonValue floats interpreter.validate (pyText "payload") (.obj request.payload) =
          .ok () := by
  rw [validateRequestWire_iff]
  constructor
  · rintro ⟨-, ⟨hversion, hv⟩, ⟨hid, hblank⟩, htype, hpayload, hvalid⟩
    obtain ⟨type, payload, request_id, version⟩ := r
    cases hversion
    cases hid
    cases hpayload
    obtain rfl := RequestType.eq_of_name (JsonValue.str.inj (Option.some.inj htype))
    exact ⟨rfl, hv, hblank, hvalid⟩
  · rintro ⟨rfl, hv, hblank, hvalid⟩
    exact ⟨fun _ hkey => hkey, ⟨rfl, hv⟩, ⟨rfl, hblank⟩, rfl, rfl, hvalid⟩

/-- A request whose texts have their pairs joined. -/
def DaemonRequest.joined (request : DaemonRequest φ) : DaemonRequest φ where
  type := request.type
  payload := joinFields request.payload
  request_id := join request.request_id
  version := request.version

theorem DaemonRequest.joinFields_toWire (request : DaemonRequest φ) :
    joinFields request.toWire = request.joined.toWire := by
  simp only [DaemonRequest.toWire, DaemonRequest.joined, joinFields, joinAll, join_pyText]

theorem DaemonRequest.nesting_toWire (request : DaemonRequest φ) :
    nesting (.obj request.toWire) = nesting (.obj request.payload) + 1 := by
  simp only [DaemonRequest.toWire, nesting, nestingFields]
  omega

theorem DaemonRequest.distinctKeys_toWire (request : DaemonRequest φ) :
    distinctKeys (.obj request.toWire) = distinctKeys (.obj request.payload) := by
  have hkeys : ((joinFields request.toWire).map Prod.fst).Nodup := by
    rw [request.joinFields_toWire]
    exact (by decide : (["version", "request_id", "type", "payload"].map pyText).Nodup)
  rw [distinctKeys, decide_eq_true hkeys]
  simp only [DaemonRequest.toWire, distinctFields, distinctKeys, Bool.and_true, Bool.true_and]

/-- What a line of a request is made of. -/
structure RequestLine (floats : FloatFormat φ) (request : DaemonRequest φ) (frame : Bytes) : Prop
    where
  version : request.version = protocolVersion
  request_id : blankText request.request_id = false
  wire : WireLine floats request.toWire frame

theorem DaemonRequest.toJsonLine_ok {sender : Interpreter} {request : DaemonRequest φ}
    {frame : Bytes} (h : request.toJsonLine floats sender = .ok frame) :
    RequestLine floats request frame := by
  obtain ⟨r, hwire, hline⟩ := bind_ok h
  obtain ⟨-, hversion, hid, -⟩ := (validateRequestWire_toWire request r).mp hwire
  exact ⟨hversion, hid, encodeJsonLine_ok hline⟩

/-- Who has room for a payload, and keys that stay distinct. -/
structure PayloadFits (receiver : Interpreter) (payload : RawObject φ) : Prop where
  scans : nesting (.obj payload) < receiver.scan
  validates : nesting (.obj payload) + 1 < receiver.validate
  distinct : distinctKeys (.obj payload) = true

theorem readable_iff {receiver : Interpreter} {response : DaemonResponse φ} :
    Readable receiver response ↔ PayloadFits receiver response.payload :=
  ⟨fun h => ⟨h.scans, h.validates, h.distinct⟩, fun h => ⟨h.scans, h.validates, h.distinct⟩⟩

/-- **The line of a request** is read by who has room for it, and as the request, its pairs
    joined. -/
theorem fromJsonLine_requestLine {receiver : Interpreter} {request : DaemonRequest φ}
    {frame : Bytes} (h : RequestLine floats request frame) (r : DaemonRequest φ) :
    DaemonRequest.fromJsonLine floats diagnostics receiver frame = .ok r ↔
      PayloadFits receiver request.payload ∧ r = request.joined := by
  have hclean : JsonValue.clean floats (.obj request.joined.payload) = true := by
    have hwire := h.wire.clean
    simp only [DaemonRequest.toWire, JsonValue.clean, cleanFields, Bool.and_eq_true] at hwire
    exact (clean_joinAll (.obj request.payload)).trans hwire.2.2.2.1
  have hvalid := validateJsonValue_iff _ receiver.validate (pyText "payload") hclean
  have hnesting : nesting (.obj request.joined.payload) = nesting (.obj request.payload) :=
    nesting_joinAll (.obj request.payload)
  have hdecode : ∀ raw, decodeJsonObject floats diagnostics receiver frame = .ok raw ↔ _ :=
    decodeJsonObject_wire h.wire
  show (decodeJsonObject floats diagnostics receiver frame >>= _) = _ ↔ _
  simp only [bind_ok_iff, hdecode, request.joinFields_toWire, request.nesting_toWire,
    request.distinctKeys_toWire]
  constructor
  · rintro ⟨_, ⟨⟨hscans, hvalidates, hdistinct⟩, rfl⟩, hread⟩
    exact ⟨⟨hscans, hvalidates, hdistinct⟩, ((validateRequestWire_toWire _ r).mp hread).1⟩
  · rintro ⟨hfits, rfl⟩
    refine ⟨_, ⟨⟨hfits.scans, hfits.validates, hfits.distinct⟩, rfl⟩, ?_⟩
    refine (validateRequestWire_toWire _ _).mpr
      ⟨rfl, h.version, (blankText_join _).trans h.request_id, hvalid.mpr ?_⟩
    have hroom := hfits.validates
    omega

/-! ## Strictness -/

/-- Hooks that keep every field of an object, also one whose key was there before. -/
def keepHooks : ScanHooks HookError φ where
  constant name := .error (.constant name)
  pairs fields := .ok (.obj fields)

theorem distinctItems_of_forall : ∀ {items : List (JsonValue φ)},
    (∀ v ∈ items, distinctKeys v = true) → distinctItems items = true
  | [], _ => rfl
  | v :: rest, h => by
    rw [distinctItems, h v List.mem_cons_self,
      distinctItems_of_forall fun w hw => h w (List.mem_cons_of_mem _ hw), Bool.and_true]

theorem distinctFields_of_forall : ∀ {fields : List (PyText × JsonValue φ)},
    (∀ field ∈ fields, distinctKeys field.2 = true) → distinctFields fields = true
  | [], _ => rfl
  | (k, v) :: rest, h => by
    rw [distinctFields, h (k, v) List.mem_cons_self,
      distinctFields_of_forall fun w hw => h w (List.mem_cons_of_mem _ hw), Bool.and_true]

/-- What the strict decoder reads, is what the decoder reads that keeps every field. -/
theorem unique_invariant : ScanInvariant floats frameHooks keepHooks
    fun v => joinAll v = v ∧ distinctKeys v = true where
  null := ⟨rfl, rfl⟩
  bool _ := ⟨rfl, rfl⟩
  float _ := ⟨rfl, rfl⟩
  int _ _ _ := ⟨rfl, rfl⟩
  str _ hs := ⟨congrArg JsonValue.str hs, rfl⟩
  arr _ hitems := ⟨congrArg JsonValue.arr (joinItems_eq_self fun v hv => (hitems v hv).1),
    distinctItems_of_forall fun v hv => (hitems v hv).2⟩
  constant _ _ hv := nomatch hv
  pairs fields v hfields hv := by
    obtain ⟨hnodup, rfl⟩ := (frameHooks_unique fields v).mp hv
    have hjoined := joinFields_eq_self fun field hfield =>
      ⟨(hfields field hfield).1, (hfields field hfield).2.1⟩
    refine ⟨rfl, congrArg JsonValue.obj hjoined, ?_⟩
    rw [distinctKeys, hjoined, decide_eq_true hnodup,
      distinctFields_of_forall fun field hfield => (hfields field hfield).2.2, Bool.and_true]

/-- What an accepted line holds: one object with these fields, in some order, and with no key
    twice, in the object or below. -/
structure LineHolds (floats : FloatFormat φ) (receiver : Interpreter) (line : Bytes)
    (wire : RawObject φ) : Prop where
  frame : validateJsonLineFrame line = .ok ()
  fields : ∃ text fields, decodeUtf8 line = some text ∧
    loads floats keepHooks receiver.scan text = .ok (.obj fields) ∧
    distinctKeys (.obj fields) = true ∧ fields.Perm wire

/-- **No field of an accepted line is dropped**, and no key comes twice. -/
theorem decodeJsonObject_unique {receiver : Interpreter} {line : Bytes} {raw : RawObject φ}
    (h : decodeJsonObject floats diagnostics receiver line = .ok raw) :
    (raw.map Prod.fst).Nodup ∧ ∀ wire, raw.Perm wire → LineHolds floats receiver line wire := by
  have hframe : validateJsonLineFrame line = .ok () := by
    obtain ⟨_, hok, -⟩ := bind_ok h
    cases hvalid : validateJsonLineFrame line with
    | error e => rw [hvalid] at hok; cases hok
    | ok u => rfl
  obtain ⟨text, htext, hloads, -⟩ := decodeJsonObject_ok h
  obtain ⟨hkeep, hjoined, hdistinct⟩ := unique_invariant.loads hloads
  refine ⟨?_, fun wire hperm => ⟨hframe, text, raw, htext, hkeep, hdistinct, hperm⟩⟩
  rw [distinctKeys, Bool.and_eq_true, JsonValue.obj.inj hjoined] at hdistinct
  exact of_decide_eq_true hdistinct.1

/-- **Fields that are known by name** are known up to their order. -/
theorem perm_of_get {raw wire : RawObject φ} {known : List String}
    (hraw : (raw.map Prod.fst).Nodup) (hwire : (wire.map Prod.fst).Nodup)
    (hknown : ∀ key ∈ raw.map Prod.fst, key ∈ known.map pyText)
    (hwire_known : ∀ key ∈ wire.map Prod.fst, key ∈ known.map pyText)
    (hget : ∀ name ∈ known, raw.get name = wire.get name) : raw.Perm wire := by
  refine perm_of_lookup hraw hwire fun key => ?_
  by_cases hkey : key ∈ known.map pyText
  · obtain ⟨name, hname, rfl⟩ := List.mem_map.mp hkey
    exact hget name hname
  · have hnone : ∀ fields : RawObject φ, (∀ key ∈ fields.map Prod.fst, key ∈ known.map pyText) →
        fields.lookup key = none := by
      intro fields hfields
      refine List.lookup_eq_none_iff.mpr fun field hfield => bne_iff_ne.mpr ?_
      rintro rfl
      exact hkey (hfields _ (List.mem_map_of_mem hfield))
    rw [hnone raw hknown, hnone wire hwire_known]

/-- **A request is read** from a line with exactly its fields. -/
theorem DaemonRequest.fromJsonLine_strict {receiver : Interpreter} {line : Bytes}
    {request : DaemonRequest φ}
    (h : DaemonRequest.fromJsonLine floats diagnostics receiver line = .ok request) :
    LineHolds floats receiver line request.toWire ∧ request.version = protocolVersion ∧
      blankText request.request_id = false := by
  obtain ⟨raw, hdecode, hread⟩ := bind_ok h
  obtain ⟨hnodup, hholds⟩ := decodeJsonObject_unique hdecode
  obtain ⟨hknown, ⟨hversion, hv⟩, ⟨hid, hblank⟩, htype, hpayload, -⟩ :=
    validateRequestWire_iff.mp hread
  refine ⟨hholds _ (perm_of_get hnodup ?_ hknown (fun _ hkey => hkey) ?_), hv, hblank⟩
  · exact (by decide : (["version", "request_id", "type", "payload"].map pyText).Nodup)
  · simp only [List.forall_mem_cons]
    exact ⟨hversion, hid, htype, hpayload, nofun⟩

/-- **A response is read** from a line with exactly its fields. -/
theorem DaemonResponse.fromJsonLine_strict {receiver : Interpreter} {line : Bytes}
    {response : DaemonResponse φ}
    (h : DaemonResponse.fromJsonLine floats diagnostics receiver line = .ok response) :
    LineHolds floats receiver line response.toWire ∧ response.version = protocolVersion ∧
      blankText response.request_id = false ∧ ErrorFits response.status response.error := by
  obtain ⟨raw, hdecode, hread⟩ := bind_ok h
  obtain ⟨hnodup, hholds⟩ := decodeJsonObject_unique hdecode
  obtain ⟨hknown, ⟨hversion, hv⟩, ⟨hid, hblank⟩, hstatus, hpayload, -, herror, hfits⟩ :=
    validateResponseWire_iff.mp hread
  refine ⟨hholds _ (perm_of_get hnodup response.toWire_nodup hknown response.toWire_known ?_),
    hv, hblank, hfits⟩
  simp only [List.forall_mem_cons, response.toWire_error]
  exact ⟨hversion, hid, hstatus, hpayload, herror, nofun⟩

/-! ## Both directions -/

/-- One frame, within the limit. -/
def OneFrame (frame : Bytes) : Prop :=
  ∃ body, frame = body ++ [10] ∧ 10 ∉ body ∧ frame.length ≤ maxDaemonFrameBytes

theorem WireLine.oneFrame {wire : RawObject φ} {frame : Bytes} (h : WireLine floats wire frame) :
    OneFrame frame := by
  have hnewline := (encodeUtf8_printable (render_printable _ h.clean)).2
  refine ⟨encodeUtf8 (render floats (.obj wire)), ?_, hnewline, h.fits⟩
  rw [h.frame_eq, encodeUtf8_newline]

/-- Nothing in a request has a pair of surrogates, and the receiver has room for it. -/
structure DaemonRequest.Kept (receiver : Interpreter) (request : DaemonRequest φ) : Prop where
  request_id : Joined request.request_id
  payload : joinFields request.payload = request.payload
  fits : PayloadFits receiver request.payload

/-- Nothing in a response has a pair of surrogates, and the receiver has room for it. -/
structure DaemonResponse.Kept (receiver : Interpreter) (response : DaemonResponse φ) : Prop where
  request_id : Joined response.request_id
  error : ∀ error ∈ response.error, Joined error
  payload : joinFields response.payload = response.payload
  fits : PayloadFits receiver response.payload

theorem DaemonRequest.kept_iff {receiver : Interpreter} {request : DaemonRequest φ} :
    request.Kept receiver ↔ PayloadFits receiver request.payload ∧ request = request.joined := by
  constructor
  · intro h
    refine ⟨h.fits, ?_⟩
    rw [DaemonRequest.joined, h.payload, h.request_id]
  · rintro ⟨hfits, heq⟩
    exact ⟨(congrArg DaemonRequest.request_id heq).symm, (congrArg DaemonRequest.payload heq).symm,
      hfits⟩

theorem DaemonResponse.kept_iff {receiver : Interpreter} {response : DaemonResponse φ} :
    response.Kept receiver ↔
      PayloadFits receiver response.payload ∧ response = response.joined := by
  have herror : (∀ error ∈ response.error, Joined error) ↔
      response.error = response.error.map join := by
    cases response.error with
    | none => exact iff_of_true nofun rfl
    | some error =>
      rw [Option.map_some, Option.some.injEq]
      exact ⟨fun h => (h error rfl).symm, fun h _ hmem => Option.some.inj hmem ▸ h.symm⟩
  constructor
  · intro h
    refine ⟨h.fits, ?_⟩
    rw [DaemonResponse.joined, h.payload, h.request_id, ← herror.mp h.error]
  · rintro ⟨hfits, heq⟩
    exact ⟨(congrArg DaemonResponse.request_id heq).symm,
      herror.mpr (congrArg DaemonResponse.error heq),
      (congrArg DaemonResponse.payload heq).symm, hfits⟩

/-- **The whole format**: a line that is written is one frame, and brings back what it was written
    from if that is kept; and what is read from any line, is what the line holds. -/
theorem codec_round_trip_iff (floats : FloatFormat φ) (diagnostics : Diagnostics)
    (sender receiver : Interpreter) :
    (∀ (request : DaemonRequest φ) (frame : Bytes),
      request.toJsonLine floats sender = .ok frame →
        OneFrame frame ∧
          (DaemonRequest.fromJsonLine floats diagnostics receiver frame = .ok request ↔
            request.Kept receiver)) ∧
    (∀ (response : DaemonResponse φ) (frame : Bytes),
      response.toJsonLine floats sender = .ok frame →
        OneFrame frame ∧
          (DaemonResponse.fromJsonLine floats diagnostics receiver frame = .ok response ↔
            response.Kept receiver)) ∧
    (∀ (line : Bytes) (request : DaemonRequest φ),
      DaemonRequest.fromJsonLine floats diagnostics receiver line = .ok request →
        LineHolds floats receiver line request.toWire ∧ request.version = protocolVersion ∧
          blankText request.request_id = false) ∧
    (∀ (line : Bytes) (response : DaemonResponse φ),
      DaemonResponse.fromJsonLine floats diagnostics receiver line = .ok response →
        LineHolds floats receiver line response.toWire ∧ response.version = protocolVersion ∧
          blankText response.request_id = false ∧
          ErrorFits response.status response.error) := by
  refine ⟨?_, ?_, fun _ _ h => DaemonRequest.fromJsonLine_strict h,
    fun _ _ h => DaemonResponse.fromJsonLine_strict h⟩
  · intro request frame h
    have hline := DaemonRequest.toJsonLine_ok h
    rw [fromJsonLine_requestLine hline, request.kept_iff]
    exact ⟨hline.wire.oneFrame, Iff.rfl⟩
  · intro response frame h
    have hline := toJsonLine_ok h
    rw [fromJsonLine_line hline, readable_iff, response.kept_iff]
    exact ⟨hline.wire.oneFrame, Iff.rfl⟩

def pingRequest : DaemonRequest Unit where
  type := .ping
  payload := []
  request_id := pyText "a"
  version := protocolVersion

def pingLine : Bytes :=
  encodeUtf8 (render zeroFormat (.obj pingRequest.toWire) ++ ['\n'])

theorem pingRequest_line : pingRequest.toJsonLine zeroFormat stockInterpreter = .ok pingLine := rfl

/-- A ping comes back. -/
theorem codec_round_trip_ping : OneFrame pingLine ∧
    DaemonRequest.fromJsonLine zeroFormat plainDiagnostics stockInterpreter pingLine =
      .ok pingRequest := by
  have hcodec := codec_round_trip_iff zeroFormat plainDiagnostics stockInterpreter stockInterpreter
  have hping := hcodec.1 pingRequest pingLine pingRequest_line
  refine ⟨hping.1, hping.2.mpr ⟨rfl, rfl, ?_⟩⟩
  exact { scans := by decide, validates := by decide, distinct := rfl }

/-- A message of two code points: the two surrogates of one character. -/
def pairRequest : DaemonRequest Unit where
  type := .chat
  payload := [(pyText "message", .str [.surrogate 0x3d, .surrogate 0x600])]
  request_id := pyText "a"
  version := protocolVersion

/-- A request is sent, and another one arrives. -/
theorem pairRequest_changed : ∃ frame,
    pairRequest.toJsonLine zeroFormat stockInterpreter = .ok frame ∧
      DaemonRequest.fromJsonLine zeroFormat plainDiagnostics stockInterpreter frame ≠
        .ok pairRequest ∧
      DaemonRequest.fromJsonLine zeroFormat plainDiagnostics stockInterpreter frame =
        .ok { pairRequest with
          payload := [(pyText "message", .str [.char (Char.ofNat 0x1f600)])] } := by
  have hline : pairRequest.toJsonLine zeroFormat stockInterpreter =
      .ok (encodeUtf8 (render zeroFormat (.obj pairRequest.toWire) ++ ['\n'])) := rfl
  have hread : ∀ r, DaemonRequest.fromJsonLine zeroFormat plainDiagnostics stockInterpreter _ =
      .ok r ↔ _ := fromJsonLine_requestLine (DaemonRequest.toJsonLine_ok hline)
  have hfits : PayloadFits stockInterpreter pairRequest.payload :=
    { scans := by decide, validates := by decide, distinct := by decide }
  refine ⟨_, hline, fun h => ?_, (hread _).mpr ⟨hfits, by rfl⟩⟩
  have hpayload := congrArg DaemonRequest.payload ((hread _).mp h).2
  cases hpayload

end NuSelf.Daemon
