/-
  What it takes for an object to be an envelope.

  One equivalence for each `_expect_` helper, and from them the two envelopes
  (`validateRequestWire_iff`, `validateResponseWire_iff`).  They say everything that a validated
  object promises, so that the codec does not look into the helpers again.
-/
import NuSelf.Daemon.Protocol
import NuSelf.Lib.Sequence

namespace NuSelf.Daemon

open NuSelf.Lib NuSelf.Lib.JsonValue

variable {φ : Type} {floats : FloatFormat φ} {interpreter : Interpreter}

/-! ## Fields -/

/-- The error goes with the status. -/
def ErrorFits : ResponseStatus → Option PyText → Prop
  | .ok, none => True
  | .error, some error => blankText error = false
  | _, _ => False

section

variable {raw : RawObject φ} {field_name : String}

theorem expectFields_iff {required optional : List String} {u : Unit} :
    expectFields raw required optional = .ok u ↔
      ∀ key ∈ raw.map Prod.fst, key ∈ (required ++ optional).map pyText := by
  have hempty : ((raw.map Prod.fst).filter fun key =>
      !((required ++ optional).map pyText).contains key) = [] ↔
      ∀ key ∈ raw.map Prod.fst, key ∈ (required ++ optional).map pyText := by
    rw [List.filter_eq_nil_iff]
    refine forall₂_congr fun key _ => ?_
    rw [Bool.not_eq_true', Bool.not_eq_false, List.contains_iff_mem]
  rw [← hempty]
  show (if _ then _ else _) = _ ↔ _
  split
  · rename_i h
    exact iff_of_true rfl h
  · rename_i h
    exact iff_of_false nofun h

theorem expectInt_iff {n : Int} :
    expectInt raw field_name = .ok n ↔ raw.get field_name = some (.int n) := by
  rw [expectInt]
  split
  · rename_i m hget
    rw [hget, Except.ok.injEq, Option.some.injEq, JsonValue.int.injEq]
  · rename_i hother
    exact iff_of_false nofun (hother n)

theorem expectStr_iff {s : PyText} :
    expectStr raw field_name = .ok s ↔ raw.get field_name = some (.str s) := by
  rw [expectStr]
  split
  · rename_i t hget
    rw [hget, Except.ok.injEq, Option.some.injEq, JsonValue.str.injEq]
  · rename_i hother
    exact iff_of_false nofun (hother s)

theorem expectObject_iff {fields : RawObject φ} :
    expectObject raw field_name = .ok fields ↔ raw.get field_name = some (.obj fields) := by
  rw [expectObject]
  split
  · rename_i t hget
    rw [hget, Except.ok.injEq, Option.some.injEq, JsonValue.obj.injEq]
  · rename_i hother
    exact iff_of_false nofun (hother fields)

theorem expectNonEmptyStr_iff {s : PyText} : expectNonEmptyStr raw field_name = .ok s ↔
    raw.get field_name = some (.str s) ∧ blankText s = false := by
  simp only [expectNonEmptyStr, bind_ok_iff, expectStr_iff]
  constructor
  · rintro ⟨value, hget, h⟩
    split at h
    · cases h
    · rename_i hblank
      cases h
      exact ⟨hget, Bool.eq_false_iff.mpr hblank⟩
  · rintro ⟨hget, hblank⟩
    refine ⟨s, hget, ?_⟩
    rw [hblank]
    rfl

theorem expectProtocolVersion_iff {version : Int} : expectProtocolVersion raw = .ok version ↔
    raw.get "version" = some (.int version) ∧ version = protocolVersion := by
  simp only [expectProtocolVersion, bind_ok_iff, expectInt_iff]
  constructor
  · rintro ⟨n, hget, h⟩
    split at h
    · rename_i hn
      cases h
      exact ⟨hget, hn⟩
    · split at h <;> cases h
  · rintro ⟨hget, hversion⟩
    refine ⟨version, hget, ?_⟩
    rw [if_pos hversion]
    rfl

theorem expectRequestType_iff {type : RequestType} :
    expectRequestType raw field_name = .ok type ↔
      raw.get field_name = some (.str (pyText type.name)) := by
  have hfind : requestTypes.find? (fun other => decide (pyText other.name = pyText type.name)) =
      some type := by
    cases type <;> decide
  simp only [expectRequestType, bind_ok_iff, expectStr_iff]
  constructor
  · rintro ⟨value, hget, h⟩
    split at h
    · rename_i found hfound
      cases h
      have hname := List.find?_some hfound
      rw [hget, ← of_decide_eq_true hname]
    · cases h
  · intro hget
    refine ⟨_, hget, ?_⟩
    rw [hfind]
    rfl

theorem expectResponseStatus_iff {status : ResponseStatus} :
    expectResponseStatus raw field_name = .ok status ↔
      raw.get field_name = some (.str (pyText status.name)) := by
  simp only [expectResponseStatus, bind_ok_iff, expectStr_iff]
  constructor
  · rintro ⟨value, hget, h⟩
    split at h
    · rename_i hok
      cases h
      rw [hget, hok]
      rfl
    · split at h
      · rename_i herror
        cases h
        rw [hget, herror]
        rfl
      · cases h
  · intro hget
    refine ⟨_, hget, ?_⟩
    cases status with
    | ok =>
      rw [ResponseStatus.name, if_pos rfl]
      rfl
    | error =>
      rw [ResponseStatus.name, if_neg (by decide), if_pos rfl]
      rfl

theorem expectResponseError_iff {status : ResponseStatus} {error : Option PyText} :
    expectResponseError raw status = .ok error ↔
      raw.get "error" = error.map .str ∧ ErrorFits status error := by
  cases status with
  | ok =>
    rw [expectResponseError]
    cases hget : raw.get "error" with
    | some v =>
      refine iff_of_false nofun ?_
      rintro ⟨herror, hfits⟩
      cases error with
      | none => cases herror
      | some error => exact hfits
    | none =>
      cases error with
      | none => exact iff_of_true rfl ⟨rfl, trivial⟩
      | some error => exact iff_of_false nofun fun h => h.2
  | error =>
    rw [expectResponseError]
    cases error with
    | none =>
      refine iff_of_false ?_ fun h => h.2
      cases expectNonEmptyStr raw "error" <;> exact nofun
    | some error =>
      have hstr : expectNonEmptyStr raw "error" = .ok error ↔ _ := expectNonEmptyStr_iff
      rw [Option.map_some, ErrorFits, ← hstr]
      cases expectNonEmptyStr raw "error" with
      | error e => exact iff_of_false nofun nofun
      | ok s =>
        show Except.ok (some s) = Except.ok (some error) ↔ _
        rw [Except.ok.injEq, Option.some.injEq, Except.ok.injEq]

/-! ## Envelopes -/

/-- **An object is the envelope** of a request. -/
theorem validateRequestWire_iff {request : DaemonRequest φ} :
    validateRequestWire floats interpreter raw = .ok request ↔
      (∀ key ∈ raw.map Prod.fst,
        key ∈ ["version", "request_id", "type", "payload"].map pyText) ∧
      (raw.get "version" = some (.int request.version) ∧ request.version = protocolVersion) ∧
      (raw.get "request_id" = some (.str request.request_id) ∧
        blankText request.request_id = false) ∧
      raw.get "type" = some (.str (pyText request.type.name)) ∧
      raw.get "payload" = some (.obj request.payload) ∧
      validateJsonValue floats interpreter.validate (pyText "payload") (.obj request.payload) =
        .ok () := by
  simp only [validateRequestWire, bind_ok_iff, expectFields_iff, expectProtocolVersion_iff,
    expectNonEmptyStr_iff, expectRequestType_iff, expectObject_iff]
  constructor
  · rintro ⟨_, hfields, version, hversion, id, hid, type, htype, payload, hpayload, _, hvalid, h⟩
    cases h
    exact ⟨hfields, hversion, hid, htype, hpayload, hvalid⟩
  · rintro ⟨hfields, hversion, hid, htype, hpayload, hvalid⟩
    exact ⟨(), hfields, _, hversion, _, hid, _, htype, _, hpayload, (), hvalid, rfl⟩

/-- **An object is the envelope** of a response. -/
theorem validateResponseWire_iff {response : DaemonResponse φ} :
    validateResponseWire floats interpreter raw = .ok response ↔
      (∀ key ∈ raw.map Prod.fst,
        key ∈ ["version", "request_id", "status", "payload", "error"].map pyText) ∧
      (raw.get "version" = some (.int response.version) ∧ response.version = protocolVersion) ∧
      (raw.get "request_id" = some (.str response.request_id) ∧
        blankText response.request_id = false) ∧
      raw.get "status" = some (.str (pyText response.status.name)) ∧
      raw.get "payload" = some (.obj response.payload) ∧
      validateJsonValue floats interpreter.validate (pyText "payload") (.obj response.payload) =
        .ok () ∧
      raw.get "error" = response.error.map .str ∧ ErrorFits response.status response.error := by
  simp only [validateResponseWire, bind_ok_iff, expectFields_iff, expectProtocolVersion_iff,
    expectNonEmptyStr_iff, expectResponseStatus_iff, expectObject_iff, expectResponseError_iff]
  constructor
  · rintro ⟨_, hfields, version, hversion, id, hid, status, hstatus, payload, hpayload, _, hvalid,
      error, herror, h⟩
    cases h
    exact ⟨hfields, hversion, hid, hstatus, hpayload, hvalid, herror⟩
  · rintro ⟨hfields, hversion, hid, hstatus, hpayload, hvalid, herror⟩
    exact ⟨(), hfields, _, hversion, _, hid, _, hstatus, _, hpayload, (), hvalid, _, herror, rfl⟩

end

/-! ## What is sent -/

theorem ResponseStatus.eq_of_name : ∀ {status status' : ResponseStatus},
    pyText status.name = pyText status'.name → status = status'
  | .ok, .ok, _ | .error, .error, _ => rfl
  | .ok, .error, h | .error, .ok, h => absurd h (by decide)

theorem DaemonResponse.toWire_keys (response : DaemonResponse φ) :
    response.toWire.map Prod.fst = ["version", "request_id", "status", "payload"].map pyText ++
      response.error.elim [] fun _ => [pyText "error"] := by
  obtain ⟨request_id, status, payload, error, version⟩ := response
  cases error <;> rfl

theorem DaemonResponse.toWire_nodup (response : DaemonResponse φ) :
    (response.toWire.map Prod.fst).Nodup := by
  rw [response.toWire_keys]
  cases response.error with
  | none => exact by decide
  | some error =>
    rw [Option.elim]
    decide

theorem DaemonResponse.toWire_known (response : DaemonResponse φ) :
    ∀ key ∈ response.toWire.map Prod.fst,
      key ∈ ["version", "request_id", "status", "payload", "error"].map pyText := by
  rw [response.toWire_keys]
  cases response.error with
  | none => exact List.subset_append_left _ _
  | some error => exact List.Subset.refl _

theorem DaemonResponse.toWire_error (response : DaemonResponse φ) :
    response.toWire.get "error" = response.error.map .str := by
  obtain ⟨request_id, status, payload, error, version⟩ := response
  cases error <;> rfl

/-- **An envelope** is accepted if its fields are right, and reads as itself. -/
theorem validateResponseWire_toWire (response r : DaemonResponse φ) :
    validateResponseWire floats interpreter response.toWire = .ok r ↔
      r = response ∧ response.version = protocolVersion ∧
        blankText response.request_id = false ∧
        validateJsonValue floats interpreter.validate (pyText "payload") (.obj response.payload) =
          .ok () ∧
        ErrorFits response.status response.error := by
  rw [validateResponseWire_iff, response.toWire_error]
  constructor
  · rintro ⟨-, ⟨hversion, hv⟩, ⟨hid, hblank⟩, hstatus, hpayload, hvalid, he, hfits⟩
    obtain ⟨request_id, status, payload, error, version⟩ := r
    cases hversion
    cases hid
    cases hpayload
    obtain rfl := ResponseStatus.eq_of_name (JsonValue.str.inj (Option.some.inj hstatus))
    obtain rfl := Option.map_injective (fun _ _ h => JsonValue.str.inj h) he
    exact ⟨rfl, hv, hblank, hvalid, hfits⟩
  · rintro ⟨rfl, hv, hblank, hvalid, hfits⟩
    exact ⟨r.toWire_known, ⟨rfl, hv⟩, ⟨rfl, hblank⟩, rfl, rfl, hvalid, rfl, hfits⟩

end NuSelf.Daemon
