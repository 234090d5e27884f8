/-
  What the two sides of the protocol can rely on.

  1. `toJsonLine_ok` — a response that has a line, and what the line is.
  2. `fromJsonLine_line` — when the other side reads the line, and what it reads.
  3. `fail_toJsonLine` — a failed response has a line unless it is too long.
  4. `request_id_spec` — the id of a request that was read.
-/
import NuSelf.Daemon.Envelope

namespace NuSelf.Daemon

open NuSelf.Lib NuSelf.Lib.JsonValue

variable {φ : Type} {floats : FloatFormat φ} {diagnostics : Diagnostics}
  {interpreter : Interpreter}

/-! ## Values -/

mutual

theorem validateJsonValue_iff : ∀ (v : JsonValue φ) (limit : Nat) (path : PyText),
    clean floats v = true →
      (validateJsonValue floats limit path v = .ok () ↔ nesting v < limit)
  | .null, 0, _, _ | .bool _, 0, _, _ | .int _, 0, _, _ | .float _, 0, _, _ | .str _, 0, _, _
  | .arr _, 0, _, _ | .obj _, 0, _, _ => iff_of_false nofun (Nat.not_lt_zero _)
  | .null, limit + 1, _, _ | .bool _, limit + 1, _, _ | .int _, limit + 1, _, _
  | .str _, limit + 1, _, _ => iff_of_true rfl (Nat.succ_pos _)
  | .float x, limit + 1, _, h => by
    have hfinite : floats.isFinite x = true := h
    rw [validateJsonValue, if_pos hfinite]
    exact iff_of_true rfl (Nat.succ_pos _)
  | .arr items, 1, _, _ | .obj fields, 1, _, _ => by
    refine iff_of_false nofun ?_
    rw [nesting]
    omega
  | .arr items, limit + 2, path, h => by
    have hitems := validateJsonItems_iff items (limit + 1) path 0 h
    rw [validateJsonValue, hitems (Nat.succ_pos _), nesting]
    omega
  | .obj fields, limit + 2, path, h => by
    have hfields := validateJsonFields_iff fields (limit + 1) path h
    rw [validateJsonValue, hfields (Nat.succ_pos _), nesting]
    omega

theorem validateJsonItems_iff : ∀ (items : List (JsonValue φ)) (limit : Nat) (path : PyText)
    (index : Nat), cleanItems floats items = true → 0 < limit →
      (validateJsonItems floats limit path index items = .ok () ↔ nestingItems items < limit)
  | [], limit, path, index, _, hpos => by
    rw [validateJsonItems, nestingItems]
    exact iff_of_true rfl hpos
  | v :: rest, limit, path, index, h, hpos => by
    obtain ⟨hv, hrest⟩ := Bool.and_eq_true_iff.mp h
    have hfirst := validateJsonValue_iff v limit (path ++ pyText ("[" ++ toString index ++ "]")) hv
    have hmore := validateJsonItems_iff rest limit path (index + 1) hrest hpos
    rw [validateJsonItems, nestingItems, Nat.max_lt, ← hfirst, ← hmore]
    cases validateJsonValue floats limit (path ++ pyText ("[" ++ toString index ++ "]")) v with
    | error e => exact iff_of_false nofun fun hok => nomatch hok.1
    | ok u => exact ⟨fun hok => ⟨rfl, hok⟩, fun hok => hok.2⟩

theorem validateJsonFields_iff : ∀ (fields : List (PyText × JsonValue φ)) (limit : Nat)
    (path : PyText), cleanFields floats fields = true → 0 < limit →
      (validateJsonFields floats limit path fields = .ok () ↔ nestingFields fields < limit)
  | [], limit, path, _, hpos => by
    rw [validateJsonFields, nestingFields]
    exact iff_of_true rfl hpos
  | (key, v) :: rest, limit, path, h, hpos => by
    obtain ⟨hv, hrest⟩ := Bool.and_eq_true_iff.mp h
    have hfirst := validateJsonValue_iff v limit (path ++ pyText "." ++ key) hv
    have hmore := validateJsonFields_iff rest limit path hrest hpos
    rw [validateJsonFields, nestingFields, Nat.max_lt, ← hfirst, ← hmore]
    cases validateJsonValue floats limit (path ++ pyText "." ++ key) v with
    | error e => exact iff_of_false nofun fun hok => nomatch hok.1
    | ok u => exact ⟨fun hok => ⟨rfl, hok⟩, fun hok => hok.2⟩

end

/-! ## Keys -/

theorem firstDuplicate_eq_none : ∀ (keys seen : List PyText),
    firstDuplicate seen keys = none ↔ keys.Nodup ∧ ∀ key ∈ keys, key ∉ seen
  | [], seen => iff_of_true rfl ⟨List.nodup_nil, nofun⟩
  | key :: rest, seen => by
    rw [firstDuplicate, List.nodup_cons, List.forall_mem_cons]
    split
    · rename_i hseen
      exact iff_of_false nofun fun h => h.2.1 hseen
    · rename_i hseen
      rw [firstDuplicate_eq_none rest (key :: seen)]
      constructor
      · rintro ⟨hnodup, hrest⟩
        refine ⟨⟨fun hmem => hrest key hmem List.mem_cons_self, hnodup⟩, hseen, ?_⟩
        exact fun k hk hmem => hrest k hk (List.mem_cons_of_mem _ hmem)
      · rintro ⟨⟨hkey, hnodup⟩, -, hrest⟩
        refine ⟨hnodup, fun k hk hmem => ?_⟩
        rcases List.mem_cons.mp hmem with rfl | hmem
        · exact hkey hk
        · exact hrest k hk hmem

theorem frameHooks_unique : (frameHooks : ScanHooks HookError φ).Unique := by
  intro fields v
  show decodeObjectPairs fields = _ ↔ _
  rw [decodeObjectPairs]
  have hkeys := firstDuplicate_eq_none (fields.map Prod.fst) []
  cases hdup : firstDuplicate [] (fields.map Prod.fst) with
  | none =>
    have hnodup := (hkeys.mp hdup).1
    constructor
    · intro h
      cases h
      exact ⟨hnodup, rfl⟩
    · rintro ⟨-, rfl⟩
      rfl
  | some key =>
    refine iff_of_false nofun fun h => ?_
    rw [hkeys.mpr ⟨h.1, fun _ _ => List.not_mem_nil⟩] at hdup
    cases hdup

/-! ## Joined values -/

mutual

theorem clean_joinAll : ∀ v : JsonValue φ, clean floats (joinAll v) = clean floats v
  | .null | .bool _ | .int _ | .float _ | .str _ | .foreign _ => rfl
  | .arr items => cleanItems_join items
  | .obj fields => cleanFields_join fields

theorem cleanItems_join : ∀ items : List (JsonValue φ),
    cleanItems floats (joinItems items) = cleanItems floats items
  | [] => rfl
  | v :: rest => by
    rw [joinItems, cleanItems, cleanItems, clean_joinAll v, cleanItems_join rest]

theorem cleanFields_join : ∀ fields : List (PyText × JsonValue φ),
    cleanFields floats (joinFields fields) = cleanFields floats fields
  | [] => rfl
  | (k, v) :: rest => by
    rw [joinFields, cleanFields, cleanFields, clean_joinAll v, cleanFields_join rest]

end

mutual

theorem nesting_joinAll : ∀ v : JsonValue φ, nesting (joinAll v) = nesting v
  | .null | .bool _ | .int _ | .float _ | .str _ | .foreign _ => rfl
  | .arr items => congrArg (· + 1) (nestingItems_join items)
  | .obj fields => congrArg (· + 1) (nestingFields_join fields)

theorem nestingItems_join : ∀ items : List (JsonValue φ),
    nestingItems (joinItems items) = nestingItems items
  | [] => rfl
  | v :: rest => by
    rw [joinItems, nestingItems, nestingItems, nesting_joinAll v, nestingItems_join rest]

theorem nestingFields_join : ∀ fields : List (PyText × JsonValue φ),
    nestingFields (joinFields fields) = nestingFields fields
  | [] => rfl
  | (k, v) :: rest => by
    rw [joinFields, nestingFields, nestingFields, nesting_joinAll v, nestingFields_join rest]

end

/-! ## Envelopes -/

/-- A response whose texts have their pairs joined. -/
def DaemonResponse.joined (response : DaemonResponse φ) : DaemonResponse φ where
  request_id := join response.request_id
  status := response.status
  payload := joinFields response.payload
  error := response.error.map join
  version := response.version

theorem toWire_joined (response : DaemonResponse φ) :
    joinFields response.toWire = response.joined.toWire := by
  obtain ⟨request_id, status, payload, error, version⟩ := response
  cases error <;>
    simp only [DaemonResponse.toWire, DaemonResponse.joined, Option.elim, Option.map,
      List.cons_append, List.nil_append, joinFields, joinAll, join_pyText]

/-! ## Lines -/

/-- A printable text is as long as its bytes, and none of them is a newline. -/
theorem encodeUtf8_printable {text : List Char} (h : ∀ c ∈ text, Printable c) :
    (encodeUtf8 text).length = text.length ∧ 10 ∉ encodeUtf8 text := by
  have hbytes : encodeUtf8 text = text.map fun c => c.val.toUInt8 := by
    rw [encodeUtf8, List.map_eq_flatMap]
    refine List.flatMap_congr fun c hc => ?_
    have hc := (h c hc).2
    exact String.utf8EncodeChar_eq_singleton (Char.utf8Size_eq_one_iff.mpr (by
      show c.toNat ≤ 127
      omega))
  rw [hbytes]
  refine ⟨List.length_map _, fun hmem => ?_⟩
  obtain ⟨c, hc, heq⟩ := List.mem_map.mp hmem
  have hc := (h c hc).1
  have hnat : c.val.toNat % 256 = 10 := by
    rw [← UInt32.toNat_toUInt8, heq]
    rfl
  have hlow : 0x20 ≤ c.val.toNat := hc
  have hhigh : c.val.toNat ≤ 0x7e := (h c (by assumption)).2
  omega

theorem encodeUtf8_newline (text : List Char) :
    encodeUtf8 (text ++ ['\n']) = encodeUtf8 text ++ [10] := by
  rw [encodeUtf8, List.flatMap_append]
  rfl

/-- A printable text with a newline behind it is a frame, if it is not too long. -/
theorem validateJsonLineFrame_ok {text : List Char} (h : ∀ c ∈ text, Printable c)
    (hlength : (encodeUtf8 (text ++ ['\n'])).length ≤ maxDaemonFrameBytes) :
    validateJsonLineFrame (encodeUtf8 (text ++ ['\n'])) = .ok () := by
  have hnewline := (encodeUtf8_printable h).2
  rw [validateJsonLineFrame, if_neg, if_neg (Nat.not_lt.mpr hlength), if_neg, if_neg]
  · rw [encodeUtf8_newline, List.dropLast_concat]
    exact hnewline
  · rw [encodeUtf8_newline, List.getLast?_concat]
    exact fun hne => hne rfl
  · rw [encodeUtf8_newline]
    exact List.append_ne_nil_of_right_ne_nil _ (List.cons_ne_nil _ _)

/-- A line that an object is written on. -/
structure WireLine (floats : FloatFormat φ) (wire : RawObject φ) (frame : Bytes) : Prop where
  clean : JsonValue.clean floats (.obj wire) = true
  frame_eq : frame = encodeUtf8 (render floats (.obj wire) ++ ['\n'])
  fits : frame.length ≤ maxDaemonFrameBytes

theorem encodeJsonLine_ok {wire : RawObject φ} {frame : Bytes}
    (h : encodeJsonLine floats interpreter wire = .ok frame) : WireLine floats wire frame := by
  rw [encodeJsonLine] at h
  cases hdumps : dumps floats interpreter.encode (.obj wire) with
  | error e =>
    rw [hdumps] at h
    cases e <;> cases h
  | ok text =>
    obtain ⟨hclean, -, rfl⟩ := dumps_ok hdumps
    rw [hdumps] at h
    simp only at h
    split at h
    · cases h
    · rename_i hfits
      cases h
      exact ⟨hclean, rfl, Nat.not_lt.mp hfits⟩

theorem decodeJsonObject_ok {line : Bytes} {raw : RawObject φ}
    (h : decodeJsonObject floats diagnostics interpreter line = .ok raw) :
    ∃ text, decodeUtf8 line = some text ∧
      loads floats frameHooks interpreter.scan text = .ok (.obj raw) ∧
      validateJsonValue floats interpreter.validate (pyText "$") (.obj raw) = .ok () := by
  obtain ⟨_, -, h⟩ := bind_ok h
  split at h
  · cases h
  · rename_i text htext
    split at h
    · cases h
    · rename_i fields hloads
      obtain ⟨_, hvalid, h⟩ := bind_ok h
      cases h
      exact ⟨text, htext, hloads, hvalid⟩
    · cases h

/-- **Reading the line of an object**: who has room for it gets its fields, their pairs joined. -/
theorem decodeJsonObject_wire {client : Interpreter} {wire : RawObject φ} {frame : Bytes}
    (h : WireLine floats wire frame) (raw : RawObject φ) :
    decodeJsonObject floats diagnostics client frame = .ok raw ↔
      (nesting (.obj wire) ≤ client.scan ∧ nesting (.obj wire) < client.validate ∧
        distinctKeys (.obj wire) = true) ∧ raw = joinFields wire := by
  have hprintable := render_printable _ h.clean
  have hframe := validateJsonLineFrame_ok hprintable (h.frame_eq ▸ h.fits)
  have hloads : loads floats frameHooks client.scan (render floats (.obj wire) ++ ['\n']) =
      reread frameHooks client.scan (.obj wire) :=
    loads_render h.clean client.scan rfl (by
      intro c hc
      cases hc
      decide)
  have hreread := reread_iff frameHooks_unique (.obj wire) client.scan
  rw [decodeJsonObject, h.frame_eq, hframe]
  simp only [Except.mapError, Bind.bind, Except.bind, decodeUtf8_encodeUtf8, hloads]
  cases hread : reread frameHooks client.scan (.obj wire) with
  | error e =>
    refine iff_of_false nofun fun hok => ?_
    rw [(hreread _).mpr ⟨hok.1.1, hok.1.2.2, rfl⟩] at hread
    cases hread
  | ok v =>
    obtain ⟨hscans, hdistinct, rfl⟩ := (hreread v).mp hread
    have hclean : JsonValue.clean floats (joinAll (.obj wire)) = true := by
      rw [clean_joinAll]
      exact h.clean
    have hvalid := validateJsonValue_iff _ client.validate (pyText "$") hclean
    rw [nesting_joinAll] at hvalid
    simp only [joinAll] at hvalid ⊢
    cases hcheck : validateJsonValue floats client.validate (pyText "$")
        (.obj (joinFields wire)) with
    | error e =>
      refine iff_of_false nofun fun hok => ?_
      rw [hvalid.mpr hok.1.2.1] at hcheck
      cases hcheck
    | ok u =>
      constructor
      · intro heq
        cases heq
        exact ⟨⟨hscans, hvalid.mp hcheck, hdistinct⟩, rfl⟩
      · rintro ⟨-, rfl⟩
        rfl

/-- What a line of a response is made of. -/
structure LineOf (floats : FloatFormat φ) (response : DaemonResponse φ) (frame : Bytes) : Prop where
  version : response.version = protocolVersion
  request_id : blankText response.request_id = false
  error : ErrorFits response.status response.error
  clean : JsonValue.clean floats (.obj response.toWire) = true
  frame_eq : frame = encodeUtf8 (render floats (.obj response.toWire) ++ ['\n'])
  fits : frame.length ≤ maxDaemonFrameBytes

theorem LineOf.wire {response : DaemonResponse φ} {frame : Bytes}
    (h : LineOf floats response frame) : WireLine floats response.toWire frame :=
  ⟨h.clean, h.frame_eq, h.fits⟩

/-- **A response that has a line**, and the line. -/
theorem toJsonLine_ok {response : DaemonResponse φ} {frame : Bytes}
    (h : response.toJsonLine floats interpreter = .ok frame) : LineOf floats response frame := by
  rw [DaemonResponse.toJsonLine] at h
  cases hwire : validateResponseWire floats interpreter response.toWire with
  | error e =>
    rw [hwire] at h
    cases h
  | ok r =>
    obtain ⟨-, hversion, hid, -, herror⟩ := (validateResponseWire_toWire response r).mp hwire
    rw [hwire] at h
    obtain ⟨hclean, hframe, hfits⟩ := encodeJsonLine_ok h
    exact ⟨hversion, hid, herror, hclean, hframe, hfits⟩

/-! ## Reading a line -/

/-- What a client needs to read a response: room for its values, and keys that stay distinct. -/
structure Readable (client : Interpreter) (response : DaemonResponse φ) : Prop where
  scans : nesting (.obj response.payload) < client.scan
  validates : nesting (.obj response.payload) + 1 < client.validate
  distinct : distinctKeys (.obj response.payload) = true

theorem nesting_toWire (response : DaemonResponse φ) :
    nesting (.obj response.toWire) = nesting (.obj response.payload) + 1 := by
  obtain ⟨request_id, status, payload, error, version⟩ := response
  cases error <;>
    simp only [DaemonResponse.toWire, Option.elim, List.cons_append, List.nil_append, nesting,
      nestingFields] <;>
    omega

theorem distinctKeys_toWire (response : DaemonResponse φ) :
    distinctKeys (.obj response.toWire) = distinctKeys (.obj response.payload) := by
  have hkeys : ((joinFields response.toWire).map Prod.fst).Nodup := by
    rw [toWire_joined]
    exact response.joined.toWire_nodup
  rw [distinctKeys, decide_eq_true hkeys, Bool.true_and]
  obtain ⟨request_id, status, payload, error, version⟩ := response
  cases error <;>
    simp only [DaemonResponse.toWire, Option.elim, List.cons_append, List.nil_append,
      distinctFields, distinctKeys, Bool.and_true, Bool.true_and]

theorem clean_payload {response : DaemonResponse φ}
    (h : JsonValue.clean floats (.obj response.toWire) = true) :
    JsonValue.clean floats (.obj response.payload) = true := by
  obtain ⟨request_id, status, payload, error, version⟩ := response
  simp only [DaemonResponse.toWire, List.cons_append, JsonValue.clean, cleanFields,
    Bool.and_eq_true] at h
  exact h.2.2.2.1

theorem ErrorFits.joined {status : ResponseStatus} {error : Option PyText}
    (h : ErrorFits status error) : ErrorFits status (error.map join) := by
  cases status <;> cases error
  · exact trivial
  · exact h
  · exact h
  · exact (blankText_join _).trans h

theorem decodeJsonObject_line {client : Interpreter} {response : DaemonResponse φ} {frame : Bytes}
    (h : LineOf floats response frame) (raw : RawObject φ) :
    decodeJsonObject floats diagnostics client frame = .ok raw ↔
      (Readable client response ∧ raw = response.joined.toWire) := by
  rw [decodeJsonObject_wire h.wire, nesting_toWire, distinctKeys_toWire, toWire_joined]
  exact ⟨fun hok => ⟨⟨hok.1.1, hok.1.2.1, hok.1.2.2⟩, hok.2⟩,
    fun hok => ⟨⟨hok.1.scans, hok.1.validates, hok.1.distinct⟩, hok.2⟩⟩

/-- **The line of a response** is read by who has room for it, and as the response, its pairs
    joined. -/
theorem fromJsonLine_line {client : Interpreter} {response : DaemonResponse φ} {frame : Bytes}
    (h : LineOf floats response frame) (r : DaemonResponse φ) :
    DaemonResponse.fromJsonLine floats diagnostics client frame = .ok r ↔
      Readable client response ∧ r = response.joined := by
  have hraw : ∀ raw, decodeJsonObject floats diagnostics client frame = .ok raw ↔ _ :=
    decodeJsonObject_line h
  rw [DaemonResponse.fromJsonLine]
  cases hdecode : decodeJsonObject floats diagnostics client frame with
  | error e =>
    refine iff_of_false nofun fun hok => ?_
    rw [(hraw _).mpr ⟨hok.1, rfl⟩] at hdecode
    cases hdecode
  | ok raw =>
    obtain ⟨hreadable, rfl⟩ := (hraw raw).mp hdecode
    show validateResponseWire floats client response.joined.toWire = .ok r ↔ _
    rw [validateResponseWire_toWire]
    have hpayload : JsonValue.clean floats (.obj response.joined.payload) = true :=
      (clean_joinAll (.obj response.payload)).trans (clean_payload h.clean)
    have hvalid := validateJsonValue_iff _ client.validate (pyText "payload") hpayload
    refine ⟨fun hok => ⟨hreadable, hok.1⟩, fun hok => ⟨hok.2, h.version, ?_, ?_, h.error.joined⟩⟩
    · exact (blankText_join _).trans h.request_id
    · refine hvalid.mpr ?_
      have hroom := hreadable.validates
      have hnesting : nesting (.obj response.joined.payload) = nesting (.obj response.payload) :=
        nesting_joinAll (.obj response.payload)
      omega

/-! ## Failed responses -/

theorem fail_errorFits (request_id error : PyText) :
    ErrorFits .error (DaemonResponse.fail request_id error : DaemonResponse φ).error := by
  show blankText (if stripText error = [] then pyText "daemon request failed"
    else stripText error) = false
  split
  · rfl
  · rename_i hne
    exact blankText_stripText hne

theorem fail_clean (request_id error : PyText) :
    JsonValue.clean floats (.obj (DaemonResponse.fail request_id error).toWire) = true := by
  have hversion : (NumberLiteral.ofInt protocolVersion).whole.length ≤ maxIntDigits := by decide
  simp only [DaemonResponse.toWire, DaemonResponse.fail, Option.elim, List.cons_append,
    List.nil_append, JsonValue.clean, cleanFields, decide_eq_true hversion, Bool.and_true]

/-- The line of a failed response, which may be too long. -/
def failLine (floats : FloatFormat φ) (request_id error : PyText) : Bytes :=
  encodeUtf8 (render floats (.obj (DaemonResponse.fail request_id error).toWire) ++ ['\n'])

/-- **A failed response** has its line, if that is not too long; nothing else goes wrong. -/
theorem fail_toJsonLine {request_id : PyText} (hid : blankText request_id = false)
    (error : PyText) :
    (DaemonResponse.fail request_id error).toJsonLine floats interpreter =
      if maxDaemonFrameBytes < (failLine floats request_id error).length then
        .error (.protocol frameTooLarge)
      else .ok (failLine floats request_id error) := by
  have hvalid : validateJsonValue floats interpreter.validate (pyText "payload")
      (.obj (DaemonResponse.fail request_id error).payload) = .ok () := by
    refine (validateJsonValue_iff _ _ _ rfl).mpr ?_
    have hroom := interpreter.validate_room
    show 1 < interpreter.validate
    omega
  have hwire := (validateResponseWire_toWire (DaemonResponse.fail request_id error) _).mpr
    ⟨rfl, rfl, hid, hvalid, fail_errorFits request_id error⟩
  have hdeep : nesting (.obj (DaemonResponse.fail request_id error : DaemonResponse φ).toWire) ≤
      interpreter.encode := by
    rw [nesting_toWire]
    exact interpreter.encode_room
  have hclean : JsonValue.clean floats (.obj (DaemonResponse.fail request_id error).toWire) = true :=
    fail_clean request_id error
  have hdumps := (dumpsCheck_iff _ interpreter.encode).mpr ⟨hclean, hdeep⟩
  rw [DaemonResponse.toJsonLine, hwire]
  simp only [Bind.bind, Except.bind, encodeJsonLine, dumps, hdumps]
  rfl

theorem fail_readable (client : Interpreter) (request_id error : PyText) :
    Readable client (DaemonResponse.fail request_id error : DaemonResponse φ) where
  scans := client.scan_room
  validates := client.validate_room
  distinct := rfl

/-! ## How long a failed response is -/

theorem failLine_length (request_id error : PyText) : (failLine floats request_id error).length =
    (render floats (.obj (DaemonResponse.fail request_id error).toWire)).length + 1 := by
  have hclean : JsonValue.clean floats (.obj (DaemonResponse.fail request_id error).toWire) = true :=
    fail_clean request_id error
  have hprintable := render_printable _ hclean
  rw [failLine, encodeUtf8_newline, List.length_append, (encodeUtf8_printable hprintable).1]
  rfl

/-- The error of the fallback. -/
def encodingFailed : PyText := pyText "daemon response encoding failed"

/-- The fallback with this id is short enough for a frame. -/
def FallbackFits (request_id : PyText) : Prop :=
  (renderString request_id).length + 100 ≤ maxDaemonFrameBytes

/-- **How long the fallback is**: the id as it is escaped, and a hundred bytes. -/
theorem fallback_length (request_id : PyText) :
    (failLine floats request_id encodingFailed).length = (renderString request_id).length + 100 := by
  have hversion : (NumberLiteral.ofInt protocolVersion).render = ['1'] := by decide
  have hstrip : stripText encodingFailed = encodingFailed := by decide
  have hkeys : (renderString (pyText "version")).length = 9 ∧
      (renderString (pyText "request_id")).length = 12 ∧
      (renderString (pyText "status")).length = 8 ∧
      (renderString (pyText "payload")).length = 9 ∧
      (renderString (pyText "error")).length = 7 ∧ (renderString encodingFailed).length = 33 := by
    decide
  obtain ⟨h₁, h₂, h₃, h₄, h₅, h₆⟩ := hkeys
  rw [failLine_length]
  simp only [DaemonResponse.toWire, DaemonResponse.fail, hstrip,
    if_neg (by decide : encodingFailed ≠ []), Option.elim, List.cons_append, List.nil_append,
    render, renderObject, renderFields, hversion, ResponseStatus.name, List.length_cons,
    List.length_append, List.length_nil, h₁, h₂, h₃, h₄, h₅, h₆]
  omega

/-! ## The id of a request -/

theorem frameHooks_constant (name : String) :
    ∃ e, (frameHooks : ScanHooks HookError φ).constant name = .error e :=
  ⟨_, rfl⟩

/-- The fields of an object that was read have no pair of surrogates in them. -/
theorem decodeJsonObject_joined {line : Bytes} {raw : RawObject φ}
    (h : decodeJsonObject floats diagnostics interpreter line = .ok raw) :
    joinFields raw = raw := by
  obtain ⟨text, -, hloads, -⟩ := decodeJsonObject_ok h
  exact JsonValue.obj.inj (loads_joined frameHooks_unique frameHooks_constant hloads)

theorem joined_of_get {field_name : String} {s : PyText} : ∀ {raw : RawObject φ},
    joinFields raw = raw → raw.get field_name = some (.str s) → Joined s
  | [], _, hget => by cases hget
  | (key, v) :: rest, hjoined, hget => by
    obtain ⟨hfirst, hrest⟩ := List.cons.inj hjoined
    rw [RawObject.get, List.lookup_cons] at hget
    split at hget
    · cases hget
      exact JsonValue.str.inj (Prod.mk.inj hfirst).2
    · exact joined_of_get hrest hget

/-- **The id of a request that was read** is visible, and has no pair of surrogates in it. -/
theorem request_id_spec {line : Bytes} {request : DaemonRequest φ}
    (h : DaemonRequest.fromJsonLine floats diagnostics interpreter line = .ok request) :
    blankText request.request_id = false ∧ Joined request.request_id := by
  obtain ⟨raw, hdecode, hvalid⟩ := bind_ok h
  obtain ⟨-, -, ⟨hget, hblank⟩, -⟩ := validateRequestWire_iff.mp hvalid
  exact ⟨hblank, joined_of_get (decodeJsonObject_joined hdecode) hget⟩

end NuSelf.Daemon
