/-
  What tells the events of a log from each other.

  The reader compares events by two texts: a key, which is the id of the event or, where there is
  none, the text of its record, and a fingerprint, the text of the whole record.  Both are JSON with
  sorted keys.  A text can stand for two records, if one of them has a pair of surrogates where the
  other has the character, but a record that was decoded has no such pair.

  1. `decoded_record` — what the lines of a log are decoded as.
  2. `fingerprint_iff` — fingerprints are equal exactly where the records are, up to the order of
     their fields.
  3. `same_identity_iff` — keys are equal exactly where the ids are or, without ids, the records.
-/
import NuSelf.Log.Reader

namespace NuSelf.Log.Record

open NuSelf.Lib NuSelf.Lib.JsonValue NuSelf.Runtime NuSelf.Daemon

variable {φ : Type} {fromisoformat : PyText → Option (Option Int)} {floats : FloatFormat φ}
  {constant : String → φ} {room : ReadRoom} {limits : JsonLimits}

/-! ## Records -/

/-- The event is what a line of a log was decoded as. -/
def Decoded (fromisoformat : PyText → Option (Option Int)) (floats : FloatFormat φ)
    (constant : String → φ) (room : ReadRoom) (e : LogEvent φ) : Prop :=
  ∃ component line, parseLogLine fromisoformat floats constant room component line = .ok (.event e)

/-- What `to_record` returns, if the metadata is not too deep for it. -/
def LogEvent.record (e : LogEvent φ) : RawObject φ :=
  [(pyText "time", .str e.time), (pyText "level", .str (pyText e.level.name)),
    (pyText "component", .str (pyText e.component.name)), (pyText "event", .str e.event),
    (pyText "message", .str e.message)] ++ Frozen.thawedFields e.optionalFields

/-- The record, in whatever order its fields were. -/
def LogEvent.content (e : LogEvent φ) : JsonValue φ := sortKeys (.obj e.record)

/-- The id or, where there is none, the record. -/
def LogEvent.identified (e : LogEvent φ) : PyText ⊕ JsonValue φ :=
  match e.event_id with
  | some event_id => .inl event_id
  | none => .inr e.content

/-- There is one value only with the text of this one. -/
structure Unambiguous (v : JsonValue φ) : Prop where
  joined : joinAll v = v
  unique : uniqueKeys v

theorem unambiguous_str {s : PyText} (h : Joined s) : Unambiguous (.str s : JsonValue φ) :=
  ⟨congrArg JsonValue.str h, trivial⟩

theorem Unambiguous.obj_iff {fields : RawObject φ} : Unambiguous (.obj fields) ↔
    (fields.map Prod.fst).Nodup ∧ ∀ field ∈ fields, Joined field.1 ∧ Unambiguous field.2 := by
  constructor
  · rintro ⟨hjoined, hkeys, hunique⟩
    have hfields := joinFields_eq_self_iff.mp (JsonValue.obj.inj hjoined)
    refine ⟨hkeys, fun field hfield => ⟨(hfields field hfield).1, (hfields field hfield).2, ?_⟩⟩
    exact uniqueFields_iff.mp hunique field hfield
  · rintro ⟨hkeys, hfields⟩
    refine ⟨congrArg JsonValue.obj (joinFields_eq_self_iff.mpr fun field hfield => ?_), hkeys, ?_⟩
    · exact ⟨(hfields field hfield).1, (hfields field hfield).2.joined⟩
    · exact uniqueFields_iff.mpr fun field hfield => (hfields field hfield).2.unique

theorem Unambiguous.sortKeys {v : JsonValue φ} (h : Unambiguous v) :
    Unambiguous (NuSelf.Lib.sortKeys v) :=
  ⟨(joinAll_sortKeys_iff v).mpr h.joined, uniqueKeys_sortKeys v h.unique⟩

/-- **A text stands for one value.** -/
theorem renderWith_inj {layout : Layout} {v w : JsonValue φ} (hv : Unambiguous v)
    (hw : Unambiguous w) (hcleanv : clean floats v = true) (hcleanw : clean floats w = true)
    (h : renderWith floats layout 0 v = renderWith floats layout 0 w) : v = w := by
  let limits : JsonLimits := ⟨0, 0, 0, max (nesting v) (nesting w)⟩
  have hreadv : decodeJsonValue floats limits (renderWith floats layout 0 v) = .ok v :=
    (decodeJsonValue_self_iff hcleanv hv.unique).mpr ⟨hv.joined, Nat.le_max_left _ _⟩
  have hreadw : decodeJsonValue floats limits (renderWith floats layout 0 w) = .ok w :=
    (decodeJsonValue_self_iff hcleanw hw.unique).mpr ⟨hw.joined, Nat.le_max_right _ _⟩
  rw [h] at hreadv
  exact Except.ok.inj (hreadv.symm.trans hreadw)

/-! ## What is decoded -/

theorem decodeJson_unambiguous {limit : Nat} {text : List Char} {v : JsonValue φ}
    (h : loads floats (stockHooks constant) limit text = .ok v) : Unambiguous v := by
  have hdict := dict_invariant floats fun name : String => name
  have hstock : ScanInvariant floats (stockHooks constant) (stockHooks constant)
      (ReadValue floats) := by
    refine ⟨hdict.null, hdict.bool, hdict.float, hdict.int, hdict.str, hdict.arr, ?_, ?_⟩
    · intro name v hv
      cases hv
      exact ⟨rfl, rfl, trivial, rfl⟩
    · intro fields v hfields hv
      cases hv
      exact ⟨rfl, (hdict.pairs fields _ hfields rfl).2⟩
  exact ⟨(hstock.loads h).2.joined, (hstock.loads h).2.unique⟩

/-- The texts of an event, and what else of it is written, stand for themselves. -/
structure FieldsTold (e : LogEvent φ) : Prop where
  time : Joined e.time
  event : Joined e.event
  message : Joined e.message
  optional : ∀ field ∈ e.optionalFields, Unambiguous field.2.thawed

section

variable {record : RawObject φ} {name : String}

theorem unambiguous_of_get (hrecord : Unambiguous (.obj record)) {v : JsonValue φ}
    (h : record.get name = some v) : Unambiguous v := by
  obtain ⟨before, after, rfl, -⟩ := List.lookup_eq_some_iff.mp h
  refine (((Unambiguous.obj_iff.mp hrecord).2 (pyText name, v) ?_).2)
  exact List.mem_append_right _ List.mem_cons_self

theorem optionalStr_unambiguous (hrecord : Unambiguous (.obj record)) {value : Option PyText}
    (h : recordOptionalStr record name = .ok value) :
    ∀ v : Frozen φ, value.map .str = some v → Unambiguous v.thawed := by
  intro v hv
  rw [recordOptionalStr] at h
  split at h
  · cases h
    cases hv
  · cases h
    cases hv
  · rename_i s hget
    cases h
    cases hv
    exact unambiguous_of_get hrecord hget
  · cases h

theorem int_unambiguous (value : Option Int) :
    ∀ v : Frozen φ, value.map .int = some v → Unambiguous v.thawed := by
  intro v hv
  cases value with
  | none => cases hv
  | some n =>
    cases hv
    exact ⟨rfl, trivial⟩

theorem entry_told {value : Option (Frozen φ)}
    (h : ∀ v, value = some v → Unambiguous v.thawed) :
    ∀ field, (value.map fun v => (pyText name, v)) = some field → Unambiguous field.2.thawed := by
  intro field hfield
  obtain ⟨v, hv, rfl⟩ := Option.map_eq_some_iff.mp hfield
  exact h v hv

/-- The fields of an object that stands for itself, with metadata that does. -/
theorem recordFields_told (hrecord : Unambiguous (.obj record)) {e : LogEvent φ}
    {fields : Option (RawObject φ)} (h : recordFields record = .ok (e, fields))
    (instant : Option Int) {metadata : Option (Frozen φ)}
    (hmetadata : ∀ v, metadata = some v → Unambiguous v.thawed) :
    FieldsTold { e with instant, metadata } ∧ e.metadata = none ∧
      ∀ raw, fields = some raw → Unambiguous (.obj raw) := by
  obtain ⟨component, -, h⟩ := bind_ok h
  obtain ⟨level, -, h⟩ := bind_ok h
  split at h
  · rename_i event message time hevent hmessage htime
    obtain ⟨event_id, h1, h⟩ := bind_ok h
    obtain ⟨schema_version, -, h⟩ := bind_ok h
    obtain ⟨conversation_id, h3, h⟩ := bind_ok h
    obtain ⟨reason_id, h4, h⟩ := bind_ok h
    obtain ⟨request_id, h5, h⟩ := bind_ok h
    obtain ⟨turn_id, h6, h⟩ := bind_ok h
    obtain ⟨job_id, h7, h⟩ := bind_ok h
    obtain ⟨trace_id, h8, h⟩ := bind_ok h
    obtain ⟨source, h9, h⟩ := bind_ok h
    obtain ⟨node, h10, h⟩ := bind_ok h
    obtain ⟨duration_ms, -, h⟩ := bind_ok h
    obtain ⟨status, h12, h⟩ := bind_ok h
    obtain ⟨error, h13, h⟩ := bind_ok h
    obtain ⟨raw, hraw, h⟩ := bind_ok h
    cases h
    have htexts : ∀ {name : String} {s : PyText}, record.get name = some (.str s) → Joined s :=
      fun hget => JsonValue.str.inj (unambiguous_of_get hrecord hget).joined
    refine ⟨⟨htexts htime, htexts hevent, htexts hmessage, ?_⟩, rfl, fun raw' hfields => ?_⟩
    · refine List.forall_mem_filterMap.mpr ?_
      simp only [List.forall_mem_cons]
      exact ⟨entry_told (optionalStr_unambiguous hrecord h1), entry_told (int_unambiguous _),
        entry_told (optionalStr_unambiguous hrecord h3),
        entry_told (optionalStr_unambiguous hrecord h4),
        entry_told (optionalStr_unambiguous hrecord h5),
        entry_told (optionalStr_unambiguous hrecord h6),
        entry_told (optionalStr_unambiguous hrecord h7),
        entry_told (optionalStr_unambiguous hrecord h8),
        entry_told (optionalStr_unambiguous hrecord h9),
        entry_told (optionalStr_unambiguous hrecord h10), entry_told (int_unambiguous _),
        entry_told (optionalStr_unambiguous hrecord h12),
        entry_told (optionalStr_unambiguous hrecord h13), entry_told hmetadata, nofun⟩
    · cases hfields
      rw [recordOptionalMapping] at hraw
      split at hraw
      · cases hraw
      · cases hraw
      · rename_i fields hget
        cases hraw
        exact unambiguous_of_get hrecord hget
      · cases hraw
  · cases h

end

theorem refuse_ok {invalid : Bool} {error : RecordError} {u : Unit}
    (h : refuse invalid error = .ok u) : invalid = false := by
  cases invalid with
  | false => rfl
  | true => cases h

/-- The event of an object that stands for itself stands for itself. -/
theorem fromRecord_told {limits : JsonLimits} {record : RawObject φ} {e : LogEvent φ}
    (hrecord : Unambiguous (.obj record))
    (hread : fromRecord fromisoformat floats limits record = .ok e) :
    FieldsTold e ∧ (e.event_id = none → e.schema_version = none) := by
  obtain ⟨⟨e₀, fields⟩, hfields, hread⟩ := bind_ok hread
  obtain ⟨_, hids, hread⟩ := bind_ok hread
  obtain ⟨_, -, hread⟩ := bind_ok hread
  obtain ⟨_, -, hread⟩ := bind_ok hread
  obtain ⟨instant, -, hread⟩ := bind_ok hread
  obtain ⟨_, -, hread⟩ := bind_ok hread
  obtain ⟨_, -, hread⟩ := bind_ok hread
  have hunnamed : e₀.event_id = none → e₀.schema_version = none := by
    intro hnone
    have hsame := refuse_ok hids
    rw [hnone] at hsame
    cases hschema : e₀.schema_version with
    | none => rfl
    | some version =>
      rw [hschema] at hsame
      cases hsame
  cases fields with
  | none =>
    cases hread
    obtain ⟨htold, hbare, -⟩ := recordFields_told hrecord hfields instant
      (fun (v : Frozen φ) (hv : none = some v) => by cases hv)
    refine ⟨?_, hunnamed⟩
    rwa [← hbare] at htold
  | some raw =>
    obtain ⟨frozen, hfrozen, hread⟩ := bind_ok hread
    cases hread
    have hraw := (recordFields_told hrecord hfields instant
      (fun (v : Frozen φ) (hv : none = some v) => by cases hv)).2.2 raw rfl
    refine ⟨(recordFields_told hrecord hfields instant fun v hv => ?_).1, hunnamed⟩
    cases hv
    cases hfreeze : freezeJsonValue floats limits.freeze (.ofJson (.obj raw)) with
    | error error =>
      rw [hfreeze] at hfrozen
      cases hfrozen
    | ok frozen' =>
      rw [hfreeze] at hfrozen
      cases hfrozen
      obtain ⟨⟨hfinite, -⟩, rfl⟩ := (freezeJsonValue_ofJson _ _ _ hraw.unique).mp hfreeze
      rwa [Frozen.thawed_ofJson _ hfinite]

/-- **What a line is decoded as**: its record stands for itself. -/
theorem decoded_told {e : LogEvent φ} (h : Decoded fromisoformat floats constant room e) :
    FieldsTold e ∧ (e.event_id = none → e.schema_version = none) := by
  obtain ⟨component, line, h⟩ := h
  rw [parseLogLine_eq] at h
  cases hsaid : said line with
  | none =>
    rw [hsaid] at h
    cases h
  | some stripped =>
    rw [hsaid] at h
    replace h : parseStripped fromisoformat floats constant room component stripped =
      .ok (.event e) := h
    rw [parseStripped] at h
    split at h
    · -- a plain line
      cases h
      refine ⟨⟨joined_nil, join_pyText _, joined_chars _, ?_⟩, fun _ => rfl⟩
      exact List.forall_mem_nil _
    · cases h
    · cases h
    · rename_i record hloads
      split at h
      · rename_i e' hread
        cases h
        exact fromRecord_told (decodeJson_unambiguous hloads) hread
      · cases h
      · cases h
    · cases h

/-! ## The record of an event -/

theorem keys_sublist : ∀ entries : List (String × Option (Frozen φ)),
    ((entries.filterMap fun entry => entry.2.map fun v => (pyText entry.1, v)).map
      Prod.fst).Sublist ((entries.map Prod.fst).map pyText)
  | [] => .slnil
  | (name, none) :: rest => (keys_sublist rest).cons (pyText name)
  | (name, some _) :: rest => (keys_sublist rest).cons_cons (pyText name)

theorem thawedFields_eq (fields : List (PyText × Frozen φ)) :
    Frozen.thawedFields fields = fields.map fun field => (field.1, field.2.thawed) := by
  induction fields with
  | nil => rfl
  | cons field rest ih => exact congrArg ((field.1, field.2.thawed) :: ·) ih

/-- The fields of a record, apart from those that name the event. -/
def recordNames : List String :=
  ["time", "level", "component", "event", "message", "conversation_id", "reason_id", "request_id",
    "turn_id", "job_id", "trace_id", "source", "node", "duration_ms", "status", "error", "metadata"]

theorem FieldsTold.unambiguous {e : LogEvent φ} (h : FieldsTold e) :
    Unambiguous (.obj e.record) := by
  let names := ["time", "level", "component", "event", "message", "event_id", "schema_version"] ++
    recordNames.drop 5
  have hkeys : (e.record.map Prod.fst).Sublist (names.map pyText) := by
    rw [LogEvent.record, List.map_append, Frozen.thawedFields_keys]
    exact (List.Sublist.refl _).append (keys_sublist _)
  refine Unambiguous.obj_iff.mpr ⟨hkeys.nodup ?_, fun field hfield => ⟨?_, ?_⟩⟩
  · exact List.Nodup.map (fun _ _ => pyText_inj.mp) (by decide)
  · obtain ⟨name, -, hname⟩ := List.mem_map.mp (hkeys.subset (List.mem_map_of_mem hfield))
    rw [← hname]
    exact join_pyText name
  · revert field
    rw [LogEvent.record, List.forall_mem_append, thawedFields_eq, List.forall_mem_map]
    refine ⟨?_, h.optional⟩
    simp only [List.forall_mem_cons]
    exact ⟨unambiguous_str h.time, unambiguous_str (join_pyText _),
      unambiguous_str (join_pyText _), unambiguous_str h.event, unambiguous_str h.message, nofun⟩

/-- **A decoded record** stands for itself. -/
theorem decoded_record {e : LogEvent φ} (h : Decoded fromisoformat floats constant room e) :
    Unambiguous (.obj e.record) :=
  (decoded_told h).1.unambiguous

theorem toRecord_ok {e : LogEvent φ} {record : RawObject φ} (h : e.toRecord limits = .ok record) :
    record = e.record := by
  obtain ⟨optional, hthaw, h⟩ := bind_ok h
  rw [← Except.ok.inj h, ((thawFields_iff _ _ _).mp hthaw).2]
  rfl

theorem record_unnamed {e : LogEvent φ} (hid : e.event_id = none)
    (hschema : e.schema_version = none) :
    (e.record.filter fun field =>
      field.1 != pyText "event_id" && field.1 != pyText "schema_version") = e.record := by
  have hkeys : (e.record.map Prod.fst).Sublist (recordNames.map pyText) := by
    rw [LogEvent.record, List.map_append, Frozen.thawedFields_keys, LogEvent.optionalFields, hid,
      hschema, List.filterMap_cons_none rfl, List.filterMap_cons_none rfl]
    exact (List.Sublist.refl _).append (keys_sublist _)
  refine List.filter_eq_self.mpr fun field hfield => ?_
  obtain ⟨name, hname, hkey⟩ := List.mem_map.mp (hkeys.subset (List.mem_map_of_mem hfield))
  have hother : ∀ name ∈ recordNames, name ≠ "event_id" ∧ name ≠ "schema_version" := by decide
  rw [← hkey, Bool.and_eq_true, bne_iff_ne, bne_iff_ne, Ne, Ne, pyText_inj, pyText_inj]
  exact hother name hname

/-! ## The texts -/

theorem dumpsRecord_inj {layout : Layout} {record record' : RawObject φ} {text text' : List Char}
    (hrecord : Unambiguous (.obj record)) (hrecord' : Unambiguous (.obj record'))
    (h : dumpsRecord floats limits layout record = .ok text)
    (h' : dumpsRecord floats limits layout record' = .ok text') :
    text = text' ↔ sortKeys (.obj record) = sortKeys (.obj record') := by
  have hclean : ∀ {record : RawObject φ} {text : List Char},
      dumpsRecord floats limits layout record = .ok text →
        clean floats (sortKeys (.obj record)) = true := by
    intro record text h
    rw [dumpsRecord] at h
    split at h
    · rename_i hdumps
      exact (dumpsWith_iff.mp hdumps).1.1
    · cases h
    · cases h
  rw [dumpsRecord_ok h, dumpsRecord_ok h']
  exact ⟨renderWith_inj hrecord.sortKeys hrecord'.sortKeys (hclean h) (hclean h'),
    congrArg (renderWith floats layout 0)⟩

section

variable {e e' : LogEvent φ} (he : Decoded fromisoformat floats constant room e)
  (he' : Decoded fromisoformat floats constant room e')

include he he'

/-- **Fingerprints** are equal where the records are. -/
theorem fingerprint_iff {text text' : List Char} (h : e.fingerprint floats limits = .ok text)
    (h' : e'.fingerprint floats limits = .ok text') : text = text' ↔ e.content = e'.content := by
  obtain ⟨record, hrecord, h⟩ := bind_ok h
  obtain ⟨record', hrecord', h'⟩ := bind_ok h'
  obtain rfl := toRecord_ok hrecord
  obtain rfl := toRecord_ok hrecord'
  exact dumpsRecord_inj (decoded_record he) (decoded_record he') h h'

/-- **Keys** are equal where the ids are or, without ids, the records. -/
theorem same_identity_iff {key key' : PyText} (h : e.identity floats limits = .ok key)
    (h' : e'.identity floats limits = .ok key') : key = key' ↔ e.identified = e'.identified := by
  have hlegacy : ∀ {e : LogEvent φ} {key : PyText}, Decoded fromisoformat floats constant room e →
      e.event_id = none → e.identity floats limits = .ok key →
        ∃ text, dumpsRecord floats limits (.plain none) e.record = .ok text ∧
          key = pyText "legacy:" ++ text.map .char := by
    intro e key he hid h
    rw [LogEvent.identity, hid] at h
    obtain ⟨record, hrecord, h⟩ := bind_ok h
    obtain rfl := toRecord_ok hrecord
    obtain ⟨text, htext, hkey⟩ := bind_ok h
    rw [record_unnamed hid ((decoded_told he).2 hid)] at htext
    exact ⟨text, htext, (Except.ok.inj hkey).symm⟩
  rw [LogEvent.identified, LogEvent.identified]
  cases hid : e.event_id with
  | some event_id =>
    rw [LogEvent.identity, hid] at h
    obtain rfl := Except.ok.inj h
    cases hid' : e'.event_id with
    | some event_id' =>
      rw [LogEvent.identity, hid'] at h'
      obtain rfl := Except.ok.inj h'
      rw [List.append_cancel_left_eq, Sum.inl.injEq]
    | none =>
      obtain ⟨text', -, rfl⟩ := hlegacy he' hid' h'
      exact iff_of_false (fun h => by cases h) (fun h => by cases h)
  | none =>
    obtain ⟨text, htext, rfl⟩ := hlegacy he hid h
    cases hid' : e'.event_id with
    | some event_id' =>
      rw [LogEvent.identity, hid'] at h'
      obtain rfl := Except.ok.inj h'
      exact iff_of_false (fun h => by cases h) (fun h => by cases h)
    | none =>
      obtain ⟨text', htext', rfl⟩ := hlegacy he' hid' h'
      rw [List.append_cancel_left_eq, (List.map_inj_right fun _ _ => CodePoint.char.inj),
        dumpsRecord_inj (decoded_record he) (decoded_record he') htext htext', Sum.inr.injEq]
      rfl

end

end NuSelf.Log.Record
