/-
  Diagnostic metadata, and the copy of it that is kept.

  A value under a sensitive key is replaced as a whole; every other text is redacted, the keys
  among them.  Two keys that are redacted to one text share one entry of the copy, and the later
  one takes it.

  1. `sanitize_alike` — the copies of two objects that differ in sensitive values only are equal.
  2. `shape_iff` — a copy has the shape of the original exactly where no two keys meet so.
  3. `metadata_sanitized_iff` — the two together.
-/
import Mathlib.Data.List.Perm.Subperm
import NuSelf.Lib.JsonDict
import NuSelf.Runtime.Redact

namespace NuSelf.Runtime

open NuSelf.Lib NuSelf.Lib.JsonValue

/-! ## The copy -/

def sensitiveMetadataKeys : List String :=
  ["access_token", "accesstoken", "api_key", "apikey", "authorization", "client_secret",
    "clientsecret", "cookie", "credential", "credentials", "password", "private_key", "privatekey",
    "refresh_token", "refreshtoken", "secret", "set_cookie", "setcookie", "token"]

section

-- `str.isalnum` beyond ASCII, and `str.casefold`
variable (isalnum : Char → Bool) (casefold : PyText → PyText)

def isSensitiveMetadataKey (key : PyText) : Bool :=
  let normalized := (casefold key).map fun p => if p = .char '-' then .char '_' else p
  let leaf := (normalized.reverse.takeWhile fun p => decide (p ≠ .char '.')).reverse
  (sensitiveMetadataKeys.map pyText).contains leaf

variable {φ : Type}

mutual

def sanitizeDiagnosticValue : JsonValue φ → JsonValue φ
  | .str s => .str (redactSensitiveText isalnum s)
  | .obj fields => .obj (dictOf (sanitizeFields fields))
  | .arr items => .arr (sanitizeItems items)
  | v => v

def sanitizeItems : List (JsonValue φ) → List (JsonValue φ)
  | [] => []
  | v :: rest => sanitizeDiagnosticValue v :: sanitizeItems rest

/-- The entries in the order in which they are made; a key may come twice. -/
def sanitizeFields : List (PyText × JsonValue φ) → List (PyText × JsonValue φ)
  | [] => []
  | (key, item) :: rest =>
    (redactSensitiveText isalnum key,
      if isSensitiveMetadataKey casefold key = true then .str stars
      else sanitizeDiagnosticValue item) :: sanitizeFields rest

end

def sanitizeDiagnosticMetadata (metadata : Option (List (PyText × JsonValue φ))) :
    Option (List (PyText × JsonValue φ)) :=
  metadata.map fun fields => dictOf (sanitizeFields isalnum casefold fields)

/-! ## Equal but for some values -/

variable (hidden : PyText → Bool)

mutual

/-- The same value, in whatever order the fields of its objects come, but for what is stored under
    hidden keys. -/
def Alike : JsonValue φ → JsonValue φ → Prop
  | .arr a, .arr b => AlikeItems a b
  | .obj a, .obj b => a.length = b.length ∧ AlikeFields a b
  | a, b => a = b

def AlikeItems : List (JsonValue φ) → List (JsonValue φ) → Prop
  | [], [] => True
  | a :: as, b :: bs => Alike a b ∧ AlikeItems as bs
  | _, _ => False

/-- Every field of the one is in the other. -/
def AlikeFields : List (PyText × JsonValue φ) → List (PyText × JsonValue φ) → Prop
  | [], _ => True
  | (k, a) :: as, bs => (∃ b, (k, b) ∈ bs ∧ (hidden k = true ∨ Alike a b)) ∧ AlikeFields as bs

end

/-! ## The shape -/

mutual

/-- The copy has the nesting of the original, and its numbers, booleans and nulls, but for what is
    stored under sensitive keys. -/
def SameShape : JsonValue φ → JsonValue φ → Prop
  | .arr a, .arr b => SameShapeItems a b
  | .obj a, .obj b => SameShapeFields a b
  | .str _, .str _ => True
  | a, b => a = b

def SameShapeItems : List (JsonValue φ) → List (JsonValue φ) → Prop
  | [], [] => True
  | a :: as, b :: bs => SameShape a b ∧ SameShapeItems as bs
  | _, _ => False

def SameShapeFields : List (PyText × JsonValue φ) → List (PyText × JsonValue φ) → Prop
  | [], [] => True
  | (k, a) :: as, (k', b) :: bs =>
    k' = redactSensitiveText isalnum k ∧
      (isSensitiveMetadataKey casefold k = true ∨ SameShape a b) ∧ SameShapeFields as bs
  | _, _ => False

end

mutual

/-- No object outside sensitive values has two keys with the same redaction. -/
def KeysApart : JsonValue φ → Prop
  | .arr items => KeysApartItems items
  | .obj fields => (fields.map fun field => redactSensitiveText isalnum field.1).Nodup ∧
    KeysApartFields fields
  | _ => True

def KeysApartItems : List (JsonValue φ) → Prop
  | [] => True
  | v :: rest => KeysApart v ∧ KeysApartItems rest

def KeysApartFields : List (PyText × JsonValue φ) → Prop
  | [] => True
  | (k, v) :: rest =>
    (isSensitiveMetadataKey casefold k = true ∨ KeysApart v) ∧ KeysApartFields rest

end

end

/-! ## What the copy keeps -/

section

variable {isalnum : Char → Bool} {casefold : PyText → PyText} {φ : Type}

theorem sanitizeFields_keys (fields : List (PyText × JsonValue φ)) :
    (sanitizeFields isalnum casefold fields).map Prod.fst =
      fields.map fun field => redactSensitiveText isalnum field.1 := by
  induction fields with
  | nil => rfl
  | cons field rest ih => exact congrArg (redactSensitiveText isalnum field.1 :: ·) ih

theorem dictOf_sanitizeFields {fields : List (PyText × JsonValue φ)}
    (h : (fields.map fun field => redactSensitiveText isalnum field.1).Nodup) :
    dictOf (sanitizeFields isalnum casefold fields) = sanitizeFields isalnum casefold fields :=
  dictOf_eq_self (by rwa [sanitizeFields_keys])

theorem SameShapeFields.keys : ∀ {as bs : List (PyText × JsonValue φ)},
    SameShapeFields isalnum casefold as bs →
      bs.map Prod.fst = as.map fun field => redactSensitiveText isalnum field.1
  | [], [], _ => rfl
  | (k, a) :: as, (k', b) :: bs, h => by
    obtain ⟨rfl, -, hrest⟩ := h
    exact congrArg (redactSensitiveText isalnum k :: ·) hrest.keys

mutual

/-- **The shape of a copy** is that of the original exactly where no two keys meet. -/
theorem shape_iff : ∀ v : JsonValue φ,
    SameShape isalnum casefold v (sanitizeDiagnosticValue isalnum casefold v) ↔
      KeysApart isalnum casefold v
  | .null | .bool _ | .int _ | .float _ | .str _ | .foreign _ => by
    simp [sanitizeDiagnosticValue, SameShape, KeysApart]
  | .arr items => by
    rw [sanitizeDiagnosticValue, SameShape, KeysApart]
    exact shapeItems_iff items
  | .obj fields => by
    rw [sanitizeDiagnosticValue, SameShape, KeysApart]
    constructor
    · intro h
      have hnodup : (fields.map fun field => redactSensitiveText isalnum field.1).Nodup := by
        rw [← h.keys]
        exact dictOf_nodup _
      rw [dictOf_sanitizeFields hnodup] at h
      exact ⟨hnodup, (shapeFields_iff fields).mp h⟩
    · rintro ⟨hnodup, hfields⟩
      rw [dictOf_sanitizeFields hnodup]
      exact (shapeFields_iff fields).mpr hfields

theorem shapeItems_iff : ∀ items : List (JsonValue φ),
    SameShapeItems isalnum casefold items (sanitizeItems isalnum casefold items) ↔
      KeysApartItems isalnum casefold items
  | [] => by simp [sanitizeItems, SameShapeItems, KeysApartItems]
  | v :: rest => by
    rw [sanitizeItems, SameShapeItems, KeysApartItems, shape_iff v, shapeItems_iff rest]

theorem shapeFields_iff : ∀ fields : List (PyText × JsonValue φ),
    SameShapeFields isalnum casefold fields (sanitizeFields isalnum casefold fields) ↔
      KeysApartFields isalnum casefold fields
  | [] => by simp [sanitizeFields, SameShapeFields, KeysApartFields]
  | (k, v) :: rest => by
    rw [sanitizeFields, SameShapeFields, KeysApartFields, shapeFields_iff rest]
    by_cases hsensitive : isSensitiveMetadataKey casefold k = true
    · simp only [hsensitive, true_or, true_and]
    · rw [if_neg hsensitive, shape_iff v]
      exact and_iff_right rfl

end

/-! ## What the copy does not depend on -/

section

variable {hidden : PyText → Bool}

theorem AlikeFields.mem : ∀ {as bs : List (PyText × JsonValue φ)}, AlikeFields hidden as bs →
    ∀ k ∈ as.map Prod.fst, k ∈ bs.map Prod.fst
  | [], _, _, _, hk => absurd hk List.not_mem_nil
  | (k, a) :: as, bs, h, k', hk' => by
    obtain ⟨⟨b, hb, -⟩, hrest⟩ := h
    rcases List.mem_cons.mp hk' with rfl | hk'
    · exact List.mem_map_of_mem hb
    · exact hrest.mem k' hk'

theorem AlikeFields.keys_perm {as bs : List (PyText × JsonValue φ)} (h : AlikeFields hidden as bs)
    (hlength : as.length = bs.length) (has : (as.map Prod.fst).Nodup) :
    (as.map Prod.fst).Perm (bs.map Prod.fst) := by
  have hsub : (as.map Prod.fst).Subperm (bs.map Prod.fst) :=
    List.subperm_of_subset has h.mem
  refine hsub.perm_of_length_le ?_
  rw [List.length_map, List.length_map, hlength]

end

theorem mem_sanitizeFields {k : PyText} {v : JsonValue φ} :
    ∀ {fields : List (PyText × JsonValue φ)}, (k, v) ∈ fields →
      (redactSensitiveText isalnum k,
        if isSensitiveMetadataKey casefold k = true then .str stars
        else sanitizeDiagnosticValue isalnum casefold v) ∈ sanitizeFields isalnum casefold fields
  | (k', v') :: rest, h => by
    rw [sanitizeFields]
    rcases List.mem_cons.mp h with heq | hrest
    · cases heq
      exact List.mem_cons_self
    · exact List.mem_cons_of_mem _ (mem_sanitizeFields hrest)

theorem length_sanitizeFields (fields : List (PyText × JsonValue φ)) :
    (sanitizeFields isalnum casefold fields).length = fields.length := by
  have hkeys := congrArg List.length (@sanitizeFields_keys isalnum casefold φ fields)
  rwa [List.length_map, List.length_map] at hkeys

mutual

/-- **The copy does not depend** on what is stored under sensitive keys. -/
theorem sanitize_alike : ∀ v w : JsonValue φ, KeysApart isalnum casefold v → uniqueKeys v →
    uniqueKeys w → Alike (isSensitiveMetadataKey casefold) v w →
      Alike (fun _ => false) (sanitizeDiagnosticValue isalnum casefold v)
        (sanitizeDiagnosticValue isalnum casefold w)
  | .null, w, _, _, _, h | .bool _, w, _, _, _, h | .int _, w, _, _, _, h
  | .float _, w, _, _, _, h | .str _, w, _, _, _, h | .foreign _, w, _, _, _, h => by
    have hw : _ = w := h
    subst hw
    simp [sanitizeDiagnosticValue, Alike]
  | .arr items, w, hapart, hv, hw, h => by
    cases w with
    | arr others =>
      rw [sanitizeDiagnosticValue, sanitizeDiagnosticValue, Alike]
      exact sanitizeItems_alike items others hapart hv hw h
    | _ => cases h
  | .obj fields, w, hapart, hv, hw, h => by
    cases w with
    | obj others =>
      obtain ⟨hlength, hfields⟩ := h
      have hperm := (hfields.keys_perm hlength hv.1).map (redactSensitiveText isalnum)
      rw [List.map_map, List.map_map] at hperm
      have hothers : (others.map fun field => redactSensitiveText isalnum field.1).Nodup :=
        hperm.nodup_iff.mp hapart.1
      rw [sanitizeDiagnosticValue, sanitizeDiagnosticValue, Alike, dictOf_sanitizeFields hapart.1,
        dictOf_sanitizeFields hothers, length_sanitizeFields, length_sanitizeFields]
      exact ⟨hlength, sanitizeFields_alike fields others hapart.2 hv.2 hw.2 hfields⟩
    | _ => cases h

theorem sanitizeItems_alike : ∀ items others : List (JsonValue φ),
    KeysApartItems isalnum casefold items → uniqueItems items → uniqueItems others →
      AlikeItems (isSensitiveMetadataKey casefold) items others →
        AlikeItems (fun _ => false) (sanitizeItems isalnum casefold items)
          (sanitizeItems isalnum casefold others)
  | [], [], _, _, _, _ => by simp [sanitizeItems, AlikeItems]
  | [], _ :: _, _, _, _, h => by cases h
  | _ :: _, [], _, _, _, h => by cases h
  | v :: rest, w :: more, hapart, hv, hw, h => by
    rw [sanitizeItems, sanitizeItems, AlikeItems]
    exact ⟨sanitize_alike v w hapart.1 hv.1 hw.1 h.1,
      sanitizeItems_alike rest more hapart.2 hv.2 hw.2 h.2⟩

theorem sanitizeFields_alike : ∀ fields others : List (PyText × JsonValue φ),
    KeysApartFields isalnum casefold fields → uniqueFields fields → uniqueFields others →
      AlikeFields (isSensitiveMetadataKey casefold) fields others →
        AlikeFields (fun _ => false) (sanitizeFields isalnum casefold fields)
          (sanitizeFields isalnum casefold others)
  | [], _, _, _, _, _ => by rw [sanitizeFields, AlikeFields]; trivial
  | (k, v) :: rest, others, hapart, hv, hw, h => by
    obtain ⟨⟨w, hmem, halike⟩, hrest⟩ := h
    rw [sanitizeFields, AlikeFields]
    refine ⟨⟨_, mem_sanitizeFields hmem, Or.inr ?_⟩,
      sanitizeFields_alike rest others hapart.2 hv.2 hw hrest⟩
    by_cases hsensitive : isSensitiveMetadataKey casefold k = true
    · rw [if_pos hsensitive, if_pos hsensitive]
      exact rfl
    · rw [if_neg hsensitive, if_neg hsensitive]
      exact sanitize_alike v w (hapart.1.resolve_left hsensitive) hv.1
        (uniqueFields_iff.mp hw _ hmem) (halike.resolve_left hsensitive)

end

end

/-- **The copy of metadata** depends on no sensitive value and has the shape of the metadata,
    exactly where no two keys of an object meet. -/
theorem metadata_sanitized_iff (isalnum : Char → Bool) (casefold : PyText → PyText) {φ : Type}
    (metadata : List (PyText × JsonValue φ)) (hdict : uniqueKeys (.obj metadata)) :
    (∃ sanitized, sanitizeDiagnosticMetadata isalnum casefold (some metadata) = some sanitized ∧
      SameShape isalnum casefold (.obj metadata) (.obj sanitized) ∧
      ∀ other, uniqueKeys (.obj other) →
        Alike (isSensitiveMetadataKey casefold) (.obj metadata) (.obj other) →
          ∃ others, sanitizeDiagnosticMetadata isalnum casefold (some other) = some others ∧
            Alike (fun _ => false) (.obj sanitized) (.obj others)) ↔
      KeysApart isalnum casefold (.obj metadata) := by
  have hshape := @shape_iff isalnum casefold φ (.obj metadata)
  rw [sanitizeDiagnosticValue] at hshape
  constructor
  · rintro ⟨_, ⟨⟩, hsame, -⟩
    exact hshape.mp hsame
  · intro hapart
    refine ⟨_, rfl, hshape.mpr hapart, fun other hother halike => ⟨_, rfl, ?_⟩⟩
    have hresult := sanitize_alike _ _ hapart hdict hother halike
    rwa [sanitizeDiagnosticValue, sanitizeDiagnosticValue] at hresult

/-- A key like any other, and a number. -/
def plainMetadata : List (PyText × JsonValue Unit) := [(pyText "status", .int 3)]

theorem plain_copied :
    uniqueKeys (.obj plainMetadata) ∧
      ((∃ sanitized,
        sanitizeDiagnosticMetadata (fun _ => false) id (some plainMetadata) = some sanitized ∧
        SameShape (fun _ => false) id (.obj plainMetadata) (.obj sanitized) ∧
        ∀ other, uniqueKeys (.obj other) →
          Alike (isSensitiveMetadataKey id) (.obj plainMetadata) (.obj other) →
            ∃ others,
              sanitizeDiagnosticMetadata (fun _ => false) id (some other) = some others ∧
              Alike (fun _ => false) (.obj sanitized) (.obj others)) ↔
        KeysApart (fun _ => false) id (.obj plainMetadata)) := by
  have hdict : uniqueKeys (.obj plainMetadata) := ⟨by decide, trivial, trivial⟩
  exact ⟨hdict, metadata_sanitized_iff (fun _ => false) id plainMetadata hdict⟩

/-- Two keys that hold a credential each. -/
def credentialKeys : List (PyText × JsonValue Unit) :=
  [(pyText "token=a", .int 1), (pyText "token=b", .int 2)]

/-- **One entry is lost**: the keys are the same once they are redacted. -/
theorem entry_lost :
    ¬ ∃ sanitized,
      sanitizeDiagnosticMetadata (fun _ => false) id (some credentialKeys) = some sanitized ∧
      SameShape (fun _ => false) id (.obj credentialKeys) (.obj sanitized) ∧
      ∀ other, uniqueKeys (.obj other) →
        Alike (isSensitiveMetadataKey id) (.obj credentialKeys) (.obj other) →
          ∃ others, sanitizeDiagnosticMetadata (fun _ => false) id (some other) = some others ∧
            Alike (fun _ => false) (.obj sanitized) (.obj others) := by
  rintro ⟨_, ⟨⟩, hsame, -⟩
  have hkeys : (dictOf (sanitizeFields (fun _ => false) id credentialKeys)).map Prod.fst =
      credentialKeys.map fun field => redactSensitiveText (fun _ => false) field.1 :=
    SameShapeFields.keys hsame
  have hnodup := dictOf_nodup (sanitizeFields (fun _ => false) id credentialKeys)
  rw [hkeys] at hnodup
  revert hnodup
  decide +kernel

end NuSelf.Runtime
