/-
  JSON values of runtime messages: frozen, thawed, written and read.

  `freeze_json_value` takes what Python can offer (`PyValue`) to what cannot be changed (`Frozen`),
  `thaw_json_value` takes that to what `json.dumps` writes.  Each walk goes as deep as the
  interpreter lets it at the place where it runs (`JsonLimits`): freezing a sequence takes two
  frames, one of them for the generator.

  1. `freezeJsonValue_spec` — what is frozen has unique keys, finite floats, and fits.
  2. `freezeJsonValue_ofJson` — when a plain value is frozen, and as what; from it
     `refreeze`, that a frozen value is what its thawed value is frozen as.
  3. `encodeJsonValue_ok_iff` — when there is a text, and which.
  4. `decodeJsonValue_text` — when the text brings the value back.
  5. `json_codec_iff` — the codec as a whole.
-/
import NuSelf.Lib.JsonDict
import NuSelf.Lib.Limited
import NuSelf.Lib.Sequence

namespace NuSelf.Runtime

open NuSelf.Lib NuSelf.Lib.JsonValue

/-! ## Values -/

/-- A key of a mapping. -/
inductive MapKey where
  | str (s : PyText)
  | other (type_name : String)

/-- What may be given to `freeze_json_value`; the items of a mapping in its own order. -/
inductive PyValue (φ : Type) where
  | none
  | bool (b : Bool)
  | int (n : Int)
  | float (x : φ)
  | str (s : PyText)
  | list (items : List (PyValue φ))
  | tuple (items : List (PyValue φ))
  | mapping (items : List (MapKey × PyValue φ))
  | foreign (type_name : String)

/-- A detached value: tuples and read-only mappings all the way down. -/
inductive Frozen (φ : Type) where
  | none
  | bool (b : Bool)
  | int (n : Int)
  | float (x : φ)
  | str (s : PyText)
  | tuple (items : List (Frozen φ))
  | proxy (fields : List (PyText × Frozen φ))

inductive JsonError where
  | type_error (text : String)
  | value_error
  | recursion_error

/-- How many frames, or how many containers in each other, a walk has room for. -/
structure JsonLimits where
  freeze : Nat
  thaw : Nat
  encode : Nat
  scan : Nat

section

variable {φ : Type} (floats : FloatFormat φ)

mutual

def freezeJsonValue : Nat → PyValue φ → Except JsonError (Frozen φ)
  | 0, _ => .error .recursion_error
  | _ + 1, .none => .ok .none
  | _ + 1, .bool b => .ok (.bool b)
  | _ + 1, .int n => .ok (.int n)
  | _ + 1, .str s => .ok (.str s)
  | _ + 1, .float x =>
    if floats.isFinite x then .ok (.float x)
    else .error (.type_error "JSON value floats must be finite")
  | limit + 1, .mapping items => (freezeMapping limit [] items).map .proxy
  | 1, .list _ | 1, .tuple _ => .error .recursion_error
  | limit + 2, .list items | limit + 2, .tuple items => (freezeItems limit items).map .tuple
  | _ + 1, .foreign type_name => .error (.type_error ("value is not JSON-safe: " ++ type_name))

def freezeItems : Nat → List (PyValue φ) → Except JsonError (List (Frozen φ))
  | _, [] => .ok []
  | limit, v :: rest => do
    let item ← freezeJsonValue limit v
    let more ← freezeItems limit rest
    return item :: more

/-- The loop over the items of a mapping. -/
def freezeMapping : Nat → List (PyText × Frozen φ) → List (MapKey × PyValue φ) →
    Except JsonError (List (PyText × Frozen φ))
  | _, frozen, [] => .ok frozen
  | _, _, (.other _, _) :: _ => .error (.type_error "JSON value mapping keys must be strings")
  | limit, frozen, (.str key, v) :: rest => do
    let item ← freezeJsonValue limit v
    freezeMapping limit (upsert key item frozen) rest

end

mutual

def thawJsonValue : Nat → Frozen φ → Except JsonError (JsonValue φ)
  | 0, _ => .error .recursion_error
  | limit + 1, .proxy fields => (thawFields limit fields).map .obj
  | limit + 1, .tuple items => (thawItems limit items).map .arr
  | _ + 1, .none => .ok .null
  | _ + 1, .bool b => .ok (.bool b)
  | _ + 1, .int n => .ok (.int n)
  | _ + 1, .float x => .ok (.float x)
  | _ + 1, .str s => .ok (.str s)

def thawItems : Nat → List (Frozen φ) → Except JsonError (List (JsonValue φ))
  | _, [] => .ok []
  | limit, v :: rest => do
    let item ← thawJsonValue limit v
    let more ← thawItems limit rest
    return item :: more

def thawFields : Nat → List (PyText × Frozen φ) → Except JsonError (List (PyText × JsonValue φ))
  | _, [] => .ok []
  | limit, (key, v) :: rest => do
    let item ← thawJsonValue limit v
    let more ← thawFields limit rest
    return (key, item) :: more

end

/-- The order of the fields in the text. -/
def arranged (sort_keys : Bool) (v : JsonValue φ) : JsonValue φ :=
  if sort_keys then sortKeys v else v

def encodeJsonValue (limits : JsonLimits) (layout : Layout) (sort_keys : Bool) (v : PyValue φ) :
    Except JsonError (List Char) := do
  let frozen ← freezeJsonValue floats limits.freeze v
  let canonical ← thawJsonValue limits.thaw frozen
  match dumpsWith floats layout limits.encode (arranged sort_keys canonical) with
  | .ok text => .ok text
  | .error .value => .error .value_error
  | .error .recursion => .error .recursion_error

def rejectJsonConstant (value : String) : String := "non-standard JSON constant is invalid: " ++ value

def decodeJsonValue (limits : JsonLimits) (text : List Char) :
    Except (ScanError String) (JsonValue φ) :=
  loads floats (dictHooks rejectJsonConstant) limits.scan text

mutual

/-- What was decoded, as a value to freeze. -/
def PyValue.ofJson : JsonValue φ → PyValue φ
  | .null => .none
  | .bool b => .bool b
  | .int n => .int n
  | .float x => .float x
  | .str s => .str s
  | .arr items => .list (ofJsonItems items)
  | .obj fields => .mapping (ofJsonFields fields)
  | .foreign type_name => .foreign type_name

def PyValue.ofJsonItems : List (JsonValue φ) → List (PyValue φ)
  | [] => []
  | v :: rest => ofJson v :: ofJsonItems rest

def PyValue.ofJsonFields : List (PyText × JsonValue φ) → List (MapKey × PyValue φ)
  | [] => []
  | (key, v) :: rest => (.str key, ofJson v) :: ofJsonFields rest

end

end

/-! ## Freezing and thawing without an interpreter -/

section

variable {φ : Type}

mutual

/-- What thawing makes of a frozen value. -/
def Frozen.thawed : Frozen φ → JsonValue φ
  | .none => .null
  | .bool b => .bool b
  | .int n => .int n
  | .float x => .float x
  | .str s => .str s
  | .tuple items => .arr (thawedItems items)
  | .proxy fields => .obj (thawedFields fields)

def Frozen.thawedItems : List (Frozen φ) → List (JsonValue φ)
  | [] => []
  | v :: rest => thawed v :: thawedItems rest

def Frozen.thawedFields : List (PyText × Frozen φ) → List (PyText × JsonValue φ)
  | [] => []
  | (key, v) :: rest => (key, thawed v) :: thawedFields rest

end

mutual

/-- What freezing makes of a plain value. -/
def Frozen.ofJson : JsonValue φ → Frozen φ
  | .bool b => .bool b
  | .int n => .int n
  | .float x => .float x
  | .str s => .str s
  | .arr items => .tuple (ofJsonItems items)
  | .obj fields => .proxy (ofJsonFields fields)
  | _ => .none

def Frozen.ofJsonItems : List (JsonValue φ) → List (Frozen φ)
  | [] => []
  | v :: rest => ofJson v :: ofJsonItems rest

def Frozen.ofJsonFields : List (PyText × JsonValue φ) → List (PyText × Frozen φ)
  | [] => []
  | (key, v) :: rest => (key, ofJson v) :: ofJsonFields rest

end

mutual

/-- How many frames a walk takes that needs so many more for a sequence. -/
def frames (extra : Nat) : JsonValue φ → Nat
  | .arr items => 1 + extra + framesItems extra items
  | .obj fields => 1 + framesFields extra fields
  | _ => 1

def framesItems (extra : Nat) : List (JsonValue φ) → Nat
  | [] => 0
  | v :: rest => max (frames extra v) (framesItems extra rest)

def framesFields (extra : Nat) : List (PyText × JsonValue φ) → Nat
  | [] => 0
  | (_, v) :: rest => max (frames extra v) (framesFields extra rest)

end

mutual

theorem Frozen.ofJson_thawed : ∀ v : Frozen φ, Frozen.ofJson v.thawed = v
  | .none | .bool _ | .int _ | .float _ | .str _ => rfl
  | .tuple items => congrArg Frozen.tuple (ofJsonItems_thawed items)
  | .proxy fields => congrArg Frozen.proxy (ofJsonFields_thawed fields)

theorem Frozen.ofJsonItems_thawed : ∀ items : List (Frozen φ),
    Frozen.ofJsonItems (thawedItems items) = items
  | [] => rfl
  | v :: rest => by
    rw [thawedItems, ofJsonItems, ofJson_thawed v, ofJsonItems_thawed rest]

theorem Frozen.ofJsonFields_thawed : ∀ fields : List (PyText × Frozen φ),
    Frozen.ofJsonFields (thawedFields fields) = fields
  | [] => rfl
  | (key, v) :: rest => by
    rw [thawedFields, ofJsonFields, ofJson_thawed v, ofJsonFields_thawed rest]

end

variable {floats : FloatFormat φ}

mutual

theorem Frozen.thawed_ofJson : ∀ v : JsonValue φ, finite floats v = true →
    (Frozen.ofJson v).thawed = v
  | .null, _ | .bool _, _ | .int _, _ | .float _, _ | .str _, _ => rfl
  | .foreign _, h => nomatch h
  | .arr items, h => congrArg JsonValue.arr (thawedItems_ofJson items h)
  | .obj fields, h => congrArg JsonValue.obj (thawedFields_ofJson fields h)

theorem Frozen.thawedItems_ofJson : ∀ items : List (JsonValue φ), finiteItems floats items = true →
    Frozen.thawedItems (ofJsonItems items) = items
  | [], _ => rfl
  | v :: rest, h => by
    obtain ⟨hv, hrest⟩ := Bool.and_eq_true_iff.mp h
    rw [ofJsonItems, thawedItems, thawed_ofJson v hv, thawedItems_ofJson rest hrest]

theorem Frozen.thawedFields_ofJson : ∀ fields : List (PyText × JsonValue φ),
    finiteFields floats fields = true → Frozen.thawedFields (ofJsonFields fields) = fields
  | [], _ => rfl
  | (key, v) :: rest, h => by
    obtain ⟨hv, hrest⟩ := Bool.and_eq_true_iff.mp h
    rw [ofJsonFields, thawedFields, thawed_ofJson v hv, thawedFields_ofJson rest hrest]

end

/-! ## Freezing with more frames -/

mutual

/-- **More frames**: freezing goes on where it stopped, and changes nothing else. -/
theorem freezeJsonValue_continues : ∀ (v : PyValue φ) {limit limit' : Nat}, limit ≤ limit' →
    Continues .recursion_error (freezeJsonValue floats limit v) (freezeJsonValue floats limit' v)
  | v, 0, _, _ => .inl (by cases v <;> rfl)
  | _, _ + 1, 0, h => absurd h (Nat.not_succ_le_zero _)
  | .none, _ + 1, _ + 1, _ | .bool _, _ + 1, _ + 1, _ | .int _, _ + 1, _ + 1, _
  | .str _, _ + 1, _ + 1, _ | .float _, _ + 1, _ + 1, _ | .foreign _, _ + 1, _ + 1, _ => .refl _
  | .mapping items, _ + 1, _ + 1, h =>
    (freezeMapping_continues items [] (Nat.le_of_succ_le_succ h)).map Frozen.proxy
  | .list _, 1, _ + 1, _ | .tuple _, 1, _ + 1, _ => .stopped _
  | .list _, _ + 2, 1, h | .tuple _, _ + 2, 1, h =>
    absurd (Nat.le_of_succ_le_succ h) (Nat.not_succ_le_zero _)
  | .list items, _ + 2, _ + 2, h | .tuple items, _ + 2, _ + 2, h =>
    (freezeItems_continues items (Nat.le_of_succ_le_succ (Nat.le_of_succ_le_succ h))).map
      Frozen.tuple

theorem freezeItems_continues : ∀ (items : List (PyValue φ)) {limit limit' : Nat},
    limit ≤ limit' →
      Continues .recursion_error (freezeItems floats limit items) (freezeItems floats limit' items)
  | [], _, _, _ => .refl _
  | v :: rest, _, _, h =>
    (freezeJsonValue_continues v h).bind fun _ _ =>
      (freezeItems_continues rest h).bind fun _ _ => .refl _

theorem freezeMapping_continues : ∀ (items : List (MapKey × PyValue φ))
    (frozen : List (PyText × Frozen φ)) {limit limit' : Nat}, limit ≤ limit' →
      Continues .recursion_error (freezeMapping floats limit frozen items)
        (freezeMapping floats limit' frozen items)
  | [], _, _, _, _ | (.other _, _) :: _, _, _, _, _ => .refl _
  | (.str key, v) :: rest, frozen, _, _, h =>
    (freezeJsonValue_continues v h).bind fun item _ =>
      freezeMapping_continues rest (upsert key item frozen) h

end

/-! ## Thawing -/

mutual

/-- **Thawing** goes through where there are frames enough. -/
theorem thawJsonValue_iff : ∀ (v : Frozen φ) (limit : Nat) (w : JsonValue φ),
    thawJsonValue limit v = .ok w ↔ frames 0 v.thawed ≤ limit ∧ w = v.thawed
  | .none, 0, _ | .bool _, 0, _ | .int _, 0, _ | .float _, 0, _ | .str _, 0, _ | .tuple _, 0, _
  | .proxy _, 0, _ => by
    refine iff_of_false nofun fun h => ?_
    have hframes := h.1
    simp only [Frozen.thawed, frames] at hframes
    omega
  | .none, limit + 1, w | .bool _, limit + 1, w | .int _, limit + 1, w | .float _, limit + 1, w
  | .str _, limit + 1, w => by
    rw [thawJsonValue, Except.ok.injEq]
    exact ⟨fun h => ⟨Nat.le_add_left 1 limit, h.symm⟩, fun h => h.2.symm⟩
  | .tuple items, limit + 1, w => by
    have hitems := thawItems_iff items limit
    rw [thawJsonValue, Frozen.thawed, frames]
    cases hthaw : thawItems limit items with
    | error e =>
      refine iff_of_false nofun fun h => ?_
      rw [(hitems _).mpr ⟨by omega, rfl⟩] at hthaw
      cases hthaw
    | ok items' =>
      obtain ⟨hframes, rfl⟩ := (hitems items').mp hthaw
      show Except.ok (JsonValue.arr (Frozen.thawedItems items)) = _ ↔ _
      rw [Except.ok.injEq]
      exact ⟨fun h => ⟨by omega, h.symm⟩, fun h => h.2.symm⟩
  | .proxy fields, limit + 1, w => by
    have hfields := thawFields_iff fields limit
    rw [thawJsonValue, Frozen.thawed, frames]
    cases hthaw : thawFields limit fields with
    | error e =>
      refine iff_of_false nofun fun h => ?_
      rw [(hfields _).mpr ⟨by omega, rfl⟩] at hthaw
      cases hthaw
    | ok fields' =>
      obtain ⟨hframes, rfl⟩ := (hfields fields').mp hthaw
      show Except.ok (JsonValue.obj (Frozen.thawedFields fields)) = _ ↔ _
      rw [Except.ok.injEq]
      exact ⟨fun h => ⟨by omega, h.symm⟩, fun h => h.2.symm⟩

theorem thawItems_iff : ∀ (items : List (Frozen φ)) (limit : Nat) (items' : List (JsonValue φ)),
    thawItems limit items = .ok items' ↔
      framesItems 0 (Frozen.thawedItems items) ≤ limit ∧ items' = Frozen.thawedItems items
  | [], limit, items' => by
    rw [thawItems, Except.ok.injEq, Frozen.thawedItems, framesItems]
    exact ⟨fun h => ⟨Nat.zero_le _, h.symm⟩, fun h => h.2.symm⟩
  | v :: rest, limit, items' => by
    simp only [thawItems, bind_ok_iff, thawJsonValue_iff v limit, thawItems_iff rest limit,
      Frozen.thawedItems, framesItems, Nat.max_le]
    constructor
    · rintro ⟨w, ⟨hv, rfl⟩, more, ⟨hrest, rfl⟩, h⟩
      cases h
      exact ⟨⟨hv, hrest⟩, rfl⟩
    · rintro ⟨⟨hv, hrest⟩, rfl⟩
      exact ⟨_, ⟨hv, rfl⟩, _, ⟨hrest, rfl⟩, rfl⟩

theorem thawFields_iff : ∀ (fields : List (PyText × Frozen φ)) (limit : Nat)
    (fields' : List (PyText × JsonValue φ)), thawFields limit fields = .ok fields' ↔
      framesFields 0 (Frozen.thawedFields fields) ≤ limit ∧ fields' = Frozen.thawedFields fields
  | [], limit, fields' => by
    rw [thawFields, Except.ok.injEq, Frozen.thawedFields, framesFields]
    exact ⟨fun h => ⟨Nat.zero_le _, h.symm⟩, fun h => h.2.symm⟩
  | (key, v) :: rest, limit, fields' => by
    simp only [thawFields, bind_ok_iff, thawJsonValue_iff v limit, thawFields_iff rest limit,
      Frozen.thawedFields, framesFields, Nat.max_le]
    constructor
    · rintro ⟨w, ⟨hv, rfl⟩, more, ⟨hrest, rfl⟩, h⟩
      cases h
      exact ⟨⟨hv, hrest⟩, rfl⟩
    · rintro ⟨⟨hv, hrest⟩, rfl⟩
      exact ⟨_, ⟨hv, rfl⟩, _, ⟨hrest, rfl⟩, rfl⟩

end

/-! ## Freezing -/

/-- What every frozen value is: finite, its keys unique, and within the frames it took. -/
structure Frozen.Fits (floats : FloatFormat φ) (limit : Nat) (v : Frozen φ) : Prop where
  finite : finite floats v.thawed = true
  unique : uniqueKeys v.thawed
  frames : frames 1 v.thawed ≤ limit

theorem Frozen.fits_tuple {limit : Nat} {items : List (Frozen φ)}
    (h : ∀ v ∈ items, v.Fits floats limit) : (Frozen.tuple items).Fits floats (limit + 2) := by
  have hitems : finiteItems floats (thawedItems items) = true ∧ uniqueItems (thawedItems items) ∧
      framesItems 1 (thawedItems items) ≤ limit := by
    induction items with
    | nil => exact ⟨rfl, trivial, Nat.zero_le _⟩
    | cons v rest ih =>
      obtain ⟨hv, hrest⟩ := List.forall_mem_cons.mp h
      obtain ⟨hfinite, hunique, hframes⟩ := ih hrest
      rw [thawedItems, finiteItems, uniqueItems, framesItems, hv.finite, Nat.max_le]
      exact ⟨hfinite, ⟨hv.unique, hunique⟩, hv.frames, hframes⟩
  obtain ⟨hfinite, hunique, hframes⟩ := hitems
  refine ⟨hfinite, hunique, ?_⟩
  rw [thawed, NuSelf.Runtime.frames]
  omega

theorem Frozen.thawedFields_keys : ∀ fields : List (PyText × Frozen φ),
    (thawedFields fields).map Prod.fst = fields.map Prod.fst
  | [] => rfl
  | (key, _) :: rest => congrArg (key :: ·) (thawedFields_keys rest)

theorem Frozen.fits_proxy {limit : Nat} {fields : List (PyText × Frozen φ)}
    (hkeys : (fields.map Prod.fst).Nodup) (h : ∀ field ∈ fields, field.2.Fits floats limit) :
    (Frozen.proxy fields).Fits floats (limit + 1) := by
  have hfields : finiteFields floats (thawedFields fields) = true ∧
      uniqueFields (thawedFields fields) ∧ framesFields 1 (thawedFields fields) ≤ limit := by
    clear hkeys
    induction fields with
    | nil => exact ⟨rfl, trivial, Nat.zero_le _⟩
    | cons field rest ih =>
      obtain ⟨key, v⟩ := field
      obtain ⟨hv, hrest⟩ := List.forall_mem_cons.mp h
      obtain ⟨hfinite, hunique, hframes⟩ := ih hrest
      rw [thawedFields, finiteFields, uniqueFields, framesFields, hv.finite, Nat.max_le]
      exact ⟨hfinite, ⟨hv.unique, hunique⟩, hv.frames, hframes⟩
  obtain ⟨hfinite, hunique, hframes⟩ := hfields
  refine ⟨hfinite, ⟨?_, hunique⟩, ?_⟩
  · rw [thawedFields_keys]
    exact hkeys
  · rw [thawed, NuSelf.Runtime.frames]
    omega

mutual

/-- **What is frozen** fits. -/
theorem freezeJsonValue_spec : ∀ (v : PyValue φ) (limit : Nat) (frozen : Frozen φ),
    freezeJsonValue floats limit v = .ok frozen → frozen.Fits floats limit
  | .none, 0, _, h | .bool _, 0, _, h | .int _, 0, _, h | .float _, 0, _, h | .str _, 0, _, h
  | .list _, 0, _, h | .tuple _, 0, _, h | .mapping _, 0, _, h | .foreign _, 0, _, h => nomatch h
  | .none, limit + 1, _, h | .bool _, limit + 1, _, h | .int _, limit + 1, _, h
  | .str _, limit + 1, _, h => by
    cases h
    exact ⟨rfl, trivial, Nat.le_add_left 1 limit⟩
  | .float x, limit + 1, _, h => by
    rw [freezeJsonValue] at h
    split at h
    · rename_i hfinite
      cases h
      exact ⟨hfinite, trivial, Nat.le_add_left 1 limit⟩
    · cases h
  | .foreign _, limit + 1, _, h => nomatch h
  | .list _, 1, _, h | .tuple _, 1, _, h => nomatch h
  | .list items, limit + 2, _, h | .tuple items, limit + 2, _, h => by
    rw [freezeJsonValue] at h
    cases hitems : freezeItems floats limit items with
    | error e => rw [hitems] at h; cases h
    | ok frozen =>
      rw [hitems] at h
      cases h
      exact Frozen.fits_tuple (freezeItems_spec items limit frozen hitems)
  | .mapping items, limit + 1, _, h => by
    rw [freezeJsonValue] at h
    cases hitems : freezeMapping floats limit [] items with
    | error e => rw [hitems] at h; cases h
    | ok frozen =>
      rw [hitems] at h
      cases h
      obtain ⟨hkeys, hfits⟩ := freezeMapping_spec items limit [] frozen List.nodup_nil
        (fun _ hmem => absurd hmem List.not_mem_nil) hitems
      exact Frozen.fits_proxy hkeys hfits

theorem freezeItems_spec : ∀ (items : List (PyValue φ)) (limit : Nat) (frozen : List (Frozen φ)),
    freezeItems floats limit items = .ok frozen → ∀ v ∈ frozen, v.Fits floats limit
  | [], limit, frozen, h => by
    cases h
    exact fun _ hmem => absurd hmem List.not_mem_nil
  | v :: rest, limit, frozen, h => by
    rw [freezeItems] at h
    obtain ⟨item, hitem, h⟩ := bind_ok h
    obtain ⟨more, hmore, h⟩ := bind_ok h
    cases h
    exact List.forall_mem_cons.mpr
      ⟨freezeJsonValue_spec v limit item hitem, freezeItems_spec rest limit more hmore⟩

theorem freezeMapping_spec : ∀ (items : List (MapKey × PyValue φ)) (limit : Nat)
    (before frozen : List (PyText × Frozen φ)), (before.map Prod.fst).Nodup →
      (∀ field ∈ before, field.2.Fits floats limit) →
        freezeMapping floats limit before items = .ok frozen →
          (frozen.map Prod.fst).Nodup ∧ ∀ field ∈ frozen, field.2.Fits floats limit
  | [], limit, before, frozen, hkeys, hbefore, h => by
    cases h
    exact ⟨hkeys, hbefore⟩
  | (.other _, _) :: _, _, _, _, _, _, h => nomatch h
  | (.str key, v) :: rest, limit, before, frozen, hkeys, hbefore, h => by
    rw [freezeMapping] at h
    obtain ⟨item, hitem, h⟩ := bind_ok h
    have hfits := freezeJsonValue_spec v limit item hitem
    refine freezeMapping_spec rest limit _ frozen (nodup_upsert hkeys) (fun field hfield => ?_) h
    rcases mem_upsert hfield with rfl | hold
    · exact hfits
    · exact hbefore field hold

end

mutual

/-- **A plain value is frozen** if it is finite and there are frames enough. -/
theorem freezeJsonValue_ofJson : ∀ (w : JsonValue φ) (limit : Nat) (frozen : Frozen φ),
    uniqueKeys w → (freezeJsonValue floats limit (.ofJson w) = .ok frozen ↔
      (finite floats w = true ∧ frames 1 w ≤ limit) ∧ frozen = Frozen.ofJson w)
  | .null, 0, _, _ | .bool _, 0, _, _ | .int _, 0, _, _ | .float _, 0, _, _ | .str _, 0, _, _
  | .foreign _, 0, _, _ => iff_of_false nofun fun h => absurd h.1.2 (Nat.not_succ_le_zero _)
  | .arr items, 0, _, _ | .obj fields, 0, _, _ => by
    refine iff_of_false nofun fun h => ?_
    have hframes := h.1.2
    simp only [frames] at hframes
    omega
  | .null, limit + 1, frozen, _ | .bool _, limit + 1, frozen, _ | .int _, limit + 1, frozen, _
  | .str _, limit + 1, frozen, _ => by
    rw [PyValue.ofJson, freezeJsonValue, Except.ok.injEq]
    exact ⟨fun h => ⟨⟨rfl, Nat.le_add_left 1 limit⟩, h.symm⟩, fun h => h.2.symm⟩
  | .float x, limit + 1, frozen, _ => by
    rw [PyValue.ofJson, freezeJsonValue, finite]
    split
    · rename_i hfinite
      rw [Except.ok.injEq]
      exact ⟨fun h => ⟨⟨hfinite, Nat.le_add_left 1 limit⟩, h.symm⟩, fun h => h.2.symm⟩
    · rename_i hinfinite
      exact iff_of_false nofun fun h => hinfinite h.1.1
  | .foreign _, limit + 1, frozen, _ => iff_of_false nofun fun h => nomatch h.1.1
  | .arr items, 1, frozen, _ => by
    refine iff_of_false nofun fun h => ?_
    have hframes := h.1.2
    simp only [frames] at hframes
    omega
  | .arr items, limit + 2, frozen, hunique => by
    have hitems := freezeItems_ofJson items limit
    rw [PyValue.ofJson, freezeJsonValue, finite, frames, Frozen.ofJson]
    cases hfreeze : freezeItems floats limit (PyValue.ofJsonItems items) with
    | error e =>
      refine iff_of_false nofun fun h => ?_
      rw [(hitems _ hunique).mpr ⟨⟨h.1.1, by omega⟩, rfl⟩] at hfreeze
      cases hfreeze
    | ok items' =>
      obtain ⟨⟨hfinite, hframes⟩, rfl⟩ := (hitems items' hunique).mp hfreeze
      show Except.ok (Frozen.tuple (Frozen.ofJsonItems items)) = _ ↔ _
      rw [Except.ok.injEq]
      exact ⟨fun h => ⟨⟨hfinite, by omega⟩, h.symm⟩, fun h => h.2.symm⟩
  | .obj fields, limit + 1, frozen, hunique => by
    have hfields := fun frozen' =>
      freezeMapping_ofJson fields limit [] frozen' hunique.1 hunique.2
    rw [PyValue.ofJson, freezeJsonValue, finite, frames, Frozen.ofJson]
    cases hfreeze : freezeMapping floats limit [] (PyValue.ofJsonFields fields) with
    | error e =>
      refine iff_of_false nofun fun h => ?_
      rw [(hfields _).mpr ⟨⟨h.1.1, by omega⟩, rfl⟩] at hfreeze
      cases hfreeze
    | ok fields' =>
      obtain ⟨⟨hfinite, hframes⟩, rfl⟩ := (hfields fields').mp hfreeze
      show Except.ok (Frozen.proxy (Frozen.ofJsonFields fields)) = _ ↔ _
      rw [Except.ok.injEq]
      exact ⟨fun h => ⟨⟨hfinite, by omega⟩, h.symm⟩, fun h => h.2.symm⟩

theorem freezeItems_ofJson : ∀ (items : List (JsonValue φ)) (limit : Nat)
    (frozen : List (Frozen φ)), uniqueItems items →
      (freezeItems floats limit (PyValue.ofJsonItems items) = .ok frozen ↔
        (finiteItems floats items = true ∧ framesItems 1 items ≤ limit) ∧
          frozen = Frozen.ofJsonItems items)
  | [], limit, frozen, _ => by
    rw [PyValue.ofJsonItems, freezeItems, Except.ok.injEq]
    exact ⟨fun h => ⟨⟨rfl, Nat.zero_le _⟩, h.symm⟩, fun h => h.2.symm⟩
  | v :: rest, limit, frozen, hunique => by
    have hv := fun item => freezeJsonValue_ofJson v limit item hunique.1
    have hrest := fun more => freezeItems_ofJson rest limit more hunique.2
    simp only [PyValue.ofJsonItems, freezeItems, bind_ok_iff, hv, hrest, finiteItems, framesItems,
      Frozen.ofJsonItems, Nat.max_le, Bool.and_eq_true]
    constructor
    · rintro ⟨item, ⟨⟨hfinite, hframes⟩, rfl⟩, more, ⟨⟨hfinites, hframess⟩, rfl⟩, h⟩
      cases h
      exact ⟨⟨⟨hfinite, hfinites⟩, hframes, hframess⟩, rfl⟩
    · rintro ⟨⟨⟨hfinite, hfinites⟩, hframes, hframess⟩, rfl⟩
      exact ⟨_, ⟨⟨hfinite, hframes⟩, rfl⟩, _, ⟨⟨hfinites, hframess⟩, rfl⟩, rfl⟩

theorem freezeMapping_ofJson : ∀ (fields : List (PyText × JsonValue φ)) (limit : Nat)
    (before frozen : List (PyText × Frozen φ)),
      (before.map Prod.fst ++ fields.map Prod.fst).Nodup → uniqueFields fields →
        (freezeMapping floats limit before (PyValue.ofJsonFields fields) = .ok frozen ↔
          (finiteFields floats fields = true ∧ framesFields 1 fields ≤ limit) ∧
            frozen = before ++ Frozen.ofJsonFields fields)
  | [], limit, before, frozen, _, _ => by
    rw [PyValue.ofJsonFields, freezeMapping, Except.ok.injEq, Frozen.ofJsonFields,
      List.append_nil]
    exact ⟨fun h => ⟨⟨rfl, Nat.zero_le _⟩, h.symm⟩, fun h => h.2.symm⟩
  | (key, v) :: rest, limit, before, frozen, hkeys, hunique => by
    have hv := fun item => freezeJsonValue_ofJson v limit item hunique.1
    have hnew : key ∉ before.map Prod.fst := fun hmem =>
      (List.nodup_append.mp hkeys).2.2 _ hmem _ List.mem_cons_self rfl
    have hrest : ∀ item frozen, freezeMapping floats limit (upsert key item before)
        (PyValue.ofJsonFields rest) = .ok frozen ↔
          (finiteFields floats rest = true ∧ framesFields 1 rest ≤ limit) ∧
            frozen = (before ++ [(key, item)]) ++ Frozen.ofJsonFields rest := by
      intro item frozen
      rw [upsert_new hnew]
      refine freezeMapping_ofJson rest limit (before ++ [(key, item)]) frozen ?_ hunique.2
      rw [List.map_append, List.append_assoc]
      exact hkeys
    simp only [PyValue.ofJsonFields, freezeMapping, bind_ok_iff, hv, hrest, finiteFields,
      framesFields, Frozen.ofJsonFields, Nat.max_le, Bool.and_eq_true, List.append_assoc,
      List.cons_append, List.nil_append]
    constructor
    · rintro ⟨item, ⟨⟨hfinite, hframes⟩, rfl⟩, ⟨hfinites, hframess⟩, rfl⟩
      exact ⟨⟨⟨hfinite, hfinites⟩, hframes, hframess⟩, rfl⟩
    · rintro ⟨⟨⟨hfinite, hfinites⟩, hframes, hframess⟩, rfl⟩
      exact ⟨_, ⟨⟨hfinite, hframes⟩, rfl⟩, ⟨hfinites, hframess⟩, rfl⟩

end

/-- **Freezing again** what a frozen value was thawed to. -/
theorem refreeze {limit : Nat} {v : PyValue φ} {frozen : Frozen φ}
    (h : freezeJsonValue floats limit v = .ok frozen) :
    freezeJsonValue floats limit (.ofJson frozen.thawed) = .ok frozen := by
  obtain ⟨hfinite, hunique, hframes⟩ := freezeJsonValue_spec v limit frozen h
  exact (freezeJsonValue_ofJson _ limit _ hunique).mpr
    ⟨⟨hfinite, hframes⟩, (Frozen.ofJson_thawed frozen).symm⟩

/-! ## Texts -/

theorem nesting_arranged (sort_keys : Bool) (v : JsonValue φ) :
    nesting (arranged sort_keys v) = nesting v := by
  cases sort_keys with
  | false => rfl
  | true => exact nesting_sortKeys v

theorem clean_arranged (sort_keys : Bool) (v : JsonValue φ) :
    clean floats (arranged sort_keys v) = clean floats v := by
  cases sort_keys with
  | false => rfl
  | true => exact clean_sortKeys v

theorem sortKeys_arranged (sort_keys : Bool) (v : JsonValue φ) :
    sortKeys (arranged sort_keys v) = sortKeys v := by
  cases sort_keys with
  | false => rfl
  | true => exact sortKeys_sortKeys v

theorem uniqueKeys_arranged (sort_keys : Bool) {v : JsonValue φ} (h : uniqueKeys v) :
    uniqueKeys (arranged sort_keys v) := by
  cases sort_keys with
  | false => exact h
  | true => exact uniqueKeys_sortKeys v h

theorem joinAll_arranged_iff (sort_keys : Bool) (v : JsonValue φ) :
    joinAll (arranged sort_keys v) = arranged sort_keys v ↔ joinAll v = v := by
  cases sort_keys with
  | false => exact Iff.rfl
  | true => exact joinAll_sortKeys_iff v

/-- What it takes for a thawed value to have a text. -/
structure Writable (floats : FloatFormat φ) (limits : JsonLimits) (v : JsonValue φ) : Prop where
  clean : clean floats v = true
  thaw : frames 0 v ≤ limits.thaw
  encode : nesting v ≤ limits.encode

variable {limits : JsonLimits} {layout : Layout} {sort_keys : Bool}

theorem dumpsWith_iff {limit : Nat} {v : JsonValue φ} {text : List Char} :
    dumpsWith floats layout limit v = .ok text ↔
      (clean floats v = true ∧ nesting v ≤ limit) ∧ text = renderWith floats layout 0 v := by
  rw [dumpsWith, bind_ok_iff, ← dumpsCheck_iff]
  constructor
  · rintro ⟨_, hcheck, h⟩
    exact ⟨hcheck, (Except.ok.inj h).symm⟩
  · rintro ⟨hcheck, rfl⟩
    exact ⟨(), hcheck, rfl⟩

/-- **There is a text** of a value that is frozen, if what it thaws to is writable. -/
theorem encodeJsonValue_ok_iff {v : PyValue φ} {frozen : Frozen φ}
    (h : freezeJsonValue floats limits.freeze v = .ok frozen) (text : List Char) :
    encodeJsonValue floats limits layout sort_keys v = .ok text ↔
      Writable floats limits frozen.thawed ∧
        text = renderWith floats layout 0 (arranged sort_keys frozen.thawed) := by
  rw [encodeJsonValue, h, ok_bind, bind_ok_iff]
  simp only [thawJsonValue_iff]
  constructor
  · rintro ⟨_, ⟨hthaw, rfl⟩, hdumps⟩
    split at hdumps
    · rename_i written hwritten
      obtain ⟨⟨hclean, hdeep⟩, rfl⟩ := dumpsWith_iff.mp hwritten
      rw [clean_arranged] at hclean
      rw [nesting_arranged] at hdeep
      exact ⟨⟨hclean, hthaw, hdeep⟩, (Except.ok.inj hdumps).symm⟩
    · cases hdumps
    · cases hdumps
  · rintro ⟨⟨hclean, hthaw, hdeep⟩, rfl⟩
    have hwritten : dumpsWith floats layout limits.encode (arranged sort_keys frozen.thawed) =
        .ok _ := dumpsWith_iff.mpr ⟨⟨(clean_arranged sort_keys _).trans hclean,
          (nesting_arranged sort_keys frozen.thawed).le.trans hdeep⟩, rfl⟩
    refine ⟨_, ⟨hthaw, rfl⟩, ?_⟩
    rw [hwritten]

theorem decodeJsonValue_renderWith {v : JsonValue φ} (hclean : clean floats v = true) :
    decodeJsonValue floats limits (renderWith floats layout 0 v) =
      reread (dictHooks rejectJsonConstant) limits.scan v := by
  rw [decodeJsonValue, ← List.append_nil (renderWith floats layout 0 v)]
  exact loads_renderWith hclean limits.scan rfl nofun

/-- **A text is read back** as the value that it was written from, if there is no pair of surrogates
    in it and it does not nest too deep for the scanner. -/
theorem decodeJsonValue_text {v : JsonValue φ} (hclean : clean floats v = true)
    (hunique : uniqueKeys v) :
    (∃ w, decodeJsonValue floats limits (renderWith floats layout 0 (arranged sort_keys v)) = .ok w ∧
      sortKeys w = sortKeys v) ↔ joinAll v = v ∧ nesting v ≤ limits.scan := by
  rw [decodeJsonValue_renderWith ((clean_arranged sort_keys v).trans hclean)]
  constructor
  · rintro ⟨w, hw, hsame⟩
    have hdeep := reread_nesting hw
    have hread : decodeJsonValue floats limits
        (renderWith floats layout 0 (arranged sort_keys v)) = .ok w :=
      (decodeJsonValue_renderWith ((clean_arranged sort_keys v).trans hclean)).trans hw
    have hjoined := ((dict_invariant floats rejectJsonConstant).loads hread).2.joined
    rw [← joinAll_sortKeys_iff, hsame, joinAll_sortKeys_iff] at hjoined
    rw [nesting_arranged] at hdeep
    exact ⟨hjoined, hdeep⟩
  · rintro ⟨hjoined, hdeep⟩
    refine ⟨arranged sort_keys v, ?_, sortKeys_arranged sort_keys v⟩
    exact reread_dict _ _ (uniqueKeys_arranged sort_keys hunique)
      ((joinAll_arranged_iff sort_keys v).mpr hjoined)
      ((nesting_arranged sort_keys v).le.trans hdeep)

/-- **A text is read back** field by field. -/
theorem decodeJsonValue_self_iff {v : JsonValue φ} (hclean : clean floats v = true)
    (hunique : uniqueKeys v) :
    decodeJsonValue floats limits (renderWith floats layout 0 v) = .ok v ↔
      joinAll v = v ∧ nesting v ≤ limits.scan := by
  constructor
  · intro h
    have hread : decodeJsonValue floats limits
        (renderWith floats layout 0 (arranged false v)) = .ok v := h
    exact (decodeJsonValue_text hclean hunique).mp ⟨v, hread, rfl⟩
  · rintro ⟨hjoined, hdeep⟩
    rw [decodeJsonValue_renderWith hclean]
    exact reread_dict _ _ hunique hjoined hdeep

/-- **A plain value with a text** is writable. -/
theorem encodeJsonValue_ofJson {w : JsonValue φ} (hunique : uniqueKeys w) {text : List Char}
    (h : encodeJsonValue floats limits layout sort_keys (.ofJson w) = .ok text) :
    Writable floats limits w ∧ text = renderWith floats layout 0 (arranged sort_keys w) := by
  obtain ⟨frozen, hfreeze, -⟩ := bind_ok h
  obtain ⟨⟨hfinite, -⟩, rfl⟩ := (freezeJsonValue_ofJson w _ frozen hunique).mp hfreeze
  have hok := (encodeJsonValue_ok_iff hfreeze text).mp h
  rw [Frozen.thawed_ofJson w hfinite] at hok
  exact hok

/-! ## The codec -/

/-- What it takes for a frozen value to come back from its text. -/
structure Kept (floats : FloatFormat φ) (limits : JsonLimits) (frozen : Frozen φ) : Prop where
  writable : Writable floats limits frozen.thawed
  joined : joinAll frozen.thawed = frozen.thawed
  scan : nesting frozen.thawed ≤ limits.scan

/-- What it takes for a value that was read to be frozen and written. -/
structure Reusable (floats : FloatFormat φ) (limits : JsonLimits) (w : JsonValue φ) : Prop where
  finite : finite floats w = true
  freeze : frames 1 w ≤ limits.freeze
  thaw : frames 0 w ≤ limits.thaw
  encode : nesting w ≤ limits.encode

/-- **The codec of JSON values**: what comes back from a text, that freezing is stable, and which
    values that were read can be written. -/
theorem json_codec_iff (floats : FloatFormat φ) (limits : JsonLimits) :
    (∀ (v : PyValue φ) (frozen : Frozen φ),
      freezeJsonValue floats limits.freeze v = .ok frozen →
        (∀ (layout : Layout) (sort_keys : Bool),
          (∃ canonical text w, thawJsonValue limits.thaw frozen = .ok canonical ∧
            encodeJsonValue floats limits layout sort_keys v = .ok text ∧
              decodeJsonValue floats limits text = .ok w ∧ sortKeys w = sortKeys canonical) ↔
                Kept floats limits frozen) ∧
        ∀ canonical, thawJsonValue limits.thaw frozen = .ok canonical →
          freezeJsonValue floats limits.freeze (.ofJson canonical) = .ok frozen) ∧
    ∀ (text : List Char) (w : JsonValue φ), decodeJsonValue floats limits text = .ok w →
      ∀ (layout : Layout) (sort_keys : Bool),
        (∃ frozen written, freezeJsonValue floats limits.freeze (.ofJson w) = .ok frozen ∧
          encodeJsonValue floats limits layout sort_keys (.ofJson w) = .ok written) ↔
            Reusable floats limits w := by
  constructor
  · intro v frozen hfreeze
    obtain ⟨-, hunique, -⟩ := freezeJsonValue_spec v limits.freeze frozen hfreeze
    refine ⟨fun layout sort_keys => ?_, fun canonical hthaw => ?_⟩
    · constructor
      · rintro ⟨canonical, text, w, hthaw, hencode, hdecode, hsame⟩
        obtain ⟨-, rfl⟩ := (thawJsonValue_iff frozen limits.thaw canonical).mp hthaw
        obtain ⟨hwritable, rfl⟩ := (encodeJsonValue_ok_iff hfreeze text).mp hencode
        obtain ⟨hjoined, hscan⟩ :=
          (decodeJsonValue_text hwritable.clean hunique).mp ⟨w, hdecode, hsame⟩
        exact ⟨hwritable, hjoined, hscan⟩
      · rintro ⟨hwritable, hjoined, hscan⟩
        have hthaw := (thawJsonValue_iff frozen limits.thaw _).mpr ⟨hwritable.thaw, rfl⟩
        have hencode : encodeJsonValue floats limits layout sort_keys v = .ok _ :=
          (encodeJsonValue_ok_iff hfreeze _).mpr ⟨hwritable, rfl⟩
        obtain ⟨w, hdecode, hsame⟩ :=
          (decodeJsonValue_text hwritable.clean hunique).mpr ⟨hjoined, hscan⟩
        exact ⟨_, _, w, hthaw, hencode, hdecode, hsame⟩
    · obtain ⟨-, rfl⟩ := (thawJsonValue_iff frozen limits.thaw canonical).mp hthaw
      exact refreeze hfreeze
  · intro text w hdecode layout sort_keys
    have hread := ((dict_invariant floats rejectJsonConstant).loads hdecode).2
    have hfreeze : ∀ frozen, freezeJsonValue floats limits.freeze (.ofJson w) = .ok frozen ↔ _ :=
      fun frozen => freezeJsonValue_ofJson w limits.freeze frozen hread.unique
    constructor
    · rintro ⟨frozen, written, hfrozen, hwritten⟩
      obtain ⟨⟨hfinite, hframes⟩, rfl⟩ := (hfreeze frozen).mp hfrozen
      obtain ⟨hwritable, -⟩ := (encodeJsonValue_ok_iff hfrozen written).mp hwritten
      rw [Frozen.thawed_ofJson w hfinite] at hwritable
      exact ⟨hfinite, hframes, hwritable.thaw, hwritable.encode⟩
    · rintro ⟨hfinite, hframes, hthaw, hencode⟩
      have hfrozen := (hfreeze _).mpr ⟨⟨hfinite, hframes⟩, rfl⟩
      refine ⟨_, _, hfrozen, (encodeJsonValue_ok_iff hfrozen _).mpr ⟨?_, rfl⟩⟩
      rw [Frozen.thawed_ofJson w hfinite]
      exact ⟨hread.clean_eq.trans hfinite, hthaw, hencode⟩

end

/-! ## Where it holds, and where not -/

/-- Floats of which only zero and infinity are told apart: `1e999` is too large. -/
def overflowFormat : FloatFormat Bool where
  parse lit := lit.exponent == none
  repr _ := { whole := ['0'], fraction := ['0'] }
  isFinite x := x
  repr_wellFormed _ _ :=
    { whole_digits := List.all_eq_true.mp rfl, no_leading_zero := Or.inl rfl
      fraction_digits := List.all_eq_true.mp rfl, exponent_digits := nofun }
  repr_isFloat _ _ := rfl
  parse_repr _ h := h.symm

def stockLimits : JsonLimits where
  freeze := 1000
  thaw := 1000
  encode := 1000
  scan := 1000

/-- A mapping with a list in it. -/
def listed : PyValue Bool := .mapping [(.str (pyText "a"), .list [.int 1, .none])]

def listedFrozen : Frozen Bool := .proxy [(pyText "a", .tuple [.int 1, .none])]

/-- It comes back from its text; and what is read from a text can be written. -/
theorem json_codec_listed :
    (∃ canonical text w, thawJsonValue stockLimits.thaw listedFrozen = .ok canonical ∧
      encodeJsonValue overflowFormat stockLimits (.plain none) true listed = .ok text ∧
        decodeJsonValue overflowFormat stockLimits text = .ok w ∧
          sortKeys w = sortKeys canonical) ∧
      freezeJsonValue overflowFormat stockLimits.freeze (.ofJson listedFrozen.thawed) =
        .ok listedFrozen ∧
      ∃ frozen written, freezeJsonValue overflowFormat stockLimits.freeze
          (.ofJson (.arr [.float true, .null])) = .ok frozen ∧
        encodeJsonValue overflowFormat stockLimits .compact false
          (.ofJson (.arr [.float true, .null])) = .ok written := by
  have hcodec := json_codec_iff overflowFormat stockLimits
  have hlisted := hcodec.1 listed listedFrozen rfl
  refine ⟨(hlisted.1 _ _).mpr ⟨⟨by decide, by decide, by decide⟩, rfl, by decide⟩,
    hlisted.2 _ rfl, ?_⟩
  have hread : decodeJsonValue overflowFormat stockLimits "[0.0, null]".toList =
      .ok (.arr [.float true, .null]) := by rfl
  exact (hcodec.2 _ _ hread _ _).mpr ⟨rfl, by decide, by decide, by decide⟩

/-- A number that is too large is read as infinity, which cannot be frozen; and the two surrogates
    of a character come back as the character. -/
theorem json_codec_broken :
    (∃ w, decodeJsonValue overflowFormat stockLimits "1e999".toList = .ok w ∧
      freezeJsonValue overflowFormat stockLimits.freeze (.ofJson w) =
        .error (.type_error "JSON value floats must be finite")) ∧
    ∃ text, encodeJsonValue overflowFormat stockLimits .compact false
        (.str [.surrogate 0x3d, .surrogate 0x600]) = .ok text ∧
      decodeJsonValue overflowFormat stockLimits text = .ok (.str [.char (Char.ofNat 0x1f600)]) := by
  exact ⟨⟨.float false, by rfl, rfl⟩, _, rfl, by rfl⟩

end NuSelf.Runtime
