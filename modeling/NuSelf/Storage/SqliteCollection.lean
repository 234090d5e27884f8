/-
  `SqliteCollection`: records by their ids, each as the JSON text of its payload.

  On the way in a record passes the freezer and the encoder, on the way out the decoder of a row,
  which is stricter: it refuses the empty id, and a payload that the scanner does not bring back as
  it was.  So a put that is accepted keeps its promise exactly if it is `Storable`.

  1. `stored_ok` — what an accepted put writes.
  2. `decode_stored_iff` — the crux: when the row is read back as what was put.
  3. `decodeRows_iff` — a listing is made row by row; `list_set`, `list_erase` — how a listing
     changes with one row.
  4. `run_listable` — in a run of storable puts no listing fails.
  5. `collection_is_map_iff` — the collection is a map as long as what is put is storable.

  `check` stands for what SQLite asks of a payload (`json_valid`, its limits on depth and length).
  Locks and the commit that ends a standalone write are left out.
-/
import NuSelf.Runtime.Messages

namespace NuSelf.Storage.Sqlite

open NuSelf.Lib NuSelf.Lib.JsonValue NuSelf.Runtime

/-! ## Rows and records -/

/-- A text as a parameter of a statement; a surrogate cannot be bound. -/
def boundText : PyText → Option (List Char)
  | [] => some []
  | .char c :: rest => (boundText rest).map (c :: ·)
  | .surrogate _ :: _ => none

/-- The table `records`: collection and id, and the text of the payload. -/
abbrev Rows := Table (String × List Char) (List Char)

/-- `{"id": id, **payload}`. -/
structure Record (φ : Type) where
  id : PyText
  payload : List (PyText × JsonValue φ)
  no_id : pyText "id" ∉ payload.map Prod.fst

inductive StorageError where
  /-- The id of the record is not its key. -/
  | record_id
  /-- `UnicodeEncodeError` of a key that cannot be bound. -/
  | unicode
  /-- `CHECK` fails, or the text is too long. -/
  | integrity
  | json (e : JsonError)
  /-- `ValueError` of a row that is not a record. -/
  | stored_row
  | recursion

section

variable {φ : Type} (floats : FloatFormat φ) (limits : JsonLimits) (check : List Char → Bool)
  (collection : String)

/-! ## Reading -/

def decode (record_id : PyText) (payload_text : List Char) : Except StorageError (Record φ) :=
  if record_id = [] then .error .stored_row
  else
    match decodeJsonValue floats limits payload_text with
    | .error .recursion => .error .recursion
    | .error _ => .error .stored_row
    | .ok (.obj payload) =>
      if h : pyText "id" ∉ payload.map Prod.fst then .ok { id := record_id, payload, no_id := h }
      else .error .stored_row
    | .ok _ => .error .stored_row

def get (rows : Rows) (key : PyText) : Except StorageError (Option (Record φ)) :=
  match boundText key with
  | none => .error .unicode
  | some id =>
    match rows.get (collection, id) with
    | none => .ok none
    | some payload_text => (decode floats limits (id.map .char) payload_text).map some

/-- The records of a collection, and the ids of the rows that are reported as corrupt. -/
structure Listing (φ : Type) where
  items : List (Record φ)
  corrupt : List PyText

/-- `_decode_rows`: a `ValueError` is reported, a `RecursionError` is not caught. -/
def decodeRows : List ((String × List Char) × List Char) → Except StorageError (Listing φ)
  | [] => .ok { items := [], corrupt := [] }
  | ((_, id), payload_text) :: rest =>
    match decode floats limits (id.map .char) payload_text with
    | .ok item => (decodeRows rest).map fun listing =>
      { listing with items := item :: listing.items }
    | .error .recursion => .error .recursion
    | .error _ => (decodeRows rest).map fun listing =>
      { listing with corrupt := id.map .char :: listing.corrupt }

def list (rows : Rows) : Except StorageError (Listing φ) :=
  decodeRows floats limits (rows.rows.filter fun row => decide (row.1.1 = collection))

/-! ## Writing -/

/-- `value.get("id")`. -/
def givenId (value : List (MapKey × PyValue φ)) : Option (PyValue φ) :=
  value.findSome? fun
    | (.str key, v) => if key = pyText "id" then some v else none
    | (.other _, _) => none

/-- The id that comes with a record is missing, `None` or the key. -/
def idMatches (key : PyText) (value : List (MapKey × PyValue φ)) : Bool :=
  match givenId value with
  | none | some .none => true
  | some (.str value_id) => decide (value_id = key)
  | some _ => false

/-- The fields of the thawed value, but for the id. -/
def payloadOf : JsonValue φ → List (PyText × JsonValue φ)
  | .obj validated => validated.filter fun field => decide (field.1 ≠ pyText "id")
  | _ => []

/-- The row that `put` writes, as its id and its text. -/
def stored (key : PyText) (value : List (MapKey × PyValue φ)) :
    Except StorageError (List Char × List Char) := do
  if idMatches key value then
    let frozen ← (freezeJsonValue floats limits.freeze (.mapping value)).mapError .json
    let validated ← (thawJsonValue limits.thaw frozen).mapError .json
    let text ← (encodeJsonValue floats limits .compact false
      (.ofJson (.obj (payloadOf validated)))).mapError .json
    match boundText key with
    | none => .error .unicode
    | some id => if check text then .ok (id, text) else .error .integrity
  else .error .record_id

def put (rows : Rows) (key : PyText) (value : List (MapKey × PyValue φ)) :
    Except StorageError Rows :=
  (stored floats limits check key value).map fun (id, text) => rows.set (collection, id) text

def delete (rows : Rows) (key : PyText) : Except StorageError Rows :=
  match boundText key with
  | none => .error .unicode
  | some id => .ok (rows.erase (collection, id))

/-! ## Runs -/

inductive Operation (φ : Type) where
  | put (key : PyText) (value : List (MapKey × PyValue φ))
  | delete (key : PyText)

def Operation.call (rows : Rows) : Operation φ → Except StorageError Rows
  | .put key value => Sqlite.put floats limits check collection rows key value
  | .delete key => Sqlite.delete collection rows key

/-- What is left in the table; an operation that raises leaves it alone. -/
def perform (rows : Rows) (op : Operation φ) : Rows :=
  match op.call floats limits check collection rows with
  | .ok rows' => rows'
  | .error _ => rows

def run (rows : Rows) (ops : List (Operation φ)) : Rows :=
  ops.foldl (perform floats limits check collection) rows

theorem payloadOf_no_id (v : JsonValue φ) : pyText "id" ∉ (payloadOf v).map Prod.fst := by
  rintro hmem
  obtain ⟨field, hfield, hid⟩ := List.mem_map.mp hmem
  cases v with
  | obj validated => exact of_decide_eq_true (List.mem_filter.mp hfield).2 hid
  | null => cases hfield
  | bool b => cases hfield
  | int n => cases hfield
  | float x => cases hfield
  | str s => cases hfield
  | arr items => cases hfield
  | foreign name => cases hfield

/-- The record that a put is about: what it was given, frozen and thawed, under its key. -/
def normalised (key : PyText) (value : List (MapKey × PyValue φ)) :
    Except JsonError (Record φ) := do
  let frozen ← freezeJsonValue floats limits.freeze (.mapping value)
  let validated ← thawJsonValue limits.thaw frozen
  return { id := key, payload := payloadOf validated, no_id := payloadOf_no_id validated }

end

section

variable {φ : Type} {floats : FloatFormat φ} {limits : JsonLimits} {check : List Char → Bool}
  {collection : String}

/-! ## What is written -/

theorem boundText_iff : ∀ {s : PyText} {chars : List Char},
    boundText s = some chars ↔ s = chars.map .char
  | [], chars => by
    rw [boundText, Option.some.injEq]
    cases chars with
    | nil => exact iff_of_true rfl rfl
    | cons c chars => exact iff_of_false nofun nofun
  | .surrogate _ :: _, chars => by
    refine iff_of_false nofun ?_
    cases chars <;> exact nofun
  | .char c :: rest, chars => by
    rw [boundText, Option.map_eq_some_iff]
    cases chars with
    | nil => exact iff_of_false (fun h => nomatch h.choose_spec.2) nofun
    | cons d chars =>
      simp only [boundText_iff, List.map_cons, List.cons.injEq, CodePoint.char.injEq]
      constructor
      · rintro ⟨_, hrest, rfl, rfl⟩
        exact ⟨rfl, hrest⟩
      · rintro ⟨rfl, hrest⟩
        exact ⟨chars, hrest, rfl, rfl⟩

theorem uniqueKeys_payloadOf {v : JsonValue φ} (h : uniqueKeys v) :
    uniqueKeys (.obj (payloadOf v)) := by
  cases v with
  | obj validated =>
    have hfilter : (payloadOf (.obj validated)).Sublist validated := List.filter_sublist
    refine ⟨(hfilter.map Prod.fst).nodup h.1, uniqueFields_iff.mpr fun field hfield => ?_⟩
    exact uniqueFields_iff.mp h.2 field (hfilter.subset hfield)
  | null => exact ⟨List.nodup_nil, trivial⟩
  | bool b => exact ⟨List.nodup_nil, trivial⟩
  | int n => exact ⟨List.nodup_nil, trivial⟩
  | float x => exact ⟨List.nodup_nil, trivial⟩
  | str s => exact ⟨List.nodup_nil, trivial⟩
  | arr items => exact ⟨List.nodup_nil, trivial⟩
  | foreign name => exact ⟨List.nodup_nil, trivial⟩

theorem mapError_ok {ε ε' α : Type} {x : Except ε α} {f : ε → ε'} {a : α}
    (h : x.mapError f = .ok a) : x = .ok a := by
  cases x with
  | error e => cases h
  | ok b =>
    cases h
    rfl

/-- A text that a record is written as. -/
structure Written (floats : FloatFormat φ) (record : Record φ) (text : List Char) : Prop where
  unique : uniqueKeys (.obj record.payload)
  clean : clean floats (.obj record.payload) = true
  text_eq : text = renderWith floats .compact 0 (.obj record.payload)

/-- **An accepted put** writes the normalised record, under its key. -/
theorem stored_ok {key : PyText} {value : List (MapKey × PyValue φ)} {id text : List Char}
    (h : stored floats limits check key value = .ok (id, text)) :
    ∃ record, normalised floats limits key value = .ok record ∧ record.id = key ∧
      boundText key = some id ∧ Written floats record text := by
  rw [stored] at h
  split at h
  · obtain ⟨frozen, hfreeze, h⟩ := bind_ok h
    obtain ⟨validated, hthaw, h⟩ := bind_ok h
    obtain ⟨written, hencode, h⟩ := bind_ok h
    have hfreeze := mapError_ok hfreeze
    have hthaw := mapError_ok hthaw
    obtain ⟨-, hunique, -⟩ := freezeJsonValue_spec _ _ frozen hfreeze
    obtain ⟨-, rfl⟩ := (thawJsonValue_iff frozen _ validated).mp hthaw
    have hpayload := uniqueKeys_payloadOf hunique
    obtain ⟨hwritable, rfl⟩ := encodeJsonValue_ofJson hpayload (mapError_ok hencode)
    refine ⟨⟨key, payloadOf frozen.thawed, payloadOf_no_id _⟩, ?_, rfl, ?_⟩
    · rw [normalised, hfreeze, ok_bind, hthaw]
      rfl
    · split at h
      · cases h
      · rename_i bound hbound
        split at h
        · cases h
          exact ⟨hbound, hpayload, hwritable.clean, rfl⟩
        · cases h
  · cases h

/-! ## What is read back -/

/-- What it takes for a record to come back from its row. -/
structure Record.Storable (limits : JsonLimits) (record : Record φ) : Prop where
  id : record.id ≠ []
  joined : joinFields record.payload = record.payload
  scan : nesting (.obj record.payload) ≤ limits.scan

/-- **The row of a record** is read back as the record, if that is storable. -/
theorem decode_stored_iff {record : Record φ} {text : List Char}
    (h : Written floats record text) :
    decode floats limits record.id text = .ok record ↔ record.Storable limits := by
  have hdecode : decodeJsonValue floats limits text = .ok (.obj record.payload) ↔
      joinAll (.obj record.payload) = .obj record.payload ∧
        nesting (.obj record.payload) ≤ limits.scan := by
    rw [h.text_eq]
    exact decodeJsonValue_self_iff h.clean h.unique
  rw [joinAll, JsonValue.obj.injEq] at hdecode
  rw [decode]
  split
  · rename_i hid
    exact iff_of_false nofun fun hstorable => hstorable.id hid
  · rename_i hid
    constructor
    · intro hok
      split at hok
      · cases hok
      · cases hok
      · rename_i payload hread
        split at hok
        · obtain ⟨id, fields, hno⟩ := record
          cases hok
          obtain ⟨hjoined, hscan⟩ := hdecode.mp hread
          exact ⟨hid, hjoined, hscan⟩
        · cases hok
      · cases hok
    · rintro ⟨-, hjoined, hscan⟩
      rw [hdecode.mpr ⟨hjoined, hscan⟩]
      exact dif_pos record.no_id

theorem decode_id {record_id : PyText} {text : List Char} {record : Record φ}
    (h : decode floats limits record_id text = .ok record) : record.id = record_id := by
  rw [decode] at h
  split at h
  · cases h
  · split at h
    · cases h
    · cases h
    · split at h
      · cases h
        rfl
      · cases h
    · cases h

/-! ## Listings -/

/-- The record of a row, if the row is read. -/
def itemOf (floats : FloatFormat φ) (limits : JsonLimits)
    (row : (String × List Char) × List Char) : Option (Record φ) :=
  (decode floats limits (row.1.2.map .char) row.2).toOption

/-- Reading the row ends in a record, or in a report. -/
def Settles (floats : FloatFormat φ) (limits : JsonLimits)
    (row : (String × List Char) × List Char) : Prop :=
  decode floats limits (row.1.2.map .char) row.2 ≠ .error .recursion

/-- **A listing** is made row by row, and fails only where a row does not settle. -/
theorem decodeRows_iff : ∀ {rows : List ((String × List Char) × List Char)},
    ((∃ listing, decodeRows floats limits rows = .ok listing) ↔
      ∀ row ∈ rows, Settles floats limits row) ∧
    ∀ listing, decodeRows floats limits rows = .ok listing →
      listing.items = rows.filterMap (itemOf floats limits)
  | [] => by
    refine ⟨iff_of_true ⟨_, rfl⟩ fun _ hmem => absurd hmem List.not_mem_nil, ?_⟩
    intro listing h
    cases h
    rfl
  | ((name, id), text) :: rest => by
    obtain ⟨hsettles, hitems⟩ := @decodeRows_iff rest
    have hfirst : Settles floats limits ((name, id), text) ↔
      decode floats limits (id.map .char) text ≠ .error .recursion := Iff.rfl
    have hitem : itemOf floats limits ((name, id), text) =
      (decode floats limits (id.map .char) text).toOption := rfl
    rw [decodeRows, List.forall_mem_cons, ← hsettles, hfirst, List.filterMap_cons, hitem]
    cases hdecode : decode floats limits (id.map .char) text with
    | ok record =>
      cases hrest : decodeRows floats limits rest with
      | error e =>
        refine ⟨iff_of_false ?_ ?_, nofun⟩
        · rintro ⟨_, h⟩
          cases h
        · rintro ⟨-, _, h⟩
          cases h
      | ok listing =>
        refine ⟨iff_of_true ⟨_, rfl⟩ ⟨nofun, _, rfl⟩, fun listing' h => ?_⟩
        cases h
        exact congrArg (record :: ·) (hitems listing hrest)
    | error e =>
      have hskip : e ≠ .recursion →
          ((∃ listing, ((decodeRows floats limits rest).map fun listing =>
            { listing with corrupt := id.map .char :: listing.corrupt }) = .ok listing) ↔
              Except.error e ≠ (.error .recursion : Except StorageError (Record φ)) ∧
                ∃ listing, decodeRows floats limits rest = .ok listing) ∧
          ∀ listing, ((decodeRows floats limits rest).map fun listing =>
            { listing with corrupt := id.map .char :: listing.corrupt }) = .ok listing →
              listing.items = rest.filterMap (itemOf floats limits) := by
        intro hne
        cases hrest : decodeRows floats limits rest with
        | error e' =>
          refine ⟨iff_of_false ?_ ?_, nofun⟩
          · rintro ⟨_, h⟩
            cases h
          · rintro ⟨-, _, h⟩
            cases h
        | ok listing =>
          refine ⟨iff_of_true ⟨_, rfl⟩ ⟨fun h => hne (Except.error.inj h), _, rfl⟩, ?_⟩
          intro listing' h
          cases h
          exact hitems listing hrest
      cases e with
      | recursion => exact ⟨iff_of_false nofun fun h => h.1 rfl, nofun⟩
      | record_id => exact hskip nofun
      | unicode => exact hskip nofun
      | integrity => exact hskip nofun
      | json e => exact hskip nofun
      | stored_row => exact hskip nofun

/-- The rows that `list` reads. -/
def rowsOf (collection : String) (rows : Rows) : List ((String × List Char) × List Char) :=
  rows.rows.filter fun row => decide (row.1.1 = collection)

/-- Every row of the collection settles, so `list` returns. -/
def Listable (floats : FloatFormat φ) (limits : JsonLimits) (collection : String) (rows : Rows) :
    Prop :=
  ∀ row ∈ rowsOf collection rows, Settles floats limits row

theorem list_ok_iff {rows : Rows} : (∃ listing, list floats limits collection rows = .ok listing) ↔
    Listable floats limits collection rows :=
  decodeRows_iff.1

theorem list_items {rows : Rows} {listing : Listing φ}
    (h : list floats limits collection rows = .ok listing) :
    listing.items = (rowsOf collection rows).filterMap (itemOf floats limits) :=
  decodeRows_iff.2 listing h

theorem filter_filterMap_of {α β : Type} {f : α → Option β} {p : β → Bool} {q : α → Bool}
    (h : ∀ x y, f x = some y → p y = q x) : ∀ xs : List α,
      (xs.filterMap f).filter p = (xs.filter q).filterMap f
  | [] => rfl
  | x :: xs => by
    have ih := filter_filterMap_of h xs
    rw [List.filterMap_cons, List.filter_cons]
    cases hx : f x with
    | none =>
      simp only
      split
      · rw [List.filterMap_cons, hx, ih]
      · exact ih
    | some y =>
      simp only [List.filter_cons, h x y hx]
      split
      · rw [List.filterMap_cons, hx, ih]
      · exact ih

theorem itemOf_id {key : PyText} {id : List Char} (hkey : boundText key = some id)
    {row : (String × List Char) × List Char} {item : Record φ}
    (h : itemOf floats limits row = some item) : item.id = key ↔ row.1.2 = id := by
  have hdecode : decode floats limits (row.1.2.map .char) row.2 = .ok item := by
    rw [itemOf] at h
    cases hdecode : decode floats limits (row.1.2.map CodePoint.char) row.2 with
    | error e => rw [hdecode] at h; cases h
    | ok record =>
      rw [hdecode] at h
      cases h
      rfl
  rw [decode_id hdecode, boundText_iff.mp hkey]
  exact (List.map_injective_iff.mpr fun _ _ h => CodePoint.char.inj h).eq_iff

theorem items_of_key {key : PyText} {id : List Char} (hkey : boundText key = some id)
    (rows : Rows) :
    ((rowsOf collection rows).filterMap (itemOf floats limits)).filter
        (fun item => decide (item.id = key)) =
      (((rows.get (collection, id)).map ((collection, id), ·)).toList).filterMap
        (itemOf floats limits) := by
  have hid : ∀ row item, itemOf floats limits row = some item →
      decide (item.id = key) = decide (row.1.2 = id) := fun row item h =>
    decide_eq_decide.mpr (itemOf_id hkey h)
  rw [filter_filterMap_of hid, rowsOf, List.filter_filter, ← Table.filter_key]
  congr 2
  funext row
  rw [← Bool.decide_and, decide_eq_decide]
  exact ⟨fun h => Prod.ext h.2 h.1, fun h => ⟨congrArg Prod.snd h, congrArg Prod.fst h⟩⟩

theorem items_of_others {key : PyText} {id : List Char} (hkey : boundText key = some id)
    (rows : Rows) :
    ((rowsOf collection rows).filterMap (itemOf floats limits)).filter
        (fun item => decide (item.id ≠ key)) =
      ((rows.rows.filter fun row => decide (row.1 ≠ (collection, id))).filter
        fun row => decide (row.1.1 = collection)).filterMap (itemOf floats limits) := by
  have hid : ∀ row item, itemOf floats limits row = some item →
      decide (item.id ≠ key) = decide (row.1.2 ≠ id) := fun row item h =>
    decide_eq_decide.mpr (itemOf_id hkey h).not
  rw [filter_filterMap_of hid, rowsOf, List.filter_filter, List.filter_filter]
  congr 2
  funext row
  rw [← Bool.decide_and, ← Bool.decide_and, decide_eq_decide]
  constructor
  · rintro ⟨hid, hname⟩
    exact ⟨hname, fun h => hid (congrArg Prod.snd h)⟩
  · rintro ⟨hname, hne⟩
    exact ⟨fun hid => hne (Prod.ext hname hid), hname⟩

/-! ## One operation -/

/-- Nothing but the record of the key is different. -/
structure OnlyChanges (floats : FloatFormat φ) (limits : JsonLimits) (collection : String)
    (key : PyText) (rows rows' : Rows) : Prop where
  get : ∀ other, other ≠ key →
    Sqlite.get floats limits collection rows' other = Sqlite.get floats limits collection rows other
  list : ∀ listing listing', Sqlite.list floats limits collection rows = .ok listing →
    Sqlite.list floats limits collection rows' = .ok listing' →
      listing'.items.filter (fun item => decide (item.id ≠ key)) =
        listing.items.filter fun item => decide (item.id ≠ key)
  elsewhere : ∀ row_key, row_key.1 ≠ collection → rows'.get row_key = rows.get row_key

/-- What a put promises. -/
structure PutHolds (floats : FloatFormat φ) (limits : JsonLimits) (collection : String)
    (record : Record φ) (rows rows' : Rows) : Prop where
  get : Sqlite.get floats limits collection rows' record.id = .ok (some record)
  once : ∃ listing, Sqlite.list floats limits collection rows' = .ok listing ∧
    listing.items.filter (fun item => decide (item.id = record.id)) = [record]
  others : OnlyChanges floats limits collection record.id rows rows'

/-- What a delete promises. -/
structure DeleteHolds (floats : FloatFormat φ) (limits : JsonLimits) (collection : String)
    (key : PyText) (rows rows' : Rows) : Prop where
  get : Sqlite.get floats limits collection rows' key = .ok none
  never : ∃ listing, Sqlite.list floats limits collection rows' = .ok listing ∧
    listing.items.filter (fun item => decide (item.id = key)) = []
  others : OnlyChanges floats limits collection key rows rows'

theorem onlyChanges_of {key : PyText} {id : List Char} (hkey : boundText key = some id)
    {rows rows' : Rows} (hrows : (rows'.rows.filter fun row => decide (row.1 ≠ (collection, id))) =
      rows.rows.filter fun row => decide (row.1 ≠ (collection, id)))
    (hget : ∀ row_key, row_key ≠ (collection, id) → rows'.get row_key = rows.get row_key) :
    OnlyChanges floats limits collection key rows rows' where
  get other hne := by
    rw [Sqlite.get, Sqlite.get]
    cases hother : boundText other with
    | none => rfl
    | some other_id =>
      have hid : (collection, other_id) ≠ (collection, id) := by
        intro h
        obtain rfl : other_id = id := congrArg Prod.snd h
        exact hne ((boundText_iff.mp hother).trans (boundText_iff.mp hkey).symm)
      simp only [hget _ hid]
  list listing listing' hlisting hlisting' := by
    rw [list_items hlisting, list_items hlisting', items_of_others hkey, items_of_others hkey, hrows]
  elsewhere row_key hne := hget row_key fun h => hne (congrArg Prod.fst h)

theorem listable_set {rows : Rows} {id text : List Char}
    (hrows : Listable floats limits collection rows)
    (hnew : Settles floats limits ((collection, id), text)) :
    Listable floats limits collection (rows.set (collection, id) text) := by
  intro row hrow
  obtain ⟨hmem, hname⟩ := List.mem_filter.mp hrow
  rcases mem_upsert hmem with rfl | hold
  · exact hnew
  · exact hrows row (List.mem_filter.mpr ⟨hold, hname⟩)

theorem listable_erase {rows : Rows} (id : List Char)
    (hrows : Listable floats limits collection rows) :
    Listable floats limits collection (rows.erase (collection, id)) := by
  intro row hrow
  obtain ⟨hmem, hname⟩ := List.mem_filter.mp hrow
  exact hrows row (List.mem_filter.mpr ⟨(List.mem_filter.mp hmem).1, hname⟩)

/-- **A put of a storable record** keeps its promise. -/
theorem put_holds {rows : Rows} {record : Record φ} {id text : List Char}
    (hid : boundText record.id = some id) (hwritten : Written floats record text)
    (hstorable : record.Storable limits) (hrows : Listable floats limits collection rows) :
    PutHolds floats limits collection record rows (rows.set (collection, id) text) ∧
      Listable floats limits collection (rows.set (collection, id) text) := by
  have hdecode : decode floats limits (id.map .char) text = .ok record := by
    rw [← boundText_iff.mp hid]
    exact (decode_stored_iff hwritten).mpr hstorable
  have hlistable : Listable floats limits collection (rows.set (collection, id) text) := by
    refine listable_set hrows ?_
    rw [Settles, hdecode]
    exact nofun
  refine ⟨⟨?_, ?_, ?_⟩, hlistable⟩
  · rw [Sqlite.get, hid]
    simp only [Table.get_set_self, hdecode]
    rfl
  · obtain ⟨listing, hlisting⟩ := list_ok_iff.mpr hlistable
    refine ⟨listing, hlisting, ?_⟩
    rw [list_items hlisting, items_of_key hid, Table.get_set_self]
    show List.filterMap (itemOf floats limits) [((collection, id), text)] = [record]
    rw [List.filterMap_cons, itemOf, hdecode]
    rfl
  · exact onlyChanges_of hid (Table.filter_set_ne _ _ _) fun _ hne => Table.get_set_ne _ _ hne

/-- **A delete** keeps its promise. -/
theorem delete_holds {rows : Rows} {key : PyText} {id : List Char} (hid : boundText key = some id)
    (hrows : Listable floats limits collection rows) :
    DeleteHolds floats limits collection key rows (rows.erase (collection, id)) ∧
      Listable floats limits collection (rows.erase (collection, id)) := by
  have hlistable := listable_erase id hrows
  have hgone : (rows.erase (collection, id)).get (collection, id) = none := by
    rw [Table.get_erase, if_pos rfl]
  refine ⟨⟨?_, ?_, ?_⟩, hlistable⟩
  · rw [Sqlite.get, hid]
    simp only [hgone]
  · obtain ⟨listing, hlisting⟩ := list_ok_iff.mpr hlistable
    refine ⟨listing, hlisting, ?_⟩
    rw [list_items hlisting, items_of_key hid, hgone]
    rfl
  · refine onlyChanges_of hid ?_ fun _ hne => ?_
    · show ((rows.rows.filter _).filter _) = _
      rw [List.filter_filter]
      exact List.filter_congr fun row _ => Bool.and_self _
    · rw [Table.get_erase, if_neg hne]

/-! ## Runs -/

/-- What an operation promises of the table it leaves; one that raises promises nothing. -/
def Operation.Holds (floats : FloatFormat φ) (limits : JsonLimits) (check : List Char → Bool)
    (collection : String) (rows : Rows) : Operation φ → Prop
  | .put key value => ∀ row, stored floats limits check key value = .ok row →
    ∃ record, normalised floats limits key value = .ok record ∧ record.id = key ∧
      PutHolds floats limits collection record rows
        (perform floats limits check collection rows (.put key value))
  | .delete key => boundText key ≠ none →
    DeleteHolds floats limits collection key rows
      (perform floats limits check collection rows (.delete key))

/-- What is put, if it is accepted, is storable. -/
def Operation.Storable (floats : FloatFormat φ) (limits : JsonLimits) (check : List Char → Bool) :
    Operation φ → Prop
  | .put key value => ∀ row record, stored floats limits check key value = .ok row →
    normalised floats limits key value = .ok record → record.Storable limits
  | .delete _ => True

theorem perform_put_ok {rows : Rows} {key : PyText} {value : List (MapKey × PyValue φ)}
    {id text : List Char} (h : stored floats limits check key value = .ok (id, text)) :
    perform floats limits check collection rows (.put key value) =
      rows.set (collection, id) text := by
  rw [perform, Operation.call, put, h]
  rfl

theorem perform_put_error {rows : Rows} {key : PyText} {value : List (MapKey × PyValue φ)}
    {e : StorageError} (h : stored floats limits check key value = .error e) :
    perform floats limits check collection rows (.put key value) = rows := by
  rw [perform, Operation.call, put, h]
  rfl

/-- **A storable operation** keeps its promise, and leaves a table that can be listed. -/
theorem holds_of_storable {rows : Rows} {op : Operation φ}
    (hop : op.Storable floats limits check) (hrows : Listable floats limits collection rows) :
    op.Holds floats limits check collection rows ∧
      Listable floats limits collection (perform floats limits check collection rows op) := by
  cases op with
  | put key value =>
    cases hstored : stored floats limits check key value with
    | error e =>
      rw [perform_put_error hstored]
      refine ⟨fun row hok => ?_, hrows⟩
      rw [hstored] at hok
      cases hok
    | ok row =>
      obtain ⟨id, text⟩ := row
      obtain ⟨record, hnormal, hid, hbound, hwritten⟩ := stored_ok hstored
      have hput := put_holds (hid ▸ hbound) hwritten (hop _ record hstored hnormal) hrows
      rw [Operation.Holds, perform_put_ok hstored]
      exact ⟨fun _ _ => ⟨record, hnormal, hid, hput.1⟩, hput.2⟩
  | delete key =>
    rw [Operation.Holds, perform, Operation.call, delete]
    cases hbound : boundText key with
    | none => exact ⟨fun h => absurd rfl h, hrows⟩
    | some id =>
      have hdelete := delete_holds hbound hrows
      exact ⟨fun _ => hdelete.1, hdelete.2⟩

/-- **An operation that keeps its promise** is storable. -/
theorem storable_of_holds {rows : Rows} {op : Operation φ}
    (h : op.Holds floats limits check collection rows) : op.Storable floats limits check := by
  cases op with
  | delete key => exact trivial
  | put key value =>
    rintro ⟨id, text⟩ record hstored hnormal
    obtain ⟨record', hnormal', hid, hput⟩ := h _ hstored
    obtain ⟨record'', hnormal'', -, hbound, hwritten⟩ := stored_ok hstored
    cases hnormal.symm.trans hnormal'
    cases hnormal.symm.trans hnormal''
    have hget := hput.get
    rw [perform_put_ok hstored, Sqlite.get, hid, hbound] at hget
    simp only [Table.get_set_self] at hget
    rw [← boundText_iff.mp hbound, ← hid] at hget
    refine (decode_stored_iff hwritten).mp ?_
    cases hdecode : decode floats limits record.id text with
    | error e => rw [hdecode] at hget; cases hget
    | ok found =>
      rw [hdecode] at hget
      exact congrArg Except.ok (Option.some.inj (Except.ok.inj hget))

theorem run_listable : ∀ (ops : List (Operation φ)) {rows : Rows},
    (∀ op ∈ ops, op.Storable floats limits check) → Listable floats limits collection rows →
      Listable floats limits collection (run floats limits check collection rows ops)
  | [], _, _, hrows => hrows
  | op :: ops, rows, hops, hrows => by
    obtain ⟨hop, hrest⟩ := List.forall_mem_cons.mp hops
    exact run_listable ops hrest (holds_of_storable hop hrows).2

end

/-- **The collection is a map** as long as what is put is storable: every operation of a run keeps
    its promise if and only if every record that a put accepts is storable. -/
theorem collection_is_map_iff {φ : Type} (floats : FloatFormat φ) (limits : JsonLimits)
    (check : List Char → Bool) (collection : String) (rows : Rows)
    (hlist : ∃ listing, list floats limits collection rows = .ok listing)
    (ops : List (Operation φ)) :
    (∀ before op after, ops = before ++ op :: after →
      op.Holds floats limits check collection
        (run floats limits check collection rows before)) ↔
      ∀ op ∈ ops, op.Storable floats limits check := by
  constructor
  · intro h op hop
    obtain ⟨before, after, heq⟩ := List.append_of_mem hop
    exact storable_of_holds (h before op after heq)
  · rintro h before op after rfl
    obtain ⟨hbefore, hop⟩ := List.forall_mem_append.mp h
    have hrows := run_listable before hbefore (list_ok_iff.mp hlist)
    exact (holds_of_storable (List.forall_mem_cons.mp hop).1 hrows).1

/-- A document is put under its id, and deleted. -/
def documentOps : List (Operation Bool) :=
  [.put (pyText "d1") [(.str (pyText "id"), .none), (.str (pyText "pages"), .int 3)],
    .delete (pyText "d1")]

/-- Both keep their promise, one after the other, and nothing is left. -/
theorem collection_is_map_document :
    (∀ before op after, documentOps = before ++ op :: after →
      op.Holds overflowFormat stockLimits (fun _ => true) "source_documents"
        (run overflowFormat stockLimits (fun _ => true) "source_documents" Table.empty before)) ∧
      (run overflowFormat stockLimits (fun _ => true) "source_documents" Table.empty
        documentOps).rows = [] := by
  refine ⟨(collection_is_map_iff overflowFormat stockLimits (fun _ => true) "source_documents"
    Table.empty ⟨_, rfl⟩ documentOps).mpr ?_, rfl⟩
  refine List.forall_mem_cons.mpr ⟨?_, List.forall_mem_cons.mpr ⟨trivial, nofun⟩⟩
  intro row record _ hnormal
  have hrecord : normalised overflowFormat stockLimits (pyText "d1")
      [(.str (pyText "id"), .none), (.str (pyText "pages"), .int 3)] =
        .ok ⟨pyText "d1", [(pyText "pages", .int 3)], by decide⟩ := rfl
  cases hrecord.symm.trans hnormal
  exact ⟨by decide, rfl, by decide⟩

/-- A record is put under the empty key; it cannot be read, and no listing contains it. -/
theorem empty_key_lost :
    ∃ rows, put overflowFormat stockLimits (fun _ => true) "source_documents" Table.empty []
        [(.str (pyText "pages"), .int 3)] = .ok rows ∧
      (∃ e, get overflowFormat stockLimits "source_documents" rows [] = .error e) ∧
      ∃ listing, list overflowFormat stockLimits "source_documents" rows = .ok listing ∧
        listing.items = [] ∧ listing.corrupt = [[]] :=
  ⟨_, rfl, ⟨_, rfl⟩, _, rfl, rfl, rfl⟩

end NuSelf.Storage.Sqlite
