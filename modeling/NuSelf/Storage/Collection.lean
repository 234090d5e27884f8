/-
  One logical collection of the records table, as the repositories read and write it.

  A record of a collection carries its id as a field; the table keeps the id in the key of the row
  and nowhere else.  `collectionPut` writes the text with escapes, so the stored text is the
  canonical one exactly when the payload has nothing to escape.  `collectionGet_put` is the round
  trip: what was put is what is read, under the id in front.
-/
import NuSelf.Lib.Sequence
import NuSelf.Storage.Records

namespace NuSelf.Storage

open NuSelf.Lib

inductive StorageError where
  | invalidId
  | invalidPayload
  /-- `put` under a key that is not the id of the record. -/
  | recordId
  /-- A number that JSON cannot hold. -/
  | notFinite
  deriving DecidableEq

/-! ## Reading -/

/-- `{"id": record_id, **payload}`. -/
def withId (record_id : String) (payload : Record) (h : payload.contains "id" = false) :
    Record where
  rows := ("id", .str record_id) :: payload.rows
  nodup := by
    refine List.nodup_cons.mpr ⟨fun hmem => ?_, payload.nodup⟩
    have hcontains : payload.contains "id" = true := payload.contains_iff.mpr hmem
    rw [h] at hcontains
    cases hcontains

def decode (record_id : String) (payload : Record) : Except StorageError Record :=
  if record_id = "" then .error .invalidId
  else if h : payload.contains "id" = false then .ok (withId record_id payload h)
  else .error .invalidPayload

/-- `SqliteCollection.get`. -/
def collectionGet (db : Records) (collection key : String) :
    Except StorageError (Option Record) :=
  match db.get (collection, key) with
  | none => .ok none
  | some p => (decode key p.record).map some

/-- `SqliteCollection.list`. -/
def collectionList (db : Records) (collection : String) : Except StorageError (List Record) :=
  tryAll (fun row => decode row.1.2 row.2.record)
    (db.rows.filter fun row => decide (row.1.1 = collection))

/-! ## Writing -/

theorem finite_erase {value : Record} (field : String) (h : value.finite = true) :
    Record.finite (value.erase field) = true := by
  rw [finite_iff] at h ⊢
  intro k v hv
  rw [Table.get_erase] at hv
  split at hv
  · cases hv
  · exact h k v hv

/-- The text of a payload as `put` writes it, with escapes. -/
def encoded (payload : Record) (h : payload.finite = true) : Payload where
  record := payload
  canonical := payload.ascii
  canonical_finite := fun _ => h

/-- `value.get("id")` is missing, `None` or the key. -/
def idMatches (value : Record) (key : String) : Prop :=
  value.get "id" = none ∨ value.get "id" = some .null ∨ value.get "id" = some (.str key)

instance (value : Record) (key : String) : Decidable (idMatches value key) :=
  inferInstanceAs (Decidable (_ ∨ _ ∨ _))

/-- `SqliteCollection.put`. -/
def collectionPut (db : Records) (collection key : String) (value : Record) :
    Except StorageError Records :=
  if idMatches value key then
    if h : value.finite = true then
      .ok (db.set (collection, key) (encoded (value.erase "id") (finite_erase "id" h)))
    else .error .notFinite
  else .error .recordId

/-- `SqliteCollection.delete`. -/
def collectionDelete (db : Records) (collection key : String) : Records :=
  db.erase (collection, key)

theorem collectionPut_ok {db db' : Records} {collection key : String} {value : Record}
    (h : collectionPut db collection key value = .ok db') :
    ∃ p, db' = db.set (collection, key) p ∧ p.record = value.erase "id" ∧
      p.record.finite = true ∧ p.canonical = Record.ascii (value.erase "id") := by
  unfold collectionPut at h
  split at h
  · split at h
    · rename_i hfinite
      cases h
      exact ⟨_, rfl, rfl, finite_erase "id" hfinite, rfl⟩
    · cases h
  · cases h

theorem contains_erase_self (value : Record) (field : String) :
    (value.erase field).contains field = false := by
  rw [Table.contains, Table.get_erase, if_pos rfl]
  rfl

/-- **The round trip**: the fields that were put are read back, the id in front. -/
theorem collectionGet_put {db db' : Records} {collection key : String} {value : Record}
    (hkey : key ≠ "") (h : collectionPut db collection key value = .ok db') :
    collectionGet db' collection key =
      .ok (some (withId key (value.erase "id") (contains_erase_self value "id"))) := by
  obtain ⟨p, rfl, hrecord, -, -⟩ := collectionPut_ok h
  have hdecode : decode key p.record =
      .ok (withId key (value.erase "id") (contains_erase_self value "id")) := by
    rw [decode, if_neg hkey]
    simp only [hrecord]
    exact dif_pos (contains_erase_self value "id")
  rw [collectionGet, Table.get_set_self]
  show (decode key p.record).map some = _
  rw [hdecode]
  rfl

/-! ## What a stretch of writes may touch -/

/-- Only rows of the collections change, and what is written has finite numbers. -/
structure Touches (collections : List String) (db db' : Records) : Prop where
  other : ∀ k, k.1 ∉ collections → db'.get k = db.get k
  finite : ∀ k p, db'.get k = some p → db.get k = some p ∨ p.record.finite = true

namespace Touches

variable {collections : List String} {db db' : Records}

theorem set {key : String × String} {p : Payload} (hkey : key.1 ∈ collections)
    (hp : p.record.finite = true) : Touches collections db (db.set key p) where
  other := by
    intro k hk
    have hne : k ≠ key := by
      rintro rfl
      exact hk hkey
    exact Table.get_set_ne _ _ hne
  finite := by
    intro k q hq
    rw [Table.get_set] at hq
    split at hq
    · cases hq
      exact Or.inr hp
    · exact Or.inl hq

theorem erase {key : String × String} (hkey : key.1 ∈ collections) :
    Touches collections db (db.erase key) where
  other := by
    intro k hk
    have hne : k ≠ key := by
      rintro rfl
      exact hk hkey
    rw [Table.get_erase, if_neg hne]
  finite := by
    intro k q hq
    rw [Table.get_erase] at hq
    split at hq
    · cases hq
    · exact Or.inl hq

theorem put {collection key : String} {value : Record} (hc : collection ∈ collections)
    (h : collectionPut db collection key value = .ok db') : Touches collections db db' := by
  obtain ⟨p, rfl, -, hfinite, -⟩ := collectionPut_ok h
  exact set hc hfinite

end Touches

end NuSelf.Storage
