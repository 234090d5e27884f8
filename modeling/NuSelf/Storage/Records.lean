/-
  The compact records table.

  A row is a JSON object stored as text under a collection and an id.  A payload is kept as the
  object that the text decodes to, with one bit about the text: whether it is the very text that
  `json.dumps` writes without spaces and escapes (`canonical`).  Nothing here or in the migrations
  looks closer.  The table's own check accepts standard JSON only, so an object with an infinite
  number has no canonical text and cannot be written.

  An integer of more digits than Python converts and an unpaired surrogate, which Python refuses to
  decode or to write, are not values of `Json`.
-/
import NuSelf.Lib.Json
import NuSelf.Lib.Table

namespace NuSelf.Storage

open NuSelf.Lib

/-! ## Payloads -/

/-- A JSON object as `json.loads` builds it. -/
abbrev Record := Table String Json

namespace Record

/-- Every number in the object is finite. -/
def finite (r : Record) : Bool := Json.allFields Json.finiteLeaf (fun _ => true) r.rows

def ascii (r : Record) : Bool := Json.allFields Json.asciiLeaf Json.asciiText r.rows

end Record

structure Payload where
  record : Record
  /-- The stored text is the one that `json.dumps` writes without spaces and escapes. -/
  canonical : Bool
  canonical_finite : canonical = true → record.finite = true
  deriving DecidableEq

theorem allFields_iff {leaf : Json → Bool} {key : String → Bool} :
    ∀ {fields : List (String × Json)}, Json.allFields leaf key fields = true ↔
      ∀ k v, (k, v) ∈ fields → key k = true ∧ v.all leaf key = true
  | [] => by simp [Json.allFields]
  | (k, v) :: rest => by
    simp only [Json.allFields, Bool.and_eq_true, @allFields_iff leaf key rest, List.mem_cons,
      Prod.mk.injEq]
    constructor
    · rintro ⟨⟨hk, hv⟩, hrest⟩ k' v' (⟨rfl, rfl⟩ | hm)
      · exact ⟨hk, hv⟩
      · exact hrest k' v' hm
    · intro h
      exact ⟨h k v (Or.inl ⟨rfl, rfl⟩), fun k' v' hm => h k' v' (Or.inr hm)⟩

theorem allItems_map {α : Type} {leaf : Json → Bool} {key : String → Bool} {f : α → Json} :
    ∀ {items : List α}, (∀ item ∈ items, (f item).all leaf key = true) →
      Json.allItems leaf key (items.map f) = true
  | [], _ => rfl
  | item :: rest, h => by
    obtain ⟨hitem, hrest⟩ := List.forall_mem_cons.mp h
    rw [List.map_cons, Json.allItems, hitem, allItems_map hrest]
    rfl

theorem finite_iff {r : Record} :
    r.finite = true ↔ ∀ k v, r.get k = some v → v.finite = true := by
  rw [Record.finite, allFields_iff]
  simp only [Table.mem_rows_iff, true_and]
  rfl

/-! ## The table -/

/-- The rows of `records`, by collection and id. -/
abbrev Records := Table (String × String) Payload

/-- The same records, as JSON values under the same collection and id. -/
def Records.SameAs (db db' : Records) : Prop :=
  ∀ k, (db.get k = none ∧ db'.get k = none) ∨
    ∃ p p', db.get k = some p ∧ db'.get k = some p' ∧ Table.Same p.record p'.record

/-- Whether a collection has a row. -/
def Records.hasCollection (db : Records) (collection : String) : Bool :=
  db.rows.any fun row => decide (row.1.1 = collection)

theorem hasCollection_eq_false {db : Records} {collection : String} :
    db.hasCollection collection = false ↔ ∀ id, db.get (collection, id) = none := by
  rw [Records.hasCollection, List.any_eq_false]
  constructor
  · intro h id
    cases hget : db.get (collection, id) with
    | none => rfl
    | some p => exact absurd (decide_eq_true rfl) (h _ (db.mem_rows_iff.mpr hget))
  · rintro h ⟨⟨c, id⟩, p⟩ hrow hc
    have hc : c = collection := of_decide_eq_true hc
    subst hc
    have hget := db.mem_rows_iff.mp hrow
    rw [h id] at hget
    cases hget

end NuSelf.Storage
