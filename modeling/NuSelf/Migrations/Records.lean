/-
  What a migration does to the compact records table.

  `dumps` writes a record back, `rewriteAll` is the loop that rewrites the rows of some
  collections, `moveKey` renames a collection, and `migrate` is the runner with its transaction.
  `rewriteAll_spec` says row by row what the loop does; the migrations use nothing else of it.
-/
import NuSelf.Storage.Records
import NuSelf.Lib.Text

namespace NuSelf.Migrations

open NuSelf.Lib NuSelf.Storage

inductive MigrationError where
  /-- The database refuses a statement. -/
  | integrity
  | destinationExists (collection : String)
  | bothFields (old new : String)
  | identityCollision (collection id : String)
  | invalidCursor
  | invalidPlan
  | invalidRange
  | invalidMessage
  | holdingExists
  deriving DecidableEq

/-! ## Reading -/

/-- `_load_records`: the ids and payloads of a collection. -/
def loadRecords (db : Records) (collection : String) : List (String × Record) :=
  (db.rows.filter fun row => decide (row.1.1 = collection)).map fun row =>
    (row.1.2, row.2.record)

theorem mem_loadRecords {db : Records} {collection id : String} {record : Record} :
    (id, record) ∈ loadRecords db collection ↔
      ∃ p, db.get (collection, id) = some p ∧ p.record = record := by
  simp only [loadRecords, List.mem_map, List.mem_filter, decide_eq_true_eq, Prod.mk.injEq]
  constructor
  · rintro ⟨⟨⟨c, i⟩, p⟩, ⟨hrow, rfl⟩, rfl, rfl⟩
    exact ⟨p, db.mem_rows_iff.mp hrow, rfl⟩
  · rintro ⟨p, hp, rfl⟩
    exact ⟨((collection, id), p), ⟨db.mem_rows_iff.mpr hp, rfl⟩, rfl, rfl⟩

theorem nodup_loadRecords (db : Records) (collection : String) :
    ((loadRecords db collection).map Prod.fst).Nodup := by
  have hkeys := db.nodup_filter fun row => decide (row.1.1 = collection)
  rw [loadRecords, List.map_map]
  -- within one collection the id determines the key
  refine List.Nodup.of_map (fun id => (collection, id)) ?_
  rw [List.map_map]
  have hsame : (db.rows.filter fun row => decide (row.1.1 = collection)).map
      ((fun id => (collection, id)) ∘ Prod.fst ∘ fun row => (row.1.2, row.2.record)) =
      (db.rows.filter fun row => decide (row.1.1 = collection)).map Prod.fst := by
    refine List.map_congr_left fun row hrow => ?_
    have hc : row.1.1 = collection := of_decide_eq_true (List.mem_filter.mp hrow).2
    exact Prod.ext hc.symm rfl
  rw [hsame]
  exact hkeys

/-! ## Rewriting -/

/-- `json.dumps(record, ensure_ascii=False, separators=(",", ":"))` as a stored text. -/
def dumps (record : Record) : Except MigrationError Payload :=
  if h : record.finite = true then .ok ⟨record, true, fun _ => h⟩ else .error .integrity

theorem dumps_ok {record : Record} {p : Payload} (h : dumps record = .ok p) :
    p.record = record ∧ p.canonical = true ∧ record.finite = true := by
  unfold dumps at h
  split at h
  · rename_i hfinite
    cases h
    exact ⟨rfl, rfl, hfinite⟩
  · cases h

theorem dumps_of_finite {record : Record} (h : record.finite = true) :
    ∃ p, dumps record = .ok p ∧ p.record = record := by
  refine ⟨⟨record, true, fun _ => h⟩, ?_, rfl⟩
  rw [dumps, dif_pos h]

/-- Rewrite the payloads of one collection. -/
def rewriteCollection (collection : String) (f : Record → Except MigrationError Record)
    (db : Records) : Except MigrationError Records :=
  db.tryMap fun k p =>
    if k.1 = collection then
      match f p.record with
      | .error e => .error e
      | .ok record => dumps record
    else .ok p

/-- Collection after collection. -/
def rewriteAll : List (String × (Record → Except MigrationError Record)) → Records →
    Except MigrationError Records
  | [], db => .ok db
  | (collection, f) :: rest, db =>
    match rewriteCollection collection f db with
    | .error e => .error e
    | .ok db => rewriteAll rest db

/-- What happens to one payload of a collection. -/
def rewritten (transforms : List (String × (Record → Except MigrationError Record)))
    (collection : String) (p : Payload) : Except MigrationError Payload :=
  match transforms.lookup collection with
  | none => .ok p
  | some f =>
    match f p.record with
    | .error e => .error e
    | .ok record => dumps record

theorem rewritten_cons {collection : String} {f : Record → Except MigrationError Record}
    {rest : List (String × (Record → Except MigrationError Record))} {c : String} {p : Payload} :
    rewritten ((collection, f) :: rest) c p =
      if c = collection then
        (match f p.record with
        | .error e => .error e
        | .ok record => dumps record)
      else rewritten rest c p := by
  unfold rewritten
  rw [lookup_row]
  by_cases h : c = collection
  · rw [if_pos h, if_pos h]
  · rw [if_neg h, if_neg h]

theorem rewritten_of_not_mem
    {transforms : List (String × (Record → Except MigrationError Record))} {c : String}
    (h : c ∉ transforms.map Prod.fst) (p : Payload) : rewritten transforms c p = .ok p := by
  unfold rewritten
  rw [lookup_eq_none_of_not_mem h]

/-- The first transform goes through where all of them do. -/
theorem rewriteCollection_isOk {collection : String} {f : Record → Except MigrationError Record}
    {rest : List (String × (Record → Except MigrationError Record))} {db : Records}
    (h : ∀ k p, db.get k = some p → ∃ p', rewritten ((collection, f) :: rest) k.1 p = .ok p') :
    ∃ u, rewriteCollection collection f db = .ok u := by
  refine Table.tryMap_isOk_iff.mpr fun k p hget => ?_
  obtain ⟨p', hp'⟩ := h k p hget
  rw [rewritten_cons] at hp'
  by_cases hk : k.1 = collection
  · rw [if_pos hk] at hp' ⊢
    exact ⟨p', hp'⟩
  · rw [if_neg hk]
    exact ⟨p, rfl⟩

/-- **The rewriting loop, row by row**: it succeeds exactly when every row can be rewritten, and
    then each row is. -/
theorem rewriteAll_spec :
    ∀ {transforms : List (String × (Record → Except MigrationError Record))} {db : Records},
      (transforms.map Prod.fst).Nodup →
      ((∃ u, rewriteAll transforms db = .ok u) ↔
        ∀ k p, db.get k = some p → ∃ p', rewritten transforms k.1 p = .ok p') ∧
      ∀ u, rewriteAll transforms db = .ok u → ∀ k, u.get k =
        (db.get k).bind fun p => (rewritten transforms k.1 p).toOption
  | [], db, _ => by
    refine ⟨⟨fun _ k p _ => ⟨p, rfl⟩, fun _ => ⟨db, rfl⟩⟩, fun u h k => ?_⟩
    cases h
    cases db.get k <;> rfl
  | (collection, f) :: rest, db, hnodup => by
    obtain ⟨hnot, hrest⟩ := List.nodup_cons.mp hnodup
    -- the later transforms leave the rows of this collection alone
    have hkeep : ∀ p, rewritten rest collection p = .ok p := rewritten_of_not_mem hnot
    rw [rewriteAll]
    cases hfirst : rewriteCollection collection f db with
    | error e =>
      refine ⟨⟨fun ⟨u, hu⟩ => (nomatch hu), fun h => ?_⟩, fun u hu => (nomatch hu)⟩
      exfalso
      obtain ⟨u, hu⟩ := rewriteCollection_isOk h
      rw [hfirst] at hu
      cases hu
    | ok u₁ =>
      simp only [rewritten_cons]
      obtain ⟨hiff, hget⟩ := @rewriteAll_spec rest u₁ hrest
      have hu₁ : ∀ k, u₁.get k = _ := Table.get_tryMap hfirst
      have hrow := fun k p hk => Table.tryMap_row (k := k) (v := p) hfirst hk
      constructor
      · rw [hiff]
        constructor
        · intro h k p hp
          obtain ⟨p₁, hp₁, hup₁⟩ := hrow k p hp
          by_cases hk : k.1 = collection
          · rw [if_pos hk] at hp₁ ⊢
            exact ⟨p₁, hp₁⟩
          · rw [if_neg hk] at hp₁ ⊢
            cases hp₁
            exact h k p hup₁
        · intro h k p₁ hp₁
          cases hp : db.get k with
          | none =>
            rw [Table.tryMap_none hfirst hp] at hp₁
            cases hp₁
          | some p =>
            obtain ⟨p', hp', hup'⟩ := hrow k p hp
            rw [hup'] at hp₁
            cases hp₁
            by_cases hk : k.1 = collection
            · rw [hk]
              exact ⟨_, hkeep _⟩
            · rw [if_neg hk] at hp'
              cases hp'
              obtain ⟨p₂, hp₂⟩ := h k _ hp
              rw [if_neg hk] at hp₂
              exact ⟨p₂, hp₂⟩
      · intro u hu k
        rw [hget u hu k, hu₁ k]
        cases hp : db.get k with
        | none => rfl
        | some p =>
          obtain ⟨p₁, hp₁, -⟩ := hrow k p hp
          simp only [Option.bind_some]
          rw [hp₁]
          by_cases hk : k.1 = collection
          · rw [if_pos hk] at hp₁ ⊢
            rw [hp₁, hk]
            simp [Except.toOption, hkeep]
          · rw [if_neg hk] at hp₁ ⊢
            cases hp₁
            rfl

/-! ## Renaming a collection -/

/-- `UPDATE records SET collection = new WHERE collection = old`, on a key. -/
def moveKey (words : String × String) (k : String × String) : String × String :=
  if k.1 = words.1 then (words.2, k.2) else k

theorem moveKey_injOn {words : String × String} {db : Records}
    (hfree : db.hasCollection words.2 = false) :
    ∀ k ∈ db.keys, ∀ q ∈ db.keys, moveKey words k = moveKey words q → k = q := by
  have hnew : ∀ k ∈ db.keys, k.1 ≠ words.2 := by
    intro k hk h
    obtain ⟨p, hp⟩ := db.mem_keys_iff.mp hk
    have hnone := hasCollection_eq_false.mp hfree k.2
    rw [← h, hp] at hnone
    cases hnone
  intro k hk q hq h
  obtain ⟨c, i⟩ := k
  obtain ⟨d, j⟩ := q
  simp only [moveKey] at h
  split at h <;> split at h
  · simp_all
  · exact absurd (congrArg Prod.fst h).symm (hnew _ hq)
  · exact absurd (congrArg Prod.fst h) (hnew _ hk)
  · exact h

/-! ## The runner -/

/-- `migrate` around the operation of one step: an error rolls everything back. -/
def migrate {σ ε : Type} (operation : σ → Except ε σ) (db : σ) : σ × Option ε :=
  match operation db with
  | .ok db' => (db', none)
  | .error e => (db, some e)

theorem migrate_error {σ ε : Type} {operation : σ → Except ε σ} {db : σ} {e : ε}
    (h : (migrate operation db).2 = some e) : (migrate operation db).1 = db := by
  unfold migrate at h ⊢
  split at h
  · cases h
  · rfl

end NuSelf.Migrations
