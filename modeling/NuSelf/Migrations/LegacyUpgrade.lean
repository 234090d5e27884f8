/-
  From schema v1 to v4: payloads become columns, and records again.

  A v1 table has an id and a payload.  The first step adds a column for every key of its payloads,
  fills them, and drops the column of the payloads; the second adds the tables of v3; the third is
  the compaction.  A key that is called like the column of the payloads is written into that column
  and dropped with it.

  1. `upgradeTable_isOk_iff`, `upgradeTable_ok` — the first step on one table: when it goes through,
     and cell by cell what it leaves;
  2. `legacyUpgrade_isOk_iff`, `legacyUpgrade_ok` — the three steps;
  3. `lossless_iff` — exactly when they raise or lose nothing.
-/
import NuSelf.Migrations.Compact

namespace NuSelf.Migrations.V3V4

open NuSelf.Lib NuSelf.Storage NuSelf.Migrations

/-! ## Payloads become columns -/

/-- The object that a decoder builds from these fields: the last value of a key counts. -/
def ofFields (fields : List (String × Json)) : Record :=
  fields.foldl (fun record field => record.set field.1 field.2) Table.empty

/-- A v1 row: its id, and its payload with the id. -/
def readPayload (row : String × Table String Cell) : Except LegacyError (String × Record) :=
  match row.2.get "payload" with
  | some (some (.obj fields)) =>
    let record := ofFields fields
    if (record.get "id").getD (.str row.1) ≠ .str row.1 then .error .payloadIdMismatch
    else .ok (row.1, record.set "id" (.str row.1))
  | none => .error .invalidRow
  | _ => .error .invalidPayload

/-- The fields of a record go into the columns of its row. -/
def updateRow (row_id : String) :
    List (String × Json) → ColumnTable Cell → Except LegacyError (ColumnTable Cell)
  | [], t => .ok t
  | (key, value) :: rest, t =>
    if key = "id" then updateRow row_id rest t
    else if value.finite = true then do
      let t ← fromColumns (t.setCell key row_id (some value))
      updateRow row_id rest t
    else .error .notFinite

def updateRows : List (String × Record) → ColumnTable Cell →
    Except LegacyError (ColumnTable Cell)
  | [], t => .ok t
  | (row_id, record) :: rest, t => do
    let t ← updateRow row_id record.rows t
    updateRows rest t

/-- The keys that get a column. -/
def newColumns (t : ColumnTable Cell) (records : List (String × Record)) : List String :=
  (sortedKeys records).filter fun key => decide (key ∉ t.columns)

/-- The body of the loop of `v001_to_v002.upgrade`. -/
def upgradeTable (t : ColumnTable Cell) : Except LegacyError (ColumnTable Cell) :=
  if "payload" ∉ t.columns then .ok t
  else if t.nameless ≠ [] then .error .invalidRow
  else do
    let records ← tryAll readPayload t.rows.rows
    let t ← fromColumns (ColumnTable.addColumns (newColumns t records) t)
    let t ← updateRows records t
    fromColumns (t.dropColumn "payload")

/-- The loop; a table that is missing has no column `payload`. -/
def upgradeTables : List String → Table String (ColumnTable Cell) →
    Except LegacyError (Table String (ColumnTable Cell))
  | [], tables => .ok tables
  | collection :: rest, tables =>
    match tables.get collection with
    | none => upgradeTables rest tables
    | some t => do
      let t ← upgradeTable t
      upgradeTables rest (tables.set collection t)

/-- `v001_to_v002.upgrade`. -/
def upgradeToV2 (db : Legacy) : Except LegacyError Legacy := do
  let tables ← upgradeTables schemaCollectionsV1 db.tables
  return { db with tables }

/-! ## The tables of v3, and the three steps -/

/-- `CREATE TABLE IF NOT EXISTS` for every collection. -/
def createTables (collections : List String) (tables : Table String (ColumnTable Cell)) :
    Table String (ColumnTable Cell) :=
  collections.foldl
    (fun tables collection =>
      if tables.contains collection = true then tables
      else tables.set collection (ColumnTable.new Cell))
    tables

/-- `v002_to_v003.upgrade`. -/
def upgradeToV3 (db : Legacy) : Legacy :=
  { db with tables := createTables schemaCollectionsV3 db.tables }

/-- The three upgrades, in one transaction. -/
def legacyUpgrade (db : Legacy) : Except LegacyError Compact := do
  let db ← upgradeToV2 db
  upgrade (upgradeToV3 db)

/-! ## One table -/

theorem updateRow_cons {row_id key : String} {value : Json} {rest : List (String × Json)}
    {t t' : ColumnTable Cell} (hkey : key ≠ "id") :
    updateRow row_id ((key, value) :: rest) t = .ok t' ↔
      value.finite = true ∧ ∃ t₁, t.setCell key row_id (some value) = .ok t₁ ∧
        updateRow row_id rest t₁ = .ok t' := by
  rw [updateRow, if_neg hkey]
  constructor
  · intro h
    split at h
    · rename_i hfinite
      obtain ⟨t₁, hcell, hrest⟩ := bind_ok h
      exact ⟨hfinite, t₁, fromColumns_ok.mp hcell, hrest⟩
    · cases h
  · rintro ⟨hfinite, t₁, hcell, hrest⟩
    have hcell' : fromColumns (t.setCell key row_id (some value)) = .ok t₁ :=
      fromColumns_ok.mpr hcell
    rw [if_pos hfinite]
    show (fromColumns (t.setCell key row_id (some value)) >>= _) = _
    rw [hcell']
    exact hrest

/-- A row can be filled when its values can be encoded and there are columns for them. -/
theorem updateRow_isOk_iff {row_id : String} :
    ∀ {fields : List (String × Json)} {t : ColumnTable Cell},
      (∃ t', updateRow row_id fields t = .ok t') ↔
        ∀ field ∈ fields, field.1 ≠ "id" → field.2.finite = true ∧ field.1 ∈ t.columns
  | [], t => ⟨fun _ _ h => (nomatch h), fun _ => ⟨t, rfl⟩⟩
  | (key, value) :: rest, t => by
    rw [List.forall_mem_cons]
    by_cases hkey : key = "id"
    · rw [updateRow, if_pos hkey, updateRow_isOk_iff]
      exact ⟨fun h => ⟨fun hne => absurd hkey hne, h⟩, fun h => h.2⟩
    · constructor
      · rintro ⟨t', h⟩
        obtain ⟨hfinite, t₁, hcell, hrest⟩ := (updateRow_cons hkey).mp h
        obtain ⟨hcolumns, -⟩ := ColumnTable.setCell_ok hcell
        have hthere := ColumnTable.setCell_isOk_iff.mp ⟨t₁, hcell⟩
        have hall := updateRow_isOk_iff.mp ⟨t', hrest⟩
        rw [hcolumns] at hall
        exact ⟨fun _ => ⟨hfinite, hthere.1⟩, hall⟩
      · rintro ⟨hfirst, hall⟩
        obtain ⟨hfinite, hcolumn⟩ := hfirst hkey
        obtain ⟨t₁, hcell⟩ := ColumnTable.setCell_isOk_iff.mpr ⟨hcolumn, hkey⟩
        obtain ⟨hcolumns, -⟩ := ColumnTable.setCell_ok hcell
        obtain ⟨t', hrest⟩ := updateRow_isOk_iff.mpr (hcolumns ▸ hall)
        exact ⟨t', (updateRow_cons hkey).mpr ⟨hfinite, t₁, hcell, hrest⟩⟩

/-- A row that was filled has the values of the fields, and no other row changes. -/
theorem updateRow_ok {row_id : String} :
    ∀ {fields : List (String × Json)} {t t' : ColumnTable Cell},
      (fields.map Prod.fst).Nodup → updateRow row_id fields t = .ok t' →
      t'.columns = t.columns ∧ t'.rows.keys = t.rows.keys ∧ t'.nameless = t.nameless ∧
      ∀ q k, t'.cell q k =
        if q = row_id ∧ row_id ∈ t.rows.keys ∧ k ≠ "id" ∧ fields.lookup k ≠ none then
          (fields.lookup k).map some
        else t.cell q k
  | [], t, t', _, h => by
    cases h
    exact ⟨rfl, rfl, rfl, fun q k => by simp⟩
  | (key, value) :: rest, t, t', hnodup, h => by
    obtain ⟨hnot, hnodup⟩ := List.nodup_cons.mp hnodup
    have hgone : rest.lookup key = none := lookup_eq_none_of_not_mem hnot
    by_cases hkey : key = "id"
    · rw [updateRow, if_pos hkey] at h
      obtain ⟨hcolumns, hkeys, hnameless, hcell⟩ := updateRow_ok hnodup h
      refine ⟨hcolumns, hkeys, hnameless, fun q k => ?_⟩
      rw [hcell]
      by_cases hk : k = key
      · simp [hk, hkey]
      · rw [lookup_row, if_neg hk]
    · obtain ⟨-, t₁, hset, hrest⟩ := (updateRow_cons hkey).mp h
      obtain ⟨hcolumns₁, hkeys₁, hnameless₁, hcell₁⟩ := ColumnTable.setCell_ok hset
      obtain ⟨hcolumns, hkeys, hnameless, hcell⟩ := updateRow_ok hnodup hrest
      refine ⟨hcolumns.trans hcolumns₁, hkeys.trans hkeys₁, hnameless.trans hnameless₁,
        fun q k => ?_⟩
      rw [hcell, hcell₁, hkeys₁]
      by_cases hk : k = key
      · -- the field itself; no later field has its key
        subst hk
        by_cases hq : q = row_id ∧ row_id ∈ t.rows.keys
        · rw [if_neg (by simp [hgone]), if_pos ⟨hq.1, rfl, hq.2⟩, lookup_row, if_pos rfl,
            if_pos ⟨hq.1, hq.2, hkey, by simp⟩]
          rfl
        · rw [if_neg (by simp [hgone]), if_neg fun h => hq ⟨h.1, h.2.2⟩,
            if_neg fun h => hq ⟨h.1, h.2.1⟩]
      · have hne : ¬ (q = row_id ∧ k = key ∧ row_id ∈ t.rows.keys) := fun h => hk h.2.1
        rw [if_neg hne, lookup_row, if_neg hk]

theorem updateRows_cons {row_id : String} {record : Record} {rest : List (String × Record)}
    {t t' : ColumnTable Cell} :
    updateRows ((row_id, record) :: rest) t = .ok t' ↔
      ∃ t₁, updateRow row_id record.rows t = .ok t₁ ∧ updateRows rest t₁ = .ok t' := by
  constructor
  · exact bind_ok
  · rintro ⟨t₁, hrow, hrest⟩
    show (updateRow row_id record.rows t >>= _) = _
    rw [hrow]
    exact hrest

/-- The values of a record can be encoded, and its keys have columns. -/
def Fillable (columns : List String) (record : Record) : Prop :=
  ∀ k v, record.get k = some v → k ≠ "id" → v.finite = true ∧ k ∈ columns

theorem fillable_iff {columns : List String} {record : Record} :
    (∀ field ∈ record.rows, field.1 ≠ "id" → field.2.finite = true ∧ field.1 ∈ columns) ↔
      Fillable columns record := by
  constructor
  · exact fun h k v hv => h (k, v) (record.mem_rows_iff.mpr hv)
  · exact fun h field hfield => h field.1 field.2 (record.mem_rows_iff.mp hfield)

/-- **The rows can be filled** when every record can. -/
theorem updateRows_isOk_iff :
    ∀ {records : List (String × Record)} {t : ColumnTable Cell},
      (∃ t', updateRows records t = .ok t') ↔ ∀ row ∈ records, Fillable t.columns row.2
  | [], t => ⟨fun _ _ h => (nomatch h), fun _ => ⟨t, rfl⟩⟩
  | (row_id, record) :: rest, t => by
    rw [List.forall_mem_cons]
    constructor
    · rintro ⟨t', h⟩
      obtain ⟨t₁, hrow, hrest⟩ := updateRows_cons.mp h
      have hcolumns := (updateRow_ok record.nodup hrow).1
      exact ⟨fillable_iff.mp (updateRow_isOk_iff.mp ⟨t₁, hrow⟩),
        hcolumns ▸ updateRows_isOk_iff.mp ⟨t', hrest⟩⟩
    · rintro ⟨hrecord, hall⟩
      obtain ⟨t₁, hrow⟩ := updateRow_isOk_iff.mpr (fillable_iff.mpr hrecord)
      have hcolumns := (updateRow_ok record.nodup hrow).1
      obtain ⟨t', hrest⟩ := updateRows_isOk_iff.mpr (hcolumns.symm ▸ hall)
      exact ⟨t', updateRows_cons.mpr ⟨t₁, hrow, hrest⟩⟩

/-- **Rows that were filled** have the values of their records. -/
theorem updateRows_ok :
    ∀ {records : List (String × Record)} {t t' : ColumnTable Cell},
      (records.map Prod.fst).Nodup → updateRows records t = .ok t' →
      t'.columns = t.columns ∧ t'.rows.keys = t.rows.keys ∧ t'.nameless = t.nameless ∧
      (∀ row ∈ records, row.1 ∈ t.rows.keys → ∀ k, t'.cell row.1 k =
        if k ≠ "id" ∧ row.2.get k ≠ none then (row.2.get k).map some else t.cell row.1 k) ∧
      ∀ q, q ∉ records.map Prod.fst → ∀ k, t'.cell q k = t.cell q k
  | [], t, t', _, h => by
    cases h
    exact ⟨rfl, rfl, rfl, fun _ h => (nomatch h), fun _ _ _ => rfl⟩
  | (row_id, record) :: rest, t, t', hnodup, h => by
    obtain ⟨hnot, hnodup⟩ := List.nodup_cons.mp hnodup
    obtain ⟨t₁, hrow, hrest⟩ := updateRows_cons.mp h
    obtain ⟨hcolumns₁, hkeys₁, hnameless₁, hcell₁⟩ := updateRow_ok record.nodup hrow
    obtain ⟨hcolumns, hkeys, hnameless, hfilled, hother⟩ := updateRows_ok hnodup hrest
    have hskip : ∀ q, q ≠ row_id → ∀ k, t₁.cell q k = t.cell q k := fun q hq k => by
      rw [hcell₁, if_neg fun h => hq h.1]
    refine ⟨hcolumns.trans hcolumns₁, hkeys.trans hkeys₁, hnameless.trans hnameless₁, ?_, ?_⟩
    · refine List.forall_mem_cons.mpr ⟨fun hid k => ?_, fun row hmem hid k => ?_⟩
      · -- no later record has this id
        have hget : record.rows.lookup k = record.get k := rfl
        rw [hother row_id hnot, hcell₁, hget]
        by_cases hk : k ≠ "id" ∧ record.get k ≠ none
        · rw [if_pos hk, if_pos ⟨rfl, hid, hk⟩]
        · rw [if_neg hk, if_neg fun h => hk h.2.2]
      · have hne : ¬ row.1 = row_id := by
          intro he
          have hmem' : row.1 ∈ rest.map Prod.fst := List.mem_map_of_mem hmem
          rw [he] at hmem'
          exact hnot hmem'
        rw [hfilled row hmem (hkeys₁ ▸ hid) k, hskip row.1 hne]
    · intro q hq k
      rw [List.map_cons, List.mem_cons, not_or] at hq
      rw [hother q hq.2, hskip q hq.1]

/-- The payload of a row, if it holds a JSON object. -/
def payloadOf (t : ColumnTable Cell) (id : String) : Option Record :=
  match t.cell id "payload" with
  | some (some (.obj fields)) => some (ofFields fields)
  | _ => none

theorem readPayload_ok {t : ColumnTable Cell} {id : String} {cells : Table String Cell}
    (hcells : t.rows.get id = some cells) {row : String × Record} :
    readPayload (id, cells) = .ok row ↔ ∃ record, payloadOf t id = some record ∧
      (record.get "id" = none ∨ record.get "id" = some (.str id)) ∧
      row = (id, record.set "id" (.str id)) := by
  have hcell : t.cell id "payload" = cells.get "payload" := by
    rw [ColumnTable.cell, hcells]
    rfl
  unfold readPayload payloadOf
  rw [hcell]
  dsimp only
  split
  · rename_i fields hfields
    rw [hfields]
    have hmatch : (ofFields fields).get "id" = none ∨
        (ofFields fields).get "id" = some (.str id) ↔
          ¬ ((ofFields fields).get "id").getD (.str id) ≠ .str id := by
      cases (ofFields fields).get "id" <;> simp
    split
    · rename_i hbad
      refine iff_of_false (by rintro ⟨⟩) ?_
      rintro ⟨record, hrecord, hid, -⟩
      cases hrecord
      exact absurd hbad (hmatch.mp hid)
    · rename_i hgood
      constructor
      · intro h
        cases h
        exact ⟨_, rfl, hmatch.mpr hgood, rfl⟩
      · rintro ⟨record, hrecord, -, rfl⟩
        cases hrecord
        rfl
  · rename_i hnone
    rw [hnone]
    exact iff_of_false (by rintro ⟨⟩) (by rintro ⟨_, ⟨⟩, -⟩)
  · rename_i hnot _
    refine iff_of_false (by rintro ⟨⟩) ?_
    rintro ⟨record, hrecord, -⟩
    split at hrecord
    · rename_i fields hfields
      exact absurd hfields (hnot fields)
    · cases hrecord

/-- The payloads of a table, each with its id. -/
def payloads (t : ColumnTable Cell) : List (String × Record) :=
  t.rows.rows.filterMap fun row => (readPayload row).toOption

/-- The keys of its payloads that are not columns yet, each once. -/
def payloadKeys (t : ColumnTable Cell) : List String := newColumns t (payloads t)

/-- A v1 table that the first step accepts. -/
structure Upgradable (t : ColumnTable Cell) : Prop where
  /-- Every id is a text. -/
  nameless : t.nameless = []
  /-- Every payload is an object, and an id in it is that of its row. -/
  objects : ∀ id ∈ t.rows.keys, ∃ record, payloadOf t id = some record ∧
    (record.get "id" = none ∨ record.get "id" = some (.str id))
  finite : ∀ id record k v, payloadOf t id = some record → record.get k = some v → k ≠ "id" →
    v.finite = true
  /-- The keys can be columns: by name, up to the case of their letters, and by number. -/
  nameable : ∀ key ∈ payloadKeys t, ColumnTable.Nameable key
  distinct : ((t.columns ++ payloadKeys t).map foldName).Nodup
  few : payloadKeys t = [] ∨ t.columns.length + (payloadKeys t).length ≤ columnLimit

section

variable {t t' : ColumnTable Cell}

theorem readPayloads_isOk_iff : (∃ records, tryAll readPayload t.rows.rows = .ok records) ↔
    ∀ id ∈ t.rows.keys, ∃ record, payloadOf t id = some record ∧
      (record.get "id" = none ∨ record.get "id" = some (.str id)) := by
  rw [tryAll_isOk_iff, forall_rows_iff]
  constructor
  · intro h id hid
    obtain ⟨cells, hcells⟩ := t.rows.mem_keys_iff.mp hid
    obtain ⟨row, hrow⟩ := h id cells hcells
    obtain ⟨record, hrecord, hmatch, -⟩ := (readPayload_ok hcells).mp hrow
    exact ⟨record, hrecord, hmatch⟩
  · intro h id cells hcells
    obtain ⟨record, hrecord, hmatch⟩ := h id (t.rows.mem_keys_iff.mpr ⟨cells, hcells⟩)
    exact ⟨_, (readPayload_ok hcells).mpr ⟨record, hrecord, hmatch, rfl⟩⟩

theorem mem_payloads {records : List (String × Record)}
    (h : tryAll readPayload t.rows.rows = .ok records) {row : String × Record} :
    row ∈ records ↔ ∃ record, payloadOf t row.1 = some record ∧
      (record.get "id" = none ∨ record.get "id" = some (.str row.1)) ∧
      row.2 = record.set "id" (.str row.1) := by
  rw [mem_tryAll h]
  constructor
  · rintro ⟨⟨id, cells⟩, hmem, hok⟩
    obtain ⟨record, hrecord, hmatch, rfl⟩ := (readPayload_ok (t.rows.mem_rows_iff.mp hmem)).mp hok
    exact ⟨record, hrecord, hmatch, rfl⟩
  · obtain ⟨id, record'⟩ := row
    rintro ⟨record, hrecord, hmatch, hset⟩
    dsimp only at hrecord hmatch hset
    subst hset
    have hcell : t.cell id "payload" ≠ none := by
      intro hnone
      rw [payloadOf, hnone] at hrecord
      cases hrecord
    cases hcells : t.rows.get id with
    | none =>
      rw [ColumnTable.cell, hcells] at hcell
      exact absurd rfl hcell
    | some cells =>
      exact ⟨(id, cells), t.rows.mem_rows_iff.mpr hcells,
        (readPayload_ok hcells).mpr ⟨record, hrecord, hmatch, rfl⟩⟩

theorem ids_payloads {records : List (String × Record)}
    (h : tryAll readPayload t.rows.rows = .ok records) :
    records.map Prod.fst = t.rows.keys := by
  have hids : ∀ {rows : List (String × Table String Cell)} {records : List (String × Record)},
      tryAll readPayload rows = .ok records → records.map Prod.fst = rows.map Prod.fst := by
    intro rows
    induction rows with
    | nil =>
      intro records h
      cases h
      rfl
    | cons row rest ih =>
      intro records h
      obtain ⟨r, rs, hr, hrs, rfl⟩ := tryAll_cons_ok.mp h
      have hid : r.1 = row.1 := by
        unfold readPayload at hr
        split at hr
        · dsimp only at hr
          split at hr
          · cases hr
          · cases hr
            rfl
        · cases hr
        · cases hr
      rw [List.map_cons, List.map_cons, hid, ih hrs]
  exact hids h

theorem fillable_iff_finite {records : List (String × Record)} {row : String × Record}
    (hrow : row ∈ records) : Fillable (t.columns ++ newColumns t records) row.2 ↔
      ∀ k v, row.2.get k = some v → k ≠ "id" → v.finite = true := by
  constructor
  · exact fun h k v hv hk => (h k v hv hk).1
  · refine fun h k v hv hk => ⟨h k v hv hk, ?_⟩
    by_cases hcolumn : k ∈ t.columns
    · exact List.mem_append_left _ hcolumn
    · refine List.mem_append_right _ (List.mem_filter.mpr ⟨?_, decide_eq_true hcolumn⟩)
      exact mem_sortedKeys.mpr ⟨hk, row, hrow, row.2.mem_keys_iff.mpr ⟨v, hv⟩⟩

theorem upgradeTable_eq_ok (hpayload : "payload" ∈ t.columns) :
    upgradeTable t = .ok t' ↔ t.nameless = [] ∧ ∃ records t₁ t₂,
      tryAll readPayload t.rows.rows = .ok records ∧
      ColumnTable.addColumns (newColumns t records) t = .ok t₁ ∧
      updateRows records t₁ = .ok t₂ ∧ t₂.dropColumn "payload" = .ok t' := by
  unfold upgradeTable
  rw [if_neg (not_not_intro hpayload)]
  by_cases hnameless : t.nameless = []
  · rw [if_neg (not_not_intro hnameless)]
    constructor
    · intro h
      obtain ⟨records, hrecords, h⟩ := bind_ok h
      obtain ⟨t₁, hadd, h⟩ := bind_ok h
      obtain ⟨t₂, hupdate, h⟩ := bind_ok h
      exact ⟨hnameless, records, t₁, t₂, hrecords, fromColumns_ok.mp hadd, hupdate,
        fromColumns_ok.mp h⟩
    · rintro ⟨-, records, t₁, t₂, hrecords, hadd, hupdate, hdrop⟩
      rw [hrecords]
      show (fromColumns (ColumnTable.addColumns (newColumns t records) t) >>= _) = _
      rw [fromColumns_ok.mpr hadd]
      show (updateRows records t₁ >>= _) = _
      rw [hupdate]
      exact fromColumns_ok.mpr hdrop
  · rw [if_pos hnameless]
    exact ⟨fun h => (nomatch h), fun h => absurd h.1 hnameless⟩

/-- **One table goes through** exactly when its payloads can become columns. -/
theorem upgradeTable_isOk_iff (hpayload : "payload" ∈ t.columns) :
    (∃ t', upgradeTable t = .ok t') ↔ Upgradable t := by
  have hfinite : ∀ {records}, tryAll readPayload t.rows.rows = .ok records →
      ((∀ row ∈ records, Fillable (t.columns ++ newColumns t records) row.2) ↔
        ∀ id record k v, payloadOf t id = some record → record.get k = some v → k ≠ "id" →
          v.finite = true) := by
    intro records hrecords
    have hget : ∀ {record : Record} {id k : String}, k ≠ "id" →
        (record.set "id" (.str id)).get k = record.get k :=
      fun hk => Table.get_set_ne _ _ hk
    constructor
    · intro h id record k v hrecord hv hk
      have hid : id ∈ t.rows.keys := by
        by_contra hnot
        rw [payloadOf, ColumnTable.cell_eq_none hnot] at hrecord
        cases hrecord
      obtain ⟨record', hrecord', hmatch⟩ := readPayloads_isOk_iff.mp ⟨records, hrecords⟩ id hid
      cases hrecord.symm.trans hrecord'
      have hrow : (id, record.set "id" (.str id)) ∈ records :=
        (mem_payloads hrecords).mpr ⟨record, hrecord, hmatch, rfl⟩
      refine (h _ hrow k v ?_ hk).1
      rw [hget hk]
      exact hv
    · intro h row hrow
      obtain ⟨record, hrecord, -, hset⟩ := (mem_payloads hrecords).mp hrow
      refine (fillable_iff_finite hrow).mpr fun k v hv hk => h row.1 record k v hrecord ?_ hk
      rw [hset, hget hk] at hv
      exact hv
  constructor
  · rintro ⟨t', h⟩
    obtain ⟨hnameless, records, t₁, t₂, hrecords, hadd, hupdate, -⟩ :=
      (upgradeTable_eq_ok hpayload).mp h
    have hkeys : newColumns t records = payloadKeys t := by
      rw [payloadKeys, payloads, tryAll_eq hrecords]
    obtain ⟨hnameable, hdistinct, hfew⟩ := ColumnTable.addColumns_isOk_iff.mp ⟨t₁, hadd⟩
    have hfill := updateRows_isOk_iff.mp ⟨t₂, hupdate⟩
    rw [(ColumnTable.addColumns_ok hadd).1] at hfill
    rw [hkeys] at hnameable hdistinct hfew
    exact ⟨hnameless, readPayloads_isOk_iff.mp ⟨records, hrecords⟩,
      (hfinite hrecords).mp hfill, hnameable, hdistinct, hfew⟩
  · intro hup
    obtain ⟨records, hrecords⟩ := readPayloads_isOk_iff.mpr hup.objects
    have hkeys : newColumns t records = payloadKeys t := by
      rw [payloadKeys, payloads, tryAll_eq hrecords]
    have hadd : ∃ t₁, ColumnTable.addColumns (newColumns t records) t = .ok t₁ := by
      rw [hkeys]
      exact ColumnTable.addColumns_isOk_iff.mpr ⟨hup.nameable, hup.distinct, hup.few⟩
    obtain ⟨t₁, hadd⟩ := hadd
    have hcolumns := (ColumnTable.addColumns_ok hadd).1
    obtain ⟨t₂, hupdate⟩ := updateRows_isOk_iff.mpr
      (hcolumns.symm ▸ (hfinite hrecords).mpr hup.finite)
    have hnodup : (records.map Prod.fst).Nodup := by
      rw [ids_payloads hrecords]
      exact t.rows.nodup
    have hcolumns₂ := (updateRows_ok hnodup hupdate).1
    have hdrop : ∃ t', t₂.dropColumn "payload" = .ok t' := by
      refine ColumnTable.dropColumn_isOk_iff.mpr ⟨?_, by simp⟩
      rw [hcolumns₂, hcolumns]
      exact List.mem_append_left _ hpayload
    obtain ⟨t', hdrop⟩ := hdrop
    exact ⟨t', (upgradeTable_eq_ok hpayload).mpr
      ⟨hup.nameless, records, t₁, t₂, hrecords, hadd, hupdate, hdrop⟩⟩

/-- **What the first step leaves** of a table with an id and a payload: the fields of the payload,
    but for its id and for a field called like the payload itself. -/
theorem upgradeTable_ok (hcolumns : t.columns = ["id", "payload"])
    (h : upgradeTable t = .ok t') :
    t'.nameless = [] ∧ t'.rows.keys = t.rows.keys ∧
      ∀ id ∈ t.rows.keys, ∃ record, payloadOf t id = some record ∧
        ∀ k, t'.cell id k = if k = "id" ∨ k = "payload" then none else (record.get k).map some := by
  have hpayload : "payload" ∈ t.columns := by simp [hcolumns]
  obtain ⟨hnameless, records, t₁, t₂, hrecords, hadd, hupdate, hdrop⟩ :=
    (upgradeTable_eq_ok hpayload).mp h
  obtain ⟨-, hrows₁, hnameless₁⟩ := ColumnTable.addColumns_ok hadd
  have hnodup : (records.map Prod.fst).Nodup := by
    rw [ids_payloads hrecords]
    exact t.rows.nodup
  obtain ⟨-, hkeys₂, hnameless₂, hfilled, -⟩ := updateRows_ok hnodup hupdate
  obtain ⟨-, hkeys, hnameless', hcell⟩ := ColumnTable.dropColumn_ok hdrop
  refine ⟨?_, by rw [hkeys, hkeys₂, hrows₁], fun id hid => ?_⟩
  · rw [hnameless', hnameless₂, hnameless₁, hnameless]
    rfl
  · obtain ⟨record, hrecord, hmatch⟩ := readPayloads_isOk_iff.mp ⟨records, hrecords⟩ id hid
    have hrow : (id, record.set "id" (.str id)) ∈ records :=
      (mem_payloads hrecords).mpr ⟨record, hrecord, hmatch, rfl⟩
    refine ⟨record, hrecord, fun k => ?_⟩
    have hold : k ≠ "payload" → t₁.cell id k = none := by
      intro hk
      cases hv : t₁.cell id k with
      | none => rfl
      | some v =>
        have hv' : t.cell id k = some v := by
          rw [ColumnTable.cell, hrows₁] at hv
          exact hv
        obtain ⟨hmem, hne⟩ := ColumnTable.cell_eq_some hv'
        rw [hcolumns] at hmem
        simp [hne, hk] at hmem
    rw [hcell]
    by_cases hk : k = "payload"
    · rw [if_pos hk, if_pos (Or.inr hk)]
    · rw [if_neg hk, hfilled _ hrow (by rw [hrows₁]; exact hid) k]
      by_cases hid' : k = "id"
      · rw [if_neg (by simp [hid']), if_pos (Or.inl hid'), hold hk]
      · have hget : (record.set "id" (.str id)).get k = record.get k :=
          Table.get_set_ne _ _ hid'
        have hright : (if k = "id" ∨ k = "payload" then none else (record.get k).map some) =
            (record.get k).map some := if_neg (by simp [hid', hk])
        rw [hright]
        dsimp only
        rw [hget]
        cases hv : record.get k with
        | none => rw [if_neg (by simp), hold hk, Option.map_none]
        | some v => rw [if_pos ⟨hid', by simp⟩]

end

/-! ## The tables of a database -/

theorem upgradeTables_isOk_iff :
    ∀ {collections : List String} {tables : Table String (ColumnTable Cell)}, collections.Nodup →
      (∀ c ∈ collections, ∀ t, tables.get c = some t → "payload" ∈ t.columns) →
      ((∃ tables', upgradeTables collections tables = .ok tables') ↔
        ∀ c ∈ collections, ∀ t, tables.get c = some t → Upgradable t)
  | [], tables, _, _ => ⟨fun _ _ h => absurd h List.not_mem_nil, fun _ => ⟨tables, rfl⟩⟩
  | collection :: rest, tables, hnodup, hpayload => by
    obtain ⟨hnot, hnodup⟩ := List.nodup_cons.mp hnodup
    obtain ⟨hfirst, hpayload⟩ := List.forall_mem_cons.mp hpayload
    have hsame : ∀ t' : ColumnTable Cell, ∀ c ∈ rest,
        (tables.set collection t').get c = tables.get c := by
      intro t' c hc
      refine Table.get_set_ne _ _ ?_
      rintro rfl
      exact hnot hc
    rw [List.forall_mem_cons, upgradeTables]
    cases ht : tables.get collection with
    | none =>
      dsimp only
      rw [upgradeTables_isOk_iff hnodup hpayload]
      exact ⟨fun h => ⟨fun t ht' => (by cases ht'), h⟩, fun h => h.2⟩
    | some t =>
      have hrest : ∀ t', (∃ tables', upgradeTables rest (tables.set collection t') = .ok tables') ↔
          ∀ c ∈ rest, ∀ t, tables.get c = some t → Upgradable t := by
        intro t'
        rw [upgradeTables_isOk_iff hnodup fun c hc t hct => hpayload c hc t
          (by rw [← hsame t' c hc]; exact hct)]
        exact forall₂_congr fun c hc => by rw [hsame t' c hc]
      constructor
      · rintro ⟨tables', h⟩
        obtain ⟨t', hupgrade, h⟩ := bind_ok h
        refine ⟨fun t₀ ht₀ => ?_, (hrest t').mp ⟨tables', h⟩⟩
        cases ht₀
        exact (upgradeTable_isOk_iff (hfirst t ht)).mp ⟨t', hupgrade⟩
      · rintro ⟨hup, hall⟩
        obtain ⟨t', hupgrade⟩ := (upgradeTable_isOk_iff (hfirst t ht)).mpr (hup t rfl)
        obtain ⟨tables', h⟩ := (hrest t').mpr hall
        refine ⟨tables', ?_⟩
        show (upgradeTable t >>= _) = _
        rw [hupgrade]
        exact h

theorem upgradeTables_ok :
    ∀ {collections : List String} {tables tables' : Table String (ColumnTable Cell)},
      collections.Nodup → upgradeTables collections tables = .ok tables' →
      (∀ c ∈ collections, ∀ t, tables.get c = some t →
        ∃ t', upgradeTable t = .ok t' ∧ tables'.get c = some t') ∧
      ∀ c, (c ∈ collections → tables.get c = none) → tables'.get c = tables.get c
  | [], tables, tables', _, h => by
    cases h
    exact ⟨fun _ h => absurd h List.not_mem_nil, fun _ _ => rfl⟩
  | collection :: rest, tables, tables', hnodup, h => by
    obtain ⟨hnot, hnodup⟩ := List.nodup_cons.mp hnodup
    rw [upgradeTables] at h
    cases ht : tables.get collection with
    | none =>
      rw [ht] at h
      obtain ⟨hup, hother⟩ := upgradeTables_ok hnodup h
      refine ⟨List.forall_mem_cons.mpr ⟨fun t ht' => ?_, hup⟩,
        fun c hc => hother c fun hmem => hc (List.mem_cons_of_mem _ hmem)⟩
      rw [ht] at ht'
      cases ht'
    | some t =>
      rw [ht] at h
      obtain ⟨t', hupgrade, h⟩ := bind_ok h
      obtain ⟨hup, hother⟩ := upgradeTables_ok hnodup h
      have hsame : ∀ c, c ≠ collection → (tables.set collection t').get c = tables.get c :=
        fun c hc => Table.get_set_ne _ _ hc
      refine ⟨List.forall_mem_cons.mpr ⟨fun t₀ ht₀ => ?_, fun c hc t₀ ht₀ => ?_⟩, fun c hc => ?_⟩
      · cases ht.symm.trans ht₀
        refine ⟨t', hupgrade, ?_⟩
        rw [hother collection fun hmem => absurd hmem hnot, Table.get_set_self]
      · refine hup c hc t₀ ?_
        rw [hsame c]
        · exact ht₀
        · rintro rfl
          exact hnot hc
      · have hne : c ≠ collection := by
          rintro rfl
          rw [hc List.mem_cons_self] at ht
          cases ht
        rw [hother c fun hmem => by rw [hsame c hne]; exact hc (List.mem_cons_of_mem _ hmem),
          hsame c hne]

theorem get_createTables : ∀ (collections : List String) (tables : Table String (ColumnTable Cell))
    (c : String), (createTables collections tables).get c =
      if c ∈ collections ∧ tables.get c = none then some (ColumnTable.new Cell) else tables.get c
  | [], tables, c => by simp [createTables]
  | collection :: rest, tables, c => by
    have hcons : createTables (collection :: rest) tables = createTables rest
        (if tables.contains collection = true then tables
          else tables.set collection (ColumnTable.new Cell)) := rfl
    rw [hcons, get_createTables]
    by_cases hthere : tables.contains collection = true
    · rw [if_pos hthere]
      by_cases hc : c = collection
      · subst hc
        have hsome : tables.get c ≠ none := by
          rw [Table.contains, Option.isSome_iff_ne_none] at hthere
          exact hthere
        rw [if_neg fun h => hsome h.2, if_neg fun h => hsome h.2]
      · simp [hc]
    · rw [if_neg hthere]
      by_cases hc : c = collection
      · subst hc
        have hnone : tables.get c = none := by simpa [Table.contains] using hthere
        simp [hnone]
      · simp [hc]

/-! ## The workspace -/

/-- Every workspace row can be read and encoded, and no two have one place. -/
structure WorkspaceFits (rows : List (Option WorkspaceRow)) : Prop where
  readable : ∀ r ∈ rows, ∃ row, r = some row ∧ row.value.finite = true
  distinct : ((rows.filterMap id).map fun row => (row.scope, row.key)).Nodup

theorem copyWorkspace_isOk_iff :
    ∀ {rows : List (Option WorkspaceRow)} {entries : Table (String × String) WorkspaceEntry},
      (∃ entries', copyWorkspace rows entries = .ok entries') ↔
        WorkspaceFits rows ∧ ∀ row, some row ∈ rows → entries.get (row.scope, row.key) = none
  | [], entries => by
    refine ⟨fun _ => ⟨⟨fun _ h => (nomatch h), List.nodup_nil⟩, fun _ h => (nomatch h)⟩,
      fun _ => ⟨entries, rfl⟩⟩
  | none :: rest, entries => by
    refine ⟨fun ⟨_, h⟩ => (nomatch h), fun h => ?_⟩
    obtain ⟨row, hrow, -⟩ := h.1.readable none List.mem_cons_self
    cases hrow
  | some row :: rest, entries => by
    have hput : ∀ value : Payload, (∃ entries', copyWorkspace rest
          (entries.set (row.scope, row.key) ⟨value, row.created_at, row.updated_at⟩) =
            .ok entries') ↔
        WorkspaceFits rest ∧ ∀ row', some row' ∈ rest →
          (row'.scope, row'.key) ≠ (row.scope, row.key) ∧
            entries.get (row'.scope, row'.key) = none := by
      intro value
      rw [copyWorkspace_isOk_iff]
      refine and_congr_right fun _ => forall₂_congr fun row' _ => ?_
      rw [Table.get_set]
      by_cases he : (row'.scope, row'.key) = (row.scope, row.key)
      · rw [if_pos he]
        exact ⟨fun h => (nomatch h), fun h => absurd he h.1⟩
      · rw [if_neg he]
        exact ⟨fun h => ⟨he, h⟩, fun h => h.2⟩
    have hmem : ∀ row', some row' ∈ rest ↔ row' ∈ rest.filterMap id := by
      intro row'
      simp
    constructor
    · rintro ⟨entries', h⟩
      obtain ⟨value, hvalue, h⟩ := bind_ok h
      split at h
      · cases h
      · rename_i hfree
        have hfree : entries.get (row.scope, row.key) = none := by
          simpa [Table.contains] using hfree
        obtain ⟨⟨hreadable, hdistinct⟩, hrest⟩ := (hput value).mp ⟨entries', h⟩
        refine ⟨⟨List.forall_mem_cons.mpr
            ⟨⟨row, rfl, encodeObject_isOk_iff.mp ⟨value, hvalue⟩⟩, hreadable⟩, ?_⟩, ?_⟩
        · refine List.nodup_cons.mpr ⟨fun hin => ?_, hdistinct⟩
          obtain ⟨row', hrow', he⟩ := List.mem_map.mp hin
          exact (hrest row' ((hmem row').mpr hrow')).1 he
        · intro row' hrow'
          rcases List.mem_cons.mp hrow' with he | hrow'
          · cases he
            exact hfree
          · exact (hrest row' hrow').2
    · rintro ⟨⟨hreadable, hdistinct⟩, hfree⟩
      obtain ⟨⟨row₀, he, hfinite⟩, hreadable⟩ := List.forall_mem_cons.mp hreadable
      cases he
      obtain ⟨hnot, hdistinct⟩ := List.nodup_cons.mp hdistinct
      obtain ⟨value, hvalue⟩ := encodeObject_isOk_iff.mpr hfinite
      have hrest := (hput value).mpr ⟨⟨hreadable, hdistinct⟩, fun row' hrow' =>
        ⟨fun he => hnot (List.mem_map.mpr ⟨row', (hmem row').mp hrow', he⟩),
          hfree row' (List.mem_cons_of_mem _ hrow')⟩⟩
      obtain ⟨entries', h⟩ := hrest
      refine ⟨entries', ?_⟩
      rw [copyWorkspace, hvalue]
      have hcontains : ¬ entries.contains (row.scope, row.key) = true := by
        rw [Table.contains, hfree row List.mem_cons_self]
        simp
      show (if entries.contains (row.scope, row.key) = true then _ else _) = _
      rw [if_neg hcontains]
      exact h

/-! ## The three steps -/

/-- A database of schema v1: a table with an id and a payload for each collection. -/
structure V1Database where
  legacy : Legacy
  collections : ∀ c, legacy.tables.get c ≠ none ↔ c ∈ schemaCollectionsV1
  columns : ∀ c t, legacy.tables.get c = some t → t.columns = ["id", "payload"]

namespace V1Database

/-- The payload of a record of v1. -/
def payload (db : V1Database) (collection id : String) : Option Record :=
  (db.legacy.tables.get collection).bind fun t => payloadOf t id

/-- What the three steps accept. -/
structure Accepted (db : V1Database) : Prop where
  workspace : WorkspaceFits (db.legacy.workspace.getD [])
  tables : ∀ c t, db.legacy.tables.get c = some t → Upgradable t
  ids : ∀ c t, db.legacy.tables.get c = some t → "" ∉ t.rows.keys

end V1Database

section

variable {db : V1Database}

theorem nodup_schemaCollectionsV1 : schemaCollectionsV1.Nodup := by decide

theorem upgradeToV2_ok {legacy : Legacy} (h : upgradeToV2 db.legacy = .ok legacy) :
    legacy.workspace = db.legacy.workspace ∧
      (∀ c t, db.legacy.tables.get c = some t →
        ∃ t', upgradeTable t = .ok t' ∧ legacy.tables.get c = some t') ∧
      ∀ c, db.legacy.tables.get c = none → legacy.tables.get c = none := by
  obtain ⟨tables, htables, h⟩ := bind_ok h
  cases h
  obtain ⟨hup, hother⟩ := upgradeTables_ok nodup_schemaCollectionsV1 htables
  refine ⟨rfl, fun c t ht => ?_, fun c hc => ?_⟩
  · exact hup c ((db.collections c).mp (by simp [ht])) t ht
  · show tables.get c = none
    rw [hother c fun _ => hc]
    exact hc

theorem upgradeToV3_workspace (legacy : Legacy) :
    (upgradeToV3 legacy).workspace = legacy.workspace := by
  rw [upgradeToV3]

theorem upgradeToV3_tables {legacy : Legacy} (h : upgradeToV2 db.legacy = .ok legacy) (c : String)
    (hc : c ∈ schemaCollectionsV3) :
    (∃ t t', db.legacy.tables.get c = some t ∧ upgradeTable t = .ok t' ∧
      (upgradeToV3 legacy).tables.get c = some t') ∨
    (db.legacy.tables.get c = none ∧
      (upgradeToV3 legacy).tables.get c = some (ColumnTable.new Cell)) := by
  obtain ⟨-, hup, hnone⟩ := upgradeToV2_ok h
  simp only [upgradeToV3, get_createTables]
  cases ht : db.legacy.tables.get c with
  | none => exact Or.inr ⟨rfl, if_pos ⟨hc, hnone c ht⟩⟩
  | some t =>
    obtain ⟨t', hupgrade, ht'⟩ := hup c t ht
    refine Or.inl ⟨t, t', rfl, hupgrade, ?_⟩
    rw [if_neg (by simp [ht']), ht']

theorem readable_new : ReadableTable (ColumnTable.new Cell) :=
  ⟨rfl, fun _ hid => nomatch hid⟩

/-- A table that went through the first step can be read in the third, if no id is empty. -/
theorem readable_upgradeTable {t t' : ColumnTable Cell} (hcolumns : t.columns = ["id", "payload"])
    (h : upgradeTable t = .ok t') : ReadableTable t' ↔ "" ∉ t.rows.keys := by
  have hpayload : "payload" ∈ t.columns := by simp [hcolumns]
  have hup : Upgradable t := (upgradeTable_isOk_iff hpayload).mp ⟨t', h⟩
  obtain ⟨hnameless, hkeys, hcells⟩ := upgradeTable_ok hcolumns h
  constructor
  · intro hread hempty
    exact (hread.2 "" (by rw [hkeys]; exact hempty)).1 rfl
  · refine fun hempty => ⟨hnameless, fun id hid => ?_⟩
    rw [hkeys] at hid
    refine ⟨fun he => hempty (he ▸ hid), fun k v hv => ?_⟩
    obtain ⟨record, hrecord, hcell⟩ := hcells id hid
    rw [hcell] at hv
    split at hv
    · cases hv
    · rename_i hk
      rw [not_or] at hk
      obtain ⟨value, hvalue, rfl⟩ := Option.map_eq_some_iff.mp hv
      exact ⟨value, rfl, hup.finite id record k value hrecord hvalue hk.1⟩

theorem legacyUpgrade_eq_ok {db' : Compact} :
    legacyUpgrade db.legacy = .ok db' ↔ ∃ legacy, upgradeToV2 db.legacy = .ok legacy ∧
      copyWorkspace (db.legacy.workspace.getD []) Table.empty = .ok db'.workspace ∧
      compactTables (upgradeToV3 legacy).tables schemaCollectionsV3 Table.empty =
        .ok db'.records := by
  constructor
  · intro h
    obtain ⟨legacy, hlegacy, h⟩ := bind_ok h
    obtain ⟨hworkspace, hrecords⟩ := upgrade_eq_ok.mp h
    rw [upgradeToV3_workspace, (upgradeToV2_ok hlegacy).1] at hworkspace
    exact ⟨legacy, hlegacy, hworkspace, hrecords⟩
  · rintro ⟨legacy, hlegacy, hworkspace, hrecords⟩
    rw [← (upgradeToV2_ok hlegacy).1, ← upgradeToV3_workspace] at hworkspace
    rw [legacyUpgrade, hlegacy]
    exact upgrade_eq_ok.mpr ⟨hworkspace, hrecords⟩

theorem freeRecords : ∀ c ∈ schemaCollectionsV3, ∀ id,
    (Table.empty : Records).get (c, id) = none := fun _ _ _ => rfl

/-- **The three steps go through** exactly when the database is accepted. -/
theorem legacyUpgrade_isOk_iff : (∃ db', legacyUpgrade db.legacy = .ok db') ↔ db.Accepted := by
  have hpayload : ∀ c t, db.legacy.tables.get c = some t → "payload" ∈ t.columns := by
    intro c t ht
    simp [db.columns c t ht]
  have hmem : ∀ c t, db.legacy.tables.get c = some t → c ∈ schemaCollectionsV1 :=
    fun c t ht => (db.collections c).mp (by simp [ht])
  have hfirst : (∃ tables, upgradeTables schemaCollectionsV1 db.legacy.tables = .ok tables) ↔
      ∀ c t, db.legacy.tables.get c = some t → Upgradable t := by
    rw [upgradeTables_isOk_iff nodup_schemaCollectionsV1 fun c _ t ht => hpayload c t ht]
    exact ⟨fun h c t ht => h c (hmem c t ht) t ht, fun h c _ t ht => h c t ht⟩
  constructor
  · rintro ⟨db', h⟩
    obtain ⟨legacy, hlegacy, hworkspace, hrecords⟩ := legacyUpgrade_eq_ok.mp h
    have hread := (compactTables_isOk_iff nodup_schemaCollectionsV3 freeRecords).mp ⟨_, hrecords⟩
    obtain ⟨tables, htables, -⟩ := bind_ok hlegacy
    refine ⟨(copyWorkspace_isOk_iff.mp ⟨_, hworkspace⟩).1, hfirst.mp ⟨tables, htables⟩,
      fun c t ht => ?_⟩
    have hc : c ∈ schemaCollectionsV3 := List.mem_append_left _ (hmem c t ht)
    obtain ⟨t₃, ht₃, hreadable⟩ := hread c hc
    rcases upgradeToV3_tables hlegacy c hc with ⟨t₀, t', ht₀, hup, ht'⟩ | ⟨hnone, -⟩
    · cases ht.symm.trans ht₀
      cases ht₃.symm.trans ht'
      exact (readable_upgradeTable (db.columns c t ht) hup).mp hreadable
    · rw [ht] at hnone
      cases hnone
  · intro hacc
    obtain ⟨tables, htables⟩ := hfirst.mpr hacc.tables
    have hlegacy : upgradeToV2 db.legacy = .ok { db.legacy with tables } := by
      show (upgradeTables schemaCollectionsV1 db.legacy.tables >>= _) = _
      rw [htables]
      rfl
    obtain ⟨workspace, hworkspace⟩ := copyWorkspace_isOk_iff.mpr
      ⟨hacc.workspace, fun _ _ => Table.get_empty _⟩
    have hread : ∀ c ∈ schemaCollectionsV3, ∃ t,
        (upgradeToV3 { db.legacy with tables }).tables.get c = some t ∧ ReadableTable t := by
      intro c hc
      rcases upgradeToV3_tables hlegacy c hc with ⟨t, t', ht, hup, ht'⟩ | ⟨-, hnew⟩
      · exact ⟨t', ht', (readable_upgradeTable (db.columns c t ht) hup).mpr (hacc.ids c t ht)⟩
      · exact ⟨_, hnew, readable_new⟩
    obtain ⟨records, hrecords⟩ :=
      (compactTables_isOk_iff nodup_schemaCollectionsV3 freeRecords).mpr hread
    exact ⟨⟨records, workspace⟩, legacyUpgrade_eq_ok.mpr ⟨_, hlegacy, hworkspace, hrecords⟩⟩

/-- **What the three steps leave**: every record of v1 with the fields of its payload, but for its
    id and for a field `payload`, and no other record. -/
theorem legacyUpgrade_ok {db' : Compact} (h : legacyUpgrade db.legacy = .ok db') :
    (∀ c t id, db.legacy.tables.get c = some t → id ∈ t.rows.keys →
      ∃ record p, db.payload c id = some record ∧ db'.records.get (c, id) = some p ∧
        ∀ k, p.record.get k = if k = "id" ∨ k = "payload" then none else record.get k) ∧
    ∀ c id, db'.records.get (c, id) ≠ none →
      ∃ t, db.legacy.tables.get c = some t ∧ id ∈ t.rows.keys := by
  obtain ⟨legacy, hlegacy, -, hrecords⟩ := legacyUpgrade_eq_ok.mp h
  obtain ⟨-, hcompacted, hother⟩ :=
    compactTables_ok nodup_schemaCollectionsV3 freeRecords hrecords
  constructor
  · intro c t id ht hid
    have hc : c ∈ schemaCollectionsV3 :=
      List.mem_append_left _ ((db.collections c).mp (by simp [ht]))
    obtain ⟨t₃, ht₃, hrows⟩ := hcompacted c hc
    rcases upgradeToV3_tables hlegacy c hc with ⟨t₀, t', ht₀, hup, ht'⟩ | ⟨hnone, -⟩
    · cases ht.symm.trans ht₀
      cases ht₃.symm.trans ht'
      obtain ⟨-, hkeys, hcells⟩ := upgradeTable_ok (db.columns c t ht) hup
      obtain ⟨record, hrecord, hcell⟩ := hcells id hid
      obtain ⟨p, hp, hfields⟩ := (hrows id).2 (by rw [hkeys]; exact hid)
      refine ⟨record, p, ?_, hp, fun k => ?_⟩
      · rw [V1Database.payload, ht]
        exact hrecord
      · rw [hfields, hcell]
        split
        · rfl
        · cases record.get k <;> rfl
    · rw [ht] at hnone
      cases hnone
  · intro c id hsome
    have hc : c ∈ schemaCollectionsV3 := by
      by_contra hnot
      exact hsome (hother (c, id) hnot)
    obtain ⟨t₃, ht₃, hrows⟩ := hcompacted c hc
    have hid : id ∈ t₃.rows.keys := by
      by_contra hnot
      exact hsome ((hrows id).1 hnot)
    rcases upgradeToV3_tables hlegacy c hc with ⟨t, t', ht, hup, ht'⟩ | ⟨-, hnew⟩
    · cases ht₃.symm.trans ht'
      obtain ⟨-, hkeys, -⟩ := upgradeTable_ok (db.columns c t ht) hup
      exact ⟨t, ht, hkeys ▸ hid⟩
    · cases ht₃.symm.trans hnew
      exact nomatch hid

end

/-! ## What is lost -/

/-- The records of v4 are those of v1, each with its payload without the id. -/
structure SameRecords (db : V1Database) (records : Records) : Prop where
  there : ∀ c t id, db.legacy.tables.get c = some t → id ∈ t.rows.keys →
    ∃ record p, db.payload c id = some record ∧ records.get (c, id) = some p ∧
      Table.Same p.record (record.erase "id")
  others : ∀ c id, records.get (c, id) ≠ none →
    ∃ t, db.legacy.tables.get c = some t ∧ id ∈ t.rows.keys

/-- **The three upgrades raise or lose nothing** exactly when the database is not accepted or no
    payload has a field called `payload`. -/
theorem lossless_iff (db : V1Database) :
    ((∃ e, legacyUpgrade db.legacy = .error e) ∨
      ∃ db', legacyUpgrade db.legacy = .ok db' ∧ SameRecords db db'.records) ↔
    (db.Accepted → ∀ c id record, db.payload c id = some record →
      record.get "payload" = none) := by
  have hid : ∀ {c id record}, db.payload c id = some record →
      ∃ t, db.legacy.tables.get c = some t ∧ id ∈ t.rows.keys := by
    intro c id record hrecord
    obtain ⟨t, ht, hof⟩ := Option.bind_eq_some_iff.mp hrecord
    refine ⟨t, ht, ?_⟩
    by_contra hnot
    rw [payloadOf, ColumnTable.cell_eq_none hnot] at hof
    cases hof
  constructor
  · rintro (⟨e, herror⟩ | ⟨db', hok, hsame⟩) hacc c id record hrecord
    · obtain ⟨db', hok⟩ := legacyUpgrade_isOk_iff.mpr hacc
      rw [herror] at hok
      cases hok
    · obtain ⟨t, ht, hmem⟩ := hid hrecord
      obtain ⟨record₁, p, hrecord₁, hp, hfields⟩ := (legacyUpgrade_ok hok).1 c t id ht hmem
      obtain ⟨record₂, p', hrecord₂, hp', hfields'⟩ := hsame.there c t id ht hmem
      cases hrecord.symm.trans hrecord₁
      cases hrecord.symm.trans hrecord₂
      cases hp.symm.trans hp'
      have hlost := hfields "payload"
      have hkept := hfields' "payload"
      rw [if_pos (Or.inr rfl)] at hlost
      rw [Table.get_erase, if_neg (by simp)] at hkept
      exact hkept.symm.trans hlost
  · intro hclean
    cases h : legacyUpgrade db.legacy with
    | error e => exact Or.inl ⟨e, rfl⟩
    | ok db' =>
      have hnone := hclean (legacyUpgrade_isOk_iff.mp ⟨db', h⟩)
      obtain ⟨hthere, hothers⟩ := legacyUpgrade_ok h
      refine Or.inr ⟨db', rfl, fun c t id ht hmem => ?_, hothers⟩
      obtain ⟨record, p, hrecord, hp, hfields⟩ := hthere c t id ht hmem
      refine ⟨record, p, hrecord, hp, fun k => ?_⟩
      rw [hfields, Table.get_erase]
      by_cases hk : k = "id"
      · rw [if_pos (Or.inl hk), if_pos hk]
      · by_cases hk' : k = "payload"
        · rw [if_pos (Or.inr hk'), if_neg hk, hk', hnone c id record hrecord]
        · rw [if_neg (by simp [hk, hk']), if_neg hk]

/-- A v1 table with at most one record. -/
def payloadTable (row : Option (String × Json)) : ColumnTable Cell where
  columns := ["id", "payload"]
  rows :=
    match row with
    | none => Table.empty
    | some (id, payload) => Table.empty.set id (Table.empty.set "payload" (some payload))
  nameless := []
  distinct := by decide
  id_column := by simp
  cells := by
    intro id r hr k hk
    split at hr
    · cases hr
    · rw [Table.get_set] at hr
      split at hr
      · cases hr
        have hk : k = "payload" := List.mem_singleton.mp hk
        simp [hk]
      · cases hr

/-- The record of `memory_entries` has a field called `payload`. -/
def payloadDatabase : V1Database where
  legacy :=
    { tables :=
        { rows := schemaCollectionsV1.map fun c => (c, payloadTable
            (if c = "memory_entries" then
              some ("mem_legacy", .obj [("title", .str "Legacy"), ("payload", .str "text")])
            else none))
          nodup := by
            rw [List.map_map]
            exact nodup_schemaCollectionsV1 }
      workspace := none }
  collections := by
    intro c
    rw [Ne, Table.get_eq_none_iff, not_not, Table.keys, List.map_map]
    exact iff_of_eq (congrArg (c ∈ ·) (List.map_id _))
  columns := by
    intro c t ht
    have hrow := (Table.mem_rows_iff _).mpr ht
    obtain ⟨c', -, he⟩ := List.mem_map.mp hrow
    cases he
    rfl

/-- **A field is lost**: the value of `payload` is written into the column of the payloads, and
    goes with it. -/
theorem payload_is_lost :
    ¬ ((∃ e, legacyUpgrade payloadDatabase.legacy = .error e) ∨
      ∃ db', legacyUpgrade payloadDatabase.legacy = .ok db' ∧
        SameRecords payloadDatabase db'.records) := by
  obtain ⟨db₀, hok⟩ :=
    isOk_iff.mp (by decide : (legacyUpgrade payloadDatabase.legacy).isOk = true)
  rintro (⟨e, herror⟩ | ⟨db', hok', hsame⟩)
  · rw [hok] at herror
    cases herror
  · have hpayload : payloadDatabase.payload "memory_entries" "mem_legacy" =
        some (ofFields [("title", .str "Legacy"), ("payload", .str "text")]) := by decide
    obtain ⟨t, ht, hid⟩ := hsame.others "memory_entries" "mem_legacy" (by
      have hthere : ((legacyUpgrade payloadDatabase.legacy).toOption.bind fun db' =>
          db'.records.get ("memory_entries", "mem_legacy")) ≠ none := by decide
      rw [hok'] at hthere
      exact hthere)
    obtain ⟨record, p, hrecord, hp, hfields⟩ := hsame.there _ t _ ht hid
    obtain ⟨record', p', -, hp', hfields'⟩ := (legacyUpgrade_ok hok').1 _ t _ ht hid
    cases hpayload.symm.trans hrecord
    cases hp.symm.trans hp'
    have hlost := hfields' "payload"
    rw [if_pos (Or.inr rfl), hfields "payload"] at hlost
    revert hlost
    decide

end NuSelf.Migrations.V3V4
