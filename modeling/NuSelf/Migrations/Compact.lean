/-
  Schema v3 and v4: one table a collection becomes one table of records.

  Up to v3 every collection is a table with a column for each field that one of its records has;
  the upgrade reads each row back into an object and stores its text.  The downgrade goes the other
  way for the frozen collections of v3, and drops the table of records.

  1. `compactTables_isOk_iff`, `compactTables_ok` — exactly when the upgrade of the tables goes
     through, and cell by cell what it stores;
  2. `spreadTables_ok` — cell by cell what the downgrade leaves;
  3. `round_trip_iff` — exactly when the upgrade brings back what the downgrade has taken apart.
-/
import Mathlib.Data.List.Dedup
import Mathlib.Data.List.Sort
import NuSelf.Lib.Columns
import NuSelf.Migrations.Records
import NuSelf.Storage.Collection

namespace NuSelf.Migrations.V3V4

open NuSelf.Lib NuSelf.Storage NuSelf.Migrations

/-! ## Databases -/

/-- The frozen collections of schema v1 and v2. -/
def schemaCollectionsV1 : List String :=
  ["memory_entries", "memory_candidates", "trace_nodes", "trace_edges", "reason_threads",
    "reason_steps", "persona_prompts", "profile_items", "source_documents", "source_chunks",
    "notification_outbox", "reflection_entries"]

/-- The frozen collections of schema v3. -/
def schemaCollectionsV3 : List String :=
  schemaCollectionsV1 ++
    ["chat_threads", "memory_curator_cursors", "memory_curator_plans", "scheduler_state"]

/-- A cell that is not NULL: the JSON value of its text, or something that no decoder reads. -/
abbrev Cell := Option Json

/-- A workspace row whose columns are texts and whose value is a JSON object. -/
structure WorkspaceRow where
  scope : String
  key : String
  value : Record
  created_at : String
  updated_at : String
  deriving DecidableEq

/-- A database of schema v1, v2 or v3: the table of each collection, and the workspace table if
    there is one, with `none` for a row that cannot be read. -/
structure Legacy where
  tables : Table String (ColumnTable Cell)
  workspace : Option (List (Option WorkspaceRow))

structure WorkspaceEntry where
  value : Payload
  created_at : String
  updated_at : String

/-- A database of schema v4. -/
structure Compact where
  records : Records
  workspace : Table (String × String) WorkspaceEntry

inductive LegacyError where
  | column (error : ColumnError)
  | missingTable (collection : String)
  | invalidRow
  | invalidPayload
  | payloadIdMismatch
  | invalidRecordId
  | nonJsonColumn
  /-- A number that JSON cannot hold. -/
  | notFinite
  | integrity
  | invalidWorkspaceRow
  | workspaceNotEmpty
  deriving DecidableEq

/-- A failure of the table below. -/
def fromColumns {α : Type} : Except ColumnError α → Except LegacyError α
  | .ok a => .ok a
  | .error e => .error (.column e)

theorem fromColumns_ok {α : Type} {x : Except ColumnError α} {a : α} :
    fromColumns x = .ok a ↔ x = .ok a := by
  cases x <;> simp [fromColumns]

/-- `encode_json_value` of an object. -/
def encodeObject (record : Record) : Except LegacyError Payload :=
  if h : record.finite = true then .ok (encoded record h) else .error .notFinite

theorem encodeObject_isOk_iff {record : Record} :
    (∃ p, encodeObject record = .ok p) ↔ record.finite = true := by
  unfold encodeObject
  split
  · rename_i h
    exact ⟨fun _ => h, fun _ => ⟨_, rfl⟩⟩
  · rename_i h
    exact iff_of_false (by rintro ⟨_, ⟨⟩⟩) h

theorem encodeObject_ok {record : Record} {p : Payload} (h : encodeObject record = .ok p) :
    p.record = record := by
  unfold encodeObject at h
  split at h
  · cases h
    rfl
  · cases h

/-! ## The upgrade -/

/-- The workspace rows of v3, checked and written again. -/
def copyWorkspace : List (Option WorkspaceRow) → Table (String × String) WorkspaceEntry →
    Except LegacyError (Table (String × String) WorkspaceEntry)
  | [], entries => .ok entries
  | none :: _, _ => .error .invalidWorkspaceRow
  | some row :: rest, entries => do
    let value ← encodeObject row.value
    if entries.contains (row.scope, row.key) = true then .error .integrity
    else
      let entry : WorkspaceEntry := ⟨value, row.created_at, row.updated_at⟩
      copyWorkspace rest (entries.set (row.scope, row.key) entry)

/-- One row as an object: `id` and the cells that are NULL are left out. -/
def readCells (cells : Table String Cell) : List String → Record → Except LegacyError Record
  | [], payload => .ok payload
  | column :: rest, payload =>
    if column = "id" then readCells cells rest payload
    else
      match cells.get column with
      | none => readCells cells rest payload
      | some none => .error .nonJsonColumn
      | some (some value) => readCells cells rest (payload.set column value)

/-- The rows of a table, one after the other. -/
def compactRows (collection : String) (columns : List String) :
    List (String × Table String Cell) → Records → Except LegacyError Records
  | [], records => .ok records
  | (record_id, cells) :: rest, records =>
    if record_id = "" then .error .invalidRecordId
    else do
      let payload ← readCells cells columns Table.empty
      let p ← encodeObject payload
      if records.contains (collection, record_id) = true then .error .integrity
      else
        compactRows collection columns rest (records.set (collection, record_id) p)

def compactTable (collection : String) (t : ColumnTable Cell) (records : Records) :
    Except LegacyError Records :=
  if t.nameless ≠ [] then .error .invalidRecordId
  else compactRows collection t.columns t.rows.rows records

/-- The loop over the collections. -/
def compactTables (tables : Table String (ColumnTable Cell)) :
    List String → Records → Except LegacyError Records
  | [], records => .ok records
  | collection :: rest, records =>
    match tables.get collection with
    | none => .error (.missingTable collection)
    | some t => do
      let records ← compactTable collection t records
      compactTables tables rest records

def upgrade (db : Legacy) : Except LegacyError Compact := do
  let workspace ← copyWorkspace (db.workspace.getD []) Table.empty
  let records ← compactTables db.tables schemaCollectionsV3 Table.empty
  return ⟨records, workspace⟩

/-! ### What the upgrade stores -/

/-- Every cell holds the text of a JSON value with finite numbers. -/
def ReadableCells (cells : Table String Cell) : Prop :=
  ∀ k v, cells.get k = some v → ∃ value, v = some value ∧ value.finite = true

theorem readCells_isOk_iff {cells : Table String Cell} :
    ∀ {columns : List String} {payload : Record},
      (∃ r, readCells cells columns payload = .ok r) ↔
        ∀ column ∈ columns, column ≠ "id" → cells.get column ≠ some none
  | [], payload => ⟨fun _ _ h => absurd h List.not_mem_nil, fun _ => ⟨payload, rfl⟩⟩
  | column :: rest, payload => by
    rw [List.forall_mem_cons, readCells]
    by_cases hid : column = "id"
    · rw [if_pos hid, readCells_isOk_iff]
      exact ⟨fun h => ⟨fun hne => absurd hid hne, h⟩, fun h => h.2⟩
    · rw [if_neg hid]
      split
      · rename_i hnull
        rw [readCells_isOk_iff, hnull]
        exact ⟨fun h => ⟨fun _ => by simp, h⟩, fun h => h.2⟩
      · rename_i hbad
        exact iff_of_false (by rintro ⟨_, ⟨⟩⟩) fun h => h.1 hid hbad
      · rename_i value hvalue
        rw [readCells_isOk_iff, hvalue]
        exact ⟨fun h => ⟨fun _ => by simp, h⟩, fun h => h.2⟩

theorem readCells_ok {cells : Table String Cell} :
    ∀ {columns : List String} {payload r : Record}, readCells cells columns payload = .ok r →
      ∀ k, r.get k =
        if k ∈ columns ∧ k ≠ "id" ∧ cells.get k ≠ none then (cells.get k).join else payload.get k
  | [], payload, r, h, k => by
    cases h
    simp
  | column :: rest, payload, r, h, k => by
    rw [readCells] at h
    by_cases hid : column = "id"
    · rw [if_pos hid] at h
      rw [readCells_ok h k]
      by_cases hk : k = column
      · simp [hk, hid]
      · simp [hk]
    · rw [if_neg hid] at h
      split at h
      · rename_i hnull
        rw [readCells_ok h k]
        by_cases hk : k = column
        · simp [hk, hnull]
        · simp [hk]
      · cases h
      · rename_i value hvalue
        rw [readCells_ok h k]
        by_cases hk : k = column
        · simp [hk, hvalue, hid]
        · simp [hk]

section

variable {cells : Table String Cell} {columns : List String}

theorem readCells_row (hcells : ∀ k ∈ cells.keys, k ∈ columns ∧ k ≠ "id") {payload : Record}
    (h : readCells cells columns Table.empty = .ok payload) (k : String) :
    payload.get k = (cells.get k).join := by
  rw [readCells_ok h k]
  split
  · rfl
  · rename_i hnot
    cases hk : cells.get k with
    | none => rfl
    | some v =>
      obtain ⟨hcolumn, hid⟩ := hcells k (cells.mem_keys_iff.mpr ⟨v, hk⟩)
      exact absurd ⟨hcolumn, hid, by simp [hk]⟩ hnot

theorem readRow_ok (hcells : ∀ k ∈ cells.keys, k ∈ columns ∧ k ≠ "id") {payload : Record}
    {p : Payload} (hread : readCells cells columns Table.empty = .ok payload)
    (hencode : encodeObject payload = .ok p) (k : String) :
    p.record.get k = (cells.get k).join := by
  rw [encodeObject_ok hencode, readCells_row hcells hread]

theorem readRow_isOk_iff (hcells : ∀ k ∈ cells.keys, k ∈ columns ∧ k ≠ "id") :
    (∃ payload p, readCells cells columns Table.empty = .ok payload ∧
      encodeObject payload = .ok p) ↔ ReadableCells cells := by
  constructor
  · rintro ⟨payload, p, hread, hencode⟩ k v hv
    have hfinite := encodeObject_isOk_iff.mp ⟨p, hencode⟩
    obtain ⟨hcolumn, hid⟩ := hcells k (cells.mem_keys_iff.mpr ⟨v, hv⟩)
    cases v with
    | none => exact absurd hv (readCells_isOk_iff.mp ⟨payload, hread⟩ k hcolumn hid)
    | some value =>
      refine ⟨value, rfl, finite_iff.mp hfinite k value ?_⟩
      rw [readCells_row hcells hread, hv]
      rfl
  · intro hreadable
    have hread : ∃ payload, readCells cells columns Table.empty = .ok payload := by
      refine readCells_isOk_iff.mpr fun column _ _ hbad => ?_
      obtain ⟨value, hvalue, -⟩ := hreadable column none hbad
      cases hvalue
    obtain ⟨payload, hread⟩ := hread
    have hfinite : payload.finite = true := by
      rw [finite_iff]
      intro k value hk
      rw [readCells_row hcells hread] at hk
      obtain ⟨v, hv, rfl⟩ := Option.bind_eq_some_iff.mp hk
      obtain ⟨value', hvalue', hfin⟩ := hreadable k _ hv
      cases hvalue'
      exact hfin
    obtain ⟨p, hp⟩ := encodeObject_isOk_iff.mpr hfinite
    exact ⟨payload, p, hread, hp⟩

end

/-- What is stored of the row: the values of its cells. -/
def Stored (records : Records) (collection : String) (row : String × Table String Cell) : Prop :=
  ∃ p, records.get (collection, row.1) = some p ∧ ∀ k, p.record.get k = (row.2.get k).join

theorem compactRows_cons_ok {collection record_id : String} {columns : List String}
    {cells : Table String Cell} {rest : List (String × Table String Cell)} {records r : Records} :
    compactRows collection columns ((record_id, cells) :: rest) records = .ok r ↔
      record_id ≠ "" ∧ ∃ payload p, readCells cells columns Table.empty = .ok payload ∧
        encodeObject payload = .ok p ∧ records.get (collection, record_id) = none ∧
        compactRows collection columns rest (records.set (collection, record_id) p) = .ok r := by
  rw [compactRows]
  by_cases hid : record_id = ""
  · rw [if_pos hid]
    exact ⟨fun h => (nomatch h), fun h => absurd hid h.1⟩
  · rw [if_neg hid]
    constructor
    · intro h
      obtain ⟨payload, hread, h⟩ := bind_ok h
      obtain ⟨p, hencode, h⟩ := bind_ok h
      split at h
      · cases h
      · rename_i hfree
        exact ⟨hid, payload, p, hread, hencode, by simpa [Table.contains] using hfree, h⟩
    · rintro ⟨-, payload, p, hread, hencode, hfree, hrest⟩
      have hcontains : ¬ records.contains (collection, record_id) = true := by
        rw [Table.contains, hfree]
        simp
      rw [hread]
      show (encodeObject payload >>= _) = _
      rw [hencode]
      show (if records.contains (collection, record_id) = true then _ else _) = _
      rw [if_neg hcontains]
      exact hrest

/-- Rows that were stored are there with the values of their cells, and nothing else changes. -/
theorem compactRows_ok {collection : String} {columns : List String} :
    ∀ {rows : List (String × Table String Cell)} {records r : Records},
      (∀ row ∈ rows, ∀ k ∈ row.2.keys, k ∈ columns ∧ k ≠ "id") →
      compactRows collection columns rows records = .ok r →
      (∀ k p, records.get k = some p → r.get k = some p) ∧
      (∀ row ∈ rows, Stored r collection row) ∧
      ∀ k, (k.1 = collection → k.2 ∉ rows.map Prod.fst) → r.get k = records.get k
  | [], records, r, _, h => by
    cases h
    exact ⟨fun _ _ h => h, fun _ h => (nomatch h), fun _ _ => rfl⟩
  | (record_id, cells) :: rest, records, r, hcells, h => by
    obtain ⟨hhead, hcells⟩ := List.forall_mem_cons.mp hcells
    obtain ⟨-, payload, p, hread, hencode, hfree, hrest⟩ := compactRows_cons_ok.mp h
    obtain ⟨hkept, hstored, hother⟩ := compactRows_ok hcells hrest
    refine ⟨fun k q hk => hkept k q ?_, List.forall_mem_cons.mpr ⟨?_, hstored⟩, fun k hk => ?_⟩
    · have hne : k ≠ (collection, record_id) := by
        rintro rfl
        rw [hfree] at hk
        cases hk
      rw [Table.get_set_ne _ _ hne]
      exact hk
    · exact ⟨p, hkept _ p (Table.get_set_self _ _ _), readRow_ok hhead hread hencode⟩
    · have hne : k ≠ (collection, record_id) := by
        rintro rfl
        exact hk rfl (by simp)
      rw [hother k fun hc hmem => hk hc (List.mem_cons_of_mem _ hmem), Table.get_set_ne _ _ hne]

/-- **The rows of a table go through** exactly when every one has an id and can be read. -/
theorem compactRows_isOk_iff {collection : String} {columns : List String} :
    ∀ {rows : List (String × Table String Cell)} {records : Records},
      (rows.map Prod.fst).Nodup →
      (∀ row ∈ rows, ∀ k ∈ row.2.keys, k ∈ columns ∧ k ≠ "id") →
      (∀ row ∈ rows, records.get (collection, row.1) = none) →
      ((∃ r, compactRows collection columns rows records = .ok r) ↔
        ∀ row ∈ rows, row.1 ≠ "" ∧ ReadableCells row.2)
  | [], records, _, _, _ => ⟨fun _ _ h => (nomatch h), fun _ => ⟨records, rfl⟩⟩
  | (record_id, cells) :: rest, records, hnodup, hcells, hfree => by
    obtain ⟨hnot, hnodup⟩ := List.nodup_cons.mp hnodup
    obtain ⟨hhead, hcells⟩ := List.forall_mem_cons.mp hcells
    obtain ⟨hfirst, hfree⟩ := List.forall_mem_cons.mp hfree
    -- the places of the other rows are still free when this one is stored
    have hfree' : ∀ p : Payload, ∀ row ∈ rest,
        (records.set (collection, record_id) p).get (collection, row.1) = none := by
      intro p row hrow
      have hne : (collection, row.1) ≠ (collection, record_id) := by
        intro he
        have hid : row.1 = record_id := congrArg Prod.snd he
        have hmem : row.1 ∈ rest.map Prod.fst := List.mem_map_of_mem hrow
        rw [hid] at hmem
        exact hnot hmem
      rw [Table.get_set_ne _ _ hne]
      exact hfree row hrow
    rw [List.forall_mem_cons]
    constructor
    · rintro ⟨r, h⟩
      obtain ⟨hid, payload, p, hread, hencode, -, hrest⟩ := compactRows_cons_ok.mp h
      exact ⟨⟨hid, (readRow_isOk_iff hhead).mp ⟨payload, p, hread, hencode⟩⟩,
        (compactRows_isOk_iff hnodup hcells (hfree' p)).mp ⟨r, hrest⟩⟩
    · rintro ⟨⟨hid, hreadable⟩, hrest⟩
      obtain ⟨payload, p, hread, hencode⟩ := (readRow_isOk_iff hhead).mpr hreadable
      obtain ⟨r, hr⟩ := (compactRows_isOk_iff hnodup hcells (hfree' p)).mpr hrest
      exact ⟨r, compactRows_cons_ok.mpr ⟨hid, payload, p, hread, hencode, hfirst, hr⟩⟩

/-- Every row of the table has a text as id, not the empty one, and can be read. -/
def ReadableTable (t : ColumnTable Cell) : Prop :=
  t.nameless = [] ∧ ∀ id ∈ t.rows.keys, id ≠ "" ∧
    ∀ k v, t.cell id k = some v → ∃ value, v = some value ∧ value.finite = true

/-- The records of a collection are the rows of its table. -/
def Compacted (t : ColumnTable Cell) (collection : String) (records : Records) : Prop :=
  ∀ id, (id ∉ t.rows.keys → records.get (collection, id) = none) ∧
    (id ∈ t.rows.keys → ∃ p, records.get (collection, id) = some p ∧
      ∀ k, p.record.get k = (t.cell id k).join)

theorem forall_rows_iff {t : ColumnTable Cell} {P : String × Table String Cell → Prop} :
    (∀ row ∈ t.rows.rows, P row) ↔ ∀ id cells, t.rows.get id = some cells → P (id, cells) := by
  constructor
  · exact fun h id cells hget => h _ (t.rows.mem_rows_iff.mpr hget)
  · exact fun h row hrow => h row.1 row.2 (t.rows.mem_rows_iff.mp hrow)

theorem cells_rows (t : ColumnTable Cell) :
    ∀ row ∈ t.rows.rows, ∀ k ∈ row.2.keys, k ∈ t.columns ∧ k ≠ "id" :=
  forall_rows_iff.mpr t.cells

theorem compactTable_isOk_iff {collection : String} {t : ColumnTable Cell} {records : Records}
    (hfree : ∀ id, records.get (collection, id) = none) :
    (∃ r, compactTable collection t records = .ok r) ↔ ReadableTable t := by
  unfold compactTable ReadableTable
  by_cases hnameless : t.nameless = []
  · rw [if_neg (not_not_intro hnameless),
      compactRows_isOk_iff t.rows.nodup (cells_rows t) fun row _ => hfree row.1, forall_rows_iff]
    constructor
    · refine fun h => ⟨hnameless, fun id hid => ?_⟩
      obtain ⟨cells, hcells⟩ := t.rows.mem_keys_iff.mp hid
      obtain ⟨hne, hreadable⟩ := h id cells hcells
      refine ⟨hne, fun k v hv => hreadable k v ?_⟩
      rw [ColumnTable.cell, hcells] at hv
      exact hv
    · intro h id cells hcells
      obtain ⟨hne, hreadable⟩ := h.2 id (t.rows.mem_keys_iff.mpr ⟨cells, hcells⟩)
      refine ⟨hne, fun k v hv => hreadable k v ?_⟩
      rw [ColumnTable.cell, hcells]
      exact hv
  · rw [if_pos hnameless]
    exact iff_of_false (by rintro ⟨_, ⟨⟩⟩) fun h => hnameless h.1

theorem compactTable_ok {collection : String} {t : ColumnTable Cell} {records r : Records}
    (hfree : ∀ id, records.get (collection, id) = none)
    (h : compactTable collection t records = .ok r) :
    (∀ k p, records.get k = some p → r.get k = some p) ∧ Compacted t collection r ∧
      ∀ k, k.1 ≠ collection → r.get k = records.get k := by
  unfold compactTable at h
  split at h
  · cases h
  · obtain ⟨hkept, hstored, hother⟩ := compactRows_ok (cells_rows t) h
    refine ⟨hkept, fun id => ⟨fun hid => ?_, fun hid => ?_⟩,
      fun k hk => hother k fun hc => absurd hc hk⟩
    · rw [hother (collection, id) fun _ => hid]
      exact hfree id
    · obtain ⟨cells, hcells⟩ := t.rows.mem_keys_iff.mp hid
      obtain ⟨p, hp, hfields⟩ := forall_rows_iff.mp hstored id cells hcells
      refine ⟨p, hp, fun k => ?_⟩
      rw [ColumnTable.cell, hcells]
      exact hfields k

/-- **The upgrade of the tables** goes through exactly when every collection has a table that can
    be read. -/
theorem compactTables_isOk_iff {tables : Table String (ColumnTable Cell)} :
    ∀ {collections : List String} {records : Records}, collections.Nodup →
      (∀ c ∈ collections, ∀ id, records.get (c, id) = none) →
      ((∃ r, compactTables tables collections records = .ok r) ↔
        ∀ c ∈ collections, ∃ t, tables.get c = some t ∧ ReadableTable t)
  | [], records, _, _ => ⟨fun _ _ h => absurd h List.not_mem_nil, fun _ => ⟨records, rfl⟩⟩
  | collection :: rest, records, hnodup, hfree => by
    obtain ⟨hnot, hnodup⟩ := List.nodup_cons.mp hnodup
    obtain ⟨hfirst, hfree⟩ := List.forall_mem_cons.mp hfree
    have hfree' : ∀ {t r}, compactTable collection t records = .ok r →
        ∀ c ∈ rest, ∀ id, r.get (c, id) = none := by
      intro t r h c hc id
      have hne : c ≠ collection := by
        rintro rfl
        exact hnot hc
      rw [(compactTable_ok hfirst h).2.2 (c, id) hne]
      exact hfree c hc id
    rw [List.forall_mem_cons, compactTables]
    constructor
    · rintro ⟨r, h⟩
      split at h
      · cases h
      · rename_i t ht
        obtain ⟨r₁, hhead, h⟩ := bind_ok h
        exact ⟨⟨t, ht, (compactTable_isOk_iff hfirst).mp ⟨r₁, hhead⟩⟩,
          (compactTables_isOk_iff hnodup (hfree' hhead)).mp ⟨r, h⟩⟩
    · rintro ⟨⟨t, ht, hreadable⟩, hrest⟩
      obtain ⟨r₁, hhead⟩ := (compactTable_isOk_iff hfirst).mpr hreadable
      obtain ⟨r, hr⟩ := (compactTables_isOk_iff hnodup (hfree' hhead)).mpr hrest
      refine ⟨r, ?_⟩
      rw [ht]
      show (compactTable collection t records >>= _) = _
      rw [hhead]
      exact hr

/-- **What the upgrade stores**: the rows of the tables of the collections, and nothing else. -/
theorem compactTables_ok {tables : Table String (ColumnTable Cell)} :
    ∀ {collections : List String} {records r : Records}, collections.Nodup →
      (∀ c ∈ collections, ∀ id, records.get (c, id) = none) →
      compactTables tables collections records = .ok r →
      (∀ k p, records.get k = some p → r.get k = some p) ∧
      (∀ c ∈ collections, ∃ t, tables.get c = some t ∧ Compacted t c r) ∧
      ∀ k, k.1 ∉ collections → r.get k = records.get k
  | [], records, r, _, _, h => by
    cases h
    exact ⟨fun _ _ h => h, fun _ h => absurd h List.not_mem_nil, fun _ _ => rfl⟩
  | collection :: rest, records, r, hnodup, hfree, h => by
    obtain ⟨hnot, hnodup⟩ := List.nodup_cons.mp hnodup
    obtain ⟨hfirst, hfree⟩ := List.forall_mem_cons.mp hfree
    rw [compactTables] at h
    split at h
    · cases h
    · rename_i t ht
      obtain ⟨r₁, hhead, h⟩ := bind_ok h
      obtain ⟨hkept, hcompacted, hother⟩ := compactTable_ok hfirst hhead
      have hfree' : ∀ c ∈ rest, ∀ id, r₁.get (c, id) = none := by
        intro c hc id
        have hne : c ≠ collection := by
          rintro rfl
          exact hnot hc
        rw [hother (c, id) hne]
        exact hfree c hc id
      obtain ⟨hkept', hrest, hother'⟩ := compactTables_ok hnodup hfree' h
      refine ⟨fun k p hk => hkept' k p (hkept k p hk), List.forall_mem_cons.mpr ⟨?_, hrest⟩,
        fun k hk => ?_⟩
      · -- the later collections leave the rows of this one alone
        have hsame : ∀ id, r.get (collection, id) = r₁.get (collection, id) :=
          fun id => hother' _ hnot
        refine ⟨t, ht, fun id => ?_⟩
        rw [hsame]
        exact hcompacted id
      · rw [List.mem_cons, not_or] at hk
        rw [hother' k hk.2, hother k hk.1]

/-- The upgrade is the copy of the workspace and the compaction of the tables. -/
theorem upgrade_eq_ok {legacy : Legacy} {db' : Compact} :
    upgrade legacy = .ok db' ↔
      copyWorkspace (legacy.workspace.getD []) Table.empty = .ok db'.workspace ∧
      compactTables legacy.tables schemaCollectionsV3 Table.empty = .ok db'.records := by
  constructor
  · intro h
    obtain ⟨workspace, hworkspace, h⟩ := bind_ok h
    obtain ⟨records, hrecords, h⟩ := bind_ok h
    cases h
    exact ⟨hworkspace, hrecords⟩
  · rintro ⟨hworkspace, hrecords⟩
    show (copyWorkspace (legacy.workspace.getD []) Table.empty >>= _) = _
    rw [hworkspace]
    show (compactTables legacy.tables schemaCollectionsV3 Table.empty >>= _) = _
    rw [hrecords]
    rfl

/-! ## The downgrade -/

/-- `sorted(keys)` of the keys of some records, without the id. -/
def sortedKeys (records : List (String × Record)) : List String :=
  ((records.flatMap fun r => r.2.keys).dedup.insertionSort (· ≤ ·)).filter fun key =>
    decide (key ≠ "id")

/-- The rows of one collection, one after the other. -/
def insertRecords : List (String × Record) → ColumnTable Cell →
    Except LegacyError (ColumnTable Cell)
  | [], t => .ok t
  | (record_id, record) :: rest, t =>
    let values := record.erase "id"
    if Record.finite values = true then do
      let t ← fromColumns (t.insertRow record_id (values.mapRows fun _ value => some value))
      insertRecords rest t
    else .error .notFinite

def spreadTable (records : List (String × Record)) : Except LegacyError (ColumnTable Cell) := do
  let t ← fromColumns (ColumnTable.addColumns (sortedKeys records) (ColumnTable.new Cell))
  insertRecords records t

/-- The loop over the collections. -/
def spreadTables (db : Records) : List String → Table String (ColumnTable Cell) →
    Except LegacyError (Table String (ColumnTable Cell))
  | [], tables => .ok tables
  | collection :: rest, tables => do
    let t ← spreadTable (loadRecords db collection)
    spreadTables db rest (tables.set collection t)

def downgrade (db : Compact) : Except LegacyError Legacy :=
  if db.workspace.rows ≠ [] then .error .workspaceNotEmpty
  else do
    let tables ← spreadTables db.records schemaCollectionsV3 Table.empty
    return ⟨tables, none⟩

/-! ### What the downgrade leaves -/

theorem mem_sortedKeys {records : List (String × Record)} {key : String} :
    key ∈ sortedKeys records ↔ key ≠ "id" ∧ ∃ r ∈ records, key ∈ r.2.keys := by
  rw [sortedKeys, List.mem_filter, decide_eq_true_eq, List.mem_insertionSort, List.mem_dedup,
    List.mem_flatMap, and_comm]

/-- The fields of a record but its id, as cells. -/
def spreadCells (record : Record) : Table String Cell :=
  (record.erase "id").mapRows fun _ value => some value

theorem get_spreadCells (record : Record) (k : String) :
    (spreadCells record).get k = if k = "id" then none else (record.get k).map some := by
  rw [spreadCells, Table.get_mapRows, Table.get_erase]
  split <;> rfl

theorem insertRecords_cons_ok {record_id : String} {record : Record}
    {rest : List (String × Record)} {t t' : ColumnTable Cell} :
    insertRecords ((record_id, record) :: rest) t = .ok t' ↔
      Record.finite (record.erase "id") = true ∧ ∃ t₁,
        t.insertRow record_id (spreadCells record) = .ok t₁ ∧ insertRecords rest t₁ = .ok t' := by
  rw [insertRecords]
  constructor
  · intro h
    split at h
    · rename_i hfinite
      obtain ⟨t₁, hrow, hrest⟩ := bind_ok h
      exact ⟨hfinite, t₁, fromColumns_ok.mp hrow, hrest⟩
    · cases h
  · rintro ⟨hfinite, t₁, hrow, hrest⟩
    have hrow' : fromColumns (t.insertRow record_id (spreadCells record)) = .ok t₁ :=
      fromColumns_ok.mpr hrow
    rw [if_pos hfinite]
    show (fromColumns (t.insertRow record_id (spreadCells record)) >>= _) = _
    rw [hrow']
    exact hrest

/-- The row of a record. -/
def RowOf (t : ColumnTable Cell) (row : String × Record) : Prop :=
  t.rows.get row.1 = some (spreadCells row.2)

theorem insertRecords_ok : ∀ {records : List (String × Record)} {t t' : ColumnTable Cell},
    insertRecords records t = .ok t' →
    t'.nameless = t.nameless ∧ (∀ row ∈ records, Record.finite (row.2.erase "id") = true) ∧
      (∀ id cells, t.rows.get id = some cells → t'.rows.get id = some cells) ∧
      (∀ row ∈ records, RowOf t' row) ∧
      ∀ id, id ∉ records.map Prod.fst → t'.rows.get id = t.rows.get id
  | [], t, t', h => by
    cases h
    exact ⟨rfl, fun _ h => (nomatch h), fun _ _ h => h, fun _ h => (nomatch h), fun _ _ => rfl⟩
  | (record_id, record) :: rest, t, t', h => by
    obtain ⟨hfinite, t₁, hrow, hrest⟩ := insertRecords_cons_ok.mp h
    obtain ⟨-, hrows, hnameless⟩ := ColumnTable.insertRow_ok hrow
    obtain ⟨-, hfree⟩ := ColumnTable.insertRow_isOk_iff.mp ⟨t₁, hrow⟩
    obtain ⟨hnameless', hfinite', hkept, hthere, hother⟩ := insertRecords_ok hrest
    refine ⟨hnameless'.trans hnameless, List.forall_mem_cons.mpr ⟨hfinite, hfinite'⟩,
      fun id cells hid => hkept id cells ?_, List.forall_mem_cons.mpr ⟨?_, hthere⟩, fun id hid => ?_⟩
    · have hne : id ≠ record_id := by
        rintro rfl
        exact hfree (t.rows.mem_keys_iff.mpr ⟨cells, hid⟩)
      rw [hrows, Table.get_set_ne _ _ hne]
      exact hid
    · exact hkept _ _ (by rw [hrows, Table.get_set_self])
    · rw [List.map_cons, List.mem_cons, not_or] at hid
      rw [hother id hid.2, hrows, Table.get_set_ne _ _ hid.1]

/-- The table of a collection has its records. -/
structure Spread (db : Records) (collection : String) (t : ColumnTable Cell) : Prop where
  nameless : t.nameless = []
  finite : ∀ id p, db.get (collection, id) = some p → Record.finite (p.record.erase "id") = true
  rows : ∀ id, t.rows.get id = (db.get (collection, id)).map fun p => spreadCells p.record

theorem spreadTable_ok {db : Records} {collection : String} {t : ColumnTable Cell}
    (h : spreadTable (loadRecords db collection) = .ok t) : Spread db collection t := by
  obtain ⟨t₀, hcolumns, h⟩ := bind_ok h
  obtain ⟨-, hrows₀, hnameless₀⟩ := ColumnTable.addColumns_ok (fromColumns_ok.mp hcolumns)
  obtain ⟨hnameless, hfinite, -, hthere, hother⟩ := insertRecords_ok h
  constructor
  · rw [hnameless, hnameless₀]
    rfl
  · exact fun id p hp => hfinite (id, p.record) (mem_loadRecords.mpr ⟨p, hp, rfl⟩)
  · intro id
    cases hp : db.get (collection, id) with
    | none =>
      have hnot : id ∉ (loadRecords db collection).map Prod.fst := by
        intro hmem
        obtain ⟨⟨id', record⟩, hrow, rfl⟩ := List.mem_map.mp hmem
        obtain ⟨p, hp', -⟩ := mem_loadRecords.mp hrow
        rw [hp] at hp'
        cases hp'
      rw [hother id hnot, hrows₀]
      rfl
    | some p => exact hthere (id, p.record) (mem_loadRecords.mpr ⟨p, hp, rfl⟩)

/-- **What the downgrade leaves**: for each collection the table of its records. -/
theorem spreadTables_ok {db : Records} :
    ∀ {collections : List String} {tables tables' : Table String (ColumnTable Cell)},
      collections.Nodup → spreadTables db collections tables = .ok tables' →
      (∀ c ∈ collections, ∃ t, tables'.get c = some t ∧ Spread db c t) ∧
      ∀ c, c ∉ collections → tables'.get c = tables.get c
  | [], tables, tables', _, h => by
    cases h
    exact ⟨fun _ h => absurd h List.not_mem_nil, fun _ _ => rfl⟩
  | collection :: rest, tables, tables', hnodup, h => by
    obtain ⟨hnot, hnodup⟩ := List.nodup_cons.mp hnodup
    obtain ⟨t, hspread, h⟩ := bind_ok h
    obtain ⟨hrest, hother⟩ := spreadTables_ok hnodup h
    refine ⟨List.forall_mem_cons.mpr ⟨⟨t, ?_, spreadTable_ok hspread⟩, hrest⟩, fun c hc => ?_⟩
    · rw [hother collection hnot, Table.get_set_self]
    · rw [List.mem_cons, not_or] at hc
      rw [hother c hc.2, Table.get_set_ne _ _ hc.1]

/-! ## The round trip -/

/-- What the tables of v3 can hold of a v4 database. -/
structure Spreadable (db : Records) : Prop where
  /-- The collections of v4 are not frozen, those of v3 are. -/
  collections : ∀ c id p, db.get (c, id) = some p → c ∈ schemaCollectionsV3
  /-- The primary key takes the empty text, the upgrade refuses it. -/
  ids : ∀ c id p, db.get (c, id) = some p → id ≠ ""
  /-- An `id` field has no column of its own. -/
  fields : ∀ c id p, db.get (c, id) = some p → p.record.get "id" = none

theorem nodup_schemaCollectionsV3 : schemaCollectionsV3.Nodup := by decide

/-- The table of a collection can be read back if every id is a text that is not empty. -/
theorem Spread.readable {db : Records} {collection : String} {t : ColumnTable Cell}
    (h : Spread db collection t) :
    ReadableTable t ↔ ∀ id p, db.get (collection, id) = some p → id ≠ "" := by
  have hkeys : ∀ id, id ∈ t.rows.keys ↔ ∃ p, db.get (collection, id) = some p := by
    intro id
    rw [Table.mem_keys_iff, h.rows]
    simp
  constructor
  · exact fun hreadable id p hp => (hreadable.2 id ((hkeys id).mpr ⟨p, hp⟩)).1
  · refine fun hids => ⟨h.nameless, fun id hid => ?_⟩
    obtain ⟨p, hp⟩ := (hkeys id).mp hid
    refine ⟨hids id p hp, fun k v hv => ?_⟩
    rw [ColumnTable.cell, h.rows, hp] at hv
    have hv : (spreadCells p.record).get k = some v := hv
    rw [get_spreadCells] at hv
    split at hv
    · cases hv
    · rename_i hk
      obtain ⟨value, hvalue, rfl⟩ := Option.map_eq_some_iff.mp hv
      refine ⟨value, rfl, finite_iff.mp (h.finite id p hp) k value ?_⟩
      rw [Table.get_erase, if_neg hk]
      exact hvalue

theorem Spread.compacted {db records : Records} {collection : String} {t : ColumnTable Cell}
    (h : Spread db collection t) (h' : Compacted t collection records) (id : String) :
    (db.get (collection, id) = none → records.get (collection, id) = none) ∧
    ∀ p, db.get (collection, id) = some p → ∃ p', records.get (collection, id) = some p' ∧
      ∀ k, p'.record.get k = if k = "id" then none else p.record.get k := by
  have hrow := h.rows id
  constructor
  · intro hnone
    rw [hnone] at hrow
    exact (h' id).1 (t.rows.get_eq_none_iff.mp hrow)
  · intro p hp
    rw [hp] at hrow
    obtain ⟨p', hp', hfields⟩ := (h' id).2 (t.rows.mem_keys_iff.mpr ⟨_, hrow⟩)
    refine ⟨p', hp', fun k => ?_⟩
    have hcell : t.cell id k = (spreadCells p.record).get k := by
      rw [ColumnTable.cell, hrow]
      rfl
    rw [hfields, hcell, get_spreadCells]
    split
    · rfl
    · cases p.record.get k <;> rfl

section

variable {db records : Records} {tables : Table String (ColumnTable Cell)}
  (htables : ∀ c ∈ schemaCollectionsV3, ∃ t, tables.get c = some t ∧ Spread db c t)

include htables

theorem compacts_iff :
    (∃ r, compactTables tables schemaCollectionsV3 Table.empty = .ok r) ↔
      ∀ c ∈ schemaCollectionsV3, ∀ id p, db.get (c, id) = some p → id ≠ "" := by
  rw [compactTables_isOk_iff nodup_schemaCollectionsV3 fun _ _ _ => rfl]
  refine forall₂_congr fun c hc => ?_
  obtain ⟨t, ht, hof⟩ := htables c hc
  rw [← hof.readable, ht]
  simp

variable (hcompact : compactTables tables schemaCollectionsV3 Table.empty = .ok records)

include hcompact

/-- What comes back of one row. -/
theorem row_back (c id : String) :
    (db.get (c, id) = none → records.get (c, id) = none) ∧
      (c ∉ schemaCollectionsV3 → records.get (c, id) = none) ∧
      (c ∈ schemaCollectionsV3 → ∀ p, db.get (c, id) = some p →
        ∃ p', records.get (c, id) = some p' ∧
          ∀ k, p'.record.get k = if k = "id" then none else p.record.get k) := by
  obtain ⟨-, hcompacted, hother⟩ :=
    compactTables_ok nodup_schemaCollectionsV3 (fun _ _ _ => rfl) hcompact
  by_cases hc : c ∈ schemaCollectionsV3
  · obtain ⟨t, ht, hcomp⟩ := hcompacted c hc
    obtain ⟨t', ht', hof⟩ := htables c hc
    cases ht.symm.trans ht'
    obtain ⟨hgone, hback⟩ := hof.compacted hcomp id
    exact ⟨hgone, fun hnot => absurd hc hnot, fun _ => hback⟩
  · have hnone : records.get (c, id) = none := hother (c, id) hc
    exact ⟨fun _ => hnone, fun _ => hnone, fun hin => absurd hin hc⟩

theorem spreadable_of_same (hsame : db.SameAs records) : Spreadable db := by
  have hc : ∀ c id p, db.get (c, id) = some p → c ∈ schemaCollectionsV3 := by
    intro c id p hp
    by_contra hnot
    have hnone := (row_back htables hcompact c id).2.1 hnot
    rcases hsame (c, id) with ⟨hnone', -⟩ | ⟨q, q', -, hq', -⟩
    · rw [hp] at hnone'
      cases hnone'
    · rw [hnone] at hq'
      cases hq'
  have hids := (compacts_iff htables).mp ⟨records, hcompact⟩
  refine ⟨hc, fun c id p hp => hids c (hc c id p hp) id p hp, fun c id p hp => ?_⟩
  obtain ⟨p', hp', hfields⟩ := (row_back htables hcompact c id).2.2 (hc c id p hp) p hp
  rcases hsame (c, id) with ⟨hnone, -⟩ | ⟨q, q', hq, hq', hequal⟩
  · rw [hp] at hnone
    cases hnone
  · cases hp.symm.trans hq
    cases hp'.symm.trans hq'
    rw [hequal "id", hfields, if_pos rfl]

theorem same_of_spreadable (h : Spreadable db) : db.SameAs records := by
  rintro ⟨c, id⟩
  obtain ⟨hgone, -, hback⟩ := row_back htables hcompact c id
  cases hp : db.get (c, id) with
  | none => exact Or.inl ⟨rfl, hgone hp⟩
  | some p =>
    obtain ⟨p', hp', hfields⟩ := hback (h.collections c id p hp) p hp
    refine Or.inr ⟨p, p', rfl, hp', fun k => ?_⟩
    rw [hfields]
    split
    · rename_i hk
      rw [hk]
      exact h.fields c id p hp
    · rfl

end

/-- **Compacting again what was spread** gives the same records exactly when v3 could hold them. -/
theorem round_trip_iff {db : Compact} {legacy : Legacy} (h : downgrade db = .ok legacy) :
    (∃ db', upgrade legacy = .ok db' ∧ db.records.SameAs db'.records) ↔ Spreadable db.records := by
  unfold downgrade at h
  split at h
  · cases h
  · obtain ⟨tables, hspread, h⟩ := bind_ok h
    cases h
    obtain ⟨htables, -⟩ := spreadTables_ok nodup_schemaCollectionsV3 hspread
    constructor
    · rintro ⟨db', hok, hsame⟩
      exact spreadable_of_same htables (upgrade_eq_ok.mp hok).2 hsame
    · intro hspreadable
      obtain ⟨records, hcompact⟩ :=
        (compacts_iff htables).mpr fun c _ id p hp => hspreadable.ids c id p hp
      exact ⟨⟨records, Table.empty⟩, upgrade_eq_ok.mpr ⟨rfl, hcompact⟩,
        same_of_spreadable htables hcompact hspreadable⟩

/-- One record of a memory collection. -/
def entryDatabase : Compact where
  records := Table.empty.set ("memory_entries", "mem_round_trip")
    (encoded (Table.empty.set "title" (.str "Round trip") |>.set "body" .null) (by decide))
  workspace := Table.empty

/-- One observation, as the downgrade from v7 leaves it. -/
def observationDatabase : Compact where
  records := Table.empty.set ("memory_observations", "obs_1")
    (encoded (Table.empty.set "status" (.str "pending")) (by decide))
  workspace := Table.empty

theorem isOk_iff {ε α : Type} {x : Except ε α} : x.isOk = true ↔ ∃ a, x = .ok a := by
  cases x with
  | error e => exact ⟨fun h => (nomatch h), fun ⟨_, h⟩ => (nomatch h)⟩
  | ok a => exact ⟨fun _ => ⟨a, rfl⟩, fun _ => rfl⟩

theorem entry_comes_back : ∃ legacy db', downgrade entryDatabase = .ok legacy ∧
    upgrade legacy = .ok db' ∧ entryDatabase.records.SameAs db'.records := by
  obtain ⟨legacy, hlegacy⟩ := isOk_iff.mp (by decide : (downgrade entryDatabase).isOk = true)
  have hrow : ∀ c id p, entryDatabase.records.get (c, id) = some p →
      c = "memory_entries" ∧ id = "mem_round_trip" ∧ p.record.get "id" = none := by
    intro c id p hp
    have hrow := entryDatabase.records.mem_rows_iff.mpr hp
    have hrows : entryDatabase.records.rows = [_] := rfl
    rw [hrows, List.mem_singleton] at hrow
    cases hrow
    exact ⟨rfl, rfl, by decide⟩
  obtain ⟨db', hdb', hsame⟩ := (round_trip_iff hlegacy).mpr ⟨fun c id p hp => by
      rw [(hrow c id p hp).1]
      decide,
    fun c id p hp => by
      rw [(hrow c id p hp).2.1]
      decide,
    fun c id p hp => (hrow c id p hp).2.2⟩
  exact ⟨legacy, db', hlegacy, hdb', hsame⟩

/-- **A record is lost**: v3 has no table for observations, so the downgrade leaves them out and
    drops the table of records. -/
theorem observation_is_lost :
    (∃ legacy, downgrade observationDatabase = .ok legacy) ∧
    ¬ ∃ legacy db', downgrade observationDatabase = .ok legacy ∧ upgrade legacy = .ok db' ∧
      observationDatabase.records.SameAs db'.records := by
  refine ⟨isOk_iff.mp (by decide), ?_⟩
  rintro ⟨legacy, db', hdown, hup, hsame⟩
  have hgone : ((downgrade observationDatabase >>= upgrade).toOption.bind fun db' =>
      db'.records.get ("memory_observations", "obs_1")) = none := by decide
  rw [hdown] at hgone
  have hgone : ((upgrade legacy).toOption.bind fun db' =>
      db'.records.get ("memory_observations", "obs_1")) = none := hgone
  rw [hup] at hgone
  have hgone : db'.records.get ("memory_observations", "obs_1") = none := hgone
  have hthere : observationDatabase.records.get ("memory_observations", "obs_1") ≠ none := by
    decide
  rcases hsame ("memory_observations", "obs_1") with ⟨hnone, -⟩ | ⟨p, p', -, hp', -⟩
  · exact hthere hnone
  · rw [hgone] at hp'
    cases hp'

end NuSelf.Migrations.V3V4
