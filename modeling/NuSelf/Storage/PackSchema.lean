/-
  The identity of a database schema, as the running code checks it on a thought pack.

  The migration script has its own check, with the collections of every version frozen in a
  registry (`validateSchema`).  The two were written apart: the running code asks a database of
  version 3 for the collections that it uses itself, in version 7.

  1. `validateCompactTable_iff` — of a compact table both ask the same.
  2. `validateCollections_ok_iff`, `requireCollections_ok_iff` — of the collections each asks for
     its own.
  3. `validators_agree_iff` — they agree on a database exactly when it is not one of version 3 that
     has all the collections of one list, and not all of the other.
-/
import NuSelf.Lib.Sequence
import NuSelf.Migrations.Schema

namespace NuSelf.Storage.PackSchema

open NuSelf.Lib NuSelf.Migrations

/-! ## The catalog of the running code -/

def collectionNames : List String :=
  ["memory_entries", "memory_candidates", "trace_nodes", "trace_edges", "reason_threads",
    "reason_steps", "persona_prompts", "profile_items", "source_documents", "source_chunks",
    "inbox_items", "delivery_records", "reflection_entries", "conversations",
    "memory_observations", "memory_curator_plans", "scheduler_state"]

def v2CollectionNames : List String :=
  ["memory_entries", "memory_candidates", "trace_nodes", "trace_edges", "reason_threads",
    "reason_steps", "persona_prompts", "profile_items", "source_documents", "source_chunks",
    "notification_outbox", "reflection_entries"]

def sqliteSchemaVersion : Int := 7

inductive ValidationError where
  /-- `SqliteSchemaValidationError`. -/
  | schema (text : String)
  /-- `SqliteStorageUnsupportedVersionError`. -/
  | unsupportedVersion (text : String)
  deriving DecidableEq

/-! ## The validator -/

section

-- `str.upper`
variable (upper : String → String)

/-- The columns that `_validate_compact_table` expects. -/
def expectedColumns (table : String) : List ColumnInfo :=
  if table = "records" then
    [⟨"collection", "TEXT", 1, 1⟩, ⟨"id", "TEXT", 1, 2⟩, ⟨"payload", "TEXT", 1, 0⟩]
  else
    [⟨"namespace", "TEXT", 1, 1⟩, ⟨"key", "TEXT", 1, 2⟩, ⟨"value", "TEXT", 1, 0⟩,
      ⟨"created_at", "TEXT", 1, 0⟩, ⟨"updated_at", "TEXT", 1, 0⟩]

/-- The name of the column that holds JSON. -/
def jsonColumn (table : String) : String := if table = "records" then "payload" else "value"

/-- The statement that made a table, in capitals with single blanks. -/
def normalizedSql (sql : Option String) : String :=
  match sql with
  | some sql => " ".intercalate (words (upper sql))
  | none => ""

/-- The rows of `PRAGMA index_list`, without the primary key. -/
def secondaryIndexes (indexes : List IndexInfo) : List (String × Nat × String × Nat) :=
  (indexes.filter fun i => decide (i.origin ≠ "pk")).map
    fun i => (i.name, i.unique, i.origin, i.conditional)

def expectedSecondary (secondary_index : Option (String × String)) :
    List (String × Nat × String × Nat) :=
  (secondary_index.map fun index => (index.1, 0, "c", 0)).toList

/-- `PRAGMA index_info`. -/
def indexColumns (indexes : List IndexInfo) (index : String) : List (Option String) :=
  ((indexes.find? fun i => decide (i.name = index)).map (·.columns)).getD []

/-- `_validate_compact_table`; a table that is not there has no columns and no indexes. -/
def validateCompact (tables : Table String TableInfo) (table : String)
    (secondary_index : Option (String × String)) : Except ValidationError Unit :=
  let info := tables.get table
  let observed := ((info.map (·.columns)).getD []).map fun c => { c with type := upper c.type }
  let normalized := normalizedSql upper (info.bind (·.sql))
  let indexes := (info.map (·.indexes)).getD []
  if observed ≠ expectedColumns table ∨ containsText "WITHOUT ROWID" normalized = false ∨
      containsText ("JSON_VALID(" ++ upper (jsonColumn table) ++ ")") normalized = false ∨
      containsText ("JSON_TYPE(" ++ upper (jsonColumn table) ++ ") = 'OBJECT'") normalized = false
  then .error (.schema ("thought pack has invalid schema v4 table " ++ table))
  else if secondaryIndexes indexes ≠ expectedSecondary secondary_index then
    .error (.schema ("thought pack has invalid schema v4+ indexes on " ++ table))
  else
    match secondary_index with
    | none => .ok ()
    | some (index, column) =>
      if indexColumns indexes index ≠ [some column] then
        .error (.schema ("thought pack has invalid schema v4+ index on " ++ table))
      else .ok ()

/-- The loop over the required collections. -/
def requireCollections (tables : Table String TableInfo) :
    List String → Except ValidationError Unit
  | [] => .ok ()
  | collection_name :: rest =>
    let table := "col_" ++ collection_name
    match tables.get table with
    | none => .error (.schema ("thought pack is missing collection table " ++ table))
    | some info =>
      if info.columns.any (fun c => decide (c.name = "id" ∧ c.pk = 1)) = true then
        requireCollections tables rest
      else .error (.schema ("thought pack collection " ++ table ++ " has no id primary key"))

/-- An authority must have the current version. -/
def requireCurrent (authority : Bool) (version : Int) (text : String) : Except ValidationError Int :=
  if authority = true ∧ version < sqliteSchemaVersion then .error (.unsupportedVersion text)
  else .ok version

/-- The tables that a version has. -/
def validateVersion (tables : Table String TableInfo) (authority : Bool) (version : Int) :
    Except ValidationError Int :=
  if sqliteSchemaVersion < version then
    if authority = true then
      .error (.unsupportedVersion ("SQLite schema version " ++ toString version ++
        " is newer than supported version " ++ toString sqliteSchemaVersion))
    else
      .error (.schema ("thought pack schema version " ++ toString version ++
        " is newer than supported version " ++ toString sqliteSchemaVersion))
  else if version = 4 ∨ version = 5 ∨ version = 6 ∨ version = 7 then
    if sameNames tables.keys ["_schema_version", "records", "workspace_entries"] = false then
      .error (.schema "thought pack has invalid schema v4+ table set")
    else do
      validateCompact upper tables "records"
        (if version = 4 then some ("idx_records_collection", "collection") else none)
      validateCompact upper tables "workspace_entries"
        (if version = 4 then some ("idx_workspace_entries_ns", "namespace") else none)
      requireCurrent authority version ("SQLite schema version " ++ toString version ++
        " requires explicit migration")
  else do
    requireCollections tables (if 3 ≤ version then collectionNames else v2CollectionNames)
    requireCurrent authority version ("SQLite schema version " ++ toString version ++
      " requires explicit migration to supported version " ++ toString sqliteSchemaVersion)

def validateNuselfSchema {ρ : Type} (authority : Bool) (db : Database ρ) :
    Except ValidationError Int :=
  match db.tables.get "_schema_version" with
  | none => .error (.schema "thought pack is missing NuSelf schema metadata")
  | some info =>
    if info.columns.map (fun c => { c with type := upper c.type }) ≠
        [⟨"version", "INTEGER", 1, 0⟩] then
      .error (.schema "thought pack has invalid NuSelf schema metadata")
    else
      match readHistory db.versions with
      | .error _ => .error (.schema "thought pack has an invalid schema version history")
      | .ok version => validateVersion upper db.tables authority version

end

/-! ## What the two ask for -/

/-- The collection has its table, with an id for a primary key. -/
def HasCollection (tables : Table String TableInfo) (collection : String) : Prop :=
  ∃ info, tables.get ("col_" ++ collection) = some info ∧
    info.columns.any (fun c => decide (c.name = "id" ∧ c.pk = 1)) = true

/-- A compact table, as both validators want it. -/
def IsCompact (upper : String → String) (info : TableInfo) (columns : List ColumnInfo)
    (json_column : String) (secondary_index : Option (String × String)) : Prop :=
  info.columns.map (observedColumn upper) = columns ∧
    (∃ sql, info.sql = some sql ∧
      containsText "WITHOUT ROWID" (" ".intercalate (words (upper sql))) = true ∧
      containsText ("JSON_VALID(" ++ upper json_column ++ ")")
        (" ".intercalate (words (upper sql))) = true ∧
      containsText ("JSON_TYPE(" ++ upper json_column ++ ") = 'OBJECT'")
        (" ".intercalate (words (upper sql))) = true) ∧
    (info.indexes.filter fun i => decide (i.origin ≠ "pk")).map
        (fun i => (i.name, i.unique, i.origin, i.conditional)) =
      (secondary_index.map fun index => (index.1, 0, "c", 0)).toList ∧
    ∀ index ∈ secondary_index, ∃ i,
      info.indexes.find? (fun i => decide (i.name = index.1)) = some i ∧
        i.columns = [some index.2]

section

variable {upper : String → String} {tables : Table String TableInfo}

theorem hasCollection_iff {collection : String} {info : TableInfo}
    (hget : tables.get ("col_" ++ collection) = some info) :
    HasCollection tables collection ↔
      info.columns.any (fun c => decide (c.name = "id" ∧ c.pk = 1)) = true := by
  rw [HasCollection, hget]
  constructor
  · rintro ⟨other, hother, hid⟩
    cases hother
    exact hid
  · exact fun hid => ⟨info, rfl, hid⟩

theorem not_hasCollection {collection : String} (hget : tables.get ("col_" ++ collection) = none) :
    ¬ HasCollection tables collection := by
  rintro ⟨info, hinfo, -⟩
  cases hget.symm.trans hinfo

/-- **The script** asks for every collection of its list. -/
theorem validateCollections_ok_iff : ∀ {collections : List String} {u : Unit},
    validateCollections tables collections = .ok u ↔
      ∀ collection ∈ collections, HasCollection tables collection
  | [], _ => by simp [validateCollections]
  | collection :: rest, _ => by
    rw [validateCollections, List.forall_mem_cons]
    split
    · rename_i hget
      exact iff_of_false (by simp) fun h => not_hasCollection hget h.1
    · rename_i info hget
      rw [hasCollection_iff hget, ← validateCollections_ok_iff]
      split
      · rename_i hid
        exact (and_iff_right hid).symm
      · rename_i hid
        exact iff_of_false (by simp) fun h => hid h.1

/-- **The running code** asks for every collection of its own list. -/
theorem requireCollections_ok_iff : ∀ {collections : List String} {u : Unit},
    requireCollections tables collections = .ok u ↔
      ∀ collection ∈ collections, HasCollection tables collection
  | [], _ => by simp [requireCollections]
  | collection :: rest, _ => by
    rw [requireCollections, List.forall_mem_cons]
    split
    · rename_i hget
      exact iff_of_false (by simp) fun h => not_hasCollection hget h.1
    · rename_i info hget
      rw [hasCollection_iff hget, ← requireCollections_ok_iff]
      split
      · rename_i hid
        exact (and_iff_right hid).symm
      · rename_i hid
        exact iff_of_false (by simp) fun h => hid h.1

/-- A compact table of the catalog. -/
def HasCompact (upper : String → String) (tables : Table String TableInfo) (table : String)
    (columns : List ColumnInfo) (json_column : String)
    (secondary_index : Option (String × String)) : Prop :=
  ∃ info, tables.get table = some info ∧ IsCompact upper info columns json_column secondary_index

/-- **The script** on a compact table. -/
theorem validateCompactTable_iff {table json_column : String} {columns : List ColumnInfo}
    {secondary_index : Option (String × String)} {u : Unit} :
    validateCompactTable upper tables table columns json_column secondary_index = .ok u ↔
      HasCompact upper tables table columns json_column secondary_index := by
  rw [validateCompactTable]
  constructor
  · intro h
    split at h
    · cases h
    · rename_i info hget
      split at h
      · cases h
      · rename_i hcolumns
        split at h
        · cases h
        · rename_i sql hsql
          dsimp only at h
          split at h
          · cases h
          · rename_i hstatement
            simp only [not_or, Bool.not_eq_false] at hstatement
            refine ⟨info, hget, not_not.mp hcolumns, ⟨sql, hsql, hstatement⟩, ?_⟩
            split at h
            · split at h
              · cases h
              · rename_i hsecondary
                exact ⟨not_not.mp hsecondary, fun index hindex => by cases hindex⟩
            · rename_i index column
              split at h
              · cases h
              · rename_i hsecondary
                refine ⟨not_not.mp hsecondary, ?_⟩
                rintro _ ⟨⟩
                split at h
                · rename_i i hfind
                  split at h
                  · rename_i hi
                    exact ⟨i, hfind, hi⟩
                  · cases h
                · cases h
  · rintro ⟨info, hget, hcolumns, ⟨sql, hsql, hrowid, hvalid, htype⟩, hsecondary, hindex⟩
    have hstatement : ¬ (containsText "WITHOUT ROWID" (" ".intercalate (words (upper sql))) = false ∨
        containsText ("JSON_VALID(" ++ upper json_column ++ ")")
          (" ".intercalate (words (upper sql))) = false ∨
        containsText ("JSON_TYPE(" ++ upper json_column ++ ") = 'OBJECT'")
          (" ".intercalate (words (upper sql))) = false) := by
      simp only [hrowid, hvalid, htype, or_self, Bool.true_eq_false, not_false_eq_true]
    simp only [hget, hsql, ne_eq, hcolumns, not_true_eq_false, if_false, if_neg hstatement]
    cases secondary_index with
    | none => exact if_neg (not_not.mpr hsecondary)
    | some index =>
      obtain ⟨i, hfind, hi⟩ := hindex index rfl
      simp only [hfind, if_pos hi]
      exact if_neg (not_not.mpr hsecondary)

theorem containsText_empty : containsText "WITHOUT ROWID" "" = false := by decide

theorem indexColumns_eq_iff {indexes : List IndexInfo} {index : String} {column : Option String} :
    indexColumns indexes index = [column] ↔
      ∃ i, indexes.find? (fun i => decide (i.name = index)) = some i ∧ i.columns = [column] := by
  rw [indexColumns]
  cases indexes.find? fun i => decide (i.name = index) with
  | none => simp
  | some i => simp

/-- **The running code** on a compact table. -/
theorem validateCompact_iff {table : String} {secondary_index : Option (String × String)}
    {u : Unit} : validateCompact upper tables table secondary_index = .ok u ↔
      HasCompact upper tables table (expectedColumns table) (jsonColumn table)
        secondary_index := by
  unfold validateCompact
  dsimp only
  constructor
  · intro h
    split at h
    · cases h
    · rename_i hstatement
      simp only [not_or, ne_eq, not_not, Bool.not_eq_false] at hstatement
      obtain ⟨hcolumns, hstatement⟩ := hstatement
      have hnone : ∀ sql : Option String,
          containsText "WITHOUT ROWID" (normalizedSql upper sql) = true → ∃ text, sql = some text := by
        rintro (_ | text) hwords
        · cases containsText_empty.symm.trans hwords
        · exact ⟨text, rfl⟩
      obtain ⟨sql, hsql⟩ := hnone _ hstatement.1
      obtain ⟨info, hget, hsql⟩ := Option.bind_eq_some_iff.mp hsql
      simp only [hget, Option.bind_some, hsql, Option.map_some, Option.getD_some] at hcolumns hstatement h
      refine ⟨info, hget, hcolumns, ⟨sql, hsql, hstatement⟩, ?_⟩
      split at h
      · cases h
      · rename_i hsecondary
        refine ⟨not_not.mp hsecondary, ?_⟩
        split at h
        · exact fun index hindex => by cases hindex
        · rintro _ ⟨⟩
          split at h
          · cases h
          · rename_i hi
            exact indexColumns_eq_iff.mp (not_not.mp hi)
  · rintro ⟨info, hget, hcolumns, ⟨sql, hsql, hrowid, hvalid, htype⟩, hsecondary, hindex⟩
    have hsecondary : secondaryIndexes info.indexes = expectedSecondary secondary_index := hsecondary
    simp only [hget, Option.bind_some, hsql, Option.map_some, Option.getD_some]
    rw [if_neg, if_neg (not_not.mpr hsecondary)]
    · cases secondary_index with
      | none => rfl
      | some index => exact if_neg (not_not.mpr (indexColumns_eq_iff.mpr (hindex index rfl)))
    · rintro (h | h | h | h)
      · exact h hcolumns
      · cases h.symm.trans hrowid
      · cases h.symm.trans hvalid
      · cases h.symm.trans htype

end

/-! ## Where they agree -/

/-- The collections that version 3 has and version 7 has too. -/
def sharedCollections : List String :=
  ["memory_entries", "memory_candidates", "trace_nodes", "trace_edges", "reason_threads",
    "reason_steps", "persona_prompts", "profile_items", "source_documents", "source_chunks",
    "reflection_entries", "memory_curator_plans", "scheduler_state"]

/-- Those that version 3 has and version 7 has not. -/
def retiredCollections : List String :=
  ["notification_outbox", "chat_threads", "memory_curator_cursors"]

/-- Those that came later. -/
def laterCollections : List String :=
  ["inbox_items", "delivery_records", "conversations", "memory_observations"]

/-- The metadata of a database of this version. -/
def OfVersion {ρ : Type} (upper : String → String) (db : Database ρ) (version : Int) : Prop :=
  (∃ info, db.tables.get "_schema_version" = some info ∧
    info.columns.map (observedColumn upper) = [⟨"version", "INTEGER", 1, 0⟩]) ∧
  readHistory db.versions = .ok version

/-- A database of version 3 that has the shared collections has all the retired ones, or lacks one
    of them, as it has all the later ones, or lacks one of those. -/
def NoDrift {ρ : Type} (upper : String → String) (db : Database ρ) : Prop :=
  OfVersion upper db 3 → (∀ c ∈ sharedCollections, HasCollection db.tables c) →
    ((∀ c ∈ retiredCollections, HasCollection db.tables c) ↔
      ∀ c ∈ laterCollections, HasCollection db.tables c)

section

variable {upper : String → String} {ρ : Type} {db : Database ρ} {version : Int}

/-- **The script** reads the metadata, and asks for the tables of the version. -/
theorem validateSchema_iff :
    validateSchema upper db = .ok version ↔
      OfVersion upper db version ∧ validateTables upper db.tables version = .ok () := by
  rw [validateSchema]
  constructor
  · intro h
    split at h
    · cases h
    · rename_i info hget
      split at h
      · cases h
      · rename_i hcolumns
        split at h
        · cases h
        · rename_i last hlast
          split at h
          · cases h
          · rename_i htables
            cases h
            exact ⟨⟨⟨info, hget, not_not.mp hcolumns⟩, hlast⟩, htables⟩
  · rintro ⟨⟨⟨info, hget, hcolumns⟩, hhistory⟩, htables⟩
    simp only [hget, hcolumns, ne_eq, not_true_eq_false, if_false, hhistory, htables]

/-- **The running code** reads the same metadata. -/
theorem validateNuselfSchema_iff :
    validateNuselfSchema upper false db = .ok version ↔
      ∃ last, OfVersion upper db last ∧
        validateVersion upper db.tables false last = .ok version := by
  rw [validateNuselfSchema]
  constructor
  · intro h
    split at h
    · cases h
    · rename_i info hget
      split at h
      · cases h
      · rename_i hcolumns
        split at h
        · cases h
        · rename_i last hlast
          exact ⟨last, ⟨⟨info, hget, not_not.mp hcolumns⟩, hlast⟩, h⟩
  · rintro ⟨last, ⟨⟨info, hget, hcolumns⟩, hhistory⟩, htables⟩
    have hcolumns : info.columns.map (fun c => { c with type := upper c.type }) =
        [⟨"version", "INTEGER", 1, 0⟩] := hcolumns
    simp only [hget, hcolumns, ne_eq, not_true_eq_false, if_false, hhistory, htables]

theorem requireCurrent_false {text : String} {answer : Int} :
    requireCurrent false version text = .ok answer ↔ answer = version := by
  rw [requireCurrent, if_neg (by simp), Except.ok.injEq, eq_comm]

theorem readHistory_pos {cells : List VersionCell} (h : readHistory cells = .ok version) :
    1 ≤ version := by
  unfold readHistory at h
  dsimp only at h
  split at h
  · cases h
  · rename_i last hlast
    split at h
    · cases h
    · rename_i hgood
      cases h
      have hrange := not_not.mp (not_or.mp hgood).2
      by_contra hsmall
      have hempty : intRange 1 (version + 1) = [] := by
        rw [intRange, Int.toNat_of_nonpos (by omega)]
        rfl
      rw [hrange, hempty] at hlast
      cases hlast

theorem compact_agree {tables : Table String TableInfo} (hlow : 4 ≤ version) (hhigh : version ≤ 7)
    {answer : Int} :
    validateVersion upper tables false version = .ok answer ↔
      answer = version ∧ validateTables upper tables version = .ok () := by
  have hcollections : schemaCollections version = some [] := by
    rw [schemaCollections, if_neg (by omega), if_neg (by omega), if_pos ⟨hlow, hhigh⟩]
  have hnew : ¬ sqliteSchemaVersion < version := by
    rw [sqliteSchemaVersion]
    omega
  have hcompact : version = 4 ∨ version = 5 ∨ version = 6 ∨ version = 7 := by omega
  rw [validateVersion, if_neg hnew, if_pos hcompact, validateTables, hcollections]
  simp only [hlow, hhigh, and_self, if_true]
  have hnames : compactTables = ["_schema_version", "records", "workspace_entries"] := rfl
  rw [hnames]
  split
  · exact iff_of_false (by simp) fun h => by cases h.2
  · simp only [bind_ok_iff, requireCurrent_false, validateCompact_iff, validateCompactTable_iff]
    constructor
    · rintro ⟨-, hrecords, -, hworkspace, rfl⟩
      exact ⟨rfl, (), hrecords, hworkspace⟩
    · rintro ⟨rfl, -, hrecords, hworkspace⟩
      exact ⟨(), hrecords, (), hworkspace, rfl⟩

/-- **The collections** that the running code asks for in a version before the compact ones. -/
theorem early_iff {tables : Table String TableInfo} (hhigh : version ≤ 3) {answer : Int} :
    validateVersion upper tables false version = .ok answer ↔
      answer = version ∧ ∀ c ∈ if 3 ≤ version then collectionNames else v2CollectionNames,
        HasCollection tables c := by
  have hnew : ¬ sqliteSchemaVersion < version := by
    rw [sqliteSchemaVersion]
    omega
  have hcompact : ¬ (version = 4 ∨ version = 5 ∨ version = 6 ∨ version = 7) := by omega
  rw [validateVersion, if_neg hnew, if_neg hcompact, bind_ok_iff]
  simp only [requireCurrent_false, requireCollections_ok_iff]
  exact ⟨fun ⟨_, hall, hanswer⟩ => ⟨hanswer, hall⟩, fun ⟨hanswer, hall⟩ => ⟨(), hall, hanswer⟩⟩

theorem validateTables_early {tables : Table String TableInfo} {collections : List String}
    (hhigh : version ≤ 3) (hcollections : schemaCollections version = some collections) :
    validateTables upper tables version = .ok () ↔ ∀ c ∈ collections, HasCollection tables c := by
  have hcompact : ¬ (4 ≤ version ∧ version ≤ 7) := by omega
  rw [validateTables, hcollections]
  simp only [if_neg hcompact]
  exact validateCollections_ok_iff

theorem forall_collectionNames {P : String → Prop} :
    (∀ c ∈ collectionNames, P c) ↔
      (∀ c ∈ sharedCollections, P c) ∧ ∀ c ∈ laterCollections, P c := by
  have hperm : collectionNames.Perm (sharedCollections ++ laterCollections) := by decide
  refine Iff.trans (forall_congr' fun c => ?_) List.forall_mem_append
  rw [hperm.mem_iff]

theorem forall_thirdCollections {P : String → Prop} :
    (∀ c ∈ firstCollections ++ ["chat_threads", "memory_curator_cursors", "memory_curator_plans",
        "scheduler_state"], P c) ↔
      (∀ c ∈ sharedCollections, P c) ∧ ∀ c ∈ retiredCollections, P c := by
  have hperm : (firstCollections ++ ["chat_threads", "memory_curator_cursors",
      "memory_curator_plans", "scheduler_state"]).Perm
      (sharedCollections ++ retiredCollections) := by decide
  refine Iff.trans (forall_congr' fun c => ?_) List.forall_mem_append
  rw [hperm.mem_iff]

/-- **Of every version but the third** both ask the same. -/
theorem versions_agree {tables : Table String TableInfo} (hpos : 1 ≤ version) (hthird : version ≠ 3)
    {answer : Int} :
    validateVersion upper tables false version = .ok answer ↔
      answer = version ∧ validateTables upper tables version = .ok () := by
  by_cases hearly : version ≤ 2
  · have hcollections : schemaCollections version = some v2CollectionNames := by
      rw [schemaCollections, if_pos (by omega)]
      rfl
    rw [early_iff (by omega), if_neg (by omega), validateTables_early (by omega) hcollections]
  · by_cases hknown : version ≤ 7
    · exact compact_agree (by omega) hknown
    · have hnew : sqliteSchemaVersion < version := by
        rw [sqliteSchemaVersion]
        omega
      have hunknown : schemaCollections version = none := by
        rw [schemaCollections, if_neg (by omega), if_neg (by omega), if_neg (by omega)]
      rw [validateVersion, if_pos hnew, if_neg (by simp), validateTables, hunknown]
      exact iff_of_false (by simp) fun h => by cases h.2

end

/-- **The validators agree** on a database exactly when the two lists of collections do not tell it
    apart. -/
theorem validators_agree_iff {ρ : Type} (upper : String → String) (db : Database ρ) :
    (∀ version, validateNuselfSchema upper false db = .ok version ↔
        validateSchema upper db = .ok version) ↔ NoDrift upper db := by
  simp only [validateNuselfSchema_iff, validateSchema_iff]
  by_cases hversion : ∃ last, OfVersion upper db last
  · obtain ⟨last, hlast⟩ := hversion
    have hunique : ∀ other, OfVersion upper db other → other = last := fun other hother =>
      Except.ok.inj (hother.2.symm.trans hlast.2)
    have hone : (∀ version, (∃ other, OfVersion upper db other ∧
          validateVersion upper db.tables false other = .ok version) ↔
        OfVersion upper db version ∧ validateTables upper db.tables version = .ok ()) ↔
        ∀ version, validateVersion upper db.tables false last = .ok version ↔
          version = last ∧ validateTables upper db.tables last = .ok () := by
      refine forall_congr' fun version => ?_
      have hleft : (∃ other, OfVersion upper db other ∧
          validateVersion upper db.tables false other = .ok version) ↔
          validateVersion upper db.tables false last = .ok version := by
        constructor
        · rintro ⟨other, hother, h⟩
          rwa [hunique other hother] at h
        · exact fun h => ⟨last, hlast, h⟩
      have hright : (OfVersion upper db version ∧
          validateTables upper db.tables version = .ok ()) ↔
          version = last ∧ validateTables upper db.tables last = .ok () := by
        constructor
        · rintro ⟨hother, h⟩
          obtain rfl := hunique version hother
          exact ⟨rfl, h⟩
        · rintro ⟨rfl, h⟩
          exact ⟨hlast, h⟩
      rw [hleft, hright]
    rw [hone]
    by_cases hthird : last = 3
    · subst hthird
      have hcollections : schemaCollections 3 = some (firstCollections ++ ["chat_threads",
        "memory_curator_cursors", "memory_curator_plans", "scheduler_state"]) := by decide
      simp only [early_iff (le_refl 3), if_true, le_refl, validateTables_early (le_refl 3)
        hcollections, forall_collectionNames, forall_thirdCollections]
      constructor
      · intro hagree _ hshared
        have hthird := hagree 3
        simp only [true_and] at hthird
        exact ⟨fun hretired => (hthird.mpr ⟨hshared, hretired⟩).2,
          fun hlater => (hthird.mp ⟨hshared, hlater⟩).2⟩
      · intro hdrift version
        refine and_congr_right fun _ => and_congr_right fun hshared => ?_
        exact (hdrift hlast hshared).symm
    · refine iff_of_true (fun version => versions_agree (readHistory_pos hlast.2) hthird) ?_
      exact fun h => absurd (hunique 3 h).symm hthird
  · refine iff_of_true (fun version => ?_) fun h => absurd ⟨3, h⟩ hversion
    refine iff_of_false ?_ fun h => hversion ⟨version, h.1⟩
    rintro ⟨other, hother, -⟩
    exact hversion ⟨other, hother⟩

/-- A table of a collection: its id and its payload. -/
def collectionTable : TableInfo :=
  ⟨[⟨"id", "TEXT", 1, 1⟩, ⟨"payload", "TEXT", 1, 0⟩], none, []⟩

/-- A database of version 3, with the tables that the registry has for it. -/
def thirdDatabase : Database Unit where
  tables := ⟨("_schema_version", ⟨[⟨"version", "INTEGER", 1, 0⟩], none, []⟩) ::
    (sharedCollections ++ retiredCollections).map fun c => ("col_" ++ c, collectionTable),
    by decide⟩
  versions := [.int 1, .int 2, .int 3]
  rows := ()

/-- **A database that the script supports** and no thought pack can be read from. -/
theorem third_version_rejected :
    validateSchema id thirdDatabase = .ok 3 ∧
      validateNuselfSchema id false thirdDatabase =
        .error (.schema "thought pack is missing collection table col_inbox_items") := by
  decide +kernel

end NuSelf.Storage.PackSchema
