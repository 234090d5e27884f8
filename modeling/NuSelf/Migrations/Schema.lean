/-
  The identity of a database schema, as the migration script checks it.

  A database is what the script can see of it: the catalog of its tables, the rows of
  `_schema_version`, and all other rows, whose type is a parameter.  `validateSchema` reads the
  catalog and the version rows and gives the version, or the error that says what is wrong.

  The one fact that the runner needs is `validateSchema_history`: a database that passes has the
  versions from one on, each exactly once.
-/
import Mathlib.Data.List.Infix
import Mathlib.Data.List.Sort
import NuSelf.Lib.Table
import NuSelf.Lib.Text

namespace NuSelf.Migrations

open NuSelf.Lib

/-! ## The catalog -/

/-- One row of `PRAGMA table_info`: name, type, `notnull`, place in the primary key. -/
structure ColumnInfo where
  name : String
  type : String
  not_null : Nat
  pk : Nat
  deriving DecidableEq

/-- One row of `PRAGMA index_list`, with the columns of the index; an expression has no name. -/
structure IndexInfo where
  name : String
  unique : Nat
  origin : String
  conditional : Nat
  columns : List (Option String)
  deriving DecidableEq

/-- A table of the catalog; `sql` is the statement that made it. -/
structure TableInfo where
  columns : List ColumnInfo
  sql : Option String
  indexes : List IndexInfo := []
  deriving DecidableEq

/-- A value in the column `version`: SQLite checks types loosely. -/
inductive VersionCell where
  | int (value : Int)
  | other
  deriving DecidableEq

structure Database (ρ : Type) where
  tables : Table String TableInfo
  /-- The rows of `_schema_version`. -/
  versions : List VersionCell
  /-- Everything in the other tables. -/
  rows : ρ
  deriving DecidableEq

/-! ## The frozen identities -/

/-- The collections of schema v1 and v2. -/
def firstCollections : List String :=
  ["memory_entries", "memory_candidates", "trace_nodes", "trace_edges", "reason_threads",
    "reason_steps", "persona_prompts", "profile_items", "source_documents", "source_chunks",
    "notification_outbox", "reflection_entries"]

/-- `SCHEMA_COLLECTIONS`: the collections of every supported version. -/
def schemaCollections (version : Int) : Option (List String) :=
  if version = 1 ∨ version = 2 then some firstCollections
  else if version = 3 then
    some (firstCollections ++
      ["chat_threads", "memory_curator_cursors", "memory_curator_plans", "scheduler_state"])
  else if 4 ≤ version ∧ version ≤ 7 then some []
  else none

inductive SchemaError where
  | missingMetadata
  | invalidMetadata
  | invalidHistory
  | unsupportedVersion (version : Int)
  | invalidTableSet
  | invalidTable (table : String)
  | invalidIndexes (table : String)
  | invalidIndex (table : String)
  | missingCollection (table : String)
  | noPrimaryKey (collection : String)
  deriving DecidableEq

/-- `range(start, stop)`. -/
def intRange (start stop : Int) : List Int :=
  (List.range (stop - start).toNat).map fun (i : Nat) => start + i

/-! ## The checks -/

/-- Whether a text contains another. -/
def containsText (needle text : String) : Bool := decide (needle.toList <:+: text.toList)

section

-- `str.upper`
variable (upper : String → String)

/-- What `_validate_compact_table` expects of a column. -/
def observedColumn (c : ColumnInfo) : ColumnInfo := { c with type := upper c.type }

def validateCompactTable (tables : Table String TableInfo) (table : String)
    (columns : List ColumnInfo) (json_column : String)
    (secondary_index : Option (String × String)) : Except SchemaError Unit :=
  match tables.get table with
  | none => .error (.invalidTable table)
  | some info =>
    if info.columns.map (observedColumn upper) ≠ columns then .error (.invalidTable table)
    else
      match info.sql with
      | none => .error (.invalidTable table)
      | some sql =>
        let normalized := " ".intercalate (words (upper sql))
        if containsText "WITHOUT ROWID" normalized = false ∨
            containsText ("JSON_VALID(" ++ upper json_column ++ ")") normalized = false ∨
            containsText ("JSON_TYPE(" ++ upper json_column ++ ") = 'OBJECT'") normalized = false
        then .error (.invalidTable table)
        else
          let secondary := (info.indexes.filter fun i => decide (i.origin ≠ "pk")).map
            fun i => (i.name, i.unique, i.origin, i.conditional)
          match secondary_index with
          | none => if secondary ≠ [] then .error (.invalidIndexes table) else .ok ()
          | some (index, column) =>
            if secondary ≠ [(index, 0, "c", 0)] then .error (.invalidIndexes table)
            else
              match info.indexes.find? fun i => decide (i.name = index) with
              | some i =>
                if i.columns = [some column] then .ok () else .error (.invalidIndex table)
              | none => .error (.invalidIndex table)

def recordsColumns : List ColumnInfo :=
  [⟨"collection", "TEXT", 1, 1⟩, ⟨"id", "TEXT", 1, 2⟩, ⟨"payload", "TEXT", 1, 0⟩]

def workspaceColumns : List ColumnInfo :=
  [⟨"namespace", "TEXT", 1, 1⟩, ⟨"key", "TEXT", 1, 2⟩, ⟨"value", "TEXT", 1, 0⟩,
    ⟨"created_at", "TEXT", 1, 0⟩, ⟨"updated_at", "TEXT", 1, 0⟩]

/-- The tables of schema v4 and later. -/
def compactTables : List String := ["_schema_version", "records", "workspace_entries"]

/-- `set(tables) == expected`. -/
def sameNames (names expected : List String) : Bool :=
  names.all (fun n => expected.contains n) && expected.all fun n => names.contains n

/-- The loop over the collections of schema v1 to v3. -/
def validateCollections (tables : Table String TableInfo) : List String → Except SchemaError Unit
  | [] => .ok ()
  | collection :: rest =>
    match tables.get ("col_" ++ collection) with
    | none => .error (.missingCollection ("col_" ++ collection))
    | some info =>
      if info.columns.any (fun c => decide (c.name = "id" ∧ c.pk = 1)) = true then
        validateCollections tables rest
      else .error (.noPrimaryKey collection)

/-- The tables that a version has. -/
def validateTables (tables : Table String TableInfo) (version : Int) : Except SchemaError Unit :=
  match schemaCollections version with
  | none => .error (.unsupportedVersion version)
  | some collections =>
    if 4 ≤ version ∧ version ≤ 7 then
      if sameNames tables.keys compactTables = false then .error .invalidTableSet
      else do
        validateCompactTable upper tables "records" recordsColumns "payload"
          (if version = 4 then some ("idx_records_collection", "collection") else none)
        validateCompactTable upper tables "workspace_entries" workspaceColumns "value"
          (if version = 4 then some ("idx_workspace_entries_ns", "namespace") else none)
    else validateCollections tables collections

def VersionCell.toInt : VersionCell → Option Int
  | .int value => some value
  | .other => none

/-- The version history, read in order: the last version. -/
def readHistory (cells : List VersionCell) : Except SchemaError Int :=
  let versions := (cells.filterMap VersionCell.toInt).insertionSort (· ≤ ·)
  match versions.getLast? with
  | none => .error .invalidHistory
  | some last =>
    if versions.length ≠ cells.length ∨ versions ≠ intRange 1 (last + 1) then
      .error .invalidHistory
    else .ok last

def validateSchema {ρ : Type} (db : Database ρ) : Except SchemaError Int :=
  match db.tables.get "_schema_version" with
  | none => .error .missingMetadata
  | some info =>
    if info.columns.map (observedColumn upper) ≠ [⟨"version", "INTEGER", 1, 0⟩] then
      .error .invalidMetadata
    else
      match readHistory db.versions with
      | .error e => .error e
      | .ok version =>
        match validateTables upper db.tables version with
        | .error e => .error e
        | .ok () => .ok version

end

/-! ## The history of a valid database -/

/-- The versions from one to `version`, each in one row. -/
def History (cells : List VersionCell) (version : Int) : Prop :=
  cells.Perm ((intRange 1 (version + 1)).map VersionCell.int)

theorem filterMap_toInt_length {cells : List VersionCell}
    (h : (cells.filterMap VersionCell.toInt).length = cells.length) :
    cells = (cells.filterMap VersionCell.toInt).map VersionCell.int := by
  induction cells with
  | nil => rfl
  | cons c rest ih =>
    cases c with
    | int value =>
      have hrest : (rest.filterMap VersionCell.toInt).length = rest.length := by
        simpa [VersionCell.toInt] using h
      have htail := ih hrest
      simp only [List.filterMap_cons, VersionCell.toInt, List.map_cons]
      rw [← htail]
    | other =>
      -- a cell that is no integer makes the list of integers too short
      have hle : (rest.filterMap VersionCell.toInt).length ≤ rest.length :=
        List.length_filterMap_le _ _
      simp only [List.filterMap_cons, VersionCell.toInt, List.length_cons] at h
      omega

theorem readHistory_ok {cells : List VersionCell} {version : Int}
    (h : readHistory cells = .ok version) : History cells version := by
  unfold readHistory at h
  dsimp only at h
  split at h
  · cases h
  · rename_i last hlast
    split at h
    · cases h
    · rename_i hgood
      cases h
      obtain ⟨hlength, hrange⟩ := not_or.mp hgood
      have hlength := not_not.mp hlength
      have hrange := not_not.mp hrange
      have hsorted := List.perm_insertionSort (· ≤ ·) (cells.filterMap VersionCell.toInt)
      rw [hsorted.length_eq] at hlength
      rw [hrange] at hsorted
      have hcells := filterMap_toInt_length hlength
      show cells.Perm _
      rw [hcells]
      exact (hsorted.map VersionCell.int).symm

/-- **A database that passes has the versions from one on**, each exactly once. -/
theorem validateSchema_history {upper : String → String} {ρ : Type} {db : Database ρ}
    {version : Int} (h : validateSchema upper db = .ok version) : History db.versions version := by
  unfold validateSchema at h
  split at h
  · cases h
  · split at h
    · cases h
    · split at h
      · cases h
      · rename_i last hlast
        split at h
        · cases h
        · cases h
          exact readHistory_ok hlast

end NuSelf.Migrations
