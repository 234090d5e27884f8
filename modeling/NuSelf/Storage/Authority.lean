/-
  Opening the SQLite authority, or creating it.

  A call of `auto_backend` opens the database if it is there.  Otherwise it takes the schema lease,
  looks again, and builds a new database under a temporary name, which it then moves to the
  canonical path.  The building is a script (`program`): each action may raise, and an exception may
  come before or behind any of them.  The handler is a script too (`Desk.handlers`), made from the
  local variables at the place where the exception came.

  SQLite writes the temporary file and its sidecars only.  What is committed reaches the file itself
  with a checkpoint, or earlier if SQLite likes (`Choice`); which sidecars are there is left open
  until they are unlinked.  A temporary name is a `uuid4`, so every call has its own.

  1. **The building** — `perform`, `program` and `Desk.handlers`.
  2. `program_safe` — wherever the building is stopped, its handlers clear the desk.
  3. **The calls** — `System.advance`, `System.fail` and `step`.
-/
import NuSelf.Lib.Locks
import NuSelf.Lib.Run
import NuSelf.Lib.Script
import NuSelf.Migrations.Schema

namespace NuSelf.Storage.Authority

open NuSelf.Lib NuSelf.Migrations

/-! ## Databases and files -/

/-- `SQLITE_SCHEMA_VERSION`. -/
def schemaVersion : Int := 7

def versionTable : TableInfo where
  columns := [⟨"version", "INTEGER", 1, 0⟩]
  sql := some "CREATE TABLE _schema_version (version INTEGER NOT NULL)"

def recordsTable : TableInfo where
  columns := recordsColumns
  sql := some ("CREATE TABLE records (collection TEXT NOT NULL, id TEXT NOT NULL, " ++
    "payload TEXT NOT NULL CHECK(json_valid(payload) AND json_type(payload) = 'object'), " ++
    "PRIMARY KEY (collection, id)) WITHOUT ROWID")
  indexes := [⟨"sqlite_autoindex_records_1", 1, "pk", 0, [some "collection", some "id"]⟩]

def workspaceTable : TableInfo where
  columns := workspaceColumns
  sql := some ("CREATE TABLE workspace_entries (namespace TEXT NOT NULL, " ++
    "key TEXT NOT NULL, value TEXT NOT NULL CHECK(json_valid(value) " ++
    "AND json_type(value) = 'object'), created_at TEXT NOT NULL, " ++
    "updated_at TEXT NOT NULL, PRIMARY KEY (namespace, key)) WITHOUT ROWID")
  indexes := [⟨"sqlite_autoindex_workspace_entries_1", 1, "pk", 0, [some "namespace", some "key"]⟩]

/-- The tables of the current version. -/
def currentTables : Table String TableInfo where
  rows := [("_schema_version", versionTable), ("records", recordsTable),
    ("workspace_entries", workspaceTable)]
  nodup := by simp

/-- The version rows of the current version. -/
def currentVersions : List VersionCell := (intRange 1 (schemaVersion + 1)).map .int

/-- A complete database at the current schema version. -/
structure Complete {ρ : Type} (db : Database ρ) : Prop where
  tables : db.tables = currentTables
  versions : db.versions = currentVersions

/-- A database file, with the call that made it; `none` was there before. -/
structure File (ρ : Type) where
  creator : Option Nat
  database : Database ρ

/-- The files beside a database. -/
inductive Sidecar where
  | wal | shm | journal | schemaLock
  deriving DecidableEq

inductive AuthorityError where
  | fileExists
  /-- SQLite refuses a statement. -/
  | sqlite
  | checkpoint
  /-- `AtomicWriteCleanupError`. -/
  | cleanup
  /-- `SqliteStorageAuthorityError`. -/
  | unpublished
  | identity (e : SchemaError)
  | unsupportedVersion (version : Int)
  /-- Whatever else is raised. -/
  | other
  deriving DecidableEq

/-! ## The temporary database -/

/-- The temporary files of a call, and its local variables. -/
structure Desk (ρ : Type) where
  /-- The temporary file, as it is without its log. -/
  main : Option (Database ρ)
  /-- What a connection reads. -/
  committed : Database ρ
  /-- Rows are written that are not committed. -/
  pending : Bool
  sidecar : Sidecar → Bool
  /-- The `try` is entered. -/
  guarded : Bool
  /-- The constructor of the backend has connected and not yet returned. -/
  connected : Bool
  /-- `backend is not None`. -/
  backend : Bool
  /-- The backend is closed. -/
  closed : Bool
  /-- Its last checkpoint failed. -/
  checkpointFailed : Bool
  published : Bool

/-- No file is left. -/
structure Desk.Clean {ρ : Type} (d : Desk ρ) : Prop where
  main : d.main = none
  sidecar : ∀ x, d.sidecar x = false

/-- What SQLite leaves open. -/
structure Choice where
  /-- The sidecars that are there afterwards. -/
  left : Sidecar → Bool
  /-- What is committed is moved to the file. -/
  flush : Bool
  /-- The checkpoint goes through. -/
  checkpoint : Bool

inductive Action where
  /-- Directories, modes and syncing. -/
  | ensureDirectory | chmod | requirePrivate | sync | syncDirectory
  /-- `if destination.exists() or destination.is_symlink(): raise`. -/
  | requireAbsent
  | enterTry
  | touch
  | connect
  | pragma
  | createTable (name : String) (info : TableInfo)
  | readVersion
  | insertVersions
  | commit
  | hardenSidecars
  | leaveConstructor
  | assignBackend
  /-- The three parts of `backend.close()`: the checkpoint, `connection.close()`, and the error of
      the checkpoint. -/
  | checkpoint | closeConnection | raiseCheckpoint
  | clearBackend
  | unlink (x : Sidecar)
  | replace
  | markPublished
  /-- `connection.close()` in the constructor that has failed. -/
  | abandonConnection
  | unlinkDatabase

section

variable {ρ : Type} (noRows : ρ)

/-- A new file. -/
def emptyDatabase : Database ρ := ⟨Table.empty, [], noRows⟩

/-- The desk of a call that has made nothing. -/
def Desk.new : Desk ρ where
  main := none
  committed := emptyDatabase noRows
  pending := false
  sidecar _ := false
  guarded := false
  connected := false
  backend := false
  closed := false
  checkpointFailed := false
  published := false

/-- A call of SQLite on the temporary database. -/
def Desk.sqlite (d : Desk ρ) (choice : Choice) : Desk ρ :=
  { d with
    main := if choice.flush = true then some d.committed else d.main
    sidecar := fun x => if x = .schemaLock then d.sidecar x else choice.left x }

/-- What a call works on: the canonical path, and its desk. -/
abbrev Site (ρ : Type) := Option (File ρ) × Desk ρ

/-- One action of call `n`. -/
def perform (n : Nat) (a : Action) (choice : Choice) (s : Site ρ) :
    Site ρ × Option AuthorityError :=
  let (canonical, d) := s
  match a with
  | .ensureDirectory | .chmod | .requirePrivate | .sync | .syncDirectory => (s, none)
  | .requireAbsent => (s, if canonical.isSome = true then some .fileExists else none)
  | .enterTry => ((canonical, { d with guarded := true }), none)
  | .touch =>
    if d.main.isSome = true then (s, some .fileExists)
    else
      let main := some (emptyDatabase noRows)
      ((canonical, { d with main, committed := emptyDatabase noRows }), none)
  | .connect => ((canonical, { d with connected := true, closed := false, pending := false }), none)
  | .pragma | .hardenSidecars => ((canonical, d.sqlite choice), none)
  | .createTable name info =>
    if d.committed.tables.contains name = true then (s, some .sqlite)
    else
      let committed := { d.committed with tables := d.committed.tables.set name info }
      ((canonical, Desk.sqlite { d with committed } choice), none)
  | .readVersion =>
    -- the table is new; with a version in it, the other tables would not be made
    (s, if d.committed.versions = [] then none else some .sqlite)
  | .insertVersions => ((canonical, Desk.sqlite { d with pending := true } choice), none)
  | .commit =>
    let committed :=
      if d.pending = true then
        { d.committed with versions := d.committed.versions ++ currentVersions }
      else d.committed
    ((canonical, Desk.sqlite { d with committed, pending := false } choice), none)
  | .leaveConstructor => ((canonical, { d with connected := false }), none)
  | .assignBackend => ((canonical, { d with backend := true }), none)
  | .checkpoint =>
    if d.closed = true then (s, none)
    else if choice.checkpoint = true then
      let main := some d.committed
      ((canonical, { d.sqlite choice with main, checkpointFailed := false }), none)
    else ((canonical, { d.sqlite choice with checkpointFailed := true }), none)
  | .closeConnection =>
    if d.closed = true then ((canonical, { d with checkpointFailed := false }), none)
    else ((canonical, { d.sqlite choice with closed := true }), none)
  | .raiseCheckpoint => (s, if d.checkpointFailed = true then some .checkpoint else none)
  | .clearBackend => ((canonical, { d with backend := false }), none)
  | .unlink x => ((canonical, { d with sidecar := Function.update d.sidecar x false }), none)
  | .replace =>
    match d.main with
    | none => (s, some .other)
    | some db => ((some ⟨some n, db⟩, { d with main := none }), none)
  | .markPublished => ((canonical, { d with published := true }), none)
  | .abandonConnection => ((canonical, d.sqlite choice), none)
  | .unlinkDatabase => ((canonical, { d with main := none }), none)

def createPrivateFile : List Action := [.ensureDirectory, .touch, .chmod]

/-- The constructor of the backend. -/
def construct : List Action :=
  [.ensureDirectory, .requirePrivate, .requirePrivate, .chmod, .connect,
    -- `busy_timeout`, `journal_mode` and `synchronous`
    .pragma, .pragma, .pragma,
    .createTable "_schema_version" versionTable, .readVersion, .createTable "records" recordsTable,
    .createTable "workspace_entries" workspaceTable, .insertVersions, .commit, .hardenSidecars,
    .leaveConstructor]

/-- `backend.close()`. -/
def close : List Action := [.checkpoint, .closeConnection, .raiseCheckpoint]

/-- `_remove_sqlite_migration_sidecars`. -/
def removeSidecars : List Action :=
  [.unlink .wal, .unlink .shm, .unlink .journal, .unlink .schemaLock]

/-- `_remove_sqlite_migration_artifacts`. -/
def removeArtifacts : List Action := .unlinkDatabase :: removeSidecars

/-- `_initialize_sqlite_authority`. -/
def program : List Action :=
  [.ensureDirectory, .requireAbsent, .enterTry] ++ (createPrivateFile ++ (construct ++
    ([.assignBackend] ++ (close ++ ([.clearBackend] ++ (removeSidecars ++
      [.sync, .replace, .markPublished, .syncDirectory]))))))

/-- The handlers of an exception, by the local variables. -/
def Desk.handlers (d : Desk ρ) : List Action :=
  if d.guarded = false then []
  else
    (if d.backend = true then close
      else if d.connected = true then [.abandonConnection]
      else []) ++
    if d.published = true then [] else removeArtifacts

end

/-! ## The script is safe -/

section

variable {ρ : Type} {noRows : ρ} {n : Nat}

/-- The canonical path stays as it is, or a complete database is put where there was none. -/
def Publishes (s s' : Site ρ) : Prop :=
  s'.1 = s.1 ∨ (s.1 = none ∧ ∃ file, s'.1 = some file ∧ Complete file.database)

def CleanSite (s : Site ρ) : Prop := s.2.Clean

/-- The handlers of an exception clear the desk, unless one of them raises. -/
def Handled (noRows : ρ) (n : Nat) (rest : List Action) (s : Site ρ) : Prop :=
  Script.Safe (perform noRows n) (fun _ => True) Publishes CleanSite rest s

/-- An exception may come here. -/
def Stopped (noRows : ρ) (n : Nat) (s : Site ρ) : Prop := Handled noRows n s.2.handlers s

theorem perform_canonical {a : Action} (ha : a ≠ .replace) (choice : Choice) (s : Site ρ) :
    (perform noRows n a choice s).1.1 = s.1 := by
  obtain ⟨canonical, d⟩ := s
  cases a with
  | replace => exact absurd rfl ha
  | touch => unfold perform; dsimp only; split <;> rfl
  | createTable name info => unfold perform; dsimp only; split <;> rfl
  | checkpoint => unfold perform; dsimp only; split <;> [rfl; split <;> rfl]
  | closeConnection => unfold perform; dsimp only; split <;> rfl
  | _ => rfl

theorem handler_triple {P Q : Site ρ → Prop} {a : Action} (ha : a ≠ .replace)
    (h : ∀ s choice, P s → (perform noRows n a choice s).2 = none →
      Q (perform noRows n a choice s).1) :
    Script.Triple (perform noRows n) (fun _ => True) Publishes P a Q where
  stops := fun _ _ => trivial
  acts := fun s choice hP => ⟨.inl (perform_canonical ha choice s), trivial, h s choice hP⟩

theorem removeSidecars_safe {stop P : Site ρ → Prop} (hstop : ∀ s, P s → stop s)
    (hkeep : ∀ (s : Site ρ) sidecar, P s → P (s.1, { s.2 with sidecar })) :
    ∀ s, P s → Script.Safe (perform noRows n) stop Publishes
      (fun s => P s ∧ ∀ x, s.2.sidecar x = false) removeSidecars s := by
  have hunlink : ∀ (gone : List Sidecar) (x : Sidecar), Script.Triple (perform noRows n) stop
      Publishes (fun s => P s ∧ ∀ y ∈ gone, s.2.sidecar y = false) (.unlink x)
      (fun s => P s ∧ ∀ y ∈ x :: gone, s.2.sidecar y = false) := by
    intro gone x
    refine ⟨fun s hs => hstop s hs.1, fun s choice hs => ?_⟩
    have hP := hkeep s (Function.update s.2.sidecar x false) hs.1
    refine ⟨.inl rfl, hstop _ hP, fun _ => ⟨hP, fun y hy => ?_⟩⟩
    show Function.update s.2.sidecar x false y = false
    rw [Function.update_apply]
    split
    · rfl
    · rename_i hne
      exact hs.2 y ((List.mem_cons.mp hy).resolve_left hne)
  have hall : ∀ x, x ∈ [Sidecar.schemaLock, .journal, .shm, .wal] := by
    intro x
    cases x <;> decide
  intro s hs
  have hsafe := (hunlink [] .wal).safe ((hunlink _ .shm).safe ((hunlink _ .journal).safe
    (hunlink _ .schemaLock).last)) s ⟨hs, nofun⟩
  exact hsafe.imp fun s hs => ⟨hs.1, fun x => hs.2 x (hall x)⟩

/-- **The artifacts are removed**, whatever there is of them. -/
theorem removeArtifacts_handled (s : Site ρ) : Handled noRows n removeArtifacts s := by
  have hdatabase : Script.Triple (perform noRows n) (fun _ => True) Publishes (fun _ => True)
      .unlinkDatabase (fun s => s.2.main = none) := handler_triple nofun fun s choice _ _ => rfl
  refine hdatabase.safe (fun s hs => ?_) s trivial
  have hremove : Script.Safe (perform noRows n) (fun _ => True) Publishes
      (fun s => s.2.main = none ∧ ∀ x, s.2.sidecar x = false) removeSidecars s :=
    removeSidecars_safe (fun _ _ => trivial) (fun _ _ hs => hs) s hs
  exact hremove.imp fun s hs => ⟨hs.1, hs.2⟩

/-- The body of the `try`, before the replacement is noted: any exception is handled. -/
def Guarded (s : Site ρ) : Prop := s.2.guarded = true ∧ s.2.published = false

theorem Guarded.stopped {s : Site ρ} (h : Guarded s) : Stopped noRows n s := by
  have hany : ∀ a ≠ .replace, Script.Triple (perform noRows n) (fun _ => True) Publishes
      (fun _ => True) a (fun _ => True) := fun a ha => handler_triple ha fun _ _ _ _ => trivial
  have hremove : ∀ s, True → Handled noRows n removeArtifacts s :=
    fun s _ => removeArtifacts_handled s
  have hhandlers : s.2.handlers =
      (if s.2.backend = true then close
        else if s.2.connected = true then [.abandonConnection] else []) ++ removeArtifacts := by
    rw [Desk.handlers, h.1, h.2]
    rfl
  rw [Stopped, hhandlers]
  split
  · exact (hany .checkpoint nofun).safe ((hany .closeConnection nofun).safe
      ((hany .raiseCheckpoint nofun).safe hremove)) s trivial
  · split
    · exact (hany .abandonConnection nofun).safe hremove s trivial
    · exact hremove s trivial

/-! ### Building -/

theorem Guarded.perform {a : Action} (ha : a ≠ .markPublished) {s : Site ρ} (h : Guarded s)
    (choice : Choice) : Guarded (perform noRows n a choice s).1 := by
  obtain ⟨canonical, d⟩ := s
  cases a with
  | markPublished => exact absurd rfl ha
  | enterTry => exact ⟨rfl, h.2⟩
  | touch => unfold Authority.perform; dsimp only; split <;> exact h
  | createTable name info => unfold Authority.perform; dsimp only; split <;> exact h
  | checkpoint => unfold Authority.perform; dsimp only; split <;> [exact h; split <;> exact h]
  | closeConnection => unfold Authority.perform; dsimp only; split <;> exact h
  | replace => unfold Authority.perform; dsimp only; split <;> exact h
  | _ => exact h

theorem building_triple {P Q : Site ρ → Prop} {a : Action} (ha : a ≠ .markPublished)
    (ha' : a ≠ .replace) (hguarded : ∀ s, P s → Guarded s)
    (h : ∀ s choice, P s → (perform noRows n a choice s).2 = none →
      Q (perform noRows n a choice s).1) :
    Script.Triple (perform noRows n) (Stopped noRows n) Publishes P a Q where
  stops := fun s hP => (hguarded s hP).stopped
  acts := fun s choice hP => ⟨.inl (perform_canonical ha' choice s),
    ((hguarded s hP).perform ha choice).stopped, h s choice hP⟩

/-- A connection sees this database. -/
structure Built (pending : Bool) (db : Database ρ) (s : Site ρ) : Prop where
  guarded : Guarded s
  absent : s.1 = none
  committed : s.2.committed = db
  pending : s.2.pending = pending
  closed : s.2.closed = false

/-- The constructor has returned. -/
structure Made (db : Database ρ) (s : Site ρ) : Prop where
  guarded : Guarded s
  absent : s.1 = none
  connected : s.2.connected = false
  committed : s.2.committed = db
  closed : s.2.closed = false

/-- The checkpoint is tried. -/
structure Checkpointed (db : Database ρ) (s : Site ρ) : Prop extends Made db s where
  main : s.2.checkpointFailed = false → s.2.main = some db

/-- The connection is closed. -/
structure Closed (db : Database ρ) (s : Site ρ) : Prop where
  guarded : Guarded s
  absent : s.1 = none
  connected : s.2.connected = false
  main : s.2.checkpointFailed = false → s.2.main = some db

/-- The file holds the database. -/
structure Loaded (db : Database ρ) (s : Site ρ) : Prop where
  guarded : Guarded s
  absent : s.1 = none
  connected : s.2.connected = false
  main : s.2.main = some db

/-- The file is all that is left, but for sidecars. -/
structure Ready (db : Database ρ) (s : Site ρ) : Prop extends Loaded db s where
  backend : s.2.backend = false

/-- The file is in its place. -/
structure Replaced (s : Site ρ) : Prop where
  guarded : Guarded s
  connected : s.2.connected = false
  backend : s.2.backend = false
  clean : CleanSite s

/-- Nothing is left to do or to clear. -/
structure Over (s : Site ρ) : Prop where
  clean : CleanSite s
  handlers : s.2.handlers = []

theorem Over.stopped {s : Site ρ} (h : Over s) : Stopped noRows n s := by
  rw [Stopped, h.handlers]
  exact h.clean

theorem idle_triple {P : Site ρ → Prop} {a : Action} (hstop : ∀ s, P s → Stopped noRows n s)
    (ha : ∀ (choice : Choice) (s : Site ρ), perform noRows n a choice s = (s, none)) :
    Script.Triple (perform noRows n) (Stopped noRows n) Publishes P a P where
  stops := hstop
  acts := by
    intro s choice hP
    rw [ha]
    exact ⟨.inl rfl, hstop s hP, fun _ => hP⟩

theorem guarded_idle {P : Site ρ → Prop} (hP : ∀ s, P s → Guarded s) (a : Action)
    (ha : ∀ (choice : Choice) (s : Site ρ), perform noRows n a choice s = (s, none)) :
    Script.Triple (perform noRows n) (Stopped noRows n) Publishes P a P :=
  idle_triple (fun s hs => (hP s hs).stopped) ha

theorem statement_triple {a : Action} (pending : Bool) (db : Database ρ)
    (ha : a = .pragma ∨ a = .hardenSidecars) :
    Script.Triple (perform noRows n) (Stopped noRows n) Publishes (Built pending db) a
      (Built pending db) := by
  rcases ha with rfl | rfl
  · exact building_triple nofun nofun (fun s hs => hs.guarded) fun s choice hs _ =>
      ⟨hs.guarded, hs.absent, hs.committed, hs.pending, hs.closed⟩
  · exact building_triple nofun nofun (fun s hs => hs.guarded) fun s choice hs _ =>
      ⟨hs.guarded, hs.absent, hs.committed, hs.pending, hs.closed⟩

theorem createTable_triple (pending : Bool) (db : Database ρ) (name : String) (info : TableInfo) :
    Script.Triple (perform noRows n) (Stopped noRows n) Publishes (Built pending db)
      (.createTable name info) (Built pending { db with tables := db.tables.set name info }) := by
  refine building_triple nofun nofun (fun s hs => hs.guarded) fun s choice hs hok => ?_
  obtain ⟨canonical, d⟩ := s
  obtain ⟨hguarded, habsent, hcommitted, hpending, hclosed⟩ := hs
  dsimp only at hcommitted hpending hclosed
  subst hcommitted
  unfold perform at hok ⊢
  dsimp only at hok ⊢
  split at hok
  · cases hok
  · rename_i hnew
    rw [if_neg hnew]
    exact ⟨hguarded, habsent, rfl, hpending, hclosed⟩

theorem createPrivateFile_safe {s : Site ρ} (hguarded : Guarded s) (habsent : s.1 = none) :
    Script.Safe (perform noRows n) (Stopped noRows n) Publishes
      (fun s => Guarded s ∧ s.1 = none ∧ s.2.committed = emptyDatabase noRows)
      createPrivateFile s := by
  have htouch : Script.Triple (perform noRows n) (Stopped noRows n) Publishes
      (fun s => Guarded s ∧ s.1 = none) .touch
      (fun s => Guarded s ∧ s.1 = none ∧ s.2.committed = emptyDatabase noRows) := by
    refine building_triple nofun nofun (fun s hs => hs.1) fun s choice hs hok => ?_
    unfold perform at hok ⊢
    dsimp only at hok ⊢
    split at hok
    · cases hok
    · rename_i hnew
      rw [if_neg hnew]
      exact ⟨hs.1, hs.2, rfl⟩
  exact (guarded_idle (fun s hs => hs.1) .ensureDirectory fun _ _ => rfl).safe
    (htouch.safe (guarded_idle (fun s hs => hs.1) .chmod fun _ _ => rfl).last) s
    ⟨hguarded, habsent⟩

/-- The database that the constructor builds. -/
def builtDatabase (noRows : ρ) : Database ρ := ⟨currentTables, currentVersions, noRows⟩

theorem construct_safe {s : Site ρ} (hguarded : Guarded s) (habsent : s.1 = none)
    (hcommitted : s.2.committed = emptyDatabase noRows) :
    Script.Safe (perform noRows n) (Stopped noRows n) Publishes (Made (builtDatabase noRows))
      construct s := by
  have hidle := @guarded_idle ρ noRows n
    (fun s => Guarded s ∧ s.1 = none ∧ s.2.committed = emptyDatabase noRows) fun s hs => hs.1
  have hconnect : Script.Triple (perform noRows n) (Stopped noRows n) Publishes
      (fun s => Guarded s ∧ s.1 = none ∧ s.2.committed = emptyDatabase noRows) .connect
      (Built false (emptyDatabase noRows)) :=
    building_triple nofun nofun (fun s hs => hs.1) fun s choice hs _ =>
      ⟨hs.1, hs.2.1, hs.2.2, rfl, rfl⟩
  have hpragma := @statement_triple ρ noRows n .pragma false (emptyDatabase noRows) (.inl rfl)
  have hreadVersion : ∀ db : Database ρ, Script.Triple (perform noRows n) (Stopped noRows n)
      Publishes (Built false db) .readVersion (Built false db) := fun db =>
    building_triple nofun nofun (fun s hs => hs.guarded) fun s choice hs _ => hs
  have hinsert : ∀ db : Database ρ, Script.Triple (perform noRows n) (Stopped noRows n) Publishes
      (Built false db) .insertVersions (Built true db) := fun db =>
    building_triple nofun nofun (fun s hs => hs.guarded) fun s choice hs _ =>
      ⟨hs.guarded, hs.absent, hs.committed, rfl, hs.closed⟩
  have hcommit : ∀ db : Database ρ, Script.Triple (perform noRows n) (Stopped noRows n) Publishes
      (Built true db) .commit
      (Built false { db with versions := db.versions ++ currentVersions }) := by
    intro db
    refine building_triple nofun nofun (fun s hs => hs.guarded) fun s choice hs _ => ?_
    refine ⟨hs.guarded, hs.absent, ?_, rfl, hs.closed⟩
    show (if s.2.pending = true then _ else _) = _
    rw [if_pos hs.pending, hs.committed]
  have hleave : Script.Triple (perform noRows n) (Stopped noRows n) Publishes
      (Built false (builtDatabase noRows)) .leaveConstructor (Made (builtDatabase noRows)) :=
    building_triple nofun nofun (fun s hs => hs.guarded) fun s choice hs _ =>
      ⟨hs.guarded, hs.absent, rfl, hs.committed, hs.closed⟩
  have hharden := @statement_triple ρ noRows n .hardenSidecars false (builtDatabase noRows)
    (.inr rfl)
  exact (hidle .ensureDirectory fun _ _ => rfl).safe ((hidle .requirePrivate fun _ _ => rfl).safe
    ((hidle .requirePrivate fun _ _ => rfl).safe ((hidle .chmod fun _ _ => rfl).safe
    (hconnect.safe (hpragma.safe (hpragma.safe (hpragma.safe
    ((createTable_triple false _ "_schema_version" versionTable).safe ((hreadVersion _).safe
    ((createTable_triple false _ "records" recordsTable).safe
    ((createTable_triple false _ "workspace_entries" workspaceTable).safe
    ((hinsert _).safe ((hcommit _).safe (hharden.safe hleave.last)))))))))))))) s
    ⟨hguarded, habsent, hcommitted⟩

theorem close_safe {db : Database ρ} {s : Site ρ} (hs : Made db s) :
    Script.Safe (perform noRows n) (Stopped noRows n) Publishes (Loaded db) close s := by
  have hcheckpoint : Script.Triple (perform noRows n) (Stopped noRows n) Publishes (Made db)
      .checkpoint (Checkpointed db) := by
    refine building_triple nofun nofun (fun s hs => hs.guarded) fun s choice hs _ => ?_
    have hclosed : ¬ s.2.closed = true := by simp [hs.closed]
    unfold perform
    dsimp only
    rw [if_neg hclosed]
    split
    · exact ⟨⟨hs.guarded, hs.absent, hs.connected, hs.committed, hs.closed⟩,
        fun _ => congrArg some hs.committed⟩
    · exact ⟨⟨hs.guarded, hs.absent, hs.connected, hs.committed, hs.closed⟩, nofun⟩
  have hclose : Script.Triple (perform noRows n) (Stopped noRows n) Publishes (Checkpointed db)
      .closeConnection (Closed db) := by
    refine building_triple nofun nofun (fun s hs => hs.guarded) fun s choice hs _ => ?_
    have hclosed : ¬ s.2.closed = true := by simp [hs.closed]
    unfold perform
    dsimp only
    rw [if_neg hclosed]
    refine ⟨hs.guarded, hs.absent, hs.connected, fun hfailed => ?_⟩
    show (if choice.flush = true then some s.2.committed else s.2.main) = some db
    split
    · exact congrArg some hs.committed
    · exact hs.main hfailed
  have hraise : Script.Triple (perform noRows n) (Stopped noRows n) Publishes (Closed db)
      .raiseCheckpoint (Loaded db) := by
    refine building_triple nofun nofun (fun s hs => hs.guarded) fun s choice hs hok => ?_
    refine ⟨hs.guarded, hs.absent, hs.connected, hs.main ?_⟩
    have hok' : (if s.2.checkpointFailed = true then some AuthorityError.checkpoint else none) =
        none := hok
    split at hok'
    · cases hok'
    · rename_i hfailed
      simpa using hfailed
  exact hcheckpoint.safe (hclose.safe hraise.last) s hs

theorem publish_safe {db : Database ρ} (hdb : Complete db) {s : Site ρ} (hs : Ready db s)
    (hsidecar : ∀ x, s.2.sidecar x = false) :
    Script.Safe (perform noRows n) (Stopped noRows n) Publishes CleanSite
      [.sync, .replace, .markPublished, .syncDirectory] s := by
  have hsync := @guarded_idle ρ noRows n
    (fun s => Ready db s ∧ ∀ x, s.2.sidecar x = false) (fun s hs => hs.1.guarded) .sync
    fun _ _ => rfl
  have hreplace : Script.Triple (perform noRows n) (Stopped noRows n) Publishes
      (fun s => Ready db s ∧ ∀ x, s.2.sidecar x = false) .replace Replaced := by
    refine ⟨fun s hs => hs.1.guarded.stopped, fun s choice hs => ?_⟩
    obtain ⟨⟨⟨hguarded, habsent, hconnected, hmain⟩, hbackend⟩, hsidecar⟩ := hs
    have hperform : perform noRows n .replace choice s =
        ((some ⟨some n, db⟩, { s.2 with main := none }), none) := by
      unfold perform
      dsimp only
      rw [hmain]
    rw [hperform]
    have hguarded' : Guarded (ρ := ρ) (some ⟨some n, db⟩, { s.2 with main := none }) := hguarded
    exact ⟨.inr ⟨habsent, _, rfl, hdb⟩, hguarded'.stopped,
      fun _ => ⟨hguarded', hconnected, hbackend, rfl, hsidecar⟩⟩
  have hmark : Script.Triple (perform noRows n) (Stopped noRows n) Publishes Replaced
      .markPublished Over := by
    refine ⟨fun s hs => hs.guarded.stopped, fun s choice hs => ?_⟩
    have hover : Over (perform noRows n .markPublished choice s).1 := by
      refine ⟨⟨hs.clean.main, hs.clean.sidecar⟩, ?_⟩
      show Desk.handlers { s.2 with published := true } = []
      rw [Desk.handlers]
      simp [hs.guarded.1, hs.connected, hs.backend]
    exact ⟨.inl rfl, hover.stopped, fun _ => hover⟩
  have hlast := @idle_triple ρ noRows n Over .syncDirectory (fun s hs => hs.stopped) fun _ _ => rfl
  have hsafe := hsync.safe (hreplace.safe (hmark.safe hlast.last)) s ⟨hs, hsidecar⟩
  exact hsafe.imp fun s hs => hs.clean

/-- **The building is safe**: wherever it is stopped its handlers clear the desk, and what it
    publishes is a complete database where there was none. -/
theorem program_safe (canonical : Option (File ρ)) :
    Script.Safe (perform noRows n) (Stopped noRows n) Publishes CleanSite program
      (canonical, .new noRows) := by
  have hnew : ∀ s : Site ρ, s.2 = .new noRows → Over s := by
    rintro ⟨canonical, d⟩ rfl
    exact ⟨⟨rfl, fun _ => rfl⟩, rfl⟩
  have hdirectory := @idle_triple ρ noRows n (fun s => s.2 = .new noRows) .ensureDirectory
    (fun s hs => (hnew s hs).stopped) fun _ _ => rfl
  have habsent : Script.Triple (perform noRows n) (Stopped noRows n) (Publishes (ρ := ρ))
      (fun s => s.2 = .new noRows) .requireAbsent (fun s => s.1 = none ∧ s.2 = .new noRows) := by
    refine ⟨fun s hs => (hnew s hs).stopped, fun s choice hs => ⟨.inl rfl, (hnew s hs).stopped,
      fun hok => ⟨?_, hs⟩⟩⟩
    have hok' : (if s.1.isSome = true then some AuthorityError.fileExists else none) = none := hok
    split at hok'
    · cases hok'
    · rename_i hnone
      show s.1 = none
      simpa using hnone
  have htry : Script.Triple (perform noRows n) (Stopped noRows n) (Publishes (ρ := ρ))
      (fun s => s.1 = none ∧ s.2 = .new noRows) .enterTry (fun s => Guarded s ∧ s.1 = none) := by
    refine ⟨fun s hs => (hnew s hs.2).stopped, fun s choice hs => ?_⟩
    have hguarded : Guarded (perform noRows n .enterTry choice s).1 := by
      refine ⟨rfl, ?_⟩
      show s.2.published = false
      rw [hs.2]
      rfl
    exact ⟨.inl rfl, hguarded.stopped, fun _ => ⟨hguarded, hs.1⟩⟩
  have hbackend : Script.Triple (perform noRows n) (Stopped noRows n) Publishes
      (Made (builtDatabase noRows)) .assignBackend (Made (builtDatabase noRows)) :=
    building_triple nofun nofun (fun s hs => hs.guarded) fun s choice hs _ =>
      ⟨hs.guarded, hs.absent, hs.connected, hs.committed, hs.closed⟩
  have hclear : Script.Triple (perform noRows n) (Stopped noRows n) Publishes
      (Loaded (builtDatabase noRows)) .clearBackend (Ready (builtDatabase noRows)) :=
    building_triple nofun nofun (fun s hs => hs.guarded) fun s choice hs _ =>
      ⟨⟨hs.guarded, hs.absent, hs.connected, hs.main⟩, rfl⟩
  have hcomplete : Complete (builtDatabase noRows) := ⟨rfl, rfl⟩
  refine (hdirectory.safe (habsent.safe htry.last) (canonical, .new noRows) rfl).append ?_
  rintro s ⟨hguarded, hnone⟩
  refine (createPrivateFile_safe hguarded hnone).append ?_
  rintro s ⟨hguarded, hnone, hcommitted⟩
  refine (construct_safe hguarded hnone hcommitted).append fun s hs => ?_
  refine (hbackend.last s hs).append fun s hs => ?_
  refine (close_safe hs).append fun s hs => ?_
  refine (hclear.last s hs).append fun s hs => ?_
  refine (removeSidecars_safe (P := Ready (builtDatabase noRows))
    (fun s hs => hs.guarded.stopped) ?_ s hs).append ?_
  · exact fun s sidecar hs => ⟨⟨hs.guarded, hs.absent, hs.connected, hs.main⟩, hs.backend⟩
  · exact fun s hs => publish_safe hcomplete hs.1 hs.2

end

/-! ## Calls -/

inductive Phase (ρ : Type) where
  | idle
  /-- `db_path.exists() or db_path.is_symlink()`. -/
  | looking
  | preparing
  /-- The file of the schema lease is opened. -/
  | openingLease
  /-- The flock is waited for. -/
  | locking
  /-- The second look, with the lease. -/
  | lookingAgain
  | initializing (rest : List Action)
  /-- The handlers of an exception; it is raised again behind them. -/
  | cleaning (rest : List Action) (errors : List AuthorityError)
  /-- The lease is about to be released, and the error raised again if there is one. -/
  | releasing (errors : List AuthorityError)
  | lookingLast
  | opening
  | returned (file : File ρ)
  /-- The exception that is raised, and those in whose handling it was. -/
  | raised (errors : List AuthorityError)
  | dead

/-- The lease is held. -/
def Phase.held {ρ : Type} : Phase ρ → List Unit
  | .lookingAgain | .initializing _ | .cleaning _ _ | .releasing _ => [()]
  | _ => []

structure System (ρ : Type) where
  canonical : Option (File ρ)
  /-- The holder of the schema lease. -/
  lease : Unit → Option Nat
  desk : Nat → Desk ρ
  phase : Nat → Phase ρ

namespace System

variable {ρ : Type} (upper : String → String) (noRows : ρ)

def start (canonical : Option (File ρ)) : System ρ :=
  ⟨canonical, fun _ => none, fun _ => .new noRows, fun _ => .idle⟩

def move (s : System ρ) (n : Nat) (p : Phase ρ) : System ρ :=
  { s with phase := Function.update s.phase n p }

def site (s : System ρ) (n : Nat) : Site ρ := (s.canonical, s.desk n)

/-- The site of a call as an action has left it. -/
def put (s : System ρ) (n : Nat) (site : Site ρ) : System ρ :=
  { s with canonical := site.1, desk := Function.update s.desk n site.2 }

/-- `open_sqlite_backend`: the schema is checked first. -/
def openPhase (s : System ρ) : Phase ρ :=
  match s.canonical with
  | none => .raised [.other]
  | some file =>
    match validateSchema upper file.database with
    | .error e => .raised [.identity e]
    | .ok version =>
      if version = schemaVersion then .returned file else .raised [.unsupportedVersion version]

/-- An exception in the building of the database: the handlers run. -/
def raises (s : System ρ) (n : Nat) (error : AuthorityError) : System ρ :=
  s.move n (.cleaning (s.desk n).handlers [error])

/-- An exception in a handler.  That of the constructor raises
    `SqliteStorageInitializationCleanupError`, which the handler outside takes up; in any other,
    `AtomicWriteCleanupError` is raised and nothing more is cleared. -/
def raisesAgain (s : System ρ) (n : Nat) (a : Action) (rest : List Action) (error : AuthorityError)
    (errors : List AuthorityError) : System ρ :=
  match a with
  | .abandonConnection => s.move n (.cleaning rest (.other :: error :: errors))
  | _ => s.move n (.releasing (.cleanup :: error :: errors))

/-- The next step of a call. -/
def advance (s : System ρ) (n : Nat) (choice : Choice) : System ρ :=
  match s.phase n with
  | .looking => s.move n (if s.canonical.isSome = true then .opening else .preparing)
  | .preparing => s.move n .openingLease
  | .openingLease => s.move n .locking
  | .locking =>
    if s.lease () = none then
      { s with lease := Function.update s.lease () (some n) }.move n .lookingAgain
    else s
  | .lookingAgain =>
    s.move n (if s.canonical.isSome = true then .releasing [] else .initializing program)
  | .initializing [] => s.move n (.releasing [])
  | .initializing (a :: rest) =>
    match perform noRows n a choice (s.site n) with
    | (site, none) => (s.put n site).move n (.initializing rest)
    | (site, some error) => (s.put n site).raises n error
  | .cleaning [] errors => s.move n (.releasing errors)
  | .cleaning (a :: rest) errors =>
    match perform noRows n a choice (s.site n) with
    | (site, none) => (s.put n site).move n (.cleaning rest errors)
    | (site, some error) => (s.put n site).raisesAgain n a rest error errors
  | .releasing errors =>
    { s with lease := Function.update s.lease () none }.move n
      (if errors = [] then .lookingLast else .raised errors)
  | .lookingLast =>
    s.move n (if s.canonical.isSome = true then .opening else .raised [.unpublished])
  | .opening => s.move n (s.openPhase upper)
  | .idle | .returned _ | .raised _ | .dead => s

/-- The current operation of a call raises; `late` if it has been carried out all the same. -/
def fail (s : System ρ) (n : Nat) (late : Bool) (choice : Choice) : System ρ :=
  match s.phase n with
  | .looking | .preparing | .openingLease | .locking | .lookingLast | .opening =>
    s.move n (.raised [.other])
  | .lookingAgain | .initializing [] => s.move n (.releasing [.other])
  | .initializing (a :: _) =>
    let s := if late = true then s.put n (perform noRows n a choice (s.site n)).1 else s
    s.raises n .other
  | .cleaning [] errors => s.move n (.releasing (.other :: errors))
  | .cleaning (a :: rest) errors =>
    let s := if late = true then s.put n (perform noRows n a choice (s.site n)).1 else s
    s.raisesAgain n a rest .other errors
  | .releasing errors =>
    { s with lease := Function.update s.lease () none }.move n (.raised (.other :: errors))
  | .idle | .returned _ | .raised _ | .dead => s

/-- A call dies, and its lease is free. -/
def crash (s : System ρ) (n : Nat) : System ρ :=
  { s with lease := fun u => if s.lease u = some n then none else s.lease u }.move n .dead

end System

inductive Input where
  /-- `auto_backend` is called. -/
  | start (n : Nat)
  | advance (n : Nat) (choice : Choice)
  | fail (n : Nat) (late : Bool) (choice : Choice)
  | crash (n : Nat)

/-- One step of the system. -/
def step {ρ : Type} (upper : String → String) (noRows : ρ) (s : System ρ) :
    Input → System ρ × Unit
  | .start n =>
    match s.phase n with
    | .idle => (s.move n .looking, ())
    | _ => (s, ())
  | .advance n choice => (s.advance upper noRows n choice, ())
  | .fail n late choice => (s.fail noRows n late choice, ())
  | .crash n => (s.crash n, ())

end NuSelf.Storage.Authority
