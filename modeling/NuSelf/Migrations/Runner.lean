/-
  The migration runner: planning, the transaction, and the backup beside it.

  `plan` is the path through the registry, `applySteps` the operations and version rows of the
  path, `transaction` those with the final validation, and `migrate` one call: it reads the
  version, plans, writes the backup file, and runs the transaction on a working copy that a
  failure throws away.  The operations are those of the registry, whatever they do to the
  database; any point of a call may also raise by itself (`Point`).

  The transaction makes a call all-or-nothing.  The backup file is written before it and stays when
  it rolls back, and its name depends on the two versions only; so:

  1. `migrate_cases` — the inversion of one call;
  2. `faithful_iff` — a call is as the runner promises exactly when it does not need a backup
     file that is there already;
  3. `all_or_nothing_iff` — so is every run of calls.
-/
import NuSelf.Lib.Run
import NuSelf.Lib.Sequence
import NuSelf.Migrations.Schema

namespace NuSelf.Migrations.Runner

open NuSelf.Lib

variable {ρ : Type}

/-! ## The registry -/

inductive Direction where
  | upgrade | downgrade
  deriving DecidableEq

def Direction.text : Direction → String
  | .upgrade => "upgrade"
  | .downgrade => "downgrade"

/-- `MigrationOperation`: what it leaves of the database, and the error it raises. -/
abbrev Operation (ρ : Type) := Database ρ → Database ρ × Option String

structure Migration (ρ : Type) where
  migration_id : String
  from_version : Int
  to_version : Int
  upgrade : Operation ρ
  downgrade : Option (Operation ρ)

/-- `Step`; the library's step is one of a run. -/
structure PlanStep (ρ : Type) where
  migration : Migration ρ
  direction : Direction

def PlanStep.destination_version (step : PlanStep ρ) : Int :=
  match step.direction with
  | .upgrade => step.migration.to_version
  | .downgrade => step.migration.from_version

def PlanStep.operation (step : PlanStep ρ) : Option (Operation ρ) :=
  match step.direction with
  | .upgrade => some step.migration.upgrade
  | .downgrade => step.migration.downgrade

/-- `f"{step.direction.value} {step.migration.migration_id}"`. -/
def PlanStep.description (step : PlanStep ρ) : String :=
  step.direction.text ++ " " ++ step.migration.migration_id

inductive PlanError where
  | blankId
  | duplicateId
  | duplicateEdge
  | irreversible (migration_ids : List String)
  | notContiguous
  | unsupportedCurrent (version : Int)
  | unsupportedTarget (version : Int)
  | forwardOnly (migration_id : String)
  /-- No migration starts at the version. -/
  | missingEdge (version : Int)
  deriving DecidableEq

def validateRegistry (migrations : List (Migration ρ)) (current_version : Int) :
    Except PlanError Unit :=
  let identifiers := migrations.map Migration.migration_id
  let edges := migrations.map fun m => (m.from_version, m.to_version)
  let expected := (intRange 1 current_version).map fun version => (version, version + 1)
  let irreversible := (migrations.filter fun m => 3 ≤ m.from_version && m.downgrade.isNone).map
    Migration.migration_id
  if identifiers.any blank = true then .error .blankId
  else if ¬ identifiers.Nodup then .error .duplicateId
  else if ¬ edges.Nodup then .error .duplicateEdge
  else if irreversible ≠ [] then .error (.irreversible irreversible)
  else if edges.insertionSort (fun a b => a.1 < b.1 ∨ (a.1 = b.1 ∧ a.2 ≤ b.2)) ≠ expected then
    .error .notContiguous
  else .ok ()

/-- `by_source[version]`; the last migration of a version wins. -/
def bySource (migrations : List (Migration ρ)) (version : Int) :
    Except PlanError (Migration ρ) :=
  match migrations.reverse.find? fun m => decide (m.from_version = version) with
  | none => .error (.missingEdge version)
  | some m => .ok m

/-- `plan`: the steps from one version to another. -/
def plan (migrations : List (Migration ρ)) (current_version target_version supported_version : Int) :
    Except PlanError (List (PlanStep ρ)) := do
  validateRegistry migrations supported_version
  if current_version ∉ intRange 1 (supported_version + 1) then
    .error (.unsupportedCurrent current_version)
  else if target_version ∉ intRange 1 (supported_version + 1) then
    .error (.unsupportedTarget target_version)
  else if current_version ≤ target_version then
    tryAll (fun version => do
      let migration ← bySource migrations version
      return ⟨migration, .upgrade⟩) (intRange current_version target_version)
  else
    tryAll (fun version => do
      let migration ← bySource migrations version
      if migration.downgrade.isNone = true then .error (.forwardOnly migration.migration_id)
      else return ⟨migration, .downgrade⟩) (intRange target_version current_version).reverse

/-- The ten operations of the migration scripts. -/
structure Operations (ρ : Type) where
  v001_to_v002_upgrade : Operation ρ
  v002_to_v003_upgrade : Operation ρ
  v003_to_v004_upgrade : Operation ρ
  v003_to_v004_downgrade : Operation ρ
  v004_to_v005_upgrade : Operation ρ
  v004_to_v005_downgrade : Operation ρ
  v005_to_v006_upgrade : Operation ρ
  v005_to_v006_downgrade : Operation ρ
  v006_to_v007_upgrade : Operation ρ
  v006_to_v007_downgrade : Operation ρ

def currentVersion : Int := 7

/-- `MIGRATIONS`. -/
def registry (ops : Operations ρ) : List (Migration ρ) :=
  [⟨"v001_to_v002", 1, 2, ops.v001_to_v002_upgrade, none⟩,
    ⟨"v002_to_v003", 2, 3, ops.v002_to_v003_upgrade, none⟩,
    ⟨"v003_to_v004", 3, 4, ops.v003_to_v004_upgrade, some ops.v003_to_v004_downgrade⟩,
    ⟨"v004_to_v005", 4, 5, ops.v004_to_v005_upgrade, some ops.v004_to_v005_downgrade⟩,
    ⟨"v005_to_v006", 5, 6, ops.v005_to_v006_upgrade, some ops.v005_to_v006_downgrade⟩,
    ⟨"v006_to_v007", 6, 7, ops.v006_to_v007_upgrade, some ops.v006_to_v007_downgrade⟩]

def migrationPlan (ops : Operations ρ) (current_version target_version : Int) :
    Except PlanError (List (PlanStep ρ)) :=
  plan (registry ops) current_version target_version currentVersion

/-- The registry passes its own check, which the module makes when it is loaded. -/
theorem validateRegistry_registry (ops : Operations ρ) :
    validateRegistry (registry ops) currentVersion = .ok () := by
  have hids : ¬ ((registry ops).map Migration.migration_id).any blank = true := by
    show ¬ ["v001_to_v002", "v002_to_v003", "v003_to_v004", "v004_to_v005", "v005_to_v006",
      "v006_to_v007"].any blank = true
    decide
  have hnodup : ((registry ops).map Migration.migration_id).Nodup := by
    show ["v001_to_v002", "v002_to_v003", "v003_to_v004", "v004_to_v005", "v005_to_v006",
      "v006_to_v007"].Nodup
    decide
  have hedges : (registry ops).map (fun m => (m.from_version, m.to_version)) =
      [((1 : Int), (2 : Int)), (2, 3), (3, 4), (4, 5), (5, 6), (6, 7)] := rfl
  have hreverse : ((registry ops).filter fun m => 3 ≤ m.from_version && m.downgrade.isNone) = [] :=
    rfl
  unfold validateRegistry
  rw [if_neg hids, if_neg (not_not.mpr hnodup), hedges, hreverse, if_neg (by decide),
    if_neg (by simp), if_neg (by decide)]

/-! ## One call -/

/-- Where a call may raise by itself: before it reads the version, when it sets the mode of the
    backup file, in the backup, at `BEGIN IMMEDIATE`, in an operation, at a version row, in the
    validation, at the commit. -/
inductive Point where
  | prepare
  | mode
  | backup
  | begin
  | operation (index : Nat)
  | record (index : Nat)
  | validation
  | commit
  deriving DecidableEq

inductive MigrateError where
  | schema (error : SchemaError)
  | plan (error : PlanError)
  /-- `FileExistsError`: the backup file is there already. -/
  | backupExists (name : String)
  | operation (error : String)
  | missingOperation
  /-- There is no table to record the version in. -/
  | noVersionTable
  | wrongVersion
  | interrupted (point : Point)
  deriving DecidableEq

structure MigrateCall where
  target_version : Int
  dry_run : Bool := false
  /-- The first point that raises by itself. -/
  interrupted : Option Point := none
  deriving DecidableEq

/-- The version row of a step: appended by an upgrade, removed by a downgrade. -/
def recordVersion (step : PlanStep ρ) (db : Database ρ) : Except MigrateError (Database ρ) :=
  if db.tables.contains "_schema_version" = false then .error .noVersionTable
  else
    match step.direction with
    | .upgrade => .ok { db with versions := db.versions ++ [.int step.destination_version] }
    | .downgrade =>
      .ok { db with
        versions := db.versions.filter fun c => decide (c ≠ .int step.migration.to_version) }

/-- The loop over the steps, from the step `index` on: the working copy, and the error. -/
def applySteps (interrupted : Option Point) : Nat → List (PlanStep ρ) → Database ρ →
    Database ρ × Option MigrateError
  | _, [], db => (db, none)
  | index, step :: rest, db =>
    match step.operation with
    | none => (db, some .missingOperation)
    | some operation =>
      match operation db with
      | (db, some error) => (db, some (.operation error))
      | (db, none) =>
        if interrupted = some (.operation index) then
          (db, some (.interrupted (.operation index)))
        else if interrupted = some (.record index) then (db, some (.interrupted (.record index)))
        else
          match recordVersion step db with
          | .error e => (db, some e)
          | .ok db => applySteps interrupted (index + 1) rest db

section

variable (upper : String → String)

/-- The steps, the final validation and the commit. -/
def transaction (interrupted : Option Point) (target_version : Int) (steps : List (PlanStep ρ))
    (db : Database ρ) : Database ρ × Option MigrateError :=
  match applySteps interrupted 0 steps db with
  | (db, some e) => (db, some e)
  | (db, none) =>
    if interrupted = some .validation then (db, some (.interrupted .validation))
    else
      match validateSchema upper db with
      | .error e => (db, some (.schema e))
      | .ok version =>
        if version ≠ target_version then (db, some .wrongVersion)
        else if interrupted = some .commit then (db, some (.interrupted .commit))
        else (db, none)

/-- A database file, and the files beside it: empty ones and copies of a database. -/
structure DatabaseFile (ρ : Type) where
  database : Database ρ
  files : Table String (Option (Database ρ))

/-- `f"{database.name}.pre-v{current_version}-to-v{target_version}.bak"`. -/
def backupName (name : String) (current_version target_version : Int) : String :=
  name ++ ".pre-v" ++ toString current_version ++ "-to-v" ++ toString target_version ++ ".bak"

variable (ops : Operations ρ) (name : String)

/-- `migrate(database, target_version, dry_run=...)`. -/
def migrate (s : DatabaseFile ρ) (call : MigrateCall) :
    DatabaseFile ρ × Except MigrateError (List String) :=
  if call.interrupted = some .prepare then (s, .error (.interrupted .prepare))
  else
    match validateSchema upper s.database with
    | .error e => (s, .error (.schema e))
    | .ok current_version =>
      match migrationPlan ops current_version call.target_version with
      | .error e => (s, .error (.plan e))
      | .ok steps =>
        let descriptions := steps.map PlanStep.description
        if call.dry_run = true ∨ steps.isEmpty = true then (s, .ok descriptions)
        else
          let backup := backupName name current_version call.target_version
          if s.files.contains backup = true then (s, .error (.backupExists backup))
          -- the new file is not unlinked when its mode cannot be set, but when the copy fails
          else if call.interrupted = some .mode then
            ({ s with files := s.files.set backup none }, .error (.interrupted .mode))
          else if call.interrupted = some .backup then (s, .error (.interrupted .backup))
          else
            let s := { s with files := s.files.set backup (some s.database) }
            if call.interrupted = some .begin then (s, .error (.interrupted .begin))
            else
              match transaction upper call.interrupted call.target_version steps s.database with
              -- the rollback drops the working copy
              | (_, some e) => (s, .error e)
              | (database, none) => ({ s with database := database }, .ok descriptions)

/-- A call as a step of a run. -/
def migrateStep (s : DatabaseFile ρ) (call : MigrateCall) :
    DatabaseFile ρ × Except MigrateError (List String) :=
  migrate upper ops name s call

/-! ## What a call promises -/

/-- The migration functions of the path succeed on the content: the steps go through and the
    database they leave is a valid one of the target version. -/
def Succeeds (db : Database ρ) (target_version : Int) : Prop :=
  ∃ current_version steps, validateSchema upper db = .ok current_version ∧
    migrationPlan ops current_version target_version = .ok steps ∧
    (steps.isEmpty = false → (transaction upper none target_version steps db).2 = none)

/-- All or nothing, and repeatable: a call that returns leaves the history of its target (a dry
    run leaves everything), a call that raises leaves the database, and a call with nothing in its
    way returns. -/
structure Faithful (e : Step (DatabaseFile ρ) MigrateCall (Except MigrateError (List String))) :
    Prop where
  returns : ∀ descriptions, e.output = .ok descriptions →
    if e.input.dry_run = true then e.after.database = e.before.database
    else History e.after.database.versions e.input.target_version
  raises : ∀ error, e.output = .error error → e.after.database = e.before.database
  repeatable : e.input.interrupted = none →
    Succeeds upper ops e.before.database e.input.target_version → ∃ descriptions,
      e.output = .ok descriptions

/-- The condition on a call: if it needs a backup and would succeed, the file of its two versions
    is not there yet. -/
def BackupFree (s : DatabaseFile ρ) (call : MigrateCall) : Prop :=
  call.dry_run = false → call.interrupted = none → Succeeds upper ops s.database call.target_version →
    ∀ current_version, validateSchema upper s.database = .ok current_version →
      current_version ≠ call.target_version →
        s.files.contains (backupName name current_version call.target_version) = false

end

/-! ## What one call does -/

theorem mem_intRange {start stop i : Int} : i ∈ intRange start stop ↔ start ≤ i ∧ i < stop := by
  simp only [intRange, List.mem_map, List.mem_range]
  constructor
  · rintro ⟨n, hn, rfl⟩
    omega
  · rintro ⟨hstart, hstop⟩
    exact ⟨(i - start).toNat, by omega, by omega⟩

theorem intRange_eq_nil {start stop : Int} : intRange start stop = [] ↔ stop ≤ start := by
  rw [List.eq_nil_iff_forall_not_mem]
  constructor
  · intro h
    have hnot := h start
    rw [mem_intRange] at hnot
    omega
  · intro h i hi
    have hmem := mem_intRange.mp hi
    omega

theorem plan_isEmpty {migrations : List (Migration ρ)} {current target supported : Int}
    {steps : List (PlanStep ρ)} (h : plan migrations current target supported = .ok steps) :
    steps.isEmpty = true ↔ current = target := by
  obtain ⟨-, -, h⟩ := bind_ok h
  split at h
  · cases h
  · split at h
    · cases h
    · have hlength : steps.isEmpty = true ↔ steps.length = 0 := by
        rw [List.isEmpty_iff, List.length_eq_zero_iff]
      split at h
      · rename_i hle
        have hrange : (intRange current target).length = 0 ↔ target ≤ current := by
          rw [List.length_eq_zero_iff, intRange_eq_nil]
        rw [hlength, tryAll_length h, hrange]
        omega
      · rename_i hlt
        have hrange : (intRange target current).reverse.length = 0 ↔ current ≤ target := by
          rw [List.length_reverse, List.length_eq_zero_iff, intRange_eq_nil]
        rw [hlength, tryAll_length h, hrange]
        omega

variable {upper : String → String} {ops : Operations ρ} {name : String}

/-- A transaction that commits leaves a valid database of the target version. -/
theorem transaction_valid {interrupted : Option Point} {target : Int} {steps : List (PlanStep ρ)}
    {db db' : Database ρ} (h : transaction upper interrupted target steps db = (db', none)) :
    validateSchema upper db' = .ok target := by
  unfold transaction at h
  split at h
  · cases h
  · split at h
    · cases h
    · split at h
      · cases h
      · rename_i version hversion
        split at h
        · cases h
        · rename_i htarget
          split at h
          · cases h
          · cases h
            rw [hversion, not_not.mp htarget]

/-- The five things a call can do. -/
inductive Migrated (upper : String → String) (ops : Operations ρ) (name : String)
    (s : DatabaseFile ρ) (call : MigrateCall) :
    DatabaseFile ρ → Except MigrateError (List String) → Prop where
  /-- It raises before its backup is there. -/
  | refused {error : MigrateError}
      (hfails : call.interrupted ≠ none ∨ ¬ Succeeds upper ops s.database call.target_version) :
      Migrated upper ops name s call s (.error error)
  /-- It has nothing to do. -/
  | idle {current : Int} {steps : List (PlanStep ρ)} {descriptions : List String}
      (hschema : validateSchema upper s.database = .ok current)
      (hplan : migrationPlan ops current call.target_version = .ok steps)
      (hidle : call.dry_run = true ∨ steps.isEmpty = true) :
      Migrated upper ops name s call s (.ok descriptions)
  /-- The name of its backup is taken. -/
  | blocked {current : Int} {steps : List (PlanStep ρ)} {error : MigrateError}
      (hschema : validateSchema upper s.database = .ok current)
      (hplan : migrationPlan ops current call.target_version = .ok steps)
      (hdry : call.dry_run = false) (hsteps : steps.isEmpty = false)
      (htaken : s.files.contains (backupName name current call.target_version) = true) :
      Migrated upper ops name s call s (.error error)
  /-- It raises after that; the transaction rolls back and the file stays. -/
  | rolledBack {current : Int} {steps : List (PlanStep ρ)} {error : MigrateError}
      {content : Option (Database ρ)}
      (hschema : validateSchema upper s.database = .ok current)
      (hplan : migrationPlan ops current call.target_version = .ok steps)
      (hfree : s.files.contains (backupName name current call.target_version) = false)
      (hfails : call.interrupted ≠ none ∨ ¬ Succeeds upper ops s.database call.target_version) :
      Migrated upper ops name s call
        { s with files := s.files.set (backupName name current call.target_version) content }
        (.error error)
  /-- It commits. -/
  | committed {current : Int} {steps : List (PlanStep ρ)} {database : Database ρ}
      {descriptions : List String}
      (hschema : validateSchema upper s.database = .ok current)
      (hplan : migrationPlan ops current call.target_version = .ok steps)
      (hdry : call.dry_run = false)
      (hfree : s.files.contains (backupName name current call.target_version) = false)
      (hvalid : validateSchema upper database = .ok call.target_version) :
      Migrated upper ops name s call
        { database := database,
          files := s.files.set (backupName name current call.target_version) (some s.database) }
        (.ok descriptions)

/-- **Inversion of `migrate`.** -/
theorem migrate_cases (upper : String → String) (ops : Operations ρ) (name : String)
    (s : DatabaseFile ρ) (call : MigrateCall) :
    Migrated upper ops name s call (migrate upper ops name s call).1
      (migrate upper ops name s call).2 := by
  unfold migrate
  split
  · rename_i hpoint
    exact .refused (Or.inl (by rw [hpoint]; simp))
  cases hschema : validateSchema upper s.database with
  | error e =>
    refine .refused (Or.inr ?_)
    rintro ⟨current, steps, hv, -⟩
    rw [hschema] at hv
    cases hv
  | ok current =>
    dsimp only
    cases hplan : migrationPlan ops current call.target_version with
    | error e =>
      refine .refused (Or.inr ?_)
      rintro ⟨current', steps, hv, hp, -⟩
      rw [hschema] at hv
      cases hv
      rw [hplan] at hp
      cases hp
    | ok steps =>
      dsimp only
      split
      · rename_i hidle
        exact .idle hschema hplan hidle
      rename_i hwork
      have hdry : call.dry_run = false := by simpa using fun h => hwork (Or.inl h)
      have hsteps : steps.isEmpty = false := by simpa using fun h => hwork (Or.inr h)
      split
      · rename_i htaken
        exact .blocked hschema hplan hdry hsteps htaken
      rename_i hfree
      have hfree := eq_false_of_ne_true hfree
      split
      · rename_i hpoint
        exact .rolledBack hschema hplan hfree (Or.inl (by rw [hpoint]; simp))
      split
      · rename_i hpoint
        exact .refused (Or.inl (by rw [hpoint]; simp))
      split
      · rename_i hpoint
        exact .rolledBack hschema hplan hfree (Or.inl (by rw [hpoint]; simp))
      cases htransaction : transaction upper call.interrupted call.target_version steps
          s.database with
      | mk database outcome =>
        cases outcome with
        | none => exact .committed hschema hplan hdry hfree (transaction_valid htransaction)
        | some e =>
          refine .rolledBack hschema hplan hfree ?_
          by_cases hpoint : call.interrupted = none
          · -- nothing else raised, so the steps or the validation did
            refine Or.inr ?_
            rintro ⟨current', steps', hv, hp, hnone⟩
            rw [hschema] at hv
            cases hv
            rw [hplan] at hp
            cases hp
            have hok := hnone hsteps
            rw [← hpoint, htransaction] at hok
            cases hok
          · exact Or.inl hpoint

/-! ## All or nothing, and repeatable -/

/-- **A call is faithful exactly when it does not need a backup file that is there.** -/
theorem faithful_iff (e : Step (DatabaseFile ρ) MigrateCall (Except MigrateError (List String)))
    (he : e.Of (migrateStep upper ops name)) :
    Faithful upper ops e ↔ BackupFree upper ops name e.before e.input := by
  obtain ⟨s, call, output, s'⟩ := e
  have hcases := migrate_cases upper ops name s call
  have hstep : migrate upper ops name s call = (s', output) := he
  rw [hstep] at hcases
  -- a call that fails by itself owes nothing
  have fails : ∀ {files : Table String (Option (Database ρ))} {error : MigrateError},
      (call.interrupted ≠ none ∨ ¬ Succeeds upper ops s.database call.target_version) →
      (Faithful upper ops ⟨s, call, .error error, { s with files := files }⟩ ↔
        BackupFree upper ops name s call) := by
    intro files error hfails
    constructor
    · intro _ _ hpoint hsucceeds
      rcases hfails with hne | hnot
      · exact absurd hpoint hne
      · exact absurd hsucceeds hnot
    · intro _
      refine ⟨fun _ h => (nomatch h), fun _ _ => rfl, fun hpoint hsucceeds => ?_⟩
      rcases hfails with hne | hnot
      · exact absurd hpoint hne
      · exact absurd hsucceeds hnot
  show Faithful upper ops ⟨s, call, output, s'⟩ ↔ BackupFree upper ops name s call
  cases hcases with
  | refused hfails => exact fails hfails
  | @idle current steps descriptions hschema hplan hidle =>
    constructor
    · intro _ hdry _ _ current' hschema' hne
      rw [hschema] at hschema'
      cases hschema'
      rcases hidle with hdry' | hempty
      · rw [hdry] at hdry'
        cases hdry'
      · exact absurd ((plan_isEmpty hplan).mp hempty) hne
    · intro _
      refine ⟨fun _ _ => ?_, fun _ h => (nomatch h), fun _ _ => ⟨_, rfl⟩⟩
      split
      · rfl
      · rename_i hdry
        have hempty := hidle.resolve_left hdry
        rw [← (plan_isEmpty hplan).mp hempty]
        exact validateSchema_history hschema
  | @blocked current steps error hschema hplan hdry hsteps htaken =>
    constructor
    · rintro ⟨-, -, hrepeatable⟩ _ hpoint hsucceeds
      obtain ⟨descriptions, hok⟩ := hrepeatable hpoint hsucceeds
      cases hok
    · intro hfree
      refine ⟨fun _ h => (nomatch h), fun _ _ => rfl, fun hpoint hsucceeds => ?_⟩
      have hne : current ≠ call.target_version := by
        intro heq
        rw [(plan_isEmpty hplan).mpr heq] at hsteps
        cases hsteps
      have hnot := hfree hdry hpoint hsucceeds current hschema hne
      rw [htaken] at hnot
      cases hnot
  | rolledBack hschema hplan hfree hfails => exact fails hfails
  | @committed current steps database descriptions hschema hplan hdry hfree hvalid =>
    constructor
    · intro _ _ _ _ current' hschema' _
      rw [hschema] at hschema'
      cases hschema'
      exact hfree
    · intro _
      refine ⟨fun _ _ => ?_, fun _ h => (nomatch h), fun _ _ => ⟨_, rfl⟩⟩
      rw [if_neg (by simp [hdry])]
      exact validateSchema_history hvalid

/-- **Every run of calls is all-or-nothing and repeatable exactly when no call needs a backup file
    that is there already.** -/
theorem all_or_nothing_iff (upper : String → String) (ops : Operations ρ) (name : String)
    (s : DatabaseFile ρ) (calls : List MigrateCall) :
    (∀ e ∈ run (migrateStep upper ops name) s calls, Faithful upper ops e) ↔
      ∀ e ∈ run (migrateStep upper ops name) s calls,
        BackupFree upper ops name e.before e.input :=
  @run_forall_iff _ _ _ _ (fun _ => True) _ _ (fun _ _ _ _ => trivial)
    (fun e he _ => faithful_iff e he) s calls trivial

/-! ## A second attempt -/

/-- `v002_to_v003.upgrade`: the tables of v3 that are missing are created, without rows. -/
def createCollections : List String → Operation ρ
  | [], db => (db, none)
  | collection :: rest, db =>
    if db.tables.contains ("col_" ++ collection) = true then createCollections rest db
    else
      createCollections rest { db with
        tables := db.tables.set ("col_" ++ collection)
          { columns := [⟨"id", "TEXT", 0, 1⟩]
            sql := some ("CREATE TABLE \"col_" ++ collection ++ "\" (id TEXT PRIMARY KEY)") } }

/-- The operations of a database whose tables are empty; only the second is reached below. -/
def emptyOperations : Operations Unit :=
  let unreached : Operation Unit := fun db => (db, some "RuntimeError")
  { v001_to_v002_upgrade := unreached
    v002_to_v003_upgrade := createCollections ((schemaCollections 3).getD [])
    v003_to_v004_upgrade := unreached
    v003_to_v004_downgrade := unreached
    v004_to_v005_upgrade := unreached
    v004_to_v005_downgrade := unreached
    v005_to_v006_upgrade := unreached
    v005_to_v006_downgrade := unreached
    v006_to_v007_upgrade := unreached
    v006_to_v007_downgrade := unreached }

/-- A database of schema v2 with empty tables, and nothing beside it. -/
def emptyV2 : DatabaseFile Unit where
  database :=
    { tables := ((createCollections firstCollections
          { tables := Table.empty.set "_schema_version"
              { columns := [⟨"version", "INTEGER", 1, 0⟩]
                sql := some "CREATE TABLE _schema_version (version INTEGER NOT NULL)" }
            versions := [], rows := () } : Database Unit × Option String).1).tables
      versions := [.int 1, .int 2]
      rows := () }
  files := Table.empty

/-- The first attempt finds the database locked by another process. -/
def secondAttempt : List MigrateCall :=
  [{ target_version := 3, interrupted := some .begin }, { target_version := 3 }]

theorem migrationPlan_two_three (ops : Operations ρ) : migrationPlan ops 2 3 =
    .ok [⟨⟨"v002_to_v003", 2, 3, ops.v002_to_v003_upgrade, none⟩, .upgrade⟩] := by
  unfold migrationPlan plan
  rw [validateRegistry_registry]
  rfl

theorem second_attempt_fails :
    ¬ ∀ (s : DatabaseFile Unit) (calls : List MigrateCall),
      (∃ version, validateSchema String.toUpper s.database = .ok version) →
      ∀ e ∈ run (migrateStep String.toUpper emptyOperations "nuself.sqlite") s calls,
        Faithful String.toUpper emptyOperations e := by
  intro h
  have hvalid : validateSchema String.toUpper emptyV2.database = .ok 2 := by decide +kernel
  have hrun := h emptyV2 secondAttempt ⟨2, hvalid⟩
  obtain ⟨s₁, hs₁⟩ : ∃ s₁, s₁ = (migrateStep String.toUpper emptyOperations "nuself.sqlite"
      emptyV2 ⟨3, false, some .begin⟩).1 := ⟨_, rfl⟩
  -- the second call finds the content of the first one, and its file
  have hback : s₁.database = emptyV2.database := by rw [hs₁]; decide +kernel
  have htaken : s₁.files.contains "nuself.sqlite.pre-v2-to-v3.bak" = true := by
    rw [hs₁]; decide +kernel
  have hsucceeds : Succeeds String.toUpper emptyOperations s₁.database 3 := by
    rw [hback]
    exact ⟨2, _, hvalid, migrationPlan_two_three _, fun _ => by decide +kernel⟩
  obtain ⟨e, hmem, hbefore, hinput⟩ : ∃ e ∈ run (migrateStep String.toUpper emptyOperations
      "nuself.sqlite") emptyV2 secondAttempt, e.before = s₁ ∧ e.input = ⟨3, false, none⟩ :=
    ⟨_, List.mem_cons_of_mem _ List.mem_cons_self, hs₁.symm, rfl⟩
  have hfree := (faithful_iff e (run_of _ _ _ e hmem)).mp (hrun e hmem)
  rw [hbefore, hinput] at hfree
  have hnot := hfree rfl rfl hsucceeds 2 (by rw [hback]; exact hvalid) (by decide)
  have hname : backupName "nuself.sqlite" 2 3 = "nuself.sqlite.pre-v2-to-v3.bak" := by
    decide +kernel
  rw [hname, htaken] at hnot
  cases hnot

end NuSelf.Migrations.Runner
