/-
  Planning an export: from the arguments of `plan_job` to a job directory and a wake-up.

  The arguments select steps of a thread; the job id is a digest of the selection and of a nonce
  that is drawn for every call; the directory of that id is cleared, and the planned manifest and
  its progress summary are written into it.  The digest is a parameter: `hashlib.sha256` over the
  sorted JSON text of the payload, sixteen digits of it.

  1. `planManifest_ok` — the manifest of a call is the planned one of its selection.
  2. `planJob_returned_iff` — when a call returns, and what it leaves: a cleared directory with the
     new manifest and its progress, and one more wake-up.
-/
import NuSelf.Lib.Json
import NuSelf.Reason.Output

namespace NuSelf.Reason

open NuSelf.Lib

/-! ## The arguments -/

/-- The arguments of `plan_job`. -/
structure PlanArguments where
  thread_id : String
  mode : String := "narrative"
  output_format : String := "markdown"
  start_index : Int := 0
  end_index : Option Int := none
  segment_size : Int := 5
  deriving DecidableEq

/-- What the reason store answers: a thread by id or visible index, and the steps of a thread, of
    which no two have one id (the id is their key). -/
structure ReasonRecords where
  show_thread : String → Except ReasonOutputError ReasoningThread
  list_steps : String → List ReasoningStep
  distinct : ∀ thread_id, ((list_steps thread_id).map fun s => s.id).Nodup

def validateChoice {α : Type} (choices : List (String × α)) (label value : String) :
    Except ReasonOutputError α :=
  match choices.lookup (strip value) with
  | some choice => .ok choice
  | none => .error (.value ("invalid " ++ label ++ ": " ++ value))

def reasonOutputModes : List (String × ReasonOutputMode) :=
  [("outline", .outline), ("narrative", .narrative), ("report", .report), ("summary", .summary)]

def reasonOutputFormats : List (String × ReasonOutputFormat) := [("markdown", .markdown)]

/-- `_validate_non_negative_int`. -/
def validateNonNegative (value : Int) (label : String) : Except ReasonOutputError Nat :=
  if value < 0 then .error (.value (label ++ " must be a non-negative integer")) else .ok value.toNat

/-- `_validate_positive_int`. -/
def validatePositive (value : Int) (label : String) : Except ReasonOutputError Nat :=
  if value < 1 then .error (.value (label ++ " must be a positive integer")) else .ok value.toNat

/-- `_select_steps`; `steps[start : end + 1]` is a window. -/
def selectSteps (steps : List ReasoningStep) (start_index : Int) (end_index : Option Int) :
    Except ReasonOutputError (List ReasoningStep) := do
  let start ← validateNonNegative start_index "start_index"
  match end_index with
  | none => return steps.drop start
  | some e => do
    let last ← validateNonNegative e "end_index"
    if last < start then
      throw (.value "end_index must be greater than or equal to start_index")
    else return window steps start (last + 1 - start)

def validateSegment (value label : String) : Except ReasonOutputError Unit :=
  if value = "" ∨ '/' ∈ value.toList ∨ value = "." ∨ value = ".." then
    .error (.value ("invalid " ++ label ++ ": " ++ value))
  else .ok ()

/-! ## The plan -/

/-- What the arguments of a call come to. -/
structure PlanSelection where
  thread : ReasoningThread
  selected : List ReasoningStep
  mode : ReasonOutputMode
  output_format : ReasonOutputFormat
  start_index : Nat
  end_index : Option Nat
  segment_size : Nat

/-- The first half of `plan_job`: the selected steps and the checked settings. -/
def planSelection (records : ReasonRecords) (args : PlanArguments) :
    Except ReasonOutputError PlanSelection := do
  let thread ← records.show_thread args.thread_id
  let selected ← selectSteps (records.list_steps thread.id) args.start_index args.end_index
  if selected.isEmpty = true then
    throw (.runtime "Cannot plan export job: selected reason range is empty")
  else
    let mode ← validateChoice reasonOutputModes "mode" args.mode
    let output_format ← validateChoice reasonOutputFormats "output format" args.output_format
    let segment_size ← validatePositive args.segment_size "segment_size"
    -- the indexes have passed their checks, so nothing is cut off here
    return { thread := thread, selected := selected, mode := mode, output_format := output_format
             start_index := args.start_index.toNat
             end_index := args.end_index.map fun e => e.toNat
             segment_size := segment_size }

/-- The ids of the steps that the selection exports. -/
def PlanSelection.stepIds (sel : PlanSelection) : List String := sel.selected.map fun s => s.id

/-- The payload that `_export_job_id` hashes, with its keys in order. -/
def exportPayload (sel : PlanSelection) (nonce : String) : Json :=
  .obj [("end_index", match sel.end_index with
      | some e => .int e
      | none => .null),
    ("mode", .str sel.mode.name),
    ("nonce", .str nonce),
    ("output_format", .str sel.output_format.name),
    ("segment_size", .int sel.segment_size),
    ("source_step_ids", .arr (sel.stepIds.map Json.str)),
    ("start_index", .int sel.start_index),
    ("thread_id", .str sel.thread.id)]

/-- `_export_job_id`; `digest` gives the hexadecimal digits of a payload. -/
def exportJobId (digest : Json → String) (sel : PlanSelection) (nonce : String) : String :=
  "reason-output-" ++ String.ofList ((digest (exportPayload sel nonce)).toList.take 16)

/-- The manifest that `plan_job` writes. -/
def plannedManifest (sel : PlanSelection) (sections : List ReasonOutputSection)
    (job_id now : String) : ReasonOutputManifest where
  job_id := job_id
  thread_id := sel.thread.id
  mode := sel.mode
  output_format := sel.output_format
  source_start_index := sel.start_index
  source_end_index := sel.end_index
  source_step_ids := sel.stepIds
  segment_size := sel.segment_size
  created_at := now
  updated_at := now
  sections := sections

/-- The progress summary that `plan_job` writes. -/
def plannedProgress (manifest : ReasonOutputManifest) : ReasonOutputProgress where
  job_id := manifest.job_id
  thread_id := manifest.thread_id
  status := manifest.status
  completed_chunks := []
  total_chunks := chunkCount manifest.source_step_ids.length manifest.segment_size
  pdf_status := .pending
  pdf_path := none
  updated_at := manifest.updated_at

/-! ## The call -/

/-- What one call of `plan_job` meets outside. -/
structure PlanCall where
  /-- What the injected section planner answers, where there is one. -/
  section_planner : Option (Except ReasonOutputError (List ReasonOutputSection))
  /-- `uuid4().hex`. -/
  nonce : String
  now : String
  manifest_write : WriteAnswer ReasonOutputError
  progress_write : WriteAnswer ReasonOutputError

/-- The job directories, by thread and job, and the wake-ups handed to the job sink so far. -/
structure ExportStore where
  jobs : Table (String × String) JobDirectory
  submitted : List JobMessage

def ExportStore.empty : ExportStore := ⟨Table.empty, []⟩

/-- A directory with nothing in it. -/
def emptyDirectory (root : String) : JobDirectory where
  root := root
  manifest := none
  progress := none
  documents := Table.empty
  pdf := false
  composed := []
  updates := []

/-- The directory of a job that has been planned and not yet composed. -/
def plannedDirectory (root : String) (manifest : ReasonOutputManifest) : JobDirectory :=
  { emptyDirectory root with
    manifest := some manifest
    progress := some (plannedProgress manifest) }

def clearJobArtifacts (d : JobDirectory) : JobDirectory :=
  { d with manifest := none, progress := none, documents := Table.empty, pdf := false }

/-- The two files of a planned job. -/
def writePlan (call : PlanCall) (manifest : ReasonOutputManifest) : Export Unit := do
  Interruptible.write call.manifest_write fun d => { d with manifest := some manifest }
  Interruptible.write call.progress_write
    (JobDirectory.putProgress (plannedProgress manifest))

/-- The manifest of a call, up to where `plan_job` starts to write. -/
def planManifest (service : ReasonOutputService) (digest : Json → String)
    (records : ReasonRecords) (args : PlanArguments) (call : PlanCall) :
    Except ReasonOutputError ReasonOutputManifest := do
  let sel ← planSelection records args
  let sections ← match call.section_planner with
    | some answer => answer
    | none => service.planSections sel.thread sel.selected sel.mode call.now
  let job_id := exportJobId digest sel call.nonce
  -- `job_paths`
  validateSegment sel.thread.id "thread id"
  validateSegment job_id "job id"
  return plannedManifest sel sections job_id call.now

/-- `plan_job`.  An error of the job sink is only reported. -/
def planJob (service : ReasonOutputService) (digest : Json → String) (records : ReasonRecords)
    (args : PlanArguments) (call : PlanCall) (store : ExportStore) :
    ExportStore × Outcome ReasonOutputError ReasonOutputManifest :=
  match planManifest service digest records args call with
  | .error e => (store, .raised e)
  | .ok manifest =>
    let key := (manifest.thread_id, manifest.job_id)
    let root := service.workspaces ++ "/" ++ manifest.thread_id ++ "/jobs/" ++ manifest.job_id
    -- whatever stands under the id is cleared, also a job that is complete
    let cleared := clearJobArtifacts ((store.jobs.get key).getD (emptyDirectory root))
    match writePlan call manifest cleared with
    | (.returned _, d) =>
      ({ jobs := store.jobs.set key d
         submitted := store.submitted ++
           [{ job_id := manifest.job_id, resource_id := manifest.thread_id
              data := .reasoning (some (manifest.mode, manifest.output_format)) }] },
        .returned manifest)
    | (.raised e, d) => ({ store with jobs := store.jobs.set key d }, .raised e)
    | (.stopped, d) => ({ store with jobs := store.jobs.set key d }, .stopped)

/-! ## What a selection is -/

theorem validatePositive_ok {value : Int} {label : String} {n : Nat}
    (h : validatePositive value label = .ok n) : 1 ≤ n := by
  unfold validatePositive at h
  split at h
  · cases h
  · cases h
    omega

theorem selectSteps_sublist {steps selected : List ReasoningStep} {start_index : Int}
    {end_index : Option Int} (h : selectSteps steps start_index end_index = .ok selected) :
    selected.Sublist steps := by
  rw [selectSteps] at h
  obtain ⟨start, -, h⟩ := bind_ok h
  cases end_index with
  | none =>
    cases h
    exact List.drop_sublist _ _
  | some e =>
    obtain ⟨last, -, h⟩ := bind_ok h
    split at h
    · cases h
    · cases h
      exact (List.take_sublist _ _).trans (List.drop_sublist _ _)

theorem planSelection_ok {records : ReasonRecords} {args : PlanArguments} {sel : PlanSelection}
    (h : planSelection records args = .ok sel) :
    sel.selected.Sublist (records.list_steps sel.thread.id) ∧ 1 ≤ sel.segment_size := by
  rw [planSelection] at h
  obtain ⟨thread, -, h⟩ := bind_ok h
  obtain ⟨selected, hselected, h⟩ := bind_ok h
  split at h
  · cases h
  · obtain ⟨mode, -, h⟩ := bind_ok h
    obtain ⟨output_format, -, h⟩ := bind_ok h
    obtain ⟨segment_size, hsize, h⟩ := bind_ok h
    cases h
    exact ⟨selectSteps_sublist hselected, validatePositive_ok hsize⟩

/-! ## What a call leaves -/

variable {service : ReasonOutputService} {digest : Json → String} {records : ReasonRecords}
  {args : PlanArguments} {call : PlanCall}

theorem planManifest_ok {m : ReasonOutputManifest}
    (h : planManifest service digest records args call = .ok m) :
    ∃ sel sections, planSelection records args = .ok sel ∧
      m = plannedManifest sel sections (exportJobId digest sel call.nonce) call.now := by
  rw [planManifest] at h
  obtain ⟨sel, hsel, h⟩ := bind_ok h
  refine ⟨sel, ?_⟩
  cases hplanner : call.section_planner with
  | none =>
    simp only [hplanner] at h
    obtain ⟨sections, -, h⟩ := bind_ok h
    obtain ⟨-, -, h⟩ := bind_ok h
    obtain ⟨-, -, h⟩ := bind_ok h
    cases h
    exact ⟨sections, hsel, rfl⟩
  | some answer =>
    simp only [hplanner] at h
    obtain ⟨sections, -, h⟩ := bind_ok h
    obtain ⟨-, -, h⟩ := bind_ok h
    obtain ⟨-, -, h⟩ := bind_ok h
    cases h
    exact ⟨sections, hsel, rfl⟩

/-- The key of the job of a manifest. -/
def ReasonOutputManifest.key (m : ReasonOutputManifest) : String × String := (m.thread_id, m.job_id)

/-- The directory of a job right after it has been planned, over what was there. -/
def replannedDirectory (service : ReasonOutputService) (store : ExportStore)
    (m : ReasonOutputManifest) : JobDirectory :=
  { clearJobArtifacts ((store.jobs.get m.key).getD (emptyDirectory
      (service.workspaces ++ "/" ++ m.thread_id ++ "/jobs/" ++ m.job_id))) with
    manifest := some m
    progress := some (plannedProgress m) }

theorem writePlan_returned_iff {m : ReasonOutputManifest} {d d' : JobDirectory} :
    writePlan call m d = (.returned (), d') ↔
      (call.manifest_write = .written ∧ call.progress_write = .written) ∧
        d' = { d with manifest := some m, progress := some (plannedProgress m) } := by
  rw [writePlan]
  constructor
  · intro h
    obtain ⟨_, d₁, hfirst, hsecond⟩ := Interruptible.bind_returned_iff.mp h
    obtain ⟨hmanifest, rfl⟩ := Interruptible.write_returned_iff.mp hfirst
    obtain ⟨hprogress, rfl⟩ := Interruptible.write_returned_iff.mp hsecond
    exact ⟨⟨hmanifest, hprogress⟩, rfl⟩
  · rintro ⟨⟨hmanifest, hprogress⟩, rfl⟩
    rw [Interruptible.returned_bind (Interruptible.write_returned_iff.mpr ⟨hmanifest, rfl⟩)]
    exact Interruptible.write_returned_iff.mpr ⟨hprogress, rfl⟩

/-- **A call that returns**: its arguments pass, both writes go through, and whatever the directory
    of its job held has made way for the new plan; one more wake-up is submitted. -/
theorem planJob_returned_iff {store store' : ExportStore} {m : ReasonOutputManifest} :
    planJob service digest records args call store = (store', .returned m) ↔
      planManifest service digest records args call = .ok m ∧
      (call.manifest_write = .written ∧ call.progress_write = .written) ∧
      store' = { jobs := store.jobs.set m.key (replannedDirectory service store m)
                 submitted := store.submitted ++
                   [{ job_id := m.job_id, resource_id := m.thread_id
                      data := .reasoning (some (m.mode, m.output_format)) }] } := by
  rw [planJob]
  cases hplan : planManifest service digest records args call with
  | error e =>
    constructor
    · intro h; cases h
    · rintro ⟨h, -⟩; cases h
  | ok manifest =>
    simp only
    cases hwrite : writePlan call manifest (clearJobArtifacts ((store.jobs.get
      (manifest.thread_id, manifest.job_id)).getD (emptyDirectory (service.workspaces ++ "/" ++
        manifest.thread_id ++ "/jobs/" ++ manifest.job_id)))) with
    | mk o d =>
      cases o with
      | returned u =>
        obtain ⟨hwrites, rfl⟩ := writePlan_returned_iff.mp hwrite
        constructor
        · intro h
          cases h
          exact ⟨rfl, hwrites, rfl⟩
        · rintro ⟨h, -, rfl⟩
          cases h
          rfl
      | raised e =>
        constructor
        · intro h; cases h
        · rintro ⟨h, hwrites, -⟩
          cases h
          rw [writePlan_returned_iff.mpr ⟨hwrites, rfl⟩] at hwrite
          cases hwrite
      | stopped =>
        constructor
        · intro h; cases h
        · rintro ⟨h, hwrites, -⟩
          cases h
          rw [writePlan_returned_iff.mpr ⟨hwrites, rfl⟩] at hwrite
          cases hwrite

end NuSelf.Reason
