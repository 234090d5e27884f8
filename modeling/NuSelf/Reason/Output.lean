/-
  Composing an export: the documents of a job, and one attempt from the manifest to the PDF.

  A job has a directory of its own.  One attempt reads the manifest, composes the chunks that are
  not there yet, combines them, marks the manifest complete, and writes the progress summary
  before and after the PDF.  Everything an attempt meets outside (what the store and the file
  system answer, what the runner makes of a chunk, the clock) is part of its `ExportAttempt`;
  every write may fail, and the process may stop at every write.

  1. `chunkFilename_inj`, `chunkFilename_ne_combined` — the documents of a job do not collide.
  2. `planSections_decodes` — the section plan of steps with an id can be stored.
  3. `sourceSteps_ids` — an attempt composes the steps of the manifest, in its order.
-/
import NuSelf.Lib.Table
import NuSelf.Reason.Contracts

namespace NuSelf.Reason

open NuSelf.Lib

/-! ## Sections -/

/-- What a `ReasonOutputService` is built from. -/
structure ReasonOutputService where
  /-- The directory of the workspaces, one for each thread. -/
  workspaces : String
  /-- `textwrap.shorten(" ".join(text.split()), width=42, placeholder="...")`. -/
  shorten : String → String

def sectionWindowSize (mode : ReasonOutputMode) (item_count : Nat) : Nat :=
  if item_count ≤ 0 then 1
  else
    min item_count (match mode with
      | .summary => 12
      | .outline => 6
      | .report => 8
      | .narrative => 8)

def sectionPrefix : ReasonOutputMode → String
  | .narrative => "Chapter"
  | .outline => "Section"
  | .report => "Section"
  | .summary => "Digest"

namespace ReasonOutputService

variable (service : ReasonOutputService)

/-- One section of `plan_sections`: batch number `index` of `count`, which begins at `offset`. -/
def planSection (thread : ReasoningThread) (mode : ReasonOutputMode) (total_steps count : Nat)
    (now : String) (index offset : Nat) (batch : List ReasoningStep) : ReasonOutputSection :=
  let end_index : Int := offset + batch.length - 1
  let lead := service.shorten ((batch.head?.map fun s => s.summary).getD "")
  let tail := service.shorten ((batch.getLast?.map fun s => s.summary).getD "")
  let named := sectionPrefix mode ++ " " ++ toString (index + 1) ++ ": " ++ lead
  let focus := "Keep the section anchored to steps " ++ toString (offset + 1) ++ "-" ++
    toString (end_index + 1) ++ " of " ++ toString total_steps ++ "."
  { index := index
    title := if 1 < batch.length ∧ tail ≠ lead then named ++ " → " ++ tail else named
    focus :=
      if index = 0 then focus ++ " Establish the long-form voice for " ++ thread.topic ++ "."
      else if index = count - 1 then
        focus ++ " Close the arc cleanly and preserve continuity with earlier sections."
      else focus ++ " Preserve continuity with the sections before and after it."
    step_ids := batch.map fun s => s.id
    source_start_index := offset
    source_end_index := end_index
    summary := if tail ≠ lead then lead ++ " → " ++ tail else lead
    created_at := now }

/-- The loop of `plan_sections`. -/
def planSectionsFrom (thread : ReasoningThread) (mode : ReasonOutputMode)
    (total_steps count : Nat) (now : String) :
    Nat → Nat → List (List ReasoningStep) → List ReasonOutputSection
  | _, _, [] => []
  | index, offset, batch :: rest =>
    service.planSection thread mode total_steps count now index offset batch ::
      planSectionsFrom thread mode total_steps count now (index + 1) (offset + batch.length) rest

/-- `plan_sections(thread, selected, mode=mode)`. -/
def planSections (thread : ReasoningThread) (selected : List ReasoningStep)
    (mode : ReasonOutputMode) (now : String) :
    Except ReasonOutputError (List ReasonOutputSection) :=
  match partitionSteps selected (sectionWindowSize mode selected.length) with
  | .error e => .error e
  | .ok batches =>
    .ok (service.planSectionsFrom thread mode selected.length batches.length now 0 0 batches)

end ReasonOutputService

def sectionForPosition (section_plan : List ReasonOutputSection) (position : Int) :
    Except ReasonOutputError ReasonOutputSection :=
  match section_plan with
  | [] => .error (.value "section plan must not be empty")
  | first :: rest =>
    if position < 0 then .ok first
    else
      match section_plan.find? fun s =>
          decide (s.source_start_index ≤ position) && decide (position ≤ s.source_end_index) with
      | some s => .ok s
      | none => .ok (rest.getLast?.getD first)

/-! ## The job directory -/

/-- Which update of the manifest a write was. -/
inductive ManifestUpdate where
  | composed | failure
  deriving DecidableEq, Repr

/-- `jobs/{job_id}/` of one thread.  The chunk files and `combined.md` are `documents`.  The last
    two fields are what has happened, for the properties that speak of the past. -/
structure JobDirectory where
  root : String
  manifest : Option ReasonOutputManifest
  progress : Option ReasonOutputProgress
  documents : Table String String
  pdf : Bool
  /-- The chunks that the runner has returned, oldest first. -/
  composed : List (Nat × String)
  /-- The manifests that have taken the place of an older one, oldest first. -/
  updates : List (ManifestUpdate × ReasonOutputManifest)

namespace JobDirectory

def putManifest (update : ManifestUpdate) (m : ReasonOutputManifest) (d : JobDirectory) :
    JobDirectory :=
  { d with manifest := some m, updates := d.updates ++ [(update, m)] }

def putProgress (p : ReasonOutputProgress) (d : JobDirectory) : JobDirectory :=
  { d with progress := some p }

def putDocument (name text : String) (d : JobDirectory) : JobDirectory :=
  { d with documents := d.documents.set name text }

def pdfPath (d : JobDirectory) : String := d.root ++ "/combined.pdf"

end JobDirectory

def chunkFilename (index : Nat) : String := "chunk-" ++ (numeral3 (index + 1) ++ ".md")

theorem chunkFilename_inj {i j : Nat} : chunkFilename i = chunkFilename j ↔ i = j := by
  constructor
  · intro h
    have htail : numeral3 (i + 1) ++ ".md" = numeral3 (j + 1) ++ ".md" :=
      append_right_cancel_text.mp h
    have hnumeral : numeral3 (i + 1) = numeral3 (j + 1) := by
      rw [← String.toList_inj, String.toList_append, String.toList_append,
        List.append_cancel_right_eq] at htail
      exact String.toList_inj.mp htail
    have hindex := numeral3_inj.mp hnumeral
    omega
  · rintro rfl
    rfl

theorem chunkFilename_ne_combined (i : Nat) : chunkFilename i ≠ "combined.md" := by
  intro h
  have hlist := congrArg (fun s : String => s.toList[1]?) h
  rw [chunkFilename] at hlist
  simp [String.toList_append] at hlist

theorem chunkFilename_nonblank (i : Nat) : blank (chunkFilename i) = false :=
  not_blank_append (by decide) _

/-! ## Documents -/

/-- The body a stored chunk contributes: its first line is dropped when it is a heading. -/
def chunkBody (raw : String) : String :=
  let text := universalNewlines raw.toList
  match text.dropWhile fun c => c ≠ '\n' with
  | [] => strip (String.ofList text)
  | _ :: rest =>
    if (text.takeWhile fun c => c ≠ '\n').head? = some '#' then strip (String.ofList rest)
    else strip (String.ofList text)

/-- `"\n".join(lines)`. -/
def joinLines (lines : List String) : String := "\n".intercalate lines

def renderChunkDocument (sec : ReasonOutputSection) (body : String) : String :=
  rstrip (joinLines ["# " ++ sec.title, "", rstrip body]) ++ "\n"

/-- `next((i for i, sid in enumerate(step_order) if sid in chunk.step_ids), -1)`. -/
def stepPosition (step_order step_ids : List String) : Int :=
  match step_order.findIdx? fun sid => step_ids.contains sid with
  | some i => i
  | none => -1

/-- What an attempt reads. -/
inductive ExportRead where
  | inspect | progress | job | chunk (index : Nat) | failure
  deriving DecidableEq, Repr

/-- What an attempt writes. -/
inductive ExportWrite where
  | chunk (index : Nat)
  | combined
  | manifest
  | progress
  | pdfProgress
  | failure
  deriving DecidableEq, Repr

/-- What becomes of the PDF script. -/
inductive PdfRun where
  /-- There is no script. -/
  | absent
  /-- It has run, to its end or not, and has made the file or not. -/
  | ran (succeeded creates : Bool)
  | raised (error : ReasonOutputError)
  | stopped
  deriving DecidableEq

/-- What one attempt meets outside the job directory. -/
structure ExportAttempt where
  /-- The topic of the thread and its steps, as the store gives them. -/
  reason : Except ReasonOutputError (String × List ReasoningStep)
  /-- The reads that fail. -/
  reads : ExportRead → Option ReasonOutputError
  /-- What the runner makes of each chunk. -/
  runner : Nat → Outcome ReasonOutputError String
  writes : ExportWrite → WriteAnswer ReasonOutputError
  pdf : PdfRun
  clock : ExportWrite → String
  /-- `diagnostic_exception_chain`. -/
  diagnostic : ReasonOutputError → String

/-- The surroundings of an attempt that nothing disturbs. -/
def uninterrupted (topic : String) (steps : List ReasoningStep) (bodies : Nat → String) :
    ExportAttempt where
  reason := .ok (topic, steps)
  reads := fun _ => none
  runner := fun index => .returned (bodies index)
  writes := fun _ => .written
  pdf := .absent
  clock := fun _ => "2026-01-01T00:00:00+00:00"
  diagnostic := fun _ => ""

/-- A step of an export of one job. -/
abbrev Export (α : Type) : Type := Interruptible JobDirectory ReasonOutputError α

/-- The lines that the chunks contribute, one chunk after the other; `prev_section_index` is the
    section whose heading was put last. -/
def combineLines (attempt : ExportAttempt) (manifest : ReasonOutputManifest)
    (section_plan : List ReasonOutputSection) (documents : Table String String) :
    Int → List ReasonOutputChunk → Except ReasonOutputError (List String)
  | _, [] => .ok []
  | prev_section_index, chunk :: rest =>
    match attempt.reads (.chunk chunk.index), documents.get chunk.filename with
    | some e, _ => .error e
    -- the mark of a missing chunk stands under the section before it
    | none, none => do
      let lines ← combineLines attempt manifest section_plan documents prev_section_index rest
      return ("*[Missing chunk " ++ chunk.filename ++ "]*") :: "" :: lines
    | none, some raw => do
      let sec ← sectionForPosition section_plan
        (stepPosition manifest.source_step_ids chunk.step_ids)
      let lines ← combineLines attempt manifest section_plan documents sec.index rest
      -- a section has its heading before its first chunk only
      let heading := if sec.index ≠ prev_section_index then ["# " ++ sec.title, ""] else []
      return heading ++ (chunkBody raw :: "" :: lines)

def combineChunks (attempt : ExportAttempt) (topic : String) (manifest : ReasonOutputManifest)
    (section_plan : List ReasonOutputSection) (documents : Table String String)
    (chunks : List ReasonOutputChunk) : Except ReasonOutputError String := do
  let lines ← combineLines attempt manifest section_plan documents (-1) chunks
  return rstrip (joinLines (["# " ++ topic, ""] ++ lines)) ++ "\n"

/-! ## One attempt -/

/-- The runner on one chunk; what it returned is noted. -/
def runChunk (attempt : ExportAttempt) (index : Nat) : Export String :=
  match attempt.runner index with
  | .returned body => do
    Interruptible.modify fun d => { d with composed := d.composed ++ [(index, body)] }
    return body
  | .raised e => Interruptible.raise e
  | .stopped => Interruptible.ends .stopped

/-- One round of the loop of `compose_with_runner`: a chunk that is there is skipped. -/
def composeChunk (attempt : ExportAttempt) (sec : ReasonOutputSection) (index : Nat) :
    Export Unit := do
  let d ← Interruptible.get
  -- an earlier attempt may have written it; it is taken as it is
  if d.documents.contains (chunkFilename index) = true then return ()
  else
    let body ← runChunk attempt index
    Interruptible.write (attempt.writes (.chunk index))
      (JobDirectory.putDocument (chunkFilename index) (renderChunkDocument sec body))

/-- The record of a composed chunk. -/
def chunkRecord (attempt : ExportAttempt) (index : Nat) (batch : List ReasoningStep) :
    ReasonOutputChunk where
  index := index
  filename := chunkFilename index
  step_ids := batch.map fun s => s.id
  created_at := attempt.clock (.chunk index)

/-- The loop of `compose_with_runner`, at batch number `index`, which begins at `batch_start`. -/
def composeChunks (attempt : ExportAttempt) (section_plan : List ReasonOutputSection) :
    Nat → Nat → List (List ReasoningStep) → Export (List ReasonOutputChunk)
  | _, _, [] => return []
  | index, batch_start, batch :: rest => do
    let sec ← Interruptible.ofExcept (sectionForPosition section_plan batch_start)
    composeChunk attempt sec index
    let chunks ← composeChunks attempt section_plan (index + 1) (batch_start + batch.length) rest
    return chunkRecord attempt index batch :: chunks

/-- `_generate_pdf`: the path of the PDF that the script has made. -/
def generatePdf (attempt : ExportAttempt) : Export (Option String) := do
  let d ← Interruptible.get
  if d.documents.contains "combined.md" = true then
    match attempt.pdf with
    | .absent => return none
    | .ran succeeded creates => do
      -- a script that fails may have made the file all the same
      Interruptible.modify fun d => { d with pdf := d.pdf || creates }
      let d ← Interruptible.get
      return if succeeded = true ∧ d.pdf = true then some d.pdfPath else none
    | .raised e => Interruptible.raise e
    | .stopped => Interruptible.ends .stopped
  else return none

/-- The progress summary of a composed job. -/
def composedProgress (updated : ReasonOutputManifest) (chunks : List ReasonOutputChunk)
    (pdf_status : PdfStatus) (pdf_path : Option String) (updated_at : String) :
    ReasonOutputProgress where
  job_id := updated.job_id
  thread_id := updated.thread_id
  status := updated.status
  completed_chunks := chunks.map fun c => c.index
  total_chunks := chunks.length
  pdf_status := pdf_status
  pdf_path := pdf_path
  updated_at := updated_at

/-- The second half of `_finalize_job`, once the manifest is marked: progress, PDF, progress. -/
def publishProgress (attempt : ExportAttempt) (updated : ReasonOutputManifest)
    (chunks : List ReasonOutputChunk) : Export Unit := do
  Interruptible.write (attempt.writes .progress)
    (JobDirectory.putProgress
      (composedProgress updated chunks .pending none updated.updated_at))
  let pdf_path ← generatePdf attempt
  let d ← Interruptible.get
  -- a PDF that an earlier attempt has left counts too
  let pdf_path := pdf_path.or (if d.pdf = true then some d.pdfPath else none)
  let pdf_status := if pdf_path.isSome = true then PdfStatus.generated else PdfStatus.failed
  Interruptible.write (attempt.writes .pdfProgress)
    (JobDirectory.putProgress
      (composedProgress updated chunks pdf_status pdf_path (attempt.clock .pdfProgress)))

/-- The manifest of a composed job. -/
def composedManifest (attempt : ExportAttempt) (manifest : ReasonOutputManifest)
    (chunks : List ReasonOutputChunk) (section_plan : List ReasonOutputSection) :
    ReasonOutputManifest :=
  manifest.withUpdates (attempt.clock .manifest) (some .complete) (some chunks) (some section_plan)
    none none none

def finalizeJob (attempt : ExportAttempt) (topic : String) (manifest : ReasonOutputManifest)
    (chunks : List ReasonOutputChunk) (section_plan : List ReasonOutputSection) :
    Export ReasonOutputManifest := do
  let d ← Interruptible.get
  let combined_text ← Interruptible.ofExcept
    (combineChunks attempt topic manifest section_plan d.documents chunks)
  Interruptible.write (attempt.writes .combined)
    (JobDirectory.putDocument "combined.md" combined_text)
  let updated := composedManifest attempt manifest chunks section_plan
  Interruptible.write (attempt.writes .manifest) (JobDirectory.putManifest .composed updated)
  publishProgress attempt updated chunks
  return updated

def readManifest (answer : Option ReasonOutputError) : Export ReasonOutputManifest := do
  let d ← Interruptible.get
  match answer, d.manifest with
  | some e, _ => Interruptible.raise e
  | none, none => Interruptible.raise (.fileNotFound "manifest.json")
  | none, some m => Interruptible.ofExcept m.fromWire

/-- `get_job(thread_id, job_id)`. -/
def getJob (attempt : ExportAttempt) (thread_id job_id : String) :
    Export ReasonOutputManifest := do
  let manifest ← Interruptible.catching (readManifest (attempt.reads .job)) fun e =>
    match e with
    | .fileNotFound _ => Interruptible.raise (.notFound job_id)
    -- other errors of the read leave as they are
    | e => Interruptible.raise e
  if manifest.job_id ≠ job_id ∨ manifest.thread_id ≠ thread_id then
    Interruptible.raise (.value "reason output manifest identity does not match its path")
  else return manifest

/-- The steps of the manifest, looked up among those of the thread. -/
def sourceSteps (steps : List ReasoningStep) (source_step_ids : List String) :
    Except ReasonOutputError (List ReasoningStep) :=
  let selected := source_step_ids.filterMap fun sid => steps.reverse.find? fun s => s.id = sid
  if selected.length ≠ source_step_ids.length then
    .error (.runtime "Cannot compose export job: one or more source steps are missing")
  else .ok selected

/-- The plan of the manifest, or a new one when it has none. -/
def ReasonOutputService.sectionPlan (service : ReasonOutputService) (thread : ReasoningThread)
    (manifest : ReasonOutputManifest) (selected : List ReasoningStep) (now : String) :
    Except ReasonOutputError (List ReasonOutputSection) :=
  if manifest.sections.isEmpty = true then service.planSections thread selected manifest.mode now
  else .ok manifest.sections

/-- `compose_with_runner(thread_id, job_id, runner)`. -/
def composeWithRunner (service : ReasonOutputService) (thread_id job_id : String)
    (attempt : ExportAttempt) : Export ReasonOutputManifest := do
  let manifest ← getJob attempt thread_id job_id
  let (topic, steps) ← Interruptible.ofExcept attempt.reason
  let selected ← Interruptible.ofExcept (sourceSteps steps manifest.source_step_ids)
  let section_plan ← Interruptible.ofExcept
    (service.sectionPlan ⟨thread_id, topic⟩ manifest selected (attempt.clock .manifest))
  let batches ← Interruptible.ofExcept (partitionSteps selected manifest.segment_size)
  let chunks ← composeChunks attempt section_plan 0 0 batches
  finalizeJob attempt topic manifest chunks section_plan

/-! ## What a section plan is -/

namespace ReasonOutputService

variable {service : ReasonOutputService} {thread : ReasoningThread} {mode : ReasonOutputMode}

theorem planSection_decodes {total_steps count index offset : Nat} {now : String}
    {batch : List ReasoningStep} (h : (batch.map fun s => s.id).any blank = false) :
    (service.planSection thread mode total_steps count now index offset batch).decodes = true := by
  have hword : blank (sectionPrefix mode) = false := by cases mode <;> decide
  have hnamed : ∀ rest : String, blank (sectionPrefix mode ++ " " ++ toString (index + 1) ++ ": " ++
      rest) = false := by
    intro rest
    simp only [String.append_assoc]
    exact not_blank_append hword _
  simp only [ReasonOutputSection.decodes, planSection, Bool.and_eq_true, Bool.not_eq_true']
  refine ⟨⟨?_, ?_⟩, h⟩
  · split
    · rw [String.append_assoc, String.append_assoc]
      exact hnamed _
    · exact hnamed _
  · -- every focus begins with the same words
    split
    · simp only [String.append_assoc]
      exact not_blank_append (by decide) _
    · split
      · simp only [String.append_assoc]
        exact not_blank_append (by decide) _
      · simp only [String.append_assoc]
        exact not_blank_append (by decide) _

theorem planSectionsFrom_decodes {total_steps count : Nat} {now : String} :
    ∀ {batches : List (List ReasoningStep)} {index offset : Nat},
      (∀ batch ∈ batches, (batch.map fun s => s.id).any blank = false) →
      (service.planSectionsFrom thread mode total_steps count now index offset batches).all
        ReasonOutputSection.decodes = true
  | [], _, _, _ => rfl
  | batch :: rest, index, offset, h => by
    obtain ⟨hbatch, hrest⟩ := List.forall_mem_cons.mp h
    rw [planSectionsFrom, List.all_cons, planSection_decodes hbatch, planSectionsFrom_decodes hrest]
    rfl

end ReasonOutputService

theorem mem_partition {α : Type} {items : List α} {size : Nat} {batches : List (List α)}
    (h : partitionSteps items size = .ok batches) {batch : List α} (hbatch : batch ∈ batches)
    {x : α} (hx : x ∈ batch) : x ∈ items := by
  rw [← partition_flatten h]
  exact List.mem_flatten.mpr ⟨batch, hbatch, hx⟩

theorem visible_batches {steps : List ReasoningStep} {size : Nat}
    {batches : List (List ReasoningStep)} (h : partitionSteps steps size = .ok batches)
    (hsteps : (steps.map fun s => s.id).any blank = false) :
    ∀ batch ∈ batches, (batch.map fun s => s.id).any blank = false := by
  intro batch hbatch
  rw [List.any_eq_false] at hsteps ⊢
  intro sid hsid
  obtain ⟨s, hs, rfl⟩ := List.mem_map.mp hsid
  exact hsteps s.id (List.mem_map.mpr ⟨s, mem_partition h hbatch hs, rfl⟩)

/-- **A section plan can be stored**, when the ids of its steps can. -/
theorem planSections_decodes {service : ReasonOutputService} {thread : ReasoningThread}
    {selected : List ReasoningStep} {mode : ReasonOutputMode} {now : String}
    {sections : List ReasonOutputSection}
    (h : service.planSections thread selected mode now = .ok sections)
    (hsteps : (selected.map fun s => s.id).any blank = false) :
    sections.all ReasonOutputSection.decodes = true := by
  unfold ReasonOutputService.planSections at h
  cases hbatches : partitionSteps selected (sectionWindowSize mode selected.length) with
  | error e =>
    rw [hbatches] at h
    cases h
  | ok batches =>
    rw [hbatches] at h
    cases h
    exact ReasonOutputService.planSectionsFrom_decodes (visible_batches hbatches hsteps)

/-! ## The steps of the manifest -/

theorem filterMap_eq_of_length {α β : Type} {f : α → Option β} {key : β → α}
    (hkey : ∀ a b, f a = some b → key b = a) : ∀ {as : List α},
    (as.filterMap f).length = as.length → (as.filterMap f).map key = as
  | [], _ => rfl
  | a :: as, h => by
    cases ha : f a with
    | none =>
      rw [List.filterMap_cons_none ha, List.length_cons] at h
      have hle := List.length_filterMap_le f as
      omega
    | some b =>
      rw [List.filterMap_cons_some ha] at h ⊢
      simp only [List.length_cons, Nat.add_right_cancel_iff] at h
      rw [List.map_cons, hkey a b ha, filterMap_eq_of_length hkey h]

/-- The steps an attempt composes are the source steps of the manifest, in its order. -/
theorem sourceSteps_ids {steps selected : List ReasoningStep} {source_step_ids : List String}
    (h : sourceSteps steps source_step_ids = .ok selected) :
    (selected.map fun s => s.id) = source_step_ids := by
  simp only [sourceSteps] at h
  split at h
  · cases h
  · rename_i hlength
    cases h
    refine filterMap_eq_of_length (fun sid s hfind => ?_) (not_not.mp hlength)
    have hid := @List.find?_some _ (fun s : ReasoningStep => decide (s.id = sid)) _ _ hfind
    exact of_decide_eq_true hid

theorem sourceSteps_of_mem {steps selected : List ReasoningStep}
    (hdistinct : (steps.map fun s => s.id).Nodup) (h : ∀ s ∈ selected, s ∈ steps) :
    sourceSteps steps (selected.map fun s => s.id) = .ok selected := by
  have hfind : ∀ s ∈ selected, steps.reverse.find? (fun x => decide (x.id = s.id)) = some s := by
    intro s hs
    have hsome : (steps.reverse.find? fun x => decide (x.id = s.id)).isSome = true := by
      rw [List.find?_isSome]
      exact ⟨s, List.mem_reverse.mpr (h s hs), decide_eq_true rfl⟩
    obtain ⟨x, hx⟩ := Option.isSome_iff_exists.mp hsome
    have hid : x.id = s.id :=
      of_decide_eq_true (@List.find?_some _ (fun x : ReasoningStep => decide (x.id = s.id)) _ _ hx)
    have hmem : x ∈ steps := List.mem_reverse.mp (List.mem_of_find?_eq_some hx)
    rw [hx, List.inj_on_of_nodup_map hdistinct hmem (h s hs) hid]
  have hall : (selected.map fun s => s.id).filterMap
      (fun sid => steps.reverse.find? fun s => decide (s.id = sid)) = selected := by
    rw [List.filterMap_map]
    exact (List.filterMap_congr hfind).trans List.filterMap_some
  rw [sourceSteps, hall, if_neg (by rw [List.length_map]; exact not_not.mpr rfl)]

end NuSelf.Reason
