/-
  One wake-up of an export: inspect the manifest, compose, and count a failure.

  `process` looks at the manifest of its job.  A job that is complete or failed, and a manifest
  that cannot be read, end it at once; otherwise the job is composed, and an exception of the
  composition, wherever it comes from, is counted in the manifest.  What `process` asks of the
  scheduler afterwards is its result.  Where the process stops, nothing more happens.

  1. `markComplete_run` — how the second half of an attempt ends, and what it leaves.
  2. `process_idle` — a job that is not pending is left alone.
  3. `process_cases` — what a wake-up does to the manifest and the progress of a pending job: it
     keeps them, counts a failure, marks the job complete, or marks it and counts a failure on
     top of that; each exactly when its surroundings say so.
-/
import NuSelf.Reason.Compose
import NuSelf.Reason.Planning

namespace NuSelf.Reason

open NuSelf.Lib

def maxExportAttempts : Nat := 5

/-! ## The wake-up -/

structure PendingExportInspection where
  total_chunks : Option Nat
  progress_error : Option ReasonOutputError := none

/-- The progress that is read under the name the manifest gives. -/
def readProgress (answer : Option ReasonOutputError) (manifest : ReasonOutputManifest)
    (d : JobDirectory) : Except ReasonOutputError ReasonOutputProgress :=
  match answer with
  | some e => .error e
  | none =>
    match if manifest.progress_filename = "progress.json" then d.progress else none with
    | none => .error (.fileNotFound manifest.progress_filename)
    | some p => p.fromWire

def inspectPendingExportJob (attempt : ExportAttempt) (thread_id job_id : String) :
    Export (Option PendingExportInspection) := do
  let manifest ← readManifest (attempt.reads .inspect)
  if manifest.job_id ≠ job_id ∨ manifest.thread_id ≠ thread_id then
    Interruptible.raise (.value "export manifest identity does not match queue message")
  else if manifest.status.terminal = true then return none
  else
    let d ← Interruptible.get
    -- an error of the summary is reported and stops nothing
    match readProgress (attempt.reads .progress) manifest d with
    | .error (.fileNotFound _) => return some { total_chunks := none }
    | .error e => return some { total_chunks := none, progress_error := some e }
    | .ok progress =>
      if progress.job_id ≠ job_id ∨ progress.thread_id ≠ thread_id then
        return some { total_chunks := none
                      progress_error := some
                        (.value "export progress identity does not match queue message") }
      else return some { total_chunks := some progress.total_chunks }

/-- The manifest of a job whose attempt has failed. -/
def failureManifest (attempt : ExportAttempt) (operation_error : ReasonOutputError)
    (manifest : ReasonOutputManifest) : ReasonOutputManifest :=
  let attempts := manifest.attempts + 1
  manifest.withUpdates (attempt.clock .failure)
    (if maxExportAttempts ≤ attempts then some .failed else none) none none (some attempts)
    (some (attempt.diagnostic operation_error)) (some (attempt.clock .failure))

def persistExportFailure (attempt : ExportAttempt) (operation_error : ReasonOutputError) :
    Export Nat := do
  -- read again: the attempt may have marked the job before it failed
  let manifest ← readManifest (attempt.reads .failure)
  let updated := failureManifest attempt operation_error manifest
  Interruptible.write (attempt.writes .failure) (JobDirectory.putManifest .failure updated)
  return updated.attempts

/-- What a wake-up asks of the scheduler when it ends. -/
inductive WakeUp where
  | nothing
  /-- A retry after this many failed attempts. -/
  | retry (attempts : Nat)
  | reconciliation
  deriving DecidableEq, Repr

/-- `_handle_composition_failure`, up to the task sink. -/
def handleCompositionFailure (attempt : ExportAttempt) (operation_error : ReasonOutputError) :
    Export WakeUp :=
  Interruptible.catching
    (do
      let attempts ← persistExportFailure attempt operation_error
      return if maxExportAttempts ≤ attempts then .nothing else .retry attempts)
    fun _ => return .reconciliation

/-- `process(message)` for the job of the directory, up to the task sink. -/
def process (service : ReasonOutputService) (thread_id job_id : String)
    (attempt : ExportAttempt) : Export WakeUp := do
  let inspection ← Interruptible.catching (inspectPendingExportJob attempt thread_id job_id)
    fun _ => return none
  match inspection with
  -- finished, or not to be read: both end the wake-up without another one
  | none => return .nothing
  | some _ =>
    Interruptible.catching
      (do
        let _ ← composeWithRunner service thread_id job_id attempt
        return .nothing)
      (handleCompositionFailure attempt)

/-- `recover()` on one directory of the workspace of `owner_id`. -/
def recoverJob (owner_id : String) (answer : Option ReasonOutputError) (d : JobDirectory) :
    Option JobMessage :=
  match (readManifest answer d).1 with
  | .returned manifest =>
    if manifest.status.terminal = true then none
    else
      some { job_id := manifest.job_id, resource_id := owner_id, data := .daemon_reconciliation }
  | _ => none

/-! ## The second half of an attempt -/

variable {service : ReasonOutputService} {thread_id job_id : String} {attempt : ExportAttempt}

/-- How the PDF script ends. -/
def PdfRun.outcome : PdfRun → Outcome ReasonOutputError Unit
  | .absent | .ran _ _ => .returned ()
  | .raised e => .raised e
  | .stopped => .stopped

/-- How the second half ends: as the first of its four steps that does not return. -/
def markOutcome (attempt : ExportAttempt) : Outcome ReasonOutputError Unit :=
  match (attempt.writes .manifest).outcome, (attempt.writes .progress).outcome,
      attempt.pdf.outcome with
  | .returned _, .returned _, .returned _ => (attempt.writes .pdfProgress).outcome
  | .returned _, .returned _, o => o
  | .returned _, o, _ => o
  | o, _, _ => o

/-- The last progress summary of the attempt is put in place. -/
def publishes (attempt : ExportAttempt) : Bool :=
  decide (attempt.writes .manifest = .written ∧ attempt.writes .progress = .written ∧
    attempt.pdf.outcome = .returned ()) && (attempt.writes .pdfProgress).lands

/-- What the progress summary is after the second half. -/
inductive ProgressAfter (attempt : ExportAttempt) (updated : ReasonOutputManifest)
    (chunks : List ReasonOutputChunk) (before : Option ReasonOutputProgress) :
    Option ReasonOutputProgress → Prop where
  | kept (h : publishes attempt = false) : ProgressAfter attempt updated chunks before before
  | pending (h : publishes attempt = false) : ProgressAfter attempt updated chunks before
      (some (composedProgress updated chunks .pending none updated.updated_at))
  | published (h : publishes attempt = true) (pdf_status : PdfStatus) (pdf_path : Option String)
      (hpdf : pdf_status ≠ .pending) : ProgressAfter attempt updated chunks before
      (some (composedProgress updated chunks pdf_status pdf_path (attempt.clock .pdfProgress)))

theorem generatePdf_run {d : JobDirectory} (hcombined : d.documents.contains "combined.md" = true) :
    (∃ path pdf, attempt.pdf.outcome = .returned () ∧
      generatePdf attempt d = (.returned path, { d with pdf := pdf })) ∨
    (∃ e, attempt.pdf.outcome = .raised e ∧ generatePdf attempt d = (.raised e, d)) ∨
    (attempt.pdf.outcome = .stopped ∧ generatePdf attempt d = (.stopped, d)) := by
  rw [generatePdf, Interruptible.get_bind, if_pos hcombined]
  cases attempt.pdf with
  | absent => exact Or.inl ⟨none, d.pdf, rfl, rfl⟩
  | ran succeeded creates => exact Or.inl ⟨_, d.pdf || creates, rfl, rfl⟩
  | raised e => exact Or.inr (Or.inl ⟨e, rfl, rfl⟩)
  | stopped => exact Or.inr (Or.inr ⟨rfl, rfl⟩)

/-- What the two progress summaries and the PDF leave: the manifest as it was. -/
theorem publishProgress_run {updated : ReasonOutputManifest} {chunks : List ReasonOutputChunk}
    {d : JobDirectory} (hcombined : d.documents.contains "combined.md" = true)
    (hmanifest : attempt.writes .manifest = .written) :
    (publishProgress attempt updated chunks d).1 = markOutcome attempt ∧
    (publishProgress attempt updated chunks d).2.manifest = d.manifest ∧
    (publishProgress attempt updated chunks d).2.updates = d.updates ∧
    ProgressAfter attempt updated chunks d.progress
      (publishProgress attempt updated chunks d).2.progress := by
  rw [publishProgress]
  cases hprogress : attempt.writes .progress with
  | refused e =>
    rw [Interruptible.raised_bind (Interruptible.write_refused e _ d)]
    refine ⟨by simp [markOutcome, hmanifest, hprogress, WriteAnswer.outcome], rfl, rfl, .kept ?_⟩
    simp [publishes, hprogress]
  | stopped =>
    rw [Interruptible.stopped_bind (Interruptible.write_stopped _ d)]
    refine ⟨by simp [markOutcome, hmanifest, hprogress, WriteAnswer.outcome], rfl, rfl, .kept ?_⟩
    simp [publishes, hprogress]
  | unsynced e =>
    rw [Interruptible.raised_bind (Interruptible.write_unsynced e _ d)]
    refine ⟨by simp [markOutcome, hmanifest, hprogress, WriteAnswer.outcome], rfl, rfl, .pending ?_⟩
    simp [publishes, hprogress]
  | written =>
    rw [Interruptible.returned_bind (Interruptible.write_written _ d)]
    have hpdf := @generatePdf_run attempt
      (d.putProgress (composedProgress updated chunks .pending none updated.updated_at)) hcombined
    rcases hpdf with ⟨path, pdf, hout, hrun⟩ | ⟨e, hout, hrun⟩ | ⟨hout, hrun⟩
    · rw [Interruptible.returned_bind hrun, Interruptible.get_bind]
      have hout' : markOutcome attempt = (attempt.writes .pdfProgress).outcome := by
        simp [markOutcome, hmanifest, hprogress, hout, WriteAnswer.outcome]
      have hstatus : ∀ path : Option String,
          (if path.isSome = true then PdfStatus.generated else PdfStatus.failed) ≠ .pending := by
        intro path
        split <;> decide
      simp only [Interruptible.write]
      cases hlands : (attempt.writes .pdfProgress).lands with
      | true =>
        refine ⟨hout'.symm, rfl, rfl, .published ?_ _ _ (hstatus _)⟩
        simp [publishes, hmanifest, hprogress, hout, hlands]
      | false =>
        refine ⟨hout'.symm, rfl, rfl, .pending ?_⟩
        simp [publishes, hlands]
    · rw [Interruptible.raised_bind hrun]
      refine ⟨by simp [markOutcome, hmanifest, hprogress, hout, WriteAnswer.outcome], rfl, rfl,
        .pending ?_⟩
      simp [publishes, hout]
    · rw [Interruptible.stopped_bind hrun]
      refine ⟨by simp [markOutcome, hmanifest, hprogress, hout, WriteAnswer.outcome], rfl, rfl,
        .pending ?_⟩
      simp [publishes, hout]

/-- **The second half**: it ends as `markOutcome` says; if the manifest does not land nothing has
    changed, and if it does the manifest is the marked one and the progress follows. -/
theorem markComplete_run {updated : ReasonOutputManifest} {chunks : List ReasonOutputChunk}
    {d : JobDirectory} (hcombined : d.documents.contains "combined.md" = true) :
    ((markComplete attempt updated chunks d).1 = match markOutcome attempt with
      | .returned _ => .returned updated
      | .raised e => .raised e
      | .stopped => .stopped) ∧
    ((attempt.writes .manifest).lands = false → (markComplete attempt updated chunks d).2 = d) ∧
    ((attempt.writes .manifest).lands = true →
      (markComplete attempt updated chunks d).2.manifest = some updated ∧
      (markComplete attempt updated chunks d).2.updates = d.updates ++ [(.composed, updated)] ∧
      ProgressAfter attempt updated chunks d.progress
        (markComplete attempt updated chunks d).2.progress) := by
  rw [markComplete]
  cases hmanifest : attempt.writes .manifest with
  | refused e =>
    rw [Interruptible.raised_bind (Interruptible.write_refused e _ d)]
    refine ⟨by simp [markOutcome, hmanifest, WriteAnswer.outcome], fun _ => rfl, ?_⟩
    intro h
    cases h
  | stopped =>
    rw [Interruptible.stopped_bind (Interruptible.write_stopped _ d)]
    refine ⟨by simp [markOutcome, hmanifest, WriteAnswer.outcome], fun _ => rfl, ?_⟩
    intro h
    cases h
  | unsynced e =>
    rw [Interruptible.raised_bind (Interruptible.write_unsynced e _ d)]
    refine ⟨by simp [markOutcome, hmanifest, WriteAnswer.outcome], fun h => (by cases h),
      fun _ => ⟨rfl, rfl, .kept ?_⟩⟩
    simp [publishes, hmanifest]
  | written =>
    rw [Interruptible.returned_bind (Interruptible.write_written _ d)]
    have hpublish := @publishProgress_run attempt updated chunks (d.putManifest .composed updated)
      hcombined hmanifest
    obtain ⟨hout, hm, hupdates, hprogress⟩ := hpublish
    cases hrun : publishProgress attempt updated chunks (d.putManifest .composed updated) with
    | mk o d' =>
      rw [hrun] at hout hm hupdates hprogress
      subst hout
      refine ⟨?_, fun h => (by cases h), fun _ => ?_⟩
      · rw [Interruptible.bind_run, hrun]
        cases markOutcome attempt <;> rfl
      · have hafter : ((publishProgress attempt updated chunks >>= fun _ => pure updated)
            (d.putManifest .composed updated)).2 = d' := by
          rw [Interruptible.bind_run, hrun]
          cases markOutcome attempt <;> rfl
        rw [hafter]
        exact ⟨hm, hupdates, hprogress⟩

/-! ## One composition, as the manifest sees it -/

/-- The attempt gets as far as putting the completed manifest in place. -/
def Marks (thread_id job_id : String) (attempt : ExportAttempt) (d : JobDirectory)
    (manifest : ReasonOutputManifest) : Prop :=
  Composable thread_id job_id attempt d manifest ∧ (attempt.writes .manifest).lands = true

/-- What an attempt that marks the job leaves of its records. -/
structure Marked (attempt : ExportAttempt) (d : JobDirectory) (manifest : ReasonOutputManifest)
    (updated : ReasonOutputManifest) (d' : JobDirectory) : Prop where
  decodes : updated.decodes = true
  identity : updated.job_id = manifest.job_id ∧ updated.thread_id = manifest.thread_id
  complete : updated.status = .complete
  attempts : updated.attempts = manifest.attempts
  stored : d'.manifest = some updated
  updates : d'.updates = d.updates ++ [(.composed, updated)]
  progress : ProgressAfter attempt updated updated.chunks d.progress d'.progress

/-- **One composition**: either the records are untouched and it did not return, or the job is
    marked and it ends as the second half does.  The second happens exactly when it `Marks`. -/
theorem compose_cases (service : ReasonOutputService) (thread_id job_id : String)
    (attempt : ExportAttempt) {d : JobDirectory} {manifest : ReasonOutputManifest}
    (hstored : d.manifest = some manifest) :
    (¬ Marks thread_id job_id attempt d manifest ∧
      (composeWithRunner service thread_id job_id attempt d).2.records = d.records ∧
      ((composeWithRunner service thread_id job_id attempt d).1 = .stopped ∨
        ∃ e, (composeWithRunner service thread_id job_id attempt d).1 = .raised e)) ∨
    (Marks thread_id job_id attempt d manifest ∧
      ∃ updated, Marked attempt d manifest updated
          (composeWithRunner service thread_id job_id attempt d).2 ∧
        (composeWithRunner service thread_id job_id attempt d).1 = match markOutcome attempt with
          | .returned _ => .returned updated
          | .raised e => .raised e
          | .stopped => .stopped) := by
  have hiff := @composeDocuments_returns_iff service thread_id job_id attempt d
  have hrecords := @records_composeDocuments service thread_id job_id attempt d
  rw [composeWithRunner_eq, Interruptible.bind_run]
  cases hrun : composeDocuments service thread_id job_id attempt d with
  | mk o d₁ =>
    rw [hrun] at hiff hrecords
    have hnot : (∀ p, o ≠ .returned p) → ¬ Marks thread_id job_id attempt d manifest := by
      rintro ho ⟨hcomposable, -⟩
      obtain ⟨p, d', h⟩ := hiff.mpr ⟨manifest, hcomposable⟩
      rw [Prod.mk.injEq] at h
      exact ho p h.1
    cases o with
    | raised e => exact Or.inl ⟨hnot fun p h => (by cases h), hrecords, Or.inr ⟨e, rfl⟩⟩
    | stopped => exact Or.inl ⟨hnot fun p h => (by cases h), hrecords, Or.inl rfl⟩
    | returned p =>
      obtain ⟨manifest', topic, steps, selected, section_plan, batches, chunks, d₀, text, h, rfl,
        rfl⟩ := composeDocuments_returned_iff.mp hrun
      have hcomposable := h.composable
      obtain rfl : manifest' = manifest := by
        have hsame := hcomposable.stored
        rw [hstored, Option.some.injEq] at hsame
        exact hsame.symm
      have hcombined : (JobDirectory.putDocument "combined.md" text d₀).documents.contains
          "combined.md" = true := by
        simp [JobDirectory.putDocument, Table.contains]
      obtain ⟨hout, hkept, hlanded⟩ := @markComplete_run attempt
        (composedManifest attempt manifest' chunks section_plan) chunks _ hcombined
      cases hlands : (attempt.writes .manifest).lands with
      | false =>
        refine Or.inl ⟨fun hm => ?_, ?_, ?_⟩
        · rw [Marks, hlands] at hm
          cases hm.2
        · show (markComplete _ _ _ _).2.records = _
          rw [hkept hlands]
          exact hrecords
        · show (markComplete _ _ _ _).1 = _ ∨ _
          rw [hout]
          unfold markOutcome
          cases hwrite : attempt.writes .manifest with
          | written => rw [hwrite] at hlands; cases hlands
          | unsynced e => rw [hwrite] at hlands; cases hlands
          | refused e => exact Or.inr ⟨e, rfl⟩
          | stopped => exact Or.inl rfl
      | true =>
        obtain ⟨hstored', hupdates, hprogress⟩ := hlanded hlands
        obtain ⟨-, hprogress₀, hupdates₀⟩ := records_eq hrecords
        rw [hupdates₀] at hupdates
        rw [hprogress₀] at hprogress
        exact Or.inr ⟨⟨hcomposable, hlands⟩, _,
          ⟨h.decodes, ⟨rfl, rfl⟩, rfl, rfl, hstored', hupdates, hprogress⟩, hout⟩

/-! ## One wake-up -/

/-- The job is waiting to be composed, and its manifest is this one. -/
structure Pending (thread_id job_id : String) (d : JobDirectory)
    (manifest : ReasonOutputManifest) : Prop where
  stored : d.manifest = some manifest
  decodes : manifest.decodes = true
  identity : manifest.job_id = job_id ∧ manifest.thread_id = thread_id
  planned : manifest.status = .planned

/-- The failure of an attempt gets into the manifest. -/
def persists (attempt : ExportAttempt) : Bool :=
  (attempt.reads .failure).isNone && (attempt.writes .failure).lands

/-- What the handler of a failure asks for, after `attempts` failures with this one. -/
def failureWakeUp (attempt : ExportAttempt) (attempts : Nat) : Outcome ReasonOutputError WakeUp :=
  match attempt.reads .failure, attempt.writes .failure with
  | none, .written => .returned (if maxExportAttempts ≤ attempts then .nothing else .retry attempts)
  | none, .stopped => .stopped
  | _, _ => .returned .reconciliation

/-- **Counting a failure**: the manifest is updated exactly when it can be read and its write
    lands. -/
theorem handleCompositionFailure_run {d : JobDirectory} {manifest : ReasonOutputManifest}
    (hstored : d.manifest = some manifest) (hdecodes : manifest.decodes = true)
    (operation_error : ReasonOutputError) :
    handleCompositionFailure attempt operation_error d =
      (failureWakeUp attempt (manifest.attempts + 1),
        if persists attempt = true then
          d.putManifest .failure (failureManifest attempt operation_error manifest)
        else d) := by
  unfold handleCompositionFailure persistExportFailure failureWakeUp persists
  cases hread : attempt.reads .failure with
  | some e =>
    have hmissing : readManifest (some e) d = (.raised e, d) := by
      rw [readManifest, Interruptible.get_bind]
      rfl
    rw [bind_assoc, Interruptible.catching_raised (Interruptible.raised_bind hmissing)]
    rfl
  | none =>
    have hmanifest : readManifest none d = (.returned manifest, d) :=
      readManifest_returned_iff.mpr ⟨rfl, hstored, hdecodes, rfl⟩
    rw [bind_assoc]
    unfold Interruptible.catching
    rw [Interruptible.returned_bind hmanifest]
    cases attempt.writes .failure <;> rfl

/-- **The inspection**: it lets through the job whose pending manifest can be read, whatever the
    progress summary is, and it changes nothing. -/
theorem inspect_cases (attempt : ExportAttempt) (thread_id job_id : String) (d : JobDirectory) :
    (attempt.reads .inspect = none ∧ (∃ m, Pending thread_id job_id d m) ∧
      ∃ i, inspectPendingExportJob attempt thread_id job_id d = (.returned (some i), d)) ∨
    (¬ (attempt.reads .inspect = none ∧ ∃ m, Pending thread_id job_id d m) ∧
      (inspectPendingExportJob attempt thread_id job_id d = (.returned none, d) ∨
        ∃ e, inspectPendingExportJob attempt thread_id job_id d = (.raised e, d))) := by
  rcases readManifest_cases (attempt.reads .inspect) d with ⟨m, hread⟩ | ⟨e, hread⟩
  · obtain ⟨hnone, hstored, hdecodes, -⟩ := readManifest_returned_iff.mp hread
    have hother : ∀ m', Pending thread_id job_id d m' → m' = m := by
      intro m' h
      have hsame := h.stored
      rw [hstored, Option.some.injEq] at hsame
      exact hsame.symm
    rw [inspectPendingExportJob, Interruptible.returned_bind hread]
    by_cases hidentity : m.job_id ≠ job_id ∨ m.thread_id ≠ thread_id
    · rw [if_pos hidentity]
      refine Or.inr ⟨?_, Or.inr ⟨_, rfl⟩⟩
      rintro ⟨-, m', h⟩
      obtain rfl := hother m' h
      rcases hidentity with hne | hne
      · exact hne h.identity.1
      · exact hne h.identity.2
    · rw [if_neg hidentity]
      rw [not_or, not_not, not_not] at hidentity
      by_cases hterminal : m.status.terminal = true
      · rw [if_pos hterminal]
        refine Or.inr ⟨?_, Or.inl rfl⟩
        rintro ⟨-, m', h⟩
        obtain rfl := hother m' h
        rw [h.planned] at hterminal
        cases hterminal
      · rw [if_neg hterminal, Interruptible.get_bind]
        have hplanned : m.status = .planned := by
          cases hstatus : m.status with
          | planned => rfl
          | complete => rw [hstatus] at hterminal; exact absurd rfl hterminal
          | failed => rw [hstatus] at hterminal; exact absurd rfl hterminal
        refine Or.inl ⟨hnone, ⟨m, hstored, hdecodes, hidentity, hplanned⟩, ?_⟩
        cases readProgress (attempt.reads .progress) m d with
        | error e => cases e <;> exact ⟨_, rfl⟩
        | ok p =>
          by_cases hp : p.job_id ≠ job_id ∨ p.thread_id ≠ thread_id
          · exact ⟨_, by simp only [if_pos hp]; rfl⟩
          · exact ⟨_, by simp only [if_neg hp]; rfl⟩
  · rw [inspectPendingExportJob, Interruptible.raised_bind hread]
    refine Or.inr ⟨?_, Or.inr ⟨e, rfl⟩⟩
    rintro ⟨hnone, m, h⟩
    rw [readManifest_returned_iff.mpr ⟨hnone, h.stored, h.decodes, rfl⟩] at hread
    cases hread

/-- **A job that is not waiting is left alone.** -/
theorem process_idle {d : JobDirectory}
    (h : ¬ (attempt.reads .inspect = none ∧ ∃ m, Pending thread_id job_id d m)) :
    process service thread_id job_id attempt d = (.returned .nothing, d) := by
  rcases inspect_cases attempt thread_id job_id d with ⟨hread, hm, -⟩ | ⟨-, hrun | ⟨e, hrun⟩⟩
  · exact absurd ⟨hread, hm⟩ h
  · rw [process, Interruptible.returned_bind (Interruptible.catching_returned hrun)]
    rfl
  · have hcaught : Interruptible.catching (inspectPendingExportJob attempt thread_id job_id)
        (fun _ => return none) d = (.returned none, d) := by
      rw [Interruptible.catching_raised hrun]
      rfl
    rw [process, Interruptible.returned_bind hcaught]
    rfl

/-- **A job that is waiting is composed**, and a failure is handled. -/
theorem process_pending {d : JobDirectory} (hread : attempt.reads .inspect = none)
    {m : ReasonOutputManifest} (h : Pending thread_id job_id d m) :
    process service thread_id job_id attempt d =
      match composeWithRunner service thread_id job_id attempt d with
      | (.returned _, d') => (.returned .nothing, d')
      | (.raised e, d') => handleCompositionFailure attempt e d'
      | (.stopped, d') => (.stopped, d') := by
  rcases inspect_cases attempt thread_id job_id d with ⟨-, -, i, hrun⟩ | ⟨hnot, -⟩
  · rw [process, Interruptible.returned_bind (Interruptible.catching_returned hrun)]
    simp only [Interruptible.catching, Interruptible.bind_run]
    rcases composeWithRunner service thread_id job_id attempt d with ⟨o, d'⟩
    cases o <;> rfl
  · exact absurd ⟨hread, m, h⟩ hnot

/-- The manifest of a failed attempt: one failure more, and failed with the last of them. -/
theorem failureManifest_attempts (attempt : ExportAttempt) (e : ReasonOutputError)
    (m : ReasonOutputManifest) : (failureManifest attempt e m).attempts = m.attempts + 1 := rfl

theorem failureManifest_status (attempt : ExportAttempt) (e : ReasonOutputError)
    (m : ReasonOutputManifest) : (failureManifest attempt e m).status =
      if maxExportAttempts ≤ m.attempts + 1 then .failed else m.status := by
  show (if maxExportAttempts ≤ m.attempts + 1 then some ReasonOutputStatus.failed
    else none).getD m.status = _
  split <;> rfl

/-- The failure that is counted came after the job was marked complete. -/
def CountsAfterMark (attempt : ExportAttempt) : Prop :=
  (∃ e, markOutcome attempt = .raised e) ∧ persists attempt = true

/-- **What a wake-up does to a waiting job.**  Before the manifest is marked the attempt may keep
    the records, or count a failure.  Once it is marked, a failure may be counted on top. -/
inductive Processed (thread_id job_id : String) (attempt : ExportAttempt) (d : JobDirectory)
    (m : ReasonOutputManifest) : Outcome ReasonOutputError WakeUp → JobDirectory → Prop where
  | kept {o : Outcome ReasonOutputError WakeUp} {d' : JobDirectory}
      (hmarks : ¬ Marks thread_id job_id attempt d m) (hrecords : d'.records = d.records)
      (ho : o = .stopped ∨
        o = failureWakeUp attempt (m.attempts + 1) ∧ persists attempt = false) :
      Processed thread_id job_id attempt d m o d'
  | counted {o : Outcome ReasonOutputError WakeUp} {d' : JobDirectory} (e : ReasonOutputError)
      (d₁ : JobDirectory) (hmarks : ¬ Marks thread_id job_id attempt d m)
      (hrecords : d₁.records = d.records) (hpersists : persists attempt = true)
      (ho : o = failureWakeUp attempt (m.attempts + 1))
      (hd : d' = d₁.putManifest .failure (failureManifest attempt e m)) :
      Processed thread_id job_id attempt d m o d'
  | marked {o : Outcome ReasonOutputError WakeUp} {d' : JobDirectory}
      (updated : ReasonOutputManifest) (hmarks : Marks thread_id job_id attempt d m)
      (hmarked : Marked attempt d m updated d') (hcounts : ¬ CountsAfterMark attempt)
      (ho : o = .returned .nothing ∨ o = .stopped ∨
        o = failureWakeUp attempt (m.attempts + 1) ∧ persists attempt = false) :
      Processed thread_id job_id attempt d m o d'
  | overturned {o : Outcome ReasonOutputError WakeUp} {d' : JobDirectory} (e : ReasonOutputError)
      (d₁ : JobDirectory) (updated : ReasonOutputManifest)
      (hmarks : Marks thread_id job_id attempt d m) (hmarked : Marked attempt d m updated d₁)
      (hcounts : CountsAfterMark attempt) (ho : o = failureWakeUp attempt (m.attempts + 1))
      (hd : d' = d₁.putManifest .failure (failureManifest attempt e updated)) :
      Processed thread_id job_id attempt d m o d'

theorem process_cases (service : ReasonOutputService) {d : JobDirectory}
    (hread : attempt.reads .inspect = none) {m : ReasonOutputManifest}
    (h : Pending thread_id job_id d m) : Processed thread_id job_id attempt d m
      (process service thread_id job_id attempt d).1
      (process service thread_id job_id attempt d).2 := by
  rw [process_pending hread h]
  have hcompose := compose_cases service thread_id job_id attempt h.stored
  cases hrun : composeWithRunner service thread_id job_id attempt d with
  | mk o d₁ =>
    rw [hrun] at hcompose
    rcases hcompose with ⟨hmarks, hrecords, ho | ⟨e, ho⟩⟩ | ⟨hmarks, updated, hmarked, ho⟩
    · obtain rfl : o = .stopped := ho
      exact .kept hmarks hrecords (Or.inl rfl)
    · obtain rfl : o = .raised e := ho
      have hstored : d₁.manifest = some m := by
        have hmanifest := congrArg Prod.fst hrecords
        exact hmanifest.trans h.stored
      simp only [handleCompositionFailure_run hstored h.decodes]
      cases hpersists : persists attempt with
      | true => exact .counted e d₁ hmarks hrecords hpersists rfl rfl
      | false => exact .kept hmarks hrecords (Or.inr ⟨rfl, hpersists⟩)
    · cases hmark : markOutcome attempt with
      | returned u =>
        rw [hmark] at ho
        obtain rfl : o = .returned updated := ho
        refine .marked updated hmarks hmarked ?_ (Or.inl rfl)
        rintro ⟨⟨e, he⟩, -⟩
        rw [hmark] at he
        cases he
      | stopped =>
        rw [hmark] at ho
        obtain rfl : o = .stopped := ho
        refine .marked updated hmarks hmarked ?_ (Or.inr (Or.inl rfl))
        rintro ⟨⟨e, he⟩, -⟩
        rw [hmark] at he
        cases he
      | raised e =>
        rw [hmark] at ho
        obtain rfl : o = .raised e := ho
        simp only [handleCompositionFailure_run hmarked.stored hmarked.decodes]
        rw [hmarked.attempts]
        cases hpersists : persists attempt with
        | true =>
          exact .overturned e d₁ updated hmarks hmarked ⟨⟨e, hmark⟩, hpersists⟩ rfl rfl
        | false =>
          refine .marked updated hmarks hmarked ?_ (Or.inr (Or.inr ⟨rfl, hpersists⟩))
          rintro ⟨-, hp⟩
          rw [hpersists] at hp
          cases hp

/-- A failure that is not counted asks for a reconciliation, unless the process stops. -/
theorem failureWakeUp_of_lost (hpersists : persists attempt = false) (n : Nat) :
    failureWakeUp attempt n = .returned .reconciliation ∨ failureWakeUp attempt n = .stopped := by
  unfold failureWakeUp
  unfold persists at hpersists
  cases hread : attempt.reads .failure with
  | some e => exact Or.inl rfl
  | none =>
    cases hwrite : attempt.writes .failure with
    | written =>
      rw [hread, hwrite] at hpersists
      cases hpersists
    | refused e => exact Or.inl rfl
    | unsynced e => exact Or.inl rfl
    | stopped => exact Or.inr rfl

/-- A failure that is counted asks for the retry after it, or, where the write has failed all the
    same, for a reconciliation. -/
theorem failureWakeUp_of_counted (hpersists : persists attempt = true) (n : Nat) :
    (attempt.writes .failure = .written ∧ failureWakeUp attempt n =
      .returned (if maxExportAttempts ≤ n then .nothing else .retry n)) ∨
    (attempt.writes .failure ≠ .written ∧
      failureWakeUp attempt n = .returned .reconciliation) := by
  unfold failureWakeUp
  unfold persists at hpersists
  cases hread : attempt.reads .failure with
  | some e =>
    rw [hread] at hpersists
    cases hpersists
  | none =>
    cases hwrite : attempt.writes .failure with
    | written => exact Or.inl ⟨rfl, rfl⟩
    | unsynced e => exact Or.inr ⟨nofun, rfl⟩
    | refused e =>
      rw [hread, hwrite] at hpersists
      cases hpersists
    | stopped =>
      rw [hread, hwrite] at hpersists
      cases hpersists

/-! ## Runs of one job -/

/-- What happens to a job: a wake-up is processed, or the daemon starts and looks for work. -/
inductive ExportInput where
  | process (attempt : ExportAttempt)
  | recover (answer : Option ReasonOutputError)

/-- What comes of it for the scheduler. -/
inductive ExportOutput where
  | processed (outcome : Outcome ReasonOutputError WakeUp)
  | recovered (message : Option JobMessage)

/-- One happening. -/
def exportStep (service : ReasonOutputService) (thread_id job_id : String) (d : JobDirectory) :
    ExportInput → JobDirectory × ExportOutput
  | .process attempt =>
    let (outcome, d') := process service thread_id job_id attempt d
    (d', .processed outcome)
  | .recover answer => (d, .recovered (recoverJob thread_id answer d))

/-! ## A small job -/

/-- One step of one thread, to be exported as one chapter. -/
def tidesSelection : PlanSelection where
  thread := ⟨"reason-1", "Tides"⟩
  selected := [⟨"step-1", "The moon pulls"⟩]
  mode := .narrative
  output_format := .markdown
  start_index := 0
  end_index := none
  segment_size := 5

def tidesSections : List ReasonOutputSection :=
  [{ index := 0, title := "Chapter 1", focus := "All of it", step_ids := ["step-1"]
     source_start_index := 0, source_end_index := 0, summary := "The moon pulls"
     created_at := "now" }]

def tidesDirectory : JobDirectory :=
  plannedDirectory "root" (plannedManifest tidesSelection tidesSections "job-1" "now")

/-- An attempt at the small job, with these writes and this runner. -/
def tidesAttempt (writes : ExportWrite → WriteAnswer ReasonOutputError)
    (runner : Nat → Outcome ReasonOutputError String) : ExportAttempt :=
  { uninterrupted "Tides" tidesSelection.selected fun _ => "" with
    writes := writes
    runner := runner }

/-- The runner has no model to ask. -/
def silentAttempt : ExportAttempt :=
  tidesAttempt (fun _ => .written) fun _ => .raised (.other "no model")

/-- The progress of the composed job cannot be written. -/
def lateAttempt : ExportAttempt :=
  tidesAttempt (fun w => if w = .progress then .refused (.other "disk full") else .written)
    fun _ => .returned "The sea rises."

end NuSelf.Reason
