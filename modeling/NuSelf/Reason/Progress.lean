/-
  The progress summary of an export after crashes.

  `manifest.json` is the source of truth and `progress.json` a summary that is written after it.
  Recovery looks at the manifest alone, so a job whose manifest is complete or failed is never
  looked at again, whatever its summary says.  The summary `agrees` with the manifest when it has
  its status, as many completed chunks as the job has, and a PDF status that is settled.

  1. `agrees_of_clean`, `not_agrees_of_unclean` — one wake-up of a waiting job.
  2. `progress_agrees_iff` — at the end of a run, in particular of one that has left no work, the
     summary agrees exactly when some wake-up `CompletesCleanly`: the attempt that marks the job
     also puts its last summary in place, and is not counted as the fifth failure.
-/
import NuSelf.Lib.Run
import NuSelf.Reason.Export

namespace NuSelf.Reason

open NuSelf.Lib

/-- The progress summary agrees with the manifest. -/
def agrees (d : JobDirectory) : Bool :=
  match d.manifest, d.progress with
  | some m, some p =>
    decide (p.status = m.status) &&
      (decide (m.status ≠ .complete) || decide (p.completed_chunks.length = m.chunks.length)) &&
      decide (p.pdf_status ≠ .pending)
  | _, _ => false

/-- The wake-up completes the job and publishes its progress: it marks the job, puts the last
    summary in place, and no failure after that makes the job failed. -/
def CompletesCleanly (thread_id job_id : String) (d : JobDirectory) : ExportInput → Prop
  | .process attempt => attempt.reads .inspect = none ∧
      ∃ m, Pending thread_id job_id d m ∧ Marks thread_id job_id attempt d m ∧
        publishes attempt = true ∧
        ¬ (maxExportAttempts ≤ m.attempts + 1 ∧ CountsAfterMark attempt)
  | .recover _ => False

/-! ## One wake-up -/

variable {service : ReasonOutputService} {thread_id job_id : String}

/-- The job is planned, and no summary says that its PDF is settled. -/
structure Waiting (d : JobDirectory) : Prop where
  planned : ∃ m, d.manifest = some m ∧ m.status = .planned
  unsettled : ∀ p, d.progress = some p → p.pdf_status = .pending

/-- The job is complete or failed. -/
def Done (d : JobDirectory) : Prop := ∃ m, d.manifest = some m ∧ m.status.terminal = true

theorem not_agrees_of_unsettled {d : JobDirectory}
    (h : ∀ p, d.progress = some p → p.pdf_status = .pending) : agrees d = false := by
  unfold agrees
  split
  · rename_i m p hm hp
    simp [h p hp]
  · rfl

theorem unsettled_of_marked {attempt : ExportAttempt} {d d' : JobDirectory}
    {m updated : ReasonOutputManifest} (h : Marked attempt d m updated d')
    (hbefore : ∀ p, d.progress = some p → p.pdf_status = .pending)
    (hpublishes : publishes attempt = false) :
    ∀ p, d'.progress = some p → p.pdf_status = .pending := by
  have hprogress := h.progress
  generalize d.progress = before at hprogress hbefore
  generalize d'.progress = after at hprogress ⊢
  cases hprogress with
  | kept hnot => exact hbefore
  | pending hnot =>
    intro p hp
    cases hp
    rfl
  | published hyes pdf_status pdf_path hpdf =>
    rw [hyes] at hpublishes
    cases hpublishes

theorem published_of_marked {attempt : ExportAttempt} {d d' : JobDirectory}
    {m updated : ReasonOutputManifest} (h : Marked attempt d m updated d')
    (hpublishes : publishes attempt = true) :
    ∃ p, d'.progress = some p ∧ p.status = .complete ∧
      p.completed_chunks.length = updated.chunks.length ∧ p.pdf_status ≠ .pending := by
  have hprogress := h.progress
  generalize d.progress = before at hprogress
  generalize d'.progress = after at hprogress ⊢
  cases hprogress with
  | kept hnot =>
    rw [hnot] at hpublishes
    cases hpublishes
  | pending hnot =>
    rw [hnot] at hpublishes
    cases hpublishes
  | published hyes pdf_status pdf_path hpdf =>
    exact ⟨_, rfl, h.complete, List.length_map _, hpdf⟩

theorem agrees_iff {d : JobDirectory} {m : ReasonOutputManifest} {p : ReasonOutputProgress}
    (hm : d.manifest = some m) (hp : d.progress = some p) : agrees d = true ↔
      p.status = m.status ∧
        (m.status = .complete → p.completed_chunks.length = m.chunks.length) ∧
        p.pdf_status ≠ .pending := by
  unfold agrees
  rw [hm, hp]
  simp only [Bool.and_eq_true, Bool.or_eq_true, decide_eq_true_eq, and_assoc]
  rw [imp_iff_not_or]

/-- A wake-up that completes the job cleanly leaves it done, with a summary that agrees. -/
theorem agrees_of_clean {d : JobDirectory} {attempt : ExportAttempt}
    (h : CompletesCleanly thread_id job_id d (.process attempt)) :
    Done (process service thread_id job_id attempt d).2 ∧
      agrees (process service thread_id job_id attempt d).2 = true := by
  obtain ⟨hread, m, hm, hmarks, hpublishes, hover⟩ := h
  cases process_cases service hread hm with
  | kept hnot hrecords ho => exact absurd hmarks hnot
  | counted e d₁ hnot hrecords hpersists ho hd => exact absurd hmarks hnot
  | marked updated hmarks hmarked hcounts ho =>
    obtain ⟨p, hp, hstatus, hchunks, hpdf⟩ := published_of_marked hmarked hpublishes
    refine ⟨⟨updated, hmarked.stored, ?_⟩, (agrees_iff hmarked.stored hp).mpr ⟨?_, ?_, hpdf⟩⟩
    · rw [hmarked.complete]
      rfl
    · rw [hstatus, hmarked.complete]
    · exact fun _ => hchunks
  | overturned e d₁ updated hmarks hmarked hcounts ho hd =>
    obtain ⟨p, hp, hstatus, hchunks, hpdf⟩ := published_of_marked hmarked hpublishes
    -- the failure that is counted is not the last one
    have hkept : (failureManifest attempt e updated).status = .complete := by
      rw [failureManifest_status, hmarked.attempts, hmarked.complete,
        if_neg fun hlast => hover ⟨hlast, hcounts⟩]
    have hput : (d₁.putManifest .failure (failureManifest attempt e updated)).progress = some p :=
      hp
    rw [hd]
    refine ⟨⟨_, rfl, ?_⟩, (agrees_iff rfl hput).mpr ⟨?_, ?_, hpdf⟩⟩
    · rw [hkept]
      rfl
    · rw [hstatus, hkept]
    · exact fun _ => hchunks

/-- Any other wake-up of a waiting job leaves it waiting, or done with a summary that does not
    agree. -/
theorem not_agrees_of_unclean {d : JobDirectory} (hwaiting : Waiting d) {attempt : ExportAttempt}
    (h : ¬ CompletesCleanly thread_id job_id d (.process attempt)) :
    Waiting (process service thread_id job_id attempt d).2 ∨
      Done (process service thread_id job_id attempt d).2 ∧
        agrees (process service thread_id job_id attempt d).2 = false := by
  by_cases hpending : attempt.reads .inspect = none ∧ ∃ m, Pending thread_id job_id d m
  · obtain ⟨hread, m, hm⟩ := hpending
    have hunclean : Marks thread_id job_id attempt d m → publishes attempt = true →
        maxExportAttempts ≤ m.attempts + 1 ∧ CountsAfterMark attempt := by
      intro hmarks hpublishes
      by_contra hover
      exact h ⟨hread, m, hm, hmarks, hpublishes, hover⟩
    cases process_cases service hread hm with
    | kept hnot hrecords ho =>
      obtain ⟨hmanifest, hprogress, -⟩ := records_eq hrecords
      refine Or.inl ⟨⟨m, hmanifest.trans hm.stored, hm.planned⟩, ?_⟩
      rw [hprogress]
      exact hwaiting.unsettled
    | counted e d₁ hnot hrecords hpersists ho hd =>
      obtain ⟨-, hprogress, -⟩ := records_eq hrecords
      have hunsettled : ∀ p, d₁.progress = some p → p.pdf_status = .pending := by
        rw [hprogress]
        exact hwaiting.unsettled
      rw [hd]
      by_cases hlast : maxExportAttempts ≤ m.attempts + 1
      · refine Or.inr ⟨⟨_, rfl, ?_⟩, not_agrees_of_unsettled hunsettled⟩
        rw [failureManifest_status, if_pos hlast]
        rfl
      · refine Or.inl ⟨⟨_, rfl, ?_⟩, hunsettled⟩
        rw [failureManifest_status, if_neg hlast, hm.planned]
    | marked updated hmarks hmarked hcounts ho =>
      have hdone : Done (process service thread_id job_id attempt d).2 :=
        ⟨updated, hmarked.stored, by rw [hmarked.complete]; rfl⟩
      have hpublishes : publishes attempt = false := by
        rw [← Bool.not_eq_true]
        exact fun hp => hcounts (hunclean hmarks hp).2
      exact Or.inr ⟨hdone, not_agrees_of_unsettled
        (unsettled_of_marked hmarked hwaiting.unsettled hpublishes)⟩
    | overturned e d₁ updated hmarks hmarked hcounts ho hd =>
      rw [hd]
      refine Or.inr ⟨⟨_, rfl, ?_⟩, ?_⟩
      · rw [failureManifest_status, hmarked.complete]
        split <;> rfl
      · cases hpublishes : publishes attempt with
        | false =>
          have hunsettled := unsettled_of_marked hmarked hwaiting.unsettled hpublishes
          exact not_agrees_of_unsettled hunsettled
        | true =>
          obtain ⟨p, hp, hstatus, -, -⟩ := published_of_marked hmarked hpublishes
          have hfailed : (failureManifest attempt e updated).status = .failed := by
            rw [failureManifest_status, hmarked.attempts, if_pos (hunclean hmarks hpublishes).1]
          have hput : (d₁.putManifest .failure (failureManifest attempt e updated)).progress =
              some p := hp
          rw [← Bool.not_eq_true, agrees_iff rfl hput, hstatus, hfailed]
          exact fun hagrees => nomatch hagrees.1
  · rw [process_idle hpending]
    exact Or.inl hwaiting

theorem done_step {d : JobDirectory} (h : Done d) (i : ExportInput) :
    (exportStep service thread_id job_id d i).1 = d ∧ ¬ CompletesCleanly thread_id job_id d i := by
  cases i with
  | recover answer => exact ⟨rfl, id⟩
  | process attempt =>
    obtain ⟨m, hm, hterminal⟩ := h
    have hnot : ¬ (attempt.reads .inspect = none ∧ ∃ m, Pending thread_id job_id d m) := by
      rintro ⟨-, m', hm'⟩
      have hsame := hm'.stored
      rw [hm, Option.some.injEq] at hsame
      rw [hsame, hm'.planned] at hterminal
      cases hterminal
    constructor
    · show (process service thread_id job_id attempt d).2 = d
      rw [process_idle hnot]
    · rintro ⟨hread, m', hm', -⟩
      exact hnot ⟨hread, m', hm'⟩

/-! ## Whole runs -/

theorem done_run {d : JobDirectory} (h : Done d) : ∀ inputs : List ExportInput,
    final (exportStep service thread_id job_id) d inputs = d ∧
      ∀ e ∈ run (exportStep service thread_id job_id) d inputs,
        ¬ CompletesCleanly thread_id job_id e.before e.input
  | [] => ⟨rfl, fun _ he => nomatch he⟩
  | i :: inputs => by
    obtain ⟨hsame, hnot⟩ := @done_step service thread_id job_id d h i
    have hrest := done_run h inputs
    rw [final, run, List.forall_mem_cons]
    simp only [hsame]
    exact ⟨hrest.1, hnot, hrest.2⟩

/-- From a waiting job on, the summary agrees at the end exactly when some wake-up has completed
    the job cleanly. -/
theorem agrees_run_iff : ∀ (inputs : List ExportInput) {d : JobDirectory}, Waiting d →
    (agrees (final (exportStep service thread_id job_id) d inputs) = true ↔
      ∃ e ∈ run (exportStep service thread_id job_id) d inputs,
        CompletesCleanly thread_id job_id e.before e.input)
  | [], d, h => by
    rw [final, not_agrees_of_unsettled h.unsettled]
    simp [run]
  | i :: inputs, d, h => by
    rw [final, run, List.exists_mem_cons_iff]
    by_cases hclean : CompletesCleanly thread_id job_id d i
    · cases i with
      | recover answer => exact hclean.elim
      | process attempt =>
        obtain ⟨hdone, hagrees⟩ := @agrees_of_clean service _ _ _ _ hclean
        have hfinal := (@done_run service thread_id job_id _ hdone inputs).1
        constructor
        · intro _
          exact Or.inl hclean
        · intro _
          exact hfinal ▸ hagrees
    · cases i with
      | recover answer =>
        rw [or_iff_right hclean]
        exact agrees_run_iff inputs h
      | process attempt =>
        rw [or_iff_right hclean]
        rcases @not_agrees_of_unclean service _ _ _ h _ hclean with hwaiting | ⟨hdone, hnot⟩
        · exact agrees_run_iff inputs hwaiting
        · obtain ⟨hfinal, hnone⟩ := @done_run service thread_id job_id _ hdone inputs
          constructor
          · intro hagrees
            have hlast : agrees (final (exportStep service thread_id job_id)
                (process service thread_id job_id attempt d).2 inputs) = true := hagrees
            rw [hfinal, hnot] at hlast
            cases hlast
          · rintro ⟨e, he, hcompletes⟩
            exact absurd hcompletes (hnone e he)

/-- A job as `plan_job` leaves it; the process may have stopped before the summary was written. -/
def plannedJob (root : String) (manifest : ReasonOutputManifest) (summarized : Bool) :
    JobDirectory :=
  { plannedDirectory root manifest with
    progress := if summarized = true then some (plannedProgress manifest) else none }

/-- **The progress summary over every run**: from the planned job on, with the process stopping at
    any write, the summary agrees with the manifest at the end exactly when some wake-up completed
    the job cleanly. -/
theorem progress_agrees_iff (service : ReasonOutputService) (sel : PlanSelection)
    (sections : List ReasonOutputSection) (job_id now root : String) (summarized : Bool)
    (inputs : List ExportInput) :
    agrees (final (exportStep service sel.thread.id job_id)
        (plannedJob root (plannedManifest sel sections job_id now) summarized) inputs) = true ↔
      ∃ e ∈ run (exportStep service sel.thread.id job_id)
          (plannedJob root (plannedManifest sel sections job_id now) summarized) inputs,
        CompletesCleanly sel.thread.id job_id e.before e.input := by
  refine agrees_run_iff inputs ⟨⟨_, rfl, rfl⟩, fun p hp => ?_⟩
  have hsome : (if summarized = true then
      some (plannedProgress (plannedManifest sel sections job_id now)) else none) = some p := hp
  split at hsome
  · cases hsome
    rfl
  · cases hsome

/-- The process stops between the completed manifest and the progress summary: after the restart
    there is no work left, and the summary still says planned. -/
theorem crash_leaves_summary_behind :
    let crashed := final (exportStep ⟨"exports", id⟩ "reason-1" "job-1") tidesDirectory
      [.process (tidesAttempt (fun w => if w = .progress then .stopped else .written)
        fun _ => .returned "The sea rises."), .recover none]
    recoverJob "reason-1" none crashed = none ∧ agrees crashed = false := by
  decide +kernel

end NuSelf.Reason
