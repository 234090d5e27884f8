/-
  The attempt counter of an export, over every run of one job.

  Every manifest that takes the place of another is one of two updates: the job was composed, or
  an attempt failed.  What the updates may do is `Lawful`: a failure counts one, a completion
  counts nothing; `failed` and the last attempt come together; the counter stays within its bound;
  and a job that is complete or failed stays so.

  Everything but the last holds of every run (`CountInv`).  The last fails in one way: the
  exception handler of `process` also counts what is raised after the manifest was marked
  complete, and the fifth failure makes the job failed.

  1. `counted_step` — one happening keeps the count.
  2. `settled_step_iff` — it keeps complete jobs complete exactly when it does not overturn one.
  3. `attempts_lawful_iff` — so does a run.
-/
import NuSelf.Lib.Run
import NuSelf.Lib.Trace
import NuSelf.Reason.Export

namespace NuSelf.Reason

open NuSelf.Lib

/-! ## What the updates may do -/

/-- A failure counts one attempt, a completion none. -/
def CountsOnce (m : ReasonOutputManifest) (u : ManifestUpdate × ReasonOutputManifest) : Prop :=
  u.2.attempts = match u.1 with
    | .failure => m.attempts + 1
    | .composed => m.attempts

/-- A job that is complete or failed keeps its status. -/
def KeepsTerminal (m : ReasonOutputManifest) (u : ManifestUpdate × ReasonOutputManifest) : Prop :=
  m.status.terminal = true → u.2.status = m.status

/-- The status and the counter of one manifest agree. -/
structure Counted (m : ReasonOutputManifest) : Prop where
  failed_iff : m.status = .failed ↔ m.attempts = maxExportAttempts
  bounded : m.attempts ≤ maxExportAttempts

/-- What the manifests of a job may be, from its first one on. -/
structure Lawful (first : ReasonOutputManifest)
    (updates : List (ManifestUpdate × ReasonOutputManifest)) : Prop where
  counts : Follows CountsOnce first updates
  counted : ∀ m ∈ first :: updates.map Prod.snd, Counted m
  settled : Follows KeepsTerminal first updates

/-! ## The count, in every run -/

variable {service : ReasonOutputService} {thread_id job_id : String}

/-- What holds of a job at every moment. -/
structure CountInv (first : ReasonOutputManifest) (d : JobDirectory) : Prop where
  stored : d.manifest = some (latest first d.updates)
  counts : Follows CountsOnce first d.updates
  counted : ∀ m ∈ first :: d.updates.map Prod.snd, Counted m

theorem CountInv.latest_counted {first : ReasonOutputManifest} {d : JobDirectory}
    (h : CountInv first d) : Counted (latest first d.updates) := by
  have hmem : ∀ (a : ReasonOutputManifest) (us : List (ManifestUpdate × ReasonOutputManifest)),
      latest a us ∈ a :: us.map Prod.snd := by
    intro a us
    induction us generalizing a with
    | nil => exact List.mem_cons_self
    | cons u us ih => exact List.mem_cons_of_mem _ (ih u.2)
  exact h.counted _ (hmem _ _)

theorem CountInv.update {first : ReasonOutputManifest} {d d' : JobDirectory} (h : CountInv first d)
    {u : ManifestUpdate × ReasonOutputManifest} (hstored : d'.manifest = some u.2)
    (hupdates : d'.updates = d.updates ++ [u]) (hcounts : CountsOnce (latest first d.updates) u)
    (hcounted : Counted u.2) : CountInv first d' where
  stored := by rw [hstored, hupdates, latest_append]; rfl
  counts := by
    rw [hupdates, follows_append]
    exact ⟨h.counts, hcounts, trivial⟩
  counted := by
    rw [hupdates, List.map_append]
    intro m hm
    rcases List.mem_append.mp (List.cons_append ▸ hm : m ∈ (first :: d.updates.map Prod.snd) ++ _)
      with hm | hm
    · exact h.counted m hm
    · rw [List.map_cons, List.map_nil, List.mem_singleton] at hm
      rw [hm]
      exact hcounted

theorem counted_failure {m : ReasonOutputManifest} (h : Counted m) (hm : m.status ≠ .failed)
    (attempt : ExportAttempt) (e : ReasonOutputError) : Counted (failureManifest attempt e m) := by
  have hne : m.attempts ≠ maxExportAttempts := fun he => hm (h.failed_iff.mpr he)
  have hle := h.bounded
  constructor
  · rw [failureManifest_status, failureManifest_attempts]
    split
    · constructor
      · intro _; omega
      · intro _; rfl
    · constructor
      · intro hs; exact absurd hs hm
      · intro ha; omega
  · rw [failureManifest_attempts]
    omega

theorem counted_composed {m updated : ReasonOutputManifest} (h : Counted m)
    (hm : m.status = .planned) (hstatus : updated.status = .complete)
    (hattempts : updated.attempts = m.attempts) : Counted updated := by
  constructor
  · rw [hstatus, hattempts, ← h.failed_iff, hm]
    simp
  · rw [hattempts]
    exact h.bounded

theorem CountInv.of_records {first : ReasonOutputManifest} {d d' : JobDirectory}
    (h : CountInv first d) (hrecords : d'.records = d.records) : CountInv first d' := by
  obtain ⟨hmanifest, -, hupdates⟩ := records_eq hrecords
  exact ⟨by rw [hmanifest, hupdates]; exact h.stored, by rw [hupdates]; exact h.counts,
    by rw [hupdates]; exact h.counted⟩

theorem CountInv.failure {first : ReasonOutputManifest} {d : JobDirectory} (h : CountInv first d)
    {m : ReasonOutputManifest} (hstored : d.manifest = some m) (hm : m.status ≠ .failed)
    (attempt : ExportAttempt) (e : ReasonOutputError) :
    CountInv first (d.putManifest .failure (failureManifest attempt e m)) := by
  have hlatest : latest first d.updates = m := by
    have hsame := h.stored
    rw [hstored, Option.some.injEq] at hsame
    exact hsame.symm
  refine h.update rfl rfl ?_ (counted_failure (hlatest ▸ h.latest_counted) hm attempt e)
  rw [hlatest]
  rfl

/-- **One wake-up keeps the count**, whatever it meets. -/
theorem counted_process {first : ReasonOutputManifest} {d : JobDirectory} (h : CountInv first d)
    (attempt : ExportAttempt) :
    CountInv first (process service thread_id job_id attempt d).2 := by
  by_cases hpending : attempt.reads .inspect = none ∧ ∃ m, Pending thread_id job_id d m
  · obtain ⟨hread, m, hm⟩ := hpending
    have hlatest : latest first d.updates = m := by
      have hstored := h.stored
      rw [hm.stored, Option.some.injEq] at hstored
      exact hstored.symm
    have hplanned : m.status ≠ .failed := by
      rw [hm.planned]
      decide
    have hmark : ∀ {updated : ReasonOutputManifest} {d' : JobDirectory},
        Marked attempt d m updated d' → CountInv first d' := by
      intro updated d' hmarked
      refine h.update hmarked.stored hmarked.updates ?_ ?_
      · rw [hlatest]
        exact hmarked.attempts
      · exact counted_composed (hlatest ▸ h.latest_counted) hm.planned hmarked.complete
          hmarked.attempts
    cases process_cases service hread hm with
    | kept hmarks hrecords ho => exact h.of_records hrecords
    | counted e d₁ hmarks hrecords hpersists ho hd =>
      rw [hd]
      have hmanifest := (records_eq hrecords).1
      exact (h.of_records hrecords).failure (hmanifest.trans hm.stored) hplanned attempt e
    | marked updated hmarks hmarked hcounts ho => exact hmark hmarked
    | overturned e d₁ updated hmarks hmarked hcounts ho hd =>
      rw [hd]
      refine (hmark hmarked).failure hmarked.stored ?_ attempt e
      rw [hmarked.complete]
      decide
  · rw [process_idle hpending]
    exact h

/-- **One happening keeps the count.** -/
theorem counted_step {first : ReasonOutputManifest} (d : JobDirectory) (i : ExportInput)
    (h : CountInv first d) : CountInv first (exportStep service thread_id job_id d i).1 := by
  cases i with
  | process attempt => exact counted_process h attempt
  | recover answer => exact h

/-! ## Complete jobs that are made failed -/

/-- The wake-up overturns a completion: its attempt marks the manifest of a job with one attempt
    left, something later in that attempt raises, and this failure is counted. -/
def Overturns (thread_id job_id : String) (d : JobDirectory) : ExportInput → Prop
  | .process attempt => attempt.reads .inspect = none ∧
      ∃ m, Pending thread_id job_id d m ∧ maxExportAttempts ≤ m.attempts + 1 ∧
        Marks thread_id job_id attempt d m ∧ CountsAfterMark attempt
  | .recover _ => False

theorem overturns_iff {d : JobDirectory} {attempt : ExportAttempt} {m : ReasonOutputManifest}
    (hread : attempt.reads .inspect = none) (hm : Pending thread_id job_id d m) :
    Overturns thread_id job_id d (.process attempt) ↔
      maxExportAttempts ≤ m.attempts + 1 ∧ Marks thread_id job_id attempt d m ∧
        CountsAfterMark attempt := by
  constructor
  · rintro ⟨-, m', hm', hover⟩
    have hsame := hm'.stored
    rw [hm.stored, Option.some.injEq] at hsame
    rw [hsame]
    exact hover
  · intro hover
    exact ⟨hread, m, hm, hover⟩

theorem keepsTerminal_of_planned {m : ReasonOutputManifest} (h : m.status = .planned)
    (u : ManifestUpdate × ReasonOutputManifest) : KeepsTerminal m u := by
  intro hterminal
  rw [h] at hterminal
  cases hterminal

/-- The failure of a complete job leaves it complete until the last attempt. -/
theorem keepsTerminal_failure_iff {m : ReasonOutputManifest} (h : m.status = .complete)
    (attempt : ExportAttempt) (e : ReasonOutputError) :
    KeepsTerminal m (.failure, failureManifest attempt e m) ↔
      ¬ maxExportAttempts ≤ m.attempts + 1 := by
  unfold KeepsTerminal
  rw [failureManifest_status, h]
  by_cases hlast : maxExportAttempts ≤ m.attempts + 1
  · rw [if_pos hlast]
    simp [hlast, ReasonOutputStatus.terminal]
  · rw [if_neg hlast]
    simp [hlast]

/-- **One happening keeps complete and failed jobs so** exactly when it does not overturn one. -/
theorem settled_step_iff {first : ReasonOutputManifest} {d : JobDirectory} (i : ExportInput)
    (h : CountInv first d) :
    Follows KeepsTerminal first (exportStep service thread_id job_id d i).1.updates ↔
      Follows KeepsTerminal first d.updates ∧ ¬ Overturns thread_id job_id d i := by
  cases i with
  | recover answer =>
    show Follows KeepsTerminal first d.updates ↔ _
    simp [Overturns]
  | process attempt =>
    show Follows KeepsTerminal first (process service thread_id job_id attempt d).2.updates ↔ _
    by_cases hpending : attempt.reads .inspect = none ∧ ∃ m, Pending thread_id job_id d m
    · obtain ⟨hread, m, hm⟩ := hpending
      have hlatest : latest first d.updates = m := by
        have hstored := h.stored
        rw [hm.stored, Option.some.injEq] at hstored
        exact hstored.symm
      have hfree := keepsTerminal_of_planned hm.planned
      rw [overturns_iff hread hm]
      cases process_cases service hread hm with
      | kept hmarks hrecords ho =>
        rw [(records_eq hrecords).2.2]
        exact ⟨fun hf => ⟨hf, fun hover => hmarks hover.2.1⟩, fun hf => hf.1⟩
      | counted e d₁ hmarks hrecords hpersists ho hd =>
        rw [hd]
        show Follows KeepsTerminal first (d₁.updates ++ [_]) ↔ _
        rw [(records_eq hrecords).2.2, follows_append, hlatest]
        exact ⟨fun hf => ⟨hf.1, fun hover => hmarks hover.2.1⟩,
          fun hf => ⟨hf.1, hfree _, trivial⟩⟩
      | marked updated hmarks hmarked hcounts ho =>
        rw [hmarked.updates, follows_append, hlatest]
        exact ⟨fun hf => ⟨hf.1, fun hover => hcounts hover.2.2⟩,
          fun hf => ⟨hf.1, hfree _, trivial⟩⟩
      | overturned e d₁ updated hmarks hmarked hcounts ho hd =>
        rw [hd]
        show Follows KeepsTerminal first (d₁.updates ++ [_]) ↔ _
        rw [hmarked.updates, List.append_assoc, follows_append, hlatest]
        -- the second update is the failure of a complete job
        have hfailure := keepsTerminal_failure_iff hmarked.complete attempt e
        rw [hmarked.attempts] at hfailure
        constructor
        · rintro ⟨hf, -, hlater, -⟩
          exact ⟨hf, fun hover => hfailure.mp hlater hover.1⟩
        · rintro ⟨hf, hover⟩
          refine ⟨hf, hfree _, hfailure.mpr fun hlast => hover ⟨hlast, hmarks, hcounts⟩, trivial⟩
    · rw [process_idle hpending]
      constructor
      · intro hf
        refine ⟨hf, ?_⟩
        rintro ⟨hread, m, hm, -⟩
        exact hpending ⟨hread, m, hm⟩
      · exact fun hf => hf.1

/-! ## Whole runs -/

theorem settled_run_iff {first : ReasonOutputManifest} : ∀ (inputs : List ExportInput)
    {d : JobDirectory}, CountInv first d →
    (Follows KeepsTerminal first (final (exportStep service thread_id job_id) d inputs).updates ↔
      Follows KeepsTerminal first d.updates ∧
        ∀ e ∈ run (exportStep service thread_id job_id) d inputs,
          ¬ Overturns thread_id job_id e.before e.input)
  | [], d, _ => ⟨fun hf => ⟨hf, fun _ he => nomatch he⟩, fun hf => hf.1⟩
  | i :: inputs, d, h => by
    rw [final, run, List.forall_mem_cons, settled_run_iff inputs (counted_step d i h),
      settled_step_iff i h, and_assoc]

theorem countInv_planned (root : String) {first : ReasonOutputManifest}
    (hstatus : first.status = .planned) (hattempts : first.attempts = 0) :
    CountInv first (plannedDirectory root first) where
  stored := rfl
  counts := trivial
  counted := by
    intro m hm
    rw [List.mem_singleton.mp hm]
    constructor
    · rw [hstatus, hattempts]
      decide
    · rw [hattempts]
      exact Nat.zero_le _

/-- **The attempt counter over every run**: from the planned job on, the manifests are lawful
    exactly when no wake-up counts the fifth failure after it has marked the job complete. -/
theorem attempts_lawful_iff (service : ReasonOutputService) (sel : PlanSelection)
    (sections : List ReasonOutputSection) (job_id now root : String)
    (inputs : List ExportInput) :
    Lawful (plannedManifest sel sections job_id now)
        (final (exportStep service sel.thread.id job_id)
          (plannedDirectory root (plannedManifest sel sections job_id now)) inputs).updates ↔
      ∀ e ∈ run (exportStep service sel.thread.id job_id)
          (plannedDirectory root (plannedManifest sel sections job_id now)) inputs,
        ¬ Overturns sel.thread.id job_id e.before e.input := by
  have hstart : CountInv (plannedManifest sel sections job_id now)
      (plannedDirectory root (plannedManifest sel sections job_id now)) :=
    countInv_planned root rfl rfl
  have hend := final_induct (@counted_step service sel.thread.id job_id _) _ inputs hstart
  have hsettled := @settled_run_iff service sel.thread.id job_id _ inputs _ hstart
  constructor
  · intro h
    exact (hsettled.mp h.settled).2
  · intro h
    exact ⟨hend.counts, hend.counted, hsettled.mpr ⟨trivial, h⟩⟩

instance (m : ReasonOutputManifest) (u : ManifestUpdate × ReasonOutputManifest) :
    Decidable (KeepsTerminal m u) := by
  unfold KeepsTerminal
  infer_instance

/-- Four attempts whose runner raises, and one that completes the job and cannot write its
    progress: the completed job is counted failed. -/
theorem complete_becomes_failed :
    ¬ Lawful (plannedManifest tidesSelection tidesSections "job-1" "now")
      (final (exportStep ⟨"exports", id⟩ "reason-1" "job-1") tidesDirectory
        [.process silentAttempt, .process silentAttempt, .process silentAttempt,
          .process silentAttempt, .process lateAttempt]).updates := by
  intro h
  have hstays : ¬ Follows KeepsTerminal (plannedManifest tidesSelection tidesSections "job-1" "now")
      (final (exportStep ⟨"exports", id⟩ "reason-1" "job-1") tidesDirectory
        [.process silentAttempt, .process silentAttempt, .process silentAttempt,
          .process silentAttempt, .process lateAttempt]).updates := by
    decide +kernel
  exact hstays h.settled

end NuSelf.Reason
