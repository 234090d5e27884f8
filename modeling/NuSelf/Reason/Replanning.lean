/-
  Planning the same export twice.

  The job id is a digest of the arguments, the selected steps and a nonce that is drawn for each
  call, and the directory of the job is cleared and its wake-up submitted whatever is there.  So a
  second call with the same arguments finds the job of the first one only where two digests
  collide, and where it does it starts the job over.

  1. `planned_iff`, `planned_after` — a planning call, as a step of a run.
  2. `keeps_pair_iff` — a later call keeps what the earlier one has promised exactly when their
     digests collide and the job is then neither waiting nor complete.
  3. `planning_idempotent_iff` — so do all pairs of calls of a run, with processing in between.
-/
import NuSelf.Lib.Run
import NuSelf.Reason.Export

namespace NuSelf.Reason

open NuSelf.Lib

/-! ## Runs of the export store -/

/-- What happens to the exports of a project. -/
inductive PlanningInput where
  | plan (args : PlanArguments) (call : PlanCall)
  | process (thread_id job_id : String) (attempt : ExportAttempt)

/-- What comes of it. -/
inductive PlanningOutput where
  | planned (outcome : Outcome ReasonOutputError ReasonOutputManifest)
  | processed (outcome : Outcome ReasonOutputError WakeUp)

/-- `process` on the directory of its job; where there is none it has nothing to read. -/
def processStored (service : ReasonOutputService) (thread_id job_id : String)
    (attempt : ExportAttempt) (store : ExportStore) :
    ExportStore × Outcome ReasonOutputError WakeUp :=
  match store.jobs.get (thread_id, job_id) with
  | none => (store, (process service thread_id job_id attempt (emptyDirectory "")).1)
  | some d =>
    let (outcome, d') := process service thread_id job_id attempt d
    ({ store with jobs := store.jobs.set (thread_id, job_id) d' }, outcome)

/-- One happening; the reason records stay as they are. -/
def planningStep (service : ReasonOutputService) (digest : Json → String)
    (records : ReasonRecords) (store : ExportStore) :
    PlanningInput → ExportStore × PlanningOutput
  | .plan args call =>
    let (store', outcome) := planJob service digest records args call store
    (store', .planned outcome)
  | .process thread_id job_id attempt =>
    let (store', outcome) := processStored service thread_id job_id attempt store
    (store', .processed outcome)

/-- A step of such a run. -/
abbrev PlanningEvent : Type := Step ExportStore PlanningInput PlanningOutput

/-! ## What a second call promises -/

/-- The later call names the job of the earlier one, and where that job is waiting or complete it
    returns its manifest, leaves its directory as it is, and submits nothing. -/
def KeepsPair (earlier later : PlanningEvent) : Prop :=
  ∀ args call₁ call₂ m₁ m₂, earlier.input = .plan args call₁ → later.input = .plan args call₂ →
    earlier.output = .planned (.returned m₁) → later.output = .planned (.returned m₂) →
    m₂.job_id = m₁.job_id ∧
    ∀ d m, later.before.jobs.get m₂.key = some d → d.manifest = some m → m.status ≠ .failed →
      m₂ = m ∧ later.after.jobs.get m₂.key = some d ∧
        later.after.submitted = later.before.submitted

/-- The call goes through: its arguments pass and its files are written. -/
def Completes (service : ReasonOutputService) (digest : Json → String) (records : ReasonRecords)
    (args : PlanArguments) (call : PlanCall) : Prop :=
  (∃ m, planManifest service digest records args call = .ok m) ∧
    call.manifest_write = .written ∧ call.progress_write = .written

/-- The digests of a selection under two nonces have the same first sixteen digits. -/
def Collide (digest : Json → String) (sel : PlanSelection) (nonce₁ nonce₂ : String) : Prop :=
  (digest (exportPayload sel nonce₁)).toList.take 16 =
    (digest (exportPayload sel nonce₂)).toList.take 16

/-- The job is waiting or complete. -/
def Open (store : ExportStore) (key : String × String) : Prop :=
  ∃ d m, store.jobs.get key = some d ∧ d.manifest = some m ∧ m.status ≠ .failed

/-- Of two calls with the same arguments that go through, the later one finds the digests
    collided and the job neither waiting nor complete. -/
def FindsFailed (service : ReasonOutputService) (digest : Json → String) (records : ReasonRecords)
    (earlier later : PlanningEvent) : Prop :=
  ∀ args call₁ call₂ sel, earlier.input = .plan args call₁ → later.input = .plan args call₂ →
    Completes service digest records args call₁ → Completes service digest records args call₂ →
    planSelection records args = .ok sel →
    Collide digest sel call₁.nonce call₂.nonce ∧
      ¬ Open later.before (sel.thread.id, exportJobId digest sel call₂.nonce)

/-! ## One pair of calls -/

variable {service : ReasonOutputService} {digest : Json → String} {records : ReasonRecords}
  {args : PlanArguments} {call : PlanCall} {e : PlanningEvent}

theorem planned_iff (h : e.Of (planningStep service digest records))
    (hinput : e.input = .plan args call) {m : ReasonOutputManifest} :
    e.output = .planned (.returned m) ↔ planManifest service digest records args call = .ok m ∧
      call.manifest_write = .written ∧ call.progress_write = .written := by
  have hout := h.output_eq
  rw [hinput] at hout
  have hplanned : e.output = .planned (planJob service digest records args call e.before).2 :=
    hout.symm
  rw [hplanned, PlanningOutput.planned.injEq]
  constructor
  · intro hreturned
    have hrun : planJob service digest records args call e.before =
        ((planJob service digest records args call e.before).1, .returned m) :=
      Prod.ext rfl hreturned
    have hcall := planJob_returned_iff.mp hrun
    exact ⟨hcall.1, hcall.2.1⟩
  · rintro ⟨hm, hwrites⟩
    rw [planJob_returned_iff.mpr ⟨hm, hwrites, rfl⟩]

theorem planned_after (h : e.Of (planningStep service digest records))
    (hinput : e.input = .plan args call) {m : ReasonOutputManifest}
    (houtput : e.output = .planned (.returned m)) :
    e.after.jobs.get m.key = some (replannedDirectory service e.before m) ∧
      e.after.submitted ≠ e.before.submitted := by
  have hafter := h.after_eq
  obtain ⟨hm, hwrites⟩ := (planned_iff h hinput).mp houtput
  rw [hinput] at hafter
  have hstore : (planJob service digest records args call e.before).1 = e.after := hafter
  rw [planJob_returned_iff.mpr ⟨hm, hwrites, rfl⟩] at hstore
  rw [← hstore]
  refine ⟨Table.get_set_self _ _ _, fun hsame => ?_⟩
  -- one wake-up more has been submitted
  have hlength := congrArg List.length hsame
  rw [List.length_append, List.length_singleton] at hlength
  omega

/-- Two job ids of one selection are the same exactly when the digests collide. -/
theorem exportJobId_eq_iff {sel : PlanSelection} {nonce₁ nonce₂ : String} :
    exportJobId digest sel nonce₂ = exportJobId digest sel nonce₁ ↔
      Collide digest sel nonce₁ nonce₂ := by
  rw [exportJobId, exportJobId, append_right_cancel_text, String.ofList_inj, eq_comm]
  rfl

/-- **One pair of calls.** -/
theorem keeps_pair_iff {earlier later : PlanningEvent}
    (hearlier : earlier.Of (planningStep service digest records))
    (hlater : later.Of (planningStep service digest records)) :
    KeepsPair earlier later ↔ FindsFailed service digest records earlier later := by
  constructor
  · intro hkeeps args call₁ call₂ sel hin₁ hin₂ hcompletes₁ hcompletes₂ hsel
    obtain ⟨⟨m₁, hm₁⟩, hwrites₁⟩ := hcompletes₁
    obtain ⟨⟨m₂, hm₂⟩, hwrites₂⟩ := hcompletes₂
    have hout₁ := (planned_iff hearlier hin₁).mpr ⟨hm₁, hwrites₁⟩
    have hout₂ := (planned_iff hlater hin₂).mpr ⟨hm₂, hwrites₂⟩
    obtain ⟨hid, hstays⟩ := hkeeps args call₁ call₂ m₁ m₂ hin₁ hin₂ hout₁ hout₂
    obtain ⟨sel₁, sections₁, hsel₁, rfl⟩ := planManifest_ok hm₁
    obtain ⟨sel₂, sections₂, hsel₂, rfl⟩ := planManifest_ok hm₂
    rw [hsel, Except.ok.injEq] at hsel₁ hsel₂
    subst hsel₁ hsel₂
    refine ⟨exportJobId_eq_iff.mp hid, ?_⟩
    rintro ⟨d, m, hd, hm, hopen⟩
    have hsubmitted := (hstays d m hd hm hopen).2.2
    exact (planned_after hlater hin₂ hout₂).2 hsubmitted
  · intro hfinds args call₁ call₂ m₁ m₂ hin₁ hin₂ hout₁ hout₂
    obtain ⟨hm₁, hwrites₁⟩ := (planned_iff hearlier hin₁).mp hout₁
    obtain ⟨hm₂, hwrites₂⟩ := (planned_iff hlater hin₂).mp hout₂
    obtain ⟨sel₁, sections₁, hsel₁, rfl⟩ := planManifest_ok hm₁
    obtain ⟨sel₂, sections₂, hsel₂, rfl⟩ := planManifest_ok hm₂
    rw [hsel₁, Except.ok.injEq] at hsel₂
    subst hsel₂
    obtain ⟨hcollide, hclosed⟩ := hfinds args call₁ call₂ sel₁ hin₁ hin₂ ⟨⟨_, hm₁⟩, hwrites₁⟩
      ⟨⟨_, hm₂⟩, hwrites₂⟩ hsel₁
    refine ⟨exportJobId_eq_iff.mpr hcollide, fun d m hd hm hopen => ?_⟩
    exact absurd ⟨d, m, hd, hm, hopen⟩ hclosed

/-! ## Whole runs -/

/-- **Planning is idempotent in a run exactly when** of any two calls with the same arguments that
    go through, the later one finds the digests collided and the job neither waiting nor complete. -/
theorem planning_idempotent_iff (service : ReasonOutputService) (digest : Json → String)
    (records : ReasonRecords) (store : ExportStore) (inputs : List PlanningInput) :
    (run (planningStep service digest records) store inputs).Pairwise KeepsPair ↔
      (run (planningStep service digest records) store inputs).Pairwise
        (FindsFailed service digest records) := by
  refine List.Pairwise.iff_of_mem fun {earlier later} hearlier hlater => ?_
  exact keeps_pair_iff (run_of _ store inputs earlier hearlier)
    (run_of _ store inputs later hlater)

/-! ## Two calls -/

/-- One thread of one step. -/
def tidesRecords : ReasonRecords where
  show_thread _ := .ok ⟨"reason-1", "Tides"⟩
  list_steps _ := tidesSelection.selected
  distinct _ := by decide

/-- A call at rest, with this nonce. -/
def quietCall (nonce : String) : PlanCall where
  section_planner := some (.ok tidesSections)
  nonce := nonce
  now := "now"
  manifest_write := .written
  progress_write := .written

/-- A digest that tells two nonces apart, as the real one does. -/
def nonceDigest : Json → String
  | .obj fields =>
    match fields.lookup "nonce" with
    | some (.str nonce) => nonce
    | _ => ""
  | _ => ""

/-- Two calls with the same arguments, one after the other: they return two jobs. -/
theorem second_plan_is_another_job :
    ¬ (run (planningStep ⟨"exports", id⟩ nonceDigest tidesRecords) ExportStore.empty
      [.plan { thread_id := "reason-1" } (quietCall "9f86d081884c7d65"),
        .plan { thread_id := "reason-1" } (quietCall "60303ae22b998861")]).Pairwise KeepsPair := by
  intro h
  obtain ⟨hpair, -⟩ := List.pairwise_cons.mp h
  have hkeeps := hpair _ List.mem_cons_self
  have hid := (hkeeps _ _ _ _ _ rfl rfl rfl rfl).1
  revert hid
  decide +kernel

end NuSelf.Reason
