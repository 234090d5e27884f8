/-
  What is left of a plan when its observation is processed.

  A run marks the observation and then removes its plan: two writes.  A later run that finds the
  observation processed returns at once and removes nothing, so whoever dies between the two
  writes leaves the plan for good.

  1. `Tidy` — the invariant as long as nobody does: an observation at rest that is processed has no
     plan, and a run that is under way has one;
  2. `Leftover.step` — what a death between the two writes leaves, every later step leaves;
  3. `processed_leaves_no_plan_iff` — over any steps, the runs that find the observation processed
     leave no plan exactly when no run follows such a death.
-/
import NuSelf.Memory.Curation

namespace NuSelf.Memory

open NuSelf.Lib NuSelf.Storage

section

variable (o : MemoryObservation) (s : Curation)

/-- The stored row of the plan. -/
def planRow : Option Payload := s.db.get ("memory_curator_plans", o.id)

/-- The run has not marked the observation yet. -/
def CuratorPoint.Running : CuratorPoint → Prop
  | .idle | .marked => False
  | .acting .. | .saving .. | .accepting .. => True

/-- Nobody has died between the mark and the removal. -/
structure Tidy : Prop where
  /-- A run that is under way works with a stored plan, -/
  planned : s.point ≠ .idle → (planRow o s).isSome ∧ exclusive o.id = true
  /-- and the observation is pending until the run marks it. -/
  pending : s.point.Running → ¬ IsProcessed s.db o
  removed : s.point = .idle → IsProcessed s.db o → planRow o s = none

/-- Somebody has. -/
structure Leftover : Prop where
  idle : s.point = .idle
  processed : IsProcessed s.db o
  planned : (planRow o s).isSome
  exclusive : exclusive o.id = true

end

section

variable {uuid5 lower casefold : String → String} {min_quality_chars : Nat}
  {o : MemoryObservation} {s : Curation}

theorem IsProcessed.of_row {db db' : Records} (h : IsProcessed db' o)
    (hrow : db'.get ("memory_observations", o.id) = db.get ("memory_observations", o.id)) :
    IsProcessed db o := by
  obtain ⟨marked, hread, hstatus⟩ := h
  refine ⟨marked, ?_, hstatus⟩
  rw [← hread, getObservation, getObservation, collectionGet, collectionGet, hrow]

/-! ## What a step keeps -/

/-- A run that is under way goes on without a write to the plan or the observation. -/
theorem Tidy.goto (h : Tidy o s) (hrunning : s.point.Running) {s' : Curation}
    (hdb : s'.db = s.db) : Tidy o s' := by
  have hne : s.point ≠ .idle := by
    intro hidle
    rw [hidle] at hrunning
    exact hrunning
  have hpending : ¬ IsProcessed s'.db o := by
    rw [hdb]
    exact h.pending hrunning
  refine ⟨fun _ => ?_, fun _ => hpending, fun _ hprocessed => absurd hprocessed hpending⟩
  rw [planRow, hdb]
  exact h.planned hne

theorem beginRun_tidy (hheld : Curating uuid5 o s) (h : Tidy o s) (hidle : s.point = .idle)
    (decision : MemoryDecision) : Tidy o (beginRun casefold min_quality_chars o s decision) := by
  obtain ⟨status, hinv⟩ := hheld
  unfold beginRun
  split
  · exact h
  rename_i hexclusive
  rw [hinv.held.read]
  dsimp only
  split
  · exact h
  rename_i hstatus
  have hpending : ¬ IsProcessed s.db o := by
    rintro ⟨marked, hread, hprocessed⟩
    obtain rfl : { o with status } = marked := Except.ok.inj (hinv.held.read.symm.trans hread)
    exact hstatus hprocessed
  split
  · exact h
  · -- the plan of an earlier run
    rename_i read hplan
    obtain ⟨p, hrow, -⟩ := getPlan_some hplan
    refine ⟨fun _ => ⟨?_, by simpa using hexclusive⟩, fun _ => hpending, nofun⟩
    rw [planRow, hrow]
    rfl
  · rename_i hplan
    have hnone := getPlan_none hplan
    split
    · -- the mark without a plan
      obtain ⟨db', hmark, -, hother⟩ := markProcessed_of_holds hinv.held
      have hmark' : markProcessed s.db o.id = .ok db' := hmark
      rw [hmark']
      refine ⟨fun hpoint => absurd hidle hpoint, fun hrunning => ?_, fun _ _ => ?_⟩
      · have hrun : s.point.Running := hrunning
        rw [hidle] at hrun
        exact hrun.elim
      · exact (hother _ (by simp)).trans hnone
    · split
      · exact h
      · split
        · exact h
        · rename_i db' hsave
          obtain ⟨p, rfl, -, -⟩ := collectionPut_ok (fromStorage_ok hsave)
          refine ⟨fun _ => ⟨?_, by simpa using hexclusive⟩, fun _ hprocessed => ?_, nofun⟩
          · show ((s.db.set ("memory_curator_plans", o.id) p).get _).isSome = true
            rw [Table.get_set_self]
            rfl
          · exact hpending (hprocessed.of_row (Table.get_set_ne _ _ (by simp)))

theorem act_tidy (h : Tidy o s) {plan : MemoryCuratorPlan} {i : Nat}
    (hpoint : s.point = .acting plan i) (action : MemoryAction) (choices : CuratorChoices) :
    Tidy o (act uuid5 lower s plan i action choices) := by
  refine h.goto (by rw [hpoint]; trivial) ?_
  unfold act
  dsimp only
  split
  all_goals rfl

theorem saveStep_tidy (h : Tidy o s) {plan : MemoryCuratorPlan} {i : Nat} {c : MemoryCandidate}
    (hpoint : s.point = .saving plan i c) : Tidy o (saveStep s plan i c) := by
  refine h.goto (by rw [hpoint]; trivial) ?_
  unfold saveStep
  split
  · rfl
  · rfl

theorem acceptStep_tidy (h : Tidy o s) {plan : MemoryCuratorPlan} {i : Nat}
    {candidate_id : String} (hpoint : s.point = .accepting plan i candidate_id)
    (choices : CuratorChoices) : Tidy o (acceptStep uuid5 s plan i candidate_id choices) := by
  obtain ⟨-, hdb, -⟩ := acceptStep_after uuid5 s plan i candidate_id choices
  exact h.goto (by rw [hpoint]; trivial) hdb

theorem markStep_tidy (hheld : Curating uuid5 o s) (h : Tidy o s) {plan : MemoryCuratorPlan}
    {i : Nat} (hpoint : s.point = .acting plan i) : Tidy o (markStep o s) := by
  obtain ⟨status, hinv⟩ := hheld
  obtain ⟨db', hmark, -, hother⟩ := markProcessed_of_holds hinv.held
  have hmark' : markProcessed s.db o.id = .ok db' := hmark
  obtain ⟨hrow, hexclusive⟩ := h.planned (by rw [hpoint]; exact CuratorPoint.noConfusion)
  unfold markStep
  rw [hmark']
  refine ⟨fun _ => ⟨?_, hexclusive⟩, False.elim, nofun⟩
  have hkept : db'.get ("memory_curator_plans", o.id) = planRow o s := hother _ (by simp)
  show (db'.get ("memory_curator_plans", o.id)).isSome = true
  rw [hkept]
  exact hrow

theorem complete_tidy : Tidy o { s with db := completePlan s.db o.id, point := .idle } := by
  refine ⟨fun hpoint => absurd rfl hpoint, False.elim, fun _ _ => ?_⟩
  show (s.db.erase ("memory_curator_plans", o.id)).get _ = none
  rw [Table.get_erase, if_pos rfl]

theorem elsewhere_tidy (h : Tidy o s) (change : Elsewhere uuid5 o) :
    Tidy o { s with db := change.db s.db, tables := change.tables s.tables } := by
  have hrow : ∀ tables, planRow o ⟨change.db s.db, tables, s.point, s.effects⟩ = planRow o s :=
    fun _ => change.plan s.db
  refine ⟨fun hpoint => ?_, fun hrunning hprocessed => ?_, fun hidle hprocessed => ?_⟩
  · rw [hrow]
    exact h.planned hpoint
  · exact h.pending hrunning (hprocessed.of_row (change.observation s.db))
  · rw [hrow]
    exact h.removed hidle (hprocessed.of_row (change.observation s.db))

theorem interrupt_tidy (h : Tidy o s) (hpoint : s.point ≠ .marked) :
    Tidy o { s with point := .idle } := by
  refine ⟨fun hne => absurd rfl hne, False.elim, fun _ hprocessed => ?_⟩
  cases hat : s.point with
  | idle => exact h.removed hat hprocessed
  | marked => exact absurd hat hpoint
  | acting plan i => exact absurd hprocessed (h.pending (by rw [hat]; trivial))
  | saving plan i c => exact absurd hprocessed (h.pending (by rw [hat]; trivial))
  | accepting plan i id => exact absurd hprocessed (h.pending (by rw [hat]; trivial))

/-- **Every step but such a death keeps it.** -/
theorem curationStep_tidy (hheld : Curating uuid5 o s) (h : Tidy o s)
    (input : CurationInput uuid5 o) (hok : input = .interrupt → s.point ≠ .marked) :
    Tidy o (curationStep uuid5 lower casefold min_quality_chars o s input).1 := by
  cases input with
  | interrupt => exact interrupt_tidy h (hok rfl)
  | elsewhere change => exact elsewhere_tidy h change
  | advance choices =>
    show Tidy o (advance uuid5 lower casefold min_quality_chars o s choices)
    unfold advance
    split
    · rename_i hpoint
      exact beginRun_tidy hheld h hpoint choices.decision
    · rename_i plan i hpoint
      split
      · rename_i action _
        exact act_tidy h hpoint action choices
      · exact markStep_tidy hheld h hpoint
    · rename_i hpoint
      exact saveStep_tidy h hpoint
    · rename_i hpoint
      exact acceptStep_tidy h hpoint choices
    · exact complete_tidy

theorem beginRun_processed (h : IsProcessed s.db o) (decision : MemoryDecision) :
    beginRun casefold min_quality_chars o s decision = s := by
  obtain ⟨marked, hread, hprocessed⟩ := h
  unfold beginRun
  rw [hread]
  dsimp only
  rw [if_pos hprocessed, ite_self]

theorem Tidy.leftover (hheld : Curating uuid5 o s) (h : Tidy o s) (hpoint : s.point = .marked) :
    Leftover o { s with point := .idle } := by
  obtain ⟨status, hinv⟩ := hheld
  obtain ⟨plan, hplanned⟩ := hinv.underWay (by rw [hpoint]; exact CuratorPoint.noConfusion)
  have hat := hplanned.point
  rw [hpoint] at hat
  have hstatus : status = .processed := hat
  obtain ⟨hrow, hexclusive⟩ := h.planned (by rw [hpoint]; exact CuratorPoint.noConfusion)
  exact ⟨rfl, ⟨_, hinv.held.read, hstatus⟩, hrow, hexclusive⟩

/-- **What it leaves stays**, whatever runs come after. -/
theorem Leftover.step (h : Leftover o s) (input : CurationInput uuid5 o) :
    Leftover o (curationStep uuid5 lower casefold min_quality_chars o s input).1 := by
  cases input with
  | interrupt => exact ⟨rfl, h.processed, h.planned, h.exclusive⟩
  | elsewhere change =>
    refine ⟨h.idle, ?_, ?_, h.exclusive⟩
    · exact h.processed.of_row (change.observation s.db).symm
    · show ((change.db s.db).get ("memory_curator_plans", o.id)).isSome = true
      rw [change.plan]
      exact h.planned
  | advance choices =>
    have hsame : advance uuid5 lower casefold min_quality_chars o s choices = s := by
      unfold advance
      rw [h.idle]
      exact beginRun_processed h.processed choices.decision
    show Leftover o (advance uuid5 lower casefold min_quality_chars o s choices)
    rw [hsame]
    exact h

/-! ## Runs -/

/-- A run begins, or goes on. -/
def CurationInput.Advances (input : CurationInput uuid5 o) : Prop :=
  ∃ choices, input = .advance choices

/-- The step is a run that returns because it finds the observation processed. -/
structure FindsProcessed (e : Step Curation (CurationInput uuid5 o) Unit) : Prop where
  advances : e.input.Advances
  idle : e.before.point = .idle
  exclusive : exclusive o.id = true
  processed : IsProcessed e.before.db o

theorem Tidy.leaves_no_plan (h : Tidy o s) {input : CurationInput uuid5 o}
    (hfinds : FindsProcessed ⟨s, input, (),
      (curationStep uuid5 lower casefold min_quality_chars o s input).1⟩) :
    planRow o (curationStep uuid5 lower casefold min_quality_chars o s input).1 = none := by
  obtain ⟨⟨choices, hinput⟩, hidle, -, hprocessed⟩ := hfinds
  obtain rfl : input = .advance choices := hinput
  have hat : s.point = .idle := hidle
  have hsame : advance uuid5 lower casefold min_quality_chars o s choices = s := by
    unfold advance
    rw [hat]
    exact beginRun_processed hprocessed choices.decision
  show planRow o (advance uuid5 lower casefold min_quality_chars o s choices) = none
  rw [hsame]
  exact h.removed hat hprocessed

/-- Where a plan is left over, every run that follows finds the observation processed. -/
theorem Leftover.run_iff (h : Leftover o s) (inputs : List (CurationInput uuid5 o)) :
    (∀ e ∈ run (curationStep uuid5 lower casefold min_quality_chars o) s inputs,
        FindsProcessed e → planRow o e.after = none) ↔ ∀ input ∈ inputs, ¬ input.Advances := by
  induction inputs generalizing s with
  | nil => exact ⟨fun _ _ hin => (nomatch hin), fun _ _ he => (nomatch he)⟩
  | cons input inputs ih =>
    have hnext : Leftover o (curationStep uuid5 lower casefold min_quality_chars o s input).1 :=
      h.step input
    simp only [run, List.forall_mem_cons]
    constructor
    · rintro ⟨hfirst, hrest⟩
      refine ⟨fun hadvances => ?_, (ih hnext).mp hrest⟩
      have hnone := hfirst ⟨hadvances, h.idle, h.exclusive, h.processed⟩
      have hrow := hnext.planned
      rw [hnone] at hrow
      cases hrow
    · rintro ⟨hfirst, hrest⟩
      exact ⟨fun hfinds => absurd hfinds.advances hfirst, (ih hnext).mpr hrest⟩

end

/-- After a death between the two writes no run begins any more. -/
def NoRunAfterDeath {uuid5 : String → String} {o : MemoryObservation}
    (step : Curation → CurationInput uuid5 o → Curation × Unit) (s : Curation)
    (inputs : List (CurationInput uuid5 o)) : Prop :=
  ∀ before after, inputs = before ++ .interrupt :: after →
    (final step s before).point = .marked → ∀ input ∈ after, ¬ input.Advances

section

variable {uuid5 : String → String} {o : MemoryObservation} {s : Curation}
  {step : Curation → CurationInput uuid5 o → Curation × Unit} {input : CurationInput uuid5 o}
  {inputs : List (CurationInput uuid5 o)}

theorem noRunAfterDeath_cons (h : input = .interrupt → s.point ≠ .marked) :
    NoRunAfterDeath step s (input :: inputs) ↔ NoRunAfterDeath step (step s input).1 inputs := by
  constructor
  · intro hall before after he hmarked
    exact hall (input :: before) after (by rw [he]; rfl) hmarked
  · intro hall before after he hmarked
    cases before with
    | nil =>
      obtain ⟨hinput, -⟩ := List.cons.inj he
      exact absurd hmarked (h hinput)
    | cons first before =>
      obtain ⟨rfl, hrest⟩ := List.cons.inj he
      exact hall before after hrest hmarked

theorem tidy_run_iff {lower casefold : String → String} {min_quality_chars : Nat}
    (huuid : Function.Injective uuid5) (hheld : Curating uuid5 o s) (h : Tidy o s) :
    (∀ e ∈ run (curationStep uuid5 lower casefold min_quality_chars o) s inputs,
        FindsProcessed e → planRow o e.after = none) ↔
      NoRunAfterDeath (curationStep uuid5 lower casefold min_quality_chars o) s inputs := by
  induction inputs generalizing s with
  | nil =>
    refine ⟨fun _ before after he => ?_, fun _ e he => (nomatch he)⟩
    cases before with
    | nil => cases he
    | cons first before => cases he
  | cons input inputs ih =>
    by_cases hdeath : input = .interrupt ∧ s.point = .marked
    · -- what is left over decides about the rest
      obtain ⟨rfl, hmarked⟩ := hdeath
      have hleft : Leftover o { s with point := .idle } := h.leftover hheld hmarked
      have hrest := @Leftover.run_iff uuid5 lower casefold min_quality_chars o _ hleft inputs
      constructor
      · intro hall
        have hnone := hrest.mp fun e he => hall e (List.mem_cons_of_mem _ he)
        intro before after he _
        cases before with
        | nil =>
          obtain ⟨-, rfl⟩ := List.cons.inj he
          exact hnone
        | cons first before =>
          obtain ⟨-, rfl⟩ := List.cons.inj he
          exact fun input hin =>
            hnone input (List.mem_append_right _ (List.mem_cons_of_mem _ hin))
      · intro hcond
        have hnone := hcond [] inputs rfl hmarked
        intro e he
        rcases List.mem_cons.mp he with rfl | he
        · rintro ⟨⟨choices, hinput⟩, -⟩
          cases hinput
        · exact hrest.mpr hnone e he
    · have hok : input = .interrupt → s.point ≠ .marked := fun hinput hmarked =>
        hdeath ⟨hinput, hmarked⟩
      rw [noRunAfterDeath_cons hok, ← ih (curationStep_inv huuid lower casefold min_quality_chars
        s input hheld) (curationStep_tidy hheld h input hok)]
      simp only [run, List.forall_mem_cons]
      exact and_iff_right fun hfinds => h.leaves_no_plan hfinds

theorem Published.tidy (h : Published uuid5 o s) : Tidy o s := by
  refine ⟨fun hpoint => absurd h.unplanned.idle hpoint, fun hrunning => ?_,
    fun _ _ => h.unplanned.none⟩
  rw [h.unplanned.idle] at hrunning
  exact hrunning.elim

end

/-- **The runs that find the observation processed leave no plan exactly when no run follows a
    death between the mark and the removal.** -/
theorem processed_leaves_no_plan_iff (uuid5 lower casefold : String → String)
    (huuid : Function.Injective uuid5) (min_quality_chars : Nat) (o : MemoryObservation)
    (s : Curation) (h : Published uuid5 o s) (inputs : List (CurationInput uuid5 o)) :
    (∀ e ∈ run (curationStep uuid5 lower casefold min_quality_chars o) s inputs,
        FindsProcessed e → planRow o e.after = none) ↔
      NoRunAfterDeath (curationStep uuid5 lower casefold min_quality_chars o) s inputs :=
  tidy_run_iff huuid h.curating h.tidy

/-- A run that is not interrupted, and another one that finds the observation processed. -/
theorem tea_leaves_no_plan :
    let inputs := List.replicate 7 teaStep
    let machine := curationStep teaUuid5 id id 12 teaObservation
    (getObservation (final machine teaStart inputs).db teaObservation.id).toOption.map
        (·.status) = some .processed ∧
      ∀ e ∈ run machine teaStart inputs,
        FindsProcessed e → planRow teaObservation e.after = none := by
  refine ⟨by decide +kernel, (processed_leaves_no_plan_iff teaUuid5 id id teaUuid5_injective 12
    teaObservation teaStart teaStart_published _).mpr fun before after he => ?_⟩
  have hmem : CurationInput.interrupt ∈ List.replicate 7 teaStep := by
    rw [he]
    exact List.mem_append_right _ List.mem_cons_self
  cases List.eq_of_mem_replicate hmem

/-- The last run of `teaInputs` comes after a death between the two writes. -/
theorem teaInputs_leave_plan :
    Published teaUuid5 teaObservation teaStart ∧
      ¬ ∀ e ∈ run (curationStep teaUuid5 id id 12 teaObservation) teaStart teaInputs,
        FindsProcessed e → planRow teaObservation e.after = none := by
  refine ⟨teaStart_published, fun hall => ?_⟩
  have hcond := (tidy_run_iff teaUuid5_injective teaStart_published.curating
    teaStart_published.tidy).mp hall
  have hnone := hcond (teaInputs.take 10) [teaStep] rfl
  have hpoint : (match (final (curationStep teaUuid5 id id 12 teaObservation) teaStart
      (teaInputs.take 10)).point with
    | .marked => true
    | _ => false) = true := by decide +kernel
  split at hpoint
  · rename_i hmarked
    exact hnone hmarked teaStep List.mem_cons_self ⟨_, rfl⟩
  · cases hpoint

end NuSelf.Memory
