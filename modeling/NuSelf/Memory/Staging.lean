/-
  The curator's plan becomes candidates.

  For every action of a plan the curator stages one candidate under an id of the plan and, if the
  policy says so, accepts it at once.  A candidate that is already there is not written again; a
  pending one may go on to its acceptance.  A run is the list of what the tables look like after
  each of its durable writes (`Staging`), so a crash cuts that list short.

  `staging_keeps` — whatever the plan and wherever the run ends, no candidate is lost and no
  reviewed one is changed.
-/
import NuSelf.Memory.Candidates
import NuSelf.Memory.Curator

namespace NuSelf.Memory

open NuSelf.Lib

/-! ## The terminal states -/

/-- No candidate is lost, and a reviewed one stays as it is. -/
def KeepsReviewed (t t' : MemoryTables) : Prop :=
  ∀ id c, t.candidates.get id = some c →
    ∃ c', t'.candidates.get id = some c' ∧ (c.review_state ≠ .pending → c' = c)

theorem KeepsReviewed.refl (t : MemoryTables) : KeepsReviewed t t :=
  fun _ c h => ⟨c, h, fun _ => rfl⟩

theorem KeepsReviewed.trans {t t₁ t' : MemoryTables} (h : KeepsReviewed t t₁)
    (h' : KeepsReviewed t₁ t') : KeepsReviewed t t' := by
  intro id c hc
  obtain ⟨c₁, hc₁, hkept₁⟩ := h id c hc
  obtain ⟨c', hc', hkept'⟩ := h' id c₁ hc₁
  refine ⟨c', hc', fun hreviewed => ?_⟩
  have hsame : c₁ = c := hkept₁ hreviewed
  subst hsame
  exact hkept' hreviewed

theorem KeepsReviewed.write {t t' : MemoryTables} {key : String} {c : MemoryCandidate}
    (hold : ∀ old, t.candidates.get key = some old → old.review_state = .pending)
    (h : ∀ id, t'.candidates.get id = if id = key then some c else t.candidates.get id) :
    KeepsReviewed t t' := by
  intro id old hget
  by_cases hid : id = key
  · subst hid
    have hpending : old.review_state = .pending := hold old hget
    exact ⟨c, by rw [h, if_pos rfl], fun hreviewed => absurd hpending hreviewed⟩
  · exact ⟨old, by rw [h, if_neg hid, hget], fun _ => rfl⟩

theorem accept_keeps {uuid5 : String → String} {t t' : MemoryTables} {id : String}
    {state : TargetReviewState} {r : Readings} {target : ReviewTarget}
    (h : accept uuid5 t id state r = .ok (t', target)) : KeepsReviewed t t' := by
  obtain ⟨c, accepted_id, hget, hpending, hcandidates⟩ := accept_cases h
  refine KeepsReviewed.write (fun old hold => ?_) hcandidates
  have hsame : c = old := Option.some.inj (hget.symm.trans hold)
  rw [← hsame, hpending]

theorem merge_keeps {uuid5 : String → String} {t t' : MemoryTables} {id target_id : String}
    {state : TargetReviewState} {r : Readings} {target : ReviewTarget}
    (h : merge uuid5 t id target_id state r = .ok (t', target)) : KeepsReviewed t t' := by
  obtain ⟨c, accepted_id, hget, hpending, hcandidates⟩ := merge_cases h
  refine KeepsReviewed.write (fun old hold => ?_) hcandidates
  have hsame : c = old := Option.some.inj (hget.symm.trans hold)
  rw [← hsame, hpending]

/-! ## Conflicts -/

/-- The memory object of an action, under the id that it draws. -/
structure IncomingMemory where
  id : String
  title : String
  body : String
  tags : List String
  deriving DecidableEq

def byTitle (memory_type : String) : Bool :=
  registered memory_type && decide (memory_type ≠ "persona_instruction")

/-- `registry.conflicts(existing, incoming)`; `lower` is `str.lower`. -/
def conflicts (lower : String → String) (existing : MemoryEntry) (incoming : IncomingMemory) :
    Bool :=
  (byTitle existing.type && decide (existing.title ≠ "") && decide (incoming.title ≠ "") &&
      decide (lower (strip existing.title) = lower (strip incoming.title))) ||
    decide (existing.id = incoming.id)

/-- The tags that `registry.merge` gives. -/
def mergedTags (existing : MemoryEntry) (incoming : IncomingMemory) : List String :=
  if byTitle existing.type = true then (existing.tags ++ incoming.tags).eraseDups
  else incoming.tags

/-- `repository.list()`: the newest first. -/
def listEntries (t : MemoryTables) : List MemoryEntry :=
  t.entries.records.insertionSort fun a b => b.updated_at ≤ a.updated_at

/-! ## Staging a candidate -/

structure StagingSettings where
  existing_memory_limit : Nat := 12
  auto_accept : Bool := true
  deriving DecidableEq

/-- What one action reads from outside: the id of its memory object, and the readings of its
    acceptance. -/
structure ActionReadings where
  incoming_id : String
  readings : Readings

/-- The tables after each durable write of a stretch, and the error it ends with. -/
structure Staging where
  states : List MemoryTables := []
  error : Option ReviewError := none

/-- The tables a stretch leaves. -/
def Staging.after (s : Staging) (t : MemoryTables) : MemoryTables := s.states.getLastD t

/-- The plan's context of an action. -/
structure ActionSource where
  source_ref : String
  observed_at : String
  candidate_id : String

def ActionSource.evidence (source : ActionSource) (action : MemoryAction) (now : String) :
    MemoryEvidence where
  source_type := .observation
  source_ref := source.source_ref
  summary := action.reason
  observed_at := some source.observed_at
  created_at := now

/-- The candidate of a create action. -/
def newCandidate (source : ActionSource) (action : MemoryAction) (now : String) :
    MemoryCandidate where
  action := .create
  type := action.type
  title := action.title
  body := action.body
  tags := action.tags
  source_refs := [source.source_ref]
  evidence := [source.evidence action now]
  confidence := action.confidence
  reason := action.reason
  id := source.candidate_id
  created_at := now
  updated_at := now
  observed_at := some source.observed_at

/-- The candidate that updates an existing entry. -/
def updateCandidate (source : ActionSource) (action : MemoryAction) (existing : MemoryEntry)
    (title body : String) (tags : List String) (now : String) : MemoryCandidate where
  action := .update
  type := existing.type
  title := title
  body := body
  tags := tags
  source_refs := [source.source_ref]
  evidence := [source.evidence action now]
  confidence := action.confidence
  privacy := existing.privacy
  reason := action.reason
  id := source.candidate_id
  created_at := now
  updated_at := now
  target_entry_id := some existing.id
  observed_at := orText existing.observed_at (some source.observed_at)
  valid_from := existing.valid_from
  valid_until := existing.valid_until
  temporal_note := existing.temporal_note
  relations := existing.relations

section

variable (uuid5 lower : String → String) (settings : StagingSettings)

/-- `_auto_accept`: what an acceptance raises is reported and dropped. -/
def autoAccept (t : MemoryTables) (candidate_id : String) (r : Readings) : List MemoryTables :=
  if settings.auto_accept = false then []
  else
    match accept uuid5 t candidate_id .reviewed r with
    | .error _ => []
    | .ok (t, _) => [t]

/-- Save a candidate and go on to its acceptance. -/
def stage (t : MemoryTables) (c : MemoryCandidate) (r : Readings) : Staging :=
  match t.saveCandidate c with
  | .error e => { error := some e }
  | .ok t => { states := t :: autoAccept uuid5 settings t c.id r }

/-- `_staged_candidate` for a candidate that is there. -/
def resume (t : MemoryTables) (c : MemoryCandidate) (source : ActionSource) (r : Readings) :
    Staging :=
  if c.source_refs ≠ [source.source_ref] then { error := some (.sourceMismatch source.candidate_id) }
  else if c.review_state = .pending then
    { states := autoAccept uuid5 settings t c.id r }
  else {}

def createCandidate (t : MemoryTables) (action : MemoryAction) (source : ActionSource)
    (r : ActionReadings) : Staging :=
  match t.candidates.get source.candidate_id with
  | some c => resume uuid5 settings t c source r.readings
  | none =>
    let incoming : IncomingMemory :=
      { id := r.incoming_id, title := action.title, body := action.body, tags := action.tags }
    let known := (listEntries t).take settings.existing_memory_limit
    match known.find? fun existing => conflicts lower existing incoming with
    | some existing =>
      stage uuid5 settings t (updateCandidate source action existing incoming.title incoming.body
        (mergedTags existing incoming) r.readings.now) r.readings
    | none => stage uuid5 settings t (newCandidate source action r.readings.now) r.readings

/-- `_update_candidate`. -/
def changeCandidate (t : MemoryTables) (action : MemoryAction) (source : ActionSource)
    (r : ActionReadings) : Staging :=
  match t.candidates.get source.candidate_id with
  | some c => resume uuid5 settings t c source r.readings
  | none =>
    match action.entry_id.bind t.entries.get with
    | none => {}
    | some existing =>
      stage uuid5 settings t (updateCandidate source action existing
        (if action.title = "" then existing.title else action.title)
        (if action.body = "" then existing.body else action.body) action.tags r.readings.now)
        r.readings

def applyAction (t : MemoryTables) (action : MemoryAction) (source : ActionSource)
    (r : ActionReadings) : Staging :=
  match action.action with
  | .create => createCandidate uuid5 lower settings t action source r
  | .update => changeCandidate uuid5 settings t action source r
  | .ignore => {}

/-- `plan.candidate_id(action_index)`. -/
def candidateId (source_ref : String) (action_index : Nat) : String :=
  "cand_" ++ uuid5 (source_ref ++ ":" ++ toString action_index)

/-- The loop over the actions of a plan, from an index on. -/
def applyActions (plan : MemoryCuratorPlan) (readings : Nat → ActionReadings) :
    List MemoryAction → Nat → MemoryTables → Staging
  | [], _, _ => {}
  | action :: rest, i, t =>
    let source : ActionSource := ⟨plan.source_ref, plan.observed_at, candidateId uuid5 plan.source_ref i⟩
    let first := applyAction uuid5 lower settings t action source (readings i)
    if first.error.isSome = true then first
    else
      let others := applyActions plan readings rest (i + 1) (first.after t)
      { states := first.states ++ others.states, error := others.error }

end

/-- What the rest of the world decides while a plan is applied. -/
structure StagingRun where
  plan : MemoryCuratorPlan
  settings : StagingSettings := {}
  readings : Nat → ActionReadings
  /-- The process dies after so many writes. -/
  crash : Option Nat := none

/-- A plan applied: the tables it leaves, and its error. -/
def applyPlan (uuid5 lower : String → String) (t : MemoryTables) (run : StagingRun) :
    MemoryTables × Option ReviewError :=
  let staging := applyActions uuid5 lower run.settings run.plan run.readings run.plan.actions 0 t
  match run.crash with
  | none => (staging.after t, staging.error)
  | some n => ((staging.states.take n).getLastD t, none)

/-! ## What staging keeps -/

/-- Every state of a stretch keeps what is reviewed at its start. -/
def Staging.Keeps (s : Staging) (t : MemoryTables) : Prop := ∀ t' ∈ s.states, KeepsReviewed t t'

theorem Staging.Keeps.after {s : Staging} {t : MemoryTables} (h : s.Keeps t) :
    KeepsReviewed t (s.after t) := by
  unfold Staging.after
  cases hlast : s.states.getLast? with
  | none =>
    rw [List.getLastD_eq_getLast?, hlast]
    exact KeepsReviewed.refl t
  | some t' =>
    rw [List.getLastD_eq_getLast?, hlast]
    exact h t' (List.mem_of_getLast? hlast)

theorem Staging.Keeps.cut {s : Staging} {t : MemoryTables} (h : s.Keeps t) (n : Nat) :
    KeepsReviewed t ((s.states.take n).getLastD t) := by
  have hcut : (⟨s.states.take n, none⟩ : Staging).Keeps t :=
    fun t' ht' => h t' (List.mem_of_mem_take ht')
  exact hcut.after

section

variable {uuid5 lower : String → String} {settings : StagingSettings} {t : MemoryTables}
  {r : Readings}

theorem autoAccept_keeps {id : String} :
    ∀ t' ∈ autoAccept uuid5 settings t id r, KeepsReviewed t t' := by
  intro t' ht'
  unfold autoAccept at ht'
  split at ht'
  · cases ht'
  · split at ht'
    · cases ht'
    · rename_i haccept
      rw [List.mem_singleton.mp ht']
      exact accept_keeps haccept

theorem stage_keeps {c : MemoryCandidate} (hfree : t.candidates.get c.id = none) :
    (stage uuid5 settings t c r).Keeps t := by
  unfold stage
  split
  · exact fun t' ht' => nomatch ht'
  · rename_i t₁ hsave
    have hwrite : KeepsReviewed t t₁ := by
      refine KeepsReviewed.write (fun old hold => ?_) (saveCandidate_ok hsave).2.2.2
      rw [hfree] at hold
      cases hold
    intro t' ht'
    rcases List.mem_cons.mp ht' with rfl | ht'
    · exact hwrite
    · exact hwrite.trans (autoAccept_keeps t' ht')

theorem resume_keeps {c : MemoryCandidate} {source : ActionSource} :
    (resume uuid5 settings t c source r).Keeps t := by
  unfold resume
  split
  · exact fun t' ht' => nomatch ht'
  · split
    · exact autoAccept_keeps
    · exact fun t' ht' => nomatch ht'

theorem applyAction_keeps (action : MemoryAction) (source : ActionSource) (r : ActionReadings) :
    (applyAction uuid5 lower settings t action source r).Keeps t := by
  unfold applyAction
  split
  · unfold createCandidate
    split
    · exact resume_keeps
    · rename_i hfree
      dsimp only
      split
      · exact stage_keeps hfree
      · exact stage_keeps hfree
  · unfold changeCandidate
    split
    · exact resume_keeps
    · rename_i hfree
      split
      · exact fun t' ht' => nomatch ht'
      · exact stage_keeps hfree
  · exact fun t' ht' => nomatch ht'

theorem applyActions_keeps (plan : MemoryCuratorPlan) (readings : Nat → ActionReadings) :
    ∀ (actions : List MemoryAction) (i : Nat) (t : MemoryTables),
      (applyActions uuid5 lower settings plan readings actions i t).Keeps t
  | [], _, _ => fun t' ht' => nomatch ht'
  | action :: rest, i, t => by
    rw [applyActions]
    have hfirst := @applyAction_keeps uuid5 lower settings t action
      ⟨plan.source_ref, plan.observed_at, candidateId uuid5 plan.source_ref i⟩ (readings i)
    dsimp only
    split
    · exact hfirst
    · have hothers := applyActions_keeps plan readings rest (i + 1)
        ((applyAction uuid5 lower settings t action
          ⟨plan.source_ref, plan.observed_at, candidateId uuid5 plan.source_ref i⟩
          (readings i)).after t)
      intro t' ht'
      rcases List.mem_append.mp ht' with ht' | ht'
      · exact hfirst t' ht'
      · exact hfirst.after.trans (hothers t' ht')

/-- **A run of the curator loses no candidate and changes no reviewed one**, wherever it ends. -/
theorem staging_keeps (uuid5 lower : String → String) (t : MemoryTables) (run : StagingRun) :
    KeepsReviewed t (applyPlan uuid5 lower t run).1 := by
  have hkeeps : (applyActions uuid5 lower run.settings run.plan run.readings run.plan.actions 0
      t).Keeps t := applyActions_keeps _ _ _ _ _
  unfold applyPlan
  dsimp only
  split
  · exact hkeeps.after
  · exact hkeeps.cut _

end

end NuSelf.Memory
