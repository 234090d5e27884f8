/-
  The curation of one observation, over any number of interrupted runs.

  A run stores the model's plan first, applies its actions one after the other (a candidate is
  saved, then accepted), marks the observation and removes the plan.  `advance` is one durable step
  of it, so a process that dies, or an exception that leaves the run, may come between any two;
  the next run begins again from what is stored.  Curation of one observation excludes itself by a
  lock; what others do meanwhile is an input (`Elsewhere`).  An acceptance is one step here: calls
  that race on one candidate are another module's subject.

  1. `getPlan_of_stored` — what a later run reads of a stored plan has the same actions in kind and
     in number, or is refused;
  2. `applyAction_eq`, `advance_applies` — the steps of an action are those of `applyAction`;
  3. `accept_stays`, `merge_stays`, `reject_stays`, `edit_stays`, `applyAction_stays` — reviewers
     and the curators of other observations do no more than `Elsewhere` allows;
  4. `CurationInv` — the invariant: what is stored agrees with what has been done;
  5. `curated_once` — no action is staged or accepted twice, and the observation is marked only
     when every action of its plan is applied.
-/
import NuSelf.Lib.Run
import NuSelf.Memory.Staging

namespace NuSelf.Memory

open NuSelf.Lib NuSelf.Storage

/-! ## Stored plans -/

/-- What the actions of a plan are, without what they say. -/
def MemoryCuratorPlan.kinds (plan : MemoryCuratorPlan) : List MemoryActionType :=
  plan.actions.map MemoryAction.action

/-- The plan is stored under the observation. -/
def PlanStored (db : Records) (observation_id : String) (plan : MemoryCuratorPlan) : Prop :=
  ∃ p, db.get ("memory_curator_plans", observation_id) = some p ∧
    p.record = plan.toWire.erase "id"

theorem readAction_text (kind : MemoryActionType) :
    readAction (some (.str kind.text)) = some kind := by
  cases kind <;> decide

theorem modelValidate_action {fields : List (String × Json)} {item : CuratorActionItem}
    (h : modelValidate (.obj fields) = some item) :
    readAction (fields.lookup "action") = some item.action := by
  unfold modelValidate at h
  dsimp only at h
  split at h
  · simp only [Option.bind_eq_bind, Option.bind_eq_some_iff] at h
    obtain ⟨kind, hkind, _, -, _, -, _, -, _, -, _, -, _, -, _, -, h⟩ := h
    cases h
    exact hkind
  · cases h

theorem actionFromItem_action {casefold : String → String} {item : CuratorActionItem}
    {a : MemoryAction} (h : actionFromItem casefold item = some a) : a.action = item.action := by
  unfold actionFromItem at h
  dsimp only at h
  split_ifs at h
  cases h
  rfl

theorem readBack_action {casefold : String → String} {a b : MemoryAction}
    (h : (modelValidate a.toWire >>= actionFromItem casefold) = some b) :
    b.action = a.action := by
  obtain ⟨item, hitem, hb⟩ := Option.bind_eq_some_iff.mp h
  have hread : readAction (some (.str a.action.text)) = some item.action :=
    modelValidate_action hitem
  rw [readAction_text] at hread
  rw [actionFromItem_action hb]
  exact (Option.some.inj hread).symm

theorem readBack_kinds {casefold : String → String} :
    ∀ {actions read : List MemoryAction},
      (actions.map MemoryAction.toWire).mapM
        (fun item => modelValidate item >>= actionFromItem casefold) = some read →
      read.map MemoryAction.action = actions.map MemoryAction.action
  | [], read, h => by
    cases h
    rfl
  | a :: rest, read, h => by
    rw [List.map_cons, List.mapM_cons] at h
    obtain ⟨b, hb, h⟩ := Option.bind_eq_some_iff.mp h
    obtain ⟨others, hothers, h⟩ := Option.bind_eq_some_iff.mp h
    cases h
    rw [List.map_cons, List.map_cons, readBack_action hb, readBack_kinds hothers]

/-- What is read of a payload, without the id that it is read under, is the payload. -/
theorem erase_withId (record_id : String) (payload : Record) (h : payload.contains "id" = false) :
    (withId record_id payload h).erase "id" = payload := by
  have hnone : payload.get "id" = none := by
    rw [Table.contains] at h
    exact Option.not_isSome_iff_eq_none.mp (by simp [h])
  refine Table.ext ?_
  show (("id", Json.str record_id) :: payload.rows).filter (fun r => decide (r.1 ≠ "id")) = _
  rw [List.filter_cons_of_neg (by simp)]
  exact congrArg Table.rows (payload.erase_of_none hnone)

theorem getPlan_none {casefold : String → String} {db : Records} {observation_id : String}
    (h : getPlan casefold db observation_id = .ok none) :
    db.get ("memory_curator_plans", observation_id) = none := by
  unfold getPlan collectionGet at h
  cases hrow : db.get ("memory_curator_plans", observation_id) with
  | none => rfl
  | some p =>
    rw [hrow] at h
    dsimp only at h
    cases hdecode : decode observation_id p.record with
    | error e =>
      rw [hdecode] at h
      cases h
    | ok raw =>
      rw [hdecode] at h
      dsimp only [Except.map] at h
      split at h
      · cases h
      · cases h

theorem getPlan_some {casefold : String → String} {db : Records} {observation_id : String}
    {read : MemoryCuratorPlan} (h : getPlan casefold db observation_id = .ok (some read)) :
    ∃ p, db.get ("memory_curator_plans", observation_id) = some p ∧
      MemoryCuratorPlan.fromWire casefold p.record observation_id = some read := by
  unfold getPlan collectionGet at h
  cases hrow : db.get ("memory_curator_plans", observation_id) with
  | none =>
    rw [hrow] at h
    cases h
  | some p =>
    rw [hrow] at h
    dsimp only at h
    refine ⟨p, rfl, ?_⟩
    unfold decode at h
    split_ifs at h with hid hcontains
    · cases h
    · dsimp only [Except.map] at h
      rw [erase_withId] at h
      split at h
      · cases h
      · rename_i plan hread
        cases h
        exact hread
    · cases h

/-- **What is read of a stored plan has its source and its actions**, in kind and in number. -/
theorem getPlan_of_stored {casefold : String → String} {db : Records} {observation_id : String}
    {plan read : MemoryCuratorPlan} (h : PlanStored db observation_id plan)
    (hread : getPlan casefold db observation_id = .ok (some read)) :
    read.source_ref = plan.source_ref ∧ read.kinds = plan.kinds := by
  obtain ⟨p, hrow, hrecord⟩ := h
  obtain ⟨p', hrow', hwire⟩ := getPlan_some hread
  obtain rfl : p = p' := Option.some.inj (hrow.symm.trans hrow')
  rw [hrecord] at hwire
  unfold MemoryCuratorPlan.fromWire at hwire
  split_ifs at hwire
  obtain ⟨source_ref, hsource, hwire⟩ := Option.bind_eq_some_iff.mp hwire
  obtain ⟨observed_at, -, hwire⟩ := Option.bind_eq_some_iff.mp hwire
  obtain ⟨actions, hactions, hwire⟩ := Option.bind_eq_some_iff.mp hwire
  cases hwire
  rw [Table.get_erase, if_neg (by decide)] at hsource hactions
  have hsource' : MemoryObservation.readText (some (.str plan.source_ref)) = some source_ref :=
    hsource
  have hactions' : MemoryCuratorPlan.readActions casefold
      (some (.arr (plan.actions.map MemoryAction.toWire))) = some actions := hactions
  constructor
  · unfold MemoryObservation.readText at hsource'
    dsimp only at hsource'
    split_ifs at hsource'
    exact (Option.some.inj hsource').symm
  · unfold MemoryCuratorPlan.readActions at hactions'
    dsimp only at hactions'
    split_ifs at hactions'
    exact readBack_kinds hactions'

/-! ## One action -/

/-- What an action comes to before anything is written for it. -/
inductive ActionCase where
  | ignore
  /-- The entry of an update is not there. -/
  | targetMissing
  /-- The candidate under the id belongs to another source. -/
  | mismatch
  /-- Its candidate is there and waits for its acceptance. -/
  | pending (c : MemoryCandidate)
  | reviewed
  /-- Its candidate is to be saved. -/
  | new (c : MemoryCandidate)

section

variable (lower : String → String) (settings : StagingSettings) (t : MemoryTables)

def stagedCase (source : ActionSource) (c : MemoryCandidate) : ActionCase :=
  if c.source_refs ≠ [source.source_ref] then .mismatch
  else if c.review_state = .pending then .pending c
  else .reviewed

def createCase (action : MemoryAction) (source : ActionSource) (r : ActionReadings) :
    ActionCase :=
  match t.candidates.get source.candidate_id with
  | some c => stagedCase source c
  | none =>
    let incoming : IncomingMemory :=
      { id := r.incoming_id, title := action.title, body := action.body, tags := action.tags }
    let known := (listEntries t).take settings.existing_memory_limit
    match known.find? fun existing => conflicts lower existing incoming with
    | some existing =>
      .new (updateCandidate source action existing incoming.title incoming.body
        (mergedTags existing incoming) r.readings.now)
    | none => .new (newCandidate source action r.readings.now)

def changeCase (action : MemoryAction) (source : ActionSource) (r : ActionReadings) :
    ActionCase :=
  match t.candidates.get source.candidate_id with
  | some c => stagedCase source c
  | none =>
    match action.entry_id.bind t.entries.get with
    | none => .targetMissing
    | some existing =>
      .new (updateCandidate source action existing
        (if action.title = "" then existing.title else action.title)
        (if action.body = "" then existing.body else action.body) action.tags r.readings.now)

def actionCase (action : MemoryAction) (source : ActionSource) (r : ActionReadings) :
    ActionCase :=
  match action.action with
  | .create => createCase lower settings t action source r
  | .update => changeCase t action source r
  | .ignore => .ignore

end

/-- The writes that follow. -/
def ActionCase.writes (uuid5 : String → String) (settings : StagingSettings) (t : MemoryTables)
    (source : ActionSource) (r : Readings) : ActionCase → Staging
  | .mismatch => { error := some (.sourceMismatch source.candidate_id) }
  | .pending c => { states := autoAccept uuid5 settings t c.id r }
  | .new c => stage uuid5 settings t c r
  | .ignore | .targetMissing | .reviewed => {}

theorem resume_eq {uuid5 : String → String} {settings : StagingSettings} {t : MemoryTables}
    {c : MemoryCandidate} {source : ActionSource} {r : Readings} :
    resume uuid5 settings t c source r =
      (stagedCase source c).writes uuid5 settings t source r := by
  unfold resume stagedCase
  split_ifs
  · rfl
  · rfl
  · rfl

/-- **The cases of an action are those of `applyAction`.** -/
theorem applyAction_eq (uuid5 lower : String → String) (settings : StagingSettings)
    (t : MemoryTables) (action : MemoryAction) (source : ActionSource) (r : ActionReadings) :
    applyAction uuid5 lower settings t action source r =
      (actionCase lower settings t action source r).writes uuid5 settings t source r.readings := by
  unfold applyAction actionCase
  cases action.action with
  | create =>
    dsimp only
    unfold createCandidate createCase
    cases t.candidates.get source.candidate_id with
    | some c => exact resume_eq
    | none =>
      dsimp only
      cases ((listEntries t).take settings.existing_memory_limit).find? fun existing =>
          conflicts lower existing
            { id := r.incoming_id, title := action.title, body := action.body,
              tags := action.tags } with
      | some existing => rfl
      | none => rfl
  | update =>
    dsimp only
    unfold changeCandidate changeCase
    cases t.candidates.get source.candidate_id with
    | some c => exact resume_eq
    | none =>
      dsimp only
      cases action.entry_id.bind t.entries.get with
      | some existing => rfl
      | none => rfl
  | ignore => rfl

/-- What each case says about the candidates and the action. -/
def ActionCase.Says (t : MemoryTables) (candidate_id : String) (kind : MemoryActionType) :
    ActionCase → Prop
  | .ignore => kind = .ignore
  | .targetMissing => kind = .update
  | .mismatch => True
  | .pending c => kind ≠ .ignore ∧ c.id = candidate_id ∧ t.candidates.get candidate_id = some c
  | .reviewed => kind ≠ .ignore ∧ ∃ c, t.candidates.get candidate_id = some c
  | .new c => kind ≠ .ignore ∧ c.id = candidate_id ∧ t.candidates.get candidate_id = none

theorem stagedCase_says {t : MemoryTables} {source : ActionSource} {c : MemoryCandidate}
    {kind : MemoryActionType} (hkind : kind ≠ .ignore)
    (hget : t.candidates.get source.candidate_id = some c) :
    (stagedCase source c).Says t source.candidate_id kind := by
  unfold stagedCase
  split_ifs
  · trivial
  · exact ⟨hkind, t.candidates.key_of_get hget, hget⟩
  · exact ⟨hkind, c, hget⟩

theorem actionCase_says (lower : String → String) (settings : StagingSettings)
    (t : MemoryTables) (action : MemoryAction) (source : ActionSource) (r : ActionReadings) :
    (actionCase lower settings t action source r).Says t source.candidate_id action.action := by
  unfold actionCase
  cases action.action with
  | create =>
    dsimp only
    unfold createCase
    split
    · rename_i c hget
      exact stagedCase_says (by decide) hget
    · rename_i hfree
      dsimp only
      split
      · exact ⟨by decide, rfl, hfree⟩
      · exact ⟨by decide, rfl, hfree⟩
  | update =>
    dsimp only
    unfold changeCase
    split
    · rename_i c hget
      exact stagedCase_says (by decide) hget
    · rename_i hfree
      split
      · rfl
      · exact ⟨by decide, rfl, hfree⟩
  | ignore => rfl

/-! ## The machine -/

/-- Where a run is. -/
inductive CuratorPoint where
  /-- No process curates the observation. -/
  | idle
  /-- The action at the index is next. -/
  | acting (plan : MemoryCuratorPlan) (action_index : Nat)
  /-- Its candidate is to be saved. -/
  | saving (plan : MemoryCuratorPlan) (action_index : Nat) (candidate : MemoryCandidate)
  /-- Its candidate is to be accepted. -/
  | accepting (plan : MemoryCuratorPlan) (action_index : Nat) (candidate_id : String)
  | marked

/-- What a run has done. -/
inductive CurationEffect where
  | planned (plan : MemoryCuratorPlan)
  | staged (action_index : Nat) (candidate : MemoryCandidate)
  /-- The candidate became this target, or was merged into it. -/
  | accepted (action_index : Nat) (target : ReviewTarget)
  | ignored (action_index : Nat)
  | targetMissing (action_index : Nat)
  deriving DecidableEq

/-- The curation of one observation.  The memory collections are `tables`, the others `db`. -/
structure Curation where
  db : Records
  tables : MemoryTables
  point : CuratorPoint := .idle
  /-- What all runs have done so far, the latest first. -/
  effects : List CurationEffect := []

/-- What one candidate is to the others: they neither create nor remove it, and what is reviewed
    does not become pending again. -/
structure StaysReviewed (t t' : MemoryTables) (id : String) : Prop where
  absent : t.candidates.get id = none → t'.candidates.get id = none
  present : ∀ c, t.candidates.get id = some c → ∃ c', t'.candidates.get id = some c' ∧
    (c.review_state ≠ .pending → c'.review_state ≠ .pending)

/-- What other processes do meanwhile: anything that leaves the observation and its plan alone, and
    the candidates of the plan as said. -/
structure Elsewhere (uuid5 : String → String) (o : MemoryObservation) where
  db : Records → Records
  tables : MemoryTables → MemoryTables
  observation : ∀ before, (db before).get ("memory_observations", o.id) =
    before.get ("memory_observations", o.id)
  plan : ∀ before, (db before).get ("memory_curator_plans", o.id) =
    before.get ("memory_curator_plans", o.id)
  candidates : ∀ before i,
    StaysReviewed before (tables before) (candidateId uuid5 o.source_ref i)

/-- What the rest of the world decides in one step of a run. -/
structure CuratorChoices where
  decision : MemoryDecision := .deferred
  settings : StagingSettings := {}
  readings : ActionReadings

inductive CurationInput (uuid5 : String → String) (o : MemoryObservation) where
  /-- The next step of the run, or a new run. -/
  | advance (choices : CuratorChoices)
  /-- The process dies, or an exception leaves the run. -/
  | interrupt
  | elsewhere (change : Elsewhere uuid5 o)

section

variable (uuid5 lower casefold : String → String) (min_quality_chars : Nat)
  (o : MemoryObservation)

/-- A run up to its first action. -/
def beginRun (s : Curation) (decision : MemoryDecision) : Curation :=
  if exclusive o.id = false then s
  else
    match getObservation s.db o.id with
    | .error _ => s
    | .ok observation =>
      if observation.status = .processed then s
      else
        match getPlan casefold s.db o.id with
        | .error _ => s
        | .ok (some plan) => { s with point := .acting plan 0 }
        | .ok none =>
          if hasMemoryWorthySignal casefold min_quality_chars observation.fragments = false then
            match markProcessed s.db o.id with
            | .error _ => s
            | .ok db => { s with db }
          else
            match decision with
            | .deferred => s
            | .ready actions _ =>
              -- nothing of the decision is durable before this write
              let plan : MemoryCuratorPlan :=
                ⟨o.id, observation.source_ref, observation.observed_at, actions⟩
              match savePlan s.db plan with
              | .error _ => s
              | .ok db =>
                { s with db, point := .acting plan 0, effects := .planned plan :: s.effects }

/-- One action up to its first write. -/
def act (s : Curation) (plan : MemoryCuratorPlan) (action_index : Nat) (action : MemoryAction)
    (choices : CuratorChoices) : Curation :=
  let source : ActionSource :=
    ⟨plan.source_ref, plan.observed_at, candidateId uuid5 plan.source_ref action_index⟩
  match actionCase lower choices.settings s.tables action source choices.readings with
  | .ignore =>
    { s with
      point := .acting plan (action_index + 1)
      effects := .ignored action_index :: s.effects }
  | .targetMissing =>
    { s with
      point := .acting plan (action_index + 1)
      effects := .targetMissing action_index :: s.effects }
  | .mismatch => { s with point := .idle }
  | .pending c => { s with point := .accepting plan action_index c.id }
  | .reviewed => { s with point := .acting plan (action_index + 1) }
  | .new c => { s with point := .saving plan action_index c }

/-- The candidate of an action is saved. -/
def saveStep (s : Curation) (plan : MemoryCuratorPlan) (action_index : Nat)
    (c : MemoryCandidate) : Curation :=
  match s.tables.saveCandidate c with
  | .error _ => { s with point := .idle }
  | .ok tables =>
    { s with
      tables
      point := .accepting plan action_index c.id
      effects := .staged action_index c :: s.effects }

/-- `_auto_accept`; what it raises is reported and dropped. -/
def acceptStep (s : Curation) (plan : MemoryCuratorPlan) (action_index : Nat)
    (candidate_id : String) (choices : CuratorChoices) : Curation :=
  if choices.settings.auto_accept = false then { s with point := .acting plan (action_index + 1) }
  else
    match accept uuid5 s.tables candidate_id .reviewed choices.readings.readings with
    | .error _ => { s with point := .acting plan (action_index + 1) }
    | .ok (tables, target) =>
      { s with
        tables
        point := .acting plan (action_index + 1)
        effects := .accepted action_index target :: s.effects }

/-- The observation is marked once the actions are through. -/
def markStep (s : Curation) : Curation :=
  match markProcessed s.db o.id with
  | .error _ => { s with point := .idle }
  | .ok db => { s with db, point := .marked }

/-- The next step of a run. -/
def advance (s : Curation) (choices : CuratorChoices) : Curation :=
  match s.point with
  | .idle => beginRun casefold min_quality_chars o s choices.decision
  | .acting plan i =>
    match plan.actions[i]? with
    | some action => act uuid5 lower s plan i action choices
    -- the loop is over
    | none => markStep o s
  | .saving plan i c => saveStep s plan i c
  | .accepting plan i candidate_id => acceptStep uuid5 s plan i candidate_id choices
  | .marked => { s with db := completePlan s.db o.id, point := .idle }

def curationStep (s : Curation) : CurationInput uuid5 o → Curation × Unit
  | .advance choices => (advance uuid5 lower casefold min_quality_chars o s choices, ())
  | .interrupt => ({ s with point := .idle }, ())
  | .elsewhere change => ({ s with db := change.db s.db, tables := change.tables s.tables }, ())

end

/-! ## The steps and the others -/

/-- **The ids of candidates are distinct**, over all plans. -/
theorem candidateId_inj {uuid5 : String → String} (huuid : Function.Injective uuid5)
    {source_ref source_ref' : String} {i j : Nat}
    (h : candidateId uuid5 source_ref i = candidateId uuid5 source_ref' j) :
    source_ref = source_ref' ∧ i = j := by
  have hname := huuid (append_right_cancel_text.mp h)
  have hkey : joinKey ':' source_ref (toString i) = joinKey ':' source_ref' (toString j) := by
    rw [joinKey, joinKey, ← String.append_assoc, ← String.append_assoc]
    exact hname
  have hparts := (joinKey_inj_right (not_mem_numeral (by decide) i)
    (not_mem_numeral (by decide) j)).mp hkey
  exact ⟨hparts.1, numeral_inj.mp hparts.2⟩

section

variable {uuid5 lower casefold : String → String} {settings : StagingSettings}
  {t t₁ t' : MemoryTables} {id key : String} {c : MemoryCandidate} {r : Readings}

theorem StaysReviewed.trans (h : StaysReviewed t t₁ id) (h' : StaysReviewed t₁ t' id) :
    StaysReviewed t t' id := by
  refine ⟨fun hnone => h'.absent (h.absent hnone), fun c hc => ?_⟩
  obtain ⟨c₁, hc₁, hkept₁⟩ := h.present c hc
  obtain ⟨c', hc', hkept'⟩ := h'.present c₁ hc₁
  exact ⟨c', hc', fun hreviewed => hkept' (hkept₁ hreviewed)⟩

theorem StaysReviewed.rewrite {old : MemoryCandidate} (hold : t.candidates.get key = some old)
    (hkept : old.review_state ≠ .pending → c.review_state ≠ .pending)
    (hwrite : ∀ id, t'.candidates.get id = if id = key then some c else t.candidates.get id) :
    StaysReviewed t t' id := by
  by_cases hid : id = key
  · subst hid
    refine ⟨fun hnone => ?_, fun c₀ hc₀ => ⟨c, by rw [hwrite, if_pos rfl], ?_⟩⟩
    · rw [hold] at hnone
      cases hnone
    · obtain rfl : old = c₀ := Option.some.inj (hold.symm.trans hc₀)
      exact hkept
  · have hsame : t'.candidates.get id = t.candidates.get id := by rw [hwrite, if_neg hid]
    exact ⟨hsame.trans, fun c₀ hc₀ => ⟨c₀, hsame.trans hc₀, fun hreviewed => hreviewed⟩⟩

theorem accept_stays {state : TargetReviewState} {target : ReviewTarget}
    (h : accept uuid5 t key state r = .ok (t', target)) : StaysReviewed t t' id := by
  obtain ⟨old, accepted_id, hget, hpending, hwrite⟩ := accept_cases h
  exact StaysReviewed.rewrite hget (fun hreviewed => absurd hpending hreviewed) hwrite

theorem merge_stays {target_id : String} {state : TargetReviewState} {target : ReviewTarget}
    (h : merge uuid5 t key target_id state r = .ok (t', target)) : StaysReviewed t t' id := by
  obtain ⟨old, accepted_id, hget, hpending, hwrite⟩ := merge_cases h
  exact StaysReviewed.rewrite hget (fun hreviewed => absurd hpending hreviewed) hwrite

theorem rewriteCandidate_stays {change : MemoryCandidate → MemoryCandidate}
    {changed : MemoryCandidate} (hid : ∀ c, (change c).id = c.id)
    (hkept : ∀ c, c.review_state ≠ .pending → (change c).review_state ≠ .pending)
    (h : rewriteCandidate t key change = .ok (t', changed)) : StaysReviewed t t' id := by
  obtain ⟨old, hold, h⟩ := bind_ok h
  obtain ⟨saved, hsave, h⟩ := bind_ok h
  cases h
  have hget := getCandidate_ok hold
  have hwrite := (saveCandidate_ok hsave).2.2.2
  rw [hid, t.candidates.key_of_get hget] at hwrite
  exact StaysReviewed.rewrite hget (hkept old) hwrite

theorem reject_stays {now : String} (h : reject t key now = .ok (t', c)) :
    StaysReviewed t t' id := by
  have hrewrite : rewriteCandidate t key (fun c => c.rejected now) = .ok (t', c) := h
  have hid : ∀ c : MemoryCandidate, (c.rejected now).id = c.id := fun _ => rfl
  have hstate : ∀ c : MemoryCandidate, (c.rejected now).review_state = .rejected := fun _ => rfl
  refine rewriteCandidate_stays hid (fun c _ hpending => ?_) hrewrite
  rw [hstate] at hpending
  cases hpending

theorem edit_stays {changes : CandidateChanges} {now : String}
    (h : edit t key changes now = .ok (t', c)) : StaysReviewed t t' id := by
  have hrewrite : rewriteCandidate t key (fun c => c.edited changes now) = .ok (t', c) := h
  have hid : ∀ c : MemoryCandidate, (c.edited changes now).id = c.id := fun _ => rfl
  exact rewriteCandidate_stays hid (fun _ hreviewed => hreviewed) hrewrite

theorem autoAccept_stays : ∀ t' ∈ autoAccept uuid5 settings t key r, StaysReviewed t t' id := by
  intro t' ht'
  unfold autoAccept at ht'
  split at ht'
  · cases ht'
  · split at ht'
    · cases ht'
    · rename_i haccept
      rw [List.mem_singleton.mp ht']
      exact accept_stays haccept

/-- **An action of another plan leaves the candidates of this one alone**, but for an acceptance. -/
theorem applyAction_stays {action : MemoryAction} {source : ActionSource} {r : ActionReadings}
    (hne : id ≠ source.candidate_id) :
    ∀ t' ∈ (applyAction uuid5 lower settings t action source r).states, StaysReviewed t t' id := by
  rw [applyAction_eq]
  have hsays := actionCase_says lower settings t action source r
  revert hsays
  cases actionCase lower settings t action source r with
  | ignore | targetMissing | mismatch | reviewed => exact fun _ t' ht' => nomatch ht'
  | pending c => exact fun _ => autoAccept_stays
  | new c =>
    rintro ⟨-, hid, -⟩
    show ∀ t' ∈ (stage uuid5 settings t c r.readings).states, StaysReviewed t t' id
    unfold stage
    split
    · exact fun t' ht' => nomatch ht'
    · rename_i t₁ hsave
      have hsame : t₁.candidates.get id = t.candidates.get id := by
        rw [(saveCandidate_ok hsave).2.2.2, hid, if_neg hne]
      have hsaved : StaysReviewed t t₁ id :=
        ⟨hsame.trans, fun c₀ hc₀ => ⟨c₀, hsame.trans hc₀, fun hreviewed => hreviewed⟩⟩
      intro t' ht'
      rcases List.mem_cons.mp ht' with rfl | ht'
      · exact hsaved
      · exact hsaved.trans (autoAccept_stays t' ht')

end

theorem acceptStep_after (uuid5 : String → String) (s : Curation) (plan : MemoryCuratorPlan)
    (i : Nat) (candidate_id : String) (choices : CuratorChoices) :
    (acceptStep uuid5 s plan i candidate_id choices).point = .acting plan (i + 1) ∧
      (acceptStep uuid5 s plan i candidate_id choices).db = s.db ∧
      (acceptStep uuid5 s plan i candidate_id choices).tables =
        (autoAccept uuid5 choices.settings s.tables candidate_id
          choices.readings.readings).getLastD s.tables := by
  unfold acceptStep autoAccept
  split_ifs
  · exact ⟨rfl, rfl, rfl⟩
  · cases accept uuid5 s.tables candidate_id .reviewed choices.readings.readings with
    | error e => exact ⟨rfl, rfl, rfl⟩
    | ok accepted => exact ⟨rfl, rfl, rfl⟩

/-- **The steps of an action, undisturbed, do what `applyAction` does.** -/
theorem advance_applies (uuid5 lower casefold : String → String) (min_quality_chars : Nat)
    (o : MemoryObservation) {s : Curation} {plan : MemoryCuratorPlan} {i : Nat}
    {action : MemoryAction} (hpoint : s.point = .acting plan i)
    (haction : plan.actions[i]? = some action) (choices : CuratorChoices) {source : ActionSource}
    (hsource : source = ⟨plan.source_ref, plan.observed_at, candidateId uuid5 plan.source_ref i⟩)
    (hok : (applyAction uuid5 lower choices.settings s.tables action source
      choices.readings).error = none) :
    ∃ n s', (fun s => advance uuid5 lower casefold min_quality_chars o s choices)^[n] s = s' ∧
      s'.point = .acting plan (i + 1) ∧ s'.db = s.db ∧
      s'.tables = (applyAction uuid5 lower choices.settings s.tables action source
        choices.readings).after s.tables := by
  have hact : advance uuid5 lower casefold min_quality_chars o s choices =
      act uuid5 lower s plan i action choices := by
    unfold advance
    rw [hpoint]
    dsimp only
    rw [haction]
  unfold act at hact
  dsimp only at hact
  rw [← hsource] at hact
  rw [applyAction_eq] at hok ⊢
  revert hok hact
  cases actionCase lower choices.settings s.tables action source choices.readings with
  | ignore | targetMissing | reviewed =>
    intro _ hact
    exact ⟨1, _, hact, rfl, rfl, rfl⟩
  | mismatch =>
    intro hok
    cases hok
  | pending c =>
    intro _ hact
    refine ⟨2, _, congrArg (fun s => advance uuid5 lower casefold min_quality_chars o s choices)
      hact, ?_⟩
    exact acceptStep_after uuid5 { s with point := .accepting plan i c.id } plan i c.id choices
  | new c =>
    intro hok hact
    cases hsave : s.tables.saveCandidate c with
    | error e =>
      rw [ActionCase.writes, stage, hsave] at hok
      cases hok
    | ok tables =>
      have hsaved : advance uuid5 lower casefold min_quality_chars o
          { s with point := .saving plan i c } choices =
          ⟨s.db, tables, .accepting plan i c.id, .staged i c :: s.effects⟩ := by
        show saveStep _ plan i c = _
        unfold saveStep
        dsimp only
        rw [hsave]
      have htwo := congrArg (fun s => advance uuid5 lower casefold min_quality_chars o s choices)
        hact
      refine ⟨3, _, congrArg (fun s => advance uuid5 lower casefold min_quality_chars o s choices)
        (htwo.trans hsaved), ?_⟩
      have hafter := acceptStep_after uuid5
        ⟨s.db, tables, .accepting plan i c.id, .staged i c :: s.effects⟩ plan i c.id choices
      rw [ActionCase.writes, stage, hsave, Staging.after, List.getLastD_cons]
      exact hafter

/-! ## What has been done -/

namespace CurationEffect

def plan? : CurationEffect → Option MemoryCuratorPlan
  | .planned plan => some plan
  | _ => none

def stagedIndex : CurationEffect → Option Nat
  | .staged i _ => some i
  | _ => none

def acceptedIndex : CurationEffect → Option Nat
  | .accepted i _ => some i
  | _ => none

end CurationEffect

/-- The plans that were stored. -/
def planned (effects : List CurationEffect) : List MemoryCuratorPlan :=
  effects.filterMap CurationEffect.plan?

/-- The actions for which a candidate was saved. -/
def staged (effects : List CurationEffect) : List Nat :=
  effects.filterMap CurationEffect.stagedIndex

/-- The actions whose candidate became a target or was merged into one. -/
def accepted (effects : List CurationEffect) : List Nat :=
  effects.filterMap CurationEffect.acceptedIndex

/-- An action of a kind is through: its candidate is there; an `ignore` has none, and an update
    whose entry is not there has none either. -/
def Applied (effects : List CurationEffect) (i : Nat) : MemoryActionType → Prop
  | .create => i ∈ staged effects
  | .update => i ∈ staged effects ∨ .targetMissing i ∈ effects
  | .ignore => .ignored i ∈ effects

def AppliedBelow (effects : List CurationEffect) (kinds : List MemoryActionType) (n : Nat) :
    Prop :=
  ∀ i kind, i < n → kinds[i]? = some kind → Applied effects i kind

theorem Applied.cons {effects : List CurationEffect} {i : Nat} {kind : MemoryActionType}
    (h : Applied effects i kind) (e : CurationEffect) : Applied (e :: effects) i kind := by
  have hstaged : i ∈ staged effects → i ∈ staged (e :: effects) := by
    intro hi
    obtain ⟨e', he', hindex⟩ := List.mem_filterMap.mp hi
    exact List.mem_filterMap.mpr ⟨e', List.mem_cons_of_mem _ he', hindex⟩
  cases kind with
  | create => exact hstaged h
  | update => exact Or.imp hstaged (List.mem_cons_of_mem _) h
  | ignore => exact List.mem_cons_of_mem _ h

theorem applied_of_staged {effects : List CurationEffect} {i : Nat} {kind : MemoryActionType}
    (hkind : kind ≠ .ignore) (h : i ∈ staged effects) : Applied effects i kind := by
  cases kind with
  | create => exact h
  | update => exact Or.inl h
  | ignore => exact absurd rfl hkind

theorem AppliedBelow.cons {effects : List CurationEffect} {kinds : List MemoryActionType}
    {n : Nat} (h : AppliedBelow effects kinds n) (e : CurationEffect) :
    AppliedBelow (e :: effects) kinds n :=
  fun i kind hi hkind => (h i kind hi hkind).cons e

theorem AppliedBelow.succ {effects : List CurationEffect} {kinds : List MemoryActionType}
    {n : Nat} {kind : MemoryActionType} (h : AppliedBelow effects kinds n)
    (hkind : kinds[n]? = some kind) (happlied : Applied effects n kind) :
    AppliedBelow effects kinds (n + 1) := by
  intro i k hi hk
  by_cases hin : i = n
  · subst hin
    obtain rfl : kind = k := Option.some.inj (hkind.symm.trans hk)
    exact happlied
  · exact h i k (by omega) hk

/-! ## The invariant -/

section

variable (uuid5 : String → String) (o : MemoryObservation)

/-- The candidates of the plan are those that were staged, each once, and what was accepted was
    accepted once and is reviewed. -/
structure CandidatesInv (t : MemoryTables) (effects : List CurationEffect) : Prop where
  staged_iff : ∀ i, (∃ c, t.candidates.get (candidateId uuid5 o.source_ref i) = some c) ↔
    i ∈ staged effects
  staged_once : (staged effects).Nodup
  accepted_once : (accepted effects).Nodup
  reviewed : ∀ i ∈ accepted effects, ∃ c,
    t.candidates.get (candidateId uuid5 o.source_ref i) = some c ∧ c.review_state ≠ .pending

/-- A plan that a run works with: the stored one, or what was read of it. -/
structure ReadOf (plan read : MemoryCuratorPlan) : Prop where
  source_ref : read.source_ref = o.source_ref
  kinds : read.kinds = plan.kinds

/-- What is known at each point of a run. -/
def AtPoint (status : ObservationStatus) (plan : MemoryCuratorPlan) (s : Curation) :
    CuratorPoint → Prop
  | .idle => True
  | .acting read i => ReadOf o plan read ∧ AppliedBelow s.effects plan.kinds i
  | .saving read i c =>
    ReadOf o plan read ∧ AppliedBelow s.effects plan.kinds i ∧
      (∃ kind, plan.kinds[i]? = some kind ∧ kind ≠ .ignore) ∧
      c.id = candidateId uuid5 o.source_ref i ∧
      s.tables.candidates.get (candidateId uuid5 o.source_ref i) = none
  | .accepting read i candidate_id =>
    ReadOf o plan read ∧ AppliedBelow s.effects plan.kinds (i + 1) ∧
      candidate_id = candidateId uuid5 o.source_ref i
  | .marked => status = .processed

/-- Once the plan has been stored. -/
structure PlannedInv (status : ObservationStatus) (plan : MemoryCuratorPlan) (s : Curation) :
    Prop where
  once : planned s.effects = [plan]
  source_ref : plan.source_ref = o.source_ref
  stored : status = .pending → PlanStored s.db o.id plan
  applied : status = .processed → AppliedBelow s.effects plan.kinds plan.kinds.length
  point : AtPoint uuid5 o status plan s s.point

/-- Before that. -/
structure Unplanned (s : Curation) : Prop where
  none : s.db.get ("memory_curator_plans", o.id) = none
  effects : s.effects = []
  idle : s.point = .idle

structure CurationInv (status : ObservationStatus) (s : Curation) : Prop where
  held : Holds s.db { o with status }
  candidates : CandidatesInv uuid5 o s.tables s.effects
  plan : Unplanned o s ∨ ∃ plan, PlannedInv uuid5 o status plan s

/-- The invariant, whatever the status. -/
def Curating (s : Curation) : Prop := ∃ status, CurationInv uuid5 o status s

end

/-! ## What a step keeps -/

section

variable {uuid5 lower casefold : String → String} {min_quality_chars : Nat}
  {o : MemoryObservation} {status : ObservationStatus} {s : Curation}

theorem Holds.of_row {db db' : Records} {ob : MemoryObservation} (h : Holds db ob)
    (hrow : db'.get ("memory_observations", ob.id) = db.get ("memory_observations", ob.id)) :
    Holds db' ob := by
  refine ⟨h.wellFormed, ?_⟩
  rw [collectionGet, hrow]
  exact h.stored

theorem PlanStored.of_row {db db' : Records} {id : String} {plan : MemoryCuratorPlan}
    (h : PlanStored db id plan)
    (hrow : db'.get ("memory_curator_plans", id) = db.get ("memory_curator_plans", id)) :
    PlanStored db' id plan := by
  obtain ⟨p, hp, hrecord⟩ := h
  exact ⟨p, hrow.trans hp, hrecord⟩

theorem CandidatesInv.of_effects {t : MemoryTables} {effects effects' : List CurationEffect}
    (h : CandidatesInv uuid5 o t effects) (hstaged : staged effects' = staged effects)
    (haccepted : accepted effects' = accepted effects) : CandidatesInv uuid5 o t effects' := by
  constructor
  · rw [hstaged]
    exact h.staged_iff
  · rw [hstaged]
    exact h.staged_once
  · rw [haccepted]
    exact h.accepted_once
  · rw [haccepted]
    exact h.reviewed

theorem beginRun_inv (h : CurationInv uuid5 o status s) (decision : MemoryDecision) :
    Curating uuid5 o (beginRun casefold min_quality_chars o s decision) := by
  have hsame : Curating uuid5 o s := ⟨status, h⟩
  have hread : getObservation s.db o.id = .ok { o with status } := h.held.read
  unfold beginRun
  rw [hread]
  dsimp only
  split
  · exact hsame
  split
  · -- marked already: nothing is done
    exact hsame
  rename_i hstatus
  have hpending : status = .pending := by
    cases status with
    | pending => rfl
    | processed => exact absurd rfl hstatus
  split
  · exact hsame
  · -- the plan of an earlier run
    rename_i read hplan
    refine ⟨status, h.held, h.candidates, ?_⟩
    rcases h.plan with hun | ⟨plan, hinv⟩
    · obtain ⟨p, hrow, -⟩ := getPlan_some hplan
      rw [hun.none] at hrow
      cases hrow
    · obtain ⟨href, hkinds⟩ := getPlan_of_stored (hinv.stored hpending) hplan
      have hof : ReadOf o plan read := ⟨href.trans hinv.source_ref, hkinds⟩
      exact Or.inr ⟨plan, hinv.once, hinv.source_ref, hinv.stored, hinv.applied,
        hof, fun i kind hi => absurd hi (Nat.not_lt_zero i)⟩
  · rename_i hplan
    have hnone := getPlan_none hplan
    -- while the observation is pending its plan stays, so there was none
    have hun : Unplanned o s := by
      rcases h.plan with hun | ⟨plan, hinv⟩
      · exact hun
      · obtain ⟨p, hrow, -⟩ := hinv.stored hpending
        rw [hnone] at hrow
        cases hrow
    split
    · -- nothing worth a plan
      obtain ⟨db', hmark, hheld, hother⟩ := markProcessed_of_holds h.held
      have hmark' : markProcessed s.db o.id = .ok db' := hmark
      rw [hmark']
      refine ⟨.processed, hheld, h.candidates, Or.inl ⟨?_, hun.effects, hun.idle⟩⟩
      exact (hother _ (by simp)).trans hun.none
    · split
      · exact hsame
      · rename_i actions hne
        split
        · exact hsame
        · -- the plan is stored: from here on every run works with it
          rename_i db' hsave
          obtain ⟨p, rfl, hrecord, -⟩ := collectionPut_ok (fromStorage_ok hsave)
          refine ⟨status, h.held.of_row (Table.get_set_ne _ _ (by simp)),
            h.candidates.of_effects rfl rfl, Or.inr ⟨⟨o.id, o.source_ref, o.observed_at, actions⟩,
              ?_, rfl, fun _ => ⟨p, Table.get_set_self _ _ _, hrecord⟩, ?_, ⟨rfl, rfl⟩,
              fun i kind hi => absurd hi (Nat.not_lt_zero i)⟩⟩
          · rw [hun.effects]
            rfl
          · intro hprocessed
            rw [hpending] at hprocessed
            cases hprocessed

theorem CurationInv.underWay (h : CurationInv uuid5 o status s) (hpoint : s.point ≠ .idle) :
    ∃ plan, PlannedInv uuid5 o status plan s := by
  rcases h.plan with hun | hplanned
  · exact absurd hun.idle hpoint
  · exact hplanned

theorem PlannedInv.goto {plan : MemoryCuratorPlan} (h : PlannedInv uuid5 o status plan s)
    (tables : MemoryTables) {point : CuratorPoint}
    (hat : AtPoint uuid5 o status plan { s with tables, point } point) :
    PlannedInv uuid5 o status plan { s with tables, point } :=
  ⟨h.once, h.source_ref, h.stored, h.applied, hat⟩

theorem PlannedInv.gotoWith {plan : MemoryCuratorPlan} (h : PlannedInv uuid5 o status plan s)
    (tables : MemoryTables) {point : CuratorPoint} {e : CurationEffect} (he : e.plan? = none)
    (hat : AtPoint uuid5 o status plan ⟨s.db, tables, point, e :: s.effects⟩ point) :
    PlannedInv uuid5 o status plan ⟨s.db, tables, point, e :: s.effects⟩ where
  once := by
    show (e :: s.effects).filterMap CurationEffect.plan? = [plan]
    rw [List.filterMap_cons_none he]
    exact h.once
  source_ref := h.source_ref
  stored := h.stored
  applied := fun hprocessed => (h.applied hprocessed).cons e
  point := hat

theorem act_inv (h : CurationInv uuid5 o status s) {read : MemoryCuratorPlan} {i : Nat}
    (hpoint : s.point = .acting read i) {action : MemoryAction}
    (haction : read.actions[i]? = some action) (choices : CuratorChoices) :
    Curating uuid5 o (act uuid5 lower s read i action choices) := by
  obtain ⟨plan, hinv⟩ := h.underWay (by rw [hpoint]; exact CuratorPoint.noConfusion)
  have hat := hinv.point
  rw [hpoint] at hat
  obtain ⟨hof, hbelow⟩ := hat
  have hkind : plan.kinds[i]? = some action.action := by
    rw [← hof.kinds, MemoryCuratorPlan.kinds, List.getElem?_map, haction]
    rfl
  have hsays := actionCase_says lower choices.settings s.tables action
    ⟨read.source_ref, read.observed_at, candidateId uuid5 read.source_ref i⟩ choices.readings
  dsimp only at hsays
  rw [hof.source_ref] at hsays
  -- an action whose candidate is there is through
  have hthere : action.action ≠ .ignore →
      (∃ c, s.tables.candidates.get (candidateId uuid5 o.source_ref i) = some c) →
      AppliedBelow s.effects plan.kinds (i + 1) := by
    intro hne hc
    exact hbelow.succ hkind (applied_of_staged hne ((h.candidates.staged_iff i).mp hc))
  unfold act
  dsimp only
  rw [hof.source_ref]
  revert hsays
  cases actionCase lower choices.settings s.tables action
      ⟨o.source_ref, read.observed_at, candidateId uuid5 o.source_ref i⟩ choices.readings with
  | ignore =>
    intro hignore
    have happlied : Applied (.ignored i :: s.effects) i action.action := by
      rw [show action.action = .ignore from hignore]
      exact List.mem_cons_self
    exact ⟨status, h.held, h.candidates.of_effects rfl rfl, Or.inr ⟨plan,
      hinv.gotoWith s.tables rfl ⟨hof, (hbelow.cons _).succ hkind happlied⟩⟩⟩
  | targetMissing =>
    intro hupdate
    have happlied : Applied (.targetMissing i :: s.effects) i action.action := by
      rw [show action.action = .update from hupdate]
      exact Or.inr List.mem_cons_self
    exact ⟨status, h.held, h.candidates.of_effects rfl rfl, Or.inr ⟨plan,
      hinv.gotoWith s.tables rfl ⟨hof, (hbelow.cons _).succ hkind happlied⟩⟩⟩
  | mismatch =>
    intro _
    exact ⟨status, h.held, h.candidates, Or.inr ⟨plan, hinv.goto s.tables trivial⟩⟩
  | pending c =>
    rintro ⟨hne, hid, hget⟩
    exact ⟨status, h.held, h.candidates, Or.inr ⟨plan,
      hinv.goto s.tables ⟨hof, hthere hne ⟨c, hget⟩, hid⟩⟩⟩
  | reviewed =>
    rintro ⟨hne, hc⟩
    exact ⟨status, h.held, h.candidates, Or.inr ⟨plan,
      hinv.goto s.tables ⟨hof, hthere hne hc⟩⟩⟩
  | new c =>
    rintro ⟨hne, hid, hfree⟩
    exact ⟨status, h.held, h.candidates, Or.inr ⟨plan,
      hinv.goto s.tables ⟨hof, hbelow, ⟨_, hkind, hne⟩, hid, hfree⟩⟩⟩

/-- The candidates of the other actions are not written. -/
theorem candidates_kept (huuid : Function.Injective uuid5) {t t' : MemoryTables} {i : Nat}
    {c : MemoryCandidate}
    (hwrite : ∀ id, t'.candidates.get id =
      if id = candidateId uuid5 o.source_ref i then some c else t.candidates.get id) (j : Nat)
    (hj : j ≠ i) : t'.candidates.get (candidateId uuid5 o.source_ref j) =
      t.candidates.get (candidateId uuid5 o.source_ref j) := by
  rw [hwrite, if_neg fun hid => hj (candidateId_inj huuid hid).2]

theorem CandidatesInv.save (huuid : Function.Injective uuid5) {t t' : MemoryTables}
    {effects : List CurationEffect} (h : CandidatesInv uuid5 o t effects) {i : Nat}
    {c : MemoryCandidate}
    (hfree : t.candidates.get (candidateId uuid5 o.source_ref i) = none)
    (hwrite : ∀ id, t'.candidates.get id =
      if id = candidateId uuid5 o.source_ref i then some c else t.candidates.get id) :
    CandidatesInv uuid5 o t' (.staged i c :: effects) := by
  have hnew : i ∉ staged effects := by
    intro hi
    obtain ⟨c', hc'⟩ := (h.staged_iff i).mpr hi
    rw [hfree] at hc'
    cases hc'
  have hkept := candidates_kept huuid hwrite
  refine ⟨fun j => ?_, List.nodup_cons.mpr ⟨hnew, h.staged_once⟩, h.accepted_once,
    fun j hj => ?_⟩
  · show _ ↔ j ∈ i :: staged effects
    rw [List.mem_cons]
    by_cases hji : j = i
    · subst hji
      rw [hwrite, if_pos rfl]
      simp
    · rw [hkept j hji, h.staged_iff j]
      simp [hji]
  · obtain ⟨c', hc', hreviewed⟩ := h.reviewed j hj
    have hji : j ≠ i := by
      rintro rfl
      rw [hfree] at hc'
      cases hc'
    exact ⟨c', (hkept j hji).trans hc', hreviewed⟩

theorem saveStep_inv (huuid : Function.Injective uuid5) (h : CurationInv uuid5 o status s)
    {read : MemoryCuratorPlan} {i : Nat} {c : MemoryCandidate}
    (hpoint : s.point = .saving read i c) : Curating uuid5 o (saveStep s read i c) := by
  obtain ⟨plan, hinv⟩ := h.underWay (by rw [hpoint]; exact CuratorPoint.noConfusion)
  have hat := hinv.point
  rw [hpoint] at hat
  obtain ⟨hof, hbelow, ⟨kind, hkind, hne⟩, hid, hfree⟩ := hat
  unfold saveStep
  split
  · exact ⟨status, h.held, h.candidates, Or.inr ⟨plan, hinv.goto s.tables trivial⟩⟩
  · rename_i tables hsave
    have hwrite := (saveCandidate_ok hsave).2.2.2
    rw [hid] at hwrite
    have happlied : Applied (.staged i c :: s.effects) i kind :=
      applied_of_staged hne List.mem_cons_self
    exact ⟨status, h.held, h.candidates.save huuid hfree hwrite, Or.inr ⟨plan,
      hinv.gotoWith tables rfl ⟨hof, (hbelow.cons _).succ hkind happlied, hid⟩⟩⟩

theorem CandidatesInv.accept (huuid : Function.Injective uuid5) {t t' : MemoryTables}
    {effects : List CurationEffect} (h : CandidatesInv uuid5 o t effects) {i : Nat}
    {state : TargetReviewState} {r : Readings} {target : ReviewTarget}
    (haccept : Memory.accept uuid5 t (candidateId uuid5 o.source_ref i) state r =
      .ok (t', target)) :
    CandidatesInv uuid5 o t' (.accepted i target :: effects) := by
  obtain ⟨c, accepted_id, hget, hpending, hwrite⟩ := accept_cases haccept
  have hnew : i ∉ accepted effects := by
    intro hi
    obtain ⟨c', hc', hreviewed⟩ := h.reviewed i hi
    obtain rfl : c = c' := Option.some.inj (hget.symm.trans hc')
    exact hreviewed hpending
  have hkept := candidates_kept huuid hwrite
  have hself : t'.candidates.get (candidateId uuid5 o.source_ref i) =
      some (c.accepted accepted_id r.now) := by
    rw [hwrite, if_pos rfl]
  refine ⟨fun j => ?_, h.staged_once, List.nodup_cons.mpr ⟨hnew, h.accepted_once⟩,
    fun j hj => ?_⟩
  · show _ ↔ j ∈ staged effects
    rw [← h.staged_iff j]
    by_cases hji : j = i
    · subst hji
      rw [hself, hget]
      simp
    · rw [hkept j hji]
  · have hcases : j ∈ i :: accepted effects := hj
    rcases List.mem_cons.mp hcases with rfl | hbefore
    · have hstate : (c.accepted accepted_id r.now).review_state = .accepted := rfl
      exact ⟨_, hself, by rw [hstate]; decide⟩
    · have hji : j ≠ i := by
        rintro rfl
        exact hnew hbefore
      obtain ⟨c', hc', hreviewed⟩ := h.reviewed j hbefore
      exact ⟨c', (hkept j hji).trans hc', hreviewed⟩

theorem acceptStep_inv (huuid : Function.Injective uuid5) (h : CurationInv uuid5 o status s)
    {read : MemoryCuratorPlan} {i : Nat} {candidate_id : String}
    (hpoint : s.point = .accepting read i candidate_id) (choices : CuratorChoices) :
    Curating uuid5 o (acceptStep uuid5 s read i candidate_id choices) := by
  obtain ⟨plan, hinv⟩ := h.underWay (by rw [hpoint]; exact CuratorPoint.noConfusion)
  have hat := hinv.point
  rw [hpoint] at hat
  obtain ⟨hof, hbelow, hid⟩ := hat
  have hnext : Curating uuid5 o { s with point := .acting read (i + 1) } :=
    ⟨status, h.held, h.candidates, Or.inr ⟨plan, hinv.goto s.tables ⟨hof, hbelow⟩⟩⟩
  unfold acceptStep
  split
  · exact hnext
  · split
    · exact hnext
    · rename_i tables target haccept
      rw [hid] at haccept
      exact ⟨status, h.held, h.candidates.accept huuid haccept, Or.inr ⟨plan,
        hinv.gotoWith tables rfl ⟨hof, hbelow.cons _⟩⟩⟩

/-- **The mark comes when every action is through.** -/
theorem markStep_inv (h : CurationInv uuid5 o status s) {read : MemoryCuratorPlan} {i : Nat}
    (hpoint : s.point = .acting read i) (hend : read.actions[i]? = none) :
    Curating uuid5 o (markStep o s) := by
  obtain ⟨plan, hinv⟩ := h.underWay (by rw [hpoint]; exact CuratorPoint.noConfusion)
  have hat := hinv.point
  rw [hpoint] at hat
  obtain ⟨hof, hbelow⟩ := hat
  -- the plan that is worked with is as long as the stored one
  have hlength : plan.kinds.length ≤ i := by
    rw [← hof.kinds, MemoryCuratorPlan.kinds, List.length_map]
    exact List.getElem?_eq_none_iff.mp hend
  obtain ⟨db', hmark, hheld, hother⟩ := markProcessed_of_holds h.held
  have hmark' : markProcessed s.db o.id = .ok db' := hmark
  have hrow : db'.get ("memory_curator_plans", o.id) = s.db.get ("memory_curator_plans", o.id) :=
    hother _ (by simp)
  unfold markStep
  rw [hmark']
  exact ⟨.processed, hheld, h.candidates, Or.inr ⟨plan, hinv.once, hinv.source_ref, nofun,
    fun _ j kind hj => hbelow j kind (by omega), rfl⟩⟩

theorem interrupt_inv (h : CurationInv uuid5 o status s) :
    Curating uuid5 o { s with point := .idle } := by
  refine ⟨status, h.held, h.candidates, ?_⟩
  rcases h.plan with hun | ⟨plan, hinv⟩
  · exact Or.inl ⟨hun.none, hun.effects, rfl⟩
  · exact Or.inr ⟨plan, hinv.goto s.tables trivial⟩

theorem complete_inv (h : CurationInv uuid5 o status s) (hpoint : s.point = .marked) :
    Curating uuid5 o { s with db := completePlan s.db o.id, point := .idle } := by
  obtain ⟨plan, hinv⟩ := h.underWay (by rw [hpoint]; exact CuratorPoint.noConfusion)
  have hat := hinv.point
  rw [hpoint] at hat
  obtain rfl : status = .processed := hat
  have hrow : (completePlan s.db o.id).get ("memory_observations", o.id) =
      s.db.get ("memory_observations", o.id) := by
    rw [completePlan, collectionDelete, Table.get_erase, if_neg (by simp)]
  exact ⟨.processed, h.held.of_row hrow, h.candidates, Or.inr ⟨plan, hinv.once, hinv.source_ref,
    nofun, hinv.applied, trivial⟩⟩

theorem CandidatesInv.elsewhere {t t' : MemoryTables} {effects : List CurationEffect}
    (h : CandidatesInv uuid5 o t effects)
    (hstays : ∀ i, StaysReviewed t t' (candidateId uuid5 o.source_ref i)) :
    CandidatesInv uuid5 o t' effects := by
  refine ⟨fun i => ?_, h.staged_once, h.accepted_once, fun i hi => ?_⟩
  · rw [← h.staged_iff i]
    constructor
    · rintro ⟨c', hc'⟩
      cases hget : t.candidates.get (candidateId uuid5 o.source_ref i) with
      | some c => exact ⟨c, rfl⟩
      | none =>
        rw [(hstays i).absent hget] at hc'
        cases hc'
    · rintro ⟨c, hc⟩
      obtain ⟨c', hc', -⟩ := (hstays i).present c hc
      exact ⟨c', hc'⟩
  · obtain ⟨c, hc, hreviewed⟩ := h.reviewed i hi
    obtain ⟨c', hc', hkept⟩ := (hstays i).present c hc
    exact ⟨c', hc', hkept hreviewed⟩

theorem elsewhere_inv (h : CurationInv uuid5 o status s) (change : Elsewhere uuid5 o) :
    Curating uuid5 o { s with db := change.db s.db, tables := change.tables s.tables } := by
  refine ⟨status, h.held.of_row (change.observation s.db),
    h.candidates.elsewhere (change.candidates s.tables), ?_⟩
  rcases h.plan with hun | ⟨plan, hinv⟩
  · exact Or.inl ⟨(change.plan s.db).trans hun.none, hun.effects, hun.idle⟩
  · refine Or.inr ⟨plan, hinv.once, hinv.source_ref,
      fun hpending => (hinv.stored hpending).of_row (change.plan s.db), hinv.applied, ?_⟩
    have hat := hinv.point
    show AtPoint uuid5 o status plan _ s.point
    cases hpoint : s.point with
    | idle => trivial
    | acting read i =>
      rw [hpoint] at hat
      exact hat
    | saving read i c =>
      -- the only point that speaks about the tables: nobody else creates the candidate
      rw [hpoint] at hat
      obtain ⟨hof, hbelow, hkind, hid, hfree⟩ := hat
      exact ⟨hof, hbelow, hkind, hid, (change.candidates s.tables i).absent hfree⟩
    | accepting read i candidate_id =>
      rw [hpoint] at hat
      exact hat
    | marked =>
      rw [hpoint] at hat
      exact hat

/-- **Every step keeps the invariant.** -/
theorem curationStep_inv (huuid : Function.Injective uuid5) (lower casefold : String → String)
    (min_quality_chars : Nat) (s : Curation) (input : CurationInput uuid5 o)
    (h : Curating uuid5 o s) :
    Curating uuid5 o (curationStep uuid5 lower casefold min_quality_chars o s input).1 := by
  obtain ⟨status, h⟩ := h
  cases input with
  | interrupt => exact interrupt_inv h
  | elsewhere change => exact elsewhere_inv h change
  | advance choices =>
    show Curating uuid5 o (advance uuid5 lower casefold min_quality_chars o s choices)
    unfold advance
    split
    · exact beginRun_inv h choices.decision
    · rename_i read i hpoint
      split
      · rename_i action haction
        exact act_inv h hpoint haction choices
      · rename_i hend
        exact markStep_inv h hpoint hend
    · rename_i read i c hpoint
      exact saveStep_inv huuid h hpoint
    · rename_i read i candidate_id hpoint
      exact acceptStep_inv huuid h hpoint choices
    · rename_i hpoint
      exact complete_inv h hpoint

end

/-! ## Exactly once -/

/-- The observation as it is published: pending work, without a plan and without candidates. -/
structure Published (uuid5 : String → String) (o : MemoryObservation) (s : Curation) : Prop where
  held : Holds s.db o
  unplanned : Unplanned o s
  unstaged : ∀ i, s.tables.candidates.get (candidateId uuid5 o.source_ref i) = none

/-- The observation is marked in the inbox. -/
def IsProcessed (db : Records) (o : MemoryObservation) : Prop :=
  ∃ marked, getObservation db o.id = .ok marked ∧ marked.status = .processed

/-- What has happened to the plan of an observation, whatever came between. -/
structure ExactlyOnce (uuid5 : String → String) (o : MemoryObservation) (s : Curation) :
    Prop where
  /-- There is one plan at most. -/
  planned_once : (planned s.effects).length ≤ 1
  /-- No action has a second candidate, -/
  staged_once : (staged s.effects).Nodup
  /-- and none a second target. -/
  accepted_once : (accepted s.effects).Nodup
  /-- The stored candidates of the plan are those that were staged, -/
  candidates : ∀ i, (∃ c, s.tables.candidates.get (candidateId uuid5 o.source_ref i) = some c) ↔
    i ∈ staged s.effects
  /-- and one with a target is not open to another acceptance. -/
  reviewed : ∀ i ∈ accepted s.effects, ∃ c,
    s.tables.candidates.get (candidateId uuid5 o.source_ref i) = some c ∧
      c.review_state ≠ .pending
  /-- A marked observation has every action of its plan behind it. -/
  processed : IsProcessed s.db o → ∀ plan ∈ planned s.effects, ∀ i action,
    plan.actions[i]? = some action → Applied s.effects i action.action

section

variable {uuid5 : String → String} {o : MemoryObservation} {s : Curation}

theorem Published.curating (h : Published uuid5 o s) : Curating uuid5 o s := by
  refine ⟨o.status, h.held, ⟨fun i => ?_, ?_, ?_, ?_⟩, Or.inl h.unplanned⟩
  · rw [h.unplanned.effects, h.unstaged i]
    constructor
    · rintro ⟨c, hc⟩
      cases hc
    · intro hi
      cases hi
  · rw [h.unplanned.effects]
    exact List.nodup_nil
  · rw [h.unplanned.effects]
    exact List.nodup_nil
  · rw [h.unplanned.effects]
    intro i hi
    cases hi

theorem Curating.exactlyOnce (h : Curating uuid5 o s) : ExactlyOnce uuid5 o s := by
  obtain ⟨status, h⟩ := h
  have hlength : (planned s.effects).length ≤ 1 := by
    rcases h.plan with hun | ⟨plan, hinv⟩
    · rw [hun.effects]
      exact Nat.zero_le _
    · rw [hinv.once]
      exact Nat.le_refl _
  refine ⟨hlength, h.candidates.staged_once, h.candidates.accepted_once, h.candidates.staged_iff,
    h.candidates.reviewed, ?_⟩
  rintro ⟨marked, hread, hprocessed⟩ plan hplan i action haction
  obtain rfl : { o with status } = marked := Except.ok.inj (h.held.read.symm.trans hread)
  rcases h.plan with hun | ⟨plan', hinv⟩
  · rw [hun.effects] at hplan
    cases hplan
  · rw [hinv.once] at hplan
    obtain rfl := List.mem_singleton.mp hplan
    have hkind : plan.kinds[i]? = some action.action := by
      rw [MemoryCuratorPlan.kinds, List.getElem?_map, haction]
      rfl
    have hi : i < plan.kinds.length := (List.getElem?_eq_some_iff.mp hkind).1
    exact hinv.applied hprocessed i _ hi hkind

end

/-- **An observation is curated exactly once.**  After any steps, any crashes and exceptions
    between them and whatever others do, no action of its plan has a second candidate or a second
    target, and it is marked only when every action is applied. -/
theorem curated_once (uuid5 lower casefold : String → String) (huuid : Function.Injective uuid5)
    (min_quality_chars : Nat) (o : MemoryObservation) (s : Curation) (h : Published uuid5 o s)
    (inputs : List (CurationInput uuid5 o)) :
    ExactlyOnce uuid5 o
      (final (curationStep uuid5 lower casefold min_quality_chars o) s inputs) := by
  have hinv := final_induct (curationStep_inv huuid lower casefold min_quality_chars) s inputs
    h.curating
  exact hinv.exactlyOnce

/-! ### A run with three interruptions -/

/-- `uuid5(NAMESPACE_URL, name).hex` on the name of the candidate of the sample, and another text
    for each other name. -/
def teaUuid5 (name : String) : String :=
  if name = "interaction:b875a1f94d435734bcd6d00a14f9fc7b:0" then
    "d810917bfa575150a06b4978d03be194"
  else "x" ++ name

theorem teaUuid5_injective : Function.Injective teaUuid5 := by
  have hx : ∀ name : String, "x" ++ name ≠ "d810917bfa575150a06b4978d03be194" := by
    intro name he
    have hprefix := hasPrefix_append "x" name
    rw [he] at hprefix
    revert hprefix
    decide
  intro a b hab
  unfold teaUuid5 at hab
  split_ifs at hab with ha hb hb
  · rw [ha, hb]
  · exact absurd hab.symm (hx b)
  · exact absurd hab (hx a)
  · exact append_right_cancel_text.mp hab

def teaObservation : MemoryObservation where
  id := "obs_3954e984cffb57f5a31f479abc5a0d39"
  source_ref := "interaction:b875a1f94d435734bcd6d00a14f9fc7b"
  fragments := ["user: i prefer tea.", "assistant: noted."]
  observed_at := "now"

def teaAction : MemoryAction where
  action := .create
  title := "tea"
  body := "prefers tea"
  type := "preference"
  tags := ["drinks"]
  entry_id := none
  confidence := defaultConfidence
  reason := "stated"

/-- The inbox with the observation, and no memory yet. -/
def teaStart : Curation where
  db := (observe .empty teaObservation).toOption.elim .empty Prod.snd
  tables := .empty

theorem teaStart_published : Published teaUuid5 teaObservation teaStart := by
  have hwell : teaObservation.WellFormed :=
    ⟨by decide, by decide, by decide, by decide, by decide⟩
  obtain ⟨db', hobserve, hheld, hother⟩ :=
    @observe_of_free Table.empty teaObservation hwell rfl
  have hdb : teaStart.db = db' := by
    show (observe Table.empty teaObservation).toOption.elim Table.empty Prod.snd = db'
    rw [hobserve]
    rfl
  refine ⟨by rw [hdb]; exact hheld, ⟨?_, rfl, rfl⟩, fun _ => rfl⟩
  rw [hdb]
  exact hother _ (by decide)

def teaStep : CurationInput teaUuid5 teaObservation :=
  .advance
    { decision := .ready [teaAction] (by decide)
      readings := { incoming_id := "incoming", readings := { fresh := "fresh", now := "now" } } }

/-- The first run dies when its plan is stored, the second one after the candidate is saved, the
    third one when the observation is marked. -/
def teaInputs : List (CurationInput teaUuid5 teaObservation) :=
  [teaStep, .interrupt] ++ [teaStep, teaStep, teaStep, .interrupt] ++
    [teaStep, teaStep, teaStep, teaStep, .interrupt] ++ [teaStep]

theorem tea_curated_once :
    let s := final (curationStep teaUuid5 id id 12 teaObservation) teaStart teaInputs
    (staged s.effects = [0] ∧ accepted s.effects = [0] ∧
        (getObservation s.db teaObservation.id).toOption.map (·.status) = some .processed) ∧
      ExactlyOnce teaUuid5 teaObservation s :=
  ⟨by decide +kernel,
    curated_once teaUuid5 id id teaUuid5_injective 12 teaObservation teaStart teaStart_published
      teaInputs⟩

end NuSelf.Memory
