/-
  What the curator decides is what it reads back.

  The answer of the model is validated (`outputValidate`), turned into actions
  (`actionsFromOutput`) and stored as a plan; after a crash the plan is decoded by the same two
  steps, item by item.  Both steps normalise: texts are stripped, tags are stripped and repeated
  ones dropped.  So the crux is that an action which came out of them is a fixed point
  (`Settled`): it has nothing left to strip, its tags are the four or fewer that were counted, and
  its confidence is still between nought and one.

  1. `normalizeTags_eq`, `normalizeTags_idempotent` — the tags of an action stay as they are;
  2. `settled_of_item` — an accepted item makes a settled action;
  3. `readBack_settled` — a settled action is read back from its wire form;
  4. `plan_round_trip` — so is the plan, also from the table after a restart.
-/
import NuSelf.Lib.Double
import NuSelf.Lib.Lines
import NuSelf.Memory.Curation

namespace NuSelf.Memory

open NuSelf.Lib NuSelf.Storage

/-! ## The answer of the model -/

/-- The names that `_memory_type` accepts: those given, or the built-in ones. -/
def allowedNames (allowed_types : List String) : List String :=
  if allowed_types = [] then memoryTypes else allowed_types

/-- `action_from_item` for the types of any registry. -/
def actionFromItemOf (allowed_types : List String) (casefold : String → String)
    (item : CuratorActionItem) : Option MemoryAction :=
  let title := strip item.title
  let body := strip item.body
  let tags := normalizeTags item.tags
  if item.action ≠ .ignore ∧ (title = "" ∨ body = "") then none
  else if item.action ≠ .ignore ∧ tags = [] then none
  else if item.action ≠ .ignore ∧ looksLikeRawTranscript casefold body = true then none
  else if item.action = .update ∧ item.entry_id.all blank = true then none
  else if item.type ∉ allowedNames allowed_types then none
  else
    some { action := item.action, title, body, type := item.type, tags, entry_id := item.entry_id,
           confidence := item.confidence, reason := item.reason }

/-- `CuratorActionsOutput.model_validate`: the field `actions` and no other. -/
def outputValidate : Json → Option (List CuratorActionItem)
  | .obj fields =>
    if fields.all fun row => row.1 == "actions" then
      match fields.lookup "actions" with
      | some (.arr items) => items.mapM modelValidate
      | _ => none
    else none
  | _ => none

section

variable (allowed_types : List String) (casefold : String → String)

def actionsFromOutput (output : List CuratorActionItem) : Option (List MemoryAction) :=
  output.mapM (actionFromItemOf allowed_types casefold)

/-- `MemoryCurator._decide_actions` behind the agent: no answer, one that is refused and one
    without actions leave the observation for another time. -/
def decideActions (answer : Option Json) : MemoryDecision :=
  match answer.bind outputValidate with
  | none => .deferred
  | some output =>
    match actionsFromOutput allowed_types casefold output with
    | none => .deferred
    | some [] => .deferred
    | some (action :: rest) => .ready (action :: rest) (List.cons_ne_nil action rest)

/-- The actions of a stored plan for the types of any registry. -/
def readActionsOf : Option Json → Option (List MemoryAction)
  | some (.arr items) =>
    if items = [] then none
    else items.mapM fun item => modelValidate item >>= actionFromItemOf allowed_types casefold
  | _ => none

/-- `MemoryCuratorPlan.from_wire` for the types of any registry. -/
def planFromWire (data : Record) (expected_observation_id : String) : Option MemoryCuratorPlan :=
  if MemoryObservation.sameFields data MemoryCuratorPlan.wireFields = false then none
  else if data.get "observation_id" ≠ some (.str expected_observation_id) then none
  else do
    let source_ref ← MemoryObservation.readText (data.get "source_ref")
    let observed_at ← MemoryObservation.readText (data.get "observed_at")
    let actions ← readActionsOf allowed_types casefold (data.get "actions")
    return { observation_id := expected_observation_id, source_ref, observed_at, actions }

/-- `MemoryCuratorPlanStore.get` for the types of any registry. -/
def planOf (db : Records) (observation_id : String) :
    Except MemoryError (Option MemoryCuratorPlan) :=
  match collectionGet db "memory_curator_plans" observation_id with
  | .error _ => .error (.corruptPlan observation_id)
  | .ok none => .ok none
  | .ok (some raw) =>
    match planFromWire allowed_types casefold (raw.erase "id") observation_id with
    | none => .error (.corruptPlan observation_id)
    | some plan => .ok (some plan)

end

/-! ## Tags -/

/-- One turn of the loop of `_normalize_tags`. -/
def addTag (normalized : List String) (clean : String) : List String :=
  if clean = "" ∨ clean ∈ normalized then normalized else normalized ++ [clean]

theorem normalizeTags_eq (tags : List String) :
    normalizeTags tags = (tags.map strip).foldl addTag [] := rfl

theorem addTags_new : ∀ (texts normalized : List String), normalized.Nodup →
    ∃ new, texts.foldl addTag normalized = normalized ++ new ∧ (normalized ++ new).Nodup ∧
      (∀ tag ∈ new, tag ≠ "" ∧ tag ∈ texts) ∧ new.length ≤ texts.length
  | [], normalized, hnodup =>
    ⟨[], by simp, by simpa using hnodup, List.forall_mem_nil _, Nat.le_refl 0⟩
  | text :: texts, normalized, hnodup => by
    rw [List.foldl_cons]
    by_cases hskip : text = "" ∨ text ∈ normalized
    · obtain ⟨new, heq, hnew, hmem, hlength⟩ := addTags_new texts normalized hnodup
      rw [addTag, if_pos hskip]
      refine ⟨new, heq, hnew, fun tag htag => ?_, by rw [List.length_cons]; omega⟩
      exact ⟨(hmem tag htag).1, List.mem_cons_of_mem _ (hmem tag htag).2⟩
    · have hboth : text ≠ "" ∧ text ∉ normalized := not_or.mp hskip
      have hadded : (normalized ++ [text]).Nodup := by
        rw [List.nodup_append_comm, List.singleton_append, List.nodup_cons]
        exact ⟨hboth.2, hnodup⟩
      obtain ⟨new, heq, hnew, hmem, hlength⟩ := addTags_new texts (normalized ++ [text]) hadded
      rw [addTag, if_neg hskip]
      rw [List.append_assoc, List.singleton_append] at heq hnew
      refine ⟨text :: new, heq, hnew, ?_, by rw [List.length_cons, List.length_cons]; omega⟩
      intro tag htag
      rcases List.mem_cons.mp htag with rfl | htag
      · exact ⟨hboth.1, List.mem_cons_self⟩
      · exact ⟨(hmem tag htag).1, List.mem_cons_of_mem _ (hmem tag htag).2⟩

theorem addTags_self : ∀ (texts normalized : List String), (normalized ++ texts).Nodup →
    (∀ tag ∈ texts, tag ≠ "") → texts.foldl addTag normalized = normalized ++ texts
  | [], normalized, _, _ => by simp
  | text :: texts, normalized, hnodup, hne => by
    have hnew : text ∉ normalized := by
      rw [List.nodup_append_comm, List.cons_append, List.nodup_cons] at hnodup
      exact fun hmem => hnodup.1 (List.mem_append_right texts hmem)
    obtain ⟨hfirst, hrest⟩ := List.forall_mem_cons.mp hne
    have happend : normalized ++ text :: texts = normalized ++ [text] ++ texts := by simp
    rw [List.foldl_cons, addTag, if_neg (not_or.mpr ⟨hfirst, hnew⟩), happend,
      addTags_self texts _ (by rwa [happend] at hnodup) hrest]

theorem length_normalizeTags (tags : List String) : (normalizeTags tags).length ≤ tags.length := by
  obtain ⟨new, heq, -, -, hlength⟩ := addTags_new (tags.map strip) [] List.nodup_nil
  rw [normalizeTags_eq, heq, List.nil_append]
  rwa [List.length_map] at hlength

/-- **The tags of an action stay as they are** when they are normalised again. -/
theorem normalizeTags_idempotent (tags : List String) :
    normalizeTags (normalizeTags tags) = normalizeTags tags := by
  obtain ⟨new, heq, hnodup, hmem, -⟩ := addTags_new (tags.map strip) [] List.nodup_nil
  rw [normalizeTags_eq tags, heq, List.nil_append] at *
  have hstrip : new.map strip = new := by
    refine (List.map_congr_left fun tag htag => ?_).trans (List.map_id new)
    obtain ⟨raw, -, rfl⟩ := List.mem_map.mp (hmem tag htag).2
    exact strip_strip raw
  rw [normalizeTags_eq, hstrip, addTags_self new [] hnodup fun tag htag => (hmem tag htag).1,
    List.nil_append]

/-! ## Actions that are read back -/

/-- An action that validation and normalisation leave alone. -/
structure Settled (allowed_types : List String) (casefold : String → String) (a : MemoryAction) :
    Prop where
  title : strip a.title = a.title
  body : strip a.body = a.body
  tags : normalizeTags a.tags = a.tags
  count : a.tags.length ≤ 4
  confidence : unitInterval a.confidence = true
  texts : a.action ≠ .ignore → a.title ≠ "" ∧ a.body ≠ ""
  tagged : a.action ≠ .ignore → a.tags ≠ []
  summary : a.action ≠ .ignore → looksLikeRawTranscript casefold a.body = false
  target : a.action = .update → a.entry_id.all blank = false
  type : a.type ∈ allowedNames allowed_types

theorem readConfidence_unit {value : Option Json} {bits : BitVec 64}
    (h : readConfidence value = some bits) : unitInterval bits = true := by
  unfold readConfidence at h
  split at h
  · cases h
    decide
  · split_ifs at h with hunit
    cases h
    exact hunit
  · split_ifs at h
    · cases h
      decide
    · cases h
      decide
  · cases h

theorem readTags_length {value : Option Json} {tags : List String}
    (h : readTags value = some tags) : tags.length ≤ 4 := by
  unfold readTags at h
  split at h
  · cases h
    exact Nat.zero_le 4
  · split_ifs at h with hlength
    rw [← (mapM_some_iff.mp h).length_eq]
    exact hlength
  · cases h

theorem modelValidate_bounds {value : Json} {item : CuratorActionItem}
    (h : modelValidate value = some item) :
    item.tags.length ≤ 4 ∧ unitInterval item.confidence = true := by
  unfold modelValidate at h
  split at h
  · split at h
    · obtain ⟨_, -, h⟩ := Option.bind_eq_some_iff.mp h
      obtain ⟨_, -, h⟩ := Option.bind_eq_some_iff.mp h
      obtain ⟨_, -, h⟩ := Option.bind_eq_some_iff.mp h
      obtain ⟨_, -, h⟩ := Option.bind_eq_some_iff.mp h
      obtain ⟨tags, htags, h⟩ := Option.bind_eq_some_iff.mp h
      obtain ⟨_, -, h⟩ := Option.bind_eq_some_iff.mp h
      obtain ⟨confidence, hconfidence, h⟩ := Option.bind_eq_some_iff.mp h
      obtain ⟨_, -, h⟩ := Option.bind_eq_some_iff.mp h
      cases h
      exact ⟨readTags_length htags, readConfidence_unit hconfidence⟩
    · cases h
  · cases h

section

variable {allowed_types : List String} {casefold : String → String}

/-- **An accepted item makes a settled action.** -/
theorem settled_of_item {value : Json} {item : CuratorActionItem} {a : MemoryAction}
    (hitem : modelValidate value = some item)
    (ha : actionFromItemOf allowed_types casefold item = some a) :
    Settled allowed_types casefold a := by
  obtain ⟨hcount, hconfidence⟩ := modelValidate_bounds hitem
  unfold actionFromItemOf at ha
  dsimp only at ha
  split_ifs at ha with htexts htags hsummary htarget htype
  cases ha
  constructor
  case title => exact strip_strip _
  case body => exact strip_strip _
  case tags => exact normalizeTags_idempotent _
  case count => exact (length_normalizeTags _).trans hcount
  case confidence => exact hconfidence
  case texts => exact fun hkind => not_or.mp fun hempty => htexts ⟨hkind, hempty⟩
  case tagged => exact fun hkind hnil => htags ⟨hkind, hnil⟩
  case summary => exact fun hkind => Bool.eq_false_iff.mpr fun hraw => hsummary ⟨hkind, hraw⟩
  case target => exact fun hkind => Bool.eq_false_iff.mpr fun hall => htarget ⟨hkind, hall⟩
  case type => exact htype

/-- The item that the wire form of an action is validated to. -/
def MemoryAction.item (a : MemoryAction) : CuratorActionItem where
  action := a.action
  title := a.title
  body := a.body
  type := a.type
  tags := a.tags
  entry_id := a.entry_id
  confidence := a.confidence
  reason := a.reason

theorem readTags_texts {tags : List String} (h : tags.length ≤ 4) :
    readTags (some (.arr (tags.map Json.str))) = some tags := by
  show (if (tags.map Json.str).length ≤ 4 then _ else none) = _
  rw [List.length_map, if_pos h]
  exact mapM_map_of_forall fun _ _ => rfl

theorem readEntryId_wire (entry_id : Option String) :
    readEntryId (some (MemoryObservation.optionalText entry_id)) = some entry_id := by
  cases entry_id <;> rfl

theorem modelValidate_toWire {a : MemoryAction} (h : Settled allowed_types casefold a) :
    modelValidate a.toWire = some a.item := by
  have haction : readAction (some (.str a.action.text)) = some a.action := by
    cases a.action <;> decide
  have htags : readTags (some (.arr (a.tags.map Json.str))) = some a.tags := readTags_texts h.count
  have hentry : readEntryId (some (MemoryObservation.optionalText a.entry_id)) =
      some a.entry_id := readEntryId_wire a.entry_id
  have hconfidence : readConfidence (some (.float a.confidence)) = some a.confidence :=
    if_pos h.confidence
  show (readAction (some (.str a.action.text)) >>= fun action => _) = _
  rw [haction]
  show (readTags (some (.arr (a.tags.map Json.str))) >>= fun tags => _) = _
  rw [htags]
  show (readEntryId (some (MemoryObservation.optionalText a.entry_id)) >>= fun entry_id => _) = _
  rw [hentry]
  show (readConfidence (some (.float a.confidence)) >>= fun confidence => _) = _
  rw [hconfidence]
  rfl

/-- **A settled action is read back from its wire form.** -/
theorem readBack_settled {a : MemoryAction} (h : Settled allowed_types casefold a) :
    (modelValidate a.toWire >>= actionFromItemOf allowed_types casefold) = some a := by
  rw [modelValidate_toWire h]
  show actionFromItemOf allowed_types casefold a.item = some a
  have htitle : strip a.item.title = a.title := h.title
  have hbody : strip a.item.body = a.body := h.body
  have htags : normalizeTags a.item.tags = a.tags := h.tags
  have htexts : ¬ (a.item.action ≠ .ignore ∧ (a.title = "" ∨ a.body = "")) :=
    fun hbad => not_or.mpr (h.texts hbad.1) hbad.2
  have htagged : ¬ (a.item.action ≠ .ignore ∧ a.tags = []) :=
    fun hbad => h.tagged hbad.1 hbad.2
  have hsummary : ¬ (a.item.action ≠ .ignore ∧ looksLikeRawTranscript casefold a.body = true) :=
    fun hbad => Bool.eq_false_iff.mp (h.summary hbad.1) hbad.2
  have htarget : ¬ (a.item.action = .update ∧ a.item.entry_id.all blank = true) :=
    fun hbad => Bool.eq_false_iff.mp (h.target hbad.1) hbad.2
  have htype : ¬ a.item.type ∉ allowedNames allowed_types := not_not.mpr h.type
  unfold actionFromItemOf
  dsimp only
  rw [htitle, hbody, htags, if_neg htexts, if_neg htagged, if_neg hsummary, if_neg htarget,
    if_neg htype]
  rfl

/-! ## Plans that are read back -/

theorem settled_of_items {values : List Json} {output : List CuratorActionItem}
    {actions : List MemoryAction}
    (hread : List.Forall₂ (fun value item => modelValidate value = some item) values output)
    (hmade : List.Forall₂ (fun item a => actionFromItemOf allowed_types casefold item = some a)
      output actions) : ∀ a ∈ actions, Settled allowed_types casefold a := by
  -- the three lists go side by side
  induction hmade generalizing values with
  | nil => exact List.forall_mem_nil _
  | cons ha _ ih =>
    obtain ⟨value, rest, hvalue, hrest, rfl⟩ := List.forall₂_cons_right_iff.mp hread
    exact List.forall_mem_cons.mpr ⟨settled_of_item hvalue ha, ih hrest⟩

theorem settled_of_output {answer : Json} {output : List CuratorActionItem}
    {actions : List MemoryAction} (houtput : outputValidate answer = some output)
    (hactions : actionsFromOutput allowed_types casefold output = some actions) :
    ∀ a ∈ actions, Settled allowed_types casefold a := by
  unfold outputValidate at houtput
  split at houtput
  · split at houtput
    · split at houtput
      · exact settled_of_items (mapM_some_iff.mp houtput) (mapM_some_iff.mp hactions)
      · cases houtput
    · cases houtput
  · cases houtput

/-- **A plan of settled actions is read back from its wire form.** -/
theorem planFromWire_toWire {plan : MemoryCuratorPlan} (hsource : plan.source_ref ≠ "")
    (hobserved : plan.observed_at ≠ "") (hne : plan.actions ≠ [])
    (hsettled : ∀ a ∈ plan.actions, Settled allowed_types casefold a) :
    planFromWire allowed_types casefold plan.toWire plan.observation_id = some plan := by
  have hfields : MemoryObservation.sameFields plan.toWire MemoryCuratorPlan.wireFields = true := by
    simp [MemoryObservation.sameFields, MemoryCuratorPlan.wireFields, MemoryCuratorPlan.toWire,
      Table.keys, Table.contains, Table.get, lookup_row]
  have hid : plan.toWire.get "observation_id" = some (.str plan.observation_id) := rfl
  have hactions : readActionsOf allowed_types casefold (plan.toWire.get "actions") =
      some plan.actions := by
    show (if plan.actions.map MemoryAction.toWire = [] then none else _) = _
    rw [if_neg (by simpa using hne)]
    exact mapM_map_of_forall fun a ha => readBack_settled (hsettled a ha)
  rw [planFromWire, hfields, if_neg (by simp), hid, if_neg (not_not.mpr rfl), hactions]
  show (MemoryObservation.readText (some (.str plan.source_ref)) >>= fun source_ref => _) = _
  rw [MemoryObservation.readText_ok hsource]
  show (MemoryObservation.readText (some (.str plan.observed_at)) >>= fun observed_at => _) = _
  rw [MemoryObservation.readText_ok hobserved]
  rfl

theorem unitInterval_finite {bits : BitVec 64} (h : unitInterval bits = true) :
    Json.finiteLeaf (.float bits) = true := by
  refine (Double.isFinite_iff bits).mpr ?_
  rw [unitInterval, Bool.or_eq_true, decide_eq_true_eq, beq_iff_eq] at h
  rw [Double.magnitude]
  omega

theorem actionToWire_finite {a : MemoryAction} (h : Settled allowed_types casefold a) :
    a.toWire.finite = true := by
  have htags : Json.allItems Json.finiteLeaf (fun _ => true) (a.tags.map Json.str) = true :=
    allItems_map fun _ _ => rfl
  have hentry : (MemoryObservation.optionalText a.entry_id).finite = true := by
    cases a.entry_id <;> rfl
  have hconfidence := unitInterval_finite h.confidence
  refine allFields_iff.mpr fun k v hmem => ⟨rfl, ?_⟩
  simp only [List.mem_cons, Prod.mk.injEq, List.not_mem_nil, or_false] at hmem
  rcases hmem with ⟨-, rfl⟩ | ⟨-, rfl⟩ | ⟨-, rfl⟩ | ⟨-, rfl⟩ | ⟨-, rfl⟩ | ⟨-, rfl⟩ | ⟨-, rfl⟩ |
    ⟨-, rfl⟩
  case _ => rfl
  case _ => rfl
  case _ => rfl
  case _ => rfl
  case _ => exact htags
  case _ => exact hentry
  case _ => exact hconfidence
  case _ => rfl

theorem planToWire_finite {plan : MemoryCuratorPlan}
    (hsettled : ∀ a ∈ plan.actions, Settled allowed_types casefold a) :
    plan.toWire.finite = true := by
  have hactions : Json.allItems Json.finiteLeaf (fun _ => true)
      (plan.actions.map MemoryAction.toWire) = true :=
    allItems_map fun a ha => actionToWire_finite (hsettled a ha)
  refine allFields_iff.mpr fun k v hmem => ⟨rfl, ?_⟩
  simp only [MemoryCuratorPlan.toWire, List.mem_cons, Prod.mk.injEq, List.not_mem_nil, or_false]
    at hmem
  rcases hmem with ⟨-, rfl⟩ | ⟨-, rfl⟩ | ⟨-, rfl⟩ | ⟨-, rfl⟩
  · rfl
  · rfl
  · rfl
  · exact hactions

theorem planOf_of_stored {db : Records} {plan : MemoryCuratorPlan}
    (hid : plan.observation_id ≠ "") (hsource : plan.source_ref ≠ "")
    (hobserved : plan.observed_at ≠ "") (hne : plan.actions ≠ [])
    (hsettled : ∀ a ∈ plan.actions, Settled allowed_types casefold a)
    (hstored : PlanStored db plan.observation_id plan) :
    planOf allowed_types casefold db plan.observation_id = .ok (some plan) := by
  obtain ⟨p, hrow, hrecord⟩ := hstored
  have hplain : plan.toWire.erase "id" = plan.toWire := plan.toWire.erase_of_none rfl
  have hcontains : p.record.contains "id" = false := by
    rw [hrecord]
    exact contains_erase_self plan.toWire "id"
  have hraw : collectionGet db "memory_curator_plans" plan.observation_id =
      .ok (some (withId plan.observation_id p.record hcontains)) := by
    rw [collectionGet, hrow]
    show (decode plan.observation_id p.record).map some = _
    rw [decode, if_neg hid, dif_pos hcontains]
    rfl
  rw [planOf, hraw]
  dsimp only
  rw [erase_withId, hrecord, hplain, planFromWire_toWire hsource hobserved hne hsettled]

theorem savePlan_of_settled (db : Records) {plan : MemoryCuratorPlan}
    (hsettled : ∀ a ∈ plan.actions, Settled allowed_types casefold a) :
    ∃ db', savePlan db plan = .ok db' ∧ PlanStored db' plan.observation_id plan := by
  obtain ⟨db', hput⟩ : ∃ db', collectionPut db "memory_curator_plans" plan.observation_id
      plan.toWire = .ok db' := by
    have hid : idMatches plan.toWire plan.observation_id := Or.inl rfl
    unfold collectionPut
    rw [if_pos hid, dif_pos (planToWire_finite hsettled)]
    exact ⟨_, rfl⟩
  obtain ⟨p, rfl, hrecord, -⟩ := collectionPut_ok hput
  refine ⟨db.set _ p, ?_, p, Table.get_set_self db _ p, hrecord⟩
  rw [savePlan, hput]
  rfl

end

/-! ## What the curator decides -/

theorem getObservation_texts {db : Records} {observation_id : String} {o : MemoryObservation}
    (h : getObservation db observation_id = .ok o) :
    observation_id ≠ "" ∧ o.source_ref ≠ "" ∧ o.observed_at ≠ "" := by
  obtain ⟨raw, hraw, h⟩ := bind_ok h
  cases raw with
  | none => cases h
  | some raw =>
    have hget := fromStorage_ok hraw
    have hid : observation_id ≠ "" := by
      rintro rfl
      unfold collectionGet at hget
      split at hget
      · cases hget
      · rw [decode, if_pos rfl] at hget
        cases hget
    have hread : ∀ {field : Option Json} {s : String} {name : String},
        MemoryObservation.required name (MemoryObservation.readText field) = .ok s → s ≠ "" := by
      intro field s name hs
      cases hfield : MemoryObservation.readText field with
      | none =>
        rw [hfield] at hs
        cases hs
      | some text =>
        rw [hfield] at hs
        cases hs
        unfold MemoryObservation.readText at hfield
        split at hfield
        · split_ifs at hfield with hempty
          cases hfield
          exact hempty
        · cases hfield
    dsimp only [MemoryObservation.fromWire] at h
    split_ifs at h
    obtain ⟨_, -, h⟩ := bind_ok h
    obtain ⟨source_ref, hsource, h⟩ := bind_ok h
    obtain ⟨_, -, h⟩ := bind_ok h
    obtain ⟨observed_at, hobserved, h⟩ := bind_ok h
    obtain ⟨_, -, h⟩ := bind_ok h
    obtain ⟨_, -, h⟩ := bind_ok h
    cases h
    exact ⟨hid, hread hsource, hread hobserved⟩

/-- The plan that a run builds for an observation. -/
def plannedFor (observation_id : String) (observation : MemoryObservation)
    (actions : List MemoryAction) : MemoryCuratorPlan where
  observation_id
  source_ref := observation.source_ref
  observed_at := observation.observed_at
  actions

/-- **Whatever the model answers, its plan is read back.**  Accepted actions make no plan at all, or
    one that its wire form decodes to, that can be stored, and that every later run reads for as
    long as its row is there. -/
theorem plan_round_trip (allowed_types : List String) (casefold : String → String) (db : Records)
    (observation_id : String) (observation : MemoryObservation) (answer : Json)
    (output : List CuratorActionItem) (actions : List MemoryAction)
    (hobservation : getObservation db observation_id = .ok observation)
    (houtput : outputValidate answer = some output)
    (hactions : actionsFromOutput allowed_types casefold output = some actions) :
    let plan := plannedFor observation_id observation actions
    (actions = [] ∧ decideActions allowed_types casefold (some answer) = .deferred) ∨
      ∃ hne : actions ≠ [],
        decideActions allowed_types casefold (some answer) = .ready actions hne ∧
        planFromWire allowed_types casefold plan.toWire observation_id = some plan ∧
        ∃ db', savePlan db plan = .ok db' ∧
          ∀ later : Records, later.get ("memory_curator_plans", observation_id) =
              db'.get ("memory_curator_plans", observation_id) →
            planOf allowed_types casefold later observation_id = .ok (some plan) := by
  intro plan
  have hdecide : decideActions allowed_types casefold (some answer) =
      match actionsFromOutput allowed_types casefold output with
      | none => .deferred
      | some [] => .deferred
      | some (action :: rest) => .ready (action :: rest) (List.cons_ne_nil action rest) := by
    rw [decideActions, Option.bind_some, houtput]
  rw [hactions] at hdecide
  cases actions with
  | nil => exact Or.inl ⟨rfl, hdecide⟩
  | cons action rest =>
    obtain ⟨hid, hsource, hobserved⟩ := getObservation_texts hobservation
    have hne : plan.actions ≠ [] := List.cons_ne_nil action rest
    have hsettled : ∀ a ∈ plan.actions, Settled allowed_types casefold a :=
      settled_of_output houtput hactions
    obtain ⟨db', hsave, p, hrow, hrecord⟩ := savePlan_of_settled db hsettled
    refine Or.inr ⟨hne, hdecide, planFromWire_toWire hsource hobserved hne hsettled, db', hsave,
      fun later hlater => ?_⟩
    exact planOf_of_stored hid hsource hobserved hne hsettled ⟨p, hlater.trans hrow, hrecord⟩

/-- The model's answer to the observation of the sample: blanks to strip and a tag said twice. -/
def teaAnswer : Json :=
  .obj [("actions", .arr [.obj [("action", .str "create"), ("title", .str " tea "),
    ("body", .str "prefers tea\n"), ("type", .str "preference"),
    ("tags", .arr [.str "drinks", .str " drinks"]), ("reason", .str "stated"),
    ("confidence", .int 1)]])]

theorem tea_plan_round_trip :
    ∃ actions, (outputValidate teaAnswer).bind (actionsFromOutput memoryTypes id) = some actions ∧
      ∃ db', savePlan teaStart.db (plannedFor teaObservation.id teaObservation actions) = .ok db' ∧
        planOf memoryTypes id db' teaObservation.id =
          .ok (some (plannedFor teaObservation.id teaObservation actions)) := by
  obtain ⟨output, houtput⟩ : ∃ output, outputValidate teaAnswer = some output := ⟨_, rfl⟩
  have hactions : actionsFromOutput memoryTypes id output =
      some [{ teaAction with confidence := 0x3ff0000000000000#64 }] := by
    rw [← Option.some_inj.mp houtput]
    decide +kernel
  have htrip := plan_round_trip memoryTypes id teaStart.db teaObservation.id teaObservation
    teaAnswer output _ teaStart_published.1.read houtput hactions
  rcases htrip with ⟨hnil, -⟩ | ⟨-, -, -, db', hsave, hread⟩
  · cases hnil
  · refine ⟨_, ?_, db', hsave, hread db' rfl⟩
    rw [houtput]
    exact hactions

end NuSelf.Memory
