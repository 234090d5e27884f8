/-
  Threads that can always be read again, and what bricks one.

  Three places have a rule of their own for the label of a tracked item: `reason_propose` takes any
  JSON object, the schema of a step any text that is not empty, the reader of the items only a text
  with a visible character.  Nothing between them narrows what came in, and merging keeps what it
  was given, so the reader meets it as it was written.

  1. `readable_modelDump_iff` — an item of a step is read exactly when its label is not blank.
  2. `mergeTrackedItems_readable_iff` — a merge is readable exactly when all that was added is.
  3. `advance_readable_iff`, `never_bricked_iff` — so is the thread after an advance, and after
     every advance of a run.

  A thread that its constructor accepted has finite numbers only, so saving it does not fail.
-/
import NuSelf.Lib.Run
import NuSelf.Reasoning.Service

namespace NuSelf.Reasoning

open NuSelf.Lib NuSelf.Storage

/-! ## Items -/

theorem Readable.label {d : Mapping} (h : Readable d) :
    ∃ s, itemLabel d = .str s ∧ blank s = false := by
  obtain ⟨item, hitem⟩ := h
  obtain ⟨label, hlabel, -⟩ := bind_ok hitem
  rw [TrackedItem.readLabel] at hlabel
  split at hlabel
  · rename_i s hlookup
    split at hlabel
    · cases hlabel
    · rename_i hblank
      exact ⟨s, by rw [itemLabel, hlookup]; rfl, by simpa using hblank⟩
  · cases hlabel

/-- **An item of a step** is read exactly when its label is not blank. -/
theorem readable_modelDump_iff (item : TrackedItemOutput) :
    Readable item.modelDump ↔ blank item.label = false := by
  constructor
  · intro h
    obtain ⟨s, hs, hblank⟩ := h.label
    cases hs
    exact hblank
  · intro hblank
    refine ⟨⟨item.label, item.description, item.kind, item.status⟩, ?_⟩
    have hlabel : TrackedItem.readLabel item.modelDump = .ok item.label := by
      show (if blank item.label = true then _ else Except.ok item.label) = _
      rw [hblank]
      rfl
    rw [TrackedItem.fromWire, hlabel]
    rfl

theorem modelDump_finite (item : TrackedItemOutput) : Mapping.finite item.modelDump = true := rfl

theorem itemLabel_modelDump (item : TrackedItemOutput) :
    itemLabel item.modelDump = .str item.label := rfl

theorem itemKey_of_str {d : Mapping} {s : String} (h : itemLabel d = .str s) :
    itemKey d = .str s := by
  rw [itemKey, h]
  rfl

theorem truthy_modelDump (item : TrackedItemOutput) :
    truthy (itemLabel item.modelDump) = true := by
  rw [itemLabel_modelDump]
  unfold truthy
  split <;> simp_all [item.label_ne]

/-! ## Merging -/

theorem mem_addItems : ∀ {new_items merged : List Mapping} {d : Mapping},
    (d ∈ merged → d ∈ addItems merged new_items) ∧
      (d ∈ addItems merged new_items → d ∈ merged ∨ d ∈ new_items)
  | [], _, _ => ⟨id, Or.inl⟩
  | d' :: rest, merged, d => by
    rw [addItems]
    split
    · obtain ⟨hstay, hfrom⟩ := @mem_addItems rest (merged ++ [d']) d
      refine ⟨fun h => hstay (List.mem_append_left _ h), fun h => ?_⟩
      rcases hfrom h with h | h
      · rcases List.mem_append.mp h with h | h
        · exact Or.inl h
        · rw [List.mem_singleton.mp h]
          exact Or.inr List.mem_cons_self
      · exact Or.inr (List.mem_cons_of_mem _ h)
    · obtain ⟨hstay, hfrom⟩ := @mem_addItems rest merged d
      exact ⟨hstay, fun h => (hfrom h).imp_right (List.mem_cons_of_mem _)⟩

theorem label_mem_addItems : ∀ {new_items merged : List Mapping} {d : Mapping},
    d ∈ new_items → truthy (itemLabel d) = true →
      itemKey d ∈ (addItems merged new_items).map itemKey
  | d' :: rest, merged, d, hd, htruthy => by
    rw [addItems]
    rcases List.mem_cons.mp hd with rfl | hd
    · split
      · exact List.mem_map_of_mem (mem_addItems.1 (List.mem_append_right _ List.mem_cons_self))
      · rename_i hnot
        have hseen : itemKey d ∈ merged.map itemKey := by
          by_contra hnew
          exact hnot ⟨htruthy, hnew⟩
        obtain ⟨d₀, hd₀, hlabel⟩ := List.mem_map.mp hseen
        rw [← hlabel]
        exact List.mem_map_of_mem (mem_addItems.1 hd₀)
    · split <;> exact label_mem_addItems hd htruthy

section Merge

variable {existing : List Mapping} (new_items retired : List TrackedItemOutput)

theorem mergeTrackedItems_ok (h : ∀ d ∈ existing, Readable d) :
    mergeTrackedItems existing (new_items.map (·.modelDump)) (retired.map (·.modelDump)) =
      .ok (addItems (existing.filter fun d =>
          decide (itemKey d ∉ (retired.map (·.modelDump)).map itemKey))
        (new_items.map (·.modelDump))) := by
  rw [mergeTrackedItems, if_pos]
  refine ⟨List.all_eq_true.mpr fun d hd => ?_, List.all_eq_true.mpr fun d hd => ?_⟩
  · rcases List.mem_append.mp hd with hd | hd
    · obtain ⟨item, -, rfl⟩ := List.mem_map.mp hd
      rfl
    · obtain ⟨s, hs, -⟩ := (h d hd).label
      rw [hs]
      rfl
  · obtain ⟨item, -, rfl⟩ := List.mem_map.mp hd
    rw [itemLabel_modelDump]
    exact Bool.or_true _

/-- **A merge is readable** exactly when all that was added is. -/
theorem mergeTrackedItems_readable_iff (h : ∀ d ∈ existing, Readable d) :
    ∃ merged, mergeTrackedItems existing (new_items.map (·.modelDump))
        (retired.map (·.modelDump)) = .ok merged ∧
      ((∀ d ∈ merged, Readable d) ↔ ∀ item ∈ new_items, blank item.label = false) := by
  let kept := existing.filter fun d =>
    decide (itemKey d ∉ (retired.map (·.modelDump)).map itemKey)
  refine ⟨_, mergeTrackedItems_ok new_items retired h, ?_, ?_⟩
  · intro hmerged item hitem
    have hmem : itemKey item.modelDump ∈
        (addItems kept (new_items.map (·.modelDump))).map itemKey :=
      label_mem_addItems (List.mem_map_of_mem hitem) (truthy_modelDump item)
    obtain ⟨d, hd, hlabel⟩ := List.mem_map.mp hmem
    obtain ⟨s, hs, hblank⟩ := (hmerged d hd).label
    rw [itemKey_of_str hs, itemKey_of_str (itemLabel_modelDump item)] at hlabel
    cases hlabel
    exact hblank
  · intro hlabels d hd
    rcases mem_addItems.2 hd with hd | hd
    · exact h d (List.mem_of_mem_filter hd)
    · obtain ⟨item, hitem, rfl⟩ := List.mem_map.mp hd
      exact (readable_modelDump_iff item).mpr (hlabels item hitem)

theorem mergeTrackedItems_finite {merged : List Mapping}
    (h : mergeTrackedItems existing (new_items.map (·.modelDump)) (retired.map (·.modelDump)) =
      .ok merged) (hfinite : existing.all Mapping.finite = true) :
    merged.all Mapping.finite = true := by
  rw [mergeTrackedItems] at h
  split at h
  · cases h
    refine List.all_eq_true.mpr fun d hd => ?_
    rcases mem_addItems.2 hd with hd | hd
    · exact List.all_eq_true.mp hfinite d (List.mem_of_mem_filter hd)
    · obtain ⟨item, -, rfl⟩ := List.mem_map.mp hd
      exact modelDump_finite item
  · cases h

end Merge

/-! ## The stored thread -/

/-- A call of `advance_thread` with a step built from an output of the model. -/
structure AdvanceCall where
  output : ReasonStepOutput
  step_id : String
  tool_logs : List Mapping
  now : Int

/-- The step that is built for the thread. -/
def AdvanceCall.step (iso : IsoTime) (call : AdvanceCall) (thread : ReasoningThread) :
    Except ReasonError ReasoningStep :=
  call.output.toStep call.step_id (iso.isoformat call.now) thread.id call.tool_logs

/-- The thread is read, the step is built, and both are saved. -/
def advanced (iso : IsoTime) (stored : Record) (call : AdvanceCall) :
    Except ReasonError ReasoningThread := do
  let thread ← ReasoningThread.fromWire iso stored
  let step ← call.step iso thread
  let updated ← advanceThread iso thread step call.now
  if step.finite then return updated else .error (.value "Out of range float values")

/-- One call; a call that raises has stored nothing. -/
def advanceStored (iso : IsoTime) (stored : Record) (call : AdvanceCall) :
    Record × Option ReasonError :=
  match advanced iso stored call with
  | .ok updated => (updated.toWire, none)
  | .error e => (stored, some e)

/-- The stored thread decodes, and its items are read. -/
def ReadableThread (iso : IsoTime) (stored : Record) : Prop :=
  ∃ thread, ReasoningThread.fromWire iso stored = .ok thread ∧
    (∃ items, thread.activeItems = .ok items) ∧ (∃ items, thread.pendingItems = .ok items) ∧
    ∃ items, thread.nextSteps = .ok items

/-- The call saves a step: the step is built, and the thread is active. -/
def AdvanceCall.Applies (iso : IsoTime) (stored : Record) (call : AdvanceCall) : Prop :=
  ∃ thread step, ReasoningThread.fromWire iso stored = .ok thread ∧ thread.status = .active ∧
    call.step iso thread = .ok step

/-- A step that is saved brings no item with a blank label. -/
def LabelsVisible (iso : IsoTime) (stored : Record) (call : AdvanceCall) : Prop :=
  call.Applies iso stored →
    ∀ item ∈ call.output.new_findings ++ call.output.new_pending ++ call.output.next_steps,
      blank item.label = false

/-- The items of a thread are read. -/
structure ItemsReadable (thread : ReasoningThread) : Prop where
  active : ∀ d ∈ thread.active_items_data, Readable d
  pending : ∀ d ∈ thread.pending_items_data, Readable d
  next : ∀ d ∈ thread.next_steps_data, Readable d

/-- What is stored came from a thread whose items are read. -/
def StoredReadable (iso : IsoTime) (stored : Record) : Prop :=
  ∃ thread : ReasoningThread, stored = thread.toWire ∧ thread.WellFormed iso ∧ ItemsReadable thread

section

variable {iso : IsoTime}

theorem readableThread_iff {thread : ReasoningThread} (hwell : thread.WellFormed iso) :
    ReadableThread iso thread.toWire ↔ ItemsReadable thread := by
  rw [ReadableThread, ReasoningThread.fromWire_toWire hwell]
  constructor
  · rintro ⟨read, hread, hactive, hpending, hnext⟩
    cases hread
    exact ⟨tryAll_isOk_iff.mp hactive, tryAll_isOk_iff.mp hpending, tryAll_isOk_iff.mp hnext⟩
  · rintro ⟨hactive, hpending, hnext⟩
    exact ⟨thread, rfl, tryAll_isOk_iff.mpr hactive, tryAll_isOk_iff.mpr hpending,
      tryAll_isOk_iff.mpr hnext⟩

theorem step_ok {call : AdvanceCall} {thread : ReasoningThread} {step : ReasoningStep}
    (h : call.step iso thread = .ok step) :
    step.new_findings_data = call.output.new_findings.map (·.modelDump) ∧
      step.new_pending_data = call.output.new_pending.map (·.modelDump) ∧
      step.retired_findings_data = call.output.retired_findings.map (·.modelDump) ∧
      step.next_steps_data = call.output.next_steps.map (·.modelDump) ∧ step.finite = true := by
  rw [AdvanceCall.step, ReasonStepOutput.toStep, ReasoningStep.postInit] at h
  split at h
  · cases h
  · split at h
    · cases h
    · simp only [ReasoningThread.unit_bind_ok_iff] at h
      obtain ⟨-, -, -, -, -, hstep⟩ := h
      cases hstep
      refine ⟨rfl, rfl, rfl, rfl, ?_⟩
      rw [ReasoningStep.finite]
      cases hconfidence : call.output.confidence with
      | none => rfl
      | some c =>
        obtain ⟨hlow, hhigh⟩ := call.output.confidence_unit c hconfidence
        exact Double.isFinite_of_unit hlow hhigh

/-- **An advance that applies** saves a thread that is readable exactly when its labels are. -/
theorem advance_readable_iff {call : AdvanceCall} {thread : ReasoningThread} {step : ReasoningStep}
    (hwell : thread.WellFormed iso) (hitems : ItemsReadable thread)
    (hactive : thread.status = .active) (hstep : call.step iso thread = .ok step) :
    ∃ updated, advanced iso thread.toWire call = .ok updated ∧ updated.WellFormed iso ∧
      (ItemsReadable updated ↔
        ∀ item ∈ call.output.new_findings ++ call.output.new_pending ++ call.output.next_steps,
          blank item.label = false) := by
  obtain ⟨hfindings, hpending, hretired, hnext, hfinite⟩ := step_ok hstep
  obtain ⟨active, hactiveok, hactiveiff⟩ := mergeTrackedItems_readable_iff
    call.output.new_findings call.output.retired_findings hitems.active
  obtain ⟨pending, hpendingok, hpendingiff⟩ := mergeTrackedItems_readable_iff
    call.output.new_pending [] hitems.pending
  have hpendingok' : mergeTrackedItems thread.pending_items_data
      (call.output.new_pending.map (·.modelDump)) [] = .ok pending := hpendingok
  have hwell' : (thread.withStep iso step call.now active pending).WellFormed iso := by
    refine { hwell with
      updated_at := aware_isoformat iso call.now
      last_advanced_at := ?_
      active_items := mergeTrackedItems_finite _ _ hactiveok hwell.active_items
      pending_items := mergeTrackedItems_finite _ _ hpendingok hwell.pending_items
      next_steps := ?_ }
    · intro v hv
      cases hv
      exact aware_isoformat iso call.now
    · show (if step.next_steps_data = [] then _ else _ : List Mapping).all Mapping.finite = true
      split
      · exact hwell.next_steps
      · rw [hnext, List.all_eq_true]
        intro d hd
        obtain ⟨item, -, rfl⟩ := List.mem_map.mp hd
        exact modelDump_finite item
  have hadvance : advanceThread iso thread step call.now =
      .ok (thread.withStep iso step call.now active pending) := by
    rw [advanceThread, if_neg (not_not.mpr hactive), hfindings, hretired, hactiveok, ok_bind,
      hpending, hpendingok', ok_bind]
    exact ReasoningThread.postInit_ok_iff.mpr ⟨rfl, hwell'⟩
  have hsteps : (∀ d ∈ (thread.withStep iso step call.now active pending).next_steps_data,
      Readable d) ↔ ∀ item ∈ call.output.next_steps, blank item.label = false := by
    show (∀ d ∈ (if step.next_steps_data = [] then _ else _ : List Mapping), Readable d) ↔ _
    rw [hnext]
    split
    · rename_i hnil
      rw [List.map_eq_nil_iff.mp hnil]
      exact ⟨fun _ => List.forall_mem_nil _, fun _ => hitems.next⟩
    · simp only [List.forall_mem_map, readable_modelDump_iff]
  refine ⟨_, ?_, hwell', ?_⟩
  · rw [advanced, ReasoningThread.fromWire_toWire hwell, ok_bind, hstep, ok_bind, hadvance, ok_bind,
      if_pos hfinite]
    rfl
  · simp only [List.forall_mem_append, ← hactiveiff, ← hpendingiff, ← hsteps]
    exact ⟨fun h => ⟨⟨h.active, h.pending⟩, h.next⟩, fun h => ⟨h.1.1, h.1.2, h.2⟩⟩

theorem advanceStored_of_ok {stored : Record} {call : AdvanceCall} {updated : ReasoningThread}
    (h : advanced iso stored call = .ok updated) :
    (advanceStored iso stored call).1 = updated.toWire := by
  rw [advanceStored, h]

theorem applies_of_ok {stored : Record} {call : AdvanceCall} {updated : ReasoningThread}
    (h : advanced iso stored call = .ok updated) : call.Applies iso stored := by
  obtain ⟨thread, hread, h⟩ := bind_ok h
  obtain ⟨step, hstep, h⟩ := bind_ok h
  obtain ⟨updated', hadvance, -⟩ := bind_ok h
  exact ⟨thread, step, hread, (advanceThread_ok hadvance).1, hstep⟩

theorem advanceStored_of_not_applies {stored : Record} {call : AdvanceCall}
    (h : ¬ call.Applies iso stored) : (advanceStored iso stored call).1 = stored := by
  rw [advanceStored]
  cases hadvanced : advanced iso stored call with
  | ok updated => exact absurd (applies_of_ok hadvanced) h
  | error e => rfl

/-- **One call**: the stored thread stays readable exactly when the labels are visible. -/
theorem advanceStored_iff {stored : Record} (h : StoredReadable iso stored) (call : AdvanceCall) :
    (LabelsVisible iso stored call → StoredReadable iso (advanceStored iso stored call).1) ∧
      (ReadableThread iso (advanceStored iso stored call).1 ↔ LabelsVisible iso stored call) := by
  obtain ⟨thread, rfl, hwell, hitems⟩ := h
  by_cases happlies : call.Applies iso thread.toWire
  · obtain ⟨thread', step, hread, hactive, hstep⟩ := happlies
    have happlies : call.Applies iso thread.toWire := ⟨thread', step, hread, hactive, hstep⟩
    rw [ReasoningThread.fromWire_toWire hwell] at hread
    cases hread
    obtain ⟨updated, hadvanced, hupdated, hiff⟩ := advance_readable_iff hwell hitems hactive hstep
    have hvisible : LabelsVisible iso thread.toWire call ↔ ItemsReadable updated := by
      rw [hiff]
      exact ⟨fun h => h happlies, fun h _ => h⟩
    rw [advanceStored_of_ok hadvanced, readableThread_iff hupdated, hvisible]
    exact ⟨fun h => ⟨updated, rfl, hupdated, h⟩, Iff.rfl⟩
  · rw [advanceStored_of_not_applies happlies, readableThread_iff hwell]
    have hvisible : LabelsVisible iso thread.toWire call := fun h => absurd h happlies
    exact ⟨fun _ => ⟨thread, rfl, hwell, hitems⟩, ⟨fun _ => hvisible, fun _ => hitems⟩⟩

end

/-- **Never bricked**: a thread that was started, and any advances.  It is readable at every point,
    exactly when every item it was started with is read, and no step that is saved brings an item
    with a blank label. -/
theorem never_bricked_iff (iso : IsoTime) {topic working_summary prompt id : String}
    {active_items : List Mapping} {mandates : List String} {now : Int} {thread : ReasoningThread}
    (hstart : startThread iso topic working_summary active_items mandates prompt id now =
      .ok thread) (calls : List AdvanceCall) :
    (ReadableThread iso thread.toWire ∧
        ∀ e ∈ run (advanceStored iso) thread.toWire calls, ReadableThread iso e.after) ↔
      (∀ d ∈ active_items, Readable d) ∧
        ∀ e ∈ run (advanceStored iso) thread.toWire calls, LabelsVisible iso e.before e.input := by
  obtain ⟨hwell, -, hactive, hpending, hnext⟩ := startThread_ok hstart
  have hfirst : ReadableThread iso thread.toWire ↔ ∀ d ∈ active_items, Readable d := by
    rw [readableThread_iff hwell]
    constructor
    · intro h d hd
      exact h.active d (hactive ▸ hd)
    · intro h
      exact ⟨fun d hd => h d (hactive ▸ hd), by simp [hpending], by simp [hnext]⟩
  rw [hfirst]
  refine and_congr_right fun hitems => ?_
  have hstored : StoredReadable iso thread.toWire :=
    ⟨thread, rfl, hwell, (readableThread_iff hwell).mp (hfirst.mpr hitems)⟩
  refine @run_forall_iff _ _ _ _ (StoredReadable iso) _ _ (fun s call hs hok => ?_) ?_ _ _ hstored
  · exact (advanceStored_iff hs call).1 hok
  · rintro ⟨s, call, output, after⟩ hof hs
    obtain rfl : after = (advanceStored iso s call).1 := hof.after_eq.symm
    exact (advanceStored_iff hs call).2

/-- A thread started at noon with these items. -/
def noonThread (active_items : List Mapping) : Except ReasonError ReasoningThread :=
  startThread noonIso "A topic" "" active_items [] "Think." "reason-1" 1767268800000000

/-- A step that finds something under this label. -/
def findingCall (label : String) (h : label ≠ "") : AdvanceCall where
  output :=
    { summary := "A step", delta := "", kind := .progress, output := ""
      new_findings := [{ label, label_ne := h }], confidence_unit := fun _ hc => by cases hc }
  step_id := "step-1"
  tool_logs := []
  now := 1767268800000000

/-- **Bricked**: by an empty object among the first items, and by a step whose finding is labelled
    with a blank. -/
theorem thread_bricked :
    (∃ thread, noonThread [[]] = .ok thread ∧ ¬ ReadableThread noonIso thread.toWire) ∧
    ∃ thread, noonThread [] = .ok thread ∧ ReadableThread noonIso thread.toWire ∧
      ¬ ReadableThread noonIso
        (advanceStored noonIso thread.toWire (findingCall " " (by decide))).1 := by
  constructor
  · refine ⟨_, rfl, fun hreadable => ?_⟩
    obtain ⟨hwell, -, hactive, -, -⟩ := startThread_ok (rfl : noonThread [[]] = .ok _)
    have hitem := ((readableThread_iff hwell).mp hreadable).active [] List.mem_cons_self
    obtain ⟨s, hs, hblank⟩ := hitem.label
    cases hs
    cases hblank
  · have hstart : noonThread [] = .ok emptyThread := rfl
    have hitems : ItemsReadable emptyThread :=
      ⟨fun d hd => (nomatch hd), fun d hd => (nomatch hd), fun d hd => (nomatch hd)⟩
    have hwell := (startThread_ok hstart).1
    obtain ⟨updated, hadvanced, hupdated, hiff⟩ := advance_readable_iff hwell hitems rfl
      (rfl : (findingCall " " (by decide)).step noonIso emptyThread = .ok _)
    refine ⟨emptyThread, hstart, (readableThread_iff hwell).mpr hitems, ?_⟩
    rw [advanceStored_of_ok hadvanced, readableThread_iff hupdated, hiff]
    intro h
    have hblank : blank " " = false := h _ List.mem_cons_self
    cases hblank

/-- With an item and a finding that have labels the thread stays readable. -/
theorem labelled_thread_readable :
    ∃ thread, noonThread [[("label", .str "A clue")]] = .ok thread ∧
      (ReadableThread noonIso thread.toWire ∧
        ∀ e ∈ run (advanceStored noonIso) thread.toWire [findingCall "Another" (by decide)],
          ReadableThread noonIso e.after) := by
  refine ⟨_, rfl, (never_bricked_iff noonIso
    (rfl : noonThread [[("label", .str "A clue")]] = .ok _) _).mpr ⟨?_, ?_⟩⟩
  · intro d hd
    rw [List.mem_singleton.mp hd]
    exact ⟨_, rfl⟩
  · intro e he happlies item hitem
    rw [List.mem_singleton.mp he] at hitem
    rw [List.mem_singleton.mp hitem]
    rfl

end NuSelf.Reasoning
