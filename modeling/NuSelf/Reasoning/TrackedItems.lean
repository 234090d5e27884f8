/-
  The tracked items of a thread, over any calls of `advance_thread`.

  A merge drops the items whose label the step retires, and then takes the new items one after the
  other, each whose label is not empty and not there yet.  Labels are compared as a set compares
  them (`itemKey`), and an item without a label has the empty one.

  1. `addItems_eq` — the loop takes the first new item of each label that is not empty and was not
     there.
  2. `mergeTrackedItems_merges` — what a merge leaves (`Merges`).
  3. `tracked_items_kept` — over any calls the labels stay distinct, every advance merges, and an
     item stays as it is until its label is retired.
-/
import NuSelf.Lib.Chosen
import NuSelf.Reasoning.EvidenceRefs

namespace NuSelf.Reasoning

open NuSelf.Lib

/-! ## A merge -/

def DistinctLabels (items : List Mapping) : Prop := (items.map itemKey).Nodup

def unretired (existing retired : List Mapping) : List Mapping :=
  existing.filter fun d => decide (itemKey d ∉ retired.map itemKey)

/-- The items that bring a label. -/
def labelled (new_items : List Mapping) : List Mapping :=
  new_items.filter fun d => truthy (itemLabel d)

/-- What a merge leaves of the items that were there and of those the step brings. -/
structure Merges (existing new_items retired merged : List Mapping) : Prop where
  /-- What is not retired is as it was; then comes the first new item of each other label. -/
  items : merged = unretired existing retired ++
    chosen (isNew itemKey) (unretired existing retired) (labelled new_items)
  distinct : DistinctLabels merged
  /-- A retired label is back only with an item that the step brings. -/
  readded : ∀ d ∈ merged, itemKey d ∈ retired.map itemKey →
    d ∈ new_items ∧ truthy (itemLabel d) = true

theorem DistinctLabels.sublist {items items' : List Mapping} (h : DistinctLabels items')
    (hsub : items.Sublist items') : DistinctLabels items :=
  List.Nodup.sublist (hsub.map itemKey) h

/-- **The loop** takes the first new item of each label that is not there. -/
theorem addItems_eq (kept new_items : List Mapping) :
    addItems kept new_items = kept ++ chosen (isNew itemKey) kept (labelled new_items) := by
  rw [← foldl_addBy]
  induction new_items generalizing kept with
  | nil => rfl
  | cons d rest ih =>
    rw [addItems, labelled, List.filter_cons]
    cases truthy (itemLabel d) with
    | false => exact ih kept
    | true =>
      rw [if_pos rfl, List.foldl_cons, addBy]
      by_cases hseen : itemKey d ∈ kept.map itemKey
      · rw [if_neg fun h => h.2 hseen, if_pos hseen]
        exact ih kept
      · rw [if_pos ⟨rfl, hseen⟩, if_neg hseen]
        exact ih (kept ++ [d])

/-- **A merge**, of items whose labels are distinct. -/
theorem mergeTrackedItems_merges {existing new_items retired merged : List Mapping}
    (hdistinct : DistinctLabels existing)
    (h : mergeTrackedItems existing new_items retired = .ok merged) :
    Merges existing new_items retired merged := by
  rw [mergeTrackedItems] at h
  split at h
  · obtain rfl := Except.ok.inj h
    have hitems := addItems_eq (unretired existing retired) new_items
    have hkept : DistinctLabels (unretired existing retired) :=
      hdistinct.sublist List.filter_sublist
    obtain ⟨htaken, hapart⟩ := nodup_chosen itemKey
      (unretired existing retired) (labelled new_items)
    refine ⟨hitems, ?_, ?_⟩
    · show ((addItems (unretired existing retired) new_items).map itemKey).Nodup
      rw [hitems, List.map_append, List.nodup_append]
      refine ⟨hkept, htaken, ?_⟩
      intro key hold key' hnew heq
      obtain ⟨d, hd, rfl⟩ := List.mem_map.mp hold
      obtain ⟨d', hd', rfl⟩ := List.mem_map.mp hnew
      exact hapart d' hd' d hd heq
    · intro d hd hretired
      rcases List.mem_append.mp (hitems ▸ hd) with hd | hd
      · exact absurd hretired (of_decide_eq_true (List.mem_filter.mp hd).2)
      · exact List.mem_filter.mp ((chosen_sublist _ _).subset hd)
  · cases h

/-! ## An advance -/

/-- The two lists of tracked items of a thread: its findings and its open questions. -/
inductive TrackedList
  | active
  | pending
  deriving DecidableEq

namespace TrackedList

def items : TrackedList → ReasoningThread → List Mapping
  | active, thread => thread.active_items_data
  | pending, thread => thread.pending_items_data

def brought : TrackedList → ReasoningStep → List Mapping
  | active, step => step.new_findings_data
  | pending, step => step.new_pending_data

/-- No step retires an open question. -/
def retired : TrackedList → ReasoningStep → List Mapping
  | active, step => step.retired_findings_data
  | pending, _ => []

end TrackedList

/-- What a call does with the items of the list. -/
structure ItemsKept (list : TrackedList)
    (e : Step ReasoningThread AdvanceThread (Option ReasoningStep)) : Prop where
  unsaved : e.output = none → e.after = e.before
  merged : ∀ step, e.output = some step →
    Merges (list.items e.before) (list.brought step) (list.retired step) (list.items e.after)
  distinct : DistinctLabels (list.items e.after)

variable {iso : IsoTime} {list : TrackedList}

theorem advanceThread_items {thread updated : ReasoningThread} {step : ReasoningStep} {now : Int}
    (h : advanceThread iso thread step now = .ok updated) :
    mergeTrackedItems (list.items thread) (list.brought step) (list.retired step) =
      .ok (list.items updated) := by
  rw [advanceThread] at h
  split at h
  · cases h
  · obtain ⟨active, hactive, h⟩ := bind_ok h
    obtain ⟨pending, hpending, h⟩ := bind_ok h
    obtain ⟨rfl, -⟩ := ReasoningThread.postInit_ok_iff.mp h
    cases list with
    | active => exact hactive
    | pending => exact hpending

/-- **One call** keeps the labels distinct. -/
theorem itemsKept_step {thread : ReasoningThread} (call : AdvanceThread)
    (hdistinct : DistinctLabels (list.items thread)) :
    ItemsKept list
      ⟨thread, call, (advanceCall iso thread call).2, (advanceCall iso thread call).1⟩ := by
  rcases advanceCall_cases iso thread call with hcall | ⟨step, updated, hcall, -, -, hupdated⟩
  · rw [hcall]
    refine ⟨fun _ => rfl, fun step h => ?_, hdistinct⟩
    cases h
  · rw [hcall]
    have hmerges : Merges (list.items thread) (list.brought step) (list.retired step)
        (list.items updated) := mergeTrackedItems_merges hdistinct (advanceThread_items hupdated)
    refine ⟨fun h => ?_, fun step' h => ?_, hmerges.distinct⟩
    · cases h
    · cases h
      exact hmerges

theorem item_stays {thread : ReasoningThread} {call : AdvanceThread} {d : Mapping}
    (hd : d ∈ list.items thread)
    (hok : ∀ step, (advanceCall iso thread call).2 = some step →
      itemKey d ∉ (list.retired step).map itemKey) :
    d ∈ list.items (advanceCall iso thread call).1 := by
  rcases advanceCall_cases iso thread call with hcall | ⟨step, updated, hcall, -, -, hupdated⟩
  · rw [hcall]
    exact hd
  · have hstays : itemKey d ∉ (list.retired step).map itemKey := hok step (by rw [hcall])
    have hmerge : mergeTrackedItems (list.items thread) (list.brought step) (list.retired step) =
        .ok (list.items updated) := advanceThread_items hupdated
    rw [mergeTrackedItems] at hmerge
    split at hmerge
    · rw [hcall]
      show d ∈ list.items updated
      rw [← Except.ok.inj hmerge, addItems_eq]
      exact List.mem_append_left _ (List.mem_filter.mpr ⟨hd, decide_eq_true hstays⟩)
    · cases hmerge

/-! ## Any calls -/

/-- **The items are kept**: for every thread whose items have distinct labels and every sequence of
    calls.  An item that is there after some of them is there after any others, as it is, until one
    of these retires its label. -/
theorem tracked_items_kept (iso : IsoTime) (list : TrackedList) (thread : ReasoningThread)
    (hdistinct : DistinctLabels (list.items thread)) (calls : List AdvanceThread) :
    (∀ e ∈ run (advanceCall iso) thread calls, ItemsKept list e) ∧
    ∀ later, ∀ d ∈ list.items (final (advanceCall iso) thread calls),
      (∀ e ∈ run (advanceCall iso) (final (advanceCall iso) thread calls) later,
        ∀ step, e.output = some step → itemKey d ∉ (list.retired step).map itemKey) →
      d ∈ list.items (final (advanceCall iso) (final (advanceCall iso) thread calls) later) := by
  constructor
  · have hkeep : ∀ s call, DistinctLabels (list.items s) →
        DistinctLabels (list.items (advanceCall iso s call).1) := fun s call hs =>
      (itemsKept_step call hs).distinct
    intro e he
    have hkept := @itemsKept_step iso list e.before e.input
      (run_invariant hkeep hdistinct calls e he).1
    rwa [(run_of _ _ _ e he).output_eq, (run_of _ _ _ e he).after_eq] at hkept
  · intro later d hd hlater
    have hkeep : ∀ s call, d ∈ list.items s → (∀ step, (advanceCall iso s call).2 = some step →
        itemKey d ∉ (list.retired step).map itemKey) → d ∈ list.items (advanceCall iso s call).1 :=
      fun s call => item_stays
    refine final_induct_of hkeep _ later hd ?_
    intro e he step hstep
    rw [(run_of _ _ _ e he).output_eq] at hstep
    exact hlater e he step hstep

/-- A call whose step finds these and retires those. -/
def findAndRetire (found retired : List Mapping) : AdvanceThread where
  step := some { noonStep with new_findings_data := found, retired_findings_data := retired }
  advancer := none
  now := 1767268800000000
  commits := true

/-- A clue that is retired, and found again with two others that are one. -/
theorem clue_found_again :
    DistinctLabels [[("label", .str "A clue")]] ∧
    (∀ e ∈ run (advanceCall noonIso)
        { emptyThread with active_items_data := [[("label", .str "A clue")]] }
        [findAndRetire [[("label", .str "B")], [("label", .str "B"), ("kind", .str "x")], [],
          [("label", .str "A clue"), ("kind", .str "again")]] [[("label", .str "A clue")]]],
      ItemsKept .active e) := by
  have hdistinct : DistinctLabels [[("label", .str "A clue")]] := List.nodup_singleton _
  exact ⟨hdistinct, (tracked_items_kept noonIso .active
    { emptyThread with active_items_data := [[("label", .str "A clue")]] } hdistinct _).1⟩

end NuSelf.Reasoning
