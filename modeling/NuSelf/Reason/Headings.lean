/-
  The section headings of the combined document.

  Sections and chunks cut the same steps in two ways.  The combined document goes over the chunks:
  the heading that a chunk file begins with is taken off, the section of the chunk is looked up by
  the first of its steps, and a heading is put where that section is not the one of the chunk
  before.  A section that no chunk begins in is never looked up.

  1. `combineLines_eq` — the lines of the document are those of its parts: headings, bodies and
     the marks of missing chunks.
  2. `headings_eq_changes` — its headings are the sections of the chunks, where the index changes.
  3. `chunkPositions_eq` — chunk number `k` is looked up at position `k * segment_size`.
  4. `sections_appear_iff` — so the headings are the section plan exactly when a chunk begins in
     every section, and neighbours in the plan have different indices.
  5. `planner_indices` — which they have in every plan of the planner.
-/
import NuSelf.Lib.Changes
import NuSelf.Reason.Planner
import NuSelf.Reason.Planning

namespace NuSelf.Reason

open NuSelf.Lib

/-! ## The parts of the document -/

/-- What the combined document is made of, below the topic. -/
inductive DocumentPart where
  | missing (filename : String)
  | heading (sec : ReasonOutputSection)
  | body (text : String)
  deriving DecidableEq

def DocumentPart.lines : DocumentPart → List String
  | .missing filename => ["*[Missing chunk " ++ filename ++ "]*", ""]
  | .heading sec => ["# " ++ sec.title, ""]
  | .body text => [text, ""]

/-- The section whose heading a part is. -/
def DocumentPart.heading? : DocumentPart → Option ReasonOutputSection
  | .missing _ => none
  | .heading sec => some sec
  | .body _ => none

/-- `combineLines`, part by part. -/
def combineParts (attempt : ExportAttempt) (manifest : ReasonOutputManifest)
    (section_plan : List ReasonOutputSection) (documents : Table String String) :
    Int → List ReasonOutputChunk → Except ReasonOutputError (List DocumentPart)
  | _, [] => .ok []
  | prev_section_index, chunk :: rest =>
    match attempt.reads (.chunk chunk.index), documents.get chunk.filename with
    | some e, _ => .error e
    | none, none => do
      let parts ← combineParts attempt manifest section_plan documents prev_section_index rest
      return .missing chunk.filename :: parts
    | none, some raw => do
      let sec ← sectionForPosition section_plan
        (stepPosition manifest.source_step_ids chunk.step_ids)
      let parts ← combineParts attempt manifest section_plan documents sec.index rest
      let heading := if sec.index ≠ prev_section_index then [.heading sec] else []
      return heading ++ .body (chunkBody raw) :: parts

/-- **Every planned section appears**: the document is written part by part, and its headings are
    those of the plan, each once and in the order of the plan. -/
def SectionsAppear (attempt : ExportAttempt) (topic : String) (manifest : ReasonOutputManifest)
    (section_plan : List ReasonOutputSection) (documents : Table String String)
    (chunks : List ReasonOutputChunk) (combined_text : String) : Prop :=
  ∃ parts, combineParts attempt manifest section_plan documents (-1) chunks = .ok parts ∧
    combined_text =
      rstrip (joinLines (["# " ++ topic, ""] ++ parts.flatMap DocumentPart.lines)) ++ "\n" ∧
    parts.filterMap DocumentPart.heading? = section_plan

variable {attempt : ExportAttempt} {manifest : ReasonOutputManifest}
  {section_plan : List ReasonOutputSection} {documents : Table String String}

/-- **The lines are those of the parts.** -/
theorem combineLines_eq : ∀ {prev : Int} {chunks : List ReasonOutputChunk},
    combineLines attempt manifest section_plan documents prev chunks =
      (combineParts attempt manifest section_plan documents prev chunks).map
        fun parts => parts.flatMap DocumentPart.lines
  | _, [] => rfl
  | prev, chunk :: rest => by
    rw [combineLines, combineParts]
    cases attempt.reads (.chunk chunk.index) with
    | some e => rfl
    | none =>
      cases documents.get chunk.filename with
      | none =>
        simp only
        rw [combineLines_eq]
        cases combineParts attempt manifest section_plan documents prev rest with
        | error e => rfl
        | ok parts => rfl
      | some raw =>
        simp only
        cases sectionForPosition section_plan
            (stepPosition manifest.source_step_ids chunk.step_ids) with
        | error e => rfl
        | ok sec =>
          rw [ok_bind, ok_bind, combineLines_eq]
          cases combineParts attempt manifest section_plan documents sec.index rest with
          | error e => rfl
          | ok parts =>
            -- the heading is there in both, or in neither
            by_cases hsec : sec.index ≠ prev
            · simp only [if_pos hsec]
              rfl
            · simp only [if_neg hsec]
              rfl

theorem combineChunks_parts {topic text : String} {chunks : List ReasonOutputChunk}
    (h : combineChunks attempt topic manifest section_plan documents chunks = .ok text) :
    ∃ parts, combineParts attempt manifest section_plan documents (-1) chunks = .ok parts ∧
      text =
        rstrip (joinLines (["# " ++ topic, ""] ++ parts.flatMap DocumentPart.lines)) ++ "\n" := by
  rw [combineChunks, combineLines_eq] at h
  cases hparts : combineParts attempt manifest section_plan documents (-1) chunks with
  | error e =>
    rw [hparts] at h
    cases h
  | ok parts =>
    rw [hparts] at h
    exact ⟨parts, rfl, (Except.ok.inj h).symm⟩

/-! ## The section of a position -/

/-- The section that a position lies in. -/
def sectionAt (section_plan : List ReasonOutputSection) (position : Int) :
    Option ReasonOutputSection :=
  section_plan.find? fun s =>
    decide (s.source_start_index ≤ position) && decide (position ≤ s.source_end_index)

theorem sectionAt_some {position : Int} {sec : ReasonOutputSection}
    (h : sectionAt section_plan position = some sec) :
    sec ∈ section_plan ∧ sec.source_start_index ≤ position ∧ position ≤ sec.source_end_index := by
  have hfound := List.find?_some h
  simp only [Bool.and_eq_true, decide_eq_true_eq] at hfound
  exact ⟨List.mem_of_find?_eq_some h, hfound⟩

theorem sectionForPosition_of_at {position : Int} {sec : ReasonOutputSection}
    (hposition : 0 ≤ position) (h : sectionAt section_plan position = some sec) :
    sectionForPosition section_plan position = .ok sec := by
  cases section_plan with
  | nil => cases h
  | cons first rest =>
    have hfind := h
    rw [sectionAt] at hfind
    rw [sectionForPosition, if_neg (Int.not_lt.mpr hposition), hfind]

/-- Two sections are one, or one of them ends before the other begins. -/
def ReasonOutputSection.Apart (s t : ReasonOutputSection) : Prop :=
  s = t ∨ s.source_end_index < t.source_start_index ∨ t.source_end_index < s.source_start_index

section Plan

variable {n : Nat} (htiles : Tiles n (section_plan.map ReasonOutputSection.span))

include htiles

theorem plan_ordered :
    section_plan.Pairwise fun s t => s.source_end_index < t.source_start_index :=
  List.pairwise_map.mp (tiles_iff.mp htiles).ordered

theorem plan_within {sec : ReasonOutputSection} (h : sec ∈ section_plan) :
    0 ≤ sec.source_start_index ∧ sec.source_start_index ≤ sec.source_end_index ∧
      sec.source_end_index < n := by
  have hspan := List.mem_map_of_mem (f := ReasonOutputSection.span) h
  have hin := (tiles_iff.mp htiles).within _ hspan
  exact ⟨hin.1, htiles.1 _ hspan, hin.2⟩

theorem plan_apart : ∀ s ∈ section_plan, ∀ t ∈ section_plan, s.Apart t := by
  have hbefore : section_plan.Pairwise ReasonOutputSection.Apart :=
    (plan_ordered htiles).imp fun h => Or.inr (Or.inl h)
  have hafter : section_plan.Pairwise (flip ReasonOutputSection.Apart) :=
    (plan_ordered htiles).imp fun h => Or.inr (Or.inr h)
  have hself : ∀ s ∈ section_plan, s.Apart s := fun _ _ => Or.inl rfl
  exact fun s hs t ht => List.Pairwise.forall_of_forall_of_flip hself hbefore hafter hs ht

theorem sectionAt_iff {position : Int} {sec : ReasonOutputSection} :
    sectionAt section_plan position = some sec ↔ sec ∈ section_plan ∧
      sec.source_start_index ≤ position ∧ position ≤ sec.source_end_index := by
  refine ⟨sectionAt_some, fun h => ?_⟩
  have hsome : (sectionAt section_plan position).isSome = true := by
    rw [sectionAt, List.find?_isSome]
    exact ⟨sec, h.1, by simpa using h.2⟩
  obtain ⟨found, hfound⟩ := Option.isSome_iff_exists.mp hsome
  have hin := sectionAt_some hfound
  -- two sections that share the position cannot lie apart
  rcases plan_apart htiles found hin.1 sec h.1 with heq | hlt | hlt
  · rw [hfound, heq]
  · omega
  · omega

theorem sectionAt_covered {position : Int} (hfirst : 0 ≤ position) (hlast : position < n) :
    ∃ sec, sectionAt section_plan position = some sec := by
  obtain ⟨span, hspan, hin⟩ := (tiles_iff.mp htiles).covers hfirst hlast
  obtain ⟨sec, hsec, rfl⟩ := List.mem_map.mp hspan
  exact ⟨sec, (sectionAt_iff htiles).mpr ⟨hsec, hin⟩⟩

theorem sectionAt_mono {p q : Int} {s t : ReasonOutputSection} (hle : p ≤ q)
    (hs : sectionAt section_plan p = some s) (ht : sectionAt section_plan q = some t) :
    s.source_start_index ≤ t.source_start_index := by
  obtain ⟨hmems, hins⟩ := sectionAt_some hs
  obtain ⟨hmemt, hint⟩ := sectionAt_some ht
  rcases plan_apart htiles s hmems t hmemt with rfl | hlt | hlt
  · exact Int.le_refl _
  · omega
  · omega

end Plan

/-! ## Where the section changes -/

/-- **The headings are the sections of the chunks**, where the index changes.  Every chunk is there
    and lies in a section; the induction is on the chunks, with the last index put. -/
theorem headings_eq_changes : ∀ {chunks : List ReasonOutputChunk} {prev : Int}
    {parts : List DocumentPart},
    (∀ c ∈ chunks, documents.contains c.filename = true ∧
      0 ≤ stepPosition manifest.source_step_ids c.step_ids ∧
      ∃ sec, sectionAt section_plan (stepPosition manifest.source_step_ids c.step_ids) = some sec) →
    combineParts attempt manifest section_plan documents prev chunks = .ok parts →
    parts.filterMap DocumentPart.heading? = changes (fun s => s.index) prev
      ((chunks.map fun c => stepPosition manifest.source_step_ids c.step_ids).filterMap
        (sectionAt section_plan))
  | [], prev, parts, _, h => by
    cases h
    rfl
  | chunk :: rest, prev, parts, hchunks, h => by
    obtain ⟨⟨hthere, hposition, sec, hsec⟩, hrest⟩ := List.forall_mem_cons.mp hchunks
    obtain ⟨raw, hraw⟩ := Option.isSome_iff_exists.mp hthere
    rw [combineParts, hraw] at h
    cases hread : attempt.reads (.chunk chunk.index) with
    | some e =>
      rw [hread] at h
      cases h
    | none =>
      simp only [hread, sectionForPosition_of_at hposition hsec, ok_bind] at h
      cases hlater : combineParts attempt manifest section_plan documents sec.index rest with
      | error e =>
        rw [hlater] at h
        cases h
      | ok later =>
        rw [hlater] at h
        have ih := headings_eq_changes hrest hlater
        rw [List.map_cons, List.filterMap_cons_some hsec, changes, ← ih]
        cases h
        by_cases hindex : sec.index ≠ prev
        · rw [if_pos hindex, if_pos hindex]
          rfl
        · rw [if_neg hindex, if_neg hindex]
          rfl

/-! ## Where the chunks begin -/

/-- A chunk is looked up where its first step stands, among steps with different ids. -/
theorem stepPosition_of_split {before later : List String} {batch : List ReasoningStep}
    (hbatch : batch ≠ [])
    (hdistinct : (before ++ (batch.map (fun s => s.id) ++ later)).Nodup) :
    stepPosition (before ++ (batch.map (fun s => s.id) ++ later)) (batch.map fun s => s.id) =
      before.length := by
  obtain ⟨first, others, rfl⟩ := List.exists_cons_of_ne_nil hbatch
  -- no step before the chunk is one of its own
  have hbefore : before.findIdx? (fun sid =>
      ((first :: others).map fun s => s.id).contains sid) = none := by
    refine List.findIdx?_eq_none_iff.mpr fun sid hsid => ?_
    rw [List.contains_eq_mem, decide_eq_false_iff_not]
    intro hin
    exact (List.nodup_append.mp hdistinct).2.2 sid hsid sid (List.mem_append_left _ hin) rfl
  have hfirst : ((first :: others).map fun s => s.id).contains first.id = true := by
    rw [List.contains_eq_mem, decide_eq_true_eq]
    exact List.mem_cons_self
  rw [List.map_cons] at hfirst hbefore ⊢
  rw [stepPosition, List.findIdx?_append, hbefore, List.cons_append, List.findIdx?_cons, hfirst]
  show ((0 + before.length : Nat) : Int) = before.length
  rw [Nat.zero_add]

/-- **Every chunk is looked up where its first step stands.** -/
theorem chunkPositions_eq : ∀ {batches : List (List ReasoningStep)} {index : Nat}
    {before : List String}, (∀ batch ∈ batches, batch ≠ []) →
    (before ++ batches.flatten.map fun s => s.id).Nodup →
    ((chunkRecords attempt index batches).map fun c =>
        stepPosition (before ++ batches.flatten.map fun s => s.id) c.step_ids) =
      (List.range batches.length).map fun k => ((before.length + startOf batches k : Nat) : Int)
  | [], _, _, _, _ => rfl
  | batch :: rest, index, before, hbatches, hdistinct => by
    obtain ⟨hbatch, hrest⟩ := List.forall_mem_cons.mp hbatches
    rw [List.flatten_cons, List.map_append] at hdistinct
    have hsplit : before ++ (batch.map (fun s => s.id) ++ rest.flatten.map fun s => s.id) =
        (before ++ batch.map fun s => s.id) ++ rest.flatten.map fun s => s.id :=
      (List.append_assoc _ _ _).symm
    have hfirst := stepPosition_of_split hbatch hdistinct
    rw [hsplit] at hdistinct
    have ih := @chunkPositions_eq rest (index + 1) _ hrest hdistinct
    rw [List.length_cons, List.range_succ_eq_map, List.map_cons, List.map_map, chunkRecords,
      List.map_cons, List.flatten_cons, List.map_append]
    refine List.cons_eq_cons.mpr ⟨?_, ?_⟩
    · exact hfirst
    · rw [hsplit, ih]
      refine List.map_congr_left fun k _ => ?_
      show _ = ((before.length + startOf (batch :: rest) (k + 1) : Nat) : Int)
      rw [startOf_succ, List.length_append, List.length_map, Nat.add_assoc]

theorem startOf_partition {steps : List ReasoningStep} {size : Nat}
    {batches : List (List ReasoningStep)} (h : partitionSteps steps size = .ok batches) {k : Nat}
    (hk : k < batches.length) : startOf batches k = k * size := by
  have hstart := (partition_index_iff h).mp hk
  unfold partitionSteps at h
  split at h
  · cases h
  · cases h
    rw [List.length_map, List.length_range] at hk
    rw [startOf, ← List.length_flatten, ← List.map_take, List.take_range,
      Nat.min_eq_left (Nat.le_of_lt hk), flatten_windows, window, List.drop_zero,
      List.length_take, Nat.min_eq_left (Nat.le_of_lt hstart)]

/-! ## When every section appears -/

section Composed

variable {service : ReasonOutputService} {thread_id job_id topic text : String}
  {d d₁ : JobDirectory} {steps selected : List ReasoningStep}
  {batches : List (List ReasoningStep)} {chunks : List ReasonOutputChunk}

theorem filename_of_mem {c : ReasonOutputChunk} :
    ∀ {index : Nat} {batches : List (List ReasoningStep)}, c ∈ chunkRecords attempt index batches →
      ∃ k < batches.length, c.filename = chunkFilename (index + k)
  | _, [], h => nomatch h
  | index, batch :: rest, h => by
    cases List.mem_cons.mp h with
    | inl h =>
      subst h
      exact ⟨0, Nat.succ_pos _, rfl⟩
    | inr h =>
      obtain ⟨k, hk, hname⟩ := filename_of_mem h
      refine ⟨k + 1, Nat.succ_lt_succ hk, ?_⟩
      rw [hname, Nat.add_assoc, Nat.add_comm 1 k]

theorem Composed.positions (h : Composed service thread_id job_id attempt d manifest topic steps
    selected section_plan batches chunks d₁ text) (hdistinct : manifest.source_step_ids.Nodup) :
    (chunks.map fun c => stepPosition manifest.source_step_ids c.step_ids) =
      (List.range batches.length).map fun k => ((k * manifest.segment_size : Nat) : Int) := by
  have hids : [] ++ batches.flatten.map (fun s => s.id) = manifest.source_step_ids := by
    rw [List.nil_append, partition_flatten h.cut, sourceSteps_ids h.sources]
  have heq := @chunkPositions_eq attempt batches 0 [] (partition_nonempty h.cut)
    (by rw [hids]; exact hdistinct)
  rw [hids] at heq
  rw [(composeChunks_returned h.loop).1, heq]
  refine List.map_congr_left fun k hk => ?_
  rw [startOf_partition h.cut (List.mem_range.mp hk), List.length_nil, Nat.zero_add]

/-- Every chunk of an attempt is there once the loop is through, and lies in a section. -/
theorem Composed.chunk_shown (h : Composed service thread_id job_id attempt d manifest topic steps
    selected section_plan batches chunks d₁ text) (hdistinct : manifest.source_step_ids.Nodup)
    (htiles : Tiles selected.length (section_plan.map ReasonOutputSection.span)) :
    ∀ c ∈ chunks, d₁.documents.contains c.filename = true ∧
      0 ≤ stepPosition manifest.source_step_ids c.step_ids ∧
      ∃ sec, sectionAt section_plan (stepPosition manifest.source_step_ids c.step_ids) =
        some sec := by
  intro c hc
  obtain ⟨hchunks, hthere, -⟩ := composeChunks_returned h.loop
  have hposition := List.mem_map_of_mem
    (f := fun c : ReasonOutputChunk => stepPosition manifest.source_step_ids c.step_ids) hc
  rw [h.positions hdistinct] at hposition
  obtain ⟨k, hk, heq⟩ := List.mem_map.mp hposition
  have hstart := (partition_index_iff h.cut).mp (List.mem_range.mp hk)
  refine ⟨?_, ?_, ?_⟩
  · rw [hchunks] at hc
    obtain ⟨j, hj, hname⟩ := filename_of_mem hc
    rw [hname]
    exact hthere j hj
  · rw [← heq]
    omega
  · rw [← heq]
    exact sectionAt_covered htiles (by omega) (by omega)

/-- **The sections appear exactly when a chunk begins in each of them**, and neighbours in the plan
    have different indices: the source steps have different ids, and the plan tiles them. -/
theorem sections_appear_iff (h : Composed service thread_id job_id attempt d manifest topic steps
    selected section_plan batches chunks d₁ text) (hdistinct : manifest.source_step_ids.Nodup)
    (htiles : Tiles selected.length (section_plan.map ReasonOutputSection.span)) :
    SectionsAppear attempt topic manifest section_plan d₁.documents chunks text ↔
      (∀ sec ∈ section_plan, ∃ k : Nat,
        sec.source_start_index ≤ (k * manifest.segment_size : Nat) ∧
        (k * manifest.segment_size : Nat) ≤ sec.source_end_index) ∧
      List.IsChain (· ≠ ·) (-1 :: section_plan.map fun s => s.index) := by
  obtain ⟨parts, hparts, htext⟩ := combineChunks_parts h.combined
  let visits := (chunks.map fun c => stepPosition manifest.source_step_ids c.step_ids).filterMap
    (sectionAt section_plan)
  have hheadings : parts.filterMap DocumentPart.heading? =
      changes (fun s => s.index) (-1) visits :=
    headings_eq_changes (h.chunk_shown hdistinct htiles) hparts
  -- the sections are visited in the order of the plan
  have hplan : section_plan.Pairwise fun s t => s.source_start_index < t.source_start_index := by
    refine (plan_ordered htiles).imp_of_mem fun {s t} hs _ hlt => ?_
    have hin := plan_within htiles hs
    omega
  have hsorted : visits.Pairwise fun s t => s.source_start_index ≤ t.source_start_index := by
    have hpositions : (chunks.map fun c =>
        stepPosition manifest.source_step_ids c.step_ids).Pairwise fun p q => p ≤ q := by
      rw [h.positions hdistinct, List.pairwise_map]
      refine List.pairwise_le_range.imp fun {i j} hle => ?_
      exact Int.ofNat_le.mpr (Nat.mul_le_mul_right _ hle)
    exact hpositions.filterMap (sectionAt section_plan) fun p q hle s hs t ht =>
      sectionAt_mono htiles hle hs ht
  have hsub : ∀ s ∈ visits, s ∈ section_plan := by
    intro s hs
    obtain ⟨position, -, hat⟩ := List.mem_filterMap.mp hs
    exact (sectionAt_some hat).1
  have hvisited : (∀ sec ∈ section_plan, sec ∈ visits) ↔
      ∀ sec ∈ section_plan, ∃ k : Nat,
        sec.source_start_index ≤ (k * manifest.segment_size : Nat) ∧
        (k * manifest.segment_size : Nat) ≤ sec.source_end_index := by
    refine forall₂_congr fun sec hsec => ?_
    show sec ∈ List.filterMap _ _ ↔ _
    rw [h.positions hdistinct, List.mem_filterMap]
    constructor
    · rintro ⟨position, hposition, hat⟩
      obtain ⟨k, -, rfl⟩ := List.mem_map.mp hposition
      exact ⟨k, (sectionAt_some hat).2⟩
    · rintro ⟨k, hin⟩
      have hend := (plan_within htiles hsec).2.2
      have hk : k < batches.length := (partition_index_iff h.cut).mpr (by omega)
      exact ⟨_, List.mem_map_of_mem (List.mem_range.mpr hk), (sectionAt_iff htiles).mpr ⟨hsec, hin⟩⟩
  rw [← hvisited, ← changes_eq_iff hplan hsorted hsub, ← hheadings]
  constructor
  · rintro ⟨others, hothers, -, hall⟩
    rw [hparts, Except.ok.injEq] at hothers
    rw [hothers, hall]
  · exact fun hall => ⟨parts, hparts, htext, hall⟩

end Composed

/-! ## Plans of the planner -/

/-- The sections are numbered, from a number on. -/
def Numbered : Int → List ReasonOutputSection → Prop
  | _, [] => True
  | index, sec :: rest => sec.index = index ∧ Numbered (index + 1) rest

theorem Numbered.chain : ∀ {sections : List ReasonOutputSection} {index : Int},
    Numbered index sections → List.IsChain (· ≠ ·) ((index - 1) :: sections.map fun s => s.index)
  | [], _, _ => List.isChain_singleton _
  | sec :: rest, index, h => by
    obtain ⟨hindex, hrest⟩ := h
    have hlater := hrest.chain
    rw [Int.add_sub_cancel] at hlater
    rw [List.map_cons, hindex, List.isChain_cons_cons]
    exact ⟨by omega, hlater⟩

section Numbering

variable (service : ReasonOutputService) (thread : ReasoningThread) (mode : ReasonOutputMode)
  (now : String)

theorem numbered_planSectionsFrom (total_steps count : Nat) :
    ∀ (batches : List (List ReasoningStep)) (index offset : Nat), Numbered index
      (service.planSectionsFrom thread mode total_steps count now index offset batches)
  | [], _, _ => trivial
  | _ :: rest, index, _ =>
    ⟨rfl, numbered_planSectionsFrom total_steps count rest (index + 1) _⟩

theorem numbered_planned (steps : List ReasoningStep) :
    ∀ (sections : List ReasonSectionOutput) (start : Nat), Numbered start
      (sections.mapIdx fun index s => plannedSection steps now (index + start) s)
  | [], _ => trivial
  | s :: rest, start => by
    have hrest := numbered_planned steps rest (start + 1)
    rw [List.mapIdx_cons]
    refine ⟨?_, ?_⟩
    · show ((0 + start : Nat) : Int) = start
      rw [Nat.zero_add]
    · simp only [Nat.add_right_comm _ 1 start, Nat.add_assoc _ start 1]
      exact hrest

theorem planner_numbered {answer : Except ReasonOutputError ReasonSectionPlanOutput}
    {steps : List ReasoningStep} {sections : List ReasonOutputSection}
    (h : planner service answer thread steps mode now = .ok sections) : Numbered 0 sections := by
  have hfallback : ∀ {sections : List ReasonOutputSection},
      service.planSections thread steps mode now = .ok sections → Numbered 0 sections := by
    intro sections h
    rw [ReasonOutputService.planSections] at h
    split at h
    · cases h
    · cases h
      exact numbered_planSectionsFrom service thread mode now _ _ _ 0 0
  rw [planner] at h
  split at h
  · exact hfallback h
  · split at h
    · cases h
      exact numbered_planned now steps _ 0
    · exact hfallback h
    · cases h

/-- **Whatever the agent answers, neighbours in a plan of the planner have different indices**: the
    sections are numbered. -/
theorem planner_indices {answer : Except ReasonOutputError ReasonSectionPlanOutput}
    {steps : List ReasoningStep} {sections : List ReasonOutputSection}
    (h : planner service answer thread steps mode now = .ok sections) :
    List.IsChain (· ≠ ·) (-1 :: sections.map fun s => s.index) :=
  (planner_numbered service thread mode now h).chain

end Numbering

/-! ## A short export -/

def departure : ReasonOutputSection where
  index := 0
  title := "Departure"
  focus := "The ship sails"
  step_ids := ["step-1"]
  source_start_index := 0
  source_end_index := 0
  summary := "The ship sails"
  created_at := "now"

def arrival : ReasonOutputSection where
  index := 1
  title := "Arrival"
  focus := "The ship lands"
  step_ids := ["step-2"]
  source_start_index := 1
  source_end_index := 1
  summary := "The ship lands"
  created_at := "now"

def sailing : ReasoningStep := ⟨"step-1", "The ship sails"⟩

def landing : ReasoningStep := ⟨"step-2", "The ship lands"⟩

/-- Two steps with a section each, to be exported in chunks of this size. -/
def voyageManifest (segment_size : Nat) : ReasonOutputManifest where
  job_id := "job-1"
  thread_id := "reason-1"
  mode := .narrative
  output_format := .markdown
  source_start_index := 0
  source_end_index := none
  source_step_ids := ["step-1", "step-2"]
  segment_size := segment_size
  created_at := "now"
  updated_at := "now"
  sections := [departure, arrival]

def voyageDirectory (segment_size : Nat) : JobDirectory :=
  plannedDirectory "root" (voyageManifest segment_size)

def voyageAttempt : ExportAttempt :=
  uninterrupted "A voyage" [sailing, landing] fun index => "Part " ++ toString (index + 1) ++ "."

/-- The directory after the loop over these chunks. -/
def voyageLoop (segment_size : Nat) (batches : List (List ReasoningStep)) : JobDirectory :=
  (composeChunks voyageAttempt [departure, arrival] 0 0 batches (voyageDirectory segment_size)).2

/-- With chunks of one step both sections appear. -/
theorem voyage_sections_appear : SectionsAppear voyageAttempt "A voyage" (voyageManifest 1)
    [departure, arrival] (voyageLoop 1 [[sailing], [landing]]).documents
    (chunkRecords voyageAttempt 0 [[sailing], [landing]])
    "# A voyage\n\n# Departure\n\nPart 1.\n\n# Arrival\n\nPart 2.\n" := by
  have hcomposed : Composed ⟨"exports", id⟩ "reason-1" "job-1" voyageAttempt (voyageDirectory 1)
      (voyageManifest 1) "A voyage" [sailing, landing] [sailing, landing] [departure, arrival]
      [[sailing], [landing]] (chunkRecords voyageAttempt 0 [[sailing], [landing]])
      (voyageLoop 1 [[sailing], [landing]])
      "# A voyage\n\n# Departure\n\nPart 1.\n\n# Arrival\n\nPart 2.\n" :=
    ⟨getJob_returned_iff.mpr ⟨rfl, rfl, by decide +kernel, ⟨rfl, rfl⟩, rfl⟩, rfl,
      by decide +kernel, rfl, rfl, Prod.ext (by decide +kernel) rfl, by decide +kernel, rfl⟩
  refine (sections_appear_iff hcomposed (by decide +kernel)
    (tiles_iff.mpr ⟨rfl, Int.le_refl 0, rfl, Int.le_refl 1, rfl⟩)).mpr ⟨?_, by decide +kernel⟩
  intro sec hsec
  rcases List.mem_pair.mp hsec with rfl | rfl
  · exact ⟨0, by decide, by decide⟩
  · exact ⟨1, by decide, by decide⟩

/-- **A section is lost**: with one chunk of two steps the second section has no heading, and its
    step stands under that of the first. -/
theorem arrival_has_no_heading : ∃ chunks d₁ text,
    Composed ⟨"exports", id⟩ "reason-1" "job-1" voyageAttempt (voyageDirectory 2)
      (voyageManifest 2) "A voyage" [sailing, landing] [sailing, landing] [departure, arrival]
      [[sailing, landing]] chunks d₁ text ∧
    (voyageManifest 2).source_step_ids.Nodup ∧
    Tiles 2 ([departure, arrival].map ReasonOutputSection.span) ∧
    text = "# A voyage\n\n# Departure\n\nPart 1.\n" ∧
    ¬ SectionsAppear voyageAttempt "A voyage" (voyageManifest 2) [departure, arrival]
      d₁.documents chunks text := by
  refine ⟨chunkRecords voyageAttempt 0 [[sailing, landing]], voyageLoop 2 [[sailing, landing]], _,
    ⟨getJob_returned_iff.mpr ⟨rfl, rfl, by decide +kernel, ⟨rfl, rfl⟩, rfl⟩, rfl,
      by decide +kernel, rfl, rfl, Prod.ext (by decide +kernel) rfl, by decide +kernel, rfl⟩,
    by decide +kernel, tiles_iff.mpr ⟨rfl, Int.le_refl 0, rfl, Int.le_refl 1, rfl⟩, rfl, ?_⟩
  rintro ⟨parts, hparts, -, hall⟩
  have hone : combineParts voyageAttempt (voyageManifest 2) [departure, arrival]
      (voyageLoop 2 [[sailing, landing]]).documents (-1)
      (chunkRecords voyageAttempt 0 [[sailing, landing]]) =
        .ok [.heading departure, .body "Part 1."] := by
    decide +kernel
  rw [hone, Except.ok.injEq] at hparts
  rw [← hparts] at hall
  exact absurd hall (by decide +kernel)

end NuSelf.Reason
