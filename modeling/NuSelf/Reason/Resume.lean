/-
  Resuming an export: what the stored chunks are worth.

  An attempt skips the chunks whose files are there, whoever wrote them, and combines what the
  files hold.  So the result must not depend on how often the job was interrupted.  The invariant
  that carries this is `Recorded`: the chunk files are exactly the renderings of what the runner
  has returned, one for each index, each under the section of its batch.

  1. `preserves_recorded` — the loop of an attempt keeps `Recorded`, wherever the runner raises.
  2. `resumable_compose` — so does a whole attempt, and it keeps the plan of the manifest.
  3. `combineLines_congr` — the combined text depends on the chunk files and the plan only.
  4. `resume_equivalent` — in every run of attempts, with steps appended in between, an attempt that
     returns leaves the text of one uninterrupted attempt, and one runner call for each chunk.
-/
import NuSelf.Lib.Run
import NuSelf.Reason.Export

namespace NuSelf.Reason

open NuSelf.Lib

/-! ## The record of the chunks -/

/-- The chunk files are the renderings of what the runner has returned. -/
structure Recorded (section_plan : List ReasonOutputSection)
    (batches : List (List ReasoningStep)) (d : JobDirectory) : Prop where
  once : (d.composed.map Prod.fst).Nodup
  kept : ∀ k body, (k, body) ∈ d.composed → k < batches.length ∧
    ∃ sec, sectionForPosition section_plan (startOf batches k : Nat) = .ok sec ∧
      d.documents.get (chunkFilename k) = some (renderChunkDocument sec body)
  known : ∀ k text, d.documents.get (chunkFilename k) = some text →
    ∃ body, (k, body) ∈ d.composed

variable {section_plan : List ReasonOutputSection} {batches : List (List ReasoningStep)}
  {d d' : JobDirectory} {attempt : ExportAttempt}

/-- The record looks at nothing but the chunk files and the runner's notes. -/
theorem Recorded.of_same (h : Recorded section_plan batches d) (hnotes : d'.composed = d.composed)
    (hfiles : ∀ k, d'.documents.get (chunkFilename k) = d.documents.get (chunkFilename k)) :
    Recorded section_plan batches d' where
  once := by rw [hnotes]; exact h.once
  kept := by
    intro k body hmem
    rw [hnotes] at hmem
    rw [hfiles]
    exact h.kept k body hmem
  known := by
    intro k text hget
    rw [hfiles] at hget
    rw [hnotes]
    exact h.known k text hget

theorem Recorded.withChunk (h : Recorded section_plan batches d) {index : Nat}
    (hindex : index < batches.length) {sec : ReasonOutputSection}
    (hsec : sectionForPosition section_plan (startOf batches index : Nat) = .ok sec)
    (hmissing : d.documents.contains (chunkFilename index) = false) (body : String) :
    Recorded section_plan batches (d.withChunk sec index body) := by
  have hfile : ∀ k, (d.withChunk sec index body).documents.get (chunkFilename k) =
      if k = index then some (renderChunkDocument sec body)
      else d.documents.get (chunkFilename k) := by
    intro k
    simp [JobDirectory.withChunk, JobDirectory.putDocument, chunkFilename_inj]
  have hnew : ∀ body', (index, body') ∉ d.composed := by
    intro body' hmem
    obtain ⟨-, sec', -, hget⟩ := h.kept index body' hmem
    rw [Table.contains, hget] at hmissing
    cases hmissing
  constructor
  · show ((d.composed ++ [(index, body)]).map Prod.fst).Nodup
    rw [List.map_append, List.nodup_append']
    refine ⟨h.once, List.nodup_singleton _, ?_⟩
    intro k hk hsingle
    rw [List.map_cons, List.map_nil, List.mem_singleton] at hsingle
    obtain ⟨⟨k', body'⟩, hmem, rfl⟩ := List.mem_map.mp hk
    obtain rfl : k' = index := hsingle
    exact hnew body' hmem
  · intro k body' hmem
    rw [hfile]
    rcases List.mem_append.mp (show (k, body') ∈ d.composed ++ [(index, body)] from hmem) with
      hold | hnow
    · have hne : k ≠ index := by
        rintro rfl
        exact hnew body' hold
      rw [if_neg hne]
      exact h.kept k body' hold
    · rw [List.mem_singleton, Prod.mk.injEq] at hnow
      obtain ⟨rfl, rfl⟩ := hnow
      rw [if_pos rfl]
      exact ⟨hindex, sec, hsec, rfl⟩
  · intro k text hget
    rw [hfile] at hget
    split at hget
    · rename_i hk
      exact ⟨body, by rw [hk]; exact List.mem_append_right _ List.mem_cons_self⟩
    · obtain ⟨body', hmem⟩ := h.known k text hget
      exact ⟨body', List.mem_append_left _ hmem⟩

/-- **The loop keeps the record**, wherever the runner raises or stops. -/
theorem preserves_recorded (hwrites : ∀ k, attempt.writes (.chunk k) = .written) :
    Interruptible.Preserves (Recorded section_plan batches)
      (composeChunks attempt section_plan 0 0 batches) := by
  refine preserves_composeChunks fun k sec hk hsec => ?_
  rw [Nat.zero_add] at hsec ⊢
  refine preserves_composeChunk fun d body _ hmissing h => ?_
  rw [hwrites k]
  exact h.withChunk hk hsec hmissing body

theorem preserves_bodies {topic : String} {steps : List ReasoningStep} {bodies : Nat → String} :
    Interruptible.Preserves (fun d => ∀ p ∈ d.composed, bodies p.1 = p.2)
      (composeChunks (uninterrupted topic steps bodies) section_plan 0 0 batches) := by
  refine preserves_composeChunks fun k sec _ _ => ?_
  refine preserves_composeChunk fun d body hrun _ h => ?_
  cases hrun
  intro p hp
  rcases List.mem_append.mp (show p ∈ d.composed ++ [(0 + k, bodies (0 + k))] from hp) with
    hold | hnow
  · exact h p hold
  · rw [List.mem_singleton.mp hnow]

theorem Recorded.perm (h : Recorded section_plan batches d)
    (hthere : ∀ k < batches.length, d.documents.contains (chunkFilename k) = true) :
    (d.composed.map Prod.fst).Perm (List.range batches.length) := by
  refine (List.perm_ext_iff_of_nodup h.once List.nodup_range).mpr fun k => ?_
  rw [List.mem_range]
  constructor
  · intro hmem
    obtain ⟨⟨k', body⟩, hp, rfl⟩ := List.mem_map.mp hmem
    exact (h.kept k' body hp).1
  · intro hk
    obtain ⟨text, hget⟩ := Option.isSome_iff_exists.mp (hthere k hk)
    obtain ⟨body, hp⟩ := h.known k text hget
    exact List.mem_map.mpr ⟨(k, body), hp, rfl⟩

theorem Recorded.files (h : Recorded section_plan batches d)
    (hthere : ∀ k < batches.length, d.documents.contains (chunkFilename k) = true)
    {bodies : Nat → String} (hbodies : ∀ p ∈ d.composed, bodies p.1 = p.2) :
    ∀ k < batches.length, ∃ sec,
      sectionForPosition section_plan (startOf batches k : Nat) = .ok sec ∧
        d.documents.get (chunkFilename k) = some (renderChunkDocument sec (bodies k)) := by
  intro k hk
  obtain ⟨text, hget⟩ := Option.isSome_iff_exists.mp (hthere k hk)
  obtain ⟨body, hp⟩ := h.known k text hget
  obtain ⟨-, sec, hsec, hfile⟩ := h.kept k body hp
  have hbody : bodies k = body := hbodies (k, body) hp
  exact ⟨sec, hsec, by rw [hfile, hbody]⟩

/-! ## One attempt -/

/-- What no attempt changes of a manifest. -/
def ReasonOutputManifest.plan (m : ReasonOutputManifest) : ReasonOutputManifest :=
  { m with
    status := .planned
    updated_at := ""
    chunks := []
    attempts := 0
    last_error := none
    last_attempt_at := none }

/-- A directory that an attempt can go on from. -/
structure Resumable (planned : ReasonOutputManifest) (batches : List (List ReasoningStep))
    (d : JobDirectory) : Prop where
  recorded : Recorded planned.sections batches d
  plan : ∃ m, d.manifest = some m ∧ m.plan = planned.plan

variable {I : JobDirectory → Prop} {planned m : ReasonOutputManifest}
  {service : ReasonOutputService} {thread_id job_id topic : String}
  {steps selected : List ReasoningStep} {chunks : List ReasonOutputChunk}

theorem plan_fields (h : m.plan = planned.plan) : m.sections = planned.sections ∧
    m.source_step_ids = planned.source_step_ids ∧ m.segment_size = planned.segment_size := by
  have hsections := congrArg ReasonOutputManifest.sections h
  have hids := congrArg ReasonOutputManifest.source_step_ids h
  have hsize := congrArg ReasonOutputManifest.segment_size h
  exact ⟨hsections, hids, hsize⟩

theorem decodes_plan (m : ReasonOutputManifest) :
    m.decodes = (m.plan.decodes && m.chunks.all ReasonOutputChunk.decodes) := by
  rw [ReasonOutputManifest.decodes, ReasonOutputManifest.decodes, ReasonOutputManifest.plan,
    List.all_nil, Bool.and_true]

theorem preserves_publishProgress (hprogress : ∀ p d, I d → I (JobDirectory.putProgress p d))
    (hpdf : ∀ (b : Bool) d, I d → I { d with pdf := b }) (updated : ReasonOutputManifest) :
    Interruptible.Preserves I (publishProgress attempt updated chunks) := by
  have hgenerate : Interruptible.Preserves I (generatePdf attempt) := by
    refine Interruptible.preserves_get.bind fun d => ?_
    split
    · split
      · exact Interruptible.preserves_pure _
      · refine (Interruptible.preserves_modify fun d hd => hpdf _ d hd).bind fun _ => ?_
        exact Interruptible.preserves_get.bind fun _ => Interruptible.preserves_pure _
      · exact Interruptible.preserves_raise _
      · exact Interruptible.preserves_ends _
    · exact Interruptible.preserves_pure _
  refine (Interruptible.preserves_write fun d hd => hprogress _ d hd).bind fun _ => ?_
  refine hgenerate.bind fun pdf_path => ?_
  exact Interruptible.preserves_get.bind fun _ =>
    Interruptible.preserves_write fun d hd => hprogress _ d hd

theorem Resumable.put_combined (h : Resumable planned batches d) (text : String) :
    Resumable planned batches (JobDirectory.putDocument "combined.md" text d) where
  recorded := by
    refine h.recorded.of_same rfl fun k => ?_
    exact Table.get_set_ne _ _ (chunkFilename_ne_combined k)
  plan := h.plan

/-- **Marking the job keeps it resumable**: the plan of the manifest stays. -/
theorem resumable_finalizeJob (hplan : m.plan = planned.plan) :
    Interruptible.Preserves (Resumable planned batches)
      (finalizeJob attempt topic m chunks planned.sections) := by
  have hsections := (plan_fields hplan).1
  have hcomposed : (composedManifest attempt m chunks planned.sections).plan = planned.plan := by
    rw [← hplan, ← hsections]
    rfl
  refine Interruptible.preserves_get.bind fun _ => ?_
  refine (Interruptible.preserves_ofExcept _).bind fun text => ?_
  refine (Interruptible.preserves_write fun d hd => hd.put_combined text).bind fun _ => ?_
  refine (Interruptible.preserves_write fun d hd => ?_).bind fun _ => ?_
  · exact ⟨hd.recorded.of_same rfl fun _ => rfl, _, rfl, hcomposed⟩
  · refine Interruptible.Preserves.bind ?_ fun _ => Interruptible.preserves_pure _
    exact preserves_publishProgress
      (fun p d hd => ⟨hd.recorded.of_same rfl fun _ => rfl, hd.plan⟩)
      (fun b d hd => ⟨hd.recorded.of_same rfl fun _ => rfl, hd.plan⟩) _

/-- The surroundings of an attempt on a thread: the store answers, and chunk writes succeed. -/
structure Meets (attempt : ExportAttempt) (planned : ReasonOutputManifest) (topic : String)
    (selected : List ReasoningStep) (batches : List (List ReasoningStep)) : Prop where
  reason : ∃ steps, attempt.reason = .ok (topic, steps) ∧
    sourceSteps steps planned.source_step_ids = .ok selected
  cut : partitionSteps selected planned.segment_size = .ok batches
  writes : ∀ k, attempt.writes (.chunk k) = .written
  sections : planned.sections ≠ []

theorem sectionPlan_of_plan (hplan : m.plan = planned.plan) (hsections : planned.sections ≠ [])
    (thread : ReasoningThread) (now : String) :
    service.sectionPlan thread m selected now = .ok planned.sections := by
  have hsame := (plan_fields hplan).1
  rw [ReasonOutputService.sectionPlan, hsame, if_neg]
  simpa using hsections

/-- **An attempt keeps a job resumable**, however it ends. -/
theorem resumable_compose (hmeets : Meets attempt planned topic selected batches) :
    Interruptible.Preserves (Resumable planned batches)
      (composeWithRunner service thread_id job_id attempt) := by
  intro d hd
  obtain ⟨⟨steps, hreason, hsources⟩, hcut, hwrites, hsections⟩ := hmeets
  have hstate := getJob_state attempt thread_id job_id d
  rw [composeWithRunner, Interruptible.bind_run]
  cases hjob : getJob attempt thread_id job_id d with
  | mk o d₁ =>
    rw [hjob] at hstate
    obtain rfl : d₁ = d := hstate
    cases o with
    | raised e => exact hd
    | stopped => exact hd
    | returned m =>
      obtain ⟨m', hstored, hplan⟩ := hd.plan
      have hsame := (getJob_returned_iff.mp hjob).2.1
      rw [hstored, Option.some.injEq] at hsame
      subst hsame
      obtain ⟨-, hids, hsize⟩ := plan_fields hplan
      rw [← hids] at hsources
      rw [← hsize] at hcut
      simp only
      rw [Interruptible.returned_bind (Interruptible.ofExcept_ok hreason d₁)]
      simp only
      rw [Interruptible.returned_bind (Interruptible.ofExcept_ok hsources d₁),
        Interruptible.returned_bind (Interruptible.ofExcept_ok
          (sectionPlan_of_plan hplan hsections _ _) d₁),
        Interruptible.returned_bind (Interruptible.ofExcept_ok hcut d₁)]
      have hloop : Interruptible.Preserves (Resumable planned batches)
          (composeChunks attempt planned.sections 0 0 batches) := by
        intro d hd
        have hmanifest := (records_eq (records_composeChunks attempt planned.sections batches 0 0
          d)).1
        exact ⟨preserves_recorded hwrites d hd.recorded, by rw [hmanifest]; exact hd.plan⟩
      exact hloop.bind (fun chunks => resumable_finalizeJob hplan) d₁ hd

/-! ## The combined text -/

theorem combineLines_congr {attempt' : ExportAttempt} {m' : ReasonOutputManifest}
    (hids : m'.source_step_ids = m.source_step_ids) {documents documents' : Table String String} :
    ∀ {batches : List (List ReasoningStep)} {index : Nat} {prev : Int} {lines lines' : List String},
      (∀ k < batches.length, documents'.get (chunkFilename (index + k)) =
        documents.get (chunkFilename (index + k))) →
      combineLines attempt m section_plan documents prev (chunkRecords attempt index batches) =
        .ok lines →
      combineLines attempt' m' section_plan documents' prev (chunkRecords attempt' index batches) =
        .ok lines' → lines' = lines
  | [], _, _, _, _, _, h, h' => by
    cases h
    cases h'
    rfl
  | batch :: rest, index, prev, lines, lines', hfiles, h, h' => by
    have hfirst := hfiles 0 (Nat.succ_pos _)
    have hrest : ∀ k < rest.length, documents'.get (chunkFilename (index + 1 + k)) =
        documents.get (chunkFilename (index + 1 + k)) := by
      intro k hk
      rw [Nat.add_assoc, Nat.add_comm 1 k]
      exact hfiles (k + 1) (Nat.succ_lt_succ hk)
    rw [Nat.add_zero] at hfirst
    rw [chunkRecords, combineLines] at h h'
    simp only [chunkRecord_index, chunkRecord_filename, hfirst, hids] at h h'
    cases hread : attempt.reads (.chunk index) with
    | some e =>
      rw [hread] at h
      cases h
    | none =>
      cases hread' : attempt'.reads (.chunk index) with
      | some e =>
        rw [hread'] at h'
        cases h'
      | none =>
        rw [hread] at h
        rw [hread'] at h'
        cases hget : documents.get (chunkFilename index) with
        | none =>
          simp only [hget] at h h'
          obtain ⟨later, hlater, h⟩ := bind_ok h
          obtain ⟨later', hlater', h'⟩ := bind_ok h'
          cases h
          cases h'
          rw [combineLines_congr hids hrest hlater hlater']
        | some raw =>
          simp only [hget] at h h'
          obtain ⟨sec, hsec, h⟩ := bind_ok h
          obtain ⟨sec', hsec', h'⟩ := bind_ok h'
          obtain ⟨later, hlater, h⟩ := bind_ok h
          obtain ⟨later', hlater', h'⟩ := bind_ok h'
          -- the sections are found by the step ids of the batch alone
          have hstep : (chunkRecord attempt' index batch).step_ids =
              (chunkRecord attempt index batch).step_ids := rfl
          rw [hstep, hsec, Except.ok.injEq] at hsec'
          subst hsec'
          cases h
          cases h'
          rw [combineLines_congr hids hrest hlater hlater']

theorem combineChunks_congr {attempt' : ExportAttempt} {m' : ReasonOutputManifest}
    (hids : m'.source_step_ids = m.source_step_ids) {documents documents' : Table String String}
    {text text' : String}
    (hfiles : ∀ k < batches.length, documents'.get (chunkFilename k) =
      documents.get (chunkFilename k))
    (h : combineChunks attempt topic m section_plan documents (chunkRecords attempt 0 batches) =
      .ok text)
    (h' : combineChunks attempt' topic m' section_plan documents'
      (chunkRecords attempt' 0 batches) = .ok text') : text' = text := by
  obtain ⟨lines, hlines, h⟩ := bind_ok h
  obtain ⟨lines', hlines', h'⟩ := bind_ok h'
  rw [← Except.ok.inj h, ← Except.ok.inj h',
    combineLines_congr hids (fun k hk => by rw [Nat.zero_add]; exact hfiles k hk) hlines hlines']

/-! ## An attempt that returns -/

/-- What an attempt that returns has gone through: the loop, the combined text, the marking. -/
structure Finished (attempt : ExportAttempt) (planned : ReasonOutputManifest) (topic : String)
    (batches : List (List ReasoningStep)) (thread_id job_id : String) (d : JobDirectory)
    (m : ReasonOutputManifest) (d₁ : JobDirectory) (text : String)
    (updated : ReasonOutputManifest) (d' : JobDirectory) : Prop where
  plan : m.plan = planned.plan
  decodes : m.decodes = true
  identity : m.job_id = job_id ∧ m.thread_id = thread_id
  loop : composeChunks attempt planned.sections 0 0 batches d =
    (.returned (chunkRecords attempt 0 batches), d₁)
  combined : combineChunks attempt topic m planned.sections d₁.documents
    (chunkRecords attempt 0 batches) = .ok text
  updated_eq : updated =
    composedManifest attempt m (chunkRecords attempt 0 batches) planned.sections
  stored : d'.manifest = some updated
  notes : d'.composed = d₁.composed
  text_eq : d'.documents.get "combined.md" = some text

theorem documents_markComplete (updated : ReasonOutputManifest) (d : JobDirectory) :
    (markComplete attempt updated chunks d).2.documents = d.documents ∧
      (markComplete attempt updated chunks d).2.composed = d.composed := by
  have hkeep : Interruptible.Preserves
      (fun d' => d'.documents = d.documents ∧ d'.composed = d.composed)
      (markComplete attempt updated chunks) := by
    refine (Interruptible.preserves_write fun d' hd' => ?_).bind fun _ => ?_
    · exact hd'
    · refine Interruptible.Preserves.bind ?_ fun _ => Interruptible.preserves_pure _
      exact preserves_publishProgress (fun p d' hd' => hd') (fun b d' hd' => hd') _
  exact hkeep d ⟨rfl, rfl⟩

/-- **Inversion of an attempt that returns.** -/
theorem compose_finished (hmeets : Meets attempt planned topic selected batches)
    (hd : Resumable planned batches d) {updated : ReasonOutputManifest}
    (h : composeWithRunner service thread_id job_id attempt d = (.returned updated, d')) :
    ∃ m d₁ text,
      Finished attempt planned topic batches thread_id job_id d m d₁ text updated d' := by
  obtain ⟨⟨steps, hreason, hsources⟩, hcut, hwrites, hsections⟩ := hmeets
  rw [composeWithRunner_eq] at h
  obtain ⟨p, d₂, hdocuments, hmark⟩ := Interruptible.bind_returned_iff.mp h
  obtain ⟨m, topic', steps', selected', plan', batches', chunks, d₁, text, hc, rfl, rfl⟩ :=
    composeDocuments_returned_iff.mp hdocuments
  obtain ⟨-, hstored, hdecodes, hidentity, -⟩ := getJob_returned_iff.mp hc.job
  obtain ⟨m', hstored', hplan⟩ := hd.plan
  rw [hstored, Option.some.injEq] at hstored'
  subst hstored'
  obtain ⟨hsame, hids, hsize⟩ := plan_fields hplan
  -- the attempt works on what the plan and the thread give it
  have hreason' := hc.reason
  rw [hreason, Except.ok.injEq, Prod.mk.injEq] at hreason'
  obtain ⟨rfl, rfl⟩ := hreason'
  have hsources' := hc.sources
  rw [hids, hsources, Except.ok.injEq] at hsources'
  subst hsources'
  have hplanned := hc.planned
  rw [sectionPlan_of_plan hplan hsections, Except.ok.injEq] at hplanned
  subst hplanned
  have hcut' := hc.cut
  rw [hsize, hcut, Except.ok.injEq] at hcut'
  subst hcut'
  obtain rfl := (composeChunks_returned hc.loop).1
  have hcombined : (JobDirectory.putDocument "combined.md" text d₁).documents.contains
      "combined.md" = true := by
    simp [JobDirectory.putDocument, Table.contains]
  obtain ⟨hout, hkept, hlanded⟩ := @markComplete_run attempt
    (composedManifest attempt m (chunkRecords attempt 0 batches) planned.sections)
    (chunkRecords attempt 0 batches) _ hcombined
  obtain ⟨hdocs, hnotes⟩ := @documents_markComplete attempt (chunkRecords attempt 0 batches)
    (composedManifest attempt m (chunkRecords attempt 0 batches) planned.sections)
    (JobDirectory.putDocument "combined.md" text d₁)
  rw [hmark] at hout hlanded hdocs hnotes
  have hlands : (attempt.writes .manifest).lands = true := by
    unfold markOutcome at hout
    cases hwrite : attempt.writes .manifest with
    | written => rfl
    | unsynced e => rfl
    | refused e =>
      rw [hwrite] at hout
      cases hout
    | stopped =>
      rw [hwrite] at hout
      cases hout
  have hupdated : updated = composedManifest attempt m (chunkRecords attempt 0 batches)
      planned.sections := by
    cases hmarked : markOutcome attempt with
    | returned u =>
      rw [hmarked] at hout
      cases hout
      rfl
    | raised e =>
      rw [hmarked] at hout
      cases hout
    | stopped =>
      rw [hmarked] at hout
      cases hout
  refine ⟨m, d₁, text, hplan, hdecodes, hidentity, hc.loop, hc.combined, hupdated, ?_, hnotes, ?_⟩
  · rw [hupdated]
    exact (hlanded hlands).1
  · have htext : d'.documents = (JobDirectory.putDocument "combined.md" text d₁).documents := hdocs
    rw [htext]
    exact Table.get_set_self _ _ _

section

variable {d₁ : JobDirectory} {text : String} {updated : ReasonOutputManifest}
  (h : Finished attempt planned topic batches thread_id job_id d m d₁ text updated d')
include h

theorem Finished.present : ∀ k < batches.length,
    d₁.documents.contains (chunkFilename k) = true := by
  intro k hk
  have hthere := (composeChunks_returned h.loop).2.1 k hk
  rwa [Nat.zero_add] at hthere

/-- Every chunk is recorded after the loop. -/
theorem Finished.recorded (hwrites : ∀ k, attempt.writes (.chunk k) = .written)
    (hd : Recorded planned.sections batches d) : Recorded planned.sections batches d₁ := by
  have hkept := preserves_recorded hwrites d hd
  rwa [h.loop] at hkept

theorem Finished.chunks_eq : updated.chunks = chunkRecords attempt 0 batches := by
  rw [h.updated_eq]
  rfl

theorem Finished.plan_decodes (hchunks : planned.chunks = []) : planned.decodes = true := by
  have hm := h.decodes
  rw [decodes_plan, Bool.and_eq_true] at hm
  rw [decodes_plan, ← h.plan, hm.1, hchunks]
  rfl

end

/-- **Two finished attempts with the same bodies leave the same text.** -/
theorem Finished.text_congr {attempt₂ : ExportAttempt} {d₁ d₂ start₂ end₂ : JobDirectory}
    {m₂ updated updated₂ : ReasonOutputManifest} {text text₂ : String}
    (h : Finished attempt planned topic batches thread_id job_id d m d₁ text updated d')
    (h₂ : Finished attempt₂ planned topic batches thread_id job_id start₂ m₂ d₂ text₂ updated₂ end₂)
    (hrecorded : Recorded planned.sections batches d₁)
    (hrecorded₂ : Recorded planned.sections batches d₂) {bodies : Nat → String}
    (hbodies : ∀ p ∈ d₁.composed, bodies p.1 = p.2)
    (hbodies₂ : ∀ p ∈ d₂.composed, bodies p.1 = p.2) : text = text₂ := by
  have hfiles : ∀ k < batches.length, d₁.documents.get (chunkFilename k) =
      d₂.documents.get (chunkFilename k) := by
    intro k hk
    obtain ⟨sec, hsec, hget⟩ := hrecorded.files h.present hbodies k hk
    obtain ⟨sec₂, hsec₂, hget₂⟩ := hrecorded₂.files h₂.present hbodies₂ k hk
    rw [hsec, Except.ok.injEq] at hsec₂
    rw [hget, hget₂, hsec₂]
  have hids : m.source_step_ids = m₂.source_step_ids :=
    (plan_fields (h.plan.trans h₂.plan.symm)).2.1
  exact combineChunks_congr hids hfiles h₂.combined h.combined

/-! ## A straight run -/

/-- **An attempt that nothing disturbs returns**, from the planned job. -/
theorem straight_returns (root : String) {bodies : Nat → String}
    (hmeets : Meets (uninterrupted topic steps bodies) planned topic selected batches)
    (hdecodes : planned.decodes = true)
    (hidentity : planned.job_id = job_id ∧ planned.thread_id = thread_id) :
    ∃ straight d', composeWithRunner service thread_id job_id (uninterrupted topic steps bodies)
      (plannedDirectory root planned) = (.returned straight, d') := by
  obtain ⟨⟨steps', hreason, hsources⟩, -, -, -⟩ := hmeets
  cases hreason
  have hcomposable : Composable thread_id job_id (uninterrupted topic steps bodies)
      (plannedDirectory root planned) planned :=
    ⟨rfl, rfl, hdecodes, hidentity, ⟨topic, steps, rfl, sourceSteps_ok_iff.mp ⟨_, hsources⟩⟩,
      fun k _ => ⟨Or.inr ⟨⟨bodies k, rfl⟩, rfl⟩, rfl⟩, rfl⟩
  have hcases := compose_cases service thread_id job_id (uninterrupted topic steps bodies)
    (show (plannedDirectory root planned).manifest = some planned from rfl)
  rcases hcases with ⟨hnot, -⟩ | ⟨-, updated, -, hout⟩
  · exact absurd ⟨hcomposable, rfl⟩ hnot
  · exact ⟨updated, _, Prod.ext hout rfl⟩

/-! ## Runs of attempts -/

/-- A job, and the thread it exports. -/
structure ResumeState where
  directory : JobDirectory
  steps : List ReasoningStep

/-- What happens to them: a step is appended under a new id, or the job is composed. -/
inductive ResumeInput where
  | append (step : ReasoningStep)
  | compose (attempt : ExportAttempt)

inductive ResumeOutput where
  | appended
  | composed (outcome : Outcome ReasonOutputError ReasonOutputManifest)

/-- The attempt on a thread with these steps, whose chunk writes succeed. -/
def ExportAttempt.on (attempt : ExportAttempt) (topic : String) (steps : List ReasoningStep) :
    ExportAttempt :=
  { attempt with
    reason := .ok (topic, steps)
    writes := fun w =>
      match w with
      | .chunk _ => .written
      | w => attempt.writes w }

def resumeStep (service : ReasonOutputService) (thread : ReasoningThread) (job_id : String)
    (s : ResumeState) : ResumeInput → ResumeState × ResumeOutput
  | .append step =>
    if step.id ∈ s.steps.map fun s => s.id then (s, .appended)
    else ({ s with steps := s.steps ++ [step] }, .appended)
  | .compose attempt =>
    let (outcome, d) := composeWithRunner service thread.id job_id
      (attempt.on thread.topic s.steps) s.directory
    ({ s with directory := d }, .composed outcome)

/-- The invariant of such a run. -/
structure ResumeInv (planned : ReasonOutputManifest) (selected : List ReasoningStep)
    (batches : List (List ReasoningStep)) (s : ResumeState) : Prop where
  distinct : (s.steps.map fun s => s.id).Nodup
  there : ∀ step ∈ selected, step ∈ s.steps
  resumable : Resumable planned batches s.directory

/-- What is fixed for the whole run. -/
structure Fixed (planned : ReasonOutputManifest) (selected : List ReasoningStep)
    (batches : List (List ReasoningStep)) : Prop where
  ids : planned.source_step_ids = selected.map fun s => s.id
  cut : partitionSteps selected planned.segment_size = .ok batches
  sections : planned.sections ≠ []

theorem Fixed.meets (hfixed : Fixed planned selected batches)
    (hdistinct : (steps.map fun s => s.id).Nodup) (hthere : ∀ step ∈ selected, step ∈ steps)
    (hreason : attempt.reason = .ok (topic, steps))
    (hwrites : ∀ k, attempt.writes (.chunk k) = .written) :
    Meets attempt planned topic selected batches where
  reason := ⟨steps, hreason, by rw [hfixed.ids]; exact sourceSteps_of_mem hdistinct hthere⟩
  cut := hfixed.cut
  writes := hwrites
  sections := hfixed.sections

/-- **One happening keeps the invariant.** -/
theorem resumeInv_step {thread : ReasoningThread} (hfixed : Fixed planned selected batches)
    (s : ResumeState) (i : ResumeInput) (h : ResumeInv planned selected batches s) :
    ResumeInv planned selected batches (resumeStep service thread job_id s i).1 := by
  cases i with
  | append step =>
    simp only [resumeStep]
    split
    · exact h
    · rename_i hnew
      refine ⟨?_, fun st hst => List.mem_append_left _ (h.there st hst), h.resumable⟩
      rw [List.map_append, List.nodup_append']
      refine ⟨h.distinct, List.nodup_singleton _, ?_⟩
      intro sid hsid hsingle
      rw [List.map_cons, List.map_nil, List.mem_singleton] at hsingle
      rw [hsingle] at hsid
      exact hnew hsid
  | compose attempt =>
    have hmeets := @Fixed.meets _ (attempt.on thread.topic s.steps) _ thread.topic _ _ hfixed
      h.distinct h.there rfl fun _ => rfl
    exact ⟨h.distinct, h.there, resumable_compose hmeets _ h.resumable⟩

/-- The chunks of a completed manifest make up the source steps, in order and each once. -/
structure Partitions (m : ReasonOutputManifest) (source_step_ids : List String) : Prop where
  complete : m.status = .complete
  joined : (m.chunks.map fun c => c.step_ids).flatten = source_step_ids
  distinct : source_step_ids.Nodup
  nonempty : ∀ c ∈ m.chunks, c.step_ids ≠ []

/-- What a resumed attempt leaves when it returns: its manifest is complete and has the pieces of the
    source steps, the runner has returned once for each of them over all attempts, and the combined
    text is the one of an undisturbed attempt at the planned job with the same bodies. -/
def ResumedAsStraight (service : ReasonOutputService) (thread : ReasoningThread) (job_id root : String)
    (planned : ReasonOutputManifest) (steps : List ReasoningStep)
    (e : Step ResumeState ResumeInput ResumeOutput) : Prop :=
  ∀ attempt manifest, e.input = .compose attempt → e.output = .composed (.returned manifest) →
    Partitions manifest planned.source_step_ids ∧ e.after.directory.manifest = some manifest ∧
    (e.after.directory.composed.map Prod.fst).Perm (List.range manifest.chunks.length) ∧
    ∀ bodies : Nat → String, (∀ p ∈ e.after.directory.composed, bodies p.1 = p.2) →
      ∃ straight d' text, composeWithRunner service thread.id job_id
          (uninterrupted thread.topic steps bodies) (plannedDirectory root planned) =
          (.returned straight, d') ∧
        d'.documents.get "combined.md" = some text ∧
        e.after.directory.documents.get "combined.md" = some text

theorem Finished.partitions {d₁ : JobDirectory} {text : String} {updated : ReasonOutputManifest}
    (h : Finished attempt planned topic batches thread_id job_id d m d₁ text updated d')
    (hfixed : Fixed planned selected batches) (hdistinct : (selected.map fun s => s.id).Nodup) :
    Partitions updated planned.source_step_ids where
  complete := by
    rw [h.updated_eq]
    rfl
  joined := by
    rw [h.chunks_eq, chunkRecords_step_ids, partition_flatten hfixed.cut, hfixed.ids]
  distinct := by
    rw [hfixed.ids]
    exact hdistinct
  nonempty := by
    intro c hc hnil
    rw [h.chunks_eq] at hc
    obtain ⟨batch, hbatch, hids⟩ := mem_chunkRecords hc
    rw [hids, List.map_eq_nil_iff] at hnil
    exact partition_nonempty hfixed.cut batch hbatch hnil

theorem resumable_planned (root : String) :
    Resumable planned batches (plannedDirectory root planned) where
  recorded := ⟨List.nodup_nil, fun _ _ hp => (nomatch hp), fun _ _ hget => (nomatch hget)⟩
  plan := ⟨planned, rfl, rfl⟩

/-- **An attempt of a run that returns**: it has put the pieces of the source steps into its
    manifest, the runner has returned once for each, and the combined text is that of a straight
    run with the same bodies. -/
theorem resume_step {thread : ReasoningThread} (hfixed : Fixed planned selected batches)
    (hdistinct : (selected.map fun s => s.id).Nodup) (hthread : planned.thread_id = thread.id)
    (hjob : planned.job_id = job_id) (hchunks : planned.chunks = []) (root : String)
    (hsteps : (steps.map fun s => s.id).Nodup) (hthere : ∀ step ∈ selected, step ∈ steps)
    {e : Step ResumeState ResumeInput ResumeOutput}
    (he : e.Of (resumeStep service thread job_id)) (h : ResumeInv planned selected batches e.before) :
    ResumedAsStraight service thread job_id root planned steps e := by
  intro attempt manifest hinput houtput
  have hrun : resumeStep service thread job_id e.before (.compose attempt) =
      (e.after, .composed (.returned manifest)) := by
    rw [← hinput, ← houtput]
    exact he
  have hmeets := @Fixed.meets _ (attempt.on thread.topic e.before.steps) _ thread.topic _ _ hfixed
    h.distinct h.there rfl fun _ => rfl
  have hcompose : composeWithRunner service thread.id job_id (attempt.on thread.topic e.before.steps)
      e.before.directory = (.returned manifest, e.after.directory) := by
    simp only [resumeStep, Prod.mk.injEq, ResumeOutput.composed.injEq] at hrun
    refine Prod.ext hrun.2 ?_
    rw [← hrun.1]
  obtain ⟨m, d₁, text, hf⟩ := compose_finished hmeets h.resumable hcompose
  have hrecorded := hf.recorded hmeets.writes h.resumable.recorded
  refine ⟨hf.partitions hfixed hdistinct, hf.stored, ?_, fun bodies hbodies => ?_⟩
  · rw [hf.notes, hf.chunks_eq, chunkRecords_length]
    exact hrecorded.perm hf.present
  · -- the straight run starts from nothing and is given the same bodies
    have hstraight := @Fixed.meets _ (uninterrupted thread.topic steps bodies) _ thread.topic _ _
      hfixed hsteps hthere rfl fun _ => rfl
    obtain ⟨straight, d', hreturned⟩ := straight_returns root hstraight
      (hf.plan_decodes hchunks) ⟨hjob, hthread⟩
    obtain ⟨m₂, d₂, text₂, hf₂⟩ := compose_finished hstraight (resumable_planned root) hreturned
    have hrecorded₂ := hf₂.recorded hstraight.writes
      (@resumable_planned batches planned root).recorded
    have hbodies₂ : ∀ p ∈ d₂.composed, bodies p.1 = p.2 := by
      have hkept := @preserves_bodies planned.sections batches thread.topic steps bodies
        (plannedDirectory root planned) fun p hp => nomatch hp
      rwa [hf₂.loop] at hkept
    rw [hf.notes] at hbodies
    have htext := hf.text_congr hf₂ hrecorded hrecorded₂ hbodies hbodies₂
    exact ⟨straight, d', text₂, hreturned, hf₂.text_eq, by rw [hf.text_eq, htext]⟩

/-- **Resuming is as good as a straight run**, for every selection and every non-empty section
    plan, over every run of attempts with steps appended in between. -/
theorem resume_equivalent (service : ReasonOutputService) {records : ReasonRecords}
    {args : PlanArguments} {sel : PlanSelection} (hsel : planSelection records args = .ok sel)
    {sections : List ReasonOutputSection} (hsections : sections ≠ []) (job_id now root : String)
    (inputs : List ResumeInput) :
    ∀ e ∈ run (resumeStep service sel.thread job_id)
        ⟨plannedDirectory root (plannedManifest sel sections job_id now),
          records.list_steps sel.thread.id⟩ inputs,
      ResumedAsStraight service sel.thread job_id root (plannedManifest sel sections job_id now)
        (records.list_steps sel.thread.id) e := by
  obtain ⟨hsublist, hsize⟩ := planSelection_ok hsel
  obtain ⟨batches, hcut⟩ := partitionSteps_ok sel.selected hsize
  have hfixed : Fixed (plannedManifest sel sections job_id now) sel.selected batches :=
    ⟨rfl, hcut, hsections⟩
  have hsteps := records.distinct sel.thread.id
  have hdistinct : (sel.selected.map fun s => s.id).Nodup := hsteps.sublist (hsublist.map _)
  have hstart : ResumeInv (plannedManifest sel sections job_id now) sel.selected batches
      ⟨plannedDirectory root (plannedManifest sel sections job_id now),
        records.list_steps sel.thread.id⟩ :=
    ⟨hsteps, fun step hstep => hsublist.subset hstep,
      ⟨List.nodup_nil, fun _ _ hp => (nomatch hp), fun _ _ hget => (nomatch hget)⟩, _, rfl, rfl⟩
  have hkeep : ∀ s i, ResumeInv (plannedManifest sel sections job_id now) sel.selected batches s →
      ResumeInv (plannedManifest sel sections job_id now) sel.selected batches
        (resumeStep service sel.thread job_id s i).1 :=
    fun s i h => resumeInv_step hfixed s i h
  intro e he
  exact resume_step hfixed hdistinct rfl rfl rfl root hsteps
    (fun step hstep => hsublist.subset hstep) (run_of _ _ _ e he)
    (run_invariant hkeep hstart inputs e he).1

/-- A thread of two steps, exported one step at a time. -/
def tidalSelection : PlanSelection :=
  { tidesSelection with
    selected := [⟨"step-1", "The moon pulls"⟩, ⟨"step-2", "The sea falls"⟩]
    segment_size := 1 }

def tidalRecords : ReasonRecords where
  show_thread _ := .ok tidalSelection.thread
  list_steps _ := tidalSelection.selected
  distinct _ := by decide

/-- The runner raises at the second chunk, a third step is appended, and the job is resumed. -/
def tidalInputs : List ResumeInput :=
  [.compose (tidesAttempt (fun _ => .written) fun index =>
      if index = 0 then .returned "The sea rises." else .raised (.other "no model")),
    .append ⟨"step-3", "The wind turns"⟩,
    .compose (tidesAttempt (fun _ => .written) fun _ => .returned "It falls again.")]

/-- The small job resumed: its last attempt returns, and is as good as a straight one. -/
theorem tidal_resume :
    (∃ e ∈ run (resumeStep ⟨"exports", id⟩ tidalSelection.thread "job-1")
        ⟨plannedDirectory "root" (plannedManifest tidalSelection tidesSections "job-1" "now"),
          tidalSelection.selected⟩ tidalInputs,
      e.after.directory.composed = [(0, "The sea rises."), (1, "It falls again.")]) ∧
    ∀ e ∈ run (resumeStep ⟨"exports", id⟩ tidalSelection.thread "job-1")
        ⟨plannedDirectory "root" (plannedManifest tidalSelection tidesSections "job-1" "now"),
          tidalSelection.selected⟩ tidalInputs,
      ResumedAsStraight ⟨"exports", id⟩ tidalSelection.thread "job-1" "root"
        (plannedManifest tidalSelection tidesSections "job-1" "now") tidalSelection.selected e :=
  ⟨⟨_, List.mem_of_getLast? rfl, by decide +kernel⟩,
    @resume_equivalent ⟨"exports", id⟩ tidalRecords { thread_id := "reason-1", segment_size := 1 }
      tidalSelection rfl tidesSections (by decide) "job-1" "now" "root" tidalInputs⟩

end NuSelf.Reason
