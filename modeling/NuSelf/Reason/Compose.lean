/-
  An attempt in two halves: composing the documents, and marking the job.

  Up to the write of `combined.md` an attempt touches documents only; after it come the manifest
  and the two progress summaries, and nothing else.  Everything that is said about failures,
  crashes and retries of an export rests on this cut.

  1. `composeWithRunner_eq` — the two halves make up `compose_with_runner`.
  2. `records_composeDocuments` — the first half leaves manifest, progress and PDF alone.
  3. `composeDocuments_returns_iff` — the first half goes through exactly when the job is
     `Composable`: its manifest can be read, its steps are there, every missing chunk is composed
     and written, and so is the combined text.
  4. `composeDocuments_returned_iff` — what it hands to the second half: the manifest marked
     complete, and one record for each chunk.
-/
import NuSelf.Reason.Output

namespace NuSelf.Reason

open NuSelf.Lib

/-! ## What an attempt leaves alone -/

/-- Everything in the directory but the documents. -/
def JobDirectory.records (d : JobDirectory) : Option ReasonOutputManifest ×
    Option ReasonOutputProgress × List (ManifestUpdate × ReasonOutputManifest) × Bool × String :=
  (d.manifest, d.progress, d.updates, d.pdf, d.root)

theorem records_eq {d d' : JobDirectory} (h : d'.records = d.records) :
    d'.manifest = d.manifest ∧ d'.progress = d.progress ∧ d'.updates = d.updates := by
  simp only [JobDirectory.records, Prod.mk.injEq] at h
  exact ⟨h.1, h.2.1, h.2.2.1⟩

/-- Where batch number `k` begins. -/
def startOf (batches : List (List ReasoningStep)) (k : Nat) : Nat :=
  ((batches.take k).map List.length).sum

@[simp] theorem startOf_zero (batches : List (List ReasoningStep)) : startOf batches 0 = 0 := rfl

@[simp] theorem startOf_succ (batch : List ReasoningStep) (rest : List (List ReasoningStep))
    (k : Nat) : startOf (batch :: rest) (k + 1) = batch.length + startOf rest k := by
  rw [startOf, List.take_succ_cons, List.map_cons, List.sum_cons]
  rfl

section Frame

variable {I : JobDirectory → Prop} {attempt : ExportAttempt}

/-- What a round of the loop keeps: the runner's note, and what the write of the chunk leaves. -/
theorem preserves_composeChunk {sec : ReasonOutputSection} {index : Nat}
    (hnote : ∀ d body, attempt.runner index = .returned body →
      d.documents.contains (chunkFilename index) = false → I d →
      I (Interruptible.write (attempt.writes (.chunk index))
        (JobDirectory.putDocument (chunkFilename index) (renderChunkDocument sec body))
        { d with composed := d.composed ++ [(index, body)] }).2) :
    Interruptible.Preserves I (composeChunk attempt sec index) := by
  refine Interruptible.Preserves.get_bind fun d hd => ?_
  split
  · exact hd
  · rename_i hmissing
    rw [Bool.not_eq_true] at hmissing
    unfold runChunk
    cases hrun : attempt.runner index with
    | returned body => exact hnote d body hrun hmissing hd
    | raised e => exact hd
    | stopped => exact hd

theorem preserves_composeChunks {section_plan : List ReasonOutputSection} :
    ∀ {batches : List (List ReasoningStep)} {index batch_start : Nat},
      (∀ k sec, k < batches.length →
        sectionForPosition section_plan (batch_start + startOf batches k : Nat) = .ok sec →
        Interruptible.Preserves I (composeChunk attempt sec (index + k))) →
      Interruptible.Preserves I (composeChunks attempt section_plan index batch_start batches)
  | [], _, _, _ => Interruptible.preserves_pure _
  | batch :: rest, index, batch_start, h => by
    have hrest : ∀ k sec, k < rest.length →
        sectionForPosition section_plan (batch_start + batch.length + startOf rest k : Nat) = .ok sec →
        Interruptible.Preserves I (composeChunk attempt sec (index + 1 + k)) := by
      intro k sec hk hsec
      have hround := h (k + 1) sec (Nat.succ_lt_succ hk)
      rw [startOf_succ, ← Nat.add_assoc] at hround
      rw [Nat.add_assoc, Nat.add_comm 1 k]
      exact hround hsec
    intro d hd
    rw [composeChunks, Interruptible.bind_run]
    cases hsec : sectionForPosition section_plan batch_start with
    | error e => exact hd
    | ok sec =>
      have hfirst := h 0 sec (Nat.succ_pos _) (by rw [startOf_zero, Nat.add_zero]; exact hsec)
      exact (hfirst.bind fun _ => (preserves_composeChunks hrest).bind fun _ =>
        Interruptible.preserves_pure _) d hd

end Frame

/-- **The loop writes documents only.** -/
theorem records_composeChunks (attempt : ExportAttempt) (section_plan : List ReasonOutputSection)
    (batches : List (List ReasoningStep)) (index batch_start : Nat) (d : JobDirectory) :
    (composeChunks attempt section_plan index batch_start batches d).2.records = d.records := by
  have hput : ∀ name text d', d'.records = d.records →
      (JobDirectory.putDocument name text d').records = d.records := fun _ _ _ hd' => hd'
  have hround : ∀ sec k, Interruptible.Preserves (fun d' => d'.records = d.records)
      (composeChunk attempt sec k) := by
    intro sec k
    refine preserves_composeChunk fun d' body _ _ hd' => ?_
    exact Interruptible.preserves_write (hput _ _)
      { d' with composed := d'.composed ++ [(k, body)] } hd'
  exact preserves_composeChunks (fun k sec _ _ => hround sec (index + k)) d rfl

/-! ## Attempts that get through the chunks -/

/-- The directory once a chunk has been composed. -/
def JobDirectory.withChunk (d : JobDirectory) (sec : ReasonOutputSection) (index : Nat)
    (body : String) : JobDirectory :=
  JobDirectory.putDocument (chunkFilename index) (renderChunkDocument sec body)
    { d with composed := d.composed ++ [(index, body)] }

/-- A round goes through when its chunk is there, or is composed and put there. -/
theorem composeChunk_returned_iff {attempt : ExportAttempt} {sec : ReasonOutputSection}
    {index : Nat} {d d' : JobDirectory} : composeChunk attempt sec index d = (.returned (), d') ↔
    (d.documents.contains (chunkFilename index) = true ∧ d' = d) ∨
    (d.documents.contains (chunkFilename index) = false ∧
      attempt.writes (.chunk index) = .written ∧
      ∃ body, attempt.runner index = .returned body ∧ d' = d.withChunk sec index body) := by
  rw [composeChunk, Interruptible.get_bind]
  cases hthere : d.documents.contains (chunkFilename index) with
  | true =>
    rw [if_pos rfl]
    simp [eq_comm]
  | false =>
    rw [if_neg (by simp)]
    unfold runChunk
    cases hrun : attempt.runner index with
    | returned body =>
      show Interruptible.write _ _ _ = _ ↔ _
      rw [Interruptible.write_returned_iff]
      simp [JobDirectory.withChunk, eq_comm]
    | raised e =>
      constructor
      · intro h; cases h
      · simp
    | stopped =>
      constructor
      · intro h; cases h
      · simp

@[simp] theorem chunkRecord_index (attempt : ExportAttempt) (index : Nat)
    (batch : List ReasoningStep) : (chunkRecord attempt index batch).index = index := rfl

@[simp] theorem chunkRecord_filename (attempt : ExportAttempt) (index : Nat)
    (batch : List ReasoningStep) :
    (chunkRecord attempt index batch).filename = chunkFilename index := rfl

/-- The records of the chunks, from number `index` on. -/
def chunkRecords (attempt : ExportAttempt) : Nat → List (List ReasoningStep) →
    List ReasonOutputChunk
  | _, [] => []
  | index, batch :: rest => chunkRecord attempt index batch :: chunkRecords attempt (index + 1) rest

theorem chunkRecords_step_ids (attempt : ExportAttempt) :
    ∀ (index : Nat) (batches : List (List ReasoningStep)),
      ((chunkRecords attempt index batches).map fun c => c.step_ids).flatten =
        batches.flatten.map fun s => s.id
  | _, [] => rfl
  | index, batch :: rest => by
    rw [chunkRecords, List.map_cons, List.flatten_cons, chunkRecords_step_ids attempt _ rest,
      List.flatten_cons, List.map_append]
    rfl

@[simp] theorem chunkRecords_length (attempt : ExportAttempt) :
    ∀ (index : Nat) (batches : List (List ReasoningStep)),
      (chunkRecords attempt index batches).length = batches.length
  | _, [] => rfl
  | index, batch :: rest => by
    rw [chunkRecords, List.length_cons, List.length_cons, chunkRecords_length attempt _ rest]

theorem mem_chunkRecords {attempt : ExportAttempt} {c : ReasonOutputChunk} :
    ∀ {index : Nat} {batches : List (List ReasoningStep)}, c ∈ chunkRecords attempt index batches →
      ∃ batch ∈ batches, c.step_ids = batch.map fun s => s.id
  | _, [], h => nomatch h
  | _, batch :: _, h => by
    rcases List.mem_cons.mp h with rfl | h
    · exact ⟨batch, List.mem_cons_self, rfl⟩
    · obtain ⟨batch', hbatch, hids⟩ := mem_chunkRecords h
      exact ⟨batch', List.mem_cons_of_mem _ hbatch, hids⟩

theorem chunkRecords_decodes {attempt : ExportAttempt} :
    ∀ {index : Nat} {batches : List (List ReasoningStep)},
      (∀ batch ∈ batches, (batch.map fun s => s.id).any blank = false) →
      (chunkRecords attempt index batches).all ReasonOutputChunk.decodes = true
  | _, [], _ => rfl
  | index, batch :: rest, h => by
    obtain ⟨hbatch, hrest⟩ := List.forall_mem_cons.mp h
    have hfirst : (chunkRecord attempt index batch).decodes = true := by
      simp only [ReasonOutputChunk.decodes, chunkRecord, chunkFilename_nonblank, hbatch]
      rfl
    rw [chunkRecords, List.all_cons, hfirst, chunkRecords_decodes hrest]
    rfl

/-- A round that went through leaves its chunk, and every chunk that was there. -/
theorem composeChunk_present {attempt : ExportAttempt} {sec : ReasonOutputSection} {index : Nat}
    {d d' : JobDirectory} (h : composeChunk attempt sec index d = (.returned (), d')) :
    d'.documents.contains (chunkFilename index) = true ∧
      ∀ name, name ≠ chunkFilename index →
        d'.documents.contains name = d.documents.contains name := by
  rcases composeChunk_returned_iff.mp h with ⟨hthere, rfl⟩ | ⟨-, -, body, -, rfl⟩
  · exact ⟨hthere, fun _ _ => rfl⟩
  · refine ⟨?_, fun name hname => ?_⟩
    · simp [JobDirectory.withChunk, JobDirectory.putDocument, Table.contains]
    · simp [JobDirectory.withChunk, JobDirectory.putDocument, Table.contains, hname]

/-- **A loop that went through** has made the record of every batch and left every chunk. -/
theorem composeChunks_returned {attempt : ExportAttempt}
    {section_plan : List ReasonOutputSection} :
    ∀ {batches : List (List ReasoningStep)} {index batch_start : Nat} {d d' : JobDirectory}
      {chunks : List ReasonOutputChunk},
      composeChunks attempt section_plan index batch_start batches d = (.returned chunks, d') →
      chunks = chunkRecords attempt index batches ∧
        (∀ k < batches.length, d'.documents.contains (chunkFilename (index + k)) = true) ∧
        ∀ k < index, d'.documents.contains (chunkFilename k) =
          d.documents.contains (chunkFilename k)
  | [], index, batch_start, d, d', chunks, h => by
    cases h
    exact ⟨rfl, fun k hk => absurd hk (Nat.not_lt_zero k), fun _ _ => rfl⟩
  | batch :: rest, index, batch_start, d, d', chunks, h => by
    rw [composeChunks] at h
    obtain ⟨sec, d₁, hsec, h⟩ := Interruptible.bind_returned_iff.mp h
    obtain ⟨-, rfl⟩ := Interruptible.ofExcept_returned_iff.mp hsec
    obtain ⟨_, d₂, hround, h⟩ := Interruptible.bind_returned_iff.mp h
    obtain ⟨later, d₃, hloop, h⟩ := Interruptible.bind_returned_iff.mp h
    cases h
    obtain ⟨rfl, hthere, hkept⟩ := composeChunks_returned hloop
    obtain ⟨hself, hothers⟩ := composeChunk_present hround
    refine ⟨rfl, fun k hk => ?_, fun k hk => ?_⟩
    · cases k with
      | zero => rw [Nat.add_zero, hkept index (Nat.lt_succ_self index), hself]
      | succ k =>
        rw [← Nat.succ_add_eq_add_succ]
        exact hthere k (Nat.lt_of_succ_lt_succ hk)
    · have hne : chunkFilename k ≠ chunkFilename index := by
        intro hname
        have hindex := chunkFilename_inj.mp hname
        omega
      rw [hkept k (by omega), hothers _ hne]

/-- What a batch needs to get through: its chunk is there, or the runner returns and the write
    goes through. -/
def ChunkReady (attempt : ExportAttempt) (d : JobDirectory) (index : Nat) : Prop :=
  d.documents.contains (chunkFilename index) = true ∨
    ((∃ body, attempt.runner index = .returned body) ∧
      attempt.writes (.chunk index) = .written)

theorem sectionForPosition_ok {section_plan : List ReasonOutputSection} (h : section_plan ≠ [])
    (position : Int) : ∃ sec, sectionForPosition section_plan position = .ok sec := by
  cases section_plan with
  | nil => exact absurd rfl h
  | cons first rest =>
    rw [sectionForPosition]
    split
    · exact ⟨first, rfl⟩
    · split
      · rename_i sec _
        exact ⟨sec, rfl⟩
      · exact ⟨_, rfl⟩

theorem composeChunk_returns_iff {attempt : ExportAttempt} {sec : ReasonOutputSection}
    {index : Nat} {d : JobDirectory} :
    (∃ d', composeChunk attempt sec index d = (.returned (), d')) ↔
      ChunkReady attempt d index := by
  constructor
  · rintro ⟨d', h⟩
    rcases composeChunk_returned_iff.mp h with ⟨hthere, -⟩ | ⟨-, hwrite, body, hrun, -⟩
    · exact Or.inl hthere
    · exact Or.inr ⟨⟨body, hrun⟩, hwrite⟩
  · intro h
    cases hthere : d.documents.contains (chunkFilename index) with
    | true => exact ⟨d, composeChunk_returned_iff.mpr (Or.inl ⟨hthere, rfl⟩)⟩
    | false =>
      rcases h with h | ⟨⟨body, hrun⟩, hwrite⟩
      · rw [hthere] at h
        cases h
      · exact ⟨_, composeChunk_returned_iff.mpr (Or.inr ⟨hthere, hwrite, body, hrun, rfl⟩)⟩

theorem ready_after {attempt : ExportAttempt} {sec : ReasonOutputSection} {index k : Nat}
    {d d' : JobDirectory} (h : composeChunk attempt sec index d = (.returned (), d'))
    (hk : k ≠ index) : ChunkReady attempt d' k ↔ ChunkReady attempt d k := by
  have hne : chunkFilename k ≠ chunkFilename index := fun hname => hk (chunkFilename_inj.mp hname)
  rw [ChunkReady, ChunkReady, (composeChunk_present h).2 _ hne]

/-- **When the loop goes through**: with a section plan, exactly when every batch is ready. -/
theorem composeChunks_returns_iff {attempt : ExportAttempt}
    {section_plan : List ReasonOutputSection} (hplan : section_plan ≠ []) :
    ∀ {batches : List (List ReasoningStep)} {index batch_start : Nat} {d : JobDirectory},
      (∃ chunks d', composeChunks attempt section_plan index batch_start batches d =
        (.returned chunks, d')) ↔ ∀ k < batches.length, ChunkReady attempt d (index + k)
  | [], index, batch_start, d =>
    ⟨fun _ k hk => absurd hk (Nat.not_lt_zero k), fun _ => ⟨[], d, rfl⟩⟩
  | batch :: rest, index, batch_start, d => by
    obtain ⟨sec, hsec⟩ := sectionForPosition_ok hplan batch_start
    have hlater : ∀ {d₁ : JobDirectory}, composeChunk attempt sec index d = (.returned (), d₁) →
        ∀ k, ChunkReady attempt d₁ (index + 1 + k) ↔ ChunkReady attempt d (index + 1 + k) :=
      fun h k => ready_after h (by omega)
    refine Iff.trans ?_ (forall_row_succ (P := ChunkReady attempt d)).symm
    constructor
    · rintro ⟨chunks, d', h⟩
      rw [composeChunks] at h
      obtain ⟨sec', d₀, hsec', h⟩ := Interruptible.bind_returned_iff.mp h
      obtain ⟨hok, rfl⟩ := Interruptible.ofExcept_returned_iff.mp hsec'
      rw [hsec, Except.ok.injEq] at hok
      subst hok
      obtain ⟨_, d₁, hfirst, h⟩ := Interruptible.bind_returned_iff.mp h
      obtain ⟨later, d₂, hloop, -⟩ := Interruptible.bind_returned_iff.mp h
      have hready := (composeChunks_returns_iff hplan).mp ⟨later, d₂, hloop⟩
      exact ⟨composeChunk_returns_iff.mp ⟨d₁, hfirst⟩,
        fun k hk => (hlater hfirst k).mp (hready k hk)⟩
    · rintro ⟨hself, hready⟩
      obtain ⟨d₁, hfirst⟩ := (@composeChunk_returns_iff attempt sec index d).mpr hself
      obtain ⟨later, d₂, hloop⟩ :=
        (@composeChunks_returns_iff attempt section_plan hplan rest (index + 1)
          (batch_start + batch.length) d₁).mpr fun k hk => (hlater hfirst k).mpr (hready k hk)
      refine ⟨chunkRecord attempt index batch :: later, d₂, ?_⟩
      rw [composeChunks, Interruptible.returned_bind (Interruptible.ofExcept_ok hsec d),
        Interruptible.returned_bind hfirst, Interruptible.returned_bind hloop]
      rfl

/-! ## The two halves -/

variable {service : ReasonOutputService} {thread_id job_id : String} {attempt : ExportAttempt}

/-- `compose_with_runner` up to the combined text: the manifest it will write, and the chunks. -/
def composeDocuments (service : ReasonOutputService) (thread_id job_id : String)
    (attempt : ExportAttempt) : Export (ReasonOutputManifest × List ReasonOutputChunk) := do
  let manifest ← getJob attempt thread_id job_id
  let (topic, steps) ← Interruptible.ofExcept attempt.reason
  let selected ← Interruptible.ofExcept (sourceSteps steps manifest.source_step_ids)
  let section_plan ← Interruptible.ofExcept
    (service.sectionPlan ⟨thread_id, topic⟩ manifest selected (attempt.clock .manifest))
  let batches ← Interruptible.ofExcept (partitionSteps selected manifest.segment_size)
  let chunks ← composeChunks attempt section_plan 0 0 batches
  let d ← Interruptible.get
  let combined_text ← Interruptible.ofExcept
    (combineChunks attempt topic manifest section_plan d.documents chunks)
  Interruptible.write (attempt.writes .combined)
    (JobDirectory.putDocument "combined.md" combined_text)
  return (composedManifest attempt manifest chunks section_plan, chunks)

/-- `compose_with_runner` from the manifest on. -/
def markComplete (attempt : ExportAttempt) (updated : ReasonOutputManifest)
    (chunks : List ReasonOutputChunk) : Export ReasonOutputManifest := do
  Interruptible.write (attempt.writes .manifest) (JobDirectory.putManifest .composed updated)
  publishProgress attempt updated chunks
  return updated

theorem composeWithRunner_eq : composeWithRunner service thread_id job_id attempt =
    composeDocuments service thread_id job_id attempt >>= fun p =>
      markComplete attempt p.1 p.2 := by
  unfold composeWithRunner composeDocuments finalizeJob markComplete
  simp only [bind_assoc, pure_bind]

/-! ## Reading the manifest -/

theorem readManifest_cases (answer : Option ReasonOutputError) (d : JobDirectory) :
    (∃ m, readManifest answer d = (.returned m, d)) ∨
      ∃ e, readManifest answer d = (.raised e, d) := by
  rw [readManifest, Interruptible.get_bind]
  cases answer with
  | some e => exact Or.inr ⟨e, rfl⟩
  | none =>
    cases d.manifest with
    | none => exact Or.inr ⟨_, rfl⟩
    | some m =>
      simp only
      cases m.fromWire with
      | error e => exact Or.inr ⟨e, rfl⟩
      | ok m' => exact Or.inl ⟨m', rfl⟩

/-- A manifest is read when it is there, can be decoded, and the read does not fail. -/
theorem readManifest_returned_iff {answer : Option ReasonOutputError} {d d' : JobDirectory}
    {m : ReasonOutputManifest} : readManifest answer d = (.returned m, d') ↔
    answer = none ∧ d.manifest = some m ∧ m.decodes = true ∧ d' = d := by
  rw [readManifest, Interruptible.get_bind]
  cases answer with
  | some e =>
    constructor
    · intro h; cases h
    · rintro ⟨h, -⟩; cases h
  | none =>
    cases hm : d.manifest with
    | none =>
      constructor
      · intro h; cases h
      · rintro ⟨-, h, -⟩; cases h
    | some m' =>
      simp only
      rw [Interruptible.ofExcept_returned_iff, ReasonOutputManifest.fromWire_ok_iff]
      constructor
      · rintro ⟨⟨hdecodes, rfl⟩, rfl⟩
        exact ⟨trivial, rfl, hdecodes, rfl⟩
      · rintro ⟨-, hsome, hdecodes, rfl⟩
        cases hsome
        exact ⟨⟨hdecodes, rfl⟩, rfl⟩

theorem getJob_state (attempt : ExportAttempt) (thread_id job_id : String) (d : JobDirectory) :
    (getJob attempt thread_id job_id d).2 = d := by
  rw [getJob, Interruptible.bind_run]
  unfold Interruptible.catching
  rcases readManifest_cases (attempt.reads .job) d with ⟨m, hrun⟩ | ⟨e, hrun⟩
  · rw [hrun]
    simp only
    split <;> rfl
  · rw [hrun]
    cases e <;> rfl

theorem getJob_returned_iff {d d' : JobDirectory} {m : ReasonOutputManifest} :
    getJob attempt thread_id job_id d = (.returned m, d') ↔
      attempt.reads .job = none ∧ d.manifest = some m ∧ m.decodes = true ∧
        (m.job_id = job_id ∧ m.thread_id = thread_id) ∧ d' = d := by
  rw [getJob, Interruptible.bind_returned_iff]
  constructor
  · rintro ⟨m', d₁, hread, h⟩
    -- the handler raises in either case
    replace hread := (Interruptible.catching_returned_iff (by
      intro e s
      cases e <;> exact ⟨_, _, rfl⟩)).mp hread
    obtain ⟨hreads, hm, hdecodes, rfl⟩ := readManifest_returned_iff.mp hread
    split at h
    · cases h
    · rename_i hidentity
      cases h
      rw [not_or, not_not, not_not] at hidentity
      exact ⟨hreads, hm, hdecodes, hidentity, rfl⟩
  · rintro ⟨hreads, hm, hdecodes, hidentity, rfl⟩
    refine ⟨m, d', (Interruptible.catching_returned_iff fun e s => ?_).mpr
      (readManifest_returned_iff.mpr ⟨hreads, hm, hdecodes, rfl⟩), ?_⟩
    · cases e <;> exact ⟨_, _, rfl⟩
    rw [if_neg (by rw [not_or, not_not, not_not]; exact hidentity)]
    rfl

/-! ## The first half writes documents only -/

/-- **Composing touches documents only.** -/
theorem records_composeDocuments (d : JobDirectory) :
    (composeDocuments service thread_id job_id attempt d).2.records = d.records := by
  have hput : ∀ text d', d'.records = d.records →
      (JobDirectory.putDocument "combined.md" text d').records = d.records := fun _ _ hd' => hd'
  have hkeep : Interruptible.Preserves (fun d' => d'.records = d.records)
      (composeDocuments service thread_id job_id attempt) := by
    unfold composeDocuments
    refine Interruptible.Preserves.bind (fun d' hd' => ?_) fun m => ?_
    · rw [getJob_state]
      exact hd'
    refine (Interruptible.preserves_ofExcept _).bind fun p => ?_
    refine (Interruptible.preserves_ofExcept _).bind fun selected => ?_
    refine (Interruptible.preserves_ofExcept _).bind fun section_plan => ?_
    refine (Interruptible.preserves_ofExcept _).bind fun batches => ?_
    refine Interruptible.Preserves.bind (fun d' hd' => ?_) fun chunks => ?_
    · exact (records_composeChunks attempt section_plan batches 0 0 d').trans hd'
    refine Interruptible.preserves_get.bind fun _ => ?_
    refine (Interruptible.preserves_ofExcept _).bind fun _ => ?_
    exact (Interruptible.preserves_write (hput _)).bind fun _ => Interruptible.preserves_pure _
  exact hkeep d rfl

/-! ## When the first half goes through -/

/-- A step that only reshapes the result goes through when what it reshapes does. -/
theorem reshaped_ok_iff {α β : Type} {x : Except ReasonOutputError α} {f : α → β} :
    (∃ b, (do let a ← x; return f a) = .ok b) ↔ ∃ a, x = .ok a := by
  cases x with
  | error e =>
    constructor
    · rintro ⟨b, h⟩; cases h
    · rintro ⟨a, h⟩; cases h
  | ok a => exact ⟨fun _ => ⟨a, rfl⟩, fun _ => ⟨f a, rfl⟩⟩

theorem combineLines_ok_iff {manifest : ReasonOutputManifest}
    {section_plan : List ReasonOutputSection} {documents : Table String String}
    (hplan : section_plan ≠ []) :
    ∀ {batches : List (List ReasoningStep)} {index : Nat} {prev : Int},
      (∃ lines, combineLines attempt manifest section_plan documents prev
        (chunkRecords attempt index batches) = .ok lines) ↔
        ∀ k < batches.length, attempt.reads (.chunk (index + k)) = none
  | [], index, prev => ⟨fun _ k hk => absurd hk (Nat.not_lt_zero k), fun _ => ⟨[], rfl⟩⟩
  | batch :: rest, index, prev => by
    refine Iff.trans ?_ (forall_row_succ (P := fun k => attempt.reads (.chunk k) = none)).symm
    rw [chunkRecords, combineLines]
    simp only [chunkRecord_index, chunkRecord_filename]
    cases hread : attempt.reads (.chunk index) with
    | some e =>
      constructor
      · rintro ⟨lines, h⟩; cases h
      · rintro ⟨h, -⟩; cases h
    | none =>
      have ih : ∀ prev, (∃ lines, combineLines attempt manifest section_plan documents prev
          (chunkRecords attempt (index + 1) rest) = .ok lines) ↔
          ∀ k < rest.length, attempt.reads (.chunk (index + 1 + k)) = none :=
        fun prev => combineLines_ok_iff hplan
      cases documents.get (chunkFilename index) with
      | none =>
        simp only
        rw [reshaped_ok_iff, ih]
        simp
      | some raw =>
        obtain ⟨sec, hsec⟩ := sectionForPosition_ok hplan
          (stepPosition manifest.source_step_ids (chunkRecord attempt index batch).step_ids)
        simp only [hsec, ok_bind]
        rw [reshaped_ok_iff, ih]
        simp

/-- The steps of a first half that goes through. -/
structure Composed (service : ReasonOutputService) (thread_id job_id : String)
    (attempt : ExportAttempt) (d : JobDirectory) (manifest : ReasonOutputManifest) (topic : String)
    (steps selected : List ReasoningStep) (section_plan : List ReasonOutputSection)
    (batches : List (List ReasoningStep)) (chunks : List ReasonOutputChunk) (d₁ : JobDirectory)
    (combined_text : String) : Prop where
  job : getJob attempt thread_id job_id d = (.returned manifest, d)
  reason : attempt.reason = .ok (topic, steps)
  sources : sourceSteps steps manifest.source_step_ids = .ok selected
  planned : service.sectionPlan ⟨thread_id, topic⟩ manifest selected (attempt.clock .manifest) =
    .ok section_plan
  cut : partitionSteps selected manifest.segment_size = .ok batches
  loop : composeChunks attempt section_plan 0 0 batches d = (.returned chunks, d₁)
  combined : combineChunks attempt topic manifest section_plan d₁.documents chunks =
    .ok combined_text
  written : attempt.writes .combined = .written

theorem composeDocuments_returned_iff {d d' : JobDirectory}
    {p : ReasonOutputManifest × List ReasonOutputChunk} :
    composeDocuments service thread_id job_id attempt d = (.returned p, d') ↔
      ∃ manifest topic steps selected section_plan batches chunks d₁ combined_text,
        Composed service thread_id job_id attempt d manifest topic steps selected section_plan
          batches chunks d₁ combined_text ∧
        p = (composedManifest attempt manifest chunks section_plan, chunks) ∧
        d' = JobDirectory.putDocument "combined.md" combined_text d₁ := by
  rw [composeDocuments]
  constructor
  · intro h
    obtain ⟨manifest, d₀, hjob, h⟩ := Interruptible.bind_returned_iff.mp h
    obtain rfl : d = d₀ := (getJob_returned_iff.mp hjob).2.2.2.2.symm
    obtain ⟨⟨topic, steps⟩, s, hs, h⟩ := Interruptible.bind_returned_iff.mp h
    obtain ⟨hreason, rfl⟩ := Interruptible.ofExcept_returned_iff.mp hs
    obtain ⟨selected, s, hs, h⟩ := Interruptible.bind_returned_iff.mp h
    obtain ⟨hsources, rfl⟩ := Interruptible.ofExcept_returned_iff.mp hs
    obtain ⟨section_plan, s, hs, h⟩ := Interruptible.bind_returned_iff.mp h
    obtain ⟨hplanned, rfl⟩ := Interruptible.ofExcept_returned_iff.mp hs
    obtain ⟨batches, s, hs, h⟩ := Interruptible.bind_returned_iff.mp h
    obtain ⟨hcut, rfl⟩ := Interruptible.ofExcept_returned_iff.mp hs
    obtain ⟨chunks, d₁, hloop, h⟩ := Interruptible.bind_returned_iff.mp h
    rw [Interruptible.get_bind] at h
    obtain ⟨text, s, hs, h⟩ := Interruptible.bind_returned_iff.mp h
    obtain ⟨hcombined, rfl⟩ := Interruptible.ofExcept_returned_iff.mp hs
    obtain ⟨_, d₂, hwrite, h⟩ := Interruptible.bind_returned_iff.mp h
    obtain ⟨hwritten, rfl⟩ := Interruptible.write_returned_iff.mp hwrite
    cases h
    exact ⟨manifest, topic, steps, selected, section_plan, batches, chunks, d₁, text,
      ⟨hjob, hreason, hsources, hplanned, hcut, hloop, hcombined, hwritten⟩, rfl, rfl⟩
  · rintro ⟨manifest, topic, steps, selected, section_plan, batches, chunks, d₁, text, h, rfl, rfl⟩
    rw [Interruptible.returned_bind h.job,
      Interruptible.returned_bind (Interruptible.ofExcept_ok h.reason d)]
    show (Interruptible.ofExcept (sourceSteps steps manifest.source_step_ids) >>= _) d = _
    rw [Interruptible.returned_bind (Interruptible.ofExcept_ok h.sources d),
      Interruptible.returned_bind (Interruptible.ofExcept_ok h.planned d),
      Interruptible.returned_bind (Interruptible.ofExcept_ok h.cut d),
      Interruptible.returned_bind h.loop, Interruptible.get_bind,
      Interruptible.returned_bind (Interruptible.ofExcept_ok h.combined d₁),
      Interruptible.returned_bind (Interruptible.write_returned_iff.mpr ⟨h.written, rfl⟩)]
    rfl

/-- What the first half needs from the job and from outside. -/
structure Composable (thread_id job_id : String) (attempt : ExportAttempt) (d : JobDirectory)
    (manifest : ReasonOutputManifest) : Prop where
  readable : attempt.reads .job = none
  stored : d.manifest = some manifest
  decodes : manifest.decodes = true
  identity : manifest.job_id = job_id ∧ manifest.thread_id = thread_id
  sources : ∃ topic steps, attempt.reason = .ok (topic, steps) ∧
    ∀ sid ∈ manifest.source_step_ids, ∃ s ∈ steps, s.id = sid
  chunks : ∀ k < chunkCount manifest.source_step_ids.length manifest.segment_size,
    ChunkReady attempt d k ∧ attempt.reads (.chunk k) = none
  written : attempt.writes .combined = .written

theorem filterMap_length_iff {α β : Type} {f : α → Option β} : ∀ {as : List α},
    (as.filterMap f).length = as.length ↔ ∀ a ∈ as, ∃ b, f a = some b
  | [] => ⟨fun _ _ h => (nomatch h), fun _ => rfl⟩
  | a :: as => by
    have hle := List.length_filterMap_le f as
    rw [List.forall_mem_cons]
    cases ha : f a with
    | none =>
      rw [List.filterMap_cons_none ha, List.length_cons]
      constructor
      · intro h; omega
      · rintro ⟨⟨b, h⟩, -⟩; cases h
    | some b =>
      rw [List.filterMap_cons_some ha, List.length_cons, List.length_cons,
        Nat.add_right_cancel_iff, filterMap_length_iff]
      exact ⟨fun h => ⟨⟨b, rfl⟩, h⟩, fun h => h.2⟩

theorem sourceSteps_ok_iff {steps : List ReasoningStep} {source_step_ids : List String} :
    (∃ selected, sourceSteps steps source_step_ids = .ok selected) ↔
      ∀ sid ∈ source_step_ids, ∃ s ∈ steps, s.id = sid := by
  have hfind : (∀ sid ∈ source_step_ids,
      ∃ s, (steps.reverse.find? fun s => decide (s.id = sid)) = some s) ↔
      ∀ sid ∈ source_step_ids, ∃ s ∈ steps, s.id = sid := by
    refine forall_congr' fun sid => imp_congr_right fun _ => ?_
    rw [← Option.isSome_iff_exists, List.find?_isSome]
    simp
  rw [← hfind, ← filterMap_length_iff]
  simp only [sourceSteps]
  constructor
  · rintro ⟨selected, h⟩
    split at h
    · cases h
    · rename_i hlength
      exact not_not.mp hlength
  · intro h
    exact ⟨_, if_neg (not_not.mpr h)⟩

theorem sectionWindowSize_pos (mode : ReasonOutputMode) (item_count : Nat) :
    1 ≤ sectionWindowSize mode item_count := by
  unfold sectionWindowSize
  split
  · omega
  · cases mode <;> exact Nat.le_min.mpr ⟨by omega, by decide⟩

/-- There always is a section plan, and it is empty for an empty selection only. -/
theorem sectionPlan_ok (service : ReasonOutputService) (thread : ReasoningThread)
    (manifest : ReasonOutputManifest) (selected : List ReasoningStep) (now : String) :
    ∃ section_plan, service.sectionPlan thread manifest selected now = .ok section_plan ∧
      (section_plan = [] → selected = []) := by
  unfold ReasonOutputService.sectionPlan
  cases hsections : manifest.sections with
  | cons first rest => exact ⟨_, rfl, fun h => nomatch h⟩
  | nil =>
    obtain ⟨batches, hbatches⟩ := partitionSteps_ok selected
      (sectionWindowSize_pos manifest.mode selected.length)
    have hplan : service.planSections thread selected manifest.mode now =
        .ok (service.planSectionsFrom thread manifest.mode selected.length batches.length now 0 0
          batches) := by
      rw [ReasonOutputService.planSections, hbatches]
    refine ⟨_, hplan, fun h => ?_⟩
    cases batches with
    | nil => exact (partition_flatten hbatches).symm
    | cons batch rest => cases h

theorem combineChunks_ok_iff {topic : String} {manifest : ReasonOutputManifest}
    {section_plan : List ReasonOutputSection} {documents : Table String String}
    {batches : List (List ReasoningStep)} (hplan : section_plan = [] → batches = []) :
    (∃ text, combineChunks attempt topic manifest section_plan documents
      (chunkRecords attempt 0 batches) = .ok text) ↔
        ∀ k < batches.length, attempt.reads (.chunk k) = none := by
  rw [combineChunks, reshaped_ok_iff]
  by_cases hempty : section_plan = []
  · rw [hplan hempty]
    exact ⟨fun _ k hk => absurd hk (Nat.not_lt_zero k), fun _ => ⟨[], rfl⟩⟩
  · rw [combineLines_ok_iff hempty]
    simp only [Nat.zero_add]

theorem loop_returns_iff {section_plan : List ReasonOutputSection} {d : JobDirectory}
    {batches : List (List ReasoningStep)} (hplan : section_plan = [] → batches = []) :
    (∃ chunks d₁, composeChunks attempt section_plan 0 0 batches d = (.returned chunks, d₁)) ↔
      ∀ k < batches.length, ChunkReady attempt d k := by
  by_cases hempty : section_plan = []
  · rw [hplan hempty]
    exact ⟨fun _ k hk => absurd hk (Nat.not_lt_zero k), fun _ => ⟨[], d, rfl⟩⟩
  · rw [composeChunks_returns_iff hempty]
    simp only [Nat.zero_add]

theorem batches_nil {selected : List ReasoningStep} {size : Nat}
    {batches : List (List ReasoningStep)} (h : partitionSteps selected size = .ok batches)
    (hempty : selected = []) : batches = [] := by
  have hlength := partition_length h
  rw [hempty] at hlength
  exact List.eq_nil_of_length_eq_zero hlength

/-- **The first half goes through exactly when the job is composable.** -/
theorem composeDocuments_returns_iff {d : JobDirectory} :
    (∃ p d', composeDocuments service thread_id job_id attempt d = (.returned p, d')) ↔
      ∃ manifest, Composable thread_id job_id attempt d manifest := by
  constructor
  · rintro ⟨p, d', h⟩
    obtain ⟨manifest, topic, steps, selected, section_plan, batches, chunks, d₁, text, h, -, -⟩ :=
      composeDocuments_returned_iff.mp h
    obtain ⟨hread, hstored, hdecodes, hidentity, -⟩ := getJob_returned_iff.mp h.job
    obtain ⟨plan', hplan', hempty⟩ := sectionPlan_ok service ⟨thread_id, topic⟩ manifest selected
      (attempt.clock .manifest)
    rw [h.planned, Except.ok.injEq] at hplan'
    subst hplan'
    have hnil : section_plan = [] → batches = [] := fun he => batches_nil h.cut (hempty he)
    have hcount : batches.length =
        chunkCount manifest.source_step_ids.length manifest.segment_size := by
      rw [partition_length h.cut, ← sourceSteps_ids h.sources, List.length_map]
    have hloop := (loop_returns_iff hnil).mp ⟨chunks, d₁, h.loop⟩
    have hchunks := (composeChunks_returned h.loop).1
    have hcombined := h.combined
    rw [hchunks] at hcombined
    have hreads := (combineChunks_ok_iff hnil).mp ⟨text, hcombined⟩
    rw [hcount] at hloop hreads
    exact ⟨manifest, hread, hstored, hdecodes, hidentity,
      ⟨topic, steps, h.reason, sourceSteps_ok_iff.mp ⟨selected, h.sources⟩⟩,
      fun k hk => ⟨hloop k hk, hreads k hk⟩, h.written⟩
  · rintro ⟨manifest, h⟩
    obtain ⟨topic, steps, hreason, hsources⟩ := h.sources
    obtain ⟨selected, hselected⟩ := sourceSteps_ok_iff.mpr hsources
    obtain ⟨section_plan, hplan, hempty⟩ := sectionPlan_ok service ⟨thread_id, topic⟩ manifest
      selected (attempt.clock .manifest)
    have hsize : 1 ≤ manifest.segment_size := by
      have hdecodes := h.decodes
      simp only [ReasonOutputManifest.decodes, Bool.and_eq_true, decide_eq_true_eq] at hdecodes
      exact hdecodes.1.1.1.1.1.1.1.2
    obtain ⟨batches, hcut⟩ := partitionSteps_ok selected hsize
    have hnil : section_plan = [] → batches = [] := fun he => batches_nil hcut (hempty he)
    have hcount : batches.length =
        chunkCount manifest.source_step_ids.length manifest.segment_size := by
      rw [partition_length hcut, ← sourceSteps_ids hselected, List.length_map]
    obtain ⟨chunks, d₁, hloop⟩ := (loop_returns_iff hnil).mpr fun k hk =>
      (h.chunks k (hcount ▸ hk)).1
    have hcombine : ∃ text, combineChunks attempt topic manifest section_plan d₁.documents
        (chunkRecords attempt 0 batches) = .ok text :=
      (combineChunks_ok_iff hnil).mpr fun k hk => (h.chunks k (hcount ▸ hk)).2
    obtain ⟨text, hcombined⟩ := hcombine
    rw [← (composeChunks_returned hloop).1] at hcombined
    exact ⟨_, _, composeDocuments_returned_iff.mpr ⟨manifest, topic, steps, selected,
      section_plan, batches, chunks, d₁, text,
      ⟨getJob_returned_iff.mpr ⟨h.readable, h.stored, h.decodes, h.identity, rfl⟩, hreason,
        hselected, hplan, hcut, hloop, hcombined, h.written⟩, rfl, rfl⟩⟩

/-! ## What the first half hands over -/

section Composed

variable {d d₁ : JobDirectory} {manifest : ReasonOutputManifest} {topic text : String}
  {steps selected : List ReasoningStep} {section_plan : List ReasonOutputSection}
  {batches : List (List ReasoningStep)} {chunks : List ReasonOutputChunk}

theorem Composed.composable (h : Composed service thread_id job_id attempt d manifest topic steps
    selected section_plan batches chunks d₁ text) :
    Composable thread_id job_id attempt d manifest := by
  obtain ⟨m, hm⟩ := composeDocuments_returns_iff.mp ⟨_, _, composeDocuments_returned_iff.mpr
    ⟨manifest, topic, steps, selected, section_plan, batches, chunks, d₁, text, h, rfl, rfl⟩⟩
  have hstored := (getJob_returned_iff.mp h.job).2.1
  rw [hm.stored, Option.some.injEq] at hstored
  rw [← hstored]
  exact hm

/-- **The manifest that marks the job can be read back.** -/
theorem Composed.decodes (h : Composed service thread_id job_id attempt d manifest topic steps
    selected section_plan batches chunks d₁ text) :
    (composedManifest attempt manifest chunks section_plan).decodes = true := by
  have hmanifest := h.composable.decodes
  have hvisible : (selected.map fun s => s.id).any blank = false := by
    rw [sourceSteps_ids h.sources]
    simp only [ReasonOutputManifest.decodes, Bool.and_eq_true, Bool.not_eq_true'] at hmanifest
    exact hmanifest.1.1.1.1.2
  refine decodes_withUpdates hmanifest (fun cs hcs => ?_) fun ss hss => ?_
  · cases hcs
    rw [(composeChunks_returned h.loop).1]
    exact chunkRecords_decodes (visible_batches h.cut hvisible)
  · cases hss
    have hplanned := h.planned
    unfold ReasonOutputService.sectionPlan at hplanned
    split at hplanned
    · exact planSections_decodes hplanned hvisible
    · cases hplanned
      simp only [ReasonOutputManifest.decodes, Bool.and_eq_true] at hmanifest
      exact hmanifest.1.2

end Composed

end NuSelf.Reason
