/-
  The durable records of a reason export: sections, chunks, the manifest and the progress summary.

  A file is modelled by the record its text decodes to.  The JSON codec is kept as what it checks
  about the values (`fromWire`): a record that does not pass cannot be read back.  Times are the
  texts that the clock gives; what `from_wire` asks of them, the clock's texts always meet.

  1. `partition_flatten`, `partition_length` — `partition_steps` cuts a list into pieces that make
     it up again, as many as `_chunk_count` says.
  2. `ReasonOutputManifest.decodes` — what `from_wire` accepts; `with_updates` keeps it as long as
     the new sections and chunks pass.
-/
import NuSelf.Lib.Interruptible
import NuSelf.Lib.Sequence
import NuSelf.Lib.Text

namespace NuSelf.Reason

open NuSelf.Lib

/-! ## Threads and steps -/

/-- The parts of a `ReasoningThread` that an export reads. -/
structure ReasoningThread where
  id : String
  topic : String
  deriving DecidableEq

/-- The parts of a `ReasoningStep` that an export reads. -/
structure ReasoningStep where
  id : String
  summary : String
  deriving DecidableEq

/-- What planning and composing may raise. -/
inductive ReasonOutputError where
  /-- `ReasonNotFound`. -/
  | notFound (identifier : String)
  | value (text : String)
  | runtime (text : String)
  | fileNotFound (name : String)
  /-- An error from outside: the file system, the model, a subprocess. -/
  | other (text : String)
  deriving DecidableEq

/-- How many pieces of the given size cover `item_count` items. -/
def chunkCount (item_count size : Nat) : Nat :=
  if item_count ≤ 0 then 0 else (item_count + size - 1) / size

theorem lt_chunkCount_iff {item_count size k : Nat} (hsize : 1 ≤ size) :
    k < chunkCount item_count size ↔ k * size < item_count := by
  unfold chunkCount
  split
  · omega
  · rw [← Nat.succ_le_iff, Nat.le_div_iff_mul_le hsize, Nat.succ_mul]
    omega

/-- `partition_steps(items, size)`. -/
def partitionSteps {α : Type} (items : List α) (size : Nat) :
    Except ReasonOutputError (List (List α)) :=
  if size < 1 then .error (.value "segment_size must be a positive integer")
  else .ok ((List.range (chunkCount items.length size)).map fun k => window items (k * size) size)

theorem flatten_windows {α : Type} (items : List α) (size : Nat) : ∀ n : Nat,
    ((List.range n).map fun k => window items (k * size) size).flatten = window items 0 (n * size)
  | 0 => by rw [Nat.zero_mul, window_zero]; rfl
  | n + 1 => by
    rw [List.range_succ, List.map_append, List.flatten_append, flatten_windows items size n]
    show window items 0 (n * size) ++ (window items (n * size) size ++ []) = _
    have hjoin := window_append items 0 (n * size) size
    rw [Nat.zero_add] at hjoin
    rw [List.append_nil, hjoin, Nat.add_mul, Nat.one_mul]

theorem partitionSteps_ok {α : Type} (items : List α) {size : Nat} (h : 1 ≤ size) :
    ∃ batches, partitionSteps items size = .ok batches :=
  ⟨_, if_neg (by omega)⟩

theorem partition_flatten {α : Type} {items : List α} {size : Nat} {batches : List (List α)}
    (h : partitionSteps items size = .ok batches) : batches.flatten = items := by
  unfold partitionSteps at h
  split at h
  · cases h
  · rename_i hsize
    cases h
    rw [flatten_windows, window, List.drop_zero]
    apply List.take_of_length_le
    unfold chunkCount
    split
    · omega
    · -- rounding up covers every item
      have hdiv := Nat.div_add_mod (items.length + size - 1) size
      have hmod := Nat.mod_lt (items.length + size - 1) (show 0 < size by omega)
      rw [Nat.mul_comm] at hdiv
      omega

theorem partition_length {α : Type} {items : List α} {size : Nat} {batches : List (List α)}
    (h : partitionSteps items size = .ok batches) :
    batches.length = chunkCount items.length size := by
  unfold partitionSteps at h
  split at h
  · cases h
  · cases h
    rw [List.length_map, List.length_range]

theorem partition_size {α : Type} {items : List α} {size : Nat} {batches : List (List α)}
    (h : partitionSteps items size = .ok batches) : 1 ≤ size := by
  unfold partitionSteps at h
  split at h
  · cases h
  · omega

theorem partition_index_iff {α : Type} {items : List α} {size k : Nat} {batches : List (List α)}
    (h : partitionSteps items size = .ok batches) :
    k < batches.length ↔ k * size < items.length := by
  rw [partition_length h, lt_chunkCount_iff (partition_size h)]

theorem partition_nonempty {α : Type} {items : List α} {size : Nat} {batches : List (List α)}
    (h : partitionSteps items size = .ok batches) : ∀ batch ∈ batches, batch ≠ [] := by
  unfold partitionSteps at h
  split at h
  · cases h
  · rename_i hsize
    cases h
    intro batch hbatch
    obtain ⟨k, hk, rfl⟩ := List.mem_map.mp hbatch
    have hstart := (lt_chunkCount_iff (Nat.le_of_not_lt hsize)).mp (List.mem_range.mp hk)
    rw [window]
    intro hnil
    have hlength := congrArg List.length hnil
    rw [List.length_take, List.length_drop, List.length_nil] at hlength
    omega

/-! ## Modes, formats and statuses -/

/-- `REASON_OUTPUT_MODES`. -/
inductive ReasonOutputMode where
  | outline | narrative | report | summary
  deriving DecidableEq, Repr

def ReasonOutputMode.name : ReasonOutputMode → String
  | .outline => "outline"
  | .narrative => "narrative"
  | .report => "report"
  | .summary => "summary"

/-- `REASON_OUTPUT_FORMATS`. -/
inductive ReasonOutputFormat where
  | markdown
  deriving DecidableEq, Repr

def ReasonOutputFormat.name : ReasonOutputFormat → String
  | .markdown => "markdown"

/-- `REASON_OUTPUT_STATUSES`. -/
inductive ReasonOutputStatus where
  | planned | complete | failed
  deriving DecidableEq, Repr

/-- `REASON_OUTPUT_PDF_STATUSES`. -/
inductive PdfStatus where
  | pending | generated | failed
  deriving DecidableEq, Repr

/-- `complete` and `failed` jobs are never composed again. -/
def ReasonOutputStatus.terminal : ReasonOutputStatus → Bool
  | .planned => false
  | .complete | .failed => true

/-! ## The records -/

structure ReasonOutputSection where
  index : Int
  title : String
  focus : String
  step_ids : List String
  source_start_index : Int
  source_end_index : Int
  summary : String
  created_at : String
  deriving DecidableEq

structure ReasonOutputChunk where
  index : Nat
  filename : String
  step_ids : List String
  created_at : String
  deriving DecidableEq

structure ReasonOutputManifest where
  job_id : String
  thread_id : String
  mode : ReasonOutputMode
  output_format : ReasonOutputFormat
  source_start_index : Nat
  source_end_index : Option Nat
  source_step_ids : List String
  segment_size : Nat
  status : ReasonOutputStatus := .planned
  combined_filename : String := "combined.md"
  progress_filename : String := "progress.json"
  created_at : String
  updated_at : String
  sections : List ReasonOutputSection := []
  chunks : List ReasonOutputChunk := []
  attempts : Nat := 0
  last_error : Option String := none
  last_attempt_at : Option String := none
  deriving DecidableEq

structure ReasonOutputProgress where
  job_id : String
  thread_id : String
  status : ReasonOutputStatus
  completed_chunks : List Nat
  total_chunks : Nat
  pdf_status : PdfStatus
  pdf_path : Option String
  updated_at : String
  deriving DecidableEq

/-! ## Job messages -/

/-- The wake-up data that `reason.output.export` admits, by producer. -/
inductive JobData where
  | reasoning (hints : Option (ReasonOutputMode × ReasonOutputFormat))
  | daemon_retry (attempt : Nat) (positive : 1 ≤ attempt)
  | daemon_reconciliation
  deriving DecidableEq

/-- A validated `JobMessage` of `reason.output.export`; the resource is the thread. -/
structure JobMessage where
  job_id : String
  resource_id : String
  data : JobData
  deriving DecidableEq

/-- `message.payload.get("attempt", 0)`. -/
def JobMessage.attempt (message : JobMessage) : Nat :=
  match message.data with
  | .daemon_retry attempt _ => attempt
  | _ => 0

/-! ## What the decoders check -/

/-- `_expect_nonblank_str`. -/
def expectNonblank (field text : String) : Except ReasonOutputError Unit :=
  if blank text = true then .error (.value ("field '" ++ field ++ "' must not be blank")) else .ok ()

/-- `_expect_str_tuple`. -/
def expectVisible (field : String) (texts : List String) : Except ReasonOutputError Unit :=
  if texts.any blank = true then
    .error (.value ("field '" ++ field ++ "' must contain non-blank strings"))
  else .ok ()

/-- A check that is made by comparing values. -/
def expectThat (holds : Bool) (text : String) : Except ReasonOutputError Unit :=
  if holds = true then .ok () else .error (.value text)

def ReasonOutputSection.fromWire (s : ReasonOutputSection) : Except ReasonOutputError Unit := do
  expectNonblank "title" s.title
  expectNonblank "focus" s.focus
  expectVisible "step_ids" s.step_ids

def ReasonOutputChunk.fromWire (c : ReasonOutputChunk) : Except ReasonOutputError Unit := do
  expectNonblank "filename" c.filename
  expectVisible "step_ids" c.step_ids

/-- `ReasonOutputManifest.from_wire` on the values of a manifest. -/
def ReasonOutputManifest.fromWire (m : ReasonOutputManifest) :
    Except ReasonOutputError ReasonOutputManifest := do
  expectThat (m.source_end_index.all fun e => decide (m.source_start_index ≤ e))
    "source_end_index must not precede source_start_index"
  expectThat (decide (1 ≤ m.segment_size)) "segment_size must be positive"
  expectNonblank "job_id" m.job_id
  expectNonblank "thread_id" m.thread_id
  expectVisible "source_step_ids" m.source_step_ids
  expectNonblank "combined_filename" m.combined_filename
  expectNonblank "progress_filename" m.progress_filename
  let _ ← tryAll ReasonOutputSection.fromWire m.sections
  let _ ← tryAll ReasonOutputChunk.fromWire m.chunks
  return m

/-- `ReasonOutputProgress.from_wire` on the values of a progress summary. -/
def ReasonOutputProgress.fromWire (p : ReasonOutputProgress) :
    Except ReasonOutputError ReasonOutputProgress := do
  expectThat (decide p.completed_chunks.Nodup) "completed_chunks must not contain duplicates"
  expectThat (p.completed_chunks.all fun i => decide (i < p.total_chunks))
    "completed_chunks indexes must be within total_chunks"
  expectNonblank "job_id" p.job_id
  expectNonblank "thread_id" p.thread_id
  return p

/-- What can be read back of a section. -/
def ReasonOutputSection.decodes (s : ReasonOutputSection) : Bool :=
  !blank s.title && !blank s.focus && !s.step_ids.any blank

def ReasonOutputChunk.decodes (c : ReasonOutputChunk) : Bool :=
  !blank c.filename && !c.step_ids.any blank

def ReasonOutputManifest.decodes (m : ReasonOutputManifest) : Bool :=
  m.source_end_index.all (fun e => decide (m.source_start_index ≤ e)) &&
    decide (1 ≤ m.segment_size) && !blank m.job_id && !blank m.thread_id &&
    !m.source_step_ids.any blank && !blank m.combined_filename && !blank m.progress_filename &&
    m.sections.all ReasonOutputSection.decodes && m.chunks.all ReasonOutputChunk.decodes

theorem expectNonblank_ok_iff {field text : String} {u : Unit} :
    expectNonblank field text = .ok u ↔ blank text = false := by
  unfold expectNonblank
  cases blank text <;> simp

theorem expectVisible_ok_iff {field : String} {texts : List String} {u : Unit} :
    expectVisible field texts = .ok u ↔ texts.any blank = false := by
  unfold expectVisible
  cases texts.any blank <;> simp

theorem expectThat_ok_iff {holds : Bool} {text : String} {u : Unit} :
    expectThat holds text = .ok u ↔ holds = true := by
  unfold expectThat
  cases holds <;> simp

theorem checks_ok_iff {β : Type} {x : Except ReasonOutputError Unit}
    {f : Unit → Except ReasonOutputError β} {b : β} :
    (x >>= f) = .ok b ↔ x = .ok () ∧ f () = .ok b := by
  cases x with
  | error e =>
    constructor
    · intro h; cases h
    · rintro ⟨h, -⟩; cases h
  | ok u => exact ⟨fun h => ⟨rfl, h⟩, fun h => h.2⟩

theorem checks_loop_ok_iff {α β : Type} {check : α → Except ReasonOutputError Unit}
    {decodes : α → Bool} (hcheck : ∀ a, check a = .ok () ↔ decodes a = true) {xs : List α}
    {f : List Unit → Except ReasonOutputError β} {b : β} (hf : ∀ us us', f us = f us') :
    (tryAll check xs >>= f) = .ok b ↔ xs.all decodes = true ∧ f [] = .ok b := by
  have hall : (∃ us, tryAll check xs = .ok us) ↔ xs.all decodes = true := by
    rw [tryAll_isOk_iff, List.all_eq_true]
    constructor
    · intro h x hx
      obtain ⟨u, hu⟩ := h x hx
      exact (hcheck x).mp hu
    · intro h x hx
      exact ⟨(), (hcheck x).mpr (h x hx)⟩
  rw [← hall]
  cases hrun : tryAll check xs with
  | error e =>
    constructor
    · intro h; cases h
    · rintro ⟨⟨us, h⟩, -⟩; cases h
  | ok us =>
    constructor
    · intro h
      exact ⟨⟨us, rfl⟩, (hf us []).symm.trans h⟩
    · rintro ⟨-, h⟩
      exact (hf us []).trans h

theorem ReasonOutputSection.fromWire_ok_iff (s : ReasonOutputSection) :
    s.fromWire = .ok () ↔ s.decodes = true := by
  unfold ReasonOutputSection.fromWire ReasonOutputSection.decodes
  rw [checks_ok_iff, checks_ok_iff, expectNonblank_ok_iff, expectNonblank_ok_iff,
    expectVisible_ok_iff]
  simp only [Bool.and_eq_true, Bool.not_eq_true', and_assoc]

theorem ReasonOutputChunk.fromWire_ok_iff (c : ReasonOutputChunk) :
    c.fromWire = .ok () ↔ c.decodes = true := by
  unfold ReasonOutputChunk.fromWire ReasonOutputChunk.decodes
  rw [checks_ok_iff, expectNonblank_ok_iff, expectVisible_ok_iff]
  simp only [Bool.and_eq_true, Bool.not_eq_true']

/-- **The decoder accepts exactly the records that `decodes` describes**, and gives them back. -/
theorem ReasonOutputManifest.fromWire_ok_iff {m m' : ReasonOutputManifest} :
    m.fromWire = .ok m' ↔ m.decodes = true ∧ m = m' := by
  unfold ReasonOutputManifest.fromWire ReasonOutputManifest.decodes
  simp only [checks_ok_iff, expectThat_ok_iff, expectNonblank_ok_iff, expectVisible_ok_iff]
  rw [checks_loop_ok_iff ReasonOutputSection.fromWire_ok_iff fun _ _ => rfl,
    checks_loop_ok_iff ReasonOutputChunk.fromWire_ok_iff fun _ _ => rfl]
  simp only [Bool.and_eq_true, Bool.not_eq_true', and_assoc, pure, Except.pure, Except.ok.injEq]

/-! ## Updates -/

/-- `with_updates(status=, chunks=, sections=, attempts=, last_error=, last_attempt_at=)`; `none`
    leaves a field as it is. -/
def ReasonOutputManifest.withUpdates (m : ReasonOutputManifest) (now : String)
    (status : Option ReasonOutputStatus) (chunks : Option (List ReasonOutputChunk))
    (sections : Option (List ReasonOutputSection)) (attempts : Option Nat)
    (last_error last_attempt_at : Option String) : ReasonOutputManifest :=
  { m with
    updated_at := now
    status := status.getD m.status
    chunks := chunks.getD m.chunks
    sections := sections.getD m.sections
    attempts := attempts.getD m.attempts
    last_error := last_error.or m.last_error
    last_attempt_at := last_attempt_at.or m.last_attempt_at }

theorem decodes_withUpdates {m : ReasonOutputManifest} (h : m.decodes = true) {now : String}
    {status : Option ReasonOutputStatus} {chunks : Option (List ReasonOutputChunk)}
    {sections : Option (List ReasonOutputSection)} {attempts : Option Nat}
    {last_error last_attempt_at : Option String}
    (hchunks : ∀ cs, chunks = some cs → cs.all ReasonOutputChunk.decodes = true)
    (hsections : ∀ ss, sections = some ss → ss.all ReasonOutputSection.decodes = true) :
    (m.withUpdates now status chunks sections attempts last_error last_attempt_at).decodes
      = true := by
  simp only [ReasonOutputManifest.decodes, Bool.and_eq_true] at h
  obtain ⟨⟨hvalues, hss⟩, hcs⟩ := h
  have hss' : (sections.getD m.sections).all ReasonOutputSection.decodes = true := by
    cases hsome : sections with
    | none => exact hss
    | some ss => exact hsections ss hsome
  have hcs' : (chunks.getD m.chunks).all ReasonOutputChunk.decodes = true := by
    cases hsome : chunks with
    | none => exact hcs
    | some cs => exact hchunks cs hsome
  simp only [ReasonOutputManifest.decodes, ReasonOutputManifest.withUpdates, Bool.and_eq_true]
  exact ⟨⟨hvalues, hss'⟩, hcs'⟩

end NuSelf.Reason
