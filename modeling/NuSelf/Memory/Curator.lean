/-
  The background curator of memory observations.

  A run reads the observation and its stored plan, asks the model if there is no plan, and then
  writes: the plan first, then the memory of each action, then the mark of the observation, and
  last it removes the plan.  What the run reads decides what it writes (`runWrites`); a crash or a
  failing write cuts the list of writes short, and every later run starts from what is stored.

  Which rows the memory repositories write for the actions is up to them: a `MemoryWrite` is a row
  of one of their collections.  `runOnce_keeps` is what a whole run leaves of the inbox.
-/
import NuSelf.Memory.Contract
import NuSelf.Memory.Observation

namespace NuSelf.Memory

open NuSelf.Lib NuSelf.Storage

/-! ## Plans -/

/-- One durable structured decision awaiting the completion of its observation. -/
structure MemoryCuratorPlan where
  observation_id : String
  source_ref : String
  observed_at : String
  actions : List MemoryAction
  deriving DecidableEq

namespace MemoryCuratorPlan

def toWire (plan : MemoryCuratorPlan) : Record where
  rows := [("observation_id", .str plan.observation_id), ("source_ref", .str plan.source_ref),
    ("observed_at", .str plan.observed_at),
    ("actions", .arr (plan.actions.map MemoryAction.toWire))]
  nodup := by simp

def wireFields : List String := ["observation_id", "source_ref", "observed_at", "actions"]

/-- The actions of a stored plan: a list that is not empty, each one valid. -/
def readActions (casefold : String → String) : Option Json → Option (List MemoryAction)
  | some (.arr items) =>
    if items = [] then none
    else items.mapM fun item => modelValidate item >>= actionFromItem casefold
  | _ => none

def fromWire (casefold : String → String) (data : Record) (expected_observation_id : String) :
    Option MemoryCuratorPlan :=
  if MemoryObservation.sameFields data wireFields = false then none
  else if data.get "observation_id" ≠ some (.str expected_observation_id) then none
  else do
    let source_ref ← MemoryObservation.readText (data.get "source_ref")
    let observed_at ← MemoryObservation.readText (data.get "observed_at")
    let actions ← readActions casefold (data.get "actions")
    return { observation_id := expected_observation_id, source_ref, observed_at, actions }

end MemoryCuratorPlan

/-- `MemoryCuratorPlanStore.get`. -/
def getPlan (casefold : String → String) (db : Records) (observation_id : String) :
    Except MemoryError (Option MemoryCuratorPlan) :=
  match collectionGet db "memory_curator_plans" observation_id with
  | .error _ => .error (.corruptPlan observation_id)
  | .ok none => .ok none
  | .ok (some raw) =>
    match MemoryCuratorPlan.fromWire casefold (raw.erase "id") observation_id with
    | none => .error (.corruptPlan observation_id)
    | some plan => .ok (some plan)

/-- `MemoryCuratorPlanStore.save`. -/
def savePlan (db : Records) (plan : MemoryCuratorPlan) : Except MemoryError Records :=
  fromStorage (collectionPut db "memory_curator_plans" plan.observation_id plan.toWire)

/-- `MemoryCuratorPlanStore.complete`. -/
def completePlan (db : Records) (observation_id : String) : Records :=
  collectionDelete db "memory_curator_plans" observation_id

/-- The check of `exclusive`; whether the lock is free is up to the other processes. -/
def exclusive (observation_id : String) : Bool :=
  hasPrefix "obs_" observation_id && !observation_id.toList.contains '/'

/-! ## The worth of an observation -/

def durableSignalMarkers : List String :=
  ["prefer", "remember", "important", "decide", "decision", "should", "goal", "plan", "because",
    "why", "question", "always", "never", "记住", "記住", "牢记", "牢記", "以后", "以後", "今后", "今後",
    "总是", "總是", "永远", "永遠", "不要", "不再", "偏好", "喜欢", "喜歡", "重要", "决定", "決定", "目标",
    "目標", "计划", "計劃", "因为", "因為", "为什么", "為什麼", "问题", "問題", "应该", "應該", "尽量", "儘量",
    "覚えて", "記憶して", "これから", "いつも", "常に", "二度と", "好み", "好き", "決め", "計画", "なぜ", "質問",
    "べき", "ください"]

def hasMemoryWorthySignal (casefold : String → String) (min_quality_chars : Nat)
    (fragments : List String) : Bool :=
  let text := "\n".intercalate fragments
  min_quality_chars ≤ (strip text).length ||
    durableSignalMarkers.any fun marker =>
      0 < occurrences marker.toList (casefold text).toList

/-! ## One run -/

/-- The collections of the memory and trace repositories. -/
def memoryCollections : List String :=
  ["memory_entries", "memory_candidates", "profile_items", "trace_nodes", "trace_edges"]

/-- A row that a memory repository writes, or removes. -/
structure MemoryWrite where
  collection : String
  key : String
  payload : Option Payload
  owned : collection ∈ memoryCollections
  /-- The table accepts standard JSON only. -/
  finite : ∀ p, payload = some p → p.record.finite = true

def MemoryWrite.apply (w : MemoryWrite) (db : Records) : Records :=
  match w.payload with
  | none => db.erase (w.collection, w.key)
  | some p => db.set (w.collection, w.key) p

/-- What the rest of the world decides in one run. -/
structure CuratorRun where
  observation_id : String
  /-- Another process holds the lock. -/
  contended : Bool := false
  decision : MemoryDecision := .deferred
  /-- What the memory repositories write for the actions of the plan. -/
  memory : List MemoryWrite := []
  /-- The process dies after so many writes. -/
  crash : Option Nat := none

inductive CuratorWrite where
  | savePlan (plan : MemoryCuratorPlan)
  | memory (write : MemoryWrite)
  | markProcessed (observation_id : String)
  | completePlan (observation_id : String)

def CuratorWrite.apply (db : Records) : CuratorWrite → Except MemoryError Records
  | .savePlan plan => Memory.savePlan db plan
  | .memory write => .ok (write.apply db)
  | .markProcessed observation_id => Memory.markProcessed db observation_id
  | .completePlan observation_id => .ok (Memory.completePlan db observation_id)

section

variable (casefold : String → String) (min_quality_chars : Nat)

/-- The writes that follow a plan. -/
def planWrites (run : CuratorRun) : List CuratorWrite :=
  run.memory.map CuratorWrite.memory ++
    [.markProcessed run.observation_id, .completePlan run.observation_id]

/-- The writes of `_run_once_locked`, in order. -/
def runWrites (db : Records) (run : CuratorRun) : Except MemoryError (List CuratorWrite) := do
  let observation ← getObservation db run.observation_id
  if observation.status = .processed then return []
  else
    match ← getPlan casefold db run.observation_id with
    | some _ => return planWrites run
    | none =>
      if hasMemoryWorthySignal casefold min_quality_chars observation.fragments = false then
        return [.markProcessed run.observation_id]
      else
        match run.decision with
        | .deferred => return []
        | .ready actions _ =>
          return .savePlan ⟨run.observation_id, observation.source_ref, observation.observed_at,
            actions⟩ :: planWrites run

/-- The writes one after the other; the first that fails ends the run. -/
def performWrites : List CuratorWrite → Records → Records × Option MemoryError
  | [], db => (db, none)
  | write :: rest, db =>
    match write.apply db with
    | .error e => (db, some e)
    | .ok db => performWrites rest db

/-- The part of the writes that happens before a crash. -/
def CuratorRun.survive (run : CuratorRun) (writes : List CuratorWrite) : List CuratorWrite :=
  match run.crash with
  | none => writes
  | some n => writes.take n

/-- `MemoryCurator.run_once`: the table after the run, and its error. -/
def runOnce (db : Records) (run : CuratorRun) : Records × Option MemoryError :=
  if exclusive run.observation_id = false then
    (db, some (.invalidObservationId run.observation_id))
  else if run.contended = true then (db, none)
  else
    match runWrites casefold min_quality_chars db run with
    | .error e => (db, some e)
    | .ok writes => performWrites (run.survive writes) db

end

/-! ## The inbox in a run -/

theorem apply_keeps {db db' : Records} {write : CuratorWrite} (h : write.apply db = .ok db') :
    KeepsInbox db db' := by
  have hother : ∀ {collections : List String}, "memory_observations" ∉ collections →
      Touches collections db db' → KeepsInbox db db' := by
    intro collections hnot htouches
    exact KeepsInbox.of_same fun id => htouches.other _ hnot
  cases write with
  | savePlan plan =>
    have hput : Touches ["memory_curator_plans"] db db' :=
      Touches.put (List.mem_singleton_self _) (fromStorage_ok h)
    exact hother (by decide) hput
  | memory w =>
    obtain rfl : w.apply db = db' := Except.ok.inj h
    have hnot : "memory_observations" ∉ memoryCollections := by decide
    refine hother hnot ?_
    unfold MemoryWrite.apply
    split
    · exact Touches.erase w.owned
    · rename_i p hp
      exact Touches.set w.owned (w.finite p hp)
  | markProcessed observation_id => exact markProcessed_keeps h
  | completePlan observation_id =>
    obtain rfl : completePlan db observation_id = db' := Except.ok.inj h
    have herase : Touches ["memory_curator_plans"] db (completePlan db observation_id) :=
      Touches.erase (List.mem_singleton_self _)
    exact hother (by decide) herase

theorem performWrites_keeps : ∀ (writes : List CuratorWrite) (db : Records),
    KeepsInbox db (performWrites writes db).1
  | [], _ => KeepsInbox.of_same fun _ => rfl
  | write :: rest, db => by
    rw [performWrites]
    split
    · exact KeepsInbox.of_same fun _ => rfl
    · rename_i db₁ happly
      exact (apply_keeps happly).trans (performWrites_keeps rest db₁)

/-- **A run keeps the inbox** but for the status of observations, however it ends. -/
theorem runOnce_keeps (casefold : String → String) (min_quality_chars : Nat) (db : Records)
    (run : CuratorRun) : KeepsInbox db (runOnce casefold min_quality_chars db run).1 := by
  unfold runOnce
  split
  · exact KeepsInbox.of_same fun _ => rfl
  · split
    · exact KeepsInbox.of_same fun _ => rfl
    · split
      · exact KeepsInbox.of_same fun _ => rfl
      · exact performWrites_keeps _ _

end NuSelf.Memory
