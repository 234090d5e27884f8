/-
  Reflection ideas: the candidates of a generator, their scores, and the entries they become.

  An entry is pending until the user dismisses or archives it; `withStatus` is how its status is
  rewritten, and every other field stays.  The collection is a shelf of entries under their own
  ids, so a row that the decoder refuses is not modelled.
-/
import Mathlib.Data.List.Sort
import NuSelf.Lib.Double
import NuSelf.Lib.Shelf
import NuSelf.Lib.Text

namespace NuSelf.Reflection

open NuSelf.Lib

inductive IdeaCandidateType where
  | contradiction | connection | question | action | profile_update | share_bundle
  deriving DecidableEq

structure IdeaCandidate where
  id : String
  title : String
  body : String
  candidate_type : IdeaCandidateType
  confidence : Double
  novelty : Double
  urgency : Double
  interruption_cost : Double
  evidence_refs : List String
  source_summary : String
  created_at : String
  deriving DecidableEq

structure RelevanceScore where
  passes : Bool
  novelty : Double
  confidence : Double
  urgency : Double
  interruption_cost : Double
  cooldown_ok : Bool
  composite : Double
  reasons : List String
  deriving DecidableEq

/-! ## Entries -/

inductive ReflectionStatus where
  | pending | dismissed | archived
  deriving DecidableEq

structure ReflectionEntry where
  id : String
  title : String
  body : String
  candidate_type : IdeaCandidateType
  confidence : Double
  novelty : Double
  urgency : Double
  interruption_cost : Double
  composite_score : Double
  status : ReflectionStatus
  discussion_approved : Option Bool
  discussion_trace : List String
  deep_link : String
  created_at : String
  reviewed_at : Option String
  deriving DecidableEq

namespace ReflectionEntry

/-- `with_status`; `now` is the reading of the clock. -/
def withStatus (entry : ReflectionEntry) (status : ReflectionStatus) (now : String) :
    ReflectionEntry :=
  { entry with status, reviewed_at := if status ≠ .pending then some now else none }

/-- What JSON can hold. -/
def finite (entry : ReflectionEntry) : Bool :=
  entry.confidence.isFinite && entry.novelty.isFinite && entry.urgency.isFinite &&
    entry.interruption_cost.isFinite && entry.composite_score.isFinite

@[simp] theorem withStatus_finite (entry : ReflectionEntry) (status : ReflectionStatus)
    (now : String) : (entry.withStatus status now).finite = entry.finite := rfl

end ReflectionEntry

/-! ## The repository -/

abbrev ReflectionEntries := Shelf ReflectionEntry.id ReflectionEntry.finite

namespace ReflectionEntries

/-- `ReflectionRepository.save`; `none` where a number is not finite and the encoding raises. -/
def save (entries : ReflectionEntries) (entry : ReflectionEntry) : Option ReflectionEntries :=
  if h : entry.finite = true then some (entries.put entry h) else none

/-- `ReflectionRepository.list`: the newest first, row order where the times are equal. -/
def list (entries : ReflectionEntries) (status : Option ReflectionStatus) : List ReflectionEntry :=
  (entries.records.filter fun entry => decide (status = none ∨ status = some entry.status))
    |>.insertionSort fun a b => b.created_at ≤ a.created_at

/-- **What is listed is stored**, with the status asked for. -/
theorem mem_list_iff {entries : ReflectionEntries} {status : Option ReflectionStatus}
    {entry : ReflectionEntry} : entry ∈ entries.list status ↔
      entries.get entry.id = some entry ∧ (status = none ∨ status = some entry.status) := by
  rw [list, List.mem_insertionSort, List.mem_filter, Shelf.mem_records_iff, decide_eq_true_eq]

end ReflectionEntries
end NuSelf.Reflection
