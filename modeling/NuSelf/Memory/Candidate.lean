/-
  The records of memory review: candidates, and the entries and profile items they become.

  A candidate is a proposed change that waits for review.  An accepted one becomes a memory entry
  or, if it states a fact of the profile, a profile item; it may also be merged into an existing
  target, or remove one.  The conversions are here, with the check that the registry of memory
  types makes before an entry is saved.

  A float is its 64 bits, every reading of the clock within one call is the same text, and `uuid4`
  values are inputs.  The extra payload of an entry is left out: no conversion here sets or reads
  it, so every entry that is checked here has an empty one.
-/
import NuSelf.Lib.Shelf
import NuSelf.Memory.Contract

namespace NuSelf.Memory

open NuSelf.Lib

/-! ## Enumerations -/

/-- `ReviewState`, of an entry. -/
inductive ReviewState where
  | draft | reviewed | rejected | quarantined | archived
  deriving DecidableEq, Repr

inductive PrivacyLevel where
  | «private» | shareable
  deriving DecidableEq, Repr

inductive MemoryCandidateAction where
  | create | update | merge | delete
  deriving DecidableEq, Repr

def MemoryCandidateAction.text : MemoryCandidateAction → String
  | .create => "create"
  | .update => "update"
  | .merge => "merge"
  | .delete => "delete"

inductive MemoryCandidateReviewState where
  | pending | accepted | rejected
  deriving DecidableEq, Repr

def MemoryCandidateReviewState.text : MemoryCandidateReviewState → String
  | .pending => "pending"
  | .accepted => "accepted"
  | .rejected => "rejected"

inductive MemoryEvidenceSourceType where
  | observation | manual | source | optimizer
  deriving DecidableEq, Repr

/-! ## Records -/

structure MemoryEvidence where
  source_type : MemoryEvidenceSourceType
  source_ref : String
  summary : String := ""
  observed_at : Option String := none
  quote : String := ""
  created_at : String
  deriving DecidableEq

/-- The targets of each named relation. -/
abbrev Relations := Table String (List String)

def isFinite (bits : BitVec 64) : Bool := Json.finiteLeaf (.float bits)

structure MemoryEntry where
  type : String
  title : String
  body : String
  tags : List String
  source_refs : List String
  confidence : BitVec 64
  importance : BitVec 64
  privacy : PrivacyLevel
  review_state : ReviewState
  id : String
  created_at : String
  updated_at : String
  revisit_at : Option String := none
  observed_at : Option String
  valid_from : Option String
  valid_until : Option String
  temporal_note : String
  relations : Relations
  evidence : List MemoryEvidence
  deriving DecidableEq

structure ProfileItem where
  type : String
  title : String
  body : String
  tags : List String
  source_refs : List String
  confidence : BitVec 64
  importance : BitVec 64
  privacy : PrivacyLevel
  id : String
  created_at : String
  updated_at : String
  observed_at : Option String
  valid_from : Option String
  valid_until : Option String
  temporal_note : String
  relations : Relations
  evidence : List MemoryEvidence
  deriving DecidableEq

/-- 0.5 -/
def defaultImportance : BitVec 64 := 0x3fe0000000000000#64

structure MemoryCandidate where
  type : String
  title : String
  body : String
  action : MemoryCandidateAction := .create
  tags : List String := []
  source_refs : List String := []
  confidence : BitVec 64
  importance : BitVec 64 := defaultImportance
  privacy : PrivacyLevel := .private
  review_state : MemoryCandidateReviewState := .pending
  reason : String := ""
  id : String
  created_at : String
  updated_at : String
  reviewed_at : Option String := none
  target_entry_id : Option String := none
  observed_at : Option String := none
  valid_from : Option String := none
  valid_until : Option String := none
  temporal_note : String := ""
  relations : Relations := Table.empty
  evidence : List MemoryEvidence := []
  deriving DecidableEq

/-- The numbers of a stored record are numbers JSON can hold. -/
def MemoryEntry.finite (entry : MemoryEntry) : Bool :=
  isFinite entry.confidence && isFinite entry.importance

def ProfileItem.finite (item : ProfileItem) : Bool :=
  isFinite item.confidence && isFinite item.importance

def MemoryCandidate.finite (c : MemoryCandidate) : Bool :=
  isFinite c.confidence && isFinite c.importance

/-! ## The check of an entry -/

structure MemoryValidationIssue where
  field : String
  message : String
  deriving DecidableEq

/-- What an operation of the memory repositories raises. -/
inductive ReviewError where
  | candidateNotFound (candidate_id : String)
  | entryNotFound (entry_id : String)
  | profileItemNotFound (item_id : String)
  | alreadyReviewed (state : MemoryCandidateReviewState) (candidate_id : String)
  | targetRequired (action : MemoryCandidateAction) (candidate_id : String)
  | deleteToEntry
  | invalid (memory_type : String) (issues : List MemoryValidationIssue)
  /-- A number that JSON cannot hold. -/
  | notFinite
  | sourceMismatch (candidate_id : String)
  deriving DecidableEq

def ReviewError.text : ReviewError → String
  | .candidateNotFound id => id
  | .entryNotFound id => id
  | .profileItemNotFound id => id
  | .alreadyReviewed state id => "candidate is already " ++ state.text ++ ": " ++ id
  | .targetRequired action id => action.text ++ " candidate requires target_entry_id: " ++ id
  | .deleteToEntry => "delete candidates cannot be converted to memory entries"
  | .invalid type issues =>
    "invalid " ++ type ++ " memory: " ++
      "; ".intercalate (issues.map fun issue => issue.field ++ ": " ++ issue.message)
  | .notFinite => "Out of range float values are not JSON compliant"
  | .sourceMismatch id => "curator plan candidate source identity mismatch: " ++ id

/-- `registry.get(memory_type) is not None`, with the built-in descriptors. -/
def registered (memory_type : String) : Bool := memoryTypes.contains memory_type

/-- `confidence < 0.0 or confidence > 1.0`; no comparison holds of a non-number. -/
def outsideUnit (bits : BitVec 64) : Bool :=
  !unitInterval bits && (isFinite bits || bits.extractLsb' 0 52 == 0#52)

def issueIf (broken : Bool) (field message : String) : List MemoryValidationIssue :=
  if broken = true then [⟨field, message⟩] else []

/-- `registry.validate(entry.to_memory_object())`: the issues it raises. -/
def MemoryEntry.issues (entry : MemoryEntry) : List MemoryValidationIssue :=
  if registered entry.type = false then
    issueIf (decide (entry.review_state ≠ .draft)) "type"
      "unknown types must remain draft until a descriptor is available"
  else
    (if entry.type = "persona_instruction" then
      -- both stand in the payload, and an entry that is saved here has none
      [⟨"payload.persona_id", "must be a non-empty string"⟩,
        ⟨"payload.description", "must be a non-empty string"⟩]
    else
      issueIf (blank entry.title) "payload.title" "must be a non-empty string" ++
        issueIf (blank entry.body) "payload.body" "must be a non-empty string") ++
      issueIf (outsideUnit entry.confidence) "confidence" "must be between 0 and 1"

/-- What `MemoryEntryRepository.save` writes and returns. -/
def MemoryEntry.admitted (entry : MemoryEntry) (now : String) : Except ReviewError MemoryEntry :=
  if registered entry.type = false ∧ entry.review_state = .draft then
    .ok { entry with review_state := .quarantined, updated_at := now }
  else if entry.issues ≠ [] then .error (.invalid entry.type entry.issues)
  else .ok entry

/-! ## Changes of a candidate -/

/-- The fields that `edit` may change. -/
structure CandidateChanges where
  title : Option String := none
  body : Option String := none
  tags : Option (List String) := none
  importance : Option (BitVec 64) := none
  observed_at : Option String := none
  valid_from : Option String := none
  valid_until : Option String := none
  temporal_note : Option String := none
  deriving DecidableEq

namespace MemoryCandidate

def withUpdates (c : MemoryCandidate) (changes : CandidateChanges)
    (review_state : Option MemoryCandidateReviewState) (target_entry_id : Option String)
    (now : String) : MemoryCandidate :=
  { c with
    title := changes.title.getD c.title
    body := changes.body.getD c.body
    tags := changes.tags.getD c.tags
    importance := changes.importance.getD c.importance
    review_state := review_state.getD c.review_state
    updated_at := now
    reviewed_at :=
      if review_state = some .accepted ∨ review_state = some .rejected then some now
      else c.reviewed_at
    target_entry_id := target_entry_id.or c.target_entry_id
    observed_at := changes.observed_at.or c.observed_at
    valid_from := changes.valid_from.or c.valid_from
    valid_until := changes.valid_until.or c.valid_until
    temporal_note := changes.temporal_note.getD c.temporal_note }

/-- `with_updates(review_state="accepted", target_entry_id=...)`. -/
def accepted (c : MemoryCandidate) (target_entry_id now : String) : MemoryCandidate :=
  c.withUpdates {} (some .accepted) (some target_entry_id) now

def rejected (c : MemoryCandidate) (now : String) : MemoryCandidate :=
  c.withUpdates {} (some .rejected) none now

def edited (c : MemoryCandidate) (changes : CandidateChanges) (now : String) : MemoryCandidate :=
  c.withUpdates changes none none now

@[simp]
theorem accepted_id (c : MemoryCandidate) (target_entry_id now : String) :
    (c.accepted target_entry_id now).id = c.id := rfl

@[simp]
theorem accepted_review_state (c : MemoryCandidate) (target_entry_id now : String) :
    (c.accepted target_entry_id now).review_state = .accepted := rfl

theorem rejected_finite (c : MemoryCandidate) (now : String) :
    (c.rejected now).finite = c.finite := rfl

/-! ## Targets -/

/-- `to_entry()`; `fresh` is the `uuid4().hex` of the new entry. -/
def toEntry (c : MemoryCandidate) (fresh now : String) : Except ReviewError MemoryEntry :=
  if c.action = .delete then .error .deleteToEntry
  else
    .ok { type := c.type, title := c.title, body := c.body, tags := c.tags,
          source_refs := c.source_refs, confidence := c.confidence, importance := c.importance,
          privacy := c.privacy, review_state := .draft, id := "mem_" ++ fresh, created_at := now,
          updated_at := now, observed_at := c.observed_at, valid_from := c.valid_from,
          valid_until := c.valid_until, temporal_note := c.temporal_note,
          relations := c.relations, evidence := c.evidence }

end MemoryCandidate

/-- `new_profile_item_id(source_ref)`. -/
def newProfileItemId (uuid5 : String → String) (source_ref : Option String) (now : String) :
    String :=
  "profile_" ++ uuid5 (source_ref.getD now)

/-- `ProfileItem.from_candidate`.  The importance of the candidate is not carried over. -/
def ProfileItem.fromCandidate (uuid5 : String → String) (c : MemoryCandidate) (now : String) :
    ProfileItem where
  type := c.type
  title := c.title
  body := c.body
  tags := c.tags
  source_refs := c.source_refs
  confidence := c.confidence
  importance := defaultImportance
  privacy := c.privacy
  id := newProfileItemId uuid5 c.source_refs.head? now
  created_at := now
  updated_at := now
  observed_at := c.observed_at
  valid_from := c.valid_from
  valid_until := c.valid_until
  temporal_note := c.temporal_note
  relations := c.relations
  evidence := c.evidence

theorem ProfileItem.fromCandidate_finite {uuid5 : String → String} {c : MemoryCandidate}
    {now : String} (h : c.finite = true) :
    (ProfileItem.fromCandidate uuid5 c now).finite = true := by
  have hconfidence : isFinite c.confidence = true := (Bool.and_eq_true_iff.mp h).1
  show (isFinite c.confidence && isFinite defaultImportance) = true
  rw [hconfidence]
  decide

/-! ## Merging -/

/-- `a or b` on optional texts: an empty one counts as missing. -/
def orText (a b : Option String) : Option String :=
  match a with
  | none | some "" => b
  | some text => some text

/-- `merge_relations`: the targets of both, each relation without new repetitions. -/
def mergeRelations (base other : Relations) : Relations :=
  other.rows.foldl (fun merged row =>
    row.2.foldl (fun merged value =>
      let targets := (merged.get row.1).getD []
      if value ∈ targets then merged else merged.set row.1 (targets ++ [value])) merged) base

/-- The merged entry of `_merge_target`, as a draft. -/
def MemoryEntry.merged (existing : MemoryEntry) (c : MemoryCandidate) (now : String) :
    MemoryEntry where
  type := existing.type
  title := c.title
  body := c.body
  tags := if c.tags = [] then existing.tags else c.tags
  source_refs := existing.source_refs ++ c.source_refs
  confidence := c.confidence
  importance := c.importance
  privacy := existing.privacy
  review_state := .draft
  id := existing.id
  created_at := existing.created_at
  updated_at := now
  revisit_at := existing.revisit_at
  observed_at := orText c.observed_at existing.observed_at
  valid_from := orText c.valid_from existing.valid_from
  valid_until := orText c.valid_until existing.valid_until
  temporal_note := if c.temporal_note = "" then existing.temporal_note else c.temporal_note
  relations := mergeRelations existing.relations c.relations
  evidence := existing.evidence ++ c.evidence

/-- The merged item of `ProfileItemRepository.merge`. -/
def ProfileItem.merged (existing : ProfileItem) (c : MemoryCandidate) (now : String) :
    ProfileItem where
  type := existing.type
  title := c.title
  body := c.body
  tags := if c.tags = [] then existing.tags else c.tags
  source_refs := existing.source_refs ++ c.source_refs
  confidence := c.confidence
  importance := defaultImportance
  privacy := existing.privacy
  id := existing.id
  created_at := existing.created_at
  updated_at := now
  observed_at := orText c.observed_at existing.observed_at
  valid_from := orText c.valid_from existing.valid_from
  valid_until := orText c.valid_until existing.valid_until
  temporal_note := if c.temporal_note = "" then existing.temporal_note else c.temporal_note
  relations := mergeRelations existing.relations c.relations
  evidence := existing.evidence ++ c.evidence

end NuSelf.Memory
