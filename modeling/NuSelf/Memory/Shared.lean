/-
  What an accepted candidate gives its target, as an entry and as a profile item.

  The two kinds of target have their fields in common, and two pairs of hand-written functions set
  them: `to_entry` and `from_candidate` for a new target, `_merge_target` and the `merge` of the
  profile for an existing one.  `SharedFields` is what a reader compares.

  1. `createCommit_shared`, `mergeCommit_shared` — what a call that goes through gives its target.
     An entry takes the importance of the candidate, an item always the default one; every other
     shared field is set alike.
  2. `paths_agree_iff` — so the two paths agree exactly on candidates of the default importance.
-/
import NuSelf.Memory.Candidates

namespace NuSelf.Memory

open NuSelf.Lib

/-- The fields that an entry and a profile item have in common, and that a candidate sets. -/
structure SharedFields where
  title : String
  body : String
  confidence : BitVec 64
  importance : BitVec 64
  tags : List String
  source_refs : List String
  privacy : PrivacyLevel
  deriving DecidableEq

def MemoryEntry.shared (entry : MemoryEntry) : SharedFields :=
  ⟨entry.title, entry.body, entry.confidence, entry.importance, entry.tags, entry.source_refs,
    entry.privacy⟩

def ProfileItem.shared (item : ProfileItem) : SharedFields :=
  ⟨item.title, item.body, item.confidence, item.importance, item.tags, item.source_refs,
    item.privacy⟩

def ReviewTarget.shared : ReviewTarget → SharedFields
  | .entry e => e.shared
  | .profileItem item => item.shared

/-- The same candidate under another type. -/
def MemoryCandidate.ofType (c : MemoryCandidate) (type : String) : MemoryCandidate :=
  { c with type := type }

/-- The importance that a target of a candidate gets: the candidate's own on the path of the
    entries, the default one on the path of the profile. -/
def targetImportance (c : MemoryCandidate) : BitVec 64 :=
  if c.type = "profile_fact" then defaultImportance else c.importance

/-- What a new target gets. -/
def createdFields (c : MemoryCandidate) : SharedFields :=
  ⟨c.title, c.body, c.confidence, targetImportance c, c.tags, c.source_refs, c.privacy⟩

/-- What an existing target gets. -/
def mergedFields (c : MemoryCandidate) (existing : SharedFields) : SharedFields :=
  ⟨c.title, c.body, c.confidence, targetImportance c,
    if c.tags = [] then existing.tags else c.tags, existing.source_refs ++ c.source_refs,
    existing.privacy⟩

/-! ## Saving and promoting keep the shared fields -/

theorem admitted_shared {entry saved : MemoryEntry} {now : String}
    (h : entry.admitted now = .ok saved) : saved.shared = entry.shared := by
  unfold MemoryEntry.admitted at h
  split at h
  · cases h
    rfl
  split at h
  · cases h
  · cases h
    rfl

theorem target_admitted_shared {target saved : ReviewTarget} {now : String}
    (h : target.admitted now = .ok saved) : saved.shared = target.shared := by
  cases target with
  | profileItem item =>
    cases h
    rfl
  | entry entry =>
    obtain ⟨admitted, hadmitted, h⟩ := bind_ok h
    cases h
    exact admitted_shared hadmitted

theorem promoteTarget_shared {target : ReviewTarget} {state : TargetReviewState} {now : String}
    {commit : Commit} (h : promoteTarget target state now = .ok commit) :
    commit.target.shared = target.shared := by
  unfold promoteTarget at h
  cases target with
  | profileItem item =>
    cases h
    rfl
  | entry entry =>
    simp only at h
    split at h
    · cases h
      rfl
    · obtain ⟨promoted, hpromoted, h⟩ := bind_ok h
      cases h
      have hshared := admitted_shared hpromoted
      exact hshared

/-! ## What a call gives its target -/

variable {uuid5 : String → String} {t : MemoryTables} {c : MemoryCandidate} {target_id : String}
  {state : TargetReviewState} {r : Readings} {commit : Commit} {target : ReviewTarget}

theorem newTarget_shared (h : newTarget uuid5 c r = .ok target) : target.shared = createdFields c := by
  unfold newTarget at h
  rw [createdFields, targetImportance]
  split at h
  · rename_i htype
    cases h
    rw [if_pos htype]
    rfl
  · rename_i htype
    obtain ⟨entry, hentry, h⟩ := bind_ok h
    cases h
    rw [if_neg htype]
    unfold MemoryCandidate.toEntry at hentry
    split at hentry
    · cases hentry
    · cases hentry
      rfl

/-- **A new target** has the fields of the candidate. -/
theorem createCommit_shared (h : createCommit uuid5 c state r = .ok commit) :
    commit.target.shared = createdFields c := by
  obtain ⟨target, htarget, h⟩ := bind_ok h
  obtain ⟨saved, hsaved, h⟩ := bind_ok h
  obtain ⟨promoted, hpromoted, h⟩ := bind_ok h
  cases h
  calc promoted.target.shared
      _ = saved.shared := promoteTarget_shared hpromoted
      _ = target.shared := target_admitted_shared hsaved
      _ = createdFields c := newTarget_shared htarget

theorem mergedTarget_shared {now : String} (h : mergedTarget t c target_id now = .ok target) :
    ∃ existing, getTarget t c target_id = .ok existing ∧
      target.shared = mergedFields c existing.shared := by
  obtain ⟨existing, hexisting, h⟩ := bind_ok h
  refine ⟨existing, hexisting, ?_⟩
  rw [mergedFields, targetImportance]
  unfold getTarget at hexisting
  split at hexisting
  · rename_i htype
    obtain ⟨item, -, hitem⟩ := bind_ok hexisting
    cases hitem
    cases h
    rw [if_pos htype]
    rfl
  · rename_i htype
    obtain ⟨entry, -, hentry⟩ := bind_ok hexisting
    cases hentry
    cases h
    rw [if_neg htype]
    rfl

/-- **An existing target** keeps its privacy, its tags when the candidate has none, and its
    sources. -/
theorem mergeCommit_shared (h : mergeCommit t c target_id state r = .ok commit) :
    ∃ existing, getTarget t c target_id = .ok existing ∧
      commit.target.shared = mergedFields c existing.shared := by
  obtain ⟨merged, hmerged, h⟩ := bind_ok h
  obtain ⟨saved, -, h⟩ := bind_ok h
  obtain ⟨promoted, hpromoted, h⟩ := bind_ok h
  cases h
  obtain ⟨existing, hexisting, hshared⟩ := mergedTarget_shared hmerged
  exact ⟨existing, hexisting, (promoteTarget_shared hpromoted).trans hshared⟩

/-! ## The two paths -/

/-- Accepting or merging the candidate as an entry, of whatever type, and as a profile item gives
    the target the same shared fields; the existing targets of a merge have the same ones. -/
structure PathsAgree (uuid5 : String → String) (c : MemoryCandidate) : Prop where
  accepted : ∀ type ≠ "profile_fact", ∀ state r entry item,
    createCommit uuid5 (c.ofType type) state r = .ok entry →
    createCommit uuid5 (c.ofType "profile_fact") state r = .ok item →
    entry.target.shared = item.target.shared
  merged : ∀ type ≠ "profile_fact", ∀ t target_id existing existing' state r entry item,
    getTarget t (c.ofType type) target_id = .ok existing →
    getTarget t (c.ofType "profile_fact") target_id = .ok existing' →
    existing.shared = existing'.shared →
    mergeCommit t (c.ofType type) target_id state r = .ok entry →
    mergeCommit t (c.ofType "profile_fact") target_id state r = .ok item →
    entry.target.shared = item.target.shared

/-- An entry of a type that no descriptor knows, and a profile item with the same fields. -/
def plainEntry : MemoryEntry where
  type := "note"
  title := "Tea"
  body := "Green"
  tags := []
  source_refs := []
  confidence := 0
  importance := 0
  privacy := .private
  review_state := .draft
  id := "t"
  created_at := ""
  updated_at := ""
  observed_at := none
  valid_from := none
  valid_until := none
  temporal_note := ""
  relations := Table.empty
  evidence := []

def plainItem : ProfileItem where
  type := "profile_fact"
  title := "Tea"
  body := "Green"
  tags := []
  source_refs := []
  confidence := 0
  importance := 0
  privacy := .private
  id := "t"
  created_at := ""
  updated_at := ""
  observed_at := none
  valid_from := none
  valid_until := none
  temporal_note := ""
  relations := Table.empty
  evidence := []

/-- A target of each kind under one id. -/
def twoTargets : MemoryTables where
  candidates := .empty
  entries := Shelf.empty.put plainEntry (by decide)
  profile := Shelf.empty.put plainItem (by decide)

/-- **The two paths agree exactly on the default importance.** -/
theorem paths_agree_iff (uuid5 : String → String) (c : MemoryCandidate) :
    PathsAgree uuid5 c ↔ c.importance = defaultImportance := by
  constructor
  · intro h
    have hentry := h.merged "note" (by decide) twoTargets "t" (.entry plainEntry)
      (.profileItem plainItem) .draft ⟨"", ""⟩ _ _ rfl rfl rfl rfl rfl
    exact congrArg SharedFields.importance hentry
  · intro h
    have himportance : ∀ type, targetImportance (c.ofType type) = defaultImportance := by
      intro type
      unfold targetImportance
      split
      · rfl
      · exact h
    constructor
    · intro type _ state r entry item hentry hitem
      rw [createCommit_shared hentry, createCommit_shared hitem, createdFields, createdFields,
        himportance, himportance]
      rfl
    · intro type _ t target_id existing existing' state r entry item hexisting hexisting' hsame
        hentry hitem
      obtain ⟨target, htarget, hshared⟩ := mergeCommit_shared hentry
      obtain ⟨target', htarget', hshared'⟩ := mergeCommit_shared hitem
      rw [hexisting, Except.ok.injEq] at htarget
      rw [hexisting', Except.ok.injEq] at htarget'
      subst htarget htarget'
      rw [hshared, hshared', mergedFields, mergedFields, himportance, himportance, hsame]
      rfl

/-- A candidate of importance 0.9. -/
def birthday : MemoryCandidate where
  type := "profile_fact"
  title := "Birthday"
  body := "Born in May."
  confidence := 0x3fe6666666666666#64
  importance := 0x3feccccccccccccd#64
  id := "cand_1"
  created_at := "2026-01-01T00:00:00+00:00"
  updated_at := "2026-01-01T00:00:00+00:00"

/-- **The importance is lost** on the path of the profile: 0.9 becomes 0.5. -/
theorem birthday_importance_lost : ¬ PathsAgree id birthday ∧
    (createCommit id birthday .reviewed ⟨"1", "now"⟩).toOption.map
        (fun commit => commit.target.shared.importance) = some 0x3fe0000000000000#64 ∧
    (createCommit id (birthday.ofType "preference") .reviewed ⟨"1", "now"⟩).toOption.map
        (fun commit => commit.target.shared.importance) = some 0x3feccccccccccccd#64 := by
  refine ⟨fun h => ?_, by decide +kernel, by decide +kernel⟩
  have hmerged := h.merged "note" (by decide) twoTargets "t" (.entry plainEntry)
    (.profileItem plainItem) .draft ⟨"", ""⟩ _ _ rfl rfl rfl rfl rfl
  exact absurd (congrArg SharedFields.importance hmerged) (by decide)

end NuSelf.Memory
