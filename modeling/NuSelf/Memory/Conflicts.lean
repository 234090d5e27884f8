/-
  The entry that a conflicting create action is merged into.

  The curator compares the action with the newest entries, one after the other, and merges it into
  the first that conflicts.  Whether two memories conflict is decided by the descriptor of the
  entry alone: it compares the titles, and nothing compares the types.

  1. `createOutcome_merged_iff` — which entry an action is merged into;
  2. `merges_within_type_iff` — it has the type of the action exactly when no entry of another type
     is the first to conflict.
-/
import NuSelf.Memory.Payloads

namespace NuSelf.Memory

open NuSelf.Lib

section

variable {lower : String → String} {settings : StagingSettings} {t : PayloadTables}
  {action : MemoryAction} {source : ActionSource} {r : ActionReadings} {existing : PayloadEntry}

/-- **An action is merged into the first entry that conflicts**, unless its candidate is there
    already or the tags of the entry cannot be read. -/
theorem createOutcome_merged_iff :
    (∃ c, createOutcome lower settings t action source r = .ok (.merged existing c)) ↔
      t.tables.candidates.get source.candidate_id = none ∧
        (∃ tags, registryMergeTags existing (action.incoming r) = .ok tags) ∧
        (knownEntries settings t).find? (fun e => registryConflicts lower e (action.incoming r)) =
          some existing := by
  unfold createOutcome
  cases t.tables.candidates.get source.candidate_id with
  | some staged =>
    constructor
    · rintro ⟨c, h⟩
      cases h
    · rintro ⟨h, -⟩
      cases h
  | none =>
    dsimp only
    cases (knownEntries settings t).find? fun e =>
        registryConflicts lower e (action.incoming r) with
    | none =>
      constructor
      · rintro ⟨c, h⟩
        cases h
      · rintro ⟨-, -, h⟩
        cases h
    | some first =>
      constructor
      · rintro ⟨c, h⟩
        obtain ⟨tags, htags, h⟩ := bind_ok h
        cases h
        exact ⟨rfl, ⟨tags, htags⟩, rfl⟩
      · rintro ⟨-, ⟨tags, htags⟩, h⟩
        cases h
        dsimp only
        rw [htags]
        exact ⟨_, rfl⟩

end

/-- **A create action is merged into an entry of its type exactly when no entry of another type is
    the first to conflict with it**: each one that does stands behind another. -/
theorem merges_within_type_iff (lower : String → String) (settings : StagingSettings)
    (t : PayloadTables) (action : MemoryAction) (source : ActionSource) (r : ActionReadings) :
    (∀ existing c, createOutcome lower settings t action source r = .ok (.merged existing c) →
      existing.type = action.type) ↔
    (t.tables.candidates.get source.candidate_id = none →
      ∀ before existing after, knownEntries settings t = before ++ existing :: after →
        existing.type ≠ action.type →
        registryConflicts lower existing (action.incoming r) = true →
        (∃ tags, registryMergeTags existing (action.incoming r) = .ok tags) →
        ∃ earlier ∈ before, registryConflicts lower earlier (action.incoming r) = true) := by
  constructor
  · intro h hfree before existing after hknown htype hconflicts htags
    by_contra hnone
    have hfirst : (knownEntries settings t).find?
        (fun e => registryConflicts lower e (action.incoming r)) = some existing := by
      refine List.find?_eq_some_iff_append.mpr ⟨hconflicts, before, after, hknown, ?_⟩
      intro earlier hearlier
      cases hc : registryConflicts lower earlier (action.incoming r) with
      | true => exact absurd ⟨earlier, hearlier, hc⟩ hnone
      | false => rfl
    obtain ⟨c, hmerged⟩ := createOutcome_merged_iff.mpr ⟨hfree, htags, hfirst⟩
    exact htype (h existing c hmerged)
  · intro h existing c hmerged
    obtain ⟨hfree, htags, hfirst⟩ := createOutcome_merged_iff.mp ⟨c, hmerged⟩
    obtain ⟨hconflicts, before, after, hknown, hbefore⟩ :=
      List.find?_eq_some_iff_append.mp hfirst
    by_contra htype
    obtain ⟨earlier, hearlier, hc⟩ :=
      h hfree before existing after hknown htype hconflicts htags
    have hnot := hbefore earlier hearlier
    rw [hc] at hnot
    cases hnot

/-! ### A goal and an episode of one title -/

/-- A goal as it is stored. -/
def storedGoal (title : String) (importance : BitVec 64) : MemoryEntry where
  type := "goal"
  title := title
  body := "Drink more of it."
  tags := ["drinks"]
  source_refs := ["interaction:1"]
  confidence := defaultConfidence
  importance := importance
  privacy := .private
  review_state := .reviewed
  id := "mem_goal"
  created_at := "2026-01-01"
  updated_at := "2026-01-01"
  observed_at := some "2026-01-01"
  valid_from := none
  valid_until := none
  temporal_note := ""
  relations := Table.empty
  evidence := []

def goalTables : PayloadTables where
  tables := { MemoryTables.empty with
    entries := Shelf.empty.put (storedGoal "Tea" defaultImportance) (by decide) }
  payloads := Table.empty

/-- An episode of the same title. -/
def teaEpisode : MemoryAction where
  action := .create
  title := "tea "
  body := "Had tea in the garden."
  type := "episode"
  tags := ["garden"]
  entry_id := none
  confidence := defaultConfidence
  reason := "stated"

/-- The episode becomes an update of the goal. -/
theorem episode_merged_into_goal :
    ¬ ∀ (lower : String → String) (settings : StagingSettings) (t : PayloadTables)
      (action : MemoryAction) (source : ActionSource) (r : ActionReadings),
      ∀ existing c, createOutcome lower settings t action source r = .ok (.merged existing c) →
        existing.type = action.type := by
  intro h
  let lower : String → String := fun s => if s = "Tea" then "tea" else s
  let r : ActionReadings := ⟨"fresh", ⟨"fresh", "2026-01-03"⟩⟩
  let existing := PayloadEntry.of (storedGoal "Tea" defaultImportance) noPayload
  have hfirst : (knownEntries {} goalTables).find?
      (fun e => registryConflicts lower e (teaEpisode.incoming r)) = some existing := by
    have hknown : knownEntries {} goalTables = [existing] := rfl
    have hconflicts : registryConflicts lower existing (teaEpisode.incoming r) = true := by
      decide +kernel
    rw [hknown]
    exact List.find?_cons_of_pos hconflicts
  obtain ⟨c, hmerged⟩ := createOutcome_merged_iff.mpr ⟨rfl, ⟨_, rfl⟩, hfirst⟩
  have htype := h lower {} goalTables teaEpisode ⟨"interaction:2", "2026-01-03", "cand_1"⟩ r
    existing c hmerged
  revert htype
  decide

end NuSelf.Memory
