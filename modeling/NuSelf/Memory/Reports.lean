/-
  What `accept` and `merge` return, against what they store.

  Saving may change what it is given: an entry of an unknown type that is a draft is stored as
  quarantined.  A new target that is accepted is returned as saving left it; a merged target is
  returned as it was made.

  1. `performAll_saved` — what a transaction leaves under the id of the target it saved last;
  2. `transact_create`, `transact_merge`, `transact_delete` — what is stored for each route;
  3. `reports_stored_iff` — a call reports what it has stored exactly when it does not merge into
     an entry of an unknown type.
-/
import NuSelf.Memory.Candidates

namespace NuSelf.Memory

open NuSelf.Lib

/-! ## Calls -/

/-- A call of `accept` or of `merge`. -/
inductive ReviewRequest where
  | accept (candidate_id : String)
  | merge (candidate_id target_id : String)

namespace ReviewRequest

def candidate_id : ReviewRequest → String
  | .accept candidate_id => candidate_id
  | .merge candidate_id _ => candidate_id

def perform (uuid5 : String → String) (call : ReviewRequest) (t : MemoryTables)
    (target_review_state : TargetReviewState) (r : Readings) :
    Except ReviewError (MemoryTables × ReviewTarget) :=
  match call with
  | .accept candidate_id => NuSelf.Memory.accept uuid5 t candidate_id target_review_state r
  | .merge candidate_id target_id =>
    NuSelf.Memory.merge uuid5 t candidate_id target_id target_review_state r

/-- Where the call goes with its candidate. -/
def route (call : ReviewRequest) (c : MemoryCandidate) : Except ReviewError ReviewRoute :=
  match call with
  | .accept _ => reviewRoute c
  | .merge _ target_id => .ok (.merge target_id)

/-- The route of the call in these tables. -/
def Takes (call : ReviewRequest) (t : MemoryTables) (route : ReviewRoute) : Prop :=
  ∃ c, t.candidates.get call.candidate_id = some c ∧ call.route c = .ok route

/-- The call merges into an entry of an unknown type. -/
def IntoUnknown (call : ReviewRequest) (t : MemoryTables) : Prop :=
  ∃ c target_id existing, t.candidates.get call.candidate_id = some c ∧
    call.route c = .ok (.merge target_id) ∧ c.type ≠ "profile_fact" ∧
    t.entries.get target_id = some existing ∧ registered existing.type = false

end ReviewRequest

/-! ## Reports -/

/-- The record that is stored under the id of the target. -/
def MemoryTables.recordOf (t : MemoryTables) : ReviewTarget → Option ReviewTarget
  | .entry e => (t.entries.get e.id).map .entry
  | .profileItem item => (t.profile.get item.id).map .profileItem

def ReviewTarget.quarantined : ReviewTarget → Bool
  | .entry e => decide (e.review_state = .quarantined)
  | .profileItem _ => false

/-- What the call returns is what it has stored: the record under the id of the target, and none
    where it deletes.  A record that is stored as quarantined is reported as that. -/
structure ReviewRequest.Reports (call : ReviewRequest) (t t' : MemoryTables)
    (target : ReviewTarget) : Prop where
  stored : (∀ target_id, ¬ call.Takes t (.delete target_id)) → t'.recordOf target = some target
  deleted : ∀ target_id, call.Takes t (.delete target_id) → t'.recordOf target = none
  quarantined : ∀ stored, t'.recordOf target = some stored →
    stored.quarantined = true → target.quarantined = true

section

variable {uuid5 : String → String} {t t' : MemoryTables} {c : MemoryCandidate}
  {state : TargetReviewState} {r : Readings} {target : ReviewTarget} {call : ReviewRequest}

/-! ## What saving leaves -/

theorem admitted_cases {e saved : MemoryEntry} {now : String} (h : e.admitted now = .ok saved) :
    (registered e.type = false ∧ e.review_state = .draft ∧
        saved = { e with review_state := .quarantined, updated_at := now }) ∨
      ((registered e.type = true ∨ e.review_state ≠ .draft) ∧ e.issues = [] ∧ saved = e) := by
  unfold MemoryEntry.admitted at h
  split_ifs at h with hunknown hissues
  · cases h
    exact Or.inl ⟨hunknown.1, hunknown.2, rfl⟩
  · cases h
    refine Or.inr ⟨?_, not_not.mp hissues, rfl⟩
    by_cases htype : registered e.type = true
    · exact Or.inl htype
    · exact Or.inr fun hdraft => hunknown ⟨by simpa using htype, hdraft⟩

theorem admitted_unknown {e saved : MemoryEntry} {now : String}
    (h : e.admitted now = .ok saved) (htype : registered e.type = false) :
    e.review_state = .draft := by
  rcases admitted_cases h with ⟨-, hdraft, -⟩ | ⟨-, hissues, -⟩
  · exact hdraft
  · unfold MemoryEntry.issues at hissues
    rw [if_pos htype] at hissues
    by_contra hdraft
    simp [issueIf, hdraft] at hissues

theorem perform_saved (h : target.saved.perform t = .ok t') :
    t'.recordOf target = some target := by
  cases target with
  | entry e =>
    have hput : t.putEntry e = .ok t' := h
    unfold MemoryTables.putEntry at hput
    split at hput
    · rename_i hfinite
      cases hput
      show ((t.entries.put e hfinite).get e.id).map _ = _
      rw [Shelf.get_put, if_pos rfl]
      rfl
    · cases hput
  | profileItem item =>
    obtain ⟨hfinite, rfl⟩ := saveProfileItem_ok h
    show ((t.profile.put item hfinite).get item.id).map _ = _
    rw [Shelf.get_put, if_pos rfl]
    rfl

theorem recordOf_saveCandidate (h : t.saveCandidate c = .ok t') :
    t'.recordOf target = t.recordOf target := by
  obtain ⟨-, hentries, hprofile, -⟩ := saveCandidate_ok h
  cases target with
  | entry e =>
    show (t'.entries.get e.id).map _ = _
    rw [hentries]
    rfl
  | profileItem item =>
    show (t'.profile.get item.id).map _ = _
    rw [hprofile]
    rfl

/-- **The target that is saved last is stored**, when the candidate is saved after it. -/
theorem performAll_saved : ∀ {writes : List Statement} {t t' : MemoryTables},
    performAll (writes ++ [target.saved, .saveCandidate c]) t = .ok t' →
    t'.recordOf target = some target
  | [], t, t', h => by
    obtain ⟨t₁, hsaved, h⟩ := bind_ok h
    obtain ⟨t₂, hcandidate, h⟩ := bind_ok h
    cases h
    rw [recordOf_saveCandidate hcandidate]
    exact perform_saved hsaved
  | s :: writes, t, t', h => by
    obtain ⟨t₁, -, h⟩ := bind_ok h
    exact performAll_saved h

/-! ## The routes -/

theorem promoteTarget_cases {commit : Commit} (h : promoteTarget target state r.now = .ok commit) :
    (commit = ⟨[], target⟩) ∨
      ∃ e promoted, target = .entry e ∧ state = .reviewed ∧ e.review_state ≠ .quarantined ∧
        { e with review_state := .reviewed, updated_at := r.now }.admitted r.now = .ok promoted ∧
        commit = ⟨[.saveEntry promoted], .entry promoted⟩ := by
  unfold promoteTarget at h
  split at h
  · cases h
    exact Or.inl rfl
  · rename_i e
    split at h
    · cases h
      exact Or.inl rfl
    · rename_i hstate
      obtain ⟨hreviewed, hquarantined⟩ := not_or.mp hstate
      obtain ⟨promoted, hpromoted, h⟩ := bind_ok h
      cases h
      refine Or.inr ⟨e, promoted, rfl, ?_, hquarantined, hpromoted, rfl⟩
      cases state with
      | draft => exact absurd rfl hreviewed
      | reviewed => rfl

/-- **A new target** is returned as it is stored. -/
theorem transact_create (h : transact uuid5 t c .create state r = .ok (t', target)) :
    t'.recordOf target = some target := by
  obtain ⟨commit, hcommit, h⟩ := bind_ok h
  obtain ⟨t₁, hperform, h⟩ := bind_ok h
  cases h
  obtain ⟨fresh, -, hcommit⟩ := bind_ok hcommit
  obtain ⟨saved, -, hcommit⟩ := bind_ok hcommit
  obtain ⟨promoted, hpromoted, hcommit⟩ := bind_ok hcommit
  cases hcommit
  rcases promoteTarget_cases hpromoted with rfl | ⟨e, e', rfl, -, -, -, rfl⟩
  · have hsaved : performAll ([] ++ [saved.saved, _]) t = .ok t' := hperform
    exact performAll_saved hsaved
  · have hsaved : performAll ([_] ++ [(ReviewTarget.entry e').saved, _]) t = .ok t' := hperform
    exact performAll_saved hsaved

/-- **A delete** leaves no record. -/
theorem transact_delete {target_id : String}
    (h : transact uuid5 t c (.delete target_id) state r = .ok (t', target)) :
    t'.recordOf target = none := by
  obtain ⟨commit, hcommit, h⟩ := bind_ok h
  obtain ⟨t₁, hperform, h⟩ := bind_ok h
  cases h
  obtain ⟨found, -, hcommit⟩ := bind_ok hcommit
  cases hcommit
  obtain ⟨t₂, hdeleted, hperform⟩ := bind_ok hperform
  obtain ⟨t₃, hcandidate, hperform⟩ := bind_ok hperform
  cases hperform
  rw [recordOf_saveCandidate hcandidate]
  cases found with
  | entry e =>
    cases hdeleted
    show ((t.entries.remove e.id).get e.id).map _ = none
    rw [Shelf.get_remove, if_pos rfl]
    rfl
  | profileItem item =>
    cases hdeleted
    show ((t.profile.remove item.id).get item.id).map _ = none
    rw [Shelf.get_remove, if_pos rfl]
    rfl

/-- What a merge makes: an item of the profile, or a draft of the stored entry. -/
theorem mergedTarget_cases {target_id : String} {merged : ReviewTarget}
    (h : mergedTarget t c target_id r.now = .ok merged) :
    (c.type = "profile_fact" ∧ ∃ item, merged = .profileItem item) ∨
      c.type ≠ "profile_fact" ∧ ∃ existing, t.entries.get target_id = some existing ∧
        merged = .entry (existing.merged c r.now) := by
  obtain ⟨found, hfound, h⟩ := bind_ok h
  unfold getTarget at hfound
  split_ifs at hfound with htype
  · obtain ⟨item, -, hfound⟩ := bind_ok hfound
    cases hfound
    cases h
    exact Or.inl ⟨htype, _, rfl⟩
  · obtain ⟨existing, hget, hfound⟩ := bind_ok hfound
    cases hfound
    cases h
    refine Or.inr ⟨htype, existing, ?_, rfl⟩
    unfold MemoryTables.getEntry at hget
    split at hget
    · cases hget
    · rename_i e he
      cases hget
      exact he

/-- **A merge into a known type** is returned as it is stored. -/
theorem transact_merge_known {target_id : String}
    (h : transact uuid5 t c (.merge target_id) state r = .ok (t', target))
    (hknown : c.type ≠ "profile_fact" → ∀ existing, t.entries.get target_id = some existing →
      registered existing.type = true) : t'.recordOf target = some target := by
  obtain ⟨commit, hcommit, h⟩ := bind_ok h
  obtain ⟨t₁, hperform, h⟩ := bind_ok h
  cases h
  obtain ⟨merged, hmerged, hcommit⟩ := bind_ok hcommit
  obtain ⟨saved, hsaved, hcommit⟩ := bind_ok hcommit
  obtain ⟨promoted, hpromoted, hcommit⟩ := bind_ok hcommit
  cases hcommit
  rcases promoteTarget_cases hpromoted with rfl | ⟨e, e', rfl, -, -, -, rfl⟩
  · -- what is returned is the merged target, so saving must have kept it
    have hsame : saved = merged := by
      rcases mergedTarget_cases hmerged with ⟨-, item, rfl⟩ | ⟨htype, existing, hget, rfl⟩
      · cases hsaved
        rfl
      · obtain ⟨e, hadmitted, hsaved⟩ := bind_ok hsaved
        cases hsaved
        rcases admitted_cases hadmitted with ⟨hunknown, -, -⟩ | ⟨-, -, rfl⟩
        · have hregistered := hknown htype existing hget
          rw [show existing.type = (existing.merged c r.now).type from rfl, hunknown]
            at hregistered
          cases hregistered
        · rfl
    have hlast : performAll ([] ++ [saved.saved, _]) t = .ok t' := hperform
    rw [hsame] at hlast
    exact performAll_saved hlast
  · have hlast : performAll ([_] ++ [(ReviewTarget.entry e').saved, _]) t = .ok t' := hperform
    exact performAll_saved hlast

/-- **A merge into an unknown type** is stored as quarantined and returned as a draft. -/
theorem transact_merge_unknown {target_id : String} {existing : MemoryEntry}
    (h : transact uuid5 t c (.merge target_id) state r = .ok (t', target))
    (htype : c.type ≠ "profile_fact") (hget : t.entries.get target_id = some existing)
    (hunknown : registered existing.type = false) :
    ∃ stored, t'.recordOf target = some stored ∧ stored.quarantined = true ∧
      target.quarantined = false := by
  obtain ⟨commit, hcommit, h⟩ := bind_ok h
  obtain ⟨t₁, hperform, h⟩ := bind_ok h
  cases h
  obtain ⟨merged, hmerged, hcommit⟩ := bind_ok hcommit
  obtain ⟨saved, hsaved, hcommit⟩ := bind_ok hcommit
  obtain ⟨promoted, hpromoted, hcommit⟩ := bind_ok hcommit
  cases hcommit
  obtain ⟨hfact, -⟩ | ⟨-, existing', hget', rfl⟩ := mergedTarget_cases hmerged
  · exact absurd hfact htype
  obtain rfl : existing = existing' := Option.some.inj (hget.symm.trans hget')
  obtain ⟨e, hadmitted, hsaved⟩ := bind_ok hsaved
  cases hsaved
  obtain ⟨-, -, rfl⟩ | ⟨hkept, -⟩ := admitted_cases hadmitted
  · rcases promoteTarget_cases hpromoted with rfl | ⟨e', promoted, he, -, -, hadmitted', -⟩
    · have hlast : performAll ([] ++ [(ReviewTarget.entry
          { existing.merged c r.now with review_state := .quarantined, updated_at := r.now }).saved,
          _]) t = .ok t' := hperform
      have hstored := performAll_saved hlast
      exact ⟨_, hstored, rfl, rfl⟩
    · -- the promotion of an unknown type is refused
      cases he
      have hdraft := admitted_unknown hadmitted' hunknown
      cases hdraft
  · rcases hkept with hregistered | hdraft
    · have hfalse : registered (existing.merged c r.now).type = false := hunknown
      rw [hfalse] at hregistered
      cases hregistered
    · exact absurd rfl hdraft

/-! ## The calls -/

theorem perform_ok (h : call.perform uuid5 t state r = .ok (t', target)) :
    ∃ c route, t.candidates.get call.candidate_id = some c ∧ call.route c = .ok route ∧
      transact uuid5 t c route state r = .ok (t', target) := by
  cases call with
  | merge candidate_id target_id =>
    obtain ⟨c, hc, h⟩ := bind_ok h
    exact ⟨c, .merge target_id, (pendingCandidate_ok hc).1, rfl, h⟩
  | accept candidate_id =>
    obtain ⟨c, hc, h⟩ := bind_ok h
    obtain ⟨route, hroute, h⟩ := bind_ok h
    have hget := (pendingCandidate_ok hc).1
    refine ⟨c, route, hget, hroute, ?_⟩
    cases route with
    | create => exact h
    | delete target_id => exact h
    | merge target_id =>
      obtain ⟨c', hc', h⟩ := bind_ok h
      obtain rfl : c = c' := Except.ok.inj (hc.symm.trans hc')
      exact h

theorem ReviewRequest.Takes.route {route : ReviewRoute} (h : call.Takes t route)
    (hget : t.candidates.get call.candidate_id = some c) : call.route c = .ok route := by
  obtain ⟨c', hget', hroute⟩ := h
  obtain rfl : c = c' := Option.some.inj (hget.symm.trans hget')
  exact hroute

theorem ReviewRequest.reports_of_stored {route : ReviewRoute}
    (hget : t.candidates.get call.candidate_id = some c) (hroute : call.route c = .ok route)
    (hkeeps : ∀ target_id, route ≠ .delete target_id)
    (hstored : t'.recordOf target = some target) : call.Reports t t' target := by
  refine ⟨fun _ => hstored, fun target_id htakes => ?_, fun stored hrecord hquarantined => ?_⟩
  · have hdelete := htakes.route hget
    rw [hroute] at hdelete
    exact absurd (Except.ok.inj hdelete) (hkeeps target_id)
  · rw [hstored] at hrecord
    cases hrecord
    exact hquarantined

end

/-- **A call reports what it has stored exactly when it does not merge into an entry of an unknown
    type.** -/
theorem reports_stored_iff (uuid5 : String → String) (t t' : MemoryTables) (call : ReviewRequest)
    (state : TargetReviewState) (r : Readings) (target : ReviewTarget)
    (h : call.perform uuid5 t state r = .ok (t', target)) :
    call.Reports t t' target ↔ ¬ call.IntoUnknown t := by
  obtain ⟨c, route, hget, hroute, htransact⟩ := perform_ok h
  constructor
  · rintro hreports ⟨c', target_id, existing, hget', hmerge, htype, hexisting, hunknown⟩
    obtain rfl : c = c' := Option.some.inj (hget.symm.trans hget')
    obtain rfl : route = .merge target_id := Except.ok.inj (hroute.symm.trans hmerge)
    obtain ⟨stored, hrecord, hquarantined, hnot⟩ :=
      transact_merge_unknown htransact htype hexisting hunknown
    have hreported := hreports.quarantined stored hrecord hquarantined
    rw [hnot] at hreported
    cases hreported
  · intro hknown
    cases route with
    | create =>
      exact ReviewRequest.reports_of_stored hget hroute nofun (transact_create htransact)
    | merge target_id =>
      refine ReviewRequest.reports_of_stored hget hroute nofun
        (transact_merge_known htransact fun htype existing hexisting => ?_)
      by_contra hunregistered
      exact hknown ⟨c, target_id, existing, hget, hroute, htype, hexisting,
        by simpa using hunregistered⟩
    | delete target_id =>
      have hnone := transact_delete htransact
      refine ⟨fun hno => absurd ⟨c, hget, hroute⟩ (hno target_id), fun _ _ => hnone, ?_⟩
      intro stored hrecord
      rw [hnone] at hrecord
      cases hrecord

/-! ### An update of a kettle -/

def kettleEntry (type : String) : MemoryEntry where
  type := type
  title := "Kettle"
  body := "Boils water."
  tags := []
  source_refs := []
  confidence := defaultConfidence
  importance := defaultImportance
  privacy := .private
  review_state := if registered type = true then .draft else .quarantined
  id := "mem_1"
  created_at := "2026-01-01"
  updated_at := "2026-01-01"
  observed_at := none
  valid_from := none
  valid_until := none
  temporal_note := ""
  relations := Table.empty
  evidence := []

def kettleCandidate (type : String) : MemoryCandidate where
  type := type
  title := "Kettle"
  body := "Boils water in two minutes."
  action := .update
  confidence := defaultConfidence
  id := "cand_1"
  created_at := "2026-01-02"
  updated_at := "2026-01-02"
  target_entry_id := some "mem_1"

theorem kettle_finite : (isFinite defaultConfidence && isFinite defaultImportance) = true := by
  decide

def kettleTables (type : String) : MemoryTables :=
  { MemoryTables.empty with
    candidates := Shelf.empty.put (kettleCandidate type) kettle_finite
    entries := Shelf.empty.put (kettleEntry type) kettle_finite }

theorem concept_reported :
    ∃ t' target, (ReviewRequest.accept "cand_1").perform id (kettleTables "concept") .draft
        ⟨"fresh", "now"⟩ = .ok (t', target) ∧
      (ReviewRequest.accept "cand_1").Reports (kettleTables "concept") t' target := by
  have hcall : ∃ result, (ReviewRequest.accept "cand_1").perform id (kettleTables "concept") .draft
      ⟨"fresh", "now"⟩ = .ok result := ⟨_, rfl⟩
  obtain ⟨⟨t', target⟩, hcall⟩ := hcall
  refine ⟨t', target, hcall, (reports_stored_iff _ _ _ _ _ _ _ hcall).mpr ?_⟩
  rintro ⟨c, target_id, existing, hget, hroute, -, hexisting, hunknown⟩
  obtain rfl : kettleCandidate "concept" = c := Option.some.inj hget
  obtain rfl : "mem_1" = target_id := ReviewRoute.merge.inj (Except.ok.inj hroute)
  obtain rfl : kettleEntry "concept" = existing := Option.some.inj hexisting
  revert hunknown
  decide

/-- The accepted update is returned as a draft, and stored as quarantined. -/
theorem gadget_reported_as_draft :
    ¬ ∀ (uuid5 : String → String) (t t' : MemoryTables) (call : ReviewRequest)
      (state : TargetReviewState) (r : Readings) (target : ReviewTarget),
      call.perform uuid5 t state r = .ok (t', target) → call.Reports t t' target := by
  intro h
  have hreports := h id (kettleTables "gadget") _ (.accept "cand_1") .draft ⟨"fresh", "now"⟩ _ rfl
  have hquarantined := hreports.quarantined _ rfl rfl
  cases hquarantined

end NuSelf.Memory
