/-
  Accepting profile facts: does one overwrite another?

  The id of the profile item that a candidate becomes is derived from its first source reference,
  and the curator gives every candidate of one plan the same reference.  `acceptEach` accepts a
  batch of pending facts in any order:

  1. `accept_fact` — one acceptance writes the item, over whatever stood under its id;
  2. `acceptEach_facts` — a batch writes its items one after the other;
  3. `apart_iff` — every fact keeps an item of its own, and the older items stay, exactly when the
     references hash apart and no older item has one of their ids.
-/
import NuSelf.Memory.Candidates

namespace NuSelf.Memory

open NuSelf.Lib

/-! ## One fact -/

/-- A call of `accept` on a pending create candidate that states a profile fact. -/
structure FactCall where
  candidate : MemoryCandidate
  target_review_state : TargetReviewState
  r : Readings
  pending : candidate.review_state = .pending
  create : candidate.action = .create
  fact : candidate.type = "profile_fact"
  finite : candidate.finite = true

section

variable (uuid5 : String → String)

/-- The profile item that the call makes. -/
def FactCall.item (call : FactCall) : ProfileItem :=
  ProfileItem.fromCandidate uuid5 call.candidate call.r.now

/-- The text that the id of the item is derived from: the first source reference, and the time of
    the call without one. -/
def FactCall.name (call : FactCall) : String := call.candidate.source_refs.head?.getD call.r.now

/-- The item as it is stored. -/
def FactCall.row (call : FactCall) : {item : ProfileItem // item.finite = true} :=
  ⟨call.item uuid5, ProfileItem.fromCandidate_finite call.finite⟩

theorem FactCall.item_id (call : FactCall) : (call.item uuid5).id = "profile_" ++ uuid5 call.name :=
  rfl

/-- The calls one after the other; the first that raises stops. -/
def acceptEach : List FactCall → MemoryTables → Except ReviewError MemoryTables
  | [], t => .ok t
  | call :: rest, t => do
    let (t, _) ← accept uuid5 t call.candidate.id call.target_review_state call.r
    acceptEach rest t

end

variable {uuid5 : String → String}

/-- **One acceptance** stores the item under its id and the candidate as accepted. -/
theorem accept_fact {t : MemoryTables} {call : FactCall}
    (hstored : t.candidates.get call.candidate.id = some call.candidate) :
    ∃ t', accept uuid5 t call.candidate.id call.target_review_state call.r =
        .ok (t', .profileItem (call.item uuid5)) ∧
      t'.profile = t.profile.put (call.item uuid5) (call.row uuid5).2 ∧
      ∀ id, id ≠ call.candidate.id → t'.candidates.get id = t.candidates.get id := by
  let accepted := call.candidate.accepted (call.item uuid5).id call.r.now
  have hcheck : t.pendingCandidate call.candidate.id = .ok call.candidate := by
    rw [pendingCandidate_of_get hstored, if_pos call.pending]
  have hroute : reviewRoute call.candidate = .ok .create := by
    unfold reviewRoute
    rw [call.create]
  have hcommit : createCommit uuid5 call.candidate call.target_review_state call.r =
      .ok ⟨[.saveProfileItem (call.item uuid5), .saveCandidate accepted],
        .profileItem (call.item uuid5)⟩ := by
    unfold createCommit newTarget
    rw [if_pos call.fact]
    rfl
  let t₁ : MemoryTables :=
    { t with profile := t.profile.put (call.item uuid5) (call.row uuid5).2 }
  have hfinite : accepted.finite = true := call.finite
  let t₂ : MemoryTables := { t₁ with candidates := t₁.candidates.put accepted hfinite }
  have hitem : t.saveProfileItem (call.item uuid5) = .ok t₁ := dif_pos (call.row uuid5).2
  have hsave : t₁.saveCandidate accepted = .ok t₂ := dif_pos hfinite
  have hperform : performAll [.saveProfileItem (call.item uuid5), .saveCandidate accepted] t =
      .ok t₂ := by
    show (t.saveProfileItem (call.item uuid5) >>= _) = _
    rw [hitem]
    show (t₁.saveCandidate accepted >>= _) = _
    rw [hsave]
    rfl
  refine ⟨t₂, ?_, rfl, fun id hid => ?_⟩
  · unfold accept
    rw [hcheck]
    show (reviewRoute call.candidate >>= _) = _
    rw [hroute]
    show (createCommit uuid5 call.candidate call.target_review_state call.r >>= _) = _
    rw [hcommit]
    show (performAll _ t >>= _) = _
    rw [hperform]
    rfl
  · have hne : id ≠ accepted.id := hid
    have hget : t₂.candidates.get id = _ := Shelf.get_put t₁.candidates accepted hfinite id
    rw [hget, if_neg hne]

/-! ## A batch -/

/-- The items of a batch, in the order of its calls. -/
def factRows (uuid5 : String → String) (calls : List FactCall) :
    List {item : ProfileItem // item.finite = true} :=
  calls.map (FactCall.row uuid5)

/-- **A batch of facts writes its items one after the other.**  The induction keeps that the
    candidates still to come are stored as they were. -/
theorem acceptEach_facts : ∀ (calls : List FactCall) (t : MemoryTables),
    (∀ call ∈ calls, t.candidates.get call.candidate.id = some call.candidate) →
    (calls.map fun call => call.candidate.id).Nodup →
    ∃ t', acceptEach uuid5 calls t = .ok t' ∧ t'.profile = t.profile.putAll (factRows uuid5 calls)
  | [], t, _, _ => ⟨t, rfl, rfl⟩
  | call :: rest, t, hstored, hdistinct => by
    obtain ⟨hfirst, hothers⟩ := List.forall_mem_cons.mp hstored
    obtain ⟨hnew, hrest⟩ := List.nodup_cons.mp hdistinct
    obtain ⟨t₁, haccept, hprofile, hcandidates⟩ := @accept_fact uuid5 t call hfirst
    have hstored₁ : ∀ other ∈ rest,
        t₁.candidates.get other.candidate.id = some other.candidate := by
      intro other hother
      have hne : other.candidate.id ≠ call.candidate.id := by
        intro he
        exact hnew (List.mem_map.mpr ⟨other, hother, he⟩)
      rw [hcandidates _ hne, hothers other hother]
    obtain ⟨t', heach, hprofile'⟩ := acceptEach_facts rest t₁ hstored₁ hrest
    refine ⟨t', ?_, ?_⟩
    · unfold acceptEach
      rw [haccept]
      exact heach
    · rw [hprofile', hprofile]
      rfl

/-- Pending facts with distinct ids, and the calls that accept them in some order. -/
structure FactBatch (t : MemoryTables) where
  calls : List FactCall
  stored : ∀ call ∈ calls, t.candidates.get call.candidate.id = some call.candidate
  distinct : (calls.map fun call => call.candidate.id).Nodup

/-! ## Apart -/

/-- The item has the content of the candidate. -/
structure ProfileItem.Carries (item : ProfileItem) (c : MemoryCandidate) : Prop where
  type : item.type = c.type
  title : item.title = c.title
  body : item.body = c.body
  tags : item.tags = c.tags
  source_refs : item.source_refs = c.source_refs
  confidence : item.confidence = c.confidence
  «private» : item.privacy = c.privacy
  observed_at : item.observed_at = c.observed_at
  valid_from : item.valid_from = c.valid_from
  valid_until : item.valid_until = c.valid_until
  temporal_note : item.temporal_note = c.temporal_note
  relations : item.relations = c.relations
  evidence : item.evidence = c.evidence

theorem FactCall.item_carries (call : FactCall) : (call.item uuid5).Carries call.candidate :=
  ⟨rfl, rfl, rfl, rfl, rfl, rfl, rfl, rfl, rfl, rfl, rfl, rfl, rfl⟩

/-- One item for each accepted fact, with its content, and the older items as they were. -/
structure AcceptedApart (calls : List FactCall) (t t' : MemoryTables) : Prop where
  counted : t'.profile.table.rows.length = t.profile.table.rows.length + calls.length
  carried : ∀ call ∈ calls, ∃ id item, t'.profile.get id = some item ∧ item.Carries call.candidate
  kept : ∀ id item, t.profile.get id = some item → t'.profile.get id = some item

/-- The condition on a batch: the names of its items hash apart, and no older item has the id of
    one of them. -/
def NamesFree (uuid5 : String → String) (t : MemoryTables) (calls : List FactCall) : Prop :=
  (calls.map fun call => uuid5 call.name).Nodup ∧
    ∀ call ∈ calls, t.profile.get ("profile_" ++ uuid5 call.name) = none

theorem namesFree_iff {t : MemoryTables} {calls : List FactCall} :
    NamesFree uuid5 t calls ↔
      (Shelf.batchKeys ProfileItem.id (factRows uuid5 calls)).Nodup ∧
        ∀ k ∈ Shelf.batchKeys ProfileItem.id (factRows uuid5 calls), t.profile.get k = none := by
  have hkeys : Shelf.batchKeys ProfileItem.id (factRows uuid5 calls) =
      (calls.map fun call => uuid5 call.name).map fun name => "profile_" ++ name := by
    show (calls.map (FactCall.row uuid5)).map _ = _
    rw [List.map_map, List.map_map]
    rfl
  have hinjective : Function.Injective fun name : String => "profile_" ++ name :=
    fun _ _ h => append_right_cancel_text.mp h
  rw [hkeys, List.nodup_map_iff hinjective, NamesFree, List.forall_mem_map, List.forall_mem_map]

/-- **Accepting never overwrites exactly when the names of the facts are free.** -/
theorem apart_iff (uuid5 : String → String) (t : MemoryTables) (batch : FactBatch t) :
    (∃ t', acceptEach uuid5 batch.calls t = .ok t' ∧ AcceptedApart batch.calls t t') ↔
      NamesFree uuid5 t batch.calls := by
  obtain ⟨t', haccepted, hprofile⟩ :=
    @acceptEach_facts uuid5 batch.calls t batch.stored batch.distinct
  have hlength : (factRows uuid5 batch.calls).length = batch.calls.length := List.length_map _
  have hcount := Shelf.length_putAll_iff (factRows uuid5 batch.calls) t.profile
  rw [← hprofile, hlength] at hcount
  rw [namesFree_iff, ← hcount]
  constructor
  · rintro ⟨t₁, haccepted₁, hapart⟩
    obtain rfl : t' = t₁ := Except.ok.inj (haccepted.symm.trans haccepted₁)
    exact hapart.counted
  · intro hcounted
    obtain ⟨hnodup, hnew⟩ := hcount.mp hcounted
    refine ⟨t', haccepted, hcounted, fun call hcall => ?_, fun id item hget => ?_⟩
    · have hrow : call.row uuid5 ∈ factRows uuid5 batch.calls := List.mem_map_of_mem hcall
      have hstored := Shelf.putAll_get _ t.profile hnodup _ hrow
      rw [← hprofile] at hstored
      exact ⟨_, _, hstored, call.item_carries⟩
    · -- an id in use is none of the new ones
      have hother : id ∉ Shelf.batchKeys ProfileItem.id (factRows uuid5 batch.calls) := by
        intro hmem
        have hnone := hnew id hmem
        rw [hget] at hnone
        cases hnone
      rw [hprofile, Shelf.putAll_get_of_not_mem _ _ hother, hget]

/-! ## Two facts of one plan -/

/-- A fact that the curator read off one observation. -/
def plannedFact (id title : String) : MemoryCandidate where
  type := "profile_fact"
  title := title
  body := "The user said so."
  source_refs := ["interaction:1"]
  confidence := 0x3ff0000000000000#64
  id := id
  created_at := "2026-01-01"
  updated_at := "2026-01-01"

def plannedCall (id title : String) : FactCall where
  candidate := plannedFact id title
  target_review_state := .reviewed
  r := { fresh := "", now := "2026-01-02" }
  pending := rfl
  create := rfl
  fact := rfl
  finite := (by decide : (isFinite 0x3ff0000000000000#64 && isFinite defaultImportance) = true)

def plannedFacts : MemoryTables :=
  { MemoryTables.empty with
    candidates := (Shelf.empty.put (plannedFact "cand_1" "Lives in Basel") (by decide)).put
      (plannedFact "cand_2" "Plays the cello") (by decide) }

def plannedCalls : List FactCall :=
  [plannedCall "cand_1" "Lives in Basel", plannedCall "cand_2" "Plays the cello"]

theorem plannedCalls_stored : ∀ call ∈ plannedCalls,
    plannedFacts.candidates.get call.candidate.id = some call.candidate := by
  intro call hcall
  rcases List.mem_cons.mp hcall with rfl | hcall
  · decide
  · rw [List.mem_singleton.mp hcall]
    decide

/-- The second fact replaces the first. -/
theorem plan_overwrites :
    ¬ ∀ (uuid5 : String → String) (t : MemoryTables) (batch : FactBatch t),
      ∃ t', acceptEach uuid5 batch.calls t = .ok t' ∧ AcceptedApart batch.calls t t' := by
  intro h
  have hdistinct : (plannedCalls.map fun call => call.candidate.id).Nodup := by decide
  obtain ⟨t', haccepted, hapart⟩ := h id plannedFacts ⟨plannedCalls, plannedCalls_stored, hdistinct⟩
  obtain ⟨t₁, haccepted₁, hprofile⟩ :=
    @acceptEach_facts id plannedCalls plannedFacts plannedCalls_stored hdistinct
  obtain rfl : t₁ = t' := Except.ok.inj (haccepted₁.symm.trans haccepted)
  have hcounted : t₁.profile.table.rows.length = 0 + 2 := hapart.counted
  -- one row where there should be two
  have hone : (plannedFacts.profile.putAll (factRows id plannedCalls)).table.rows.length = 1 := by
    decide
  rw [hprofile, hone] at hcounted
  cases hcounted

end NuSelf.Memory
