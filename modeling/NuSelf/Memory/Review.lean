/-
  Is a reviewed candidate final?

  `reviewStep` runs the operations on candidates and the curator's plans over the same tables.  A
  review is final when no candidate is lost, one that is accepted or rejected never changes again,
  and an operation on it raises and changes nothing.  `accept` and `merge` check that the candidate
  is pending, and staging never writes over a candidate; `reject` and `edit` check nothing.  So:

  1. `accept_reviewed`, `merge_reviewed` — these refuse a reviewed candidate;
  2. `terminal_step_iff` — a step is final exactly when it does not reject or edit a reviewed one;
  3. `terminal_iff` — so is a run.
-/
import NuSelf.Lib.Run
import NuSelf.Memory.Staging

namespace NuSelf.Memory

open NuSelf.Lib

/-! ## The machine -/

inductive ReviewInput where
  | accept (candidate_id : String) (target_review_state : TargetReviewState) (r : Readings)
  | merge (candidate_id target_id : String) (target_review_state : TargetReviewState)
      (r : Readings)
  | reject (candidate_id now : String)
  | edit (candidate_id : String) (changes : CandidateChanges) (now : String)
  /-- A run of the curator; it may crash. -/
  | curate (run : StagingRun)

/-- The candidate that an operation is called on. -/
def ReviewInput.candidate : ReviewInput → Option String
  | .accept id _ _ => some id
  | .merge id _ _ _ => some id
  | .reject id _ => some id
  | .edit id _ _ => some id
  | .curate _ => none

/-- An operation that raises leaves the tables. -/
def settle {α : Type} (t : MemoryTables) :
    Except ReviewError (MemoryTables × α) → MemoryTables × Option ReviewError
  | .ok (t', _) => (t', none)
  | .error e => (t, some e)

def reviewStep (uuid5 lower : String → String) (t : MemoryTables) :
    ReviewInput → MemoryTables × Option ReviewError
  | .accept id state r => settle t (accept uuid5 t id state r)
  | .merge id target_id state r => settle t (merge uuid5 t id target_id state r)
  | .reject id now => settle t (reject t id now)
  | .edit id changes now => settle t (edit t id changes now)
  | .curate run => applyPlan uuid5 lower t run

/-! ## What the operations do with a reviewed candidate -/

section

variable {uuid5 : String → String} {t : MemoryTables} {id : String} {c : MemoryCandidate}
  {state : TargetReviewState} {r : Readings} {now : String}

theorem accept_reviewed (hget : t.candidates.get id = some c) (hreviewed : c.review_state ≠ .pending) :
    accept uuid5 t id state r = .error (.alreadyReviewed c.review_state id) := by
  have hcheck : t.pendingCandidate id = .error (.alreadyReviewed c.review_state id) := by
    rw [pendingCandidate_of_get hget, if_neg hreviewed]
  unfold accept
  rw [hcheck]
  rfl

theorem merge_reviewed {target_id : String} (hget : t.candidates.get id = some c)
    (hreviewed : c.review_state ≠ .pending) :
    merge uuid5 t id target_id state r = .error (.alreadyReviewed c.review_state id) := by
  have hcheck : t.pendingCandidate id = .error (.alreadyReviewed c.review_state id) := by
    rw [pendingCandidate_of_get hget, if_neg hreviewed]
  unfold merge
  rw [hcheck]
  rfl

/-- **`reject` always goes through** on a stored candidate, whatever its state. -/
theorem reject_of_get (hget : t.candidates.get id = some c) :
    ∃ t', reject t id now = .ok (t', c.rejected now) ∧ ∀ other, t'.candidates.get other =
      if other = id then some (c.rejected now) else t.candidates.get other := by
  have hfinite : c.finite = true := t.candidates.valid_of_get hget
  exact rewriteCandidate_of_get hget rfl ((c.rejected_finite now).trans hfinite)

/-- The changes of an edit that can be stored. -/
def CandidateChanges.storable (changes : CandidateChanges) : Bool := changes.importance.all isFinite

theorem edited_finite {changes : CandidateChanges} (hget : t.candidates.get id = some c) :
    (c.edited changes now).finite = changes.storable := by
  have hstored : (isFinite c.confidence && isFinite c.importance) = true :=
    t.candidates.valid_of_get hget
  obtain ⟨hconfidence, himportance⟩ := Bool.and_eq_true_iff.mp hstored
  show (isFinite c.confidence && isFinite (changes.importance.getD c.importance)) =
    changes.importance.all isFinite
  rw [hconfidence, Bool.true_and]
  cases changes.importance with
  | none => exact himportance
  | some bits => rfl

/-- **So does `edit`**, with numbers that can be stored. -/
theorem edit_of_get {changes : CandidateChanges} (hget : t.candidates.get id = some c)
    (hstorable : changes.storable = true) :
    ∃ t', edit t id changes now = .ok (t', c.edited changes now) ∧
      ∀ other, t'.candidates.get other =
        if other = id then some (c.edited changes now) else t.candidates.get other :=
  rewriteCandidate_of_get hget rfl ((edited_finite hget).trans hstorable)

theorem edit_not_storable {changes : CandidateChanges} (hget : t.candidates.get id = some c)
    (hstorable : changes.storable = false) : edit t id changes now = .error .notFinite :=
  rewriteCandidate_not_finite hget ((edited_finite hget).trans hstorable)

end

/-! ## Final reviews -/

/-- The states a candidate may move to. -/
def MayMove (before after : MemoryCandidateReviewState) : Prop :=
  after = before ∨ (before = .pending ∧ (after = .accepted ∨ after = .rejected))

/-- A step that treats every review as final. -/
structure TerminalReview (e : Step MemoryTables ReviewInput (Option ReviewError)) : Prop where
  /-- Every candidate stays, its state moves out of `pending` only, and a reviewed one is kept. -/
  kept : ∀ id c, e.before.candidates.get id = some c →
    ∃ c', e.after.candidates.get id = some c' ∧ MayMove c.review_state c'.review_state ∧
      (c.review_state ≠ .pending → c' = c)
  /-- An operation on a reviewed candidate raises and changes nothing. -/
  refused : ∀ id c, e.input.candidate = some id → e.before.candidates.get id = some c →
    c.review_state ≠ .pending → (∃ error, e.output = some error) ∧ e.after = e.before

/-- The condition on a step: it does not reject a reviewed candidate, nor edit one with changes
    that can be stored. -/
def ReviewsPending (t : MemoryTables) : ReviewInput → Prop
  | .reject id _ => ∀ c, t.candidates.get id = some c → c.review_state = .pending
  | .edit id changes _ => changes.storable = true →
      ∀ c, t.candidates.get id = some c → c.review_state = .pending
  | _ => True

theorem mayMove_of_keeps {t t' : MemoryTables} (h : KeepsReviewed t t') :
    ∀ id c, t.candidates.get id = some c →
      ∃ c', t'.candidates.get id = some c' ∧ MayMove c.review_state c'.review_state ∧
        (c.review_state ≠ .pending → c' = c) := by
  intro id c hc
  obtain ⟨c', hc', hkept⟩ := h id c hc
  refine ⟨c', hc', ?_, hkept⟩
  by_cases hpending : c.review_state = .pending
  · cases hstate : c'.review_state with
    | pending => exact Or.inl hpending.symm
    | accepted => exact Or.inr ⟨hpending, Or.inl rfl⟩
    | rejected => exact Or.inr ⟨hpending, Or.inr rfl⟩
  · rw [hkept hpending]
    exact Or.inl rfl

/-- A result that raises on a reviewed candidate and keeps the reviewed ones is final. -/
theorem settle_keeps {α : Type} {t : MemoryTables}
    {result : Except ReviewError (MemoryTables × α)}
    (h : ∀ t' a, result = .ok (t', a) → KeepsReviewed t t') :
    KeepsReviewed t (settle t result).1 := by
  cases result with
  | error e => exact KeepsReviewed.refl t
  | ok r =>
    obtain ⟨t', a⟩ := r
    exact h t' a rfl

variable {uuid5 lower : String → String}

/-- **The step lemma**: under the condition a step keeps what is reviewed. -/
theorem step_keeps (t : MemoryTables) (i : ReviewInput) (hok : ReviewsPending t i) :
    KeepsReviewed t (reviewStep uuid5 lower t i).1 := by
  cases i with
  | accept id state r => exact settle_keeps fun t' target h => accept_keeps h
  | merge id target_id state r => exact settle_keeps fun t' target h => merge_keeps h
  | curate run => exact staging_keeps uuid5 lower t run
  | reject id now =>
    refine settle_keeps fun t' c' h => ?_
    cases hget : t.candidates.get id with
    | none =>
      rw [reject, rewriteCandidate_of_none hget] at h
      cases h
    | some c =>
      obtain ⟨t₁, hreject, hcandidates⟩ := @reject_of_get t id c now hget
      obtain ⟨rfl, -⟩ := Prod.mk.inj (Except.ok.inj (hreject.symm.trans h))
      refine KeepsReviewed.write (fun old hold => ?_) hcandidates
      exact hok old hold
  | edit id changes now =>
    refine settle_keeps fun t' c' h => ?_
    cases hget : t.candidates.get id with
    | none =>
      rw [edit, rewriteCandidate_of_none hget] at h
      cases h
    | some c =>
      cases hstorable : changes.storable with
      | false =>
        rw [edit_not_storable hget hstorable] at h
        cases h
      | true =>
        obtain ⟨t₁, hedit, hcandidates⟩ := @edit_of_get t id c now changes hget hstorable
        obtain ⟨rfl, -⟩ := Prod.mk.inj (Except.ok.inj (hedit.symm.trans h))
        refine KeepsReviewed.write (fun old hold => ?_) hcandidates
        exact hok hstorable old hold

/-- **A step is final exactly under the condition.** -/
theorem terminal_step_iff (e : Step MemoryTables ReviewInput (Option ReviewError))
    (he : e.Of (reviewStep uuid5 lower)) : TerminalReview e ↔ ReviewsPending e.before e.input := by
  obtain ⟨t, i, o, t'⟩ := e
  obtain rfl : (reviewStep uuid5 lower t i).1 = t' := he.after_eq
  obtain rfl : (reviewStep uuid5 lower t i).2 = o := he.output_eq
  constructor
  · intro hfinal
    -- a reject or an edit that goes through does not raise
    cases i with
    | reject id now =>
      intro c hget
      by_contra hreviewed
      obtain ⟨⟨error, hraises⟩, -⟩ := hfinal.refused id c rfl hget hreviewed
      obtain ⟨t₁, hreject, -⟩ := @reject_of_get t id c now hget
      have hout : (settle t (reject t id now)).2 = some error := hraises
      rw [hreject] at hout
      cases hout
    | edit id changes now =>
      intro hstorable c hget
      by_contra hreviewed
      obtain ⟨⟨error, hraises⟩, -⟩ := hfinal.refused id c rfl hget hreviewed
      obtain ⟨t₁, hedit, -⟩ := @edit_of_get t id c now changes hget hstorable
      have hout : (settle t (edit t id changes now)).2 = some error := hraises
      rw [hedit] at hout
      cases hout
    | accept | merge | curate => trivial
  · intro hok
    refine ⟨mayMove_of_keeps (step_keeps t i hok), fun id c hon hget hreviewed => ?_⟩
    cases i with
    | accept id' state r =>
      obtain rfl : id' = id := Option.some.inj hon
      show (∃ error, (settle t (accept uuid5 t id' state r)).2 = some error) ∧
        (settle t (accept uuid5 t id' state r)).1 = t
      rw [accept_reviewed hget hreviewed]
      exact ⟨⟨_, rfl⟩, rfl⟩
    | merge id' target_id state r =>
      obtain rfl : id' = id := Option.some.inj hon
      show (∃ error, (settle t (merge uuid5 t id' target_id state r)).2 = some error) ∧
        (settle t (merge uuid5 t id' target_id state r)).1 = t
      rw [merge_reviewed hget hreviewed]
      exact ⟨⟨_, rfl⟩, rfl⟩
    | reject id' now =>
      obtain rfl : id' = id := Option.some.inj hon
      exact absurd (hok c hget) hreviewed
    | edit id' changes now =>
      obtain rfl : id' = id := Option.some.inj hon
      show (∃ error, (settle t (edit t id' changes now)).2 = some error) ∧
        (settle t (edit t id' changes now)).1 = t
      cases hstorable : changes.storable with
      | true => exact absurd (hok hstorable c hget) hreviewed
      | false =>
        rw [edit_not_storable hget hstorable]
        exact ⟨⟨_, rfl⟩, rfl⟩
    | curate run => cases hon

/-- **In a run every review is final exactly when no reviewed candidate is ever rejected or
    edited.** -/
theorem terminal_iff (uuid5 lower : String → String) (t : MemoryTables)
    (inputs : List ReviewInput) :
    (∀ e ∈ run (reviewStep uuid5 lower) t inputs, TerminalReview e) ↔
      ∀ e ∈ run (reviewStep uuid5 lower) t inputs, ReviewsPending e.before e.input := by
  have hkeep : ∀ (s : MemoryTables) (i : ReviewInput), True → ReviewsPending s i → True :=
    fun _ _ _ _ => trivial
  exact @run_forall_iff _ _ _ _ (fun _ => True) _ _ hkeep (fun e he _ => terminal_step_iff e he)
    t inputs trivial

/-- An accepted candidate. -/
def acceptedGoal : MemoryCandidate where
  type := "goal"
  title := "Learn Lean"
  body := "Prove something every day."
  confidence := 0x3ff0000000000000#64
  review_state := .accepted
  id := "cand_1"
  created_at := "2026-01-01"
  updated_at := "2026-01-01"

/-- It is rejected, although its entry is live. -/
theorem accepted_is_rejected :
    ¬ ∀ (uuid5 lower : String → String) (t : MemoryTables) (inputs : List ReviewInput),
      ∀ e ∈ run (reviewStep uuid5 lower) t inputs, TerminalReview e := by
  intro h
  have hstep := h id id
    { MemoryTables.empty with candidates := Shelf.empty.put acceptedGoal (by decide) }
    [.reject "cand_1" "2026-01-02"] _ List.mem_cons_self
  obtain ⟨⟨error, hraises⟩, -⟩ := hstep.refused "cand_1" acceptedGoal rfl (by decide) (by decide)
  revert hraises
  simp only [reviewStep]
  obtain ⟨t', hreject, -⟩ := @reject_of_get
    { MemoryTables.empty with candidates := Shelf.empty.put acceptedGoal (by decide) } "cand_1"
    acceptedGoal "2026-01-02" (by decide)
  rw [hreject]
  rintro ⟨⟩

end NuSelf.Memory
