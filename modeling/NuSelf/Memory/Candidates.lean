/-
  The repository of memory candidates: accept, reject, edit, merge.

  The three collections are shelves of records under their own id, so a row that its decoder
  refuses is not modelled.  A call reads the candidate and checks that it is pending; what it then
  writes goes into one transaction, listed here statement by statement (`Commit`).  The last
  statement always stores the candidate as accepted, the ones before it touch targets only
  (`commit_shape`), and a transaction that raises changes nothing.

  `accept_cases` and `merge_cases` say what a call does; `reject` and `edit` rewrite one record and
  check nothing (`rewriteCandidate_of_get`).
-/
import NuSelf.Lib.Sequence
import NuSelf.Memory.Candidate

namespace NuSelf.Memory

open NuSelf.Lib

/-! ## The collections -/

structure MemoryTables where
  candidates : Shelf MemoryCandidate.id MemoryCandidate.finite
  entries : Shelf MemoryEntry.id MemoryEntry.finite
  profile : Shelf ProfileItem.id ProfileItem.finite

namespace MemoryTables

def empty : MemoryTables := ⟨.empty, .empty, .empty⟩

/-- `MemoryCandidateRepository.get`. -/
def getCandidate (t : MemoryTables) (candidate_id : String) : Except ReviewError MemoryCandidate :=
  match t.candidates.get candidate_id with
  | none => .error (.candidateNotFound candidate_id)
  | some c => .ok c

def getEntry (t : MemoryTables) (entry_id : String) : Except ReviewError MemoryEntry :=
  match t.entries.get entry_id with
  | none => .error (.entryNotFound entry_id)
  | some entry => .ok entry

def getProfileItem (t : MemoryTables) (item_id : String) : Except ReviewError ProfileItem :=
  match t.profile.get item_id with
  | none => .error (.profileItemNotFound item_id)
  | some item => .ok item

/-- `MemoryCandidateRepository.save`. -/
def saveCandidate (t : MemoryTables) (c : MemoryCandidate) : Except ReviewError MemoryTables :=
  if h : c.finite = true then .ok { t with candidates := t.candidates.put c h }
  else .error .notFinite

/-- The write of an entry. -/
def putEntry (t : MemoryTables) (entry : MemoryEntry) : Except ReviewError MemoryTables :=
  if h : entry.finite = true then .ok { t with entries := t.entries.put entry h }
  else .error .notFinite

/-- `ProfileItemRepository.save`. -/
def saveProfileItem (t : MemoryTables) (item : ProfileItem) : Except ReviewError MemoryTables :=
  if h : item.finite = true then .ok { t with profile := t.profile.put item h }
  else .error .notFinite

/-- The check with which `accept` and `merge` begin. -/
def pendingCandidate (t : MemoryTables) (candidate_id : String) :
    Except ReviewError MemoryCandidate := do
  let c ← t.getCandidate candidate_id
  if c.review_state ≠ .pending then .error (.alreadyReviewed c.review_state candidate_id)
  else return c

end MemoryTables

theorem getCandidate_ok {t : MemoryTables} {id : String} {c : MemoryCandidate}
    (h : t.getCandidate id = .ok c) : t.candidates.get id = some c := by
  unfold MemoryTables.getCandidate at h
  split at h
  · cases h
  · rename_i c' hc
    cases h
    exact hc

theorem pendingCandidate_ok {t : MemoryTables} {id : String} {c : MemoryCandidate}
    (h : t.pendingCandidate id = .ok c) :
    t.candidates.get id = some c ∧ c.review_state = .pending := by
  obtain ⟨c', hget, hcheck⟩ := bind_ok h
  split at hcheck
  · cases hcheck
  · rename_i hpending
    cases hcheck
    exact ⟨getCandidate_ok hget, not_not.mp hpending⟩

theorem pendingCandidate_of_get {t : MemoryTables} {id : String} {c : MemoryCandidate}
    (h : t.candidates.get id = some c) :
    t.pendingCandidate id = if c.review_state = .pending then .ok c
      else .error (.alreadyReviewed c.review_state id) := by
  have hget : t.getCandidate id = .ok c := by
    rw [MemoryTables.getCandidate, h]
  unfold MemoryTables.pendingCandidate
  rw [hget]
  show (if c.review_state ≠ .pending then _ else _) = _
  by_cases hp : c.review_state = .pending
  · rw [if_neg (not_not.mpr hp), if_pos hp]
    rfl
  · rw [if_pos hp, if_neg hp]

/-! ## Statements -/

/-- A write of one row. -/
inductive Statement where
  | saveEntry (entry : MemoryEntry)
  | saveProfileItem (item : ProfileItem)
  | deleteEntry (entry_id : String)
  | deleteProfileItem (item_id : String)
  | saveCandidate (candidate : MemoryCandidate)
  deriving DecidableEq

def Statement.perform (t : MemoryTables) : Statement → Except ReviewError MemoryTables
  | .saveEntry entry => t.putEntry entry
  | .saveProfileItem item => t.saveProfileItem item
  | .deleteEntry entry_id => .ok { t with entries := t.entries.remove entry_id }
  | .deleteProfileItem item_id => .ok { t with profile := t.profile.remove item_id }
  | .saveCandidate candidate => t.saveCandidate candidate

/-- The statements of a transaction, in order; the first that raises fails the whole. -/
def performAll : List Statement → MemoryTables → Except ReviewError MemoryTables
  | [], t => .ok t
  | s :: rest, t => do
    let t ← s.perform t
    performAll rest t

/-- A statement about targets. -/
def Statement.onTarget : Statement → Bool
  | .saveCandidate _ => false
  | _ => true

theorem saveProfileItem_ok {t t' : MemoryTables} {item : ProfileItem}
    (h : t.saveProfileItem item = .ok t') :
    ∃ hfinite : item.finite = true, t' = { t with profile := t.profile.put item hfinite } := by
  unfold MemoryTables.saveProfileItem at h
  split at h
  · rename_i hfinite
    cases h
    exact ⟨hfinite, rfl⟩
  · cases h

theorem perform_onTarget {t t' : MemoryTables} {s : Statement} (hs : s.onTarget = true)
    (h : s.perform t = .ok t') : t'.candidates = t.candidates := by
  cases s with
  | saveCandidate c => cases hs
  | deleteEntry id => cases h; rfl
  | deleteProfileItem id => cases h; rfl
  | saveEntry entry =>
    have hput : t.putEntry entry = .ok t' := h
    unfold MemoryTables.putEntry at hput
    split at hput
    · cases hput; rfl
    · cases hput
  | saveProfileItem item =>
    obtain ⟨_, rfl⟩ := saveProfileItem_ok h
    rfl

theorem saveCandidate_ok {t t' : MemoryTables} {c : MemoryCandidate}
    (h : t.saveCandidate c = .ok t') :
    c.finite = true ∧ t'.entries = t.entries ∧ t'.profile = t.profile ∧
      ∀ id, t'.candidates.get id = if id = c.id then some c else t.candidates.get id := by
  unfold MemoryTables.saveCandidate at h
  split at h
  · rename_i hfinite
    cases h
    exact ⟨hfinite, rfl, rfl, Shelf.get_put _ c hfinite⟩
  · cases h

theorem performAll_candidates {c : MemoryCandidate} : ∀ {writes : List Statement}
    {t t' : MemoryTables}, (∀ s ∈ writes, s.onTarget = true) →
    performAll (writes ++ [.saveCandidate c]) t = .ok t' →
    ∀ id, t'.candidates.get id = if id = c.id then some c else t.candidates.get id
  | [], t, t', _, h => by
    obtain ⟨t₁, hsave, hend⟩ := bind_ok h
    cases hend
    exact (saveCandidate_ok hsave).2.2.2
  | s :: writes, t, t', hwrites, h => by
    obtain ⟨t₁, hs, hrest⟩ := bind_ok h
    obtain ⟨hhead, htail⟩ := List.forall_mem_cons.mp hwrites
    intro id
    rw [performAll_candidates htail hrest id, perform_onTarget hhead hs]

/-! ## Transactions -/

inductive ReviewTarget where
  | entry (entry : MemoryEntry)
  | profileItem (item : ProfileItem)
  deriving DecidableEq

namespace ReviewTarget

def id : ReviewTarget → String
  | .entry e => e.id
  | .profileItem item => item.id

def saved : ReviewTarget → Statement
  | .entry e => .saveEntry e
  | .profileItem item => .saveProfileItem item

def deleted : ReviewTarget → Statement
  | .entry e => .deleteEntry e.id
  | .profileItem item => .deleteProfileItem item.id

@[simp]
theorem saved_onTarget (target : ReviewTarget) : target.saved.onTarget = true := by
  cases target <;> rfl

@[simp]
theorem deleted_onTarget (target : ReviewTarget) : target.deleted.onTarget = true := by
  cases target <;> rfl

end ReviewTarget

inductive TargetReviewState where
  | draft | reviewed
  deriving DecidableEq, Repr

/-- What a call draws from outside: a `uuid4().hex` and the reading of the clock. -/
structure Readings where
  fresh : String
  now : String
  deriving DecidableEq

/-- What a transaction writes, and what it returns. -/
structure Commit where
  statements : List Statement
  target : ReviewTarget
  deriving DecidableEq

/-- What a call does once its candidate has been found pending. -/
inductive ReviewRoute where
  | create
  | merge (target_id : String)
  | delete (target_id : String)
  deriving DecidableEq

/-- What saving makes of a target. -/
def ReviewTarget.admitted (target : ReviewTarget) (now : String) :
    Except ReviewError ReviewTarget :=
  match target with
  | .profileItem item => .ok (.profileItem item)
  | .entry e => do
    let admitted ← e.admitted now
    return .entry admitted

def promoteTarget (target : ReviewTarget) (target_review_state : TargetReviewState)
    (now : String) : Except ReviewError Commit :=
  match target with
  | .profileItem _ => .ok ⟨[], target⟩
  | .entry entry =>
    if target_review_state = .draft ∨ entry.review_state = .quarantined then .ok ⟨[], target⟩
    else do
      let promoted ← { entry with review_state := .reviewed, updated_at := now }.admitted now
      return ⟨[.saveEntry promoted], .entry promoted⟩

section

variable (uuid5 : String → String)

def newTarget (c : MemoryCandidate) (r : Readings) : Except ReviewError ReviewTarget :=
  if c.type = "profile_fact" then .ok (.profileItem (ProfileItem.fromCandidate uuid5 c r.now))
  else do
    let entry ← c.toEntry r.fresh r.now
    return .entry entry

def getTarget (t : MemoryTables) (c : MemoryCandidate) (target_id : String) :
    Except ReviewError ReviewTarget :=
  if c.type = "profile_fact" then do
    let item ← t.getProfileItem target_id
    return .profileItem item
  else do
    let entry ← t.getEntry target_id
    return .entry entry

/-- The target that `_merge_target` makes. -/
def mergedTarget (t : MemoryTables) (c : MemoryCandidate) (target_id : String) (now : String) :
    Except ReviewError ReviewTarget := do
  match ← getTarget t c target_id with
  | .profileItem item => return .profileItem (item.merged c now)
  | .entry entry => return .entry (entry.merged c now)

/-- The body of the transaction of a create candidate. -/
def createCommit (c : MemoryCandidate) (target_review_state : TargetReviewState) (r : Readings) :
    Except ReviewError Commit := do
  let target ← newTarget uuid5 c r
  let target ← target.admitted r.now
  let promoted ← promoteTarget target target_review_state r.now
  return ⟨target.saved :: promoted.statements ++
    [.saveCandidate (c.accepted promoted.target.id r.now)], promoted.target⟩

/-- The body of the transaction of `merge`.  What is promoted is the merged target, not what saving
    made of it. -/
def mergeCommit (t : MemoryTables) (c : MemoryCandidate) (target_id : String)
    (target_review_state : TargetReviewState) (r : Readings) : Except ReviewError Commit := do
  let merged ← mergedTarget t c target_id r.now
  let saved ← merged.admitted r.now
  let promoted ← promoteTarget merged target_review_state r.now
  return ⟨saved.saved :: promoted.statements ++
    [.saveCandidate (c.accepted target_id r.now)], promoted.target⟩

/-- The body of the transaction of a delete candidate. -/
def deleteCommit (t : MemoryTables) (c : MemoryCandidate) (target_id : String) (r : Readings) :
    Except ReviewError Commit := do
  let target ← getTarget t c target_id
  return ⟨[target.deleted, .saveCandidate (c.accepted target.id r.now)], target⟩

def routeCommit (t : MemoryTables) (c : MemoryCandidate) (route : ReviewRoute)
    (target_review_state : TargetReviewState) (r : Readings) : Except ReviewError Commit :=
  match route with
  | .create => createCommit uuid5 c target_review_state r
  | .merge target_id => mergeCommit t c target_id target_review_state r
  | .delete target_id => deleteCommit t c target_id r

/-- A transaction from its begin to its commit. -/
def transact (t : MemoryTables) (c : MemoryCandidate) (route : ReviewRoute)
    (target_review_state : TargetReviewState) (r : Readings) :
    Except ReviewError (MemoryTables × ReviewTarget) := do
  let commit ← routeCommit uuid5 t c route target_review_state r
  let t ← performAll commit.statements t
  return (t, commit.target)

/-! ## The operations -/

/-- Where `accept` goes with a pending candidate. -/
def reviewRoute (c : MemoryCandidate) : Except ReviewError ReviewRoute :=
  match c.action, c.target_entry_id with
  | .create, _ => .ok .create
  | .delete, some target_id => .ok (.delete target_id)
  | .update, some target_id | .merge, some target_id => .ok (.merge target_id)
  | action, none => .error (.targetRequired action c.id)

def merge (t : MemoryTables) (candidate_id target_id : String)
    (target_review_state : TargetReviewState) (r : Readings) :
    Except ReviewError (MemoryTables × ReviewTarget) := do
  let c ← t.pendingCandidate candidate_id
  transact uuid5 t c (.merge target_id) target_review_state r

/-- `accept`.  An update or merge candidate goes through `merge`, which reads it again. -/
def accept (t : MemoryTables) (candidate_id : String) (target_review_state : TargetReviewState)
    (r : Readings) : Except ReviewError (MemoryTables × ReviewTarget) := do
  let c ← t.pendingCandidate candidate_id
  match ← reviewRoute c with
  | .merge target_id => merge uuid5 t candidate_id target_id target_review_state r
  | route => transact uuid5 t c route target_review_state r

end

/-- Read a candidate, change it, and save it. -/
def rewriteCandidate (t : MemoryTables) (candidate_id : String)
    (change : MemoryCandidate → MemoryCandidate) :
    Except ReviewError (MemoryTables × MemoryCandidate) := do
  let c ← t.getCandidate candidate_id
  let t ← t.saveCandidate (change c)
  return (t, change c)

def reject (t : MemoryTables) (candidate_id now : String) :
    Except ReviewError (MemoryTables × MemoryCandidate) :=
  rewriteCandidate t candidate_id fun c => c.rejected now

def edit (t : MemoryTables) (candidate_id : String) (changes : CandidateChanges) (now : String) :
    Except ReviewError (MemoryTables × MemoryCandidate) :=
  rewriteCandidate t candidate_id fun c => c.edited changes now

/-! ## What they do -/

variable {uuid5 : String → String} {t t' : MemoryTables} {c : MemoryCandidate} {id : String}
  {state : TargetReviewState} {r : Readings} {route : ReviewRoute} {commit : Commit}
  {target : ReviewTarget} {change : MemoryCandidate → MemoryCandidate}

theorem getCandidate_of_get (hget : t.candidates.get id = some c) : t.getCandidate id = .ok c := by
  rw [MemoryTables.getCandidate, hget]

theorem rewriteCandidate_of_none (hget : t.candidates.get id = none) :
    rewriteCandidate t id change = .error (.candidateNotFound id) := by
  have hmissing : t.getCandidate id = .error (.candidateNotFound id) := by
    rw [MemoryTables.getCandidate, hget]
  unfold rewriteCandidate
  rw [hmissing]
  rfl

/-- **A rewrite goes through** on a stored candidate, whatever its state, if the numbers can be
    stored. -/
theorem rewriteCandidate_of_get (hget : t.candidates.get id = some c)
    (hid : (change c).id = c.id) (hfinite : (change c).finite = true) :
    ∃ t', rewriteCandidate t id change = .ok (t', change c) ∧ ∀ other,
      t'.candidates.get other = if other = id then some (change c) else t.candidates.get other := by
  have hsave : t.saveCandidate (change c) =
      .ok { t with candidates := t.candidates.put (change c) hfinite } := dif_pos hfinite
  have hkey : (change c).id = id := hid.trans (t.candidates.key_of_get hget)
  refine ⟨{ t with candidates := t.candidates.put (change c) hfinite }, ?_, fun other => ?_⟩
  · unfold rewriteCandidate
    rw [getCandidate_of_get hget]
    show (t.saveCandidate (change c) >>= _) = _
    rw [hsave]
    rfl
  · show (t.candidates.put _ hfinite).get other = _
    rw [Shelf.get_put, hkey]

theorem rewriteCandidate_not_finite (hget : t.candidates.get id = some c)
    (hfinite : (change c).finite = false) : rewriteCandidate t id change = .error .notFinite := by
  have hnot : ¬ (change c).finite = true := by simp [hfinite]
  have hsave : t.saveCandidate (change c) = .error .notFinite := dif_neg hnot
  unfold rewriteCandidate
  rw [getCandidate_of_get hget]
  show (t.saveCandidate (change c) >>= _) = _
  rw [hsave]
  rfl

theorem promoteTarget_onTarget (h : promoteTarget target state r.now = .ok commit) :
    ∀ s ∈ commit.statements, s.onTarget = true := by
  unfold promoteTarget at h
  split at h
  · cases h
    exact fun s hs => nomatch hs
  · split at h
    · cases h
      exact fun s hs => nomatch hs
    · obtain ⟨promoted, -, hend⟩ := bind_ok h
      cases hend
      intro s hs
      rw [List.mem_singleton.mp hs]
      rfl

/-- **Every transaction ends with the acceptance of its candidate**, and what it writes before that
    are targets. -/
theorem commit_shape (h : routeCommit uuid5 t c route state r = .ok commit) :
    ∃ writes target_id, commit.statements =
        writes ++ [.saveCandidate (c.accepted target_id r.now)] ∧
      (∀ s ∈ writes, s.onTarget = true) := by
  cases route with
  | create =>
    obtain ⟨target, -, h⟩ := bind_ok h
    obtain ⟨admitted, -, h⟩ := bind_ok h
    obtain ⟨promoted, hpromoted, h⟩ := bind_ok h
    cases h
    exact ⟨_ :: _, _, rfl, List.forall_mem_cons.mpr
      ⟨admitted.saved_onTarget, promoteTarget_onTarget hpromoted⟩⟩
  | merge target_id =>
    obtain ⟨merged, -, h⟩ := bind_ok h
    obtain ⟨saved, -, h⟩ := bind_ok h
    obtain ⟨promoted, hpromoted, h⟩ := bind_ok h
    cases h
    exact ⟨_ :: _, _, rfl, List.forall_mem_cons.mpr
      ⟨saved.saved_onTarget, promoteTarget_onTarget hpromoted⟩⟩
  | delete target_id =>
    obtain ⟨target, -, h⟩ := bind_ok h
    cases h
    exact ⟨[target.deleted], _, rfl, List.forall_mem_singleton.mpr target.deleted_onTarget⟩

theorem transact_candidates (h : transact uuid5 t c route state r = .ok (t', target)) :
    ∃ target_id, ∀ id, t'.candidates.get id =
      if id = c.id then some (c.accepted target_id r.now) else t.candidates.get id := by
  obtain ⟨commit, hcommit, h⟩ := bind_ok h
  obtain ⟨t₁, hperform, h⟩ := bind_ok h
  cases h
  obtain ⟨writes, target_id, hstatements, hwrites⟩ := commit_shape hcommit
  rw [hstatements] at hperform
  exact ⟨target_id, performAll_candidates hwrites hperform⟩

/-- **A merge that goes through found its candidate pending and leaves it accepted.** -/
theorem merge_cases {target_id : String}
    (h : merge uuid5 t id target_id state r = .ok (t', target)) :
    ∃ c accepted_id, t.candidates.get id = some c ∧ c.review_state = .pending ∧
      ∀ other, t'.candidates.get other =
        if other = id then some (c.accepted accepted_id r.now) else t.candidates.get other := by
  obtain ⟨c, hc, h⟩ := bind_ok h
  obtain ⟨hget, hpending⟩ := pendingCandidate_ok hc
  obtain ⟨accepted_id, hcandidates⟩ := transact_candidates h
  rw [t.candidates.key_of_get hget] at hcandidates
  exact ⟨c, accepted_id, hget, hpending, hcandidates⟩

/-- **So did an accept.** -/
theorem accept_cases (h : accept uuid5 t id state r = .ok (t', target)) :
    ∃ c accepted_id, t.candidates.get id = some c ∧ c.review_state = .pending ∧
      ∀ other, t'.candidates.get other =
        if other = id then some (c.accepted accepted_id r.now) else t.candidates.get other := by
  obtain ⟨c, hc, h⟩ := bind_ok h
  obtain ⟨route, hroute, h⟩ := bind_ok h
  obtain ⟨hget, hpending⟩ := pendingCandidate_ok hc
  cases route with
  | merge target_id => exact merge_cases h
  | create | delete =>
    obtain ⟨accepted_id, hcandidates⟩ := transact_candidates h
    rw [t.candidates.key_of_get hget] at hcandidates
    exact ⟨c, accepted_id, hget, hpending, hcandidates⟩

end NuSelf.Memory
