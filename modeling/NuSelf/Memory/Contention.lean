/-
  Concurrent acceptance of one candidate.

  Any number of `accept` and `merge` calls work on one candidate.  A call reads the committed
  tables and checks that the candidate is pending; only then it begins its transaction, which holds
  the one write lock of the database until it commits or is rolled back.  Its writes stay in a
  working copy until then, and it never looks at the candidate again.

  1. `transaction_commits` — a transaction that commits does what the sequential `transact` does on
     the tables it began with;
  2. `one_acceptance_step_iff` — a step lets a second call through exactly when it commits on a
     candidate that is no longer pending;
  3. `one_acceptance_iff` — so does a run.
-/
import NuSelf.Lib.Run
import NuSelf.Memory.Candidates

namespace NuSelf.Memory

open NuSelf.Lib

/-! ## Calls -/

/-- A call on the candidate. -/
structure ReviewCall where
  /-- `merge` into this target, `accept` without one. -/
  target_id : Option String
  target_review_state : TargetReviewState
  r : Readings

inductive CallPhase where
  | idle
  /-- Before its read. -/
  | called (call : ReviewCall)
  /-- `accept` has called `merge`, which is to read again. -/
  | merging (call : ReviewCall) (target_id : String)
  /-- The checks are over, the transaction is to begin. -/
  | checked (call : ReviewCall) (c : MemoryCandidate) (route : ReviewRoute)
  | writing (call : ReviewCall) (c : MemoryCandidate) (route : ReviewRoute)
  | returned (target : ReviewTarget)
  /-- By a check of its own, or by the storage. -/
  | raised (error : Option ReviewError)

namespace CallPhase

def isReturned : CallPhase → Bool
  | .returned _ => true
  | _ => false

/-- The candidate of a call whose checks are over. -/
def read : CallPhase → Option MemoryCandidate
  | .checked _ c _ => some c
  | .writing _ c _ => some c
  | _ => none

/-- A call that has seen the candidate pending. -/
def passed : CallPhase → Bool
  | .merging _ _ => true
  | phase => phase.read.isSome

/-- A call under way. -/
def active : CallPhase → Bool
  | .called _ => true
  | phase => phase.passed

end CallPhase

/-- The holder of the write lock. -/
structure Writer where
  call : Nat
  working : MemoryTables
  rest : List Statement
  target : ReviewTarget

structure Contention where
  committed : MemoryTables
  writer : Option Writer
  calls : Nat → CallPhase

def Contention.start (t : MemoryTables) : Contention := ⟨t, none, fun _ => .idle⟩

def Contention.setCall (s : Contention) (n : Nat) (phase : CallPhase) : Contention :=
  { s with calls := fun m => if m = n then phase else s.calls m }

inductive ContentionInput where
  | call (n : Nat) (call : ReviewCall)
  | read (n : Nat)
  | begin (n : Nat)
  | write (n : Nat)
  | commit (n : Nat)
  /-- The storage raises: a locked database, a failing write. -/
  | fail (n : Nat)
  deriving Inhabited

section

variable (uuid5 : String → String) (candidate_id : String)

/-- The read of `merge`, and its check. -/
def readMerge (s : Contention) (call : ReviewCall) (target_id : String) : CallPhase :=
  match s.committed.pendingCandidate candidate_id with
  | .error e => .raised (some e)
  | .ok c => .checked call c (.merge target_id)

/-- The read of `accept`, its checks, and where it goes from there. -/
def readAccept (s : Contention) (call : ReviewCall) : CallPhase :=
  match s.committed.pendingCandidate candidate_id with
  | .error e => .raised (some e)
  | .ok c =>
    match reviewRoute c with
    | .error e => .raised (some e)
    | .ok (.merge target_id) => .merging call target_id
    | .ok route => .checked call c route

/-- The phase after a read. -/
def readPhase (s : Contention) : CallPhase → CallPhase
  | .called call =>
    match call.target_id with
    | some target_id => readMerge candidate_id s call target_id
    | none => readAccept candidate_id s call
  | .merging call target_id => readMerge candidate_id s call target_id
  | phase => phase

/-- `BEGIN IMMEDIATE`, and the reads of the transaction; the call waits while there is a writer. -/
def beginCall (s : Contention) (n : Nat) : Contention :=
  match s.calls n, s.writer with
  | .checked call c route, none =>
    match routeCommit uuid5 s.committed c route call.target_review_state call.r with
    | .error e => s.setCall n (.raised (some e))
    | .ok commit =>
      { s.setCall n (.writing call c route) with
        writer := some ⟨n, s.committed, commit.statements, commit.target⟩ }
  | _, _ => s

/-- One step of a call; a step that its call is not up to does nothing. -/
def contentionStep (s : Contention) : ContentionInput → Contention × Unit
  | .call n call =>
    match s.calls n with
    | .idle => (s.setCall n (.called call), ())
    | _ => (s, ())
  | .read n => (s.setCall n (readPhase candidate_id s (s.calls n)), ())
  | .begin n => (beginCall uuid5 s n, ())
  | .write n =>
    match s.writer with
    | none => (s, ())
    | some w =>
      if w.call ≠ n then (s, ())
      else
        match w.rest with
        | [] => (s, ())
        | statement :: rest =>
          match statement.perform w.working with
          | .error e => ({ s.setCall n (.raised (some e)) with writer := none }, ())
          | .ok working => ({ s with writer := some { w with working, rest } }, ())
  | .commit n =>
    match s.writer with
    | none => (s, ())
    | some w =>
      if w.call ≠ n ∨ w.rest ≠ [] then (s, ())
      else
        ({ s.setCall n (.returned w.target) with committed := w.working, writer := none }, ())
  | .fail n =>
    if (s.calls n).active = false then (s, ())
    else
      let writer := s.writer.filter fun w => decide (w.call ≠ n)
      ({ s.setCall n (.raised none) with writer }, ())

end

/-! ## At most one -/

/-- The collections of targets are the same. -/
def MemoryTables.SameTargets (t t' : MemoryTables) : Prop :=
  t'.entries = t.entries ∧ t'.profile = t.profile

/-- The candidate is stored, and pending. -/
def MemoryTables.StoredPending (t : MemoryTables) (candidate_id : String) : Prop :=
  ∃ c, t.candidates.get candidate_id = some c ∧ c.review_state = .pending

/-- A step that leaves at most one call through: no two calls have returned, and the targets change
    in the commit of the first one only. -/
structure OneAcceptance (e : Step Contention ContentionInput Unit) : Prop where
  one : ∀ n m, (e.after.calls n).isReturned = true → (e.after.calls m).isReturned = true → n = m
  targets : e.before.committed.SameTargets e.after.committed ∨
    ∃ n, e.input = .commit n ∧ (e.after.calls n).isReturned = true ∧
      ∀ m, (e.before.calls m).isReturned = false

/-- The writer that a commit of the call commits. -/
def Contention.committing (s : Contention) (n : Nat) : Option Writer :=
  s.writer.filter fun w => decide (w.call = n ∧ w.rest = [])

/-- The condition on a step: a transaction commits while the candidate is pending. -/
def CommitsPending (candidate_id : String) (s : Contention) : ContentionInput → Prop
  | .commit n => (s.committing n).isSome = true → s.committed.StoredPending candidate_id
  | _ => True

/-- A transaction under way: the rest of it makes of the working copy what the whole of it makes of
    the committed tables. -/
structure UnderWay (uuid5 : String → String) (candidate_id : String) (s : Contention)
    (w : Writer) : Prop where
  phase : ∃ call c route commit, s.calls w.call = .writing call c route ∧ c.id = candidate_id ∧
    routeCommit uuid5 s.committed c route call.target_review_state call.r = .ok commit ∧
    performAll w.rest w.working = performAll commit.statements s.committed ∧
    w.target = commit.target

structure ContentionInv (uuid5 : String → String) (candidate_id : String) (s : Contention) :
    Prop where
  one : ∀ n m, (s.calls n).isReturned = true → (s.calls m).isReturned = true → n = m
  /-- The call that returned has accepted the candidate. -/
  accepted : ∀ n, (s.calls n).isReturned = true → ¬ s.committed.StoredPending candidate_id
  /-- Without it nobody else has. -/
  opened : (∃ n, (s.calls n).passed = true) → ¬ s.committed.StoredPending candidate_id →
    ∃ n, (s.calls n).isReturned = true
  read : ∀ n c, (s.calls n).read = some c → c.id = candidate_id
  writer : ∀ w, s.writer = some w → UnderWay uuid5 candidate_id s w

variable {uuid5 : String → String} {candidate_id : String} {s s' : Contention} {w : Writer}

theorem contentionInv_start (t : MemoryTables) :
    ContentionInv uuid5 candidate_id (Contention.start t) where
  one := fun _ _ h => nomatch h
  accepted := fun _ h => nomatch h
  opened := fun ⟨_, h⟩ => nomatch h
  read := fun _ _ h => nomatch h
  writer := fun _ h => nomatch h

/-! ## What the steps keep -/

theorem UnderWay.transfer (h : UnderWay uuid5 candidate_id s w)
    (hcommitted : s'.committed = s.committed) (hcall : s'.calls w.call = s.calls w.call) :
    UnderWay uuid5 candidate_id s' w := by
  obtain ⟨call, c, route, commit, hphase, hid, hcommit, hrest, htarget⟩ := h.phase
  refine ⟨call, c, route, commit, hcall.trans hphase, hid, ?_, ?_, htarget⟩
  · rw [hcommitted, hcommit]
  · rw [hcommitted, hrest]

/-- **A transaction that commits** does what `transact` does on the committed tables. -/
theorem transaction_commits (h : UnderWay uuid5 candidate_id s w) (hrest : w.rest = []) :
    ∃ call c route, s.calls w.call = .writing call c route ∧ c.id = candidate_id ∧
      transact uuid5 s.committed c route call.target_review_state call.r =
        .ok (w.working, w.target) := by
  obtain ⟨call, c, route, commit, hphase, hid, hcommit, hperform, htarget⟩ := h.phase
  refine ⟨call, c, route, hphase, hid, ?_⟩
  rw [hrest] at hperform
  unfold transact
  rw [hcommit]
  show (performAll commit.statements s.committed >>= _) = _
  rw [← hperform, htarget]
  rfl

theorem transaction_accepts (h : UnderWay uuid5 candidate_id s w) (hrest : w.rest = []) :
    ¬ w.working.StoredPending candidate_id := by
  obtain ⟨call, c, route, -, hid, htransact⟩ := transaction_commits h hrest
  obtain ⟨accepted_id, hcandidates⟩ := transact_candidates htransact
  rintro ⟨c', hget, hpending⟩
  rw [hcandidates, if_pos hid.symm] at hget
  rw [← Option.some.inj hget, MemoryCandidate.accepted_review_state] at hpending
  cases hpending

theorem ContentionInv.quiet (h : ContentionInv uuid5 candidate_id s)
    (hcommitted : s'.committed = s.committed)
    (hreturned : ∀ m, (s'.calls m).isReturned = (s.calls m).isReturned)
    (hpassed : (∃ m, (s'.calls m).passed = true) →
      (∃ m, (s.calls m).passed = true) ∨ s.committed.StoredPending candidate_id)
    (hread : ∀ m c, (s'.calls m).read = some c → c.id = candidate_id)
    (hwriter : ∀ w, s'.writer = some w → UnderWay uuid5 candidate_id s' w) :
    ContentionInv uuid5 candidate_id s' where
  one := fun n m hn hm => h.one n m (by rw [← hreturned, hn]) (by rw [← hreturned, hm])
  accepted := fun n hn => by
    rw [hcommitted]
    exact h.accepted n (by rw [← hreturned, hn])
  opened := fun hex hnot => by
    rw [hcommitted] at hnot
    rcases hpassed hex with hbefore | hpending
    · obtain ⟨n, hn⟩ := h.opened hbefore hnot
      exact ⟨n, by rw [hreturned, hn]⟩
    · exact absurd hpending hnot
  read := hread
  writer := hwriter

theorem readPhase_cases (s : Contention) (phase : CallPhase) :
    readPhase candidate_id s phase = phase ∨
    (phase.read = none ∧ phase.isReturned = false ∧
      ((∃ e, readPhase candidate_id s phase = .raised e) ∨
        (s.committed.StoredPending candidate_id ∧
          ((∃ call target_id, readPhase candidate_id s phase = .merging call target_id) ∨
            ∃ call c route, readPhase candidate_id s phase = .checked call c route ∧
              c.id = candidate_id)))) := by
  have hmerge : ∀ call target_id,
      (∃ e, readMerge candidate_id s call target_id = .raised e) ∨
      (s.committed.StoredPending candidate_id ∧ ∃ call' c route,
        readMerge candidate_id s call target_id = .checked call' c route ∧ c.id = candidate_id) := by
    intro call target_id
    unfold readMerge
    cases hcheck : s.committed.pendingCandidate candidate_id with
    | error e => exact Or.inl ⟨_, rfl⟩
    | ok c =>
      obtain ⟨hget, hpending⟩ := pendingCandidate_ok hcheck
      exact Or.inr ⟨⟨c, hget, hpending⟩, _, _, _, rfl, s.committed.candidates.key_of_get hget⟩
  cases phase with
  | idle | checked | writing | returned | raised => exact Or.inl rfl
  | merging call target_id =>
    refine Or.inr ⟨rfl, rfl, ?_⟩
    rcases hmerge call target_id with hraised | ⟨hpending, hchecked⟩
    · exact Or.inl hraised
    · exact Or.inr ⟨hpending, Or.inr hchecked⟩
  | called call =>
    refine Or.inr ⟨rfl, rfl, ?_⟩
    unfold readPhase
    dsimp only
    split
    · rename_i target_id _
      rcases hmerge call target_id with hraised | ⟨hpending, hchecked⟩
      · exact Or.inl hraised
      · exact Or.inr ⟨hpending, Or.inr hchecked⟩
    · unfold readAccept
      cases hcheck : s.committed.pendingCandidate candidate_id with
      | error e => exact Or.inl ⟨_, rfl⟩
      | ok c =>
        obtain ⟨hget, hpending⟩ := pendingCandidate_ok hcheck
        dsimp only
        split
        · exact Or.inl ⟨_, rfl⟩
        · exact Or.inr ⟨⟨c, hget, hpending⟩, Or.inl ⟨_, _, rfl⟩⟩
        · exact Or.inr ⟨⟨c, hget, hpending⟩, Or.inr ⟨_, _, _, rfl,
            s.committed.candidates.key_of_get hget⟩⟩

theorem ContentionInv.moveCall (h : ContentionInv uuid5 candidate_id s) (n : Nat) {phase : CallPhase}
    {writer : Option Writer} (hold : (s.calls n).isReturned = false)
    (hnew : phase.isReturned = false)
    (hpassed : phase.passed = true → (s.calls n).passed = true ∨
      s.committed.StoredPending candidate_id)
    (hread : ∀ c, phase.read = some c → c.id = candidate_id)
    (hwriter : ∀ w, writer = some w →
      UnderWay uuid5 candidate_id { s.setCall n phase with writer := writer } w) :
    ContentionInv uuid5 candidate_id { s.setCall n phase with writer := writer } := by
  have hcall : ∀ m, ({ s.setCall n phase with writer := writer } : Contention).calls m =
      if m = n then phase else s.calls m := fun _ => rfl
  refine h.quiet rfl (fun m => ?_) (fun hex => ?_) (fun m c hc => ?_) hwriter
  · rw [hcall]
    by_cases hm : m = n
    · rw [if_pos hm, hnew, hm, hold]
    · rw [if_neg hm]
  · obtain ⟨m, hm⟩ := hex
    rw [hcall] at hm
    by_cases hmn : m = n
    · rw [if_pos hmn] at hm
      rcases hpassed hm with hbefore | hpending
      · exact Or.inl ⟨n, hbefore⟩
      · exact Or.inr hpending
    · rw [if_neg hmn] at hm
      exact Or.inl ⟨m, hm⟩
  · rw [hcall] at hc
    by_cases hmn : m = n
    · rw [if_pos hmn] at hc
      exact hread c hc
    · rw [if_neg hmn] at hc
      exact h.read m c hc

theorem ContentionInv.others (h : ContentionInv uuid5 candidate_id s) {n : Nat} {phase : CallPhase}
    {writer : Option Writer} (hw : s.writer = some w) (hne : w.call ≠ n) :
    UnderWay uuid5 candidate_id { s.setCall n phase with writer := writer } w := by
  have hcall : ({ s.setCall n phase with writer := writer } : Contention).calls w.call =
      s.calls w.call := if_neg hne
  exact (h.writer w hw).transfer rfl hcall

theorem ContentionInv.writing (h : ContentionInv uuid5 candidate_id s) (hw : s.writer = some w) :
    ∃ call c route, s.calls w.call = .writing call c route := by
  obtain ⟨call, c, route, -, hphase, -⟩ := (h.writer w hw).phase
  exact ⟨call, c, route, hphase⟩

theorem inv_begin (h : ContentionInv uuid5 candidate_id s) (n : Nat) :
    ContentionInv uuid5 candidate_id (beginCall uuid5 s n) ∧
      (beginCall uuid5 s n).committed = s.committed := by
  unfold beginCall
  split
  · rename_i call c route hphase hwriter
    have hid : c.id = candidate_id := h.read n c (by rw [hphase]; rfl)
    have hold : (s.calls n).isReturned = false := by rw [hphase]; rfl
    split
    · rename_i e _
      refine ⟨h.moveCall n hold rfl (fun hp => nomatch hp) (fun _ hc => nomatch hc) ?_, rfl⟩
      intro w hw
      rw [hwriter] at hw
      cases hw
    · rename_i commit hcommit
      refine ⟨h.moveCall n hold rfl (fun _ => Or.inl ?_) ?_ ?_, rfl⟩
      · rw [hphase]
        rfl
      · intro c' hc'
        rw [← Option.some.inj hc']
        exact hid
      · intro w hw
        -- nothing is written yet
        obtain rfl := Option.some.inj hw
        exact ⟨call, c, route, commit, if_pos rfl, hid, hcommit, rfl, rfl⟩
  · exact ⟨h, rfl⟩

theorem inv_write (h : ContentionInv uuid5 candidate_id s) (n : Nat) :
    ContentionInv uuid5 candidate_id (contentionStep uuid5 candidate_id s (.write n)).1 ∧
      (contentionStep uuid5 candidate_id s (.write n)).1.committed = s.committed := by
  simp only [contentionStep]
  split
  · exact ⟨h, rfl⟩
  · rename_i w hw
    obtain ⟨call, c, route, hphase⟩ := h.writing hw
    by_cases hne : w.call ≠ n
    · rw [if_pos hne]
      exact ⟨h, rfl⟩
    · rw [if_neg hne]
      obtain rfl : w.call = n := not_not.mp hne
      split
      · exact ⟨h, rfl⟩
      · rename_i statement rest hrest
        split
        · refine ⟨h.moveCall w.call ?_ rfl (fun hp => nomatch hp) (fun _ hc => nomatch hc)
            (fun _ hw' => nomatch hw'), rfl⟩
          rw [hphase]
          rfl
        · rename_i working hperform
          refine ⟨h.quiet rfl (fun _ => rfl) (fun hex => Or.inl hex) h.read (fun w' hw' => ?_), rfl⟩
          obtain rfl := Option.some.inj hw'
          obtain ⟨call, c, route, commit, hphase, hid, hcommit, hall, htarget⟩ :=
            (h.writer w hw).phase
          refine ⟨call, c, route, commit, hphase, hid, hcommit, ?_, htarget⟩
          -- the first of the remaining statements has been performed
          rw [← hall, hrest]
          show performAll rest working = (statement.perform w.working >>= _)
          rw [hperform]
          rfl

theorem inv_read (h : ContentionInv uuid5 candidate_id s) (n : Nat) :
    ContentionInv uuid5 candidate_id (contentionStep uuid5 candidate_id s (.read n)).1 := by
  have hwriter : ∀ phase, (s.calls n).read = none → ∀ w, (s.setCall n phase).writer = some w →
      UnderWay uuid5 candidate_id (s.setCall n phase) w := by
    intro phase hnone w hw
    have hwn : w.call ≠ n := by
      rintro rfl
      obtain ⟨call, c, route, hphase⟩ := h.writing hw
      rw [hphase] at hnone
      cases hnone
    exact @ContentionInv.others _ _ _ _ h n phase s.writer hw hwn
  simp only [contentionStep]
  rcases @readPhase_cases candidate_id s (s.calls n) with hsame | ⟨hnone, hold, hmoved⟩
  · rw [hsame]
    have hself : s.setCall n (s.calls n) = s := by
      unfold Contention.setCall
      have hcalls : (fun m => if m = n then s.calls n else s.calls m) = s.calls := by
        funext m
        by_cases hm : m = n
        · rw [if_pos hm, hm]
        · rw [if_neg hm]
      rw [hcalls]
    rw [hself]
    exact h
  · rcases hmoved with ⟨e, hraised⟩ | ⟨hpending, hmoved⟩
    · rw [hraised]
      exact h.moveCall n hold rfl (fun hp => nomatch hp) (fun _ hc => nomatch hc)
        (hwriter _ hnone)
    · rcases hmoved with ⟨call, target_id, hmerging⟩ | ⟨call, c, route, hchecked, hid⟩
      · rw [hmerging]
        exact h.moveCall n hold rfl (fun _ => Or.inr hpending) (fun _ hc => nomatch hc)
          (hwriter _ hnone)
      · rw [hchecked]
        refine h.moveCall n hold rfl (fun _ => Or.inr hpending) (fun c' hc' => ?_)
          (hwriter _ hnone)
        rw [← Option.some.inj hc']
        exact hid

theorem inv_fail (h : ContentionInv uuid5 candidate_id s) (n : Nat) :
    ContentionInv uuid5 candidate_id (contentionStep uuid5 candidate_id s (.fail n)).1 ∧
      (contentionStep uuid5 candidate_id s (.fail n)).1.committed = s.committed := by
  simp only [contentionStep]
  split
  · exact ⟨h, rfl⟩
  · rename_i hactive
    have hold : (s.calls n).isReturned = false := by
      cases hphase : s.calls n with
      | returned target =>
        rw [hphase] at hactive
        exact absurd rfl hactive
      | idle | called | merging | checked | writing | raised => rfl
    refine ⟨h.moveCall n hold rfl (fun hp => nomatch hp) (fun _ hc => nomatch hc) ?_, rfl⟩
    intro w hw
    obtain ⟨hw, hne⟩ := Option.filter_eq_some_iff.mp hw
    exact h.others hw (of_decide_eq_true hne)

theorem inv_call (h : ContentionInv uuid5 candidate_id s) (n : Nat) (call : ReviewCall) :
    ContentionInv uuid5 candidate_id (contentionStep uuid5 candidate_id s (.call n call)).1 ∧
      (contentionStep uuid5 candidate_id s (.call n call)).1.committed = s.committed := by
  simp only [contentionStep]
  split
  · rename_i hphase
    have hold : (s.calls n).isReturned = false := by rw [hphase]; rfl
    have hmove := @ContentionInv.moveCall _ _ _ h n (.called call) s.writer hold rfl
      (fun hp => nomatch hp) (fun _ hc => nomatch hc)
    refine ⟨hmove ?_, rfl⟩
    intro w hw
    refine h.others hw ?_
    rintro rfl
    obtain ⟨call, c, route, hwriting⟩ := h.writing hw
    rw [hphase] at hwriting
    cases hwriting
  · exact ⟨h, rfl⟩

theorem committing_iff {n : Nat} :
    s.committing n = some w ↔ s.writer = some w ∧ w.call = n ∧ w.rest = [] := by
  unfold Contention.committing
  rw [Option.filter_eq_some_iff, decide_eq_true_iff]

theorem commit_cases (uuid5 : String → String) (candidate_id : String) (s : Contention) (n : Nat) :
    (s.committing n = none ∧ (contentionStep uuid5 candidate_id s (.commit n)).1 = s) ∨
    ∃ w, s.committing n = some w ∧ (contentionStep uuid5 candidate_id s (.commit n)).1 =
      { s.setCall n (.returned w.target) with committed := w.working, writer := none } := by
  simp only [contentionStep]
  split
  · rename_i hnone
    refine Or.inl ⟨?_, rfl⟩
    unfold Contention.committing
    rw [hnone]
    rfl
  · rename_i w hw
    by_cases hbusy : w.call ≠ n ∨ w.rest ≠ []
    · rw [if_pos hbusy]
      refine Or.inl ⟨?_, rfl⟩
      rw [Option.eq_none_iff_forall_ne_some]
      intro w' hw'
      obtain ⟨hsame, hcall, hrest⟩ := committing_iff.mp hw'
      obtain rfl : w = w' := Option.some.inj (hw.symm.trans hsame)
      exact hbusy.elim (fun hne => hne hcall) fun hne => hne hrest
    · rw [if_neg hbusy]
      obtain ⟨hcall, hrest⟩ := not_or.mp hbusy
      exact Or.inr ⟨w, committing_iff.mpr ⟨hw, not_not.mp hcall, not_not.mp hrest⟩, rfl⟩

theorem inv_commit (h : ContentionInv uuid5 candidate_id s) {n : Nat}
    (hw : s.committing n = some w) (hpending : s.committed.StoredPending candidate_id) :
    (∀ m, (s.calls m).isReturned = false) ∧ ContentionInv uuid5 candidate_id
      { s.setCall n (.returned w.target) with committed := w.working, writer := none } := by
  obtain ⟨hwriter, rfl, hrest⟩ := committing_iff.mp hw
  have hnobody : ∀ m, (s.calls m).isReturned = false := by
    intro m
    cases hm : (s.calls m).isReturned with
    | false => rfl
    | true => exact absurd hpending (h.accepted m hm)
  have hcall : ∀ m, ({ s.setCall w.call (.returned w.target) with
      committed := w.working, writer := none } : Contention).calls m =
      if m = w.call then .returned w.target else s.calls m := fun _ => rfl
  have honly : ∀ m, (({ s.setCall w.call (.returned w.target) with
      committed := w.working, writer := none } : Contention).calls m).isReturned = true →
      m = w.call := by
    intro m hm
    rw [hcall] at hm
    by_contra hne
    rw [if_neg hne, hnobody m] at hm
    cases hm
  have hself : (({ s.setCall w.call (.returned w.target) with
      committed := w.working, writer := none } : Contention).calls w.call).isReturned = true := by
    rw [hcall, if_pos rfl]
    rfl
  refine ⟨hnobody, fun n m hn hm => ?_, fun _ _ => transaction_accepts (h.writer w hwriter) hrest,
    fun _ _ => ⟨w.call, hself⟩, fun m c hc => ?_, fun _ hw' => nomatch hw'⟩
  · rw [honly n hn, honly m hm]
  · rw [hcall] at hc
    by_cases hm : m = w.call
    · rw [if_pos hm] at hc
      cases hc
    · rw [if_neg hm] at hc
      exact h.read m c hc

/-- **The step lemma.** -/
theorem contentionInv_step (s : Contention) (i : ContentionInput)
    (h : ContentionInv uuid5 candidate_id s) (hok : CommitsPending candidate_id s i) :
    ContentionInv uuid5 candidate_id (contentionStep uuid5 candidate_id s i).1 := by
  cases i with
  | call n call => exact (inv_call h n call).1
  | read n => exact inv_read h n
  | begin n => exact (inv_begin h n).1
  | write n => exact (inv_write h n).1
  | fail n => exact (inv_fail h n).1
  | commit n =>
    rcases commit_cases uuid5 candidate_id s n with ⟨-, hsame⟩ | ⟨w, hw, hcommitted⟩
    · rw [hsame]
      exact h
    · rw [hcommitted]
      exact (inv_commit h hw (hok (by rw [hw]; rfl))).2

theorem committed_of_not_commit (h : ContentionInv uuid5 candidate_id s) (i : ContentionInput)
    (hi : ∀ n, i ≠ .commit n) :
    (contentionStep uuid5 candidate_id s i).1.committed = s.committed := by
  cases i with
  | call n call => exact (inv_call h n call).2
  | read n => rfl
  | begin n => exact (inv_begin h n).2
  | write n => exact (inv_write h n).2
  | fail n => exact (inv_fail h n).2
  | commit n => exact absurd rfl (hi n)

/-- **A step leaves at most one call through exactly under the condition.** -/
theorem one_acceptance_step_iff (e : Step Contention ContentionInput Unit)
    (he : e.Of (contentionStep uuid5 candidate_id)) (h : ContentionInv uuid5 candidate_id e.before) :
    OneAcceptance e ↔ CommitsPending candidate_id e.before e.input := by
  obtain ⟨s, i, o, s'⟩ := e
  obtain rfl : (contentionStep uuid5 candidate_id s i).1 = s' := he.after_eq
  constructor
  · intro hgood
    cases i with
    | call | read | begin | write | fail => trivial
    | commit n =>
      intro hsome
      obtain ⟨w, hw⟩ := Option.isSome_iff_exists.mp hsome
      by_contra hpending
      obtain ⟨hwriter, rfl, -⟩ := committing_iff.mp hw
      obtain ⟨call, c, route, hphase⟩ := h.writing hwriter
      have hpassed : (s.calls w.call).passed = true := by rw [hphase]; rfl
      -- another call has accepted the candidate, and now this one returns too
      obtain ⟨m, hm⟩ := h.opened ⟨w.call, hpassed⟩ hpending
      have hne : m ≠ w.call := by
        rintro rfl
        rw [hphase] at hm
        cases hm
      rcases commit_cases uuid5 candidate_id s w.call with ⟨hnone, -⟩ | ⟨w', -, hcommitted⟩
      · rw [hnone] at hw
        cases hw
      · have hone := hgood.one m w.call
        dsimp only at hone
        rw [hcommitted] at hone
        refine hne (hone ?_ ?_)
        · show ((if m = w.call then _ else s.calls m) : CallPhase).isReturned = true
          rw [if_neg hne, hm]
        · show ((if w.call = w.call then _ else _) : CallPhase).isReturned = true
          rw [if_pos rfl]
          rfl
  · intro hok
    have hafter := contentionInv_step s i h hok
    refine ⟨hafter.one, ?_⟩
    by_cases hi : ∀ n, i ≠ .commit n
    · have hsame := committed_of_not_commit h i hi
      exact Or.inl ⟨congrArg MemoryTables.entries hsame, congrArg MemoryTables.profile hsame⟩
    · push Not at hi
      obtain ⟨n, rfl⟩ := hi
      rcases commit_cases uuid5 candidate_id s n with ⟨-, hsame⟩ | ⟨w, hw, hcommitted⟩
      · have hcommitted := congrArg Contention.committed hsame
        exact Or.inl ⟨congrArg MemoryTables.entries hcommitted,
          congrArg MemoryTables.profile hcommitted⟩
      · refine Or.inr ⟨n, rfl, ?_, (inv_commit h hw (hok (by rw [hw]; rfl))).1⟩
        dsimp only
        rw [hcommitted]
        show ((if n = n then _ else _) : CallPhase).isReturned = true
        rw [if_pos rfl]
        rfl

/-- **A run lets at most one call accept the candidate exactly when every transaction commits while
    the candidate is pending.** -/
theorem one_acceptance_iff (uuid5 : String → String) (candidate_id : String) (t : MemoryTables)
    (inputs : List ContentionInput) :
    (∀ e ∈ run (contentionStep uuid5 candidate_id) (Contention.start t) inputs,
        OneAcceptance e) ↔
      ∀ e ∈ run (contentionStep uuid5 candidate_id) (Contention.start t) inputs,
        CommitsPending candidate_id e.before e.input :=
  @run_forall_iff _ _ _ _ (ContentionInv uuid5 candidate_id) _ _ contentionInv_step
    one_acceptance_step_iff (Contention.start t) inputs (contentionInv_start t)

/-! ## Two calls -/

def pendingGoal : MemoryCandidate where
  type := "goal"
  title := "Learn Lean"
  body := "Prove something every day."
  confidence := 0x3ff0000000000000#64
  id := "cand_1"
  created_at := "2026-01-01"
  updated_at := "2026-01-01"

def oneCandidate : MemoryTables :=
  { MemoryTables.empty with candidates := Shelf.empty.put pendingGoal (by decide) }

/-- Both calls read before either begins. -/
def bothRead : List ContentionInput :=
  [.call 0 ⟨none, .draft, ⟨"a", "2026-01-02"⟩⟩, .call 1 ⟨none, .draft, ⟨"b", "2026-01-02"⟩⟩,
    .read 0, .read 1, .begin 0, .write 0, .write 0, .commit 0, .begin 1, .write 1, .write 1,
    .commit 1]

/-- Both create an entry. -/
theorem accepted_twice :
    ¬ ∀ (uuid5 : String → String) (candidate_id : String) (t : MemoryTables)
      (inputs : List ContentionInput),
      ∀ e ∈ run (contentionStep uuid5 candidate_id) (Contention.start t) inputs,
        OneAcceptance e := by
  intro h
  have hlast := h id "cand_1" oneCandidate bothRead _ (List.mem_of_getLast? rfl)
  have hsame := hlast.one 0 1 (by decide +kernel) (by decide +kernel)
  cases hsame

end NuSelf.Memory
