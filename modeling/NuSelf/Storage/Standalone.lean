/-
  A put or a delete outside a transaction.

  The first statement opens a transaction by itself, and `_commit_if_standalone` commits it.  When
  the statement or the commit raises, nothing is rolled back: the transaction stays open, with what
  the statement wrote, and the next commit on the connection takes it along.

  1. `exec_alike` — what a program does depends on the connection and the two counters only, not on
     what has happened before.
  2. `failed_write_clean_iff` — when a write that raises leaves no trace: when it is refused before
     its statement, or SQLite itself has rolled the transaction back.
  3. `failed_put_leaks` — a put that raised is committed by the next one.
-/
import NuSelf.Storage.Transaction

namespace NuSelf.Storage

open NuSelf.Lib

/-- Two backends that differ at most in what has happened to them. -/
structure Alike (s s' : Backend) : Prop where
  conn : s.conn = s'.conn
  depth : s.depth = s'.depth
  rollbackOnly : s.rollbackOnly = s'.rollbackOnly

/-- Two calls that return or raise alike, and leave backends that are alike. -/
def SameOutcome (r r' : Outcome) : Prop := r.2 = r'.2 ∧ Alike r.1 r'.1

namespace Alike

variable {s s' : Backend}

theorem rollbackAfterFailure (h : Alike s s') (primary : Raised) (a : Answer) :
    SameOutcome (s.rollbackAfterFailure primary a) (s'.rollbackAfterFailure primary a) := by
  rw [Backend.rollbackAfterFailure, Backend.rollbackAfterFailure, h.conn]
  rcases s'.conn.rollback a with ⟨conn, _ | _⟩
  · exact ⟨rfl, rfl, rfl, rfl⟩
  · exact ⟨rfl, rfl, rfl, rfl⟩

theorem commitIfStandalone (h : Alike s s') (a : Answer) :
    SameOutcome (s.commitIfStandalone a) (s'.commitIfStandalone a) := by
  rw [Backend.commitIfStandalone, Backend.commitIfStandalone, h.conn, h.depth]
  split
  · rcases s'.conn.commit a with ⟨conn, _ | _⟩
    · exact ⟨rfl, rfl, rfl, h.rollbackOnly⟩
    · exact ⟨rfl, rfl, rfl, h.rollbackOnly⟩
  · exact ⟨rfl, h.conn, h.depth, h.rollbackOnly⟩

theorem noteRefusal (h : Alike s s') (a : Answer) : Alike (s.noteRefusal a) (s'.noteRefusal a) := by
  unfold Backend.noteRefusal
  split
  · exact ⟨h.conn, h.depth, h.rollbackOnly⟩
  · exact h

theorem withConn (h : Alike s s') (conn : Connection Records) (t t' : List Event) :
    Alike { s with conn := conn, trace := t } { s' with conn := conn, trace := t' } :=
  ⟨rfl, h.depth, h.rollbackOnly⟩

theorem below (h : Alike s s') (conn : Connection Records) (flag : Bool) :
    Alike { s with conn := conn, depth := s.depth - 1, rollbackOnly := flag }
      { s' with conn := conn, depth := s'.depth - 1, rollbackOnly := flag } :=
  ⟨rfl, congrArg (· - 1) h.depth, rfl⟩

theorem write (h : Alike s s') (w : Write) (a : Answers) :
    SameOutcome (s.write w a) (s'.write w a) := by
  rw [Backend.write, Backend.write, h.conn]
  cases w.run s'.conn.view with
  | error e => exact ⟨rfl, h⟩
  | ok db =>
    dsimp only
    rcases s'.conn.statement db a.request with ⟨conn, _ | _⟩
    · exact ⟨rfl, noteRefusal (h.withConn conn s.trace s'.trace) a.request⟩
    · exact commitIfStandalone (h.withConn conn _ _) a.commit

end Alike

theorem leaveInner_alike {r r' : Outcome} (h : SameOutcome r r') :
    SameOutcome (Backend.leaveInner r) (Backend.leaveInner r') := by
  obtain ⟨s, outcome⟩ := r
  obtain ⟨s', outcome'⟩ := r'
  obtain ⟨rfl, halike⟩ : outcome = outcome' ∧ Alike s s' := h
  cases outcome with
  | error e => exact ⟨rfl, halike.conn, congrArg (· - 1) halike.depth, rfl⟩
  | ok _ => exact ⟨rfl, halike.conn, congrArg (· - 1) halike.depth, halike.rollbackOnly⟩

theorem leaveOutermost_alike (a : Answers) {r r' : Outcome} (h : SameOutcome r r') :
    SameOutcome (Backend.leaveOutermost a r) (Backend.leaveOutermost a r') := by
  obtain ⟨⟨conn, depth, flag, trace⟩, outcome⟩ := r
  obtain ⟨⟨conn', depth', flag', trace'⟩, outcome'⟩ := r'
  obtain ⟨rfl, rfl, rfl, rfl⟩ : outcome = outcome' ∧
    Alike ⟨conn, depth, flag, trace⟩ ⟨conn', depth', flag', trace'⟩ := h
  have hsame : Alike ⟨conn, depth, flag, trace⟩ ⟨conn, depth, flag, trace'⟩ := ⟨rfl, rfl, rfl⟩
  cases outcome with
  | error e => exact (hsame.below conn true).rollbackAfterFailure e a.rollback
  | ok _ =>
    rw [Backend.leaveOutermost, Backend.leaveOutermost]
    split
    · exact (hsame.below conn flag).rollbackAfterFailure .rollbackOnly a.rollback
    · rcases conn.commit a.commit with ⟨conn', _ | _⟩
      · exact (hsame.below conn' flag).rollbackAfterFailure .sqlite a.rollback
      · exact ⟨rfl, rfl, rfl, rfl⟩

/-- **What has happened decides nothing.** -/
theorem exec_alike : ∀ (p : Program) {s s' : Backend}, Alike s s' →
    SameOutcome (exec p s) (exec p s')
  | .skip, _, _, h => ⟨rfl, h⟩
  | .write w a, _, _, h => h.write w a
  | .raise, _, _, h => ⟨rfl, h⟩
  | .seq p q, s, s', h => by
    obtain ⟨houtcome, halike⟩ := exec_alike p h
    rw [exec, exec]
    rcases hp : exec p s with ⟨t, outcome⟩
    rcases hp' : exec p s' with ⟨t', outcome'⟩
    rw [hp, hp'] at houtcome halike
    obtain rfl : outcome = outcome' := houtcome
    cases outcome with
    | error e => exact ⟨rfl, halike⟩
    | ok _ => exact exec_alike q halike
  | .attempt p handler, s, s', h => by
    obtain ⟨houtcome, halike⟩ := exec_alike p h
    rw [exec, exec]
    rcases hp : exec p s with ⟨t, outcome⟩
    rcases hp' : exec p s' with ⟨t', outcome'⟩
    rw [hp, hp'] at houtcome halike
    obtain rfl : outcome = outcome' := houtcome
    cases outcome with
    | error e => exact exec_alike handler halike
    | ok _ => exact ⟨rfl, halike⟩
  | .transaction a p, s, s', h => by
    rw [exec, exec, Backend.transaction, Backend.transaction, h.depth]
    split
    · rw [h.conn]
      rcases s'.conn.begin a.request with ⟨conn, _ | _⟩
      · exact ⟨rfl, h⟩
      · exact leaveOutermost_alike a (exec_alike p ⟨rfl, rfl, rfl⟩)
    · exact leaveInner_alike (exec_alike p ⟨h.conn, rfl, h.rollbackOnly⟩)

/-! ## A write that raises -/

/-- A write outside a transaction that raises leaves the tables as they were and no transaction
    open, and whatever is done next goes as if it had never been called. -/
def CleanFailure (db : Records) (w : Write) (a : Answers) : Prop :=
  let r := exec (.write w a) (.idle db)
  ∀ e, r.2 = .error e → r.1.conn = .closed db ∧
    ∀ next, SameOutcome (exec next r.1) (exec next (.idle db))

/-- Back to a connection without a transaction: what happened on the way does not show. -/
theorem cleanFailure_of_closed {db : Records} {w : Write} {a : Answers}
    (h : (exec (.write w a) (.idle db)).1 = { Backend.idle db with
      trace := (exec (.write w a) (.idle db)).1.trace }) : CleanFailure db w a := by
  intro e _
  have halike : Alike (exec (.write w a) (.idle db)).1 (.idle db) := by
    rw [h]
    exact ⟨rfl, rfl, rfl⟩
  exact ⟨halike.conn, fun next => exec_alike next halike⟩

/-- **When a standalone write fails cleanly.**  Either the write is refused before its statement
    (the id, the encoding), or SQLite itself gives the transaction up on the error.  An error of the
    statement or of the commit that leaves the transaction as it was is not followed by a
    rollback. -/
theorem failed_write_clean_iff (db : Records) (w : Write) (a : Answers) :
    CleanFailure db w a ↔
      (∃ e, w.run db = .error e) ∨ a.request = .abandoned ∨
        (a.request = .done ∧ a.commit ≠ .failed) := by
  have hexec : exec (.write w a) (.idle db) = (Backend.idle db).write w a := rfl
  have hview : (Backend.idle db).conn.view = db := rfl
  cases hw : w.run db with
  | error e =>
    refine iff_of_true (cleanFailure_of_closed ?_) (.inl ⟨e, rfl⟩)
    rw [hexec, Backend.write, hview, hw]
  | ok tables =>
    rcases a with ⟨_ | _ | _, commit, rollback⟩
    -- the statement goes through, so the commit decides
    · cases commit with
      | done =>
        refine iff_of_true (fun e he => ?_) (by simp)
        rw [hexec, Backend.write, hview, hw] at he
        cases he
      | failed =>
        refine iff_of_false (fun h => ?_) (by simp)
        have hclosed := (h .sqlite (by rw [hexec, Backend.write, hview, hw]; rfl)).1
        rw [hexec, Backend.write, hview, hw] at hclosed
        cases hclosed
      | abandoned =>
        refine iff_of_true (cleanFailure_of_closed ?_) (by simp)
        rw [hexec, Backend.write, hview, hw]
        rfl
    -- the statement fails inside the transaction opened for it
    · refine iff_of_false (fun h => ?_) (by simp)
      have hclosed := (h .sqlite (by rw [hexec, Backend.write, hview, hw]; rfl)).1
      rw [hexec, Backend.write, hview, hw] at hclosed
      cases hclosed
    · refine iff_of_true (cleanFailure_of_closed ?_) (by simp)
      rw [hexec, Backend.write, hview, hw]
      rfl

/-- A put whose commit fails, and a put of another record after it: the second one commits both. -/
theorem failed_put_leaks :
    let failing := Program.write (.put "inbox_items" "a" .empty) ⟨.done, .failed, .done⟩
    let following := Program.write (.put "inbox_items" "b" .empty) ⟨.done, .done, .done⟩
    let r := exec failing (.idle .empty)
    r.2 = .error .sqlite ∧ r.1.conn.pending.isSome ∧
      (exec following r.1).1.conn.committed.contains ("inbox_items", "a") ∧
      ¬ CleanFailure .empty (.put "inbox_items" "a" .empty) ⟨.done, .failed, .done⟩ := by
  refine ⟨rfl, rfl, by decide +kernel, fun h => ?_⟩
  have hclosed := congrArg Connection.pending (h .sqlite rfl).1
  cases hclosed

end NuSelf.Storage
