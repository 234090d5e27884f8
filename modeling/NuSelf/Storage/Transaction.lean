/-
  Nested transactions of the storage backend.

  The backend counts the nesting depth and keeps one flag, `rollback_only`; only the outermost
  transaction talks to the connection.  A program is whatever a caller does on one thread: puts,
  deletes, transactions inside transactions, its own exceptions, and handlers at any level.  What
  it reads decides which of these it does and changes nothing, so a run is given by the calls that
  were made.

  1. **The code** — `write` (a put or a delete, committed at once at depth 0), `transaction` with
     `rollbackAfterFailure`, and `exec` over programs.  SQLite's answers are part of the program.
  2. **The trace** — what happened inside the outermost transaction: the writes that went through,
     the inner transactions that failed, and the times SQLite gave the transaction up by itself.
  3. **The invariant** (`Inside`) — below the outermost transaction the depth is back after every
     call, the committed tables are those of the start, the flag says whether an inner transaction
     has failed, and the open transaction shows exactly the writes of the trace.
  4. **The outermost transaction** (`transaction_atomic`) — depth and flag are reset on every way
     out; it commits all writes or none; a failed inner transaction makes it raise.

  A rollback that SQLite refuses is reported (`cleanup`) and leaves the connection inside the
  transaction, with the counters reset.
-/
import NuSelf.Lib.Connection
import NuSelf.Storage.Collection

namespace NuSelf.Storage

open NuSelf.Lib

/-! ## Writes -/

inductive Write where
  | put (collection key : String) (value : Record)
  | delete (collection key : String)

/-- What a write makes of the tables it sees. -/
def Write.run : Write → Records → Except StorageError Records
  | .put collection key value, db => collectionPut db collection key value
  | .delete collection key, db => .ok (collectionDelete db collection key)

/-! ## The backend -/

inductive Raised where
  /-- An exception of the caller's own. -/
  | body
  /-- A record that `put` refuses. -/
  | storage (e : StorageError)
  /-- An error of the connection. -/
  | sqlite
  /-- `SqliteTransactionRollbackOnlyError`. -/
  | rollbackOnly
  /-- `SqliteTransactionCleanupError`. -/
  | cleanup (primary : Raised)
  deriving DecidableEq

inductive Event where
  | wrote (w : Write)
  /-- An inner transaction raised. -/
  | failed
  /-- SQLite rolled the transaction back on an error of a statement. -/
  | abandoned

/-- The connection, the two fields of `_TransactionState`, and what has happened. -/
structure Backend where
  conn : Connection Records
  depth : Nat
  rollbackOnly : Bool
  trace : List Event

/-- A backend between two transactions. -/
def Backend.idle (db : Records) : Backend := ⟨.closed db, 0, false, []⟩

/-- SQLite's answers to the requests of one call: the statement (`BEGIN IMMEDIATE` for a
    transaction), the commit and the rollback. -/
structure Answers where
  request : Answer
  commit : Answer
  rollback : Answer

abbrev Outcome := Backend × Except Raised Unit

namespace Backend

def noteRefusal (s : Backend) (a : Answer) : Backend :=
  if a = .abandoned then { s with trace := s.trace ++ [.abandoned] } else s

def commitIfStandalone (s : Backend) (a : Answer) : Outcome :=
  if s.depth = 0 then
    match s.conn.commit a with
    | (conn, true) => ({ s with conn := conn }, .ok ())
    | (conn, false) => ({ s with conn := conn }, .error .sqlite)
  else (s, .ok ())

/-- `SqliteCollection.put` and `SqliteCollection.delete`. -/
def write (w : Write) (a : Answers) (s : Backend) : Outcome :=
  match w.run s.conn.view with
  | .error e => (s, .error (.storage e))
  | .ok db =>
    match s.conn.statement db a.request with
    | (conn, true) =>
      commitIfStandalone { s with conn := conn, trace := s.trace ++ [.wrote w] } a.commit
    | (conn, false) => (noteRefusal { s with conn := conn } a.request, .error .sqlite)

/-- `_reset_transaction_state`. -/
def reset (s : Backend) : Backend := { s with depth := 0, rollbackOnly := false }

/-- `_rollback_after_failure`, and the exception that leaves the transaction then. -/
def rollbackAfterFailure (primary : Raised) (a : Answer) (s : Backend) : Outcome :=
  match s.conn.rollback a with
  | (conn, true) => (reset { s with conn := conn }, .error primary)
  | (conn, false) => (reset { s with conn := conn }, .error (.cleanup primary))

/-- The outermost transaction after its body. -/
def leaveOutermost (a : Answers) : Outcome → Outcome
  | (s, .error e) =>
    rollbackAfterFailure e a.rollback { s with depth := s.depth - 1, rollbackOnly := true }
  | (s, .ok _) =>
    if s.rollbackOnly then
      rollbackAfterFailure .rollbackOnly a.rollback { s with depth := s.depth - 1 }
    else
      match s.conn.commit a.commit with
      | (conn, true) => (reset { s with conn := conn, depth := s.depth - 1 }, .ok ())
      | (conn, false) =>
        rollbackAfterFailure .sqlite a.rollback { s with conn := conn, depth := s.depth - 1 }

/-- An inner transaction after its body. -/
def leaveInner : Outcome → Outcome
  | (s, .error e) =>
    ({ s with depth := s.depth - 1, rollbackOnly := true, trace := s.trace ++ [.failed] },
      .error e)
  | (s, .ok _) => ({ s with depth := s.depth - 1 }, .ok ())

/-- `SqliteStorageBackend.transaction` around a body. -/
def transaction (a : Answers) (body : Backend → Outcome) (s : Backend) : Outcome :=
  if s.depth = 0 then
    match s.conn.begin a.request with
    | (_, false) => (s, .error .sqlite)
    | (conn, true) =>
      leaveOutermost a (body { s with conn := conn, rollbackOnly := false, depth := s.depth + 1 })
  else leaveInner (body { s with depth := s.depth + 1 })

end Backend

/-! ## Programs -/

inductive Program where
  | skip
  | write (w : Write) (a : Answers)
  | raise
  | seq (p q : Program)
  /-- `try: p` with a handler for every exception; the handler may raise again. -/
  | attempt (p handler : Program)
  | transaction (a : Answers) (p : Program)

def exec : Program → Backend → Outcome
  | .skip, s => (s, .ok ())
  | .write w a, s => s.write w a
  | .raise, s => (s, .error .body)
  | .seq p q, s =>
    match exec p s with
    | (s', .ok _) => exec q s'
    | (s', .error e) => (s', .error e)
  | .attempt p handler, s =>
    match exec p s with
    | (s', .ok _) => (s', .ok ())
    | (s', .error _) => exec handler s'
  | .transaction a p, s => s.transaction a (exec p)

/-! ## The trace -/

/-- The writes that went through, oldest first. -/
def writes (trace : List Event) : List Write :=
  trace.filterMap fun
    | .wrote w => some w
    | _ => none

def innerFailed (trace : List Event) : Prop := Event.failed ∈ trace

/-- SQLite itself rolled the transaction back while the program went on. -/
def abandoned (trace : List Event) : Prop := Event.abandoned ∈ trace

/-! ## The invariant below the outermost transaction -/

/-- The state of a backend `d` levels deep in a transaction that began on `db`. -/
structure Inside (db : Records) (d : Nat) (s : Backend) : Prop where
  depth : s.depth = d
  committed : s.conn.committed = db
  flag : s.rollbackOnly = true ↔ innerFailed s.trace
  shown : ¬ abandoned s.trace →
    ∃ tables, s.conn.pending = some tables ∧ replay Write.run db (writes s.trace) = .ok tables

namespace Inside

variable {db : Records} {d : Nat} {s : Backend}

/-- A write that goes through is added to the trace and to what the transaction shows. -/
theorem wrote (h : Inside db d s) {w : Write} {tables : Records} {a : Answer}
    (hw : w.run s.conn.view = .ok tables) (ha : (s.conn.statement tables a).2 = true) :
    Inside db d { s with
      conn := (s.conn.statement tables a).1, trace := s.trace ++ [.wrote w] } where
  depth := h.depth
  committed := by
    show (s.conn.statement tables a).1.committed = db
    rw [Connection.statement_committed, h.committed]
  flag := by
    show s.rollbackOnly = true ↔ Event.failed ∈ s.trace ++ [.wrote w]
    rw [h.flag]
    simp [innerFailed]
  shown := by
    intro hnot
    have hbefore : ¬ abandoned s.trace := fun hmem => hnot (List.mem_append_left _ hmem)
    obtain ⟨seen, hpending, hreplay⟩ := h.shown hbefore
    have hview : s.conn.view = seen := by
      rw [Connection.view, hpending, Option.getD_some]
    refine ⟨tables, ?_, ?_⟩
    · unfold Connection.statement at ha ⊢
      split
      · rfl
      · rename_i hne
        simp only [if_neg hne] at ha
        cases ha
    · show replay Write.run db (writes (s.trace ++ [.wrote w])) = .ok tables
      rw [writes, List.filterMap_append]
      rw [hview] at hw
      exact replay_snoc hw hreplay

/-- A statement that SQLite refuses leaves the transaction as it was, or is noted as its end. -/
theorem refused (h : Inside db d s) {tables : Records} {a : Answer}
    (ha : (s.conn.statement tables a).2 = false) :
    Inside db d (Backend.noteRefusal { s with conn := (s.conn.statement tables a).1 } a) := by
  have hcommitted : (s.conn.statement tables a).1.committed = db := by
    rw [Connection.statement_committed, h.committed]
  cases a with
  | done =>
    rw [Connection.statement, if_pos rfl] at ha
    cases ha
  | failed =>
    refine ⟨h.depth, hcommitted, h.flag, fun hnot => ?_⟩
    obtain ⟨seen, hpending, hreplay⟩ := h.shown hnot
    refine ⟨seen, ?_, hreplay⟩
    show some s.conn.view = some seen
    rw [Connection.view, hpending, Option.getD_some]
  | abandoned =>
    refine ⟨h.depth, hcommitted, ?_, fun hnot => ?_⟩
    · show s.rollbackOnly = true ↔ Event.failed ∈ s.trace ++ [.abandoned]
      rw [h.flag]
      simp [innerFailed]
    · have hmem : abandoned (s.trace ++ [.abandoned]) := by simp [abandoned]
      exact absurd hmem hnot

theorem write (h : Inside db (d + 1) s) (w : Write) (a : Answers) :
    Inside db (d + 1) (s.write w a).1 := by
  unfold Backend.write
  cases hw : w.run s.conn.view with
  | error e => exact h
  | ok tables =>
    rcases hr : s.conn.statement tables a.request with ⟨conn, _ | _⟩
    · have hstep := h.refused (show (s.conn.statement tables a.request).2 = false by rw [hr])
      rw [hr] at hstep
      simp only [hr]
      exact hstep
    · have hstep := h.wrote hw (show (s.conn.statement tables a.request).2 = true by rw [hr])
      rw [hr] at hstep
      have hdepth : ¬ s.depth = 0 := by
        have := h.depth
        omega
      simp only [hr, Backend.commitIfStandalone, if_neg hdepth]
      exact hstep

theorem enter (h : Inside db d s) : Inside db (d + 1) { s with depth := s.depth + 1 } where
  depth := by
    show s.depth + 1 = d + 1
    rw [h.depth]
  committed := h.committed
  flag := h.flag
  shown := h.shown

theorem leaveInner {r : Outcome} (h : Inside db (d + 1) r.1) :
    Inside db d (Backend.leaveInner r).1 := by
  obtain ⟨s, outcome⟩ := r
  have hdepth : s.depth - 1 = d := by
    have hd : s.depth = d + 1 := h.depth
    omega
  cases outcome with
  | ok _ => exact ⟨hdepth, h.committed, h.flag, h.shown⟩
  | error e =>
    refine ⟨hdepth, h.committed, ?_, fun hnot => ?_⟩
    · show true = true ↔ Event.failed ∈ s.trace ++ [.failed]
      simp
    · have hbefore : ¬ abandoned s.trace := fun hmem => hnot (List.mem_append_left _ hmem)
      obtain ⟨seen, hpending, hreplay⟩ := h.shown hbefore
      refine ⟨seen, hpending, ?_⟩
      show replay Write.run db (writes (s.trace ++ [.failed])) = .ok seen
      rw [writes, List.filterMap_append]
      show replay Write.run db (writes s.trace ++ []) = .ok seen
      rw [List.append_nil]
      exact hreplay

end Inside

/-- **The invariant is kept by every program**, at every depth below the outermost transaction. -/
theorem exec_inside {db : Records} : ∀ (p : Program) {d : Nat} {s : Backend},
    Inside db (d + 1) s → Inside db (d + 1) (exec p s).1 := by
  intro p
  induction p with
  | skip => intro d s h; exact h
  | write w a => intro d s h; exact h.write w a
  | raise => intro d s h; exact h
  | seq p q ihp ihq =>
    intro d s h
    have hp := ihp h
    rw [exec]
    rcases hr : exec p s with ⟨s', _ | _⟩
    · rw [hr] at hp
      exact hp
    · rw [hr] at hp
      exact ihq hp
  | attempt p handler ihp ihh =>
    intro d s h
    have hp := ihp h
    rw [exec]
    rcases hr : exec p s with ⟨s', _ | _⟩
    · rw [hr] at hp
      exact ihh hp
    · rw [hr] at hp
      exact hp
  | transaction a p ih =>
    intro d s h
    have hdepth : ¬ s.depth = 0 := by
      have := h.depth
      omega
    rw [exec, Backend.transaction, if_neg hdepth]
    exact (ih h.enter).leaveInner

/-! ## The outermost transaction -/

/-- How an outermost transaction that began on `db` may end, when SQLite answers its rollback
    with `a`. -/
structure Ended (db : Records) (a : Answer) (r : Outcome) : Prop where
  depth : r.1.depth = 0
  flag : r.1.rollbackOnly = false
  /-- An exception means that nothing was committed. -/
  none_of_error : ∀ e, r.2 = .error e → r.1.conn.committed = db
  /-- A normal end means that every write was. -/
  all_of_ok : r.2 = .ok () → ¬ abandoned r.1.trace →
    replay Write.run db (writes r.1.trace) = .ok r.1.conn.committed
  raises : innerFailed r.1.trace → ∃ e, r.2 = .error e
  /-- Only a refused rollback, which is reported, leaves the transaction open. -/
  closed : r.1.conn.pending = none ∨ a ≠ .done ∧ ∃ primary, r.2 = .error (.cleanup primary)

/-- The rollback after a failure raises in any case; only a refused one leaves the transaction
    open. -/
theorem rollbackAfterFailure_ended {db : Records} {s : Backend} (primary : Raised) (a : Answer)
    (h : s.conn.committed = db) : Ended db a (Backend.rollbackAfterFailure primary a s) := by
  have hcommitted : (s.conn.rollback a).1.committed = db := by
    rw [Connection.rollback_committed, h]
  unfold Backend.rollbackAfterFailure
  rcases hr : s.conn.rollback a with ⟨conn, _ | _⟩
  · rw [hr] at hcommitted
    have hrefused : a ≠ .done := by
      intro hdone
      have := Connection.rollback_done s.conn hdone
      rw [hr] at this
      cases this
    refine ⟨rfl, rfl, fun _ _ => hcommitted, fun hok => ?_, fun _ => ⟨_, rfl⟩,
      Or.inr ⟨hrefused, _, rfl⟩⟩
    cases hok
  · have hclosed := Connection.rollback_closed (show (s.conn.rollback a).2 = true by rw [hr])
    rw [hr] at hcommitted hclosed
    refine ⟨rfl, rfl, fun _ _ => hcommitted, fun hok => ?_, fun _ => ⟨_, rfl⟩,
      Or.inl hclosed⟩
    cases hok

theorem leaveOutermost_ended {db : Records} {r : Outcome} (a : Answers) (h : Inside db 1 r.1) :
    Ended db a.rollback (Backend.leaveOutermost a r) := by
  obtain ⟨s, outcome⟩ := r
  have hcommitted : s.conn.committed = db := h.committed
  cases outcome with
  | error e => exact rollbackAfterFailure_ended e a.rollback hcommitted
  | ok _ =>
    simp only [Backend.leaveOutermost]
    by_cases hflag : s.rollbackOnly = true
    · rw [if_pos hflag]
      exact rollbackAfterFailure_ended .rollbackOnly a.rollback hcommitted
    · rw [if_neg hflag]
      rcases hr : s.conn.commit a.commit with ⟨conn, _ | _⟩
      · have hrefused := Connection.commit_refused
          (show (s.conn.commit a.commit).2 = false by rw [hr])
        rw [hr] at hrefused
        exact rollbackAfterFailure_ended .sqlite a.rollback (hrefused.trans hcommitted)
      · have hdone := Connection.commit_done (show (s.conn.commit a.commit).2 = true by rw [hr])
        rw [hr] at hdone
        have hconn : conn = .closed s.conn.view := hdone
        subst hconn
        refine ⟨rfl, rfl, fun e he => ?_, fun _ hnot => ?_, fun hfailed => ?_, Or.inl rfl⟩
        · cases he
        · obtain ⟨seen, hpending, hreplay⟩ := h.shown hnot
          have hview : s.conn.view = seen := by
            rw [Connection.view, hpending, Option.getD_some]
          show replay Write.run db (writes s.trace) = .ok s.conn.view
          rw [hview]
          exact hreplay
        · exact absurd (h.flag.mpr hfailed) hflag

/-- **All or nothing.**  However the program nests its transactions and whatever it catches, the
    outermost transaction commits every write made inside it and returns, or commits none and
    raises; it cannot return once an inner transaction has failed; and it leaves the depth and the
    flag reset, and the connection closed unless SQLite refused the rollback. -/
theorem transaction_atomic (db : Records) (a : Answers) (p : Program) :
    Ended db a.rollback (exec (.transaction a p) (.idle db)) := by
  have hdepth : (Backend.idle db).depth = 0 := rfl
  rw [exec, Backend.transaction, if_pos hdepth]
  have hbegin : (Connection.closed db).begin a.request =
      if a.request = .done then (⟨db, some db⟩, true) else (.closed db, false) := rfl
  show Ended db a.rollback (match (Connection.closed db).begin a.request with
    | (_, false) => (Backend.idle db, .error .sqlite)
    | (conn, true) => Backend.leaveOutermost a (exec p ⟨conn, 1, false, []⟩))
  rw [hbegin]
  by_cases hdone : a.request = .done
  · rw [if_pos hdone]
    refine leaveOutermost_ended a (exec_inside p ⟨rfl, rfl, ?_, fun _ => ⟨db, rfl, rfl⟩⟩)
    simp [innerFailed]
  · rw [if_neg hdone]
    refine ⟨rfl, rfl, fun _ _ => rfl, fun hok => ?_, fun _ => ⟨_, rfl⟩, Or.inl rfl⟩
    cases hok

/-- Two ways round: a refused rollback leaves the connection in the transaction, and a program that
    catches the error on which SQLite gave the transaction up commits only what it wrote after. -/
theorem transaction_not_atomic :
    (exec (.transaction ⟨.done, .done, .failed⟩ .raise) (.idle .empty)).1.conn.pending ≠ none ∧
    (let answered : Answers := ⟨.done, .done, .done⟩
     let put (key : String) : Write := .put "memory_entries" key .empty
     let r := exec (.transaction answered
       (.seq (.write (put "x") answered)
         (.seq (.attempt (.write (put "y") { answered with request := .abandoned }) .skip)
           (.write (put "z") answered)))) (.idle .empty)
     r.2 = .ok () ∧ r.1.conn.committed.contains ("memory_entries", "x") = false ∧
       r.1.conn.committed.contains ("memory_entries", "z") = true) := by
  decide +kernel

end NuSelf.Storage
