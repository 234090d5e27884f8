/-
  One connection to a transactional store.

  A connection has the committed state and, while a transaction is open, the state that the
  transaction would commit.  Every request may be refused: the environment's `Answer` says whether
  it is done, fails and leaves the transaction as it was, or fails and costs the whole transaction
  (a store that runs out of space gives the open transaction up by itself).

  1. The four requests: `begin`, `statement` (which opens a transaction when none is open),
     `commit` and `rollback`.  Committing and rolling back outside a transaction do nothing.
  2. `replay` runs a list of writes from a state; adding one write at the end is one more step
     (`replay_snoc`).
  3. Only a commit that is done changes the committed state (`statement_committed`,
     `rollback_committed`, `commit_refused`, `commit_done`).
-/
import Mathlib.Data.List.Basic

namespace NuSelf.Lib

/-- What the environment makes of one request. -/
inductive Answer where
  | done
  /-- An error; the open transaction is as it was before the request. -/
  | failed
  /-- An error on which the store has rolled the open transaction back. -/
  | abandoned
  deriving DecidableEq

structure Connection (σ : Type) where
  committed : σ
  /-- The state inside the open transaction. -/
  pending : Option σ
  deriving DecidableEq

namespace Connection

variable {σ : Type}

/-- A connection without a transaction. -/
def closed (s : σ) : Connection σ := ⟨s, none⟩

/-- What the connection itself reads. -/
def view (c : Connection σ) : σ := c.pending.getD c.committed

/-! ## Requests: the connection afterwards, and whether the request went through -/

/-- An error of a request, by its answer. -/
def refused (c : Connection σ) : Answer → Connection σ
  | .abandoned => { c with pending := none }
  | _ => c

/-- An explicit `BEGIN`, which fails inside a transaction. -/
def begin (c : Connection σ) (a : Answer) : Connection σ × Bool :=
  if c.pending.isSome then (c, false)
  else if a = .done then ({ c with pending := some c.committed }, true)
  else (c, false)

/-- A statement that turns what it sees into `s`; a transaction is opened for it if need be, and
    stays open when the statement fails. -/
def statement (c : Connection σ) (s : σ) (a : Answer) : Connection σ × Bool :=
  let opened : Connection σ := { c with pending := some c.view }
  if a = .done then ({ opened with pending := some s }, true)
  else (opened.refused a, false)

def commit (c : Connection σ) (a : Answer) : Connection σ × Bool :=
  match c.pending with
  | none => (c, true)
  | some s => if a = .done then (closed s, true) else (c.refused a, false)

def rollback (c : Connection σ) (a : Answer) : Connection σ × Bool :=
  match c.pending with
  | none => (c, true)
  | some _ => if a = .done then (closed c.committed, true) else (c.refused a, false)

/-! ## What a request leaves -/

@[simp] theorem refused_committed (c : Connection σ) (a : Answer) :
    (c.refused a).committed = c.committed := by
  cases a <;> rfl

theorem statement_committed (c : Connection σ) (s : σ) (a : Answer) :
    (c.statement s a).1.committed = c.committed := by
  unfold statement
  split
  · rfl
  · exact refused_committed _ a

theorem rollback_committed (c : Connection σ) (a : Answer) :
    (c.rollback a).1.committed = c.committed := by
  unfold rollback
  split
  · rfl
  · split
    · rfl
    · exact refused_committed c a

theorem rollback_done (c : Connection σ) {a : Answer} (h : a = .done) :
    (c.rollback a).2 = true := by
  unfold rollback
  split
  · rfl
  · rw [if_pos h]

theorem rollback_closed {c : Connection σ} {a : Answer} (h : (c.rollback a).2 = true) :
    (c.rollback a).1.pending = none := by
  unfold rollback at h ⊢
  split
  · assumption
  · split
    · rfl
    · rename_i hpending hdone
      simp only [hpending, if_neg hdone] at h
      cases h

theorem commit_refused {c : Connection σ} {a : Answer} (h : (c.commit a).2 = false) :
    (c.commit a).1.committed = c.committed := by
  unfold commit at h ⊢
  split
  · rfl
  · split
    · rename_i hpending hdone
      simp only [hpending, if_pos hdone] at h
      cases h
    · exact refused_committed c a

/-- A commit that goes through makes the view of the transaction the committed state. -/
theorem commit_done {c : Connection σ} {a : Answer} (h : (c.commit a).2 = true) :
    (c.commit a).1 = closed c.view := by
  unfold commit at h ⊢
  cases hpending : c.pending with
  | none =>
    obtain ⟨committed, pending⟩ := c
    subst hpending
    rfl
  | some s =>
    by_cases hdone : a = .done
    · have hview : c.view = s := by rw [view, hpending, Option.getD_some]
      simp only [if_pos hdone, hview]
    · simp only [hpending, if_neg hdone] at h
      cases h

end Connection

/-! ## Replay -/

section

variable {σ ω ε : Type} (write : ω → σ → Except ε σ)

/-- The writes one after the other, from a state. -/
def replay (s : σ) : List ω → Except ε σ
  | [] => .ok s
  | w :: ws =>
    match write w s with
    | .error e => .error e
    | .ok s' => replay s' ws

variable {write}

theorem replay_snoc {w : ω} {s' s'' : σ} (hw : write w s' = .ok s'') :
    ∀ {ws : List ω} {s : σ}, replay write s ws = .ok s' → replay write s (ws ++ [w]) = .ok s''
  | [], s, h => by
    cases h
    rw [List.nil_append, replay, hw]
    rfl
  | w' :: ws, s, h => by
    rw [replay] at h
    rw [List.cons_append, replay]
    cases hw' : write w' s with
    | error e => simp [hw'] at h
    | ok s₁ =>
      rw [hw'] at h
      exact replay_snoc hw h

end

end NuSelf.Lib
