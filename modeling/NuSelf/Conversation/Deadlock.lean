/-
  Calls on conversations do not block each other for good.

  A call takes its locks in the order of their ids and opens its transaction behind them, so the
  open transaction is one more lock, above all the others.  Then every call waits for a lock above
  those that it holds, and nobody waits for himself.
-/
import Mathlib.Data.String.Basic
import Mathlib.Order.WithBot
import NuSelf.Conversation.LostUpdates

namespace NuSelf.Conversation.Wire.Concurrent

open NuSelf.Lib NuSelf.Storage

/-! ## Calls that wait -/

/-- The lock that the next step of a call takes; `⊤` is the open transaction. -/
def Phase.next : Phase → Option (WithTop String)
  | .acquiring _ _ (id :: _) => some id
  | .transacting _ .waiting => some ⊤
  | _ => none

def System.holder (s : System) (k : WithTop String) : Option Nat :=
  k.recTopCoe s.writer s.lock

/-- The next step of the one call is refused until the other gives a lock back. -/
def System.WaitsOn (s : System) (n m : Nat) : Prop :=
  ∃ k, (s.phase n).next = some k ∧ s.holder k = some m

/-- The locks of a call, with its open transaction. -/
def Phase.owned (p : Phase) : List (WithTop String) :=
  p.held.map (↑) ++ if p.writing = true then [⊤] else []

variable {sha : Sha256} {s : System} {changes : Changes}

theorem lockOrder_ascending (ids : List String) : (lockOrder ids).Pairwise (· < ·) := by
  have hsorted : (lockOrder ids).Pairwise (· ≤ ·) := List.pairwise_insertionSort _ _
  exact (hsorted.and (nodup_lockOrder ids)).imp fun h => lt_of_le_of_ne h.1 h.2

theorem Inv.owned (h : Inv sha s changes) : Agree s.holder fun n => (s.phase n).owned := by
  intro k n
  cases k with
  | top =>
    show s.writer = some n ↔ _
    rw [h.writer n]
    simp [Phase.owned]
  | coe id =>
    show s.lock id = some n ↔ _
    rw [h.locks id n]
    simp [Phase.owned]

/-- **A call waits for a lock above those that it holds.** -/
theorem Inv.next_above (h : Inv sha s changes) (n : Nat) (k : WithTop String)
    (hk : (s.phase n).next = some k) : ∀ j ∈ (s.phase n).owned, j < k := by
  have hn := h.sound n
  revert hk hn
  cases s.phase n with
  | acquiring request held rest =>
    cases rest with
    | nil => exact nofun
    | cons id rest =>
      rintro ⟨⟩ ⟨-, hheld⟩ j hj
      have hascending := lockOrder_ascending request.ids
      rw [← hheld] at hascending
      obtain ⟨i, hi, rfl⟩ : ∃ i ∈ held, (i : WithTop String) = j := by
        simpa [Phase.owned, Phase.held, Phase.writing] using hj
      exact WithTop.coe_lt_coe.mpr ((List.pairwise_append.mp hascending).2.2 i
        (List.mem_reverse.mpr hi) id List.mem_cons_self)
  | transacting work stage =>
    cases stage with
    | waiting =>
      rintro ⟨⟩ - j hj
      obtain ⟨i, -, rfl⟩ : ∃ i ∈ work.locks, (i : WithTop String) = j := by
        simpa [Phase.owned, Phase.held, Phase.writing] using hj
      exact WithTop.coe_lt_top i
    | opened | written => exact nofun
  | _ => exact nofun

/-! ## Runs -/

/-- **No deadlock.**  After any steps of any number of calls, with storage errors and crashes
    wherever they may come, no call waits for itself, through however many others. -/
theorem never_deadlocked (sha : Sha256) (db : Conversations) (inputs : List Input) (n : Nat) :
    let s := (final (watched (step sha) note) (.start db.records, fun _ => []) inputs).1
    ¬ Relation.TransGen s.WaitsOn n n := by
  have hinv := @final_induct _ _ _ (watched (step sha) note) (fun s => Inv sha s.1 s.2)
    (fun _ i h => inv_step i h) (.start db.records, fun _ => []) inputs (inv_start sha db.keyed)
  exact hinv.owned.no_cycle hinv.next_above n

end NuSelf.Conversation.Wire.Concurrent
