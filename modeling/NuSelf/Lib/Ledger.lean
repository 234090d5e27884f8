/-
  The ledger of keyed requests: what "exactly once" means.

  A request carries a key and a message.  The first message sent under a key binds it; the first
  reply committed under a key is its reply for ever.  `consult` says how a request must be
  answered: a key bound to another message is a conflict, a key with a reply replays it, and only
  a key without a reply may be worked on.  This is the abstract statement of an idempotent
  service, over any keys, messages and replies; a concrete one is compared with it step by step.
-/
import Mathlib.Data.Option.Basic

namespace NuSelf.Lib

variable {κ μ α : Type} [DecidableEq κ] [DecidableEq μ]

/-- What is known of one key. -/
structure Entry (μ α : Type) where
  message : μ
  reply : Option α
  deriving DecidableEq

def Ledger (κ μ α : Type) : Type := κ → Option (Entry μ α)

/-- How a request must be answered. -/
inductive Verdict (α : Type) where
  | fresh
  | unfinished
  | replay (reply : α)
  | conflict
  deriving DecidableEq

namespace Ledger

def empty : Ledger κ μ α := fun _ => none

/-- A request is accepted: its message binds a free key. -/
def bind (l : Ledger κ μ α) (k : κ) (m : μ) : Ledger κ μ α :=
  fun q => if q = k then some ((l k).getD ⟨m, none⟩) else l q

/-- A reply is committed: the first one stays. -/
def commit (l : Ledger κ μ α) (k : κ) (a : α) : Ledger κ μ α :=
  fun q => if q = k then (l k).map fun e => { e with reply := some (e.reply.getD a) } else l q

def consult (l : Ledger κ μ α) (k : κ) (m : μ) : Verdict α :=
  match l k with
  | none => .fresh
  | some e =>
    if e.message ≠ m then .conflict
    else
      match e.reply with
      | none => .unfinished
      | some a => .replay a

variable {l : Ledger κ μ α} {k q : κ} {m : μ} {a : α} {e : Entry μ α}

omit [DecidableEq μ] in
theorem bind_ne (h : q ≠ k) : l.bind k m q = l q := by simp [bind, h]

omit [DecidableEq μ] in
theorem bind_of_none (h : l k = none) : l.bind k m k = some ⟨m, none⟩ := by simp [bind, h]

omit [DecidableEq μ] in
theorem bind_of_some (h : l k = some e) : l.bind k m k = some e := by simp [bind, h]

omit [DecidableEq μ] in
theorem commit_ne (h : q ≠ k) : l.commit k a q = l q := by simp [commit, h]

omit [DecidableEq μ] in
theorem commit_of_some (h : l k = some e) (hreply : e.reply = none) :
    l.commit k a k = some ⟨e.message, some a⟩ := by
  simp [commit, h, hreply]

/-- A key has its reply. -/
def Replied (l : Ledger κ μ α) (k : κ) : Prop := ∃ e, l k = some e ∧ e.reply.isSome = true

omit [DecidableEq μ] in
theorem Replied.bind (h : l.Replied k) (q : κ) (m : μ) : (l.bind q m).Replied k := by
  obtain ⟨e, he, hr⟩ := h
  by_cases hq : k = q
  · subst hq
    exact ⟨e, bind_of_some he, hr⟩
  · exact ⟨e, by rw [bind_ne hq, he], hr⟩

omit [DecidableEq μ] in
theorem Replied.commit (h : l.Replied k) (q : κ) (a : α) : (l.commit q a).Replied k := by
  obtain ⟨e, he, hr⟩ := h
  by_cases hq : k = q
  · subst hq
    exact ⟨⟨e.message, some (e.reply.getD a)⟩, by simp [Ledger.commit, he], rfl⟩
  · exact ⟨e, by rw [commit_ne hq, he], hr⟩

omit [DecidableEq μ] in
theorem replied_commit (h : l k = some e) (a : α) : (l.commit k a).Replied k :=
  ⟨⟨e.message, some (e.reply.getD a)⟩, by simp [Ledger.commit, h], rfl⟩

omit [DecidableEq κ] in
theorem consult_of_replied (h : l.Replied k) (m : μ) :
    l.consult k m = .conflict ∨ ∃ a, l.consult k m = .replay a := by
  obtain ⟨e, he, hr⟩ := h
  obtain ⟨a, ha⟩ := Option.isSome_iff_exists.mp hr
  simp only [consult, he]
  by_cases hm : e.message = m
  · exact Or.inr ⟨a, by simp [hm, ha]⟩
  · exact Or.inl (by simp [hm])

end Ledger
end NuSelf.Lib
