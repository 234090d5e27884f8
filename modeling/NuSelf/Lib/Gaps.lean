/-
  A stream that is read in pieces with counted gaps.

  A reader of a bounded queue does not get every element: what does not fit is dropped at the old
  end, and the next piece says how many were lost in front of it.  `Spells rest stream pieces` says
  that the pieces account for the stream: it is made up of the pieces in their order, each behind
  exactly as many lost elements as it says, and of `rest`, which has not been read.

  1. `Spells.snoc`, `Spells.grow` — reading one more piece, appending one more element.
  2. `Spells.sublist`, `Spells.length_eq` — so nothing is read twice or out of order, and every
     element is read or counted.
  3. `DropQueue` — the queue; `spells_push`, `spells_take` say that both its operations keep the
     account.
-/
import Mathlib.Algebra.GroupWithZero.Nat
import Mathlib.Data.List.Basic

namespace NuSelf.Lib

variable {α : Type}

/-- Elements of a stream that were read together, and how many were lost in front of them. -/
structure Piece (α : Type) where
  lost : Nat
  items : List α
  deriving DecidableEq, Repr

/-- The pieces account for the stream up to `rest`. -/
def Spells (rest : List α) : List α → List (Piece α) → Prop
  | stream, [] => stream = rest
  | stream, p :: ps =>
    ∃ gap tail, stream = gap ++ p.items ++ tail ∧ gap.length = p.lost ∧ Spells rest tail ps

section Account

variable {rest stream tail : List α} {ps : List (Piece α)}

theorem Spells.snoc {p : Piece α} : ∀ {stream : List α} {ps : List (Piece α)},
    Spells rest stream ps → Spells tail rest [p] → Spells tail stream (ps ++ [p])
  | stream, [], h, hp => by
    have h : stream = rest := h
    rw [h]
    exact hp
  | stream, q :: ps, h, hp => by
    obtain ⟨gap, mid, hstream, hgap, hmid⟩ := h
    exact ⟨gap, mid, hstream, hgap, hmid.snoc hp⟩

theorem Spells.grow (new : List α) : ∀ {stream : List α} {ps : List (Piece α)},
    Spells rest stream ps → Spells (rest ++ new) (stream ++ new) ps
  | stream, [], h => congrArg (· ++ new) h
  | stream, p :: ps, h => by
    obtain ⟨gap, tail, hstream, hgap, htail⟩ := h
    refine ⟨gap, tail ++ new, ?_, hgap, htail.grow new⟩
    rw [hstream, List.append_assoc]

/-- **In order and never twice**: what was read is a part of the stream. -/
theorem Spells.sublist : ∀ {stream : List α} {ps : List (Piece α)},
    Spells rest stream ps → (ps.flatMap Piece.items ++ rest).Sublist stream
  | stream, [], h => by
    have h : stream = rest := h
    rw [h]
    exact List.Sublist.refl _
  | stream, p :: ps, h => by
    obtain ⟨gap, tail, rfl, -, htail⟩ := h
    rw [List.flatMap_cons, List.append_assoc, List.append_assoc]
    exact ((List.Sublist.refl _).append htail.sublist).trans (List.sublist_append_right _ _)

/-- **Read or counted**: the lengths add up. -/
theorem Spells.length_eq : ∀ {stream : List α} {ps : List (Piece α)}, Spells rest stream ps →
    stream.length = (ps.flatMap Piece.items).length + (ps.map Piece.lost).sum + rest.length
  | stream, [], h => by
    have h : stream = rest := h
    rw [h]
    simp
  | stream, p :: ps, h => by
    obtain ⟨gap, tail, rfl, hgap, htail⟩ := h
    have hlength := htail.length_eq
    simp only [List.length_append, List.flatMap_cons, List.map_cons, List.sum_cons]
    omega

end Account

/-! ## The queue -/

/-- A bounded queue: what waits, and how many have been dropped since the last read. -/
structure DropQueue (α : Type) where
  items : List α := []
  dropped : Nat := 0
  deriving DecidableEq, Repr

namespace DropQueue

/-- The queue as the piece that a reader of all of it would get. -/
def piece (q : DropQueue α) : Piece α := ⟨q.dropped, q.items⟩

/-- Drop at the old end while there are more than `bound`. -/
def trim (bound : Nat) : List α → Nat → DropQueue α
  | [], dropped => ⟨[], dropped⟩
  | a :: items, dropped =>
    if (a :: items).length > bound then trim bound items (dropped + 1)
    else ⟨a :: items, dropped⟩

/-- Append one element, within the bound. -/
def push (bound : Nat) (a : α) (q : DropQueue α) : DropQueue α :=
  trim bound (q.items ++ [a]) q.dropped

/-- Read at most `limit` elements, and the count of the dropped ones with them. -/
def take (limit : Nat) (q : DropQueue α) : Piece α × DropQueue α :=
  (⟨q.dropped, q.items.take limit⟩, ⟨q.items.drop limit, 0⟩)

/-- The queue is within its bound, and drops only what something follows. -/
structure Sound (bound : Nat) (q : DropQueue α) : Prop where
  bounded : q.items.length ≤ bound
  followed : 0 < q.dropped → q.items ≠ []

theorem sound_empty (bound : Nat) : Sound bound (⟨[], 0⟩ : DropQueue α) :=
  ⟨Nat.zero_le _, fun h => absurd h (Nat.lt_irrefl 0)⟩

theorem trim_bounded (bound : Nat) : ∀ (items : List α) (dropped : Nat),
    (trim bound items dropped).items.length ≤ bound
  | [], _ => Nat.zero_le _
  | a :: items, dropped => by
    rw [trim]
    split
    · exact trim_bounded bound items _
    · exact Nat.not_lt.mp ‹_›

theorem trim_ne_nil {bound : Nat} (hbound : 1 ≤ bound) : ∀ {items : List α} (dropped : Nat),
    items ≠ [] → (trim bound items dropped).items ≠ []
  | [], _, h => absurd rfl h
  | a :: items, dropped, _ => by
    rw [trim]
    split
    · rename_i hlong
      refine trim_ne_nil hbound _ fun hnil => ?_
      rw [hnil, List.length_singleton] at hlong
      omega
    · exact List.cons_ne_nil _ _

theorem trim_eq (bound : Nat) : ∀ (items : List α) (dropped : Nat),
    ∃ gap, items = gap ++ (trim bound items dropped).items ∧
      (trim bound items dropped).dropped = dropped + gap.length
  | [], dropped => ⟨[], rfl, rfl⟩
  | a :: items, dropped => by
    rw [trim]
    split
    · obtain ⟨gap, hitems, hdropped⟩ := trim_eq bound items (dropped + 1)
      refine ⟨a :: gap, ?_, ?_⟩
      · rw [List.cons_append, ← hitems]
      · rw [hdropped, List.length_cons]
        omega
    · exact ⟨[], rfl, rfl⟩

theorem sound_push {bound : Nat} (hbound : 1 ≤ bound) (a : α) (q : DropQueue α) :
    Sound bound (q.push bound a) where
  bounded := trim_bounded bound _ _
  followed := fun _ => trim_ne_nil hbound _ (by simp)

theorem sound_take {bound : Nat} {q : DropQueue α} (h : Sound bound q) (limit : Nat) :
    Sound bound (q.take limit).2 where
  bounded := by
    have hbounded := h.bounded
    rw [take, List.length_drop]
    omega
  followed := fun hpos => absurd hpos (Nat.lt_irrefl 0)

theorem take_followed {bound limit : Nat} {q : DropQueue α} (h : Sound bound q)
    (hlimit : 1 ≤ limit) (hlost : 0 < (q.take limit).1.lost) : (q.take limit).1.items ≠ [] := by
  intro hnil
  rcases List.take_eq_nil_iff.mp hnil with hzero | hempty
  · omega
  · exact h.followed hlost hempty

/-- **Pushing keeps the account** of what has not been read. -/
theorem spells_push {waiting : List α} {q : DropQueue α} (h : Spells [] waiting [q.piece])
    (bound : Nat) (a : α) : Spells [] (waiting ++ [a]) [(q.push bound a).piece] := by
  obtain ⟨gap, tail, rfl, hgap, htail⟩ := h
  have htail : tail = [] := htail
  subst htail
  obtain ⟨more, hitems, hdropped⟩ := trim_eq bound (q.items ++ [a]) q.dropped
  refine ⟨gap ++ more, [], ?_, ?_, rfl⟩
  · show gap ++ q.items ++ [] ++ [a] = gap ++ more ++ (q.push bound a).items ++ []
    rw [List.append_nil, List.append_nil, List.append_assoc, List.append_assoc, push, ← hitems]
  · show (gap ++ more).length = (q.push bound a).dropped
    rw [push, hdropped, List.length_append, hgap]
    rfl

/-- **Taking keeps the account**: the piece comes next, the queue is what is left. -/
theorem spells_take {waiting : List α} {q : DropQueue α} (h : Spells [] waiting [q.piece])
    (limit : Nat) : ∃ left, Spells left waiting [(q.take limit).1] ∧
      Spells [] left [(q.take limit).2.piece] := by
  obtain ⟨gap, tail, rfl, hgap, htail⟩ := h
  have htail : tail = [] := htail
  subst htail
  refine ⟨q.items.drop limit, ⟨gap, q.items.drop limit, ?_, hgap, rfl⟩, ⟨[], [], ?_, rfl, rfl⟩⟩
  · show gap ++ q.items ++ [] = gap ++ q.items.take limit ++ q.items.drop limit
    rw [List.append_nil, List.append_assoc, List.take_append_drop]
  · show q.items.drop limit = [] ++ q.items.drop limit ++ []
    rw [List.nil_append, List.append_nil]

end DropQueue
end NuSelf.Lib
