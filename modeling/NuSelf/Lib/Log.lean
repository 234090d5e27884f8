/-
  Views of a growing log by absolute index.

  A `LogView` shows the tail of a log from an index on: `start` is the index of its first item.
  The tail may grow at the end, and a prefix of it may be moved away; `Follows` is what one or more
  such changes make of a view.  An observer that remembers what every index has shown (`remember`)
  can never be contradicted by a view that follows (`Follows.agrees`), and stays up to date
  (`Follows.upToDate`).
-/
import Mathlib.Data.List.Basic

namespace NuSelf.Lib

/-- The items of a log from the index `start` on. -/
structure LogView (α : Type) where
  start : Nat
  items : List α
  deriving DecidableEq

namespace LogView

variable {α : Type} {v v' w : LogView α}

/-- The index of the next item. -/
def next (v : LogView α) : Nat := v.start + v.items.length

/-- The item at an absolute index. -/
def at? (v : LogView α) (i : Nat) : Option α :=
  if i < v.start then none else v.items[i - v.start]?

theorem at?_lt {i : Nat} {a : α} (h : v.at? i = some a) : v.start ≤ i ∧ i < v.next := by
  unfold at? at h
  split at h
  · cases h
  · rename_i hge
    have hlt : i - v.start < v.items.length := (List.getElem?_eq_some_iff.mp h).1
    have hnext : v.next = v.start + v.items.length := rfl
    omega

theorem at?_start (v : LogView α) (i : Nat) : v.at? (v.start + i) = v.items[i]? := by
  unfold at?
  rw [if_neg (by omega), Nat.add_sub_cancel_left]

theorem at?_append {i : Nat} {a : α} (h : v.at? i = some a) (xs : List α) :
    (⟨v.start, v.items ++ xs⟩ : LogView α).at? i = some a := by
  obtain ⟨k, rfl⟩ := Nat.exists_eq_add_of_le (at?_lt h).1
  rw [at?_start] at h
  have hlt : k < v.items.length := (List.getElem?_eq_some_iff.mp h).1
  refine (at?_start (⟨v.start, v.items ++ xs⟩ : LogView α) k).trans ?_
  show (v.items ++ xs)[k]? = some a
  rw [List.getElem?_append_left hlt]
  exact h

theorem at?_next (v : LogView α) (x : α) (xs : List α) :
    (⟨v.start, v.items ++ x :: xs⟩ : LogView α).at? v.next = some x := by
  have hstart := at?_start (⟨v.start, v.items ++ x :: xs⟩ : LogView α) v.items.length
  refine hstart.trans ?_
  show (v.items ++ x :: xs)[v.items.length]? = some x
  rw [List.getElem?_append_right (Nat.le_refl _), Nat.sub_self]
  rfl

/-! ## What a view may become -/

/-- `n` items moved away in front, and `xs` appended. -/
structure Follows (v w : LogView α) : Prop where
  shift : ∃ n xs, n ≤ v.items.length ∧ w.start = v.start + n ∧ w.items = v.items.drop n ++ xs

theorem Follows.refl (v : LogView α) : v.Follows v :=
  ⟨0, [], Nat.zero_le _, rfl, by simp⟩

theorem Follows.extend (v : LogView α) (xs : List α) :
    v.Follows { v with items := v.items ++ xs } :=
  ⟨0, xs, Nat.zero_le _, rfl, by simp⟩

theorem Follows.advance {n : Nat} (h : n ≤ v.items.length) :
    v.Follows { start := v.start + n, items := v.items.drop n } :=
  ⟨n, [], h, rfl, by simp⟩

theorem Follows.next_le (h : v.Follows w) : v.next ≤ w.next := by
  obtain ⟨n, xs, hn, hstart, hitems⟩ := h
  show v.start + v.items.length ≤ w.start + w.items.length
  rw [hstart, hitems, List.length_append, List.length_drop]
  omega

/-- What stands at an index that the first view has given out stands there in the first view. -/
theorem Follows.at?_of_lt (h : v.Follows w) {i : Nat} {a : α} (ha : w.at? i = some a)
    (hi : i < v.next) : v.at? i = some a := by
  obtain ⟨n, xs, hn, hstart, hitems⟩ := h
  obtain ⟨hge, -⟩ := at?_lt ha
  have hnext : v.next = v.start + v.items.length := rfl
  rw [at?, if_neg (by omega), hitems, hstart] at ha
  -- the index lies in the part that was there before
  have hlt : i - (v.start + n) < (v.items.drop n).length := by
    rw [List.length_drop]
    omega
  rw [List.getElem?_append_left hlt, List.getElem?_drop] at ha
  have hindex : n + (i - (v.start + n)) = i - v.start := by omega
  rw [at?, if_neg (by omega), ← hindex]
  exact ha

/-! ## An observer -/

/-- What every index has shown so far. -/
abbrev Memory (α : Type) := Nat → Option α

/-- The observer remembers the first item an index shows. -/
def remember (seen : Memory α) (v : LogView α) : Memory α := fun i => (seen i).or (v.at? i)

/-- The memory knows the items of the view, and no index that is still to come. -/
structure UpToDate (seen : Memory α) (v : LogView α) : Prop where
  knows : ∀ i a, v.at? i = some a → seen i = some a
  bounded : ∀ i a, seen i = some a → i < v.next

theorem upToDate_self (v : LogView α) : UpToDate v.at? v :=
  ⟨fun _ _ h => h, fun _ _ h => (at?_lt h).2⟩

/-- **A view that follows never contradicts the memory.** -/
theorem Follows.agrees {seen : Memory α} (hseen : UpToDate seen v) (h : v.Follows w) {i : Nat}
    {a b : α} (ha : seen i = some a) (hb : w.at? i = some b) : b = a := by
  have hi : i < v.next := hseen.bounded i a ha
  have hv : v.at? i = some b := h.at?_of_lt hb hi
  have hsame : seen i = some b := hseen.knows i b hv
  exact Option.some.inj (hsame.symm.trans ha)

theorem Follows.upToDate {seen : Memory α} (hseen : UpToDate seen v) (h : v.Follows w) :
    UpToDate (remember seen w) w where
  knows := by
    intro i b hb
    unfold remember
    cases hi : seen i with
    | none => rw [Option.none_or, hb]
    | some a => rw [Option.some_or, h.agrees hseen hi hb]
  bounded := by
    intro i b hb
    unfold remember at hb
    cases hi : seen i with
    | none =>
      rw [hi, Option.none_or] at hb
      exact (at?_lt hb).2
    | some a => exact Nat.lt_of_lt_of_le (hseen.bounded i a hi) h.next_le

end LogView
end NuSelf.Lib
