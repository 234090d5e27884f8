/-
  Spans of whole numbers that tile an interval.

  A span has a first and a last position, both included.  A list of spans tiles the positions below
  `n` when every span has a position and the spans, written out one after the other, give each
  position once and in order (`Tiles`).  A checker looks at the bounds only: each span begins where
  the one before it ended (`Abutting`).  The two agree (`tiles_iff`).
-/
import Mathlib.Data.List.Basic

namespace NuSelf.Lib

/-- `range(first, last + 1)`. -/
def positions (first last : Int) : List Int :=
  (List.range (last + 1 - first).toNat).map fun k : Nat => first + (k : Int)

/-- The spans give the positions below `n`, each once and in order, and none is empty. -/
def Tiles (n : Nat) (spans : List (Int × Int)) : Prop :=
  (∀ s ∈ spans, s.1 ≤ s.2) ∧
    spans.flatMap (fun s => positions s.1 s.2) = (List.range n).map fun k : Nat => (k : Int)

/-- Each span is not empty and begins at the position behind the one before it. -/
def Abutting : Int → List (Int × Int) → Int → Prop
  | first, [], stop => first = stop
  | first, s :: rest, stop => s.1 = first ∧ s.1 ≤ s.2 ∧ Abutting (s.2 + 1) rest stop

theorem length_positions (first last : Int) :
    (positions first last).length = (last + 1 - first).toNat := by
  rw [positions, List.length_map, List.length_range]

theorem positions_cons {first last : Int} (h : first ≤ last) :
    positions first last = first :: positions (first + 1) last := by
  have hlength : (last + 1 - first).toNat = (last + 1 - (first + 1)).toNat + 1 := by omega
  rw [positions, positions, hlength, List.range_succ_eq_map, List.map_cons, List.map_map]
  refine List.cons_eq_cons.mpr ⟨by omega, List.map_congr_left fun (k : Nat) _ => ?_⟩
  show first + ((k + 1 : Nat) : Int) = first + 1 + (k : Int)
  omega

theorem positions_append {first middle last : Int} (h : first ≤ middle + 1) (h' : middle ≤ last) :
    positions first last = positions first middle ++ positions (middle + 1) last := by
  have hlength : (last + 1 - first).toNat =
      (middle + 1 - first).toNat + (last + 1 - (middle + 1)).toNat := by omega
  rw [positions, positions, positions, hlength, List.range_add, List.map_append, List.map_map]
  refine congrArg _ (List.map_congr_left fun (k : Nat) _ => ?_)
  show first + (((middle + 1 - first).toNat + k : Nat) : Int) = middle + 1 + (k : Int)
  omega

theorem Abutting.le : ∀ {spans : List (Int × Int)} {first stop : Int},
    Abutting first spans stop → first ≤ stop
  | [], _, _, h => Int.le_of_eq h
  | s :: rest, first, stop, h => by
    obtain ⟨hfirst, hspan, hrest⟩ := h
    have hle := hrest.le
    omega

theorem Abutting.flatMap_positions : ∀ {spans : List (Int × Int)} {first stop : Int},
    Abutting first spans stop →
      spans.flatMap (fun s => positions s.1 s.2) = positions first (stop - 1)
  | [], first, stop, h => by
    have hempty : (positions first (stop - 1)).length = 0 := by
      rw [length_positions, show first = stop from h]
      omega
    rw [List.eq_nil_of_length_eq_zero hempty]
    rfl
  | s :: rest, first, stop, h => by
    obtain ⟨rfl, hspan, hrest⟩ := h
    have hle := hrest.le
    rw [List.flatMap_cons, hrest.flatMap_positions,
      positions_append (show s.1 ≤ s.2 + 1 by omega) (show s.2 ≤ stop - 1 by omega)]

theorem Abutting.nonempty : ∀ {spans : List (Int × Int)} {first stop : Int},
    Abutting first spans stop → ∀ s ∈ spans, s.1 ≤ s.2
  | [], _, _, _ => nofun
  | _ :: _, _, _, h => List.forall_mem_cons.mpr ⟨h.2.1, h.2.2.nonempty⟩

/-- Spans that write out an interval are a chain; the first position of the interval is that of
    the first span, and what is left of the interval is for the rest. -/
theorem chained_of_positions : ∀ {spans : List (Int × Int)} {first stop : Int},
    first ≤ stop → (∀ s ∈ spans, s.1 ≤ s.2) →
      spans.flatMap (fun s => positions s.1 s.2) = positions first (stop - 1) →
      Abutting first spans stop
  | [], first, stop, hle, _, h => by
    have hlength := congrArg List.length h
    rw [length_positions] at hlength
    show first = stop
    change 0 = _ at hlength
    omega
  | s :: rest, first, stop, hle, hspans, h => by
    obtain ⟨hspan, hrest⟩ := List.forall_mem_cons.mp hspans
    rw [List.flatMap_cons] at h
    have hlength := congrArg List.length h
    rw [List.length_append, length_positions, length_positions] at hlength
    have hstop : first ≤ stop - 1 := by omega
    have hfirst : s.1 = first := by
      rw [positions_cons hspan, positions_cons hstop, List.cons_append] at h
      exact (List.cons.inj h).1
    subst hfirst
    rw [positions_append (show s.1 ≤ s.2 + 1 by omega) (show s.2 ≤ stop - 1 by omega),
      List.append_cancel_left_eq] at h
    exact ⟨rfl, hspan, chained_of_positions (by omega) hrest h⟩

theorem Abutting.within : ∀ {spans : List (Int × Int)} {first stop : Int},
    Abutting first spans stop → ∀ s ∈ spans, first ≤ s.1 ∧ s.2 < stop
  | [], _, _, _ => nofun
  | t :: rest, first, stop, h => by
    obtain ⟨hfirst, hspan, hrest⟩ := h
    intro s hs
    cases List.mem_cons.mp hs with
    | inl hs =>
      have hle := hrest.le
      subst hs
      omega
    | inr hs =>
      have hin := hrest.within s hs
      omega

theorem Abutting.ordered : ∀ {spans : List (Int × Int)} {first stop : Int},
    Abutting first spans stop → spans.Pairwise fun s t => s.2 < t.1
  | [], _, _, _ => List.Pairwise.nil
  | s :: rest, first, stop, h => by
    refine List.pairwise_cons.mpr ⟨fun t ht => ?_, h.2.2.ordered⟩
    have hin := h.2.2.within t ht
    omega

/-- Every position from the start to the stop of a chain is in one of its spans. -/
theorem Abutting.covers : ∀ {spans : List (Int × Int)} {first stop position : Int},
    Abutting first spans stop → first ≤ position → position < stop →
      ∃ s ∈ spans, s.1 ≤ position ∧ position ≤ s.2
  | [], first, stop, position, h, hfirst, hstop => by
    have heq : first = stop := h
    omega
  | s :: rest, first, stop, position, h, hfirst, hstop => by
    by_cases hs : position ≤ s.2
    · refine ⟨s, List.mem_cons_self, ?_, hs⟩
      have hstart := h.1
      omega
    · obtain ⟨t, ht, hin⟩ := h.2.2.covers (show s.2 + 1 ≤ position by omega) hstop
      exact ⟨t, List.mem_cons_of_mem _ ht, hin⟩

theorem positions_zero (n : Nat) :
    positions 0 ((n : Int) - 1) = (List.range n).map fun k : Nat => (k : Int) := by
  have hlength : ((n : Int) - 1 + 1 - 0).toNat = n := by omega
  rw [positions, hlength]
  exact List.map_congr_left fun (k : Nat) _ => by omega

/-- **Checking the bounds is checking the cover.** -/
theorem tiles_iff {n : Nat} {spans : List (Int × Int)} : Tiles n spans ↔ Abutting 0 spans n := by
  rw [Tiles, ← positions_zero]
  constructor
  · exact fun h => chained_of_positions (by omega) h.1 h.2
  · exact fun h => ⟨h.nonempty, h.flatMap_positions⟩

end NuSelf.Lib
