/-
  The most recent entries of a history.

  What is kept of a history is its last `n` entries, `List.rtake n`.  The history grows by lists of
  new entries, each of which counts where it first occurs, `List.eraseDups`.

  1. `rtake_append_rtake` — keeping after each growth is keeping once.
  2. `length_of_not_mem_rtake` — an entry that is not kept has `n` entries after it.
  3. `rtake_append_eraseDups` — repeats do not matter where each of them is pushed out at once.
-/
import Mathlib.Data.List.DropRight
import Mathlib.Data.List.Nodup

namespace NuSelf.Lib

variable {α : Type} {n : Nat}

/-! ## The last entries -/

theorem rtake_length_le (n : Nat) (l : List α) : (l.rtake n).length ≤ n := by
  rw [List.rtake, List.length_drop]
  omega

theorem rtake_suffix (n : Nat) (l : List α) : l.rtake n <:+ l :=
  List.drop_suffix _ _

theorem rtake_of_length_le {l : List α} (h : l.length ≤ n) : l.rtake n = l := by
  rw [List.rtake, Nat.sub_eq_zero_of_le h, List.drop_zero]

theorem rtake_append_of_length_le {recent : List α} (h : n ≤ recent.length) (older : List α) :
    (older ++ recent).rtake n = recent.rtake n := by
  have hskip : (older ++ recent).length - n = older.length + (recent.length - n) := by
    rw [List.length_append]
    omega
  rw [List.rtake, hskip, ← List.drop_drop, List.drop_left]
  rfl

/-- **Keeping after each growth** is keeping once. -/
theorem rtake_append_rtake (n : Nat) (a b : List α) :
    (a.rtake n ++ b).rtake n = (a ++ b).rtake n := by
  rcases Nat.le_total a.length n with h | h
  · rw [rtake_of_length_le h]
  · have hkept : (a.rtake n).length = n := by
      rw [List.rtake, List.length_drop]
      omega
    have hsplit : a.take (a.length - n) ++ a.rtake n = a := List.take_append_drop _ _
    have hlong : n ≤ (a.rtake n ++ b).length := by
      rw [List.length_append]
      omega
    conv_rhs => rw [← hsplit, List.append_assoc]
    exact (rtake_append_of_length_le hlong _).symm

/-- **An entry that is not kept** has been pushed out by `n` later ones. -/
theorem length_of_not_mem_rtake {older newer : List α} {a : α}
    (h : a ∉ (older ++ a :: newer).rtake n) : n ≤ newer.length := by
  by_contra hshort
  have hfew : (a :: newer).length ≤ n := by
    rw [List.length_cons]
    omega
  refine h ?_
  have hskip : (older ++ a :: newer).length - n ≤ older.length := by
    rw [List.length_append]
    omega
  rw [List.rtake, List.drop_append_of_le_length hskip]
  exact List.mem_append_right _ List.mem_cons_self

/-! ## Repeats -/

/-- Every repeat is followed by `n` further entries. -/
def RepeatsPushed (n : Nat) (l : List α) : Prop :=
  ∀ older a newer, l = older ++ a :: newer → a ∈ older → n ≤ newer.length

theorem RepeatsPushed.of_nodup {l : List α} (h : l.Nodup) : RepeatsPushed n l := by
  rintro older a newer rfl ha
  exact absurd rfl ((List.nodup_append.mp h).2.2 a ha a List.mem_cons_self)

theorem RepeatsPushed.fresh {older recent : List α} (h : RepeatsPushed n (older ++ recent))
    (hlength : recent.length ≤ n) : recent.Nodup ∧ ∀ a ∈ recent, a ∉ older := by
  induction recent generalizing older with
  | nil => exact ⟨List.nodup_nil, fun a ha => (nomatch ha)⟩
  | cons a rest ih =>
    rw [List.length_cons] at hlength
    have hrest : RepeatsPushed n ((older ++ [a]) ++ rest) := by
      rwa [List.append_assoc, List.singleton_append]
    obtain ⟨hnodup, hfresh⟩ := ih hrest (by omega)
    have hold : a ∉ older := by
      intro ha
      have hpushed := h older a rest rfl ha
      omega
    refine ⟨List.nodup_cons.mpr ⟨fun ha => ?_, hnodup⟩, List.forall_mem_cons.mpr ⟨hold, ?_⟩⟩
    · exact hfresh a ha (List.mem_append_right _ List.mem_cons_self)
    · intro b hb hb'
      exact hfresh b hb (List.mem_append_left _ hb')

section

variable [DecidableEq α]

theorem nodup_eraseDups : ∀ l : List α, l.eraseDups.Nodup
  | [] => List.nodup_nil
  | a :: l => by
    rw [List.eraseDups_cons, List.nodup_cons]
    refine ⟨fun h => ?_, nodup_eraseDups _⟩
    have hmem := List.mem_eraseDups.mp h
    simp at hmem
termination_by l => l.length
decreasing_by
  have hle := List.length_filter_le (fun b => !b == a) l
  simp only [List.length_cons]
  omega

theorem eraseDups_of_nodup : ∀ {l : List α}, l.Nodup → l.eraseDups = l
  | [], _ => rfl
  | a :: l, h => by
    obtain ⟨ha, hl⟩ := List.nodup_cons.mp h
    have hall : l.filter (fun b => !b == a) = l := by
      refine List.filter_eq_self.mpr fun b hb => ?_
      have hne : b ≠ a := fun heq => ha (heq ▸ hb)
      simpa using hne
    rw [List.eraseDups_cons, hall, eraseDups_of_nodup hl]

theorem eraseDups_append_of_fresh {older recent : List α} (hnodup : recent.Nodup)
    (hfresh : ∀ a ∈ recent, a ∉ older) : (older ++ recent).eraseDups = older.eraseDups ++ recent := by
  have hall : recent.removeAll older = recent := by
    refine List.filter_eq_self.mpr fun a ha => ?_
    simpa using hfresh a ha
  rw [List.eraseDups_append, hall, eraseDups_of_nodup hnodup]

/-- **Repeats that are pushed out at once** do not matter. -/
theorem rtake_append_eraseDups {l : List α} (h : RepeatsPushed n l) (held : List α) :
    (held ++ l).rtake n = (held ++ l.eraseDups).rtake n := by
  have hsplit : l.take (l.length - n) ++ l.rtake n = l := List.take_append_drop _ _
  rw [← hsplit] at h
  obtain ⟨hnodup, hfresh⟩ := h.fresh (rtake_length_le n l)
  rcases Nat.le_total l.length n with hshort | hlong
  · rw [rtake_of_length_le hshort] at hnodup
    rw [eraseDups_of_nodup hnodup]
  · have hfull : n ≤ (l.rtake n).length := by
      rw [List.rtake, List.length_drop]
      omega
    have hdups : l.eraseDups = (l.take (l.length - n)).eraseDups ++ l.rtake n := by
      conv_lhs => rw [← hsplit]
      exact eraseDups_append_of_fresh hnodup hfresh
    rw [hdups, ← List.append_assoc, rtake_append_of_length_le hfull]
    conv_lhs => rw [← hsplit, ← List.append_assoc]
    exact rtake_append_of_length_le hfull _

end

end NuSelf.Lib
