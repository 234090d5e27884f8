/-
  Cutting a list at every occurrence of a separator, which may be longer than one element.

  The occurrences are found from the left and do not overlap.  The pieces have the separator
  nowhere inside, and pieces without it come back when they are joined and cut again, provided that
  the separator does not begin in the middle of a piece and run over its end.

  1. `not_infix_of_mem_splitSep` — no piece has the separator inside;
  2. `splitSep_append` — the first piece, up to an occurrence;
  3. `splitSep_of_whole` — a list without the separator is one piece;
  4. `splitSep_intercalate` — cutting what has been joined.
-/
import Mathlib.Data.List.Infix

namespace NuSelf.Lib

variable {α : Type} [DecidableEq α]

/-- The pieces, where the first `skip` elements belong to an occurrence that has been found. -/
def splitFrom (sep : List α) : Nat → List α → List (List α)
  | _, [] => [[]]
  | skip + 1, _ :: rest => splitFrom sep skip rest
  | 0, c :: rest =>
    if sep <+: c :: rest then [] :: splitFrom sep (sep.length - 1) rest
    else
      match splitFrom sep 0 rest with
      | [] => [[c]]
      | piece :: pieces => (c :: piece) :: pieces

/-- `str.split(sep)`. -/
def splitSep (sep l : List α) : List (List α) := splitFrom sep 0 l

theorem splitFrom_ne_nil (sep : List α) : ∀ (l : List α) (skip : Nat), splitFrom sep skip l ≠ []
  | [], _ => by simp [splitFrom]
  | _ :: rest, skip + 1 => splitFrom_ne_nil sep rest skip
  | c :: rest, 0 => by
    rw [splitFrom]
    split
    · exact List.cons_ne_nil _ _
    · split <;> exact List.cons_ne_nil _ _

theorem splitSep_cons_of_not {sep : List α} {c : α} {rest : List α} (h : ¬ sep <+: c :: rest) :
    ∃ piece pieces, splitSep sep rest = piece :: pieces ∧
      splitSep sep (c :: rest) = (c :: piece) :: pieces := by
  unfold splitSep
  rw [splitFrom, if_neg h]
  cases hrest : splitFrom sep 0 rest with
  | nil => exact absurd hrest (splitFrom_ne_nil sep rest 0)
  | cons piece pieces => exact ⟨piece, pieces, rfl, rfl⟩

theorem splitFrom_skip (sep : List α) : ∀ (found rest : List α),
    splitFrom sep found.length (found ++ rest) = splitSep sep rest
  | [], _ => rfl
  | _ :: found, rest => splitFrom_skip sep found rest

theorem splitSep_sep {sep : List α} (hsep : sep ≠ []) (rest : List α) :
    splitSep sep (sep ++ rest) = [] :: splitSep sep rest := by
  obtain ⟨c, found, rfl⟩ := List.exists_cons_of_ne_nil hsep
  have hfront : c :: found <+: c :: (found ++ rest) := List.prefix_append (c :: found) rest
  rw [splitSep, List.cons_append, splitFrom, if_pos hfront, List.length_cons, Nat.add_sub_cancel,
    splitFrom_skip]

/-- **The first piece**: where no occurrence begins before it, it ends at the separator. -/
theorem splitSep_append {sep : List α} (hsep : sep ≠ []) : ∀ {piece rest : List α},
    (∀ t, t <:+ piece → t ≠ [] → ¬ sep <+: t ++ (sep ++ rest)) →
    splitSep sep (piece ++ (sep ++ rest)) = piece :: splitSep sep rest
  | [], rest, _ => splitSep_sep hsep rest
  | c :: piece, rest, h => by
    have hnot := h (c :: piece) (List.suffix_refl _) (List.cons_ne_nil _ _)
    have hpiece : splitSep sep (piece ++ (sep ++ rest)) = piece :: splitSep sep rest :=
      splitSep_append hsep fun t ht hne => h t (ht.trans (List.suffix_cons c piece)) hne
    obtain ⟨first, others, heq, hcons⟩ := splitSep_cons_of_not hnot
    obtain ⟨rfl, rfl⟩ := List.cons_eq_cons.mp (hpiece.symm.trans heq)
    exact hcons

/-- **Without the separator** there is one piece. -/
theorem splitSep_of_whole {sep : List α} : ∀ {l : List α}, ¬ sep <:+: l → splitSep sep l = [l]
  | [], _ => rfl
  | c :: l, h => by
    rw [List.infix_cons_iff, not_or] at h
    obtain ⟨first, others, heq, hcons⟩ := splitSep_cons_of_not h.1
    rw [splitSep_of_whole h.2] at heq
    obtain ⟨rfl, rfl⟩ := List.cons_eq_cons.mp heq
    exact hcons

/-- The first piece is what stands before the first occurrence, the others come later. -/
theorem splitFrom_pieces {sep : List α} (hsep : sep ≠ []) : ∀ (l : List α) (skip : Nat),
    (∀ piece ∈ splitFrom sep skip l, ¬ sep <:+: piece) ∧
      (skip = 0 → ∀ first ∈ (splitFrom sep 0 l).head?, first <+: l)
  | [], skip => by
    have hnil : splitFrom sep skip [] = [[]] := by cases skip <;> rfl
    refine ⟨fun piece hpiece => ?_, fun _ first hfirst => ?_⟩
    · rw [hnil, List.mem_singleton] at hpiece
      rw [hpiece, List.infix_nil]
      exact hsep
    · obtain rfl : [] = first := Option.some.inj hfirst
      exact List.nil_prefix
  | c :: rest, skip + 1 => ⟨(splitFrom_pieces hsep rest skip).1, fun h => nomatch h⟩
  | c :: rest, 0 => by
    by_cases hfound : sep <+: c :: rest
    · rw [splitFrom, if_pos hfound]
      refine ⟨List.forall_mem_cons.mpr ⟨?_, (splitFrom_pieces hsep rest _).1⟩, fun _ first hfirst => ?_⟩
      · rw [List.infix_nil]
        exact hsep
      · obtain rfl : [] = first := Option.some.inj hfirst
        exact List.nil_prefix
    · obtain ⟨hothers, hfront⟩ := splitFrom_pieces hsep rest 0
      obtain ⟨piece, pieces, heq, hcons⟩ := splitSep_cons_of_not hfound
      unfold splitSep at heq hcons
      rw [heq] at hothers hfront
      rw [hcons]
      have hpiece : c :: piece <+: c :: rest :=
        List.cons_prefix_cons.mpr ⟨rfl, hfront rfl piece rfl⟩
      obtain ⟨hfirst, hlater⟩ := List.forall_mem_cons.mp hothers
      refine ⟨List.forall_mem_cons.mpr ⟨fun hinfix => ?_, hlater⟩, fun _ first hf => ?_⟩
      · rcases List.infix_cons_iff.mp hinfix with hat | hin
        · exact hfound (hat.trans hpiece)
        · exact hfirst hin
      · obtain rfl : c :: piece = first := Option.some.inj hf
        exact hpiece

/-- **No piece has the separator inside.** -/
theorem not_infix_of_mem_splitSep {sep l piece : List α} (hsep : sep ≠ [])
    (h : piece ∈ splitSep sep l) : ¬ sep <:+: piece :=
  (splitFrom_pieces hsep l 0).1 piece h

/-- **Cutting what has been joined**: pieces without the separator, none of which runs into it. -/
theorem splitSep_intercalate {sep : List α} (hsep : sep ≠ []) : ∀ {pieces : List (List α)},
    pieces ≠ [] →
    (∀ piece ∈ pieces, ¬ sep <:+: piece ∧
      ∀ t rest, t <:+ piece → t ≠ [] → ¬ sep <+: t ++ (sep ++ rest)) →
    splitSep sep (sep.intercalate pieces) = pieces
  | [], hne, _ => absurd rfl hne
  | [piece], _, h => by
    rw [List.intercalate_singleton]
    exact splitSep_of_whole (h piece List.mem_cons_self).1
  | piece :: next :: others, _, h => by
    obtain ⟨hfirst, hrest⟩ := List.forall_mem_cons.mp h
    rw [List.intercalate_cons_cons, List.append_assoc,
      splitSep_append hsep (fun t => hfirst.2 t _),
      splitSep_intercalate hsep (List.cons_ne_nil _ _) hrest]

end NuSelf.Lib
