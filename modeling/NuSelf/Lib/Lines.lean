/-
  Margins and line ends of a text, as lists of characters.

  `stripChars` takes the white space off both ends of a text, `universalNewlines` is what a text
  file reads as.  White space is kept as white space by the second, so the two commute
  (`stripChars_universalNewlines`), and neither touches a visible character: how many there are
  (`visible`) is the measure that tells a text from a longer one.

  1. `rdropWhile` from the front: what is left of `c :: l` (`rdropWhile_cons`).
  2. `stripChars` forgets white space at either end (`stripChars_append_left`,
     `stripChars_rdropWhile`).
  3. `universalNewlines` changes nothing exactly when there is no carriage return
     (`universalNewlines_eq_self_iff`).
-/
import Mathlib.Data.List.DropRight
import NuSelf.Lib.Text

namespace NuSelf.Lib

/-! ## Margins -/

theorem rdropWhile_cons {α : Type} (p : α → Bool) (c : α) (l : List α) :
    (c :: l).rdropWhile p = if l.rdropWhile p = [] ∧ p c = true then [] else c :: l.rdropWhile p := by
  by_cases hl : l.rdropWhile p = []
  · have hall := List.rdropWhile_eq_nil_iff.mp hl
    by_cases hc : p c = true
    · rw [if_pos ⟨hl, hc⟩, List.rdropWhile_eq_nil_iff]
      exact List.forall_mem_cons.mpr ⟨hc, hall⟩
    · -- everything behind `c` goes, and `c` stays
      rw [if_neg fun h => hc h.2, hl, List.rdropWhile, List.reverse_cons,
        List.dropWhile_append_of_pos fun x hx => hall x (List.mem_reverse.mp hx),
        List.dropWhile_cons_of_neg (by exact hc)]
      rfl
  · rw [if_neg fun h => hl h.1, List.rdropWhile, List.reverse_cons, List.dropWhile_append]
    have hne : (l.reverse.dropWhile p).isEmpty = false := by
      rw [List.isEmpty_eq_false_iff]
      intro hnil
      exact hl (by rw [List.rdropWhile, hnil, List.reverse_nil])
    rw [if_neg (by rw [hne]; exact Bool.false_ne_true), List.reverse_append]
    rfl

/-- `str.strip()` on characters. -/
def stripChars (l : List Char) : List Char := (l.dropWhile isSpace).rdropWhile isSpace

theorem toList_strip (s : String) : (strip s).toList = stripChars s.toList := by
  rw [strip, String.toList_ofList]
  rfl

theorem toList_rstrip (s : String) : (rstrip s).toList = s.toList.rdropWhile isSpace := by
  rw [rstrip, String.toList_ofList]
  rfl

theorem stripChars_append_left {w : List Char} (hw : ∀ c ∈ w, isSpace c = true) (l : List Char) :
    stripChars (w ++ l) = stripChars l := by
  rw [stripChars, List.dropWhile_append_of_pos hw]
  rfl

theorem dropWhile_rdropWhile {α : Type} (p : α → Bool) : ∀ l : List α,
    (l.rdropWhile p).dropWhile p = (l.dropWhile p).rdropWhile p
  | [] => rfl
  | c :: l => by
    by_cases hc : p c = true
    · rw [rdropWhile_cons, List.dropWhile_cons_of_pos hc, ← dropWhile_rdropWhile p l]
      split
      · rename_i h
        rw [h.1]
      · rw [List.dropWhile_cons_of_pos hc]
    · rw [List.dropWhile_cons_of_neg hc, rdropWhile_cons, if_neg fun h => hc h.2,
        List.dropWhile_cons_of_neg hc]

theorem stripChars_rdropWhile (l : List Char) :
    stripChars (l.rdropWhile isSpace) = stripChars l := by
  rw [stripChars, dropWhile_rdropWhile, List.rdropWhile_idempotent]
  rfl

theorem stripChars_idempotent (l : List Char) : stripChars (stripChars l) = stripChars l := by
  show stripChars ((l.dropWhile isSpace).rdropWhile isSpace) = stripChars l
  rw [stripChars_rdropWhile, stripChars, List.dropWhile_idempotent]
  rfl

theorem strip_strip (s : String) : strip (strip s) = strip s := by
  apply String.ext
  rw [toList_strip, toList_strip, stripChars_idempotent]

theorem stripChars_eq_nil_iff {l : List Char} :
    stripChars l = [] ↔ ∀ c ∈ l, isSpace c = true := by
  rw [stripChars, ← dropWhile_rdropWhile, List.dropWhile_eq_nil_iff]
  constructor
  · intro h c hc
    rw [← @List.rdropWhile_append_rtakeWhile _ isSpace l] at hc
    exact (List.mem_append.mp hc).elim (h c) List.mem_rtakeWhile_imp
  · exact fun h c hc => h c ((List.rdropWhile_prefix isSpace l).subset hc)

theorem rdropWhile_append_of_visible {α : Type} {p : α → Bool} {l : List α}
    (h : l.rdropWhile p ≠ []) : ∀ l' : List α, (l' ++ l).rdropWhile p = l' ++ l.rdropWhile p
  | [] => rfl
  | c :: l' => by
    rw [List.cons_append, rdropWhile_cons, rdropWhile_append_of_visible h l',
      if_neg fun hnil => h (List.append_eq_nil_iff.mp hnil.1).2]
    rfl

theorem rdropWhile_append_of_blank {α : Type} {p : α → Bool} {l : List α}
    (h : l.rdropWhile p = []) : ∀ l' : List α, (l' ++ l).rdropWhile p = l'.rdropWhile p
  | [] => h
  | c :: l' => by
    rw [List.cons_append, rdropWhile_cons, rdropWhile_cons, rdropWhile_append_of_blank h l']

theorem stripChars_append_right {w : List Char} (hw : ∀ c ∈ w, isSpace c = true) (l : List Char) :
    stripChars (l ++ w) = stripChars l := by
  rw [← stripChars_rdropWhile (l ++ w),
    rdropWhile_append_of_blank (List.rdropWhile_eq_nil_iff.mpr hw), stripChars_rdropWhile]

theorem getLast?_rdropWhile_ne {c : Char} (hc : isSpace c = true) (l : List Char) :
    (l.rdropWhile isSpace).getLast? ≠ some c := by
  intro hlast
  have hne : l.rdropWhile isSpace ≠ [] := by
    intro hnil
    rw [hnil] at hlast
    cases hlast
  rw [List.getLast?_eq_some_getLast hne, Option.some.injEq] at hlast
  exact List.rdropWhile_last_not isSpace l hne (hlast ▸ hc)

/-! ## Visible characters -/

/-- The number of characters that are not white space. -/
def visible (l : List Char) : Nat := l.countP fun c => !isSpace c

theorem visible_eq_zero_iff {l : List Char} : visible l = 0 ↔ ∀ c ∈ l, isSpace c = true := by
  rw [visible, List.countP_eq_zero]
  simp only [Bool.not_eq_true', Bool.not_eq_false]

theorem visible_append (l l' : List Char) : visible (l ++ l') = visible l + visible l' :=
  List.countP_append

theorem visible_dropWhile : ∀ l : List Char, visible (l.dropWhile isSpace) = visible l
  | [] => rfl
  | c :: l => by
    by_cases hc : isSpace c = true
    · rw [List.dropWhile_cons_of_pos hc, visible_dropWhile l, visible, visible,
        List.countP_cons_of_neg (by rw [hc]; exact Bool.false_ne_true)]
    · rw [List.dropWhile_cons_of_neg hc]

theorem visible_rdropWhile (l : List Char) : visible (l.rdropWhile isSpace) = visible l := by
  rw [visible, List.rdropWhile, List.countP_reverse]
  exact (visible_dropWhile l.reverse).trans (List.countP_reverse ..)

theorem visible_stripChars (l : List Char) : visible (stripChars l) = visible l := by
  rw [stripChars, visible_rdropWhile, visible_dropWhile]

/-! ## Line ends -/

theorem universalNewlines_cons {c : Char} (h : c ≠ '\r') (l : List Char) :
    universalNewlines (c :: l) = c :: universalNewlines l := by
  rw [universalNewlines]
  · rintro rest rfl
    exact absurd rfl h
  · rintro rfl
    exact absurd rfl h

theorem universalNewlines_append_left {l : List Char} (h : '\r' ∉ l) (l' : List Char) :
    universalNewlines (l ++ l') = l ++ universalNewlines l' := by
  induction l with
  | nil => rfl
  | cons c l ih =>
    rw [List.mem_cons, not_or] at h
    obtain ⟨hc, hl⟩ := h
    rw [List.cons_append, universalNewlines_cons (Ne.symm hc), ih hl]
    rfl

/-- A text is read piece by piece, unless a cut parts a carriage return from its line feed. -/
theorem universalNewlines_append {l : List Char} (h : l.getLast? ≠ some '\r') (l' : List Char) :
    universalNewlines (l ++ l') = universalNewlines l ++ universalNewlines l' := by
  fun_induction universalNewlines l with
  | case1 => rfl
  | case2 rest ih =>
    have hrest : rest.getLast? ≠ some '\r' := by
      rintro hlast
      cases rest with
      | nil => cases hlast
      | cons d rest => exact h hlast
    exact congrArg ('\n' :: ·) (ih hrest)
  | case3 rest hnot ih =>
    cases rest with
    | nil => exact absurd rfl h
    | cons d rest =>
      have hcons : universalNewlines ('\r' :: (d :: rest ++ l')) =
          '\n' :: universalNewlines (d :: rest ++ l') := by
        rw [universalNewlines]
        rintro rest' heq
        exact hnot rest (by rw [(List.cons.inj heq).1])
      exact hcons.trans (congrArg ('\n' :: ·) (ih h))
  | case4 c rest hpair hreturn ih =>
    have hrest : rest.getLast? ≠ some '\r' := by
      rintro hlast
      cases rest with
      | nil => cases hlast
      | cons d rest => exact h hlast
    rw [List.cons_append, universalNewlines_cons hreturn, ih hrest]
    rfl

theorem not_mem_universalNewlines (l : List Char) : '\r' ∉ universalNewlines l := by
  have hcons : ∀ {c : Char} {l : List Char}, '\r' ≠ c → '\r' ∉ l → '\r' ∉ c :: l :=
    fun hc hl h => (List.mem_cons.mp h).elim hc hl
  fun_induction universalNewlines l with
  | case1 => exact List.not_mem_nil
  | case2 rest ih => exact hcons (by decide) ih
  | case3 rest hnot ih => exact hcons (by decide) ih
  | case4 c rest hpair hreturn ih => exact hcons (fun h => hreturn h.symm) ih

/-- **Nothing changes exactly when there is no carriage return.** -/
theorem universalNewlines_eq_self_iff {l : List Char} : universalNewlines l = l ↔ '\r' ∉ l := by
  constructor
  · intro h
    rw [← h]
    exact not_mem_universalNewlines l
  · intro h
    have happend := universalNewlines_append_left h []
    rw [List.append_nil] at happend
    rw [happend]
    exact List.append_nil l

theorem visible_universalNewlines (l : List Char) : visible (universalNewlines l) = visible l := by
  have hspace : ∀ (c : Char) (l : List Char), isSpace c = true → visible (c :: l) = visible l :=
    fun c l hc => List.countP_cons_of_neg (by rw [hc]; exact Bool.false_ne_true)
  fun_induction universalNewlines l with
  | case1 => rfl
  | case2 rest ih =>
    rw [hspace _ _ (by decide), hspace _ _ (by decide), hspace _ _ (by decide), ih]
  | case3 rest hnot ih => rw [hspace _ _ (by decide), hspace _ _ (by decide), ih]
  | case4 c rest hpair hreturn ih =>
    rw [visible, visible, List.countP_cons, List.countP_cons]
    exact congrArg (· + _) ih

theorem dropWhile_universalNewlines (l : List Char) :
    (universalNewlines l).dropWhile isSpace = universalNewlines (l.dropWhile isSpace) := by
  fun_induction universalNewlines l with
  | case1 => rfl
  | case2 rest ih => exact ih
  | case3 rest hnot ih => exact ih
  | case4 c rest hpair hreturn ih =>
    by_cases hc : isSpace c = true
    · rw [List.dropWhile_cons_of_pos hc, List.dropWhile_cons_of_pos hc, ih]
    · rw [List.dropWhile_cons_of_neg hc, List.dropWhile_cons_of_neg hc,
        universalNewlines_cons hreturn]

theorem rdropWhile_universalNewlines (l : List Char) :
    (universalNewlines l).rdropWhile isSpace = universalNewlines (l.rdropWhile isSpace) := by
  -- a rest without a visible character has none in the other spelling
  have hnil : ∀ l : List Char, (universalNewlines l).rdropWhile isSpace = [] ↔
      l.rdropWhile isSpace = [] := fun l => by
    rw [List.rdropWhile_eq_nil_iff, List.rdropWhile_eq_nil_iff, ← visible_eq_zero_iff,
      visible_universalNewlines, visible_eq_zero_iff]
  fun_induction universalNewlines l with
  | case1 => rfl
  | case2 rest ih =>
    rw [rdropWhile_cons, rdropWhile_cons, rdropWhile_cons, ih]
    by_cases hrest : rest.rdropWhile isSpace = []
    · rw [if_pos ⟨by rw [hrest]; rfl, by decide⟩, if_pos ⟨if_pos ⟨hrest, by decide⟩, by decide⟩]
      rfl
    · have hne : ¬ (universalNewlines (rest.rdropWhile isSpace) = [] ∧ isSpace '\n' = true) :=
        fun h => hrest ((hnil rest).mp (ih.trans h.1))
      rw [if_neg hne, if_neg (c := rest.rdropWhile isSpace = [] ∧ _) fun h => hrest h.1,
        if_neg fun h => List.cons_ne_nil _ _ h.1]
      rfl
  | case3 rest hnot ih =>
    rw [rdropWhile_cons, rdropWhile_cons, ih]
    by_cases hrest : rest.rdropWhile isSpace = []
    · rw [if_pos ⟨by rw [hrest]; rfl, by decide⟩, if_pos ⟨hrest, by decide⟩]
      rfl
    · have hne : ¬ (universalNewlines (rest.rdropWhile isSpace) = [] ∧ isSpace '\n' = true) :=
        fun h => hrest ((hnil rest).mp (ih.trans h.1))
      rw [if_neg hne, if_neg fun h => hrest h.1]
      -- what is left of the rest begins as the rest does, not with a line feed
      obtain ⟨tail, htail⟩ := List.rdropWhile_prefix isSpace rest
      cases hleft : rest.rdropWhile isSpace with
      | nil => exact absurd hleft hrest
      | cons d left =>
        rw [hleft] at htail
        rw [universalNewlines]
        rintro rest' heq
        rw [heq] at htail
        exact hnot _ htail.symm
  | case4 c rest hpair hreturn ih =>
    rw [rdropWhile_cons, rdropWhile_cons, ih]
    by_cases hrest : rest.rdropWhile isSpace = []
    · rw [hrest]
      by_cases hc : isSpace c = true
      · rw [if_pos ⟨rfl, hc⟩, if_pos ⟨rfl, hc⟩]
        rfl
      · rw [if_neg fun h => hc h.2, if_neg fun h => hc h.2, universalNewlines_cons hreturn]
    · have hne : ¬ (universalNewlines (rest.rdropWhile isSpace) = [] ∧ isSpace c = true) :=
        fun h => hrest ((hnil rest).mp (ih.trans h.1))
      rw [if_neg hne, if_neg fun h => hrest h.1, universalNewlines_cons hreturn]

/-- **Reading and stripping commute.** -/
theorem stripChars_universalNewlines (l : List Char) :
    stripChars (universalNewlines l) = universalNewlines (stripChars l) := by
  rw [stripChars, dropWhile_universalNewlines, rdropWhile_universalNewlines]
  rfl

end NuSelf.Lib
