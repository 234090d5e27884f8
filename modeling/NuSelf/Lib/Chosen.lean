/-
  The elements of a list that are chosen by what stands before them.

  `chosen p before xs` goes over `xs` and keeps an element when `p` holds of it and of all that came
  before it, chosen or not; `before` is what came before `xs`.

  1. `chosen_perm` — what is kept by one or the other, but not by both.
  2. `nodup_chosen`, `key_mem_chosen`, `chosen_of_nodup` — with `isNew` the first element of each
     key is kept, and no other.
  3. `foldl_addBy` — so does a loop that takes an element if its key is not there yet.
-/
import Mathlib.Data.List.Nodup
import Mathlib.Data.List.Perm.Basic

namespace NuSelf.Lib

variable {α κ : Type}

def chosen (p : List α → α → Bool) : List α → List α → List α
  | _, [] => []
  | before, a :: rest =>
    if p before a = true then a :: chosen p (before ++ [a]) rest else chosen p (before ++ [a]) rest

/-- No element before has the key of this one. -/
def isNew [DecidableEq κ] (key : α → κ) (before : List α) (a : α) : Bool :=
  decide (key a ∉ before.map key)

variable {p q r : List α → α → Bool}

theorem chosen_sublist : ∀ (before xs : List α), (chosen p before xs).Sublist xs
  | _, [] => List.Sublist.slnil
  | before, a :: rest => by
    have ih := chosen_sublist (before ++ [a]) rest
    rw [chosen]
    split
    · exact ih.cons_cons a
    · exact ih.cons a

theorem of_mem_chosen {a : α} : ∀ {before xs : List α}, a ∈ chosen p before xs →
    ∃ pre, p pre a = true
  | _, [], h => absurd h List.not_mem_nil
  | before, b :: rest, h => by
    rw [chosen] at h
    split at h
    · rename_i hb
      rcases List.mem_cons.mp h with rfl | h
      · exact ⟨before, hb⟩
      · exact of_mem_chosen h
    · exact of_mem_chosen h

theorem chosen_true : ∀ before xs : List α, chosen (fun _ _ => true) before xs = xs
  | _, [] => rfl
  | before, a :: rest => congrArg (a :: ·) (chosen_true (before ++ [a]) rest)

/-- **What is kept** by one or the other, where no element is kept by both. -/
theorem chosen_perm (h : ∀ pre a, (q pre a).toNat + (r pre a).toNat = (p pre a).toNat) :
    ∀ before xs : List α, (chosen q before xs ++ chosen r before xs).Perm (chosen p before xs)
  | _, [] => List.Perm.nil
  | before, a :: rest => by
    have ih := chosen_perm h (before ++ [a]) rest
    have ha := h before a
    rw [chosen, chosen, chosen]
    cases hp : p before a <;> cases hq : q before a <;> cases hr : r before a <;>
      rw [hp, hq, hr] at ha
    · exact ih
    · cases ha
    · cases ha
    · cases ha
    · cases ha
    · exact List.perm_middle.trans (ih.cons a)
    · exact ih.cons a
    · cases ha

/-! ## The first of each key -/

section

variable [DecidableEq κ] {key : α → κ}

theorem isNew_iff {before : List α} {a : α} :
    isNew key before a = true ↔ ∀ b ∈ before, key b ≠ key a := by
  rw [isNew, decide_eq_true_iff, List.mem_map]
  exact ⟨fun h b hb heq => h ⟨b, hb, heq⟩, fun h ⟨b, hb, heq⟩ => h b hb heq⟩

theorem nodup_chosen (key : α → κ) : ∀ before xs : List α,
    ((chosen (isNew key) before xs).map key).Nodup ∧
      ∀ a ∈ chosen (isNew key) before xs, ∀ b ∈ before, key b ≠ key a
  | _, [] => ⟨List.nodup_nil, fun _ h => nomatch h⟩
  | before, a :: rest => by
    obtain ⟨hnodup, hapart⟩ := nodup_chosen key (before ++ [a]) rest
    have hbefore : ∀ c ∈ chosen (isNew key) (before ++ [a]) rest, ∀ b ∈ before, key b ≠ key c :=
      fun c hc b hb => hapart c hc b (List.mem_append_left _ hb)
    rw [chosen]
    split
    · rename_i ha
      rw [List.map_cons, List.nodup_cons, List.forall_mem_cons]
      refine ⟨⟨fun hmem => ?_, hnodup⟩, isNew_iff.mp ha, hbefore⟩
      obtain ⟨c, hc, hkey⟩ := List.mem_map.mp hmem
      exact hapart c hc a (List.mem_append_right _ List.mem_cons_self) hkey.symm
    · exact ⟨hnodup, hbefore⟩

theorem key_mem_chosen (key : α → κ) : ∀ (before xs : List α), ∀ a ∈ xs,
    (∃ b ∈ before, key b = key a) ∨ ∃ b ∈ chosen (isNew key) before xs, key b = key a
  | _, [], _, ha => nomatch ha
  | before, c :: rest, a, ha => by
    have ih := key_mem_chosen key (before ++ [c]) rest
    by_cases hc : isNew key before c = true
    · rw [chosen, if_pos hc]
      rcases List.mem_cons.mp ha with rfl | ha
      · exact Or.inr ⟨a, List.mem_cons_self, rfl⟩
      · rcases ih a ha with ⟨b, hb, hkey⟩ | ⟨b, hb, hkey⟩
        · rcases List.mem_append.mp hb with hb | hb
          · exact Or.inl ⟨b, hb, hkey⟩
          · rw [List.mem_singleton.mp hb] at hkey
            exact Or.inr ⟨c, List.mem_cons_self, hkey⟩
        · exact Or.inr ⟨b, List.mem_cons_of_mem _ hb, hkey⟩
    · rw [chosen, if_neg hc]
      rw [isNew, decide_eq_true_iff, not_not] at hc
      obtain ⟨d, hd, hdc⟩ := List.mem_map.mp hc
      rcases List.mem_cons.mp ha with rfl | ha
      · exact Or.inl ⟨d, hd, hdc⟩
      · rcases ih a ha with ⟨b, hb, hkey⟩ | hkept
        · rcases List.mem_append.mp hb with hb | hb
          · exact Or.inl ⟨b, hb, hkey⟩
          · rw [List.mem_singleton.mp hb] at hkey
            exact Or.inl ⟨d, hd, hdc.trans hkey⟩
        · exact Or.inr hkept

theorem chosen_of_nodup : ∀ {before xs : List α}, (xs.map key).Nodup →
    (∀ a ∈ xs, ∀ b ∈ before, key b ≠ key a) → chosen (isNew key) before xs = xs
  | _, [], _, _ => rfl
  | before, a :: rest, hnodup, hapart => by
    obtain ⟨ha, hrest⟩ := List.nodup_cons.mp hnodup
    obtain ⟨hfirst, hlater⟩ := List.forall_mem_cons.mp hapart
    rw [chosen, if_pos (isNew_iff.mpr hfirst), chosen_of_nodup hrest fun c hc b hb => ?_]
    rcases List.mem_append.mp hb with hb | hb
    · exact hlater c hc b hb
    · rw [List.mem_singleton.mp hb]
      exact fun heq => ha (List.mem_map.mpr ⟨c, hc, heq.symm⟩)

/-- An element behind the others, unless one of them has its key. -/
def addBy (key : α → κ) (taken : List α) (a : α) : List α :=
  if key a ∈ taken.map key then taken else taken ++ [a]

/-- The loop from what it has taken so far: all that matters of it are the keys. -/
theorem foldl_addBy_of_keys {xs : List α} : ∀ {taken before : List α},
    (∀ k, k ∈ taken.map key ↔ k ∈ before.map key) →
      xs.foldl (addBy key) taken = taken ++ chosen (isNew key) before xs := by
  induction xs with
  | nil =>
    intro taken before _
    exact (List.append_nil taken).symm
  | cons a rest ih =>
    intro taken before hkeys
    rw [List.foldl_cons, addBy, chosen, isNew]
    by_cases ha : key a ∈ before.map key
    · rw [if_pos ((hkeys _).mpr ha), decide_eq_false (not_not.mpr ha)]
      refine ih fun k => ?_
      rw [hkeys, List.map_append, List.mem_append, List.map_singleton, List.mem_singleton]
      exact ⟨Or.inl, fun h => h.elim id (· ▸ ha)⟩
    · have hrest : rest.foldl (addBy key) (taken ++ [a]) =
          taken ++ [a] ++ chosen (isNew key) (before ++ [a]) rest := by
        refine ih fun k => ?_
        rw [List.map_append, List.map_append, List.mem_append, List.mem_append, hkeys]
      rw [if_neg fun h => ha ((hkeys _).mp h), decide_eq_true ha, if_pos rfl, hrest,
        List.append_assoc]
      rfl

/-- **The loop** takes the first of each key. -/
theorem foldl_addBy (taken xs : List α) :
    xs.foldl (addBy key) taken = taken ++ chosen (isNew key) taken xs :=
  foldl_addBy_of_keys fun _ => Iff.rfl

end

end NuSelf.Lib
