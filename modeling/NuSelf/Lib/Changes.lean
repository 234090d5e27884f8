/-
  The elements of a list at which a key changes.

  `changes key prev xs` goes over a list and keeps an element when its key is not the one of the
  element before it (`prev` before the first).  Where a list visits the elements of a plan in the
  order of the plan, each as often as it likes, the elements that are kept are the plan itself
  exactly when every element is visited and neighbours in the plan have different keys
  (`changes_eq_iff`).
-/
import Mathlib.Data.List.Chain

namespace NuSelf.Lib

variable {α κ : Type} [DecidableEq κ]

def changes (key : α → κ) : κ → List α → List α
  | _, [] => []
  | prev, a :: rest =>
    (if key a ≠ prev then [a] else []) ++ changes key (key a) rest

variable {key : α → κ} {rank : α → Int} {prev : κ}

theorem changes_cons_ne {a : α} (h : key a ≠ prev) (rest : List α) :
    changes key prev (a :: rest) = a :: changes key (key a) rest := by
  rw [changes, if_pos h]
  rfl

theorem changes_cons_eq {a : α} (h : key a = prev) (rest : List α) :
    changes key prev (a :: rest) = changes key (key a) rest := by
  rw [changes, if_neg (not_not.mpr h)]
  rfl

theorem mem_of_mem_changes {a : α} : ∀ {xs : List α} {prev : κ},
    a ∈ changes key prev xs → a ∈ xs
  | [], _, h => h
  | b :: rest, prev, h => by
    rcases List.mem_append.mp h with h | h
    · split at h
      · rw [List.mem_singleton.mp h]
        exact List.mem_cons_self
      · cases h
    · exact List.mem_cons_of_mem _ (mem_of_mem_changes h)

/-- The visits behind those of an element. -/
def later (rank : α → Int) (s : α) (visits : List α) : List α :=
  visits.filter fun a => decide (rank s < rank a)

theorem mem_later {s a : α} {visits : List α} :
    a ∈ later rank s visits ↔ a ∈ visits ∧ rank s < rank a := by
  rw [later, List.mem_filter, decide_eq_true_eq]

/-- Further visits of the first element of the plan change nothing: what is kept is what is kept of
    the visits behind them. -/
theorem changes_skip {s : α} {rest : List α} (hfirst : ∀ a ∈ rest, rank s < rank a) :
    ∀ {visits : List α}, (visits.Pairwise fun a b => rank a ≤ rank b) →
      (∀ a ∈ visits, a ∈ s :: rest) →
      changes key (key s) visits = changes key (key s) (later rank s visits)
  | [], _, _ => rfl
  | b :: visits, hsorted, hsub => by
    obtain ⟨hb, hsorted'⟩ := List.pairwise_cons.mp hsorted
    obtain ⟨hmem, hsub'⟩ := List.forall_mem_cons.mp hsub
    rcases List.mem_cons.mp hmem with rfl | hmem
    · rw [changes_cons_eq rfl, later, List.filter_cons_of_neg (by simp)]
      exact changes_skip hfirst hsorted' hsub'
    · -- from here on all visits are of others
      have hall : later rank s (b :: visits) = b :: visits := by
        refine List.filter_eq_self.mpr fun a ha => decide_eq_true ?_
        have hlt := hfirst b hmem
        rcases List.mem_cons.mp ha with rfl | ha
        · exact hlt
        · exact Int.lt_of_lt_of_le hlt (hb a ha)
      rw [hall]

section Plan

variable {s : α} {rest : List α} (hfirst : ∀ a ∈ rest, rank s < rank a)

include hfirst

theorem not_mem_rest : s ∉ rest := fun h => Int.lt_irrefl _ (hfirst s h)

theorem later_subset {visits : List α} (hsub : ∀ a ∈ visits, a ∈ s :: rest) :
    ∀ a ∈ later rank s visits, a ∈ rest := by
  intro a ha
  obtain ⟨ha, hlt⟩ := mem_later.mp ha
  rcases List.mem_cons.mp (hsub a ha) with rfl | ha
  · exact absurd hlt (Int.lt_irrefl _)
  · exact ha

/-- When the first element is visited first, every element is visited when the others are visited
    behind it. -/
theorem visited_iff {visits : List α} :
    (∀ a ∈ s :: rest, a ∈ s :: visits) ↔ ∀ a ∈ rest, a ∈ later rank s visits := by
  constructor
  · intro h a ha
    rcases List.mem_cons.mp (h a (List.mem_cons_of_mem _ ha)) with rfl | ha'
    · exact absurd ha (not_mem_rest hfirst)
    · exact mem_later.mpr ⟨ha', hfirst a ha⟩
  · intro h a ha
    rcases List.mem_cons.mp ha with rfl | ha
    · exact List.mem_cons_self
    · exact List.mem_cons_of_mem _ (mem_later.mp (h a ha)).1

/-- When the visits begin with another element, the first one is not visited at all. -/
theorem first_missing {a : α} {visits : List α} (has : a ≠ s)
    (hsorted : (a :: visits).Pairwise fun a b => rank a ≤ rank b)
    (hsub : ∀ b ∈ a :: visits, b ∈ s :: rest) : s ∉ a :: visits := by
  have hlt : rank s < rank a := by
    rcases List.mem_cons.mp (hsub a List.mem_cons_self) with h | h
    · exact absurd h has
    · exact hfirst a h
  intro hs
  rcases List.mem_cons.mp hs with rfl | hs
  · exact has rfl
  · exact absurd ((List.pairwise_cons.mp hsorted).1 s hs) (Int.not_le.mpr hlt)

end Plan

/-- **What is kept is the plan** exactly when every element is visited and neighbours have different
    keys.  The induction is on the plan: its first element is visited first, or not at all. -/
theorem changes_eq_iff {plan : List α} : ∀ {visits : List α} {prev : κ},
    (plan.Pairwise fun a b => rank a < rank b) →
    (visits.Pairwise fun a b => rank a ≤ rank b) → (∀ a ∈ visits, a ∈ plan) →
    (changes key prev visits = plan ↔
      (∀ a ∈ plan, a ∈ visits) ∧ List.IsChain (· ≠ ·) (prev :: plan.map key)) := by
  induction plan with
  | nil =>
    intro visits prev _ _ hsub
    have hnil : visits = [] := List.eq_nil_iff_forall_not_mem.mpr fun a ha => nomatch hsub a ha
    rw [hnil]
    exact ⟨fun _ => ⟨nofun, List.isChain_singleton _⟩, fun _ => rfl⟩
  | cons s rest ih =>
    intro visits prev hplan hsorted hsub
    obtain ⟨hfirst, hrest⟩ := List.pairwise_cons.mp hplan
    -- an element that is kept has been visited
    have hkept : changes key prev visits = s :: rest → s ∈ visits := by
      intro h
      refine mem_of_mem_changes (?_ : s ∈ changes key prev visits)
      rw [h]
      exact List.mem_cons_self
    cases visits with
    | nil => exact ⟨fun h => (nomatch h), fun h => (nomatch h.1 s List.mem_cons_self)⟩
    | cons a visits =>
      by_cases has : a = s
      · subst has
        obtain ⟨-, hsorted'⟩ := List.pairwise_cons.mp hsorted
        obtain ⟨-, hsub'⟩ := List.forall_mem_cons.mp hsub
        have hothers := later_subset hfirst hsub'
        have htail := @ih (later rank a visits) (key a) hrest (hsorted'.filter _) hothers
        rw [visited_iff hfirst, List.map_cons, List.isChain_cons_cons]
        by_cases hkey : key a = prev
        · -- the first element is taken for the one before it
          rw [changes_cons_eq hkey, changes_skip hfirst hsorted' hsub']
          constructor
          · intro h
            have hin : a ∈ changes key (key a) (later rank a visits) := by
              rw [h]
              exact List.mem_cons_self
            exact absurd (hothers a (mem_of_mem_changes hin)) (not_mem_rest hfirst)
          · rintro ⟨-, hne, -⟩
            exact absurd hkey.symm hne
        · rw [changes_cons_ne hkey, changes_skip hfirst hsorted' hsub']
          constructor
          · intro h
            obtain ⟨hall, hchain⟩ := htail.mp (List.cons.inj h).2
            exact ⟨hall, fun h => hkey h.symm, hchain⟩
          · rintro ⟨hall, -, hchain⟩
            rw [htail.mpr ⟨hall, hchain⟩]
      · have hmissing := first_missing hfirst has hsorted hsub
        constructor
        · exact fun h => absurd (hkept h) hmissing
        · exact fun h => absurd (h.1 s List.mem_cons_self) hmissing

end NuSelf.Lib
