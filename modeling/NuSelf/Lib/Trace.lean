/-
  Traces: what has happened, oldest first, and the order of happenings.

  `Guarded G p t` says that in the trace `t` nothing that satisfies `p` happens before `G` holds of
  what came earlier.  A trace is built by appending, so the rules say when an appended part keeps
  the guard: when nothing guarded is in it, or when `G` holds already and is not lost by time.

  `Follows R a us` is about a value that is replaced again and again: `us` are its replacements,
  each with a tag that says what made it, and `R` holds of every value and its replacement.
-/
import Mathlib.Data.List.Basic

namespace NuSelf.Lib

variable {α : Type}

/-- Everything in `t` that satisfies `p` happens after `G` holds. -/
def Guarded (G : List α → Prop) (p : α → Prop) (t : List α) : Prop :=
  ∀ pre a post, t = pre ++ a :: post → p a → G pre

/-- `G` holds of every later trace. -/
def Stable (G : List α → Prop) : Prop := ∀ t new, G t → G (t ++ new)

variable {G : List α → Prop} {p : α → Prop} {t new : List α}

theorem Guarded.nil : Guarded G p [] := by
  intro pre a post h
  simp at h

/-- An appended part is guarded when each of its happenings is, seen from the whole. -/
theorem Guarded.append (ht : Guarded G p t)
    (hnew : ∀ pre a post, new = pre ++ a :: post → p a → G (t ++ pre)) : Guarded G p (t ++ new) := by
  intro pre a post h ha
  rcases List.append_eq_append_iff.mp h with ⟨m, hpre, hm⟩ | ⟨m, hpre, hm⟩
  · rw [hpre]
    exact hnew m a post hm ha
  · cases m with
    | nil =>
      rw [List.append_nil] at hpre
      rw [← hpre, ← List.append_nil t]
      exact hnew [] a post hm.symm ha
    | cons b m =>
      rw [List.cons_append, List.cons.injEq] at hm
      obtain ⟨rfl, -⟩ := hm
      exact ht pre a m hpre ha

theorem Guarded.append_of_not (ht : Guarded G p t) (hnew : ∀ a ∈ new, ¬ p a) :
    Guarded G p (t ++ new) := by
  refine ht.append fun pre a post h ha => absurd ha (hnew a ?_)
  rw [h]
  exact List.mem_append_right _ List.mem_cons_self

theorem Guarded.append_of_holds (ht : Guarded G p t) (hstable : Stable G) (hG : G t) :
    Guarded G p (t ++ new) :=
  ht.append fun pre _ _ _ _ => hstable t pre hG

/-! ## What a part of a program adds -/

/-- `t'` is `t` with happenings that satisfy `P` appended. -/
def Adds (P : α → Prop) (t t' : List α) : Prop := ∃ new, t' = t ++ new ∧ ∀ a ∈ new, P a

theorem Adds.refl (P : α → Prop) (t : List α) : Adds P t t := ⟨[], by simp, by simp⟩

theorem Adds.of_append {P : α → Prop} {t new : List α} (h : ∀ a ∈ new, P a) :
    Adds P t (t ++ new) :=
  ⟨new, rfl, h⟩

theorem Adds.snoc {P : α → Prop} {a : α} (h : P a) (t : List α) : Adds P t (t ++ [a]) :=
  Adds.of_append fun _ hb => List.mem_singleton.mp hb ▸ h

theorem Adds.trans {P : α → Prop} {t t' t'' : List α} (h : Adds P t t') (h' : Adds P t' t'') :
    Adds P t t'' := by
  obtain ⟨new, rfl, hnew⟩ := h
  obtain ⟨new', rfl, hnew'⟩ := h'
  refine ⟨new ++ new', by rw [List.append_assoc], fun a ha => ?_⟩
  rcases List.mem_append.mp ha with ha | ha
  · exact hnew a ha
  · exact hnew' a ha

theorem Adds.mono {P Q : α → Prop} {t t' : List α} (h : Adds P t t') (hPQ : ∀ a, P a → Q a) :
    Adds Q t t' := by
  obtain ⟨new, rfl, hnew⟩ := h
  exact ⟨new, rfl, fun a ha => hPQ a (hnew a ha)⟩

theorem Adds.countP_eq {P : α → Prop} {q : α → Bool} {t t' : List α} (h : Adds P t t')
    (hPq : ∀ a, P a → q a = false) : t'.countP q = t.countP q := by
  obtain ⟨new, rfl, hnew⟩ := h
  have hzero : new.countP q = 0 := by
    rw [List.countP_eq_zero]
    intro a ha
    simp [hPq a (hnew a ha)]
  rw [List.countP_append, hzero, Nat.add_zero]

theorem Adds.guarded {P : α → Prop} {t t' : List α} (h : Adds P t t') (ht : Guarded G p t)
    (hPp : ∀ a, P a → ¬ p a) : Guarded G p t' := by
  obtain ⟨new, rfl, hnew⟩ := h
  exact ht.append_of_not fun a ha => hPp a (hnew a ha)

theorem Adds.guarded_of_holds {P : α → Prop} {t t' : List α} (h : Adds P t t')
    (ht : Guarded G p t) (hstable : Stable G) (hG : G t) : Guarded G p t' := by
  obtain ⟨new, rfl, -⟩ := h
  exact ht.append_of_holds hstable hG

theorem Adds.holds {P : α → Prop} {t t' : List α} (h : Adds P t t') (hstable : Stable G)
    (hG : G t) : G t' := by
  obtain ⟨new, rfl, -⟩ := h
  exact hstable t new hG

/-! ## A value and its replacements -/

variable {κ : Type}

/-- The value after the replacements. -/
def latest (a : α) : List (κ × α) → α
  | [] => a
  | u :: us => latest u.2 us

/-- Every replacement is as `R` asks of the value it replaces. -/
def Follows (R : α → κ × α → Prop) (a : α) : List (κ × α) → Prop
  | [] => True
  | u :: us => R a u ∧ Follows R u.2 us

/-- Whether every replacement is as asked can be computed. -/
def decideFollows {R : α → κ × α → Prop} (hR : ∀ a u, Decidable (R a u)) :
    ∀ a us, Decidable (Follows R a us)
  | _, [] => isTrue trivial
  | a, u :: us =>
    match hR a u, decideFollows hR u.2 us with
    | isTrue h, isTrue h' => isTrue ⟨h, h'⟩
    | isFalse h, _ => isFalse fun hf => h hf.1
    | _, isFalse h => isFalse fun hf => h hf.2

instance {R : α → κ × α → Prop} [hR : ∀ a u, Decidable (R a u)] (a : α) (us : List (κ × α)) :
    Decidable (Follows R a us) :=
  decideFollows hR a us

@[simp] theorem latest_append (a : α) : ∀ us vs : List (κ × α),
    latest a (us ++ vs) = latest (latest a us) vs
  | [], _ => rfl
  | u :: us, vs => latest_append u.2 us vs

theorem follows_append {R : α → κ × α → Prop} {vs : List (κ × α)} : ∀ {a : α} {us : List (κ × α)},
    Follows R a (us ++ vs) ↔ Follows R a us ∧ Follows R (latest a us) vs
  | _, [] => ⟨fun h => ⟨trivial, h⟩, fun h => h.2⟩
  | a, u :: us => by
    rw [List.cons_append, Follows, Follows, follows_append, and_assoc]
    rfl

end NuSelf.Lib
