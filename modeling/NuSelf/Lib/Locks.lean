/-
  Named locks and their holders.

  `lock k` is the thread that holds the lock `k`; `held n` are the locks of thread `n` as its
  program point tells them.  The table and the program points `Agree` when they say the same; each
  rule below says what a thread that takes, releases or abandons locks has to do for them to agree
  again.  `Agree.exclusive` is what the locks are for; threads that take them in order do not block
  each other for good (`Agree.no_cycle`).
-/
import Mathlib.Logic.Function.Basic
import Mathlib.Logic.Relation
import Mathlib.Order.Basic

namespace NuSelf.Lib

variable {κ ν : Type}

/-- The lock table says what the threads hold. -/
def Agree (lock : κ → Option ν) (held : ν → List κ) : Prop := ∀ k n, lock k = some n ↔ k ∈ held n

namespace Agree

variable {lock : κ → Option ν} {held held' : ν → List κ} {k : κ} {n m : ν}

/-- **Exclusion**: a lock has one holder. -/
theorem exclusive (h : Agree lock held) (hn : k ∈ held n) (hm : k ∈ held m) : n = m := by
  have hlock := (h k n).mpr hn
  rw [(h k m).mpr hm] at hlock
  exact (Option.some.inj hlock).symm

theorem not_held (h : Agree lock held) (hm : k ∈ held m) (hne : n ≠ m) : k ∉ held n :=
  fun hn => hne (h.exclusive hn hm)

theorem congr (h : Agree lock held) (hsame : ∀ m j, j ∈ held' m ↔ j ∈ held m) :
    Agree lock held' :=
  fun j m => (h j m).trans (hsame m j).symm

section

variable [DecidableEq κ]

theorem take (h : Agree lock held) (hfree : lock k = none)
    (hown : ∀ j, j ∈ held' n ↔ j = k ∨ j ∈ held n) (hother : ∀ m, m ≠ n → held' m = held m) :
    Agree (Function.update lock k (some n)) held' := by
  have hnobody : ∀ m, k ∉ held m := by
    intro m hm
    rw [(h k m).mpr hm] at hfree
    cases hfree
  intro j m
  by_cases hj : j = k
  · subst hj
    rw [Function.update_self]
    by_cases hm : m = n
    · subst hm
      exact ⟨fun _ => (hown j).mpr (.inl rfl), fun _ => rfl⟩
    · rw [hother m hm]
      exact ⟨fun heq => absurd (Option.some.inj heq).symm hm, fun hmem => absurd hmem (hnobody m)⟩
  · rw [Function.update_of_ne hj, h j m]
    by_cases hm : m = n
    · subst hm
      rw [hown j]
      exact ⟨.inr, fun hmem => hmem.resolve_left hj⟩
    · rw [hother m hm]

theorem release (h : Agree lock held) (hheld : k ∈ held n)
    (hown : ∀ j, j ∈ held' n ↔ j ≠ k ∧ j ∈ held n) (hother : ∀ m, m ≠ n → held' m = held m) :
    Agree (Function.update lock k none) held' := by
  intro j m
  by_cases hj : j = k
  · subst hj
    rw [Function.update_self]
    refine ⟨nofun, fun hmem => ?_⟩
    by_cases hm : m = n
    · subst hm
      exact absurd rfl ((hown j).mp hmem).1
    · rw [hother m hm] at hmem
      exact absurd hmem (h.not_held hheld hm)
  · rw [Function.update_of_ne hj, h j m]
    by_cases hm : m = n
    · subst hm
      rw [hown j]
      exact ⟨fun hmem => ⟨hj, hmem⟩, And.right⟩
    · rw [hother m hm]

end

theorem abandon [DecidableEq ν] (h : Agree lock held) (hown : held' n = [])
    (hother : ∀ m, m ≠ n → held' m = held m) :
    Agree (fun j => if lock j = some n then none else lock j) held' := by
  intro j m
  by_cases hm : m = n
  · subst hm
    rw [hown]
    refine ⟨fun hlock => ?_, nofun⟩
    dsimp only at hlock
    split at hlock
    · cases hlock
    · contradiction
  · rw [hother m hm, ← h j m]
    dsimp only
    by_cases hn : lock j = some n
    · rw [if_pos hn, hn]
      exact ⟨nofun, fun heq => absurd (Option.some.inj heq).symm hm⟩
    · rw [if_neg hn]

/-- **Locks that are taken in order make no cycle**: if each thread waits for a lock above all that
    it holds, no thread waits for itself, through however many others. -/
theorem no_cycle [Preorder κ] (h : Agree lock held) {waits : ν → Option κ}
    (horder : ∀ m j, waits m = some j → ∀ i ∈ held m, i < j) (n : ν) :
    ¬ Relation.TransGen (fun m m' => ∃ j, waits m = some j ∧ lock j = some m') n n := by
  have hpath : ∀ m, Relation.TransGen (fun m m' => ∃ j, waits m = some j ∧ lock j = some m') n m →
      ∃ j, waits n = some j ∧ ∃ i ∈ held m, j ≤ i := by
    intro m hway
    induction hway with
    | single hfirst =>
      obtain ⟨j, hwaits, hlock⟩ := hfirst
      exact ⟨j, hwaits, j, (h j _).mp hlock, le_refl j⟩
    | tail _ hlast ih =>
      obtain ⟨j, hwaits, i, hi, hle⟩ := ih
      obtain ⟨i', hwaits', hlock⟩ := hlast
      exact ⟨j, hwaits, i', (h i' _).mp hlock, hle.trans (horder _ i' hwaits' i hi).le⟩
  intro hcycle
  obtain ⟨j, hwaits, i, hi, hle⟩ := hpath n hcycle
  exact (horder n j hwaits i hi).not_ge hle

end Agree
end NuSelf.Lib
