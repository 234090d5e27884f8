/-
  SQL `LIKE` patterns and the window of a query.

  A pattern is a text in which `%` stands for any run of characters, `_` for any one character and
  every other character for itself; the letters A to Z match without regard to case.  There is no
  escape character.

  1. `like` — the matcher, structural on the pattern.
  2. `like_append_percent` — a pattern with `%` behind it matches exactly the texts that have a
     beginning the pattern matches.  Every text matches itself (`like_self`), so such a pattern
     finds everything that begins with the text it was made of, and possibly more.
  3. `queryWindow` — `LIMIT ? OFFSET ?`.  A window of a filtered list is the window of the list
     exactly when nothing in the reach of the window is filtered out (`queryWindow_filter_iff`).
-/
import Mathlib.Data.List.Infix
import Mathlib.Data.List.NodupEquivFin
import Mathlib.Order.Monotone.Basic
import NuSelf.Lib.Sequence

namespace NuSelf.Lib

/-! ## Patterns -/

/-- One character of the pattern against the head of a text, then the rest. -/
def likeOne (p : Char) (rest : List Char → Bool) : List Char → Bool
  | [] => false
  | c :: cs => (decide (p = '_') || decide (p.toLower = c.toLower)) && rest cs

def like : List Char → List Char → Bool
  | [], text => text.isEmpty
  | p :: ps, text => if p = '%' then text.tails.any (like ps) else likeOne p (like ps) text

theorem like_percent {ps text : List Char} :
    like ('%' :: ps) text = true ↔ ∃ u v, text = u ++ v ∧ like ps v = true := by
  rw [like, if_pos rfl, List.any_eq_true]
  constructor
  · rintro ⟨v, hv, hmatch⟩
    obtain ⟨u, rfl⟩ := (List.mem_tails v text).mp hv
    exact ⟨u, v, rfl, hmatch⟩
  · rintro ⟨u, v, rfl, hmatch⟩
    exact ⟨v, (List.mem_tails v (u ++ v)).mpr (List.suffix_append u v), hmatch⟩

/-- **A pattern with `%` behind it** matches the texts that begin with a match. -/
theorem like_append_percent : ∀ {ps text : List Char}, like (ps ++ ['%']) text = true ↔
    ∃ u v, text = u ++ v ∧ like ps u = true
  | [], text => by
    rw [List.nil_append, like_percent]
    constructor
    · intro _
      exact ⟨[], text, rfl, rfl⟩
    · intro _
      exact ⟨text, [], (List.append_nil text).symm, rfl⟩
  | p :: ps, text => by
    have ih := @like_append_percent ps
    by_cases hp : p = '%'
    · subst hp
      rw [List.cons_append, like_percent]
      constructor
      · rintro ⟨u, v, rfl, hmatch⟩
        obtain ⟨u', v', rfl, hmatch'⟩ := ih.mp hmatch
        refine ⟨u ++ u', v', (List.append_assoc u u' v').symm, ?_⟩
        exact like_percent.mpr ⟨u, u', rfl, hmatch'⟩
      · rintro ⟨u, v, rfl, hmatch⟩
        obtain ⟨u₁, u₂, rfl, hmatch'⟩ := like_percent.mp hmatch
        exact ⟨u₁, u₂ ++ v, List.append_assoc u₁ u₂ v, ih.mpr ⟨u₂, v, rfl, hmatch'⟩⟩
    · rw [List.cons_append, like, if_neg hp]
      cases text with
      | nil =>
        constructor
        · intro h
          cases h
        · rintro ⟨u, v, huv, hmatch⟩
          have hu : u = [] := (List.append_eq_nil_iff.mp huv.symm).1
          rw [hu, like, if_neg hp] at hmatch
          cases hmatch
      | cons c cs =>
        rw [likeOne, Bool.and_eq_true]
        constructor
        · rintro ⟨hc, hrest⟩
          obtain ⟨u, v, rfl, hmatch⟩ := ih.mp hrest
          refine ⟨c :: u, v, rfl, ?_⟩
          rw [like, if_neg hp]
          exact Bool.and_eq_true_iff.mpr ⟨hc, hmatch⟩
        · rintro ⟨u, v, huv, hmatch⟩
          cases u with
          | nil =>
            rw [like, if_neg hp] at hmatch
            cases hmatch
          | cons c' u =>
            rw [List.cons_append, List.cons.injEq] at huv
            obtain ⟨rfl, rfl⟩ := huv
            rw [like, if_neg hp] at hmatch
            obtain ⟨hc, hrest⟩ := Bool.and_eq_true_iff.mp hmatch
            exact ⟨hc, ih.mpr ⟨u, v, rfl, hrest⟩⟩

theorem like_self : ∀ text : List Char, like text text = true
  | [] => rfl
  | c :: cs => by
    by_cases hc : c = '%'
    · subst hc
      exact like_percent.mpr ⟨['%'], cs, rfl, like_self cs⟩
    · rw [like, if_neg hc, likeOne, like_self cs]
      simp

theorem like_prefix (p r : List Char) : like (p ++ ['%']) (p ++ r) = true :=
  like_append_percent.mpr ⟨p, r, rfl, like_self p⟩

/-! ## The window of a query -/

variable {α : Type}

/-- `LIMIT limit OFFSET offset`: a negative limit is none, a negative offset is zero. -/
def queryWindow (xs : List α) (limit offset : Int) : List α :=
  if limit < 0 then xs.drop offset.toNat else window xs offset.toNat limit.toNat

/-- The part of a list that a query walks through. -/
def queryReach (xs : List α) (limit offset : Int) : List α :=
  if limit < 0 then xs else xs.take (offset.toNat + limit.toNat)

/-- Nothing is asked for, or the offset is behind the end. -/
def queryEmpty (xs : List α) (limit offset : Int) : Prop :=
  limit = 0 ∨ xs.length ≤ offset.toNat

theorem queryWindow_map {β : Type} (f : α → β) (xs : List α) (limit offset : Int) :
    queryWindow (xs.map f) limit offset = (queryWindow xs limit offset).map f := by
  unfold queryWindow
  split
  · exact List.map_drop.symm
  · rw [window, window, List.map_take, List.map_drop]

theorem queryWindow_sublist (xs : List α) (limit offset : Int) :
    (queryWindow xs limit offset).Sublist xs := by
  unfold queryWindow
  split
  · exact List.drop_sublist _ _
  · exact (List.take_sublist _ _).trans (List.drop_sublist _ _)

theorem queryWindow_length {xs ys : List α} (h : xs.length = ys.length) (limit offset : Int) :
    (queryWindow xs limit offset).length = (queryWindow ys limit offset).length := by
  unfold queryWindow
  split
  · rw [List.length_drop, List.length_drop, h]
  · rw [window, window, List.length_take, List.length_take, List.length_drop, List.length_drop, h]

/-- A sublist runs ahead of the list or with it: where both show the same at one place, they show
    the same at every place before. -/
theorem sublist_agree {ys xs : List α} (hsub : ys.Sublist xs) (hnodup : xs.Nodup) {m : Nat}
    {x : α} (hy : ys[m]? = some x) (hx : xs[m]? = some x) : ∀ k ≤ m, ys[k]? = xs[k]? := by
  obtain ⟨f, hf⟩ := List.sublist_iff_exists_orderEmbedding_getElem?_eq.mp hsub
  have hmono : StrictMono f := f.strictMono
  have hm : m = f m := by
    obtain ⟨hlt, -⟩ := List.getElem?_eq_some_iff.mp hx
    exact (List.getElem?_inj hlt hnodup).mp (hx.trans (hy.symm.trans (hf m)))
  intro k hk
  -- the embedding never gives a place back, and at `m` it has gained none
  have hfirst : k + f 0 ≤ f k := hmono.add_le_nat k 0
  have hlast : (m - k) + f k ≤ f (m - k + k) := hmono.add_le_nat (m - k) k
  rw [show m - k + k = m by omega] at hlast
  have hfk : f k = k := by omega
  rw [hf k, hfk]

theorem getElem?_window {xs : List α} {i n k : Nat} (hk : k < n) :
    (window xs i n)[k]? = xs[i + k]? := by
  rw [window, List.getElem?_take, if_pos hk, List.getElem?_drop]

/-- **Filtering and the window**: with `n` places asked for from place `i` on, the filtered list
    shows the same window exactly when the filter drops nothing before place `i + n`. -/
theorem window_filter_iff {xs : List α} {q : α → Bool} (hnodup : xs.Nodup) {i n : Nat}
    (hn : 0 < n) (hi : i < xs.length) :
    window (xs.filter q) i n = window xs i n ↔ ∀ x ∈ xs.take (i + n), q x = true := by
  constructor
  · intro heq x hx
    obtain ⟨k, hk, hxk⟩ := List.getElem_of_mem hx
    rw [List.length_take] at hk
    rw [List.getElem_take] at hxk
    -- the last place of the window that is not before `k`
    have hm : (xs.filter q)[i + (k - i)]? = xs[i + (k - i)]? := by
      have hlt : k - i < n := by omega
      have h := congrArg (fun w => w[k - i]?) heq
      simp only [getElem?_window hlt] at h
      exact h
    have hlen : i + (k - i) < xs.length := by omega
    have hx' := List.getElem?_eq_getElem hlen
    have hk' : (xs.filter q)[k]? = xs[k]? :=
      sublist_agree List.filter_sublist hnodup (hm.trans hx') hx' k (by omega)
    have hmem : x ∈ xs.filter q := by
      apply List.mem_of_getElem?
      rw [hk', ← hxk]
      exact List.getElem?_eq_getElem _
    exact (List.mem_filter.mp hmem).2
  · intro hall
    have hcut : xs.filter q = xs.take (i + n) ++ (xs.drop (i + n)).filter q := by
      conv_lhs => rw [← List.take_append_drop (i + n) xs]
      rw [List.filter_append, List.filter_eq_self.mpr hall]
    apply List.ext_getElem?
    intro k
    rcases Nat.lt_or_ge k n with hk | hk
    · rw [getElem?_window hk, getElem?_window hk, hcut]
      rcases Nat.lt_or_ge (i + k) xs.length with hlt | hge
      · have htake : i + k < (xs.take (i + n)).length := by
          rw [List.length_take]
          omega
        rw [List.getElem?_append_left htake, List.getElem?_take, if_pos (by omega)]
      · have hrest : xs.drop (i + n) = [] := List.drop_eq_nil_of_le (by omega)
        have htake : xs.take (i + n) = xs := List.take_of_length_le (by omega)
        rw [hrest, htake, List.filter_nil, List.append_nil]
    · have hnone : ∀ ys : List α, (window ys i n)[k]? = none := fun ys => by
        rw [window, List.getElem?_take, if_neg (by omega)]
      rw [hnone, hnone]

/-- The same for a query: a query that asks for something shows what it should exactly when the
    filter drops nothing that it walks through. -/
theorem queryWindow_filter_iff {xs : List α} {q : α → Bool} (hnodup : xs.Nodup)
    (limit offset : Int) :
    queryWindow (xs.filter q) limit offset = queryWindow xs limit offset ↔
      queryEmpty xs limit offset ∨ ∀ x ∈ queryReach xs limit offset, q x = true := by
  have hshort : (xs.filter q).length ≤ xs.length := List.length_filter_le q xs
  -- a query without a limit is one whose limit is the length of the list
  have hunlimited : ∀ ys : List α, ys.length ≤ xs.length →
      ys.drop offset.toNat = window ys offset.toNat xs.length := fun ys hys =>
    (List.take_of_length_le (by rw [List.length_drop]; omega)).symm
  rcases Nat.lt_or_ge offset.toNat xs.length with hi | hi
  · have hbehind : ¬ xs.length ≤ offset.toNat := by omega
    by_cases hneg : limit < 0
    · have hzero : ¬ limit = 0 := by omega
      have htake : xs.take (offset.toNat + xs.length) = xs := List.take_of_length_le (by omega)
      simp only [queryWindow, queryReach, queryEmpty, if_pos hneg, hzero, hbehind, false_or]
      rw [hunlimited _ hshort, hunlimited xs (Nat.le_refl _),
        window_filter_iff hnodup (by omega) hi, htake]
    · simp only [queryWindow, queryReach, queryEmpty, if_neg hneg, hbehind, or_false]
      by_cases hzero : limit = 0
      · simp only [hzero, true_or, iff_true]
        rfl
      · simp only [hzero, false_or]
        exact window_filter_iff hnodup (by omega) hi
  · have hdrop : ∀ ys : List α, ys.length ≤ xs.length →
        queryWindow ys limit offset = [] := fun ys hys => by
      have hnil : ys.drop offset.toNat = [] := List.drop_eq_nil_of_le (by omega)
      rw [queryWindow, window, hnil, List.take_nil, ite_self]
    rw [hdrop _ hshort, hdrop xs (Nat.le_refl _)]
    exact ⟨fun _ => Or.inl (Or.inr hi), fun _ => rfl⟩

end NuSelf.Lib
