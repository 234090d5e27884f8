/-
  Lists as a script uses them: slices, and loops that may stop with an error.

  1. `slice xs i j` is `xs[i:j]`, negative indexes counted from the end.  Inside the list it is a
     window (`slice_eq_window`), and two adjacent windows make one (`window_append`).
  2. `tryAll f xs` applies a function that may fail to every element; on two lists that go through
     it goes through on their append (`tryAll_append`), and it goes through exactly when it does on
     every element (`tryAll_isOk_iff`).
  3. `bind_ok_iff` takes a computation that succeeds apart, `bind_ok` one that succeeded.
  4. `mapM_some_iff` is a list that is read whole or not at all; what was written element by element
     is read back (`mapM_map_of_forall`).
  5. `best less x xs` is the first of the greatest (`best_mem`, `le_best`).
-/
import Mathlib.Algebra.GroupWithZero.Nat
import Mathlib.Data.List.Basic
import Mathlib.Data.List.Forall2
import Mathlib.Order.Defs.LinearOrder
import Mathlib.Order.Lattice

namespace NuSelf.Lib

variable {α β ε : Type}

/-! ## Slices -/

/-- A slice index as a position: negative ones count from the end. -/
def sliceIndex (length : Nat) (i : Int) : Nat := if i < 0 then (length + i).toNat else i.toNat

/-- `xs[i:j]`. -/
def slice (xs : List α) (i j : Int) : List α :=
  (xs.take (sliceIndex xs.length j)).drop (sliceIndex xs.length i)

/-- `n` elements from position `i` on, as far as the list goes. -/
def window (xs : List α) (i n : Nat) : List α := (xs.drop i).take n

theorem slice_eq_window {xs : List α} {i j : Int} (hi : 0 ≤ i) (hij : i ≤ j) :
    slice xs i j = window xs i.toNat (j - i).toNat := by
  have hni : ¬ i < 0 := by omega
  have hnj : ¬ j < 0 := by omega
  rw [slice, sliceIndex, sliceIndex, if_neg hni, if_neg hnj, window, List.drop_take]
  congr 1
  omega

theorem window_append (xs : List α) (i n m : Nat) :
    window xs i n ++ window xs (i + n) m = window xs i (n + m) := by
  rw [window, window, window, List.take_add, List.drop_drop]

theorem window_zero (xs : List α) (i : Nat) : window xs i 0 = [] := List.take_zero

theorem forall_row_succ {P : Nat → Prop} {i n : Nat} :
    (∀ k < n + 1, P (i + k)) ↔ P i ∧ ∀ k < n, P (i + 1 + k) := by
  constructor
  · intro h
    refine ⟨h 0 (Nat.succ_pos n), fun k hk => ?_⟩
    rw [Nat.succ_add_eq_add_succ]
    exact h (k + 1) (Nat.succ_lt_succ hk)
  · rintro ⟨hfirst, hrest⟩ k hk
    cases k with
    | zero => exact hfirst
    | succ k =>
      rw [← Nat.succ_add_eq_add_succ]
      exact hrest k (Nat.lt_of_succ_lt_succ hk)

/-! ## One element replaced -/

theorem sum_map_set {f : α → Nat} {y : α} : ∀ {xs : List α} {i : Nat} {x : α}, xs[i]? = some x →
    ((xs.set i y).map f).sum + f x = (xs.map f).sum + f y
  | [], _, _, h => by cases h
  | x' :: xs, 0, x, h => by
    obtain rfl : x' = x := Option.some.inj h
    rw [List.set_cons_zero, List.map_cons, List.map_cons, List.sum_cons, List.sum_cons]
    omega
  | x' :: xs, i + 1, x, h => by
    have hrest := @sum_map_set f y xs i x h
    rw [List.set_cons_succ, List.map_cons, List.map_cons, List.sum_cons, List.sum_cons]
    omega

theorem countP_set {p : α → Bool} {y : α} : ∀ {xs : List α} {i : Nat} {x : α}, xs[i]? = some x →
    (xs.set i y).countP p + (if p x = true then 1 else 0) =
      xs.countP p + if p y = true then 1 else 0
  | [], _, _, h => by cases h
  | x' :: xs, 0, x, h => by
    obtain rfl : x' = x := Option.some.inj h
    rw [List.set_cons_zero, List.countP_cons, List.countP_cons]
    omega
  | x' :: xs, i + 1, x, h => by
    have hrest := @countP_set p y xs i x h
    rw [List.set_cons_succ, List.countP_cons, List.countP_cons]
    omega

/-! ## Loops that may fail -/

/-- Apply the function to every element; the first error stops the loop. -/
def tryAll (f : α → Except ε β) : List α → Except ε (List β)
  | [] => .ok []
  | x :: rest =>
    match f x with
    | .error e => .error e
    | .ok y =>
      match tryAll f rest with
      | .error e => .error e
      | .ok ys => .ok (y :: ys)

theorem tryAll_cons (f : α → Except ε β) (x : α) (xs : List α) :
    tryAll f (x :: xs) =
      match f x with
      | .error e => .error e
      | .ok y =>
        match tryAll f xs with
        | .error e => .error e
        | .ok ys => .ok (y :: ys) := rfl

theorem tryAll_append {f : α → Except ε β} {ys : List α} {bs : List β} (hys : tryAll f ys = .ok bs) :
    ∀ {xs : List α} {as : List β}, tryAll f xs = .ok as → tryAll f (xs ++ ys) = .ok (as ++ bs)
  | [], as, hxs => by
    cases hxs
    exact hys
  | x :: rest, as, hxs => by
    simp only [tryAll_cons, List.cons_append] at hxs ⊢
    cases hx : f x with
    | error e => simp [hx] at hxs
    | ok y =>
      cases hrest : tryAll f rest with
      | error e => simp [hx, hrest] at hxs
      | ok zs =>
        simp only [hx, hrest, Except.ok.injEq] at hxs
        subst hxs
        rw [tryAll_append hys hrest]
        rfl

theorem tryAll_cons_ok {f : α → Except ε β} {x : α} {xs : List α} {bs : List β} :
    tryAll f (x :: xs) = .ok bs ↔ ∃ y ys, f x = .ok y ∧ tryAll f xs = .ok ys ∧ bs = y :: ys := by
  rw [tryAll_cons]
  cases f x with
  | error e => simp
  | ok y =>
    cases tryAll f xs with
    | error e => simp
    | ok ys => simp [eq_comm]

theorem tryAll_isOk_iff {f : α → Except ε β} :
    ∀ {xs : List α}, (∃ bs, tryAll f xs = .ok bs) ↔ ∀ x ∈ xs, ∃ y, f x = .ok y
  | [] => ⟨fun _ _ hx => (nomatch hx), fun _ => ⟨[], rfl⟩⟩
  | x :: xs => by
    have ih := @tryAll_isOk_iff f xs
    constructor
    · rintro ⟨bs, h⟩
      obtain ⟨y, ys, hy, hys, -⟩ := tryAll_cons_ok.mp h
      exact List.forall_mem_cons.mpr ⟨⟨y, hy⟩, ih.mp ⟨ys, hys⟩⟩
    · intro h
      obtain ⟨⟨y, hy⟩, hrest⟩ := List.forall_mem_cons.mp h
      obtain ⟨ys, hys⟩ := ih.mpr hrest
      exact ⟨y :: ys, tryAll_cons_ok.mpr ⟨y, ys, hy, hys, rfl⟩⟩

theorem tryAll_length {f : α → Except ε β} : ∀ {xs : List α} {bs : List β},
    tryAll f xs = .ok bs → bs.length = xs.length
  | [], bs, h => by
    cases h
    rfl
  | x :: xs, bs, h => by
    obtain ⟨y, ys, -, hys, rfl⟩ := tryAll_cons_ok.mp h
    rw [List.length_cons, List.length_cons, tryAll_length hys]

theorem tryAll_eq {f : α → Except ε β} : ∀ {xs : List α} {bs : List β}, tryAll f xs = .ok bs →
    xs.filterMap (fun x => (f x).toOption) = bs
  | [], bs, h => by
    cases h
    rfl
  | x :: xs, bs, h => by
    obtain ⟨y, ys, hy, hys, rfl⟩ := tryAll_cons_ok.mp h
    rw [List.filterMap_cons, hy, tryAll_eq hys]
    rfl

theorem mem_tryAll {f : α → Except ε β} {y : β} :
    ∀ {xs : List α} {bs : List β}, tryAll f xs = .ok bs → (y ∈ bs ↔ ∃ x ∈ xs, f x = .ok y)
  | [], bs, h => by
    cases h
    simp
  | x :: xs, bs, h => by
    obtain ⟨y', ys, hy', hys, rfl⟩ := tryAll_cons_ok.mp h
    simp only [List.mem_cons, mem_tryAll hys, exists_eq_or_imp, hy', Except.ok.injEq,
      eq_comm (b := y)]

theorem tryAll_map {γ : Type} {f : β → Except ε γ} {g : α → β} {h : α → γ} :
    ∀ {xs : List α}, (∀ x ∈ xs, f (g x) = .ok (h x)) → tryAll f (xs.map g) = .ok (xs.map h)
  | [], _ => rfl
  | x :: xs, hall => by
    have hrest : tryAll f (xs.map g) = .ok (xs.map h) :=
      tryAll_map fun y hy => hall y (List.mem_cons_of_mem _ hy)
    rw [List.map_cons, tryAll_cons, hall x List.mem_cons_self, hrest]
    rfl

theorem tryAll_agree {f g : α → Except ε β} {xs : List α} {ys zs : List β}
    (hagree : ∀ x ∈ xs, ∀ y z, f x = .ok y → g x = .ok z → y = z) (hys : tryAll f xs = .ok ys)
    (hzs : tryAll g xs = .ok zs) : ys = zs := by
  induction xs generalizing ys zs with
  | nil => exact (Except.ok.inj hys).symm.trans (Except.ok.inj hzs)
  | cons x xs ih =>
    obtain ⟨hx, hrest⟩ := List.forall_mem_cons.mp hagree
    obtain ⟨y, ys', hy, hys', rfl⟩ := tryAll_cons_ok.mp hys
    obtain ⟨z, zs', hz, hzs', rfl⟩ := tryAll_cons_ok.mp hzs
    rw [hx y z hy hz, ih hrest hys' hzs']

@[simp] theorem ok_bind (a : α) (f : α → Except ε β) : (Except.ok a >>= f) = f a := rfl

theorem bind_ok_iff {x : Except ε α} {f : α → Except ε β} {b : β} :
    (x >>= f) = .ok b ↔ ∃ a, x = .ok a ∧ f a = .ok b := by
  cases x with
  | error e => exact iff_of_false nofun fun h => nomatch h.choose_spec.1
  | ok a =>
    constructor
    · intro h
      exact ⟨a, rfl, h⟩
    · rintro ⟨a', ha, h⟩
      cases ha
      exact h

theorem bind_ok {x : Except ε α} {f : α → Except ε β} {b : β} (h : (x >>= f) = .ok b) :
    ∃ a, x = .ok a ∧ f a = .ok b :=
  bind_ok_iff.mp h

theorem map_ok_iff {r : Except ε α} {f : α → β} {b : β} :
    r.map f = .ok b ↔ ∃ a, r = .ok a ∧ f a = b := by
  cases r with
  | error e => exact iff_of_false nofun fun h => nomatch h.choose_spec.1
  | ok a =>
    constructor
    · intro h
      exact ⟨a, rfl, Except.ok.inj h⟩
    · rintro ⟨_, h, rfl⟩
      cases h
      rfl

/-! ## Readers that may give nothing -/

theorem mapM_some_iff {f : α → Option β} : ∀ {xs : List α} {ys : List β},
    xs.mapM f = some ys ↔ List.Forall₂ (fun x y => f x = some y) xs ys
  | [], ys => by
    rw [List.forall₂_nil_left_iff]
    exact Option.some_inj.trans eq_comm
  | x :: xs, ys => by
    rw [List.mapM_cons, List.forall₂_cons_left_iff]
    constructor
    · intro h
      obtain ⟨y, hy, h⟩ := Option.bind_eq_some_iff.mp h
      obtain ⟨rest, hrest, h⟩ := Option.bind_eq_some_iff.mp h
      exact ⟨y, rest, hy, mapM_some_iff.mp hrest, (Option.some.inj h).symm⟩
    · rintro ⟨y, rest, hy, hrest, rfl⟩
      rw [hy, mapM_some_iff.mpr hrest]
      rfl

theorem mapM_map_of_forall {f : β → α} {g : α → Option β} {items : List β}
    (h : ∀ item ∈ items, g (f item) = some item) : (items.map f).mapM g = some items := by
  rw [mapM_some_iff, List.forall₂_map_left_iff, List.forall₂_same]
  exact h

/-! ## The greatest element -/

/-- `max`: the first of the greatest, where `less` compares. -/
def best (less : α → α → Bool) (x : α) (xs : List α) : α :=
  xs.foldl (fun found y => if less found y then y else found) x

theorem best_cons (less : α → α → Bool) (x y : α) (xs : List α) :
    best less x (y :: xs) = best less (if less x y then y else x) xs := rfl

theorem best_mem (less : α → α → Bool) : ∀ (xs : List α) (x : α), best less x xs ∈ x :: xs
  | [], _ => List.mem_cons_self
  | y :: xs, x => by
    rw [best_cons]
    rcases List.mem_cons.mp (best_mem less xs (if less x y then y else x)) with h | h
    · rw [h]
      split
      · exact List.mem_cons_of_mem _ List.mem_cons_self
      · exact List.mem_cons_self
    · exact List.mem_cons_of_mem _ (List.mem_cons_of_mem _ h)

/-- Where `less` compares by a key, no element has a greater key than the one that is found. -/
theorem le_best {κ : Type} [LinearOrder κ] (less : α → α → Bool) (key : α → κ) :
    ∀ {xs : List α} {x : α},
      (∀ a ∈ x :: xs, ∀ b ∈ x :: xs, less a b = true ↔ key a < key b) →
      ∀ a ∈ x :: xs, key a ≤ key (best less x xs)
  | [], x, _, a, ha => by
    rw [List.mem_singleton.mp ha]
    exact le_refl _
  | y :: xs, x, hless, a, ha => by
    have hx : x ∈ x :: y :: xs := List.mem_cons_self
    have hy : y ∈ x :: y :: xs := List.mem_cons_of_mem _ List.mem_cons_self
    have hrest : ∀ b ∈ xs, b ∈ x :: y :: xs :=
      fun b hb => List.mem_cons_of_mem _ (List.mem_cons_of_mem _ hb)
    rw [best_cons]
    by_cases hxy : less x y = true
    · rw [if_pos hxy]
      have ih := le_best less key fun b hb c hc =>
        hless b (List.mem_cons_of_mem _ hb) c (List.mem_cons_of_mem _ hc)
      rcases List.mem_cons.mp ha with rfl | ha
      · exact le_trans (le_of_lt ((hless _ hx _ hy).mp hxy)) (ih y List.mem_cons_self)
      · exact ih a ha
    · rw [if_neg hxy]
      have hof : ∀ b ∈ x :: xs, b ∈ x :: y :: xs :=
        List.forall_mem_cons.mpr ⟨hx, hrest⟩
      have ih := le_best less key fun b hb c hc => hless b (hof b hb) c (hof c hc)
      rcases List.mem_cons.mp ha with rfl | ha
      · exact ih _ List.mem_cons_self
      rcases List.mem_cons.mp ha with rfl | ha
      · exact le_trans (not_lt.mp fun h => hxy ((hless _ hx _ hy).mpr h)) (ih x List.mem_cons_self)
      · exact ih a (List.mem_cons_of_mem _ ha)

end NuSelf.Lib
