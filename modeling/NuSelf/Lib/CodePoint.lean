/-
  Texts as sequences of code points, surrogates among them.

  A Python text may hold a surrogate on its own.  UTF-8 cannot carry one, a JSON escape can.  Two
  that make a pair, one after the other, are two code points of a text, and one character once they
  have been written as escapes and read back: this is what `join` does to a text.

  1. `Joined.joinCons` — pairs are joined from the right, one code point at a time.
  2. `blankText_join` — white space is not affected.
-/
import NuSelf.Lib.Text

namespace NuSelf.Lib

/-- A character, or the surrogate that lies so far behind `0xd800`. -/
inductive CodePoint where
  | char (c : Char)
  | surrogate (s : Fin 0x800)
  deriving DecidableEq

abbrev PyText := List CodePoint

instance : LawfulBEq PyText := inferInstance

/-- A text without surrogates. -/
def pyText (s : String) : PyText := s.toList.map .char

/-- The code point of a UTF-16 unit. -/
def CodePoint.ofUnit (n : Nat) : CodePoint :=
  if h : 0xd800 ≤ n ∧ n < 0xe000 then .surrogate ⟨n - 0xd800, by omega⟩ else .char (Char.ofNat n)

theorem CodePoint.ofUnit_surrogate (s : Fin 0x800) : ofUnit (0xd800 + s) = .surrogate s := by
  have hs := s.isLt
  rw [ofUnit, dif_pos ⟨by omega, by omega⟩]
  exact congrArg CodePoint.surrogate (Fin.ext (Nat.add_sub_cancel_left _ _))

theorem CodePoint.ofUnit_char (c : Char) : ofUnit c.toNat = .char c := by
  have hvalid : ¬ (0xd800 ≤ c.toNat ∧ c.toNat < 0xe000) := by
    have h : c.toNat < 0xd800 ∨ 0xdfff < c.toNat ∧ c.toNat < 0x110000 := c.valid
    omega
  rw [ofUnit, dif_neg hvalid, Char.ofNat_toNat]

/-! ## Pairs -/

/-- The character that a high surrogate and a low one make. -/
def surrogatePair (high low : Fin 0x800) : Option Char :=
  if high.val < 0x400 ∧ 0x400 ≤ low.val then
    some (Char.ofNat (0x10000 + high.val * 0x400 + (low.val - 0x400)))
  else none

/-- A code point in front of a text, joined with its first one if they make a pair. -/
def joinCons : CodePoint → PyText → PyText
  | .surrogate high, .surrogate low :: rest =>
    match surrogatePair high low with
    | some c => .char c :: rest
    | none => .surrogate high :: .surrogate low :: rest
  | p, rest => p :: rest

/-- Every pair of surrogates as the character that it makes. -/
def join : PyText → PyText
  | [] => []
  | p :: rest => joinCons p (join rest)

/-- No pair is left to join. -/
def Joined (s : PyText) : Prop := join s = s

@[simp]
theorem joinCons_char (c : Char) (s : PyText) : joinCons (.char c) s = .char c :: s := rfl

theorem joinCons_low {low : Fin 0x800} (hlow : 0x400 ≤ low.val) (s : PyText) :
    joinCons (.surrogate low) s = .surrogate low :: s := by
  cases s with
  | nil => rfl
  | cons p rest =>
    cases p with
    | char c => rfl
    | surrogate l =>
      have hnone : surrogatePair low l = none := if_neg fun h => by omega
      rw [joinCons, hnone]

theorem joinCons_pair {c : Char} (hc : 0xffff < c.toNat) (s : PyText) :
    joinCons (CodePoint.ofUnit (0xd800 + (c.toNat - 0x10000) / 0x400))
      (joinCons (CodePoint.ofUnit (0xdc00 + (c.toNat - 0x10000) % 0x400)) s) = .char c :: s := by
  have hmax : c.toNat < 0x110000 := by
    have h : c.toNat < 0xd800 ∨ 0xdfff < c.toNat ∧ c.toNat < 0x110000 := c.valid
    omega
  obtain ⟨high, hhigh⟩ : ∃ high : Fin 0x800, high.val = (c.toNat - 0x10000) / 0x400 :=
    ⟨⟨_, by omega⟩, rfl⟩
  obtain ⟨low, hlow⟩ : ∃ low : Fin 0x800, low.val = 0x400 + (c.toNat - 0x10000) % 0x400 :=
    ⟨⟨_, by omega⟩, rfl⟩
  have hsplit : 0xdc00 + (c.toNat - 0x10000) % 0x400 = 0xd800 + low.val := by omega
  have hsum : 0x10000 + high.val * 0x400 + (low.val - 0x400) = c.toNat := by omega
  have hpair : surrogatePair high low = some c := by
    rw [surrogatePair, if_pos ⟨by omega, by omega⟩, hsum, Char.ofNat_toNat]
  have hinner := joinCons_low (by omega : 0x400 ≤ low.val) s
  rw [hsplit, ← hhigh, CodePoint.ofUnit_surrogate, CodePoint.ofUnit_surrogate, hinner, joinCons,
    hpair]

theorem Joined.joinCons {s : PyText} (h : Joined s) (p : CodePoint) : Joined (joinCons p s) := by
  have hcons : ∀ q : CodePoint, NuSelf.Lib.joinCons q s = q :: s → Joined (q :: s) := by
    intro q hq
    rw [Joined, join, h, hq]
  cases p with
  | char c => exact hcons _ rfl
  | surrogate high =>
    cases s with
    | nil => exact hcons _ rfl
    | cons q rest =>
      cases q with
      | char c => exact hcons _ rfl
      | surrogate low =>
        cases hpair : surrogatePair high low with
        | none =>
          have heq : NuSelf.Lib.joinCons (.surrogate high) (.surrogate low :: rest) =
              .surrogate high :: .surrogate low :: rest := by
            rw [NuSelf.Lib.joinCons, hpair]
          rw [heq]
          exact hcons _ heq
        | some c =>
          have hlow : 0x400 ≤ low.val := by
            by_contra hnot
            rw [surrogatePair, if_neg fun h => hnot h.2] at hpair
            cases hpair
          have hrest : join rest = rest := by
            have h : NuSelf.Lib.joinCons (.surrogate low) (join rest) = .surrogate low :: rest := h
            rw [joinCons_low hlow] at h
            exact List.tail_eq_of_cons_eq h
          rw [NuSelf.Lib.joinCons, hpair]
          show NuSelf.Lib.joinCons (.char c) (join rest) = _
          rw [hrest, joinCons_char]

theorem joined_nil : Joined [] := rfl

theorem pyText_inj {s t : String} : pyText s = pyText t ↔ s = t := by
  refine ⟨fun h => ?_, congrArg pyText⟩
  exact String.toList_injective ((List.map_inj_right fun _ _ => CodePoint.char.inj).mp h)

theorem joined_chars (chars : List Char) : Joined (chars.map .char) := by
  induction chars with
  | nil => exact joined_nil
  | cons c rest ih => exact ih.joinCons (.char c)

@[simp]
theorem join_pyText (s : String) : join (pyText s) = pyText s := joined_chars s.toList

/-! ## White space -/

def CodePoint.isSpace : CodePoint → Bool
  | .char c => NuSelf.Lib.isSpace c
  | .surrogate _ => false

/-- `not text.strip()`. -/
def blankText (s : PyText) : Bool := s.all CodePoint.isSpace

/-- `text.strip()`. -/
def stripText (s : PyText) : PyText :=
  ((s.dropWhile CodePoint.isSpace).reverse.dropWhile CodePoint.isSpace).reverse

theorem blankText_stripText {s : PyText} (h : stripText s ≠ []) :
    blankText (stripText s) = false := by
  obtain ⟨p, rest, hcons⟩ : ∃ p rest,
      (s.dropWhile CodePoint.isSpace).reverse.dropWhile CodePoint.isSpace = p :: rest := by
    cases hdrop : (s.dropWhile CodePoint.isSpace).reverse.dropWhile CodePoint.isSpace with
    | nil =>
      rw [stripText, hdrop] at h
      exact absurd rfl h
    | cons p rest => exact ⟨p, rest, rfl⟩
  have hhead := List.head?_dropWhile_not CodePoint.isSpace
    (s.dropWhile CodePoint.isSpace).reverse
  rw [hcons] at hhead
  rw [blankText, stripText, hcons, List.all_reverse, List.all_cons]
  simp only [List.head?_cons] at hhead
  rw [hhead, Bool.false_and]

theorem not_isSpace {c : Char} (h : 0x10000 ≤ c.toNat) : isSpace c = false := by
  rw [Bool.eq_false_iff]
  intro hspace
  simp only [isSpace, Bool.or_eq_true, Bool.and_eq_true, decide_eq_true_eq, beq_iff_eq] at hspace
  omega

theorem isSpace_of_surrogatePair {high low : Fin 0x800} {c : Char}
    (h : surrogatePair high low = some c) : isSpace c = false := by
  rw [surrogatePair] at h
  split at h
  · rename_i hrange
    obtain ⟨n, hn⟩ : ∃ n, n = 0x10000 + high.val * 0x400 + (low.val - 0x400) := ⟨_, rfl⟩
    have hlow := low.isLt
    have hvalid : n.isValidChar := Or.inr ⟨by omega, by omega⟩
    have htoNat : (Char.ofNat n).toNat = n := by
      rw [Char.ofNat, dif_pos hvalid]
      rfl
    rw [← hn] at h
    cases h
    exact not_isSpace (by omega)
  · cases h

theorem blankText_joinCons (p : CodePoint) (s : PyText) :
    blankText (joinCons p s) = (p.isSpace && blankText s) := by
  rw [joinCons.eq_def]
  split
  · split
    · rename_i hpair
      show (isSpace _ && _) = _
      rw [isSpace_of_surrogatePair hpair]
      rfl
    · rfl
  · rfl

/-- **White space** is not affected. -/
theorem blankText_join : ∀ s : PyText, blankText (join s) = blankText s
  | [] => rfl
  | p :: rest => by
    rw [join, blankText_joinCons, blankText_join rest]
    rfl

end NuSelf.Lib
