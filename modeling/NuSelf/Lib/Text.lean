/-
  Text: white space, words, prefixes, and keys joined by a separator.

  Strings are compared and cut through their character lists, so that every operation here is
  structural and evaluates in the kernel.

  1. White space as Unicode has it (`isSpace`), the blank test, `strip` and `words`.
  2. Prefixes: `hasPrefix`, `dropPrefix` and the rewriting `swapPrefix old new`, which is its own
     inverse on texts that do not begin with `new` (`swapPrefix_swapPrefix`).
  3. Joined keys: `joinKey sep a b` is `a`, the separator, `b`.  Two joined keys are equal exactly
     when their parts are, or when one first part runs over the separator into the other
     (`joinKey_eq_iff`).  This is the whole of what goes wrong with a key glued from free texts.
  4. Numerals: they hold no separator, so a numeral can always be cut off behind a key.
-/
import Mathlib.Data.List.TakeWhile

namespace NuSelf.Lib

/-! ## White space -/

/-- The characters that `str.isspace`, `str.strip` and `str.split` take for white space. -/
def isSpace (c : Char) : Bool :=
  let n := c.toNat
  (9 ≤ n && n ≤ 13) || (28 ≤ n && n ≤ 32) || n == 0x85 || n == 0xa0 || n == 0x1680 ||
    (0x2000 ≤ n && n ≤ 0x200a) || n == 0x2028 || n == 0x2029 || n == 0x202f || n == 0x205f ||
    n == 0x3000

/-- A text without a visible character: `not text.strip()`. -/
def blank (s : String) : Bool := s.toList.all isSpace

/-- `str.strip()`. -/
def strip (s : String) : String :=
  String.ofList ((s.toList.dropWhile isSpace).reverse.dropWhile isSpace).reverse

/-- `str.rstrip()`. -/
def rstrip (s : String) : String := String.ofList (s.toList.reverse.dropWhile isSpace).reverse

/-- What a text file reads as: every line end is a line feed. -/
def universalNewlines : List Char → List Char
  | [] => []
  | '\r' :: '\n' :: rest => '\n' :: universalNewlines rest
  | '\r' :: rest => '\n' :: universalNewlines rest
  | c :: rest => c :: universalNewlines rest

/-- Cut at white space; `cur` is the word being read, backwards. -/
def wordsAux : List Char → List Char → List String
  | [], cur => if cur.isEmpty then [] else [String.ofList cur.reverse]
  | c :: rest, cur =>
    if isSpace c then
      (if cur.isEmpty then wordsAux rest [] else String.ofList cur.reverse :: wordsAux rest [])
    else wordsAux rest (c :: cur)

/-- `str.split()`: the words between runs of white space. -/
def words (s : String) : List String := wordsAux s.toList []

theorem ne_empty_of_not_blank {s : String} (h : blank s = false) : s ≠ "" := by
  rintro rfl
  cases h

theorem strip_ne_empty {s : String} (h : blank s = false) : strip s ≠ "" := by
  intro he
  have hnil : ((s.toList.dropWhile isSpace).reverse.dropWhile isSpace).reverse = [] := by
    have hlist := congrArg String.toList he
    rw [strip, String.toList_ofList] at hlist
    exact hlist
  rw [List.reverse_eq_nil_iff, List.dropWhile_eq_nil_iff] at hnil
  have hall : s.toList.dropWhile isSpace = [] := by
    cases hdrop : s.toList.dropWhile isSpace with
    | nil => rfl
    | cons c rest =>
      -- the first character left is visible, and it is among those that were all spaces
      have hspace : isSpace c = true := hnil c (by rw [hdrop]; simp)
      have hhead := List.head?_dropWhile_not isSpace s.toList
      rw [hdrop] at hhead
      simp only [List.head?_cons] at hhead
      rw [hspace] at hhead
      cases hhead
  rw [List.dropWhile_eq_nil_iff] at hall
  have hblank : blank s = true := List.all_eq_true.mpr hall
  rw [h] at hblank
  cases hblank

theorem blank_append (a b : String) : blank (a ++ b) = (blank a && blank b) := by
  rw [blank, String.toList_append, List.all_append]
  rfl

theorem not_blank_append {a : String} (h : blank a = false) (b : String) :
    blank (a ++ b) = false := by
  rw [blank_append, h, Bool.false_and]

/-! ## Prefixes -/

/-- `s.startswith(p)`. -/
def hasPrefix (p s : String) : Bool := p.toList.isPrefixOf s.toList

/-- `s[len(p):]`. -/
def dropPrefix (p s : String) : String := String.ofList (s.toList.drop p.toList.length)

/-- Replace the prefix `old` by `new`, other texts unchanged. -/
def swapPrefix (old new s : String) : String :=
  if hasPrefix old s = true then new ++ dropPrefix old s else s

theorem hasPrefix_iff {p s : String} : hasPrefix p s = true ↔ ∃ r, s = p ++ r := by
  rw [hasPrefix, List.isPrefixOf_iff_prefix]
  constructor
  · rintro ⟨r, h⟩
    refine ⟨String.ofList r, String.ext ?_⟩
    rw [String.toList_append, String.toList_ofList, h]
  · rintro ⟨r, rfl⟩
    exact ⟨r.toList, by rw [String.toList_append]⟩

@[simp]
theorem hasPrefix_append (p r : String) : hasPrefix p (p ++ r) = true :=
  hasPrefix_iff.mpr ⟨r, rfl⟩

@[simp]
theorem dropPrefix_append (p r : String) : dropPrefix p (p ++ r) = r := by
  apply String.ext
  rw [dropPrefix, String.toList_ofList, String.toList_append, List.drop_left]

theorem swapPrefix_of_hasPrefix (old new r : String) :
    swapPrefix old new (old ++ r) = new ++ r := by
  rw [swapPrefix, if_pos (hasPrefix_append old r), dropPrefix_append]

theorem swapPrefix_of_not {old new s : String} (h : hasPrefix old s = false) :
    swapPrefix old new s = s := by
  simp [swapPrefix, h]

/-- Swapping a prefix back undoes it on a text that did not begin with the new prefix. -/
theorem swapPrefix_swapPrefix {old new s : String} (h : hasPrefix new s = false) :
    swapPrefix new old (swapPrefix old new s) = s := by
  cases ho : hasPrefix old s with
  | true =>
    obtain ⟨r, rfl⟩ := hasPrefix_iff.mp ho
    rw [swapPrefix_of_hasPrefix, swapPrefix_of_hasPrefix]
  | false => rw [swapPrefix_of_not ho, swapPrefix_of_not h]

/-! ## Joined keys -/

/-- Two lists cut at a separator: equal parts, or one first part runs over the separator into
    the other's second part. -/
theorem append_cons_eq_iff {α : Type} {x : α} {a b a' b' : List α} :
    a ++ x :: b = a' ++ x :: b' ↔
      (a = a' ∧ b = b') ∨ (∃ m, a = a' ++ x :: m ∧ b' = m ++ x :: b) ∨
        (∃ m, a' = a ++ x :: m ∧ b = m ++ x :: b') := by
  constructor
  · intro h
    rcases List.append_eq_append_iff.mp h with ⟨m, ha, hb⟩ | ⟨m, ha, hb⟩
    · cases m with
      | nil =>
        simp only [List.append_nil, List.nil_append, List.cons.injEq, true_and] at ha hb
        exact Or.inl ⟨ha.symm, hb⟩
      | cons y m =>
        rw [List.cons_append, List.cons.injEq] at hb
        obtain ⟨rfl, hbm⟩ := hb
        exact Or.inr (Or.inr ⟨m, ha, hbm⟩)
    · cases m with
      | nil =>
        simp only [List.append_nil, List.nil_append, List.cons.injEq, true_and] at ha hb
        exact Or.inl ⟨ha, hb.symm⟩
      | cons y m =>
        rw [List.cons_append, List.cons.injEq] at hb
        obtain ⟨rfl, hbm⟩ := hb
        exact Or.inr (Or.inl ⟨m, ha, hbm⟩)
  · rintro (⟨rfl, rfl⟩ | ⟨m, rfl, rfl⟩ | ⟨m, rfl, rfl⟩)
    · rfl
    · simp
    · simp

/-- `f"{a}{sep}{b}"` for a one-character separator. -/
def joinKey (sep : Char) (a b : String) : String := a ++ (String.singleton sep ++ b)

/-- The first part of one key runs over the separator: `(a, b)` is `(a', m ++ sep ++ b)` with the
    cut moved to the right. -/
def CutMoved (sep : Char) (a b a' b' : String) : Prop :=
  ∃ m, a = joinKey sep a' m ∧ b' = joinKey sep m b

theorem toList_joinKey (sep : Char) (a b : String) :
    (joinKey sep a b).toList = a.toList ++ sep :: b.toList := by
  simp [joinKey, String.toList_append]

/-- **When two joined keys collide**: the parts agree, or the separator inside a first part lets
    the cut move. -/
theorem joinKey_eq_iff {sep : Char} {a b a' b' : String} :
    joinKey sep a b = joinKey sep a' b' ↔
      (a = a' ∧ b = b') ∨ CutMoved sep a b a' b' ∨ CutMoved sep a' b' a b := by
  have hcut : ∀ p q p' q' : String, CutMoved sep p q p' q' ↔
      ∃ m, p.toList = p'.toList ++ sep :: m ∧ q'.toList = m ++ sep :: q.toList := by
    intro p q p' q'
    constructor
    · rintro ⟨m, rfl, rfl⟩
      exact ⟨m.toList, toList_joinKey sep p' m, toList_joinKey sep m q⟩
    · rintro ⟨m, hp, hq⟩
      refine ⟨String.ofList m, String.ext ?_, String.ext ?_⟩
      · rw [toList_joinKey, String.toList_ofList, hp]
      · rw [toList_joinKey, String.toList_ofList, hq]
  rw [hcut, hcut, ← String.toList_inj, toList_joinKey, toList_joinKey, append_cons_eq_iff,
    String.toList_inj, String.toList_inj]

theorem joinKey_inj_right {sep : Char} {a b a' b' : String} (hb : sep ∉ b.toList)
    (hb' : sep ∉ b'.toList) : joinKey sep a b = joinKey sep a' b' ↔ a = a' ∧ b = b' := by
  have hnot : ∀ {p q p' q' : String}, sep ∉ q'.toList → ¬ CutMoved sep p q p' q' := by
    rintro p q p' q' hq ⟨m, -, rfl⟩
    exact hq (by simp [toList_joinKey])
  rw [joinKey_eq_iff]
  constructor
  · rintro (h | h | h)
    · exact h
    · exact absurd h (hnot hb')
    · exact absurd h (hnot hb)
  · exact Or.inl

theorem append_right_cancel_text {p a b : String} : p ++ a = p ++ b ↔ a = b := by
  rw [← String.toList_inj, String.toList_append, String.toList_append, List.append_cancel_left_eq,
    String.toList_inj]

/-! ## Numerals -/

theorem not_mem_numeral {c : Char} (h : c.isDigit = false) (n : Nat) :
    c ∉ (toString n).toList := by
  intro hc
  rw [Nat.toString_eq_repr, Nat.toList_repr] at hc
  have hdigit : c.isDigit = true := Nat.isDigit_of_mem_toDigits (by decide) (by decide) hc
  rw [h] at hdigit
  cases hdigit

/-- `f"{n:0{width}d}"`. -/
def zeroPadded (width n : Nat) : String :=
  String.ofList (List.replicate (width - (Nat.toDigits 10 n).length) '0' ++ Nat.toDigits 10 n)

theorem zeroPadded_inj {width m n : Nat} : zeroPadded width m = zeroPadded width n ↔ m = n := by
  have hread : ∀ k : Nat, Nat.ofDigitChars 10 (zeroPadded width k).toList 0 = k := by
    intro k
    rw [zeroPadded, String.toList_ofList, Nat.ofDigitChars_append, Nat.ofDigitChars_replicate_zero,
      Nat.mul_zero, Nat.ofDigitChars_ten_toDigits]
  constructor
  · intro h
    rw [← hread m, h, hread n]
  · rintro rfl
    rfl

theorem not_mem_zeroPadded {c : Char} (h : c.isDigit = false) (width n : Nat) :
    c ∉ (zeroPadded width n).toList := by
  rw [zeroPadded, String.toList_ofList, List.mem_append, not_or]
  constructor
  · intro hc
    obtain rfl := List.eq_of_mem_replicate hc
    cases h
  · intro hc
    have hdigit : c.isDigit = true := Nat.isDigit_of_mem_toDigits (by decide) (by decide) hc
    rw [h] at hdigit
    cases hdigit

/-- `f"{n:03d}"`. -/
def numeral3 (n : Nat) : String :=
  String.ofList (List.replicate (3 - (Nat.toDigits 10 n).length) '0' ++ Nat.toDigits 10 n)

theorem numeral3_inj {m n : Nat} : numeral3 m = numeral3 n ↔ m = n :=
  @zeroPadded_inj 3 m n

theorem numeral_inj {m n : Nat} : toString m = toString n ↔ m = n := by
  constructor
  · intro h
    have hdigits : Nat.toDigits 10 m = Nat.toDigits 10 n := by
      rw [← Nat.toList_repr, ← Nat.toList_repr, ← Nat.toString_eq_repr, ← Nat.toString_eq_repr, h]
    have hread := congrArg (fun cs => Nat.ofDigitChars 10 cs 0) hdigits
    rw [Nat.ofDigitChars_ten_toDigits, Nat.ofDigitChars_ten_toDigits] at hread
    exact hread
  · rintro rfl
    rfl

end NuSelf.Lib
