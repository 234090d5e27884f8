/-
  Patterns that match by backtracking, and the substitution of their matches.

  A pattern matches a front of a text; `ends` lists the lengths of the fronts in the order in which
  a backtracking matcher tries them, so the first one is the match.  A pattern may ask what stands
  in front of the text, for the boundary of a word.

  `sub find` goes through a text from the left: where `find` has a match, its replacement takes the
  place of what is matched, and the search goes on behind it.
-/
import Mathlib.Data.List.Basic

namespace NuSelf.Lib

inductive Regex (α : Type) where
  /-- The empty text. -/
  | empty
  /-- One character of a class. -/
  | char (p : α → Bool)
  /-- Characters of a class, as many as there are, or fewer. -/
  | run (p : α → Bool)
  /-- On one side stands a word character, on the other none. -/
  | boundary (word : α → Bool)
  | seq (r s : Regex α)
  /-- The first pattern, or else the second. -/
  | alt (r s : Regex α)

namespace Regex

variable {α : Type}

/-! ## Matching -/

/-- `r?` -/
def opt (r : Regex α) : Regex α := .alt r .empty

/-- `p+` -/
def plus (p : α → Bool) : Regex α := .seq (.char p) (.run p)

/-- `r{n}` -/
def times : Nat → Regex α → Regex α
  | 0, _ => .empty
  | n + 1, r => .seq r (times n r)

/-- The character in front of what is left behind the first `n`. -/
def charBefore (before : Option α) (text : List α) (n : Nat) : Option α :=
  (text.take n).getLast?.or before

/-- The lengths of the matches, in the order in which they are tried. -/
def ends : Regex α → Option α → List α → List Nat
  | .empty, _, _ => [0]
  | .char _, _, [] => []
  | .char p, _, c :: _ => if p c = true then [1] else []
  | .run p, _, text => (List.range ((text.takeWhile p).length + 1)).reverse
  | .boundary word, before, text =>
    if before.any word = text.head?.any word then [] else [0]
  | .seq r s, before, text =>
    (ends r before text).flatMap fun n =>
      (ends s (charBefore before text n) (text.drop n)).map fun m => n + m
  | .alt r s, before, text => ends r before text ++ ends s before text

/-- The match of a pattern. -/
def first (r : Regex α) (before : Option α) (text : List α) : Option Nat :=
  (ends r before text).head?

/-- The match of two patterns, one behind the other, with the length of each. -/
def groups (r s : Regex α) (before : Option α) (text : List α) : Option (Nat × Nat) :=
  ((ends r before text).flatMap fun n =>
    (ends s (charBefore before text n) (text.drop n)).map fun m => (n, m)).head?

/-- `re.sub`: `find` gives the length of the match at the front of a text and its replacement, and
    `skip` is how much of the text belongs to a match that has been replaced. -/
def sub (find : Option α → List α → Option (Nat × List α)) : Nat → Option α → List α → List α
  | _, _, [] => []
  | skip + 1, _, c :: rest => sub find skip (some c) rest
  | 0, before, c :: rest =>
    match find before (c :: rest) with
    | some (n + 1, replacement) => replacement ++ sub find n (some c) rest
    | _ => c :: sub find 0 (some c) rest

/-- A match that is replaced by a fixed text. -/
def findFixed (r : Regex α) (replacement : List α) (before : Option α) (text : List α) :
    Option (Nat × List α) :=
  (first r before text).map fun n => (n, replacement)

/-- A match of two patterns, the second of which is replaced. -/
def findGroups (r s : Regex α) (replace : List α → List α) (before : Option α) (text : List α) :
    Option (Nat × List α) :=
  (groups r s before text).map fun found =>
    (found.1 + found.2, text.take found.1 ++ replace ((text.drop found.1).take found.2))

end Regex

end NuSelf.Lib
