/-
  Lines of a growing row of bytes.

  A reader that follows a growing text takes the lines that have their newline (`completeLines`)
  and comes back for the rest.  Bytes that end in a newline (`Whole`) are done with: the lines of
  what follows do not depend on them (`completeLines_append`).
-/
import Mathlib.Data.List.Basic

namespace NuSelf.Lib

/-- The boundary after the last newline. -/
def completeLength : List UInt8 → Nat
  | [] => 0
  | b :: rest =>
    match completeLength rest with
    | 0 => if b = 10 then 1 else 0
    | n + 1 => n + 2

/-- `bytes.splitlines()`, `line` being read and the byte before a carriage return or not. -/
def splitLinesFrom (line : List UInt8) (afterReturn : Bool) : List UInt8 → List (List UInt8)
  | [] => if line = [] then [] else [line]
  | b :: rest =>
    if b = 10 then
      if afterReturn then splitLinesFrom [] false rest else line :: splitLinesFrom [] false rest
    else if b = 13 then line :: splitLinesFrom [] true rest
    else splitLinesFrom (line ++ [b]) false rest

def splitLines (bytes : List UInt8) : List (List UInt8) := splitLinesFrom [] false bytes

/-- The lines that have their newline. -/
def completeLines (bytes : List UInt8) : List (List UInt8) :=
  splitLines (bytes.take (completeLength bytes))

/-- Nothing, or bytes with a newline at the end. -/
def Whole (bytes : List UInt8) : Prop := completeLength bytes = bytes.length

theorem completeLength_le : ∀ bytes : List UInt8, completeLength bytes ≤ bytes.length
  | [] => Nat.le_refl 0
  | b :: rest => by
    have ih := completeLength_le rest
    rw [completeLength, List.length_cons]
    cases h : completeLength rest with
    | zero =>
      dsimp only
      split <;> omega
    | succ n =>
      rw [h] at ih
      exact Nat.succ_le_succ ih

theorem completeLength_append (bytes bytes' : List UInt8) :
    completeLength (bytes ++ bytes') =
      if completeLength bytes' = 0 then completeLength bytes
      else bytes.length + completeLength bytes' := by
  induction bytes with
  | nil =>
    rw [List.nil_append, List.length_nil, Nat.zero_add]
    split
    · assumption
    · rfl
  | cons b rest ih =>
    rw [List.cons_append, completeLength, ih]
    cases h : completeLength bytes' with
    | zero =>
      rw [if_pos rfl, if_pos rfl]
      rfl
    | succ n =>
      rw [if_neg (Nat.succ_ne_zero n), if_neg (Nat.succ_ne_zero n), List.length_cons, Nat.add_succ]
      show rest.length + n + 2 = rest.length + 1 + (n + 1)
      omega

namespace Whole

variable {bytes bytes' : List UInt8}

theorem nil : Whole [] := rfl

theorem completeLength_append (h : Whole bytes) (bytes' : List UInt8) :
    completeLength (bytes ++ bytes') = bytes.length + completeLength bytes' := by
  rw [Lib.completeLength_append]
  split
  · rename_i hzero
    rw [hzero, Nat.add_zero]
    exact h
  · rfl

theorem append (h : Whole bytes) (h' : Whole bytes') : Whole (bytes ++ bytes') := by
  rw [Whole, h.completeLength_append, List.length_append, h']

theorem take (bytes : List UInt8) : Whole (bytes.take (completeLength bytes)) := by
  have hle := completeLength_le bytes
  have hsplit := Lib.completeLength_append (bytes.take (completeLength bytes))
    (bytes.drop (completeLength bytes))
  have hlen : (bytes.take (completeLength bytes)).length = completeLength bytes := by
    rw [List.length_take]
    omega
  rw [List.take_append_drop] at hsplit
  rw [Whole, hlen]
  split at hsplit
  · exact hsplit.symm
  · -- a newline behind the last newline
    rw [hlen] at hsplit
    omega

theorem of_cons {b : UInt8} {rest : List UInt8} (h : Whole (b :: rest)) : Whole rest := by
  rw [Whole, completeLength, List.length_cons] at h
  rw [Whole]
  cases hrest : completeLength rest with
  | zero =>
    simp only [hrest] at h
    split at h <;> omega
  | succ n =>
    simp only [hrest] at h
    omega

theorem getLast? : ∀ {bytes : List UInt8}, Whole bytes → bytes ≠ [] → bytes.getLast? = some 10
  | [], _, hne => absurd rfl hne
  | [b], h, _ => by
    rw [Whole, completeLength, completeLength, List.length_singleton] at h
    by_cases hb : b = 10
    · rw [hb, List.getLast?_singleton]
    · rw [if_neg hb] at h
      cases h
  | b :: c :: rest, h, _ => by
    rw [List.getLast?_cons_cons]
    exact getLast? h.of_cons (List.cons_ne_nil c rest)

end Whole

theorem splitLinesFrom_append : ∀ {bytes : List UInt8}, Whole bytes → bytes ≠ [] →
    ∀ (line : List UInt8) (afterReturn : Bool) (bytes' : List UInt8),
      splitLinesFrom line afterReturn (bytes ++ bytes') =
        splitLinesFrom line afterReturn bytes ++ splitLines bytes'
  | [], _, hne, _, _, _ => absurd rfl hne
  | [b], h, _, line, afterReturn, bytes' => by
    have hb : b = 10 := by
      by_contra hb
      rw [Whole, completeLength, completeLength] at h
      simp [hb] at h
    subst hb
    simp only [List.cons_append, List.nil_append, splitLinesFrom, if_pos]
    split <;> rfl
  | b :: c :: rest, h, _, line, afterReturn, bytes' => by
    have ih := fun line afterReturn =>
      splitLinesFrom_append h.of_cons (List.cons_ne_nil c rest) line afterReturn bytes'
    rw [List.cons_append, splitLinesFrom, splitLinesFrom, ih, ih, ih]
    split
    · split <;> rfl
    · split <;> rfl

theorem splitLines_append {bytes : List UInt8} (h : Whole bytes) (bytes' : List UInt8) :
    splitLines (bytes ++ bytes') = splitLines bytes ++ splitLines bytes' := by
  cases bytes with
  | nil => rfl
  | cons b rest => exact splitLinesFrom_append h (List.cons_ne_nil b rest) [] false bytes'

/-- **What is done with stays done with.** -/
theorem completeLines_append {bytes : List UInt8} (h : Whole bytes) (bytes' : List UInt8) :
    completeLines (bytes ++ bytes') = splitLines bytes ++ completeLines bytes' := by
  rw [completeLines, h.completeLength_append, List.take_length_add_append, splitLines_append h]
  rfl

end NuSelf.Lib
