/-
  Floats as their 64 bits, and how two of them compare.

  The bits of a float are its sign and a magnitude that grows with the absolute value, so two
  numbers compare as their signed magnitudes do; the two zeros have the same one.  A non-number
  compares with nothing.
-/
import Mathlib.Algebra.Group.Nat.Defs
import Mathlib.Data.Int.Order.Basic
import NuSelf.Lib.Json
import NuSelf.Lib.Sequence

namespace NuSelf.Lib

abbrev Double := BitVec 64

namespace Double

/-- The bits without the sign. -/
def magnitude (x : Double) : Nat := x.toNat % 2 ^ 63

/-- Beyond the infinities there is no number. -/
def isNaN (x : Double) : Bool := decide (0x7ff0000000000000 < x.magnitude)

def signed (x : Double) : Int := if x.msb then -(x.magnitude : Int) else x.magnitude

/-- `x <= y`. -/
def le (x y : Double) : Bool := !x.isNaN && !y.isNaN && decide (x.signed ≤ y.signed)

/-- `x < y`. -/
def lt (x y : Double) : Bool := !x.isNaN && !y.isNaN && decide (x.signed < y.signed)

/-- `x == y`. -/
def eq (x y : Double) : Bool := !x.isNaN && !y.isNaN && decide (x.signed = y.signed)

def isFinite (x : Double) : Bool := Json.finiteLeaf (.float x)

theorem isFinite_iff (x : Double) : x.isFinite = true ↔ x.magnitude < 0x7ff0000000000000 := by
  have hexponent : (BitVec.extractLsb' 52 11 x).toNat = x.magnitude / 2 ^ 52 := by
    rw [BitVec.extractLsb'_toNat, Nat.shiftRight_eq_div_pow, magnitude]
    omega
  have hbound : x.magnitude < 2 ^ 63 := Nat.mod_lt _ (by decide)
  have hne : BitVec.extractLsb' 52 11 x = 0x7ff#11 ↔ x.magnitude / 2 ^ 52 = 0x7ff := by
    rw [← hexponent, ← BitVec.toNat_inj]
    rfl
  rw [isFinite, Json.finiteLeaf, bne_iff_ne, ne_eq, hne]
  omega

theorem isFinite_of_unit {x : Double} (hlow : Double.le 0x0#64 x = true)
    (hhigh : x.le 0x3ff0000000000000#64 = true) : x.isFinite = true := by
  rw [le, Bool.and_eq_true, decide_eq_true_eq] at hlow hhigh
  have hlow' : (0 : Int) ≤ x.signed := hlow.2
  have hhigh' : x.signed ≤ 0x3ff0000000000000 := hhigh.2
  rw [isFinite_iff]
  rw [signed] at hlow' hhigh'
  by_cases hsign : x.msb = true
  · rw [if_pos hsign] at hlow' hhigh'
    omega
  · rw [if_neg hsign] at hlow' hhigh'
    omega

/-- `max([x, *rest])`: the first of the greatest. -/
def maxOf (x : Double) (rest : List Double) : Double :=
  rest.foldl (fun best y => if best.lt y then y else best) x

/-- `min([x, *rest])`: the first of the least. -/
def minOf (x : Double) (rest : List Double) : Double :=
  rest.foldl (fun best y => if y.lt best then y else best) x

theorem maxOf_mem (x : Double) (rest : List Double) : maxOf x rest ∈ x :: rest :=
  best_mem lt rest x

theorem minOf_mem (x : Double) (rest : List Double) : minOf x rest ∈ x :: rest :=
  best_mem (fun a b : Double => b.lt a) rest x

theorem isNaN_of_finite {x : Double} (h : x.isFinite = true) : x.isNaN = false := by
  have hbound := (isFinite_iff x).mp h
  exact decide_eq_false (by omega)

theorem lt_iff {x y : Double} (hx : x.isFinite = true) (hy : y.isFinite = true) :
    x.lt y = true ↔ x.signed < y.signed := by
  rw [lt, isNaN_of_finite hx, isNaN_of_finite hy]
  exact decide_eq_true_iff

theorem le_iff {x y : Double} (hx : x.isFinite = true) (hy : y.isFinite = true) :
    x.le y = true ↔ x.signed ≤ y.signed := by
  rw [le, isNaN_of_finite hx, isNaN_of_finite hy]
  exact decide_eq_true_iff

theorem eq_iff {x y : Double} (hx : x.isFinite = true) (hy : y.isFinite = true) :
    x.eq y = true ↔ x.signed = y.signed := by
  rw [eq, isNaN_of_finite hx, isNaN_of_finite hy]
  exact decide_eq_true_iff

/-- **No number of them is greater.** -/
theorem le_maxOf {x : Double} {rest : List Double} (h : ∀ y ∈ x :: rest, y.isFinite = true)
    {y : Double} (hy : y ∈ x :: rest) : y.le (maxOf x rest) = true := by
  rw [le_iff (h y hy) (h _ (maxOf_mem x rest))]
  exact le_best lt signed (fun a ha b hb => lt_iff (h a ha) (h b hb)) y hy

theorem minOf_le {x : Double} {rest : List Double} (h : ∀ y ∈ x :: rest, y.isFinite = true)
    {y : Double} (hy : y ∈ x :: rest) : (minOf x rest).le y = true := by
  rw [le_iff (h _ (minOf_mem x rest)) (h y hy)]
  -- the least is the best where the comparison is turned round
  have hturned : ∀ a ∈ x :: rest, ∀ b ∈ x :: rest, b.lt a = true ↔ -a.signed < -b.signed := by
    intro a ha b hb
    rw [lt_iff (h b hb) (h a ha)]
    omega
  have hle : -y.signed ≤ -(minOf x rest).signed :=
    le_best (fun a b : Double => b.lt a) (fun a : Double => -a.signed) hturned y hy
  omega

/-! ## Integers -/

/-- The magnitude nearest to a natural number, half to even.  A carry out of the fraction moves the
    exponent on, as it should. -/
def natMagnitude (n : Nat) : Nat :=
  if n = 0 then 0
  else
    let k := n.log2
    let significand :=
      if k ≤ 52 then n * 2 ^ (52 - k)
      else
        let quotient := n / 2 ^ (k - 52)
        let rest := n % 2 ^ (k - 52)
        let half := 2 ^ (k - 53)
        if half < rest ∨ rest = half ∧ quotient % 2 = 1 then quotient + 1 else quotient
    -- the significand has its leading bit, which counts one in the exponent
    (k + 1022) * 2 ^ 52 + significand

/-- `float(n)`; `none` is an `OverflowError`. -/
def ofInt (n : Int) : Option Double :=
  let magnitude := natMagnitude n.natAbs
  if magnitude < 0x7ff0000000000000 then
    some (BitVec.ofNat 64 (if n < 0 then 2 ^ 63 + magnitude else magnitude))
  else none

/-- The integers from 2⁵³ on are rounded: a tie goes to the even neighbour. -/
example : ofInt 9007199254740993 = ofInt 9007199254740992 ∧
    ofInt (-9007199254740995) = ofInt (-9007199254740996) := by decide

/-! ## Exact values -/

/-- The value of a finite float. -/
def toRat (x : Double) : Rat :=
  let exponent : Nat := x.magnitude / 2 ^ 52
  let fraction : Nat := x.magnitude % 2 ^ 52
  let absolute : Rat :=
    if exponent = 0 then (fraction : Rat) / ((2 ^ 1074 : Nat) : Rat)
    else (((2 ^ 52 + fraction) * 2 ^ exponent : Nat) : Rat) / ((2 ^ 1075 : Nat) : Rat)
  if x.msb then -absolute else absolute

example : toRat 0x3fe0000000000000#64 = 1 / 2 ∧ toRat 0xbff8000000000000#64 = -(3 / 2) := by
  decide +kernel

end Double
end NuSelf.Lib
