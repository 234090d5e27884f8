/-
  `==` on JSON values.

  It is wider than equality: numbers compare by what they stand for, a boolean among them, and two
  objects are equal in whatever order their fields were written.
-/
import Mathlib.Algebra.Group.Int.Defs
import NuSelf.Lib.Double

namespace NuSelf.Lib

/-- A finite float in units of the least positive one. -/
def Double.scaled (x : Double) : Int :=
  let exponent := x.magnitude / 2 ^ 52
  let fraction := x.magnitude % 2 ^ 52
  let value : Nat := if exponent = 0 then fraction else (2 ^ 52 + fraction) * 2 ^ (exponent - 1)
  if x.msb = true then -(value : Int) else value

namespace Json

/-- The number that a value is, in the same units. -/
def number : Json → Option Int
  | .bool b => some (if b = true then 2 ^ 1074 else 0)
  | .int n => some (n * 2 ^ 1074)
  | .float x => if Double.isFinite x = true then some (Double.scaled x) else none
  | _ => none

mutual

/-- `a == b`. -/
def equal : Json → Json → Bool
  | .null, .null => true
  | .str a, .str b => a == b
  | .float a, .float b => Double.eq a b
  | .arr a, .arr b => equalItems a b
  | .obj a, .obj b => a.length == b.length && equalFields a b
  | a, b =>
    match a.number, b.number with
    | some x, some y => x == y
    | _, _ => false

def equalItems : List Json → List Json → Bool
  | [], [] => true
  | a :: as, b :: bs => equal a b && equalItems as bs
  | _, _ => false

/-- Every field of the one is in the other. -/
def equalFields : List (String × Json) → List (String × Json) → Bool
  | [], _ => true
  | (k, a) :: as, bs =>
    (match bs.lookup k with
      | some b => equal a b
      | none => false) && equalFields as bs

end

mutual

/-- The same value, in whatever order the fields of its objects were written; unlike in `equal` a
    number is the number that was written, and no boolean. -/
def sameInAnyOrder : Json → Json → Bool
  | .arr a, .arr b => sameItemsInAnyOrder a b
  | .obj a, .obj b => a.length == b.length && sameFieldsInAnyOrder a b
  | .null, b => same .null b
  | .bool a, b => same (.bool a) b
  | .int a, b => same (.int a) b
  | .float a, b => same (.float a) b
  | .str a, b => same (.str a) b
  | _, _ => false

def sameItemsInAnyOrder : List Json → List Json → Bool
  | [], [] => true
  | a :: as, b :: bs => sameInAnyOrder a b && sameItemsInAnyOrder as bs
  | _, _ => false

def sameFieldsInAnyOrder : List (String × Json) → List (String × Json) → Bool
  | [], _ => true
  | (k, a) :: as, bs =>
    (bs.lookup k).any (fun b => sameInAnyOrder a b) && sameFieldsInAnyOrder as bs

end

/-- A value without parts. -/
def scalar : Json → Bool
  | .arr _ | .obj _ => false
  | _ => true

theorem sameInAnyOrder_scalar {a b : Json} (h : a.scalar = true) :
    sameInAnyOrder a b = true ↔ b = a := by
  cases a with
  | arr items => cases h
  | obj fields => cases h
  | _ => rw [sameInAnyOrder, same_iff, eq_comm]

theorem sameFieldsInAnyOrder_iff {bs : List (String × Json)} : ∀ {as : List (String × Json)},
    sameFieldsInAnyOrder as bs = true ↔
      ∀ field ∈ as, ∃ b, bs.lookup field.1 = some b ∧ sameInAnyOrder field.2 b = true
  | [] => by simp [sameFieldsInAnyOrder]
  | (k, a) :: as => by
    rw [sameFieldsInAnyOrder, Bool.and_eq_true, sameFieldsInAnyOrder_iff, List.forall_mem_cons]
    exact and_congr_left fun _ => Option.any_eq_true _ _

/-- **Two objects with the same keys**, each once, are the same when their fields are. -/
theorem sameInAnyOrder_obj {as bs : List (String × Json)} (ha : (as.map Prod.fst).Nodup)
    (hb : (bs.map Prod.fst).Nodup) (hkeys : ∀ k, k ∈ as.map Prod.fst ↔ k ∈ bs.map Prod.fst) :
    sameInAnyOrder (.obj as) (.obj bs) = true ↔
      ∀ field ∈ as, ∃ b, bs.lookup field.1 = some b ∧ sameInAnyOrder field.2 b = true := by
  have hlength : as.length = bs.length := by
    have hperm := ((List.perm_ext_iff_of_nodup ha hb).mpr hkeys).length_eq
    rwa [List.length_map, List.length_map] at hperm
  rw [sameInAnyOrder, Bool.and_eq_true, sameFieldsInAnyOrder_iff]
  exact and_iff_right (beq_iff_eq.mpr hlength)

mutual

/-- Every object is a dictionary: it has each of its keys once. -/
def KeysOnce : Json → Prop
  | .arr items => KeysOnceItems items
  | .obj fields => (fields.map Prod.fst).Nodup ∧ KeysOnceFields fields
  | _ => True

def KeysOnceItems : List Json → Prop
  | [] => True
  | v :: rest => KeysOnce v ∧ KeysOnceItems rest

def KeysOnceFields : List (String × Json) → Prop
  | [] => True
  | (_, v) :: rest => KeysOnce v ∧ KeysOnceFields rest

end

theorem KeysOnceFields.of_lookup {k : String} {v : Json} : ∀ {fields : List (String × Json)},
    KeysOnceFields fields → fields.lookup k = some v → v.KeysOnce
  | [], _, h => nomatch h
  | (k', w) :: rest, hfields, h => by
    rw [List.lookup_cons] at h
    split at h
    · cases h
      exact hfields.1
    · exact KeysOnceFields.of_lookup hfields.2 h

/-- One and one point nought are equal, and so are objects with their fields exchanged. -/
example : equal (.obj [("a", .int 1), ("b", .null)])
    (.obj [("b", .null), ("a", .float 0x3ff0000000000000#64)]) = true := by decide +kernel

end Json
end NuSelf.Lib
