/-
  JSON values as `json.loads` builds them.

  Integers are unbounded, a float is its 64 bits, an object is the list of its fields in insertion
  order.  Equality is decidable by the walk `same`, whose three mutual functions follow the value,
  its items and its fields; every walk over JSON in this development has that shape.  `all` is the
  walk that tests every scalar and every key: `finite` says which values JSON text can hold, `ascii`
  which texts are the same with and without escapes.
-/
import Mathlib.Data.List.Basic

namespace NuSelf.Lib

inductive Json where
  | null
  | bool (b : Bool)
  | int (n : Int)
  | float (bits : BitVec 64)
  | str (s : String)
  | arr (items : List Json)
  | obj (fields : List (String × Json))

namespace Json

/-! ## Equality -/

mutual

/-- Equality of two values. -/
def same : Json → Json → Bool
  | .null, .null => true
  | .bool a, .bool b => a == b
  | .int a, .int b => a == b
  | .float a, .float b => a == b
  | .str a, .str b => a == b
  | .arr a, .arr b => sameItems a b
  | .obj a, .obj b => sameFields a b
  | _, _ => false

def sameItems : List Json → List Json → Bool
  | [], [] => true
  | a :: as, b :: bs => same a b && sameItems as bs
  | _, _ => false

def sameFields : List (String × Json) → List (String × Json) → Bool
  | [], [] => true
  | (k, a) :: as, (l, b) :: bs => k == l && same a b && sameFields as bs
  | _, _ => false

end

mutual

theorem same_iff : ∀ a b : Json, same a b = true ↔ a = b
  | .arr as, b => by cases b <;> simp [same, sameItems_iff as]
  | .obj as, b => by cases b <;> simp [same, sameFields_iff as]
  | .null, b | .bool _, b | .int _, b | .float _, b | .str _, b => by cases b <;> simp [same]

theorem sameItems_iff : ∀ as bs : List Json, sameItems as bs = true ↔ as = bs
  | [], bs => by cases bs <;> simp [sameItems]
  | a :: as, bs => by cases bs <;> simp [sameItems, same_iff a, sameItems_iff as]

theorem sameFields_iff : ∀ as bs : List (String × Json), sameFields as bs = true ↔ as = bs
  | [], bs => by cases bs <;> simp [sameFields]
  | (k, a) :: as, bs => by
    cases bs <;> simp [sameFields, Prod.ext_iff, same_iff a, sameFields_iff as]

end

instance : DecidableEq Json := fun a b => decidable_of_iff _ (same_iff a b)

instance : Inhabited Json := ⟨.null⟩

/-! ## Scalars and keys -/

mutual

/-- Every scalar and every key passes its test. -/
def all (leaf : Json → Bool) (key : String → Bool) : Json → Bool
  | .arr items => allItems leaf key items
  | .obj fields => allFields leaf key fields
  | v => leaf v

def allItems (leaf : Json → Bool) (key : String → Bool) : List Json → Bool
  | [] => true
  | v :: rest => all leaf key v && allItems leaf key rest

def allFields (leaf : Json → Bool) (key : String → Bool) : List (String × Json) → Bool
  | [] => true
  | (k, v) :: rest => key k && all leaf key v && allFields leaf key rest

end

/-- The exponent of an infinity or of a non-number is all ones. -/
def finiteLeaf : Json → Bool
  | .float bits => bits.extractLsb' 52 11 != 0x7ff#11
  | _ => true

/-- `isfinite` of every float in the value. -/
def finite (v : Json) : Bool := v.all finiteLeaf fun _ => true

/-- A text that `ensure_ascii` leaves alone, control characters apart. -/
def asciiText (s : String) : Bool := s.toList.all fun c => c.toNat ≤ 0x7e

def asciiLeaf : Json → Bool
  | .str s => asciiText s
  | _ => true

def ascii (v : Json) : Bool := v.all asciiLeaf asciiText

end Json
end NuSelf.Lib
