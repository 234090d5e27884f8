/-
  JSON values, and the text that `json.dumps` makes of them: compact, ASCII only, finite numbers
  only.

  Whether there is a text is one walk (`dumpsCheck`), which stops at the first value that has none,
  or where values nest deeper than the interpreter goes.  The text itself is another (`render`).

  How floats are written and read is a parameter (`FloatFormat`): the text of a finite float is a
  JSON number, and reads as the same float.

  1. `dumpsCheck_iff` — there is a text exactly if the value is `clean` and does not nest too deep.
  2. `render_printable` — the text has printable ASCII characters only.
-/
import NuSelf.Lib.CodePoint
import Mathlib.Data.List.Basic

namespace NuSelf.Lib

/-! ## Numbers -/

/-- A JSON number as it is written, its digits as characters. -/
structure NumberLiteral where
  negative : Bool := false
  whole : List Char
  /-- The digits behind the point, none if there is no point. -/
  fraction : List Char := []
  /-- The sign, if one is written, and the digits. -/
  exponent : Option (Option Char × List Char) := none
  deriving DecidableEq

namespace NumberLiteral

def isFloat (lit : NumberLiteral) : Bool := !lit.fraction.isEmpty || lit.exponent.isSome

def renderFraction (digits : List Char) : List Char :=
  if digits.isEmpty then [] else '.' :: digits

def renderExponent : Option (Option Char × List Char) → List Char
  | none => []
  | some (sign, digits) => 'e' :: (sign.toList ++ digits)

def render (lit : NumberLiteral) : List Char :=
  (if lit.negative then ['-'] else []) ++
    (lit.whole ++ (renderFraction lit.fraction ++ renderExponent lit.exponent))

/-- What the grammar of JSON asks of a number. -/
structure WellFormed (lit : NumberLiteral) : Prop where
  whole_digits : ∀ c ∈ lit.whole, c.isDigit = true
  no_leading_zero : lit.whole = ['0'] ∨ (lit.whole ≠ [] ∧ lit.whole.head? ≠ some '0')
  fraction_digits : ∀ c ∈ lit.fraction, c.isDigit = true
  exponent_digits : ∀ sign digits, lit.exponent = some (sign, digits) →
    (∀ c ∈ sign, c = '-' ∨ c = '+') ∧ digits ≠ [] ∧ ∀ c ∈ digits, c.isDigit = true

/-- `int()` of an integer. -/
def toInt (lit : NumberLiteral) : Int :=
  if lit.negative then -(Nat.ofDigitChars 10 lit.whole 0 : Int)
  else (Nat.ofDigitChars 10 lit.whole 0 : Int)

/-- `int.__repr__`. -/
def ofInt (n : Int) : NumberLiteral where
  negative := decide (n < 0)
  whole := Nat.toDigits 10 n.natAbs

@[simp]
theorem isFloat_ofInt (n : Int) : (ofInt n).isFloat = false := rfl

theorem toInt_ofInt (n : Int) : (ofInt n).toInt = n := by
  rw [toInt, ofInt]
  simp only [Nat.ofDigitChars_toDigits (by decide : 1 < 10) (Nat.le_refl 10), decide_eq_true_eq]
  split <;> omega

theorem head_toDigits (n : Nat) : 0 < n → (Nat.toDigits 10 n).head? ≠ some '0' := by
  induction n using Nat.strongRecOn with
  | ind n ih =>
    intro hpos
    by_cases hlt : n < 10
    · rw [Nat.toDigits_of_lt_base hlt]
      have hdigits : ∀ d < 10, 0 < d → [d.digitChar].head? ≠ some '0' := by decide
      exact hdigits n hlt hpos
    · rw [Nat.toDigits_of_base_le (by decide) (by omega),
        List.head?_append_of_ne_nil _ Nat.toDigits_ne_nil]
      exact ih (n / 10) (by omega) (by omega)

theorem ofInt_wellFormed (n : Int) : (ofInt n).WellFormed where
  whole_digits _ hc := Nat.isDigit_of_mem_toDigits (by decide) (Nat.le_refl 10) hc
  no_leading_zero := by
    by_cases hn : n = 0
    · subst hn
      exact Or.inl (Nat.toDigits_zero 10)
    · exact Or.inr ⟨Nat.toDigits_ne_nil, head_toDigits _ (by omega)⟩
  fraction_digits _ hc := nomatch hc
  exponent_digits _ _ h := nomatch h

end NumberLiteral

/-- `float()` of a literal and `float.__repr__` of a finite float. -/
structure FloatFormat (φ : Type) where
  parse : NumberLiteral → φ
  repr : φ → NumberLiteral
  isFinite : φ → Bool
  repr_wellFormed : ∀ x, isFinite x = true → (repr x).WellFormed
  repr_isFloat : ∀ x, isFinite x = true → (repr x).isFloat = true
  parse_repr : ∀ x, isFinite x = true → parse (repr x) = x

/-- A format with no finite float, for texts in which none is written. -/
def FloatFormat.without : FloatFormat Unit where
  parse _ := ()
  repr _ := .ofInt 0
  isFinite _ := false
  repr_wellFormed _ h := by cases h
  repr_isFloat _ h := by cases h
  parse_repr _ h := by cases h

/-! ## Values -/

/-- What `json.loads` builds and `json.dumps` takes; an object of another class by its name. -/
inductive JsonValue (φ : Type) where
  | null
  | bool (b : Bool)
  | int (n : Int)
  | float (x : φ)
  | str (s : PyText)
  | arr (items : List (JsonValue φ))
  | obj (fields : List (PyText × JsonValue φ))
  | foreign (type_name : String)

/-- `int_max_str_digits`. -/
def maxIntDigits : Nat := 4300

/-- Why there is no text: a `ValueError` or `TypeError`, or a `RecursionError`. -/
inductive DumpError where
  | value
  | recursion
  deriving DecidableEq

namespace JsonValue

variable {φ : Type} (floats : FloatFormat φ)

/-! ## Whether there is a text -/

mutual

def dumpsCheck : Nat → JsonValue φ → Except DumpError Unit
  | _, .int n => if (NumberLiteral.ofInt n).whole.length ≤ maxIntDigits then .ok () else .error .value
  | _, .float x => if floats.isFinite x then .ok () else .error .value
  | 0, .arr _ | 0, .obj _ => .error .recursion
  | limit + 1, .arr items => dumpsCheckItems limit items
  | limit + 1, .obj fields => dumpsCheckFields limit fields
  | _, .foreign _ => .error .value
  | _, _ => .ok ()

def dumpsCheckItems : Nat → List (JsonValue φ) → Except DumpError Unit
  | _, [] => .ok ()
  | limit, v :: rest => do
    dumpsCheck limit v
    dumpsCheckItems limit rest

def dumpsCheckFields : Nat → List (PyText × JsonValue φ) → Except DumpError Unit
  | _, [] => .ok ()
  | limit, (_, v) :: rest => do
    dumpsCheck limit v
    dumpsCheckFields limit rest

end

mutual

/-- How many containers lie around each other. -/
def nesting : JsonValue φ → Nat
  | .arr items => nestingItems items + 1
  | .obj fields => nestingFields fields + 1
  | _ => 0

def nestingItems : List (JsonValue φ) → Nat
  | [] => 0
  | v :: rest => max (nesting v) (nestingItems rest)

def nestingFields : List (PyText × JsonValue φ) → Nat
  | [] => 0
  | (_, v) :: rest => max (nesting v) (nestingFields rest)

end

mutual

/-- Every scalar has a text. -/
def clean : JsonValue φ → Bool
  | .int n => decide ((NumberLiteral.ofInt n).whole.length ≤ maxIntDigits)
  | .float x => floats.isFinite x
  | .arr items => cleanItems items
  | .obj fields => cleanFields fields
  | .foreign _ => false
  | _ => true

def cleanItems : List (JsonValue φ) → Bool
  | [] => true
  | v :: rest => clean v && cleanItems rest

def cleanFields : List (PyText × JsonValue φ) → Bool
  | [] => true
  | (_, v) :: rest => clean v && cleanFields rest

end

/-! ## The text -/

/-- One escape for one unit. -/
def renderUnit (n : Nat) : List Char :=
  ['\\', 'u', (n / 0x1000 % 16).digitChar, (n / 0x100 % 16).digitChar, (n / 0x10 % 16).digitChar,
    (n % 16).digitChar]

/-- A code point between the quotes, with `ensure_ascii`. -/
def renderCodePoint : CodePoint → List Char
  | .surrogate s => renderUnit (0xd800 + s)
  | .char c =>
    match c with
    | '"' => ['\\', '"']
    | '\\' => ['\\', '\\']
    | '\n' => ['\\', 'n']
    | '\r' => ['\\', 'r']
    | '\t' => ['\\', 't']
    | '\x0c' => ['\\', 'f']
    | '\x08' => ['\\', 'b']
    | c =>
      if 0x20 ≤ c.toNat ∧ c.toNat ≤ 0x7e then [c]
      else if c.toNat ≤ 0xffff then renderUnit c.toNat
      else
        renderUnit (0xd800 + (c.toNat - 0x10000) / 0x400) ++
          renderUnit (0xdc00 + (c.toNat - 0x10000) % 0x400)

def renderString (s : PyText) : List Char := '"' :: (s.flatMap renderCodePoint ++ ['"'])

mutual

def render : JsonValue φ → List Char
  | .null => "null".toList
  | .bool true => "true".toList
  | .bool false => "false".toList
  | .int n => (NumberLiteral.ofInt n).render
  | .float x => (floats.repr x).render
  | .str s => renderString s
  | .arr items => '[' :: renderArray items
  | .obj fields => '{' :: renderObject fields
  | .foreign _ => []

def renderArray : List (JsonValue φ) → List Char
  | [] => [']']
  | v :: rest => render v ++ renderItems rest

/-- The items behind the first one. -/
def renderItems : List (JsonValue φ) → List Char
  | [] => [']']
  | v :: rest => ',' :: (render v ++ renderItems rest)

def renderObject : List (PyText × JsonValue φ) → List Char
  | [] => ['}']
  | (k, v) :: rest => renderString k ++ ':' :: (render v ++ renderFields rest)

/-- The fields behind the first one. -/
def renderFields : List (PyText × JsonValue φ) → List Char
  | [] => ['}']
  | (k, v) :: rest => ',' :: (renderString k ++ ':' :: (render v ++ renderFields rest))

end

/-- `json.dumps(v, separators=(",", ":"), allow_nan=False)`. -/
def dumps (limit : Nat) (v : JsonValue φ) : Except DumpError (List Char) := do
  dumpsCheck floats limit v
  return render floats v

/-! ## What there is a text of -/

variable {floats}

mutual

theorem dumpsCheck_iff : ∀ (v : JsonValue φ) (limit : Nat),
    dumpsCheck floats limit v = .ok () ↔ clean floats v = true ∧ nesting v ≤ limit
  | .null, limit | .bool _, limit | .str _, limit => by simp [dumpsCheck, clean, nesting]
  | .int n, limit => by
    simp only [dumpsCheck, clean, nesting, Nat.zero_le, and_true, decide_eq_true_eq]
    split <;> simp_all
  | .float x, limit => by
    simp only [dumpsCheck, clean, nesting, Nat.zero_le, and_true]
    split <;> simp_all
  | .foreign _, limit => by simp [dumpsCheck, clean]
  | .arr items, 0 => by simp [dumpsCheck, nesting]
  | .obj fields, 0 => by simp [dumpsCheck, nesting]
  | .arr items, limit + 1 => by
    rw [dumpsCheck, dumpsCheckItems_iff items limit, clean, nesting, Nat.add_le_add_iff_right]
  | .obj fields, limit + 1 => by
    rw [dumpsCheck, dumpsCheckFields_iff fields limit, clean, nesting, Nat.add_le_add_iff_right]

theorem dumpsCheckItems_iff : ∀ (items : List (JsonValue φ)) (limit : Nat),
    dumpsCheckItems floats limit items = .ok () ↔
      cleanItems floats items = true ∧ nestingItems items ≤ limit
  | [], limit => by simp [dumpsCheckItems, cleanItems, nestingItems]
  | v :: rest, limit => by
    have hv := dumpsCheck_iff v limit
    have hrest := dumpsCheckItems_iff rest limit
    rw [dumpsCheckItems, cleanItems, nestingItems, Nat.max_le, Bool.and_eq_true]
    cases hcheck : dumpsCheck floats limit v with
    | ok u =>
      rw [hcheck] at hv
      obtain ⟨hclean, hdeep⟩ := hv.mp rfl
      show dumpsCheckItems floats limit rest = .ok () ↔ _
      rw [hrest]
      tauto
    | error e =>
      rw [hcheck] at hv
      exact iff_of_false nofun fun h => nomatch hv.mpr ⟨h.1.1, h.2.1⟩

theorem dumpsCheckFields_iff : ∀ (fields : List (PyText × JsonValue φ)) (limit : Nat),
    dumpsCheckFields floats limit fields = .ok () ↔
      cleanFields floats fields = true ∧ nestingFields fields ≤ limit
  | [], limit => by simp [dumpsCheckFields, cleanFields, nestingFields]
  | (k, v) :: rest, limit => by
    have hv := dumpsCheck_iff v limit
    have hrest := dumpsCheckFields_iff rest limit
    rw [dumpsCheckFields, cleanFields, nestingFields, Nat.max_le, Bool.and_eq_true]
    cases hcheck : dumpsCheck floats limit v with
    | ok u =>
      rw [hcheck] at hv
      obtain ⟨hclean, hdeep⟩ := hv.mp rfl
      show dumpsCheckFields floats limit rest = .ok () ↔ _
      rw [hrest]
      tauto
    | error e =>
      rw [hcheck] at hv
      exact iff_of_false nofun fun h => nomatch hv.mpr ⟨h.1.1, h.2.1⟩

end

theorem dumps_ok {limit : Nat} {v : JsonValue φ} {text : List Char}
    (h : dumps floats limit v = .ok text) :
    clean floats v = true ∧ nesting v ≤ limit ∧ text = render floats v := by
  rw [dumps] at h
  cases hcheck : dumpsCheck floats limit v with
  | ok u =>
    rw [hcheck] at h
    obtain ⟨hclean, hdeep⟩ := (dumpsCheck_iff v limit).mp hcheck
    cases h
    exact ⟨hclean, hdeep, rfl⟩
  | error e =>
    rw [hcheck] at h
    cases h

/-! ## Only printable ASCII -/

/-- From the blank to the tilde. -/
def Printable (c : Char) : Prop := 0x20 ≤ c.toNat ∧ c.toNat ≤ 0x7e

instance (c : Char) : Decidable (Printable c) := inferInstanceAs (Decidable (_ ∧ _))

theorem printable_of_all {text : List Char} (h : (text.all fun c => decide (Printable c)) = true) :
    ∀ c ∈ text, Printable c :=
  fun c hc => of_decide_eq_true (List.all_eq_true.mp h c hc)

theorem printable_isDigit {c : Char} (h : c.isDigit = true) : Printable c := by
  rw [Char.isDigit, Bool.and_eq_true, decide_eq_true_eq, decide_eq_true_eq] at h
  have hlow : 48 ≤ c.toNat := h.1
  have hhigh : c.toNat ≤ 57 := h.2
  exact ⟨by omega, by omega⟩

theorem printable_hex : ∀ d < 16, Printable d.digitChar := by decide

theorem renderUnit_printable (n : Nat) : ∀ c ∈ renderUnit n, Printable c := by
  rw [renderUnit]
  simp only [List.forall_mem_cons, List.not_mem_nil, false_implies, implies_true, and_true]
  exact ⟨by decide, by decide, printable_hex _ (Nat.mod_lt _ (by decide)),
    printable_hex _ (Nat.mod_lt _ (by decide)), printable_hex _ (Nat.mod_lt _ (by decide)),
    printable_hex _ (Nat.mod_lt _ (by decide))⟩

theorem renderCodePoint_printable (p : CodePoint) : ∀ c ∈ renderCodePoint p, Printable c := by
  cases p with
  | surrogate s => exact renderUnit_printable _
  | char c =>
    rw [renderCodePoint.eq_def]
    simp only
    split <;> try exact printable_of_all rfl
    split
    · rename_i h
      intro d hd
      rw [List.mem_singleton.mp hd]
      exact h
    · split
      · exact renderUnit_printable _
      · exact List.forall_mem_append.mpr ⟨renderUnit_printable _, renderUnit_printable _⟩

theorem renderString_printable (s : PyText) : ∀ c ∈ renderString s, Printable c := by
  rw [renderString, List.forall_mem_cons, List.forall_mem_append]
  refine ⟨by decide, fun c hc => ?_, printable_of_all rfl⟩
  obtain ⟨p, -, hp⟩ := List.mem_flatMap.mp hc
  exact renderCodePoint_printable p c hp

end JsonValue

open JsonValue in
theorem NumberLiteral.WellFormed.printable {lit : NumberLiteral} (h : lit.WellFormed) :
    ∀ c ∈ lit.render, Printable c := by
  rw [render, List.forall_mem_append, List.forall_mem_append, List.forall_mem_append]
  refine ⟨?_, fun c hc => printable_isDigit (h.whole_digits c hc), ?_, ?_⟩
  · split <;> exact printable_of_all rfl
  · rw [renderFraction]
    split
    · exact nofun
    · rw [List.forall_mem_cons]
      exact ⟨by decide, fun c hc => printable_isDigit (h.fraction_digits c hc)⟩
  · cases hexponent : lit.exponent with
    | none => exact nofun
    | some e =>
      obtain ⟨sign, digits⟩ := e
      obtain ⟨hsign, -, hdigits⟩ := h.exponent_digits sign digits hexponent
      rw [renderExponent, List.forall_mem_cons, List.forall_mem_append]
      refine ⟨by decide, fun c hc => ?_, fun c hc => printable_isDigit (hdigits c hc)⟩
      rcases hsign c (Option.mem_toList.mp hc) with rfl | rfl <;> decide

namespace JsonValue

variable {φ : Type} {floats : FloatFormat φ}

mutual

/-- **Only printable ASCII** is written. -/
theorem render_printable : ∀ v : JsonValue φ, clean floats v = true →
    ∀ c ∈ render floats v, Printable c
  | .null, _ | .bool true, _ | .bool false, _ => by
    rw [render]; exact printable_of_all rfl
  | .int n, _ => (NumberLiteral.ofInt_wellFormed n).printable
  | .float x, h => (floats.repr_wellFormed x h).printable
  | .str s, _ => renderString_printable s
  | .arr items, h => by
    rw [render, List.forall_mem_cons]
    exact ⟨by decide, renderArray_printable items h⟩
  | .obj fields, h => by
    rw [render, List.forall_mem_cons]
    exact ⟨by decide, renderObject_printable fields h⟩

theorem renderArray_printable : ∀ items : List (JsonValue φ), cleanItems floats items = true →
    ∀ c ∈ renderArray floats items, Printable c
  | [], _ => by rw [renderArray]; exact printable_of_all rfl
  | v :: rest, h => by
    obtain ⟨hv, hrest⟩ := Bool.and_eq_true_iff.mp h
    rw [renderArray, List.forall_mem_append]
    exact ⟨render_printable v hv, renderItems_printable rest hrest⟩

theorem renderItems_printable : ∀ items : List (JsonValue φ), cleanItems floats items = true →
    ∀ c ∈ renderItems floats items, Printable c
  | [], _ => by rw [renderItems]; exact printable_of_all rfl
  | v :: rest, h => by
    obtain ⟨hv, hrest⟩ := Bool.and_eq_true_iff.mp h
    rw [renderItems, List.forall_mem_cons, List.forall_mem_append]
    exact ⟨by decide, render_printable v hv, renderItems_printable rest hrest⟩

theorem renderObject_printable : ∀ fields : List (PyText × JsonValue φ),
    cleanFields floats fields = true → ∀ c ∈ renderObject floats fields, Printable c
  | [], _ => by rw [renderObject]; exact printable_of_all rfl
  | (k, v) :: rest, h => by
    obtain ⟨hv, hrest⟩ := Bool.and_eq_true_iff.mp h
    rw [renderObject, List.forall_mem_append, List.forall_mem_cons, List.forall_mem_append]
    exact ⟨renderString_printable k, by decide, render_printable v hv,
      renderFields_printable rest hrest⟩

theorem renderFields_printable : ∀ fields : List (PyText × JsonValue φ),
    cleanFields floats fields = true → ∀ c ∈ renderFields floats fields, Printable c
  | [], _ => by rw [renderFields]; exact printable_of_all rfl
  | (k, v) :: rest, h => by
    obtain ⟨hv, hrest⟩ := Bool.and_eq_true_iff.mp h
    rw [renderFields, List.forall_mem_cons, List.forall_mem_append, List.forall_mem_cons,
      List.forall_mem_append]
    exact ⟨by decide, renderString_printable k, by decide, render_printable v hv,
      renderFields_printable rest hrest⟩

end

end JsonValue
end NuSelf.Lib
