/-
  `json.loads`: a value read from a text.

  The scanner goes one container deeper with each level of its recursion, and gives up with a
  `RecursionError` where the interpreter does.  What becomes of a constant that JSON does not have,
  and of the fields of an object, is up to the caller (`ScanHooks`).  The loop over items or
  fields is bounded by the length of the text: each item takes at least one character of it, so the
  bound is never used up.

  `scanString_spec` — no string that is read has a pair of surrogates in it.
-/
import NuSelf.Lib.JsonText

namespace NuSelf.Lib

/-- Why a text is not read. -/
inductive ScanError (ε : Type) where
  /-- `JSONDecodeError`. -/
  | decode
  /-- `int()` refuses so many digits. -/
  | digits (count : Nat)
  /-- A hook raises. -/
  | hook (e : ε)
  | recursion
  deriving DecidableEq

/-- `parse_constant` and `object_pairs_hook`. -/
structure ScanHooks (ε φ : Type) where
  constant : String → Except ε (JsonValue φ)
  pairs : List (PyText × JsonValue φ) → Except ε (JsonValue φ)

/-- A scanner: what it reads, and the rest of the text. -/
abbrev Scanner (ε α : Type) := List Char → Except (ScanError ε) (α × List Char)

/-! ## Strings -/

/-- White space between tokens. -/
def isJsonSpace (c : Char) : Bool := c == ' ' || c == '\t' || c == '\n' || c == '\r'

def skipSpace (text : List Char) : List Char := text.dropWhile isJsonSpace

def hexValue (c : Char) : Option Nat :=
  if c.isDigit then some (c.toNat - '0'.toNat)
  else if 'a' ≤ c ∧ c ≤ 'f' then some (c.toNat - 'a'.toNat + 10)
  else if 'A' ≤ c ∧ c ≤ 'F' then some (c.toNat - 'A'.toNat + 10)
  else none

/-- The four digits of a `\u` escape. -/
def hexUnit (a b c d : Char) : Option Nat := do
  let a ← hexValue a
  let b ← hexValue b
  let c ← hexValue c
  let d ← hexValue d
  return ((a * 16 + b) * 16 + c) * 16 + d

/-- What a one-letter escape stands for. -/
def escapedChar : Char → Option Char
  | '"' => some '"'
  | '\\' => some '\\'
  | '/' => some '/'
  | 'b' => some '\x08'
  | 'f' => some '\x0c'
  | 'n' => some '\n'
  | 'r' => some '\r'
  | 't' => some '\t'
  | _ => none

/-- A code point in front of what is read behind it. -/
def prependScanned {ε : Type} (p : CodePoint) (scanned : Except (ScanError ε) (PyText × List Char)) :
    Except (ScanError ε) (PyText × List Char) :=
  scanned.map fun (s, rest) => (joinCons p s, rest)

/-- A string behind its opening quote.  Only an escape gives a surrogate, and one that makes a pair
    with the escape behind it is joined with that. -/
def scanString {ε : Type} : Scanner ε PyText
  | [] => .error .decode
  | '"' :: rest => .ok ([], rest)
  | '\\' :: 'u' :: a :: b :: c :: d :: rest =>
    match hexUnit a b c d with
    | some n => prependScanned (.ofUnit n) (scanString rest)
    | none => .error .decode
  | '\\' :: c :: rest =>
    match escapedChar c with
    | some c => prependScanned (.char c) (scanString rest)
    | none => .error .decode
  | c :: rest =>
    if c = '\\' ∨ c.toNat ≤ 0x1f then .error .decode
    else prependScanned (.char c) (scanString rest)

/-! ## Numbers and constants -/

/-- Digits, and what is behind them. -/
def spanDigits (text : List Char) : List Char × List Char :=
  (text.takeWhile Char.isDigit, text.dropWhile Char.isDigit)

def scanSign : List Char → Bool × List Char
  | '-' :: rest => (true, rest)
  | text => (false, text)

/-- The digits in front of the point; a zero stands alone. -/
def scanWhole : List Char → Option (List Char × List Char)
  | '0' :: rest => some (['0'], rest)
  | text =>
    match spanDigits text with
    | ([], _) => none
    | split => some split

/-- A point counts only with a digit behind it. -/
def scanFraction : List Char → List Char × List Char
  | '.' :: rest =>
    match spanDigits rest with
    | ([], _) => ([], '.' :: rest)
    | split => split
  | text => ([], text)

def scanExponentSign : List Char → Option Char × List Char
  | '-' :: rest => (some '-', rest)
  | '+' :: rest => (some '+', rest)
  | text => (none, text)

/-- The letter counts only with a digit behind it. -/
def scanExponent : List Char → Option (Option Char × List Char) × List Char
  | [] => (none, [])
  | e :: text =>
    if e = 'e' ∨ e = 'E' then
      let (sign, rest) := scanExponentSign text
      match spanDigits rest with
      | ([], _) => (none, e :: text)
      | (digits, rest) => (some (sign, digits), rest)
    else (none, e :: text)

def scanNumber (text : List Char) : Option (NumberLiteral × List Char) :=
  let (negative, text) := scanSign text
  match scanWhole text with
  | none => none
  | some (whole, text) =>
    let (fraction, text) := scanFraction text
    let (exponent, text) := scanExponent text
    some ({ negative, whole, fraction, exponent }, text)

/-- What is behind a word. -/
def cutWord (word : String) (text : List Char) : Option (List Char) :=
  if word.toList <+: text then some (text.drop word.toList.length) else none

section

variable {ε φ : Type} (floats : FloatFormat φ) (hooks : ScanHooks ε φ)

/-- `int()` or `float()` of a number. -/
def numberValue (lit : NumberLiteral) : Except (ScanError ε) (JsonValue φ) :=
  if lit.isFloat then .ok (.float (floats.parse lit))
  else if lit.whole.length ≤ maxIntDigits then .ok (.int lit.toInt)
  else .error (.digits lit.whole.length)

def constantValue (name : String) : Except (ScanError ε) (JsonValue φ) :=
  (hooks.constant name).mapError .hook

def objectValue (fields : List (PyText × JsonValue φ)) : Except (ScanError ε) (JsonValue φ) :=
  (hooks.pairs fields).mapError .hook

/-- The words of JSON, and those that JSON does not have. -/
def scanWords : List (String × Except (ScanError ε) (JsonValue φ)) :=
  [("null", .ok .null), ("true", .ok (.bool true)), ("false", .ok (.bool false)),
    ("NaN", constantValue hooks "NaN"), ("Infinity", constantValue hooks "Infinity"),
    ("-Infinity", constantValue hooks "-Infinity")]

/-- Neither string nor container. -/
def scanAtom : Scanner ε (JsonValue φ) := fun text =>
  match (scanWords hooks).findSome? fun (word, v) => (cutWord word text).map (v, ·) with
  | some (v, rest) => v.map (·, rest)
  | none =>
    match scanNumber text with
    | some (lit, rest) => (numberValue floats lit).map (·, rest)
    | none => .error .decode

/-! ## Containers -/

/-- Items up to a closing character, from one on. -/
def scanSeparated {α : Type} (scan : Scanner ε α) (close : Char) : Nat → Scanner ε (List α)
  | 0, _ => .error .decode
  | fuel + 1, text => do
    let (v, rest) ← scan text
    match skipSpace rest with
    | [] => .error .decode
    | c :: rest =>
      if c = close then return ([v], rest)
      else if c = ',' then
        let (more, rest) ← scanSeparated scan close fuel (skipSpace rest)
        return (v :: more, rest)
      else .error .decode

/-- An array behind its bracket. -/
def scanArray (scan : Scanner ε (JsonValue φ)) : Scanner ε (JsonValue φ) := fun text =>
  match skipSpace text with
  | ']' :: rest => .ok (.arr [], rest)
  | rest => do
    let (items, rest) ← scanSeparated scan ']' rest.length rest
    return (.arr items, rest)

/-- A key, the colon, and the value. -/
def scanField (scan : Scanner ε (JsonValue φ)) : Scanner ε (PyText × JsonValue φ)
  | '"' :: text => do
    let (key, rest) ← scanString text
    match skipSpace rest with
    | ':' :: rest =>
      let (v, rest) ← scan (skipSpace rest)
      return ((key, v), rest)
    | _ => .error .decode
  | _ => .error .decode

/-- An object behind its brace. -/
def scanObject (scan : Scanner ε (JsonValue φ)) : Scanner ε (JsonValue φ) := fun text =>
  match skipSpace text with
  | '}' :: rest => (objectValue hooks []).map (·, rest)
  | rest => do
    let (fields, rest) ← scanSeparated (scanField scan) '}' rest.length rest
    (objectValue hooks fields).map (·, rest)

/-- `scan_once`, with so many levels left. -/
def scanValue : Nat → Scanner ε (JsonValue φ)
  | _, '"' :: text => (scanString text).map fun (s, rest) => (.str s, rest)
  | 0, '[' :: _ | 0, '{' :: _ => .error .recursion
  | limit + 1, '[' :: text => scanArray (scanValue limit) text
  | limit + 1, '{' :: text => scanObject hooks (scanValue limit) text
  | _, text => scanAtom floats hooks text

def loads (limit : Nat) (text : List Char) : Except (ScanError ε) (JsonValue φ) := do
  let (v, rest) ← scanValue floats hooks limit (skipSpace text)
  if skipSpace rest = [] then return v else .error .decode

end

/-! ## Strings that are read -/

section

variable {ε : Type}

theorem prependScanned_ok {p : CodePoint} {scanned : Except (ScanError ε) (PyText × List Char)}
    {s : PyText} {rest : List Char} (h : prependScanned p scanned = .ok (s, rest)) :
    ∃ s', scanned = .ok (s', rest) ∧ s = joinCons p s' := by
  cases scanned with
  | error e => cases h
  | ok read =>
    obtain ⟨s', rest'⟩ := read
    cases h
    exact ⟨s', rfl, rfl⟩

/-- A unit in front of what the rest of the string reads as. -/
theorem prependScanned_spec {p : CodePoint} {text : List Char}
    (ih : ∀ (s : PyText) (rest : List Char),
      @scanString ε text = .ok (s, rest) → Joined s ∧ rest.length < text.length)
    {s : PyText} {rest : List Char} (h : prependScanned p (@scanString ε text) = .ok (s, rest)) :
    Joined s ∧ rest.length < text.length := by
  obtain ⟨s', hscan, rfl⟩ := prependScanned_ok h
  obtain ⟨hjoined, hlength⟩ := ih s' rest hscan
  exact ⟨hjoined.joinCons p, hlength⟩

theorem scanString_spec (text : List Char) : ∀ (s : PyText) (rest : List Char),
    @scanString ε text = .ok (s, rest) → Joined s ∧ rest.length < text.length := by
  fun_induction @scanString ε text with
  | case1 => exact nofun
  | case2 text =>
    intro s rest h
    cases h
    exact ⟨joined_nil, Nat.lt_succ_self _⟩
  | case3 a b c d text n hunit ih =>
    intro s rest h
    obtain ⟨hjoined, hlength⟩ := prependScanned_spec ih h
    exact ⟨hjoined, by simp only [List.length_cons]; omega⟩
  | case4 => exact nofun
  | case5 c text hnot c' hescaped ih =>
    intro s rest h
    obtain ⟨hjoined, hlength⟩ := prependScanned_spec ih h
    exact ⟨hjoined, by simp only [List.length_cons]; omega⟩
  | case6 => exact nofun
  | case7 => exact nofun
  | case8 c text hquote hunit hescape hplain ih =>
    intro s rest h
    obtain ⟨hjoined, hlength⟩ := prependScanned_spec ih h
    exact ⟨hjoined, by simp only [List.length_cons]; omega⟩

end

section

variable {ε φ : Type} {floats : FloatFormat φ} {hooks : ScanHooks ε φ}

theorem scanValue_atom {text : List Char} (h : ∀ c ∈ text.head?, c ≠ '"' ∧ c ≠ '[' ∧ c ≠ '{')
    (limit : Nat) : scanValue floats hooks limit text = scanAtom floats hooks text := by
  fun_cases scanValue floats hooks limit text with
  | case1 => exact absurd rfl (h _ rfl).1
  | case2 => exact absurd rfl (h _ rfl).2.1
  | case3 => exact absurd rfl (h _ rfl).2.2
  | case4 => exact absurd rfl (h _ rfl).2.1
  | case5 => exact absurd rfl (h _ rfl).2.2
  | case6 => rfl

end

end NuSelf.Lib
