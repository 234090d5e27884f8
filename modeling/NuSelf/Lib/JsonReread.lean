/-
  What `json.loads` makes of a text that `json.dumps` has made.

  `reread` says it of the value, without the text: pairs of surrogates are joined, the fields of an
  object go through the hook, and nesting counts as it does in a text.

  1. `scanNumber_render`, `scanString_render` — numbers and strings are read back.
  2. `scanValue_renderWith` — so is every value, from any layout, in front of anything that may
     follow one.
  3. `loads_renderWith` — and every text.
  4. `reread_iff` — when a value is read back, and what it has become.
  5. `loads_joined` — what is read from any text has no pair of surrogates in its texts.
-/
import NuSelf.Lib.JsonInvariant
import NuSelf.Lib.JsonLayout

namespace NuSelf.Lib

open JsonValue

/-! ## Strings -/

theorem hexValue_digitChar : ∀ d < 16, hexValue d.digitChar = some d := by decide

theorem hexUnit_render {n : Nat} (hn : n < 0x10000) :
    hexUnit (n / 0x1000 % 16).digitChar (n / 0x100 % 16).digitChar (n / 0x10 % 16).digitChar
      (n % 16).digitChar = some n := by
  rw [hexUnit, hexValue_digitChar _ (Nat.mod_lt _ (by decide)),
    hexValue_digitChar _ (Nat.mod_lt _ (by decide)),
    hexValue_digitChar _ (Nat.mod_lt _ (by decide)), hexValue_digitChar _ (Nat.mod_lt _ (by decide))]
  show some _ = some n
  congr 1
  omega

section

variable {ε : Type}

theorem scanString_unit {n : Nat} (hn : n < 0x10000) (text : List Char) :
    scanString (renderUnit n ++ text) = @prependScanned ε (.ofUnit n) (scanString text) := by
  show scanString ('\\' :: 'u' :: _ :: _ :: _ :: _ :: text) = _
  rw [scanString, hexUnit_render hn]

theorem scanString_plain {c : Char} (hquote : c ≠ '"') (hescape : c ≠ '\\') (hc : 0x20 ≤ c.toNat)
    (text : List Char) :
    scanString (c :: text) = @prependScanned ε (.char c) (scanString text) := by
  rw [scanString.eq_def]
  split
  · rename_i heq
    cases heq
  · rename_i heq
    cases heq
    exact absurd rfl hquote
  · rename_i heq
    cases heq
    exact absurd rfl hescape
  · rename_i heq
    cases heq
    exact absurd rfl hescape
  · rename_i heq
    cases heq
    rw [if_neg]
    rintro (h | h)
    · exact hescape h
    · omega

theorem prependScanned_pair {high low : CodePoint} {c : Char}
    (hpair : ∀ s, joinCons high (joinCons low s) = .char c :: s)
    (scanned : Except (ScanError ε) (PyText × List Char)) :
    prependScanned high (prependScanned low scanned) = prependScanned (.char c) scanned := by
  cases scanned with
  | error e => rfl
  | ok read =>
    obtain ⟨s, rest⟩ := read
    show Except.ok (joinCons high (joinCons low s), rest) = Except.ok (_, rest)
    rw [hpair]
    rfl

/-- **A code point** is read back. -/
theorem scanString_codePoint (p : CodePoint) (text : List Char) :
    scanString (renderCodePoint p ++ text) = @prependScanned ε p (scanString text) := by
  cases p with
  | surrogate s =>
    have hs := s.isLt
    rw [renderCodePoint, scanString_unit (by omega), CodePoint.ofUnit_surrogate]
  | char c =>
    have hmax : c.toNat < 0x110000 := by
      have h : c.toNat < 0xd800 ∨ 0xdfff < c.toNat ∧ c.toNat < 0x110000 := c.valid
      omega
    rw [renderCodePoint.eq_def]
    simp only
    split
    · rfl
    · rfl
    · rfl
    · rfl
    · rfl
    · rfl
    · rfl
    · rename_i hquote hescape _ _ _ _ _
      split
      · rename_i h
        exact scanString_plain hquote hescape h.1 text
      · split
        · rename_i h
          rw [scanString_unit (by omega), CodePoint.ofUnit_char]
        · rename_i h
          rw [List.append_assoc, scanString_unit (by omega), scanString_unit (by omega),
            prependScanned_pair (joinCons_pair (by omega))]

/-- **A string** is read back, its pairs joined. -/
theorem scanString_render (text : List Char) : ∀ s : PyText,
    @scanString ε (s.flatMap renderCodePoint ++ '"' :: text) = .ok (join s, text)
  | [] => rfl
  | p :: rest => by
    rw [List.flatMap_cons, List.append_assoc, scanString_codePoint, scanString_render text rest]
    rfl

end

/-! ## Numbers -/

/-- What may follow a number, so that it does not go on. -/
def Delimited (text : List Char) : Prop :=
  ∀ c ∈ text.head?, c.isDigit = false ∧ c ≠ '.' ∧ c ≠ 'e' ∧ c ≠ 'E'

theorem spanDigits_append {digits text : List Char} (hdigits : ∀ c ∈ digits, c.isDigit = true)
    (htext : ∀ c ∈ text.head?, c.isDigit = false) : spanDigits (digits ++ text) = (digits, text) := by
  have hstop : text.takeWhile Char.isDigit = [] ∧ text.dropWhile Char.isDigit = text := by
    cases text with
    | nil => exact ⟨rfl, rfl⟩
    | cons c rest =>
      have hc := htext c rfl
      exact ⟨List.takeWhile_cons_of_neg (by rw [hc]; decide),
        List.dropWhile_cons_of_neg (by rw [hc]; decide)⟩
  rw [spanDigits, List.takeWhile_append_of_pos hdigits, List.dropWhile_append_of_pos hdigits,
    hstop.1, hstop.2, List.append_nil]

theorem spanDigits_cons {digit : Char} {digits text : List Char}
    (hdigits : ∀ c ∈ digit :: digits, c.isDigit = true)
    (htext : ∀ c ∈ text.head?, c.isDigit = false) :
    spanDigits (digit :: (digits ++ text)) = (digit :: digits, text) :=
  spanDigits_append hdigits htext

theorem scanWhole_render {whole text : List Char} (hdigits : ∀ c ∈ whole, c.isDigit = true)
    (hleading : whole = ['0'] ∨ (whole ≠ [] ∧ whole.head? ≠ some '0'))
    (htext : ∀ c ∈ text.head?, c.isDigit = false) :
    scanWhole (whole ++ text) = some (whole, text) := by
  rcases hleading with rfl | ⟨hne, hhead⟩
  · rfl
  · cases whole with
    | nil => exact absurd rfl hne
    | cons digit digits =>
      rw [List.cons_append, scanWhole.eq_def]
      split
      · rename_i heq
        cases heq
        exact absurd rfl hhead
      · rw [spanDigits_cons hdigits htext]

theorem scanFraction_render {fraction text : List Char}
    (hdigits : ∀ c ∈ fraction, c.isDigit = true)
    (htext : ∀ c ∈ text.head?, c.isDigit = false ∧ c ≠ '.') :
    scanFraction (NumberLiteral.renderFraction fraction ++ text) = (fraction, text) := by
  cases fraction with
  | nil =>
    show scanFraction text = _
    rw [scanFraction.eq_def]
    split
    · exact absurd rfl (htext '.' rfl).2
    · rfl
  | cons digit digits =>
    show scanFraction ('.' :: digit :: (digits ++ text)) = _
    rw [scanFraction, spanDigits_cons hdigits fun c hc => (htext c hc).1]

theorem scanExponentSign_render {sign : Option Char} {digit : Char} {text : List Char}
    (hsign : ∀ c ∈ sign, c = '-' ∨ c = '+') (hdigit : digit.isDigit = true) :
    scanExponentSign (sign.toList ++ digit :: text) = (sign, digit :: text) := by
  cases sign with
  | some c => rcases hsign c rfl with rfl | rfl <;> rfl
  | none =>
    show scanExponentSign (digit :: text) = _
    rw [scanExponentSign.eq_def]
    split
    · rename_i heq
      cases heq
      cases hdigit
    · rename_i heq
      cases heq
      cases hdigit
    · rfl

theorem scanExponent_render {exponent : Option (Option Char × List Char)} {text : List Char}
    (hexponent : ∀ sign digits, exponent = some (sign, digits) →
      (∀ c ∈ sign, c = '-' ∨ c = '+') ∧ digits ≠ [] ∧ ∀ c ∈ digits, c.isDigit = true)
    (htext : Delimited text) :
    scanExponent (NumberLiteral.renderExponent exponent ++ text) = (exponent, text) := by
  cases exponent with
  | none =>
    show scanExponent text = _
    cases text with
    | nil => rfl
    | cons c rest =>
      obtain ⟨-, -, hlower, hupper⟩ := htext c rfl
      rw [scanExponent, if_neg]
      rintro (h | h)
      · exact hlower h
      · exact hupper h
  | some e =>
    obtain ⟨sign, digits⟩ := e
    obtain ⟨hsign, hne, hdigits⟩ := hexponent sign digits rfl
    cases digits with
    | nil => exact absurd rfl hne
    | cons digit digits =>
      show scanExponent ('e' :: (sign.toList ++ digit :: digits ++ text)) = _
      rw [scanExponent, if_pos (Or.inl rfl), List.append_assoc, List.cons_append,
        scanExponentSign_render hsign (hdigits digit List.mem_cons_self)]
      simp only
      rw [spanDigits_cons hdigits fun c hc => (htext c hc).1]

theorem renderFraction_head {fraction text : List Char} {c : Char}
    (hc : c ∈ (NumberLiteral.renderFraction fraction ++ text).head?) : c = '.' ∨ c ∈ text.head? := by
  cases fraction with
  | nil => exact Or.inr hc
  | cons digit digits => exact Or.inl (Option.some.inj hc).symm

theorem renderExponent_head {exponent : Option (Option Char × List Char)} {text : List Char}
    {c : Char} (hc : c ∈ (NumberLiteral.renderExponent exponent ++ text).head?) :
    c = 'e' ∨ c ∈ text.head? := by
  cases exponent with
  | none => exact Or.inr hc
  | some e => exact Or.inl (Option.some.inj hc).symm

/-- **A number** is read back. -/
theorem scanNumber_render {lit : NumberLiteral} (h : lit.WellFormed) {text : List Char}
    (htext : Delimited text) : scanNumber (lit.render ++ text) = some (lit, text) := by
  obtain ⟨negative, whole, fraction, exponent⟩ := lit
  have hexponent := scanExponent_render h.exponent_digits htext
  have hbehind : ∀ c ∈ (NumberLiteral.renderExponent exponent ++ text).head?,
      c.isDigit = false ∧ c ≠ '.' := by
    intro c hc
    rcases renderExponent_head hc with rfl | hc
    · decide
    · exact ⟨(htext c hc).1, (htext c hc).2.1⟩
  have hfraction := scanFraction_render h.fraction_digits hbehind
  have hstop : ∀ c ∈ (NumberLiteral.renderFraction fraction ++
      (NumberLiteral.renderExponent exponent ++ text)).head?, c.isDigit = false := by
    intro c hc
    rcases renderFraction_head hc with rfl | hc
    · decide
    · exact (hbehind c hc).1
  have hwhole := scanWhole_render h.whole_digits h.no_leading_zero hstop
  have hsign : scanSign (NumberLiteral.render ⟨negative, whole, fraction, exponent⟩ ++ text) =
      (negative, whole ++ (NumberLiteral.renderFraction fraction ++
        (NumberLiteral.renderExponent exponent ++ text))) := by
    simp only [NumberLiteral.render, List.append_assoc]
    cases negative with
    | true => rfl
    | false =>
      cases whole with
      | nil =>
        rcases h.no_leading_zero with hzero | ⟨hne, -⟩
        · cases hzero
        · exact absurd rfl hne
      | cons digit digits =>
        have hdigit := h.whole_digits digit List.mem_cons_self
        show scanSign (digit :: _) = (false, digit :: _)
        rw [scanSign.eq_def]
        split
        · rename_i heq
          cases heq
          cases hdigit
        · rfl
  rw [scanNumber, hsign]
  simp only [hwhole, hfraction, hexponent]

/-- How a number begins: with a digit, or with a sign and a digit. -/
def NumberHead (text : List Char) : Prop :=
  ∃ digit rest, digit.isDigit = true ∧ (text = digit :: rest ∨ text = '-' :: digit :: rest)

theorem render_numberHead {lit : NumberLiteral} (h : lit.WellFormed) (text : List Char) :
    NumberHead (lit.render ++ text) := by
  obtain ⟨negative, whole, fraction, exponent⟩ := lit
  cases whole with
  | nil =>
    rcases h.no_leading_zero with hzero | ⟨hne, -⟩
    · cases hzero
    · exact absurd rfl hne
  | cons digit digits =>
    have hdigit := h.whole_digits digit List.mem_cons_self
    cases negative with
    | true => exact ⟨digit, _, hdigit, Or.inr rfl⟩
    | false => exact ⟨digit, _, hdigit, Or.inl rfl⟩

/-- A word that no number begins with. -/
def notNumeric : List Char → Bool
  | '-' :: c :: _ => !c.isDigit
  | c :: _ => !c.isDigit && c != '-'
  | [] => false

theorem not_prefix_of_notNumeric {word text : List Char} (hword : notNumeric word = true)
    (htext : NumberHead text) : ¬ word <+: text := by
  obtain ⟨digit, rest, hdigit, rfl | rfl⟩ := htext
  · rintro ⟨behind, heq⟩
    rw [notNumeric.eq_def] at hword
    split at hword
    · cases heq
      cases hdigit
    · cases heq
      rw [hdigit] at hword
      cases hword
    · cases hword
  · rintro ⟨behind, heq⟩
    rw [notNumeric.eq_def] at hword
    split at hword
    · cases heq
      rw [hdigit] at hword
      cases hword
    · obtain ⟨rfl, -⟩ := List.cons.inj heq
      rw [Bool.and_eq_true] at hword
      cases hword.2
    · cases hword

/-! ## Values -/

section

variable {ε φ : Type} (hooks : ScanHooks ε φ)

mutual

/-- What is read where this value was written. -/
def reread : Nat → JsonValue φ → Except (ScanError ε) (JsonValue φ)
  | _, .str s => .ok (.str (join s))
  | 0, .arr _ | 0, .obj _ => .error .recursion
  | limit + 1, .arr items => (rereadItems limit items).map .arr
  | limit + 1, .obj fields =>
    match rereadFields limit fields with
    | .ok fields => objectValue hooks fields
    | .error e => .error e
  | _, v => .ok v

def rereadItems : Nat → List (JsonValue φ) → Except (ScanError ε) (List (JsonValue φ))
  | _, [] => .ok []
  | limit, v :: rest =>
    match reread limit v with
    | .ok v => (rereadItems limit rest).map (v :: ·)
    | .error e => .error e

def rereadFields : Nat → List (PyText × JsonValue φ) →
    Except (ScanError ε) (List (PyText × JsonValue φ))
  | _, [] => .ok []
  | limit, (k, v) :: rest =>
    match reread limit v with
    | .ok v => (rereadFields limit rest).map ((join k, v) :: ·)
    | .error e => .error e

end

variable {hooks} {floats : FloatFormat φ}

theorem scanWords_number {text : List Char} (h : NumberHead text) :
    ((scanWords hooks).findSome? fun (word, v) => (cutWord word text).map (v, ·)) = none := by
  have hwords : ∀ entry ∈ scanWords hooks, notNumeric entry.1.toList = true := by
    simp only [scanWords, List.forall_mem_cons]
    exact ⟨by decide, by decide, by decide, by decide, by decide, by decide,
      List.forall_mem_nil _⟩
  rw [List.findSome?_eq_none_iff]
  intro entry hmem
  show (cutWord entry.1 text).map _ = none
  rw [cutWord, if_neg (not_prefix_of_notNumeric (hwords entry hmem) h)]
  rfl

/-- **A number** is read back as its value. -/
theorem scanValue_number {lit : NumberLiteral} (hlit : lit.WellFormed) {text : List Char}
    (htext : Delimited text) (limit : Nat) :
    scanValue floats hooks limit (lit.render ++ text) =
      (numberValue floats lit).map (·, text) := by
  have hhead := render_numberHead hlit text
  rw [scanValue_atom, scanAtom, scanWords_number hhead, scanNumber_render hlit htext]
  obtain ⟨digit, rest, hdigit, heq | heq⟩ := hhead
  · rw [heq]
    intro c hc
    cases hc
    refine ⟨?_, ?_, ?_⟩ <;> (rintro rfl; cases hdigit)
  · rw [heq]
    intro c hc
    cases hc
    decide

theorem cutWord_append (word : String) (text : List Char) :
    cutWord word (word.toList ++ text) = some text := by
  rw [cutWord, if_pos (List.prefix_append _ _), List.drop_left]

theorem cutWord_other {word : String} {c d : Char} {rest text : List Char}
    (hword : word.toList = c :: rest) (hne : c ≠ d) : cutWord word (d :: text) = none := by
  rw [cutWord, if_neg]
  rw [hword, List.cons_prefix_cons]
  exact fun h => hne h.1

/-- **A word** is read back. -/
theorem scanValue_null (limit : Nat) (text : List Char) :
    scanValue floats hooks limit ("null".toList ++ text) = .ok (.null, text) := by
  have hnull : cutWord "null" ("null".toList ++ text) = some text := cutWord_append _ _
  rw [scanValue_atom (by intro c hc; cases hc; decide), scanAtom, scanWords]
  simp only [List.findSome?_cons, hnull]
  rfl

theorem scanValue_true (limit : Nat) (text : List Char) :
    scanValue floats hooks limit ("true".toList ++ text) = .ok (.bool true, text) := by
  have hnull : cutWord "null" ("true".toList ++ text) = none := cutWord_other rfl (by decide)
  have htrue : cutWord "true" ("true".toList ++ text) = some text := cutWord_append _ _
  rw [scanValue_atom (by intro c hc; cases hc; decide), scanAtom, scanWords]
  simp only [List.findSome?_cons, hnull, htrue]
  rfl

theorem scanValue_false (limit : Nat) (text : List Char) :
    scanValue floats hooks limit ("false".toList ++ text) = .ok (.bool false, text) := by
  have hnull : cutWord "null" ("false".toList ++ text) = none := cutWord_other rfl (by decide)
  have htrue : cutWord "true" ("false".toList ++ text) = none := cutWord_other rfl (by decide)
  have hfalse : cutWord "false" ("false".toList ++ text) = some text := cutWord_append _ _
  rw [scanValue_atom (by intro c hc; cases hc; decide), scanAtom, scanWords]
  simp only [List.findSome?_cons, hnull, htrue, hfalse]
  rfl

/-! ## Items and fields -/

/-- How a value begins. -/
def Opens (text : List Char) : Prop :=
  ∃ c rest, text = c :: rest ∧ isJsonSpace c = false ∧ c ≠ ']'

theorem Opens.of_numberHead {text : List Char} (h : NumberHead text) : Opens text := by
  obtain ⟨digit, rest, hdigit, rfl | rfl⟩ := h
  · refine ⟨digit, rest, rfl, ?_, ?_⟩
    · rw [Bool.eq_false_iff]
      intro hspace
      simp only [isJsonSpace, Bool.or_eq_true, beq_iff_eq] at hspace
      rcases hspace with ((rfl | rfl) | rfl) | rfl <;> cases hdigit
    · rintro rfl
      cases hdigit
  · exact ⟨'-', digit :: rest, rfl, rfl, by decide⟩

theorem render_opens {v : JsonValue φ} (h : clean floats v = true) (text : List Char) :
    Opens (render floats v ++ text) := by
  cases v with
  | null => exact ⟨'n', _, rfl, rfl, by decide⟩
  | bool b =>
    cases b
    · exact ⟨'f', _, rfl, rfl, by decide⟩
    · exact ⟨'t', _, rfl, rfl, by decide⟩
  | int n => exact .of_numberHead (render_numberHead (NumberLiteral.ofInt_wellFormed n) text)
  | float x => exact .of_numberHead (render_numberHead (floats.repr_wellFormed x h) text)
  | str s => exact ⟨'"', _, rfl, rfl, by decide⟩
  | arr items => exact ⟨'[', _, rfl, rfl, by decide⟩
  | obj fields => exact ⟨'{', _, rfl, rfl, by decide⟩
  | foreign name => cases h

/-- White space in front of a text is skipped with what the text begins with. -/
theorem skipSpace_append {spaces : List Char} (h : ∀ c ∈ spaces, isJsonSpace c = true)
    (text : List Char) : skipSpace (spaces ++ text) = skipSpace text :=
  List.dropWhile_append_of_pos h

theorem Opens.skipSpace {text : List Char} (h : Opens text) : skipSpace text = text := by
  obtain ⟨c, rest, rfl, hspace, -⟩ := h
  exact List.dropWhile_cons_of_neg (by rw [hspace]; decide)

theorem Opens.skipSpaces {spaces text : List Char} (h : Opens text)
    (hspaces : ∀ c ∈ spaces, isJsonSpace c = true) : NuSelf.Lib.skipSpace (spaces ++ text) = text := by
  rw [skipSpace_append hspaces, h.skipSpace]

section

variable {α : Type} {scan : Scanner ε α} {close : Char} {fuel : Nat} {text : List Char}

theorem scanSeparated_error {e : ScanError ε} (h : scan text = .error e) :
    scanSeparated scan close (fuel + 1) text = .error e := by
  rw [scanSeparated, h]
  rfl

theorem scanSeparated_last {v : α} {spaces rest : List Char}
    (h : scan text = .ok (v, spaces ++ close :: rest))
    (hspaces : ∀ c ∈ spaces, isJsonSpace c = true) (hclose : isJsonSpace close = false) :
    scanSeparated scan close (fuel + 1) text = .ok ([v], rest) := by
  rw [scanSeparated, h]
  simp only [Bind.bind, Except.bind, skipSpace_append hspaces]
  rw [skipSpace, List.dropWhile_cons_of_neg (by rw [hclose]; decide)]
  simp only [if_pos]
  rfl

theorem scanSeparated_more {v : α} {before after rest : List Char}
    (h : scan text = .ok (v, before ++ ',' :: (after ++ rest)))
    (hbefore : ∀ c ∈ before, isJsonSpace c = true) (hafter : ∀ c ∈ after, isJsonSpace c = true)
    (hclose : ',' ≠ close) (hrest : Opens rest) :
    scanSeparated scan close (fuel + 1) text =
      (scanSeparated scan close fuel rest).map fun (items, last) => (v :: items, last) := by
  have hcomma : skipSpace (',' :: (after ++ rest)) = ',' :: (after ++ rest) := rfl
  rw [scanSeparated, h]
  simp only [Bind.bind, Except.bind, skipSpace_append hbefore, hcomma, if_neg hclose, if_pos,
    hrest.skipSpaces hafter]
  cases scanSeparated scan close fuel rest <;> rfl

end

theorem scanArray_opens {scan : Scanner ε (JsonValue φ)} {spaces text : List Char} (h : Opens text)
    (hspaces : ∀ c ∈ spaces, isJsonSpace c = true) :
    scanArray scan (spaces ++ text) =
      (scanSeparated scan ']' text.length text).map fun (items, rest) => (.arr items, rest) := by
  rw [scanArray, h.skipSpaces hspaces]
  split
  · obtain ⟨c, rest, heq, -, hclose⟩ := h
    cases heq
    exact absurd rfl hclose
  · cases scanSeparated scan ']' text.length text <;> rfl

theorem scanObject_quote {scan : Scanner ε (JsonValue φ)} {spaces : List Char}
    (hspaces : ∀ c ∈ spaces, isJsonSpace c = true) (text : List Char) :
    scanObject hooks scan (spaces ++ '"' :: text) =
      match scanSeparated (scanField scan) '}' ('"' :: text).length ('"' :: text) with
      | .ok (fields, rest) => (objectValue hooks fields).map (·, rest)
      | .error e => .error e := by
  have hopens : Opens ('"' :: text) := ⟨'"', text, rfl, rfl, by decide⟩
  rw [scanObject, hopens.skipSpaces hspaces]
  show (scanSeparated (scanField scan) '}' ('"' :: text).length ('"' :: text) >>=
    fun read => (objectValue hooks read.1).map (·, read.2)) = _
  cases scanSeparated (scanField scan) '}' ('"' :: text).length ('"' :: text) <;> rfl

variable {layout : Layout} {level : Nat}

theorem renderWith_opens {v : JsonValue φ} (h : clean floats v = true) (text : List Char) :
    Opens (renderWith floats layout level v ++ text) := by
  cases v with
  | arr items => exact ⟨'[', _, rfl, rfl, by decide⟩
  | obj fields => exact ⟨'{', _, rfl, rfl, by decide⟩
  | null => exact render_opens h text
  | bool b => exact render_opens h text
  | int n => exact render_opens h text
  | float x => exact render_opens h text
  | str s => exact render_opens h text
  | foreign name => cases h

theorem renderString_append (k : PyText) (text : List Char) :
    renderString k ++ text = '"' :: (k.flatMap renderCodePoint ++ '"' :: text) := by
  simp only [renderString, List.cons_append, List.append_assoc, List.nil_append]

theorem scanField_render {limit : Nat} {v : JsonValue φ} {text : List Char}
    (hv : scanValue floats hooks limit (renderWith floats layout level v ++ text) =
      (reread hooks limit v).map (·, text))
    (hopens : Opens (renderWith floats layout level v ++ text)) (k : PyText) :
    scanField (scanValue floats hooks limit)
        (renderString k ++ (layout.colon ++ (renderWith floats layout level v ++ text))) =
      (reread hooks limit v).map fun v => ((join k, v), text) := by
  have hcolon : skipSpace (layout.colon ++ (renderWith floats layout level v ++ text)) =
      ':' :: (layout.after_value ++ (renderWith floats layout level v ++ text)) := by
    rw [Layout.colon, List.append_assoc, skipSpace_append layout.before_value_spaces]
    rfl
  rw [renderString_append, scanField, scanString_render]
  simp only [Bind.bind, Except.bind, hcolon, hopens.skipSpaces layout.after_value_spaces, hv]
  cases reread hooks limit v <;> rfl

theorem renderItemsWith_length (items : List (JsonValue φ)) :
    items.length < (renderItemsWith floats layout level items).length := by
  induction items with
  | nil =>
    rw [renderItemsWith, List.length_append]
    exact Nat.lt_add_left _ Nat.one_pos
  | cons v rest ih =>
    simp only [renderItemsWith, Layout.item, List.length_cons, List.length_append]
    omega

theorem renderFieldsWith_length (fields : List (PyText × JsonValue φ)) :
    fields.length < (renderFieldsWith floats layout level fields).length := by
  induction fields with
  | nil =>
    rw [renderFieldsWith, List.length_append]
    exact Nat.lt_add_left _ Nat.one_pos
  | cons field rest ih =>
    obtain ⟨k, v⟩ := field
    simp only [renderFieldsWith, Layout.item, List.length_cons, List.length_append]
    omega

theorem delimited_spaces {spaces : List Char} {mark : Char} {text : List Char}
    (hspaces : ∀ c ∈ spaces, isJsonSpace c = true)
    (hmark : mark.isDigit = false ∧ mark ≠ '.' ∧ mark ≠ 'e' ∧ mark ≠ 'E') :
    Delimited (spaces ++ mark :: text) := by
  intro c hc
  cases spaces with
  | nil =>
    cases hc
    exact hmark
  | cons space rest =>
    cases hc
    have hspace := hspaces c List.mem_cons_self
    simp only [isJsonSpace, Bool.or_eq_true, beq_iff_eq] at hspace
    rcases hspace with ((rfl | rfl) | rfl) | rfl <;> decide

theorem renderItemsWith_delimited (items : List (JsonValue φ)) (text : List Char) :
    Delimited (renderItemsWith floats layout level items ++ text) := by
  cases items with
  | nil =>
    rw [renderItemsWith, List.append_assoc]
    exact delimited_spaces (layout.newline_spaces level) (by decide)
  | cons v rest =>
    rw [renderItemsWith, Layout.item, List.append_assoc, List.append_assoc]
    exact delimited_spaces layout.before_item_spaces (by decide)

theorem renderFieldsWith_delimited (fields : List (PyText × JsonValue φ)) (text : List Char) :
    Delimited (renderFieldsWith floats layout level fields ++ text) := by
  cases fields with
  | nil =>
    rw [renderFieldsWith, List.append_assoc]
    exact delimited_spaces (layout.newline_spaces level) (by decide)
  | cons field rest =>
    obtain ⟨k, v⟩ := field
    rw [renderFieldsWith, Layout.item, List.append_assoc, List.append_assoc]
    exact delimited_spaces layout.before_item_spaces (by decide)

/-! ## Values and texts -/

theorem after_comma_spaces (layout : Layout) (level : Nat) :
    ∀ c ∈ layout.after_item ++ layout.newline level, isJsonSpace c = true :=
  List.forall_mem_append.mpr ⟨layout.after_item_spaces, layout.newline_spaces level⟩

mutual

/-- **A value** is read back from any layout, in front of anything that may follow one. -/
theorem scanValue_renderWith : ∀ (v : JsonValue φ) (level limit : Nat) (text : List Char),
    clean floats v = true → Delimited text →
      scanValue floats hooks limit (renderWith floats layout level v ++ text) =
        (reread hooks limit v).map (·, text)
  | .null, level, limit, text, _, _ => by
    rw [reread.eq_def]
    exact scanValue_null limit text
  | .bool true, level, limit, text, _, _ => by
    rw [reread.eq_def]
    exact scanValue_true limit text
  | .bool false, level, limit, text, _, _ => by
    rw [reread.eq_def]
    exact scanValue_false limit text
  | .int n, level, limit, text, h, htext => by
    rw [renderWith.eq_def]
    simp only
    rw [render, scanValue_number (NumberLiteral.ofInt_wellFormed n) htext, numberValue,
      NumberLiteral.isFloat_ofInt, if_neg Bool.false_ne_true, if_pos (of_decide_eq_true h),
      NumberLiteral.toInt_ofInt, reread.eq_def]
  | .float x, level, limit, text, h, htext => by
    rw [renderWith.eq_def]
    simp only
    rw [render, scanValue_number (floats.repr_wellFormed x h) htext, numberValue,
      if_pos (floats.repr_isFloat x h), floats.parse_repr x h, reread.eq_def]
  | .str s, level, limit, text, _, _ => by
    rw [renderWith.eq_def]
    simp only
    rw [render, renderString_append, reread.eq_def, scanValue, scanString_render]
    rfl
  | .arr items, level, 0, text, _, _ => rfl
  | .obj fields, level, 0, text, _, _ => rfl
  | .arr [], level, limit + 1, text, _, _ => rfl
  | .arr (v :: rest), level, limit + 1, text, h, _ => by
    have hv : clean floats v = true := (Bool.and_eq_true_iff.mp h).1
    have hlength : rest.length < (renderItemsWith floats layout level rest).length :=
      renderItemsWith_length rest
    have hopens : Opens (renderArrayWith floats layout level (v :: rest) ++ text) := by
      rw [renderArrayWith, List.append_assoc]
      exact renderWith_opens hv _
    show scanArray (scanValue floats hooks limit)
      ((layout.firstLine level (v :: rest) ++ renderArrayWith floats layout level (v :: rest)) ++
        text) = _
    rw [List.append_assoc, scanArray_opens hopens (layout.firstLine_spaces level _),
      scanItems_renderWith (v :: rest) level limit _ text h (List.cons_ne_nil _ _), reread]
    · cases rereadItems hooks limit (v :: rest) <;> rfl
    · rw [renderArrayWith, List.length_append, List.length_append, List.length_cons]
      omega
  | .obj [], level, limit + 1, text, _, _ => rfl
  | .obj ((k, v) :: rest), level, limit + 1, text, h, _ => by
    have hlength : rest.length < (renderFieldsWith floats layout level rest).length :=
      renderFieldsWith_length rest
    have hfields := scanFields_renderWith ((k, v) :: rest) level limit
      (renderObjectWith floats layout level ((k, v) :: rest) ++ text).length text h
      (List.cons_ne_nil _ _) (by
        simp only [renderObjectWith, List.length_append, List.length_cons]
        omega)
    have hquote : ∃ behind,
        renderObjectWith floats layout level ((k, v) :: rest) ++ text = '"' :: behind := ⟨_, rfl⟩
    obtain ⟨behind, hquote⟩ := hquote
    show scanObject hooks (scanValue floats hooks limit)
      ((layout.firstLine level ((k, v) :: rest) ++
        renderObjectWith floats layout level ((k, v) :: rest)) ++ text) = _
    rw [hquote] at hfields
    rw [List.append_assoc, hquote, scanObject_quote (layout.firstLine_spaces level _), hfields,
      reread]
    cases rereadFields hooks limit ((k, v) :: rest) <;> rfl

theorem scanItems_renderWith : ∀ (items : List (JsonValue φ)) (level limit fuel : Nat)
    (text : List Char), cleanItems floats items = true → items ≠ [] → items.length ≤ fuel →
      scanSeparated (scanValue floats hooks limit) ']' fuel
          (renderArrayWith floats layout level items ++ text) =
        (rereadItems hooks limit items).map (·, text)
  | [], _, _, _, _, _, hne, _ => absurd rfl hne
  | v :: rest, _, limit, 0, text, _, _, hfuel => absurd hfuel (Nat.not_succ_le_zero _)
  | v :: rest, level, limit, fuel + 1, text, h, _, hfuel => by
    obtain ⟨hclean, hrest⟩ := Bool.and_eq_true_iff.mp h
    have hv := scanValue_renderWith v (level + 1) limit
      (renderItemsWith floats layout level rest ++ text) hclean
      (renderItemsWith_delimited rest text)
    have ih := scanItems_renderWith rest level limit fuel text hrest
    rw [renderArrayWith, List.append_assoc, rereadItems]
    cases hread : reread hooks limit v with
    | error e =>
      rw [hread] at hv
      exact scanSeparated_error hv
    | ok v' =>
      rw [hread] at hv
      cases rest with
      | nil =>
        rw [renderItemsWith, List.append_assoc] at hv ⊢
        exact scanSeparated_last hv (layout.newline_spaces level) rfl
      | cons w rest' =>
        have hopens : Opens (renderArrayWith floats layout level (w :: rest') ++ text) := by
          rw [renderArrayWith, List.append_assoc]
          exact renderWith_opens (Bool.and_eq_true_iff.mp hrest).1 _
        have htext : renderItemsWith floats layout level (w :: rest') ++ text =
            layout.before_item ++ ',' :: ((layout.after_item ++ layout.newline (level + 1)) ++
              (renderArrayWith floats layout level (w :: rest') ++ text)) := by
          simp only [renderItemsWith, renderArrayWith, Layout.item, List.append_assoc,
            List.cons_append]
        rw [htext] at hv ⊢
        rw [scanSeparated_more hv layout.before_item_spaces (after_comma_spaces layout (level + 1))
          (by decide) hopens, ih (List.cons_ne_nil _ _) (Nat.le_of_succ_le_succ hfuel)]
        cases rereadItems hooks limit (w :: rest') <;> rfl

theorem scanFields_renderWith : ∀ (fields : List (PyText × JsonValue φ)) (level limit fuel : Nat)
    (text : List Char), cleanFields floats fields = true → fields ≠ [] → fields.length ≤ fuel →
      scanSeparated (scanField (scanValue floats hooks limit)) '}' fuel
          (renderObjectWith floats layout level fields ++ text) =
        (rereadFields hooks limit fields).map (·, text)
  | [], _, _, _, _, _, hne, _ => absurd rfl hne
  | (k, v) :: rest, _, limit, 0, text, _, _, hfuel => absurd hfuel (Nat.not_succ_le_zero _)
  | (k, v) :: rest, level, limit, fuel + 1, text, h, _, hfuel => by
    obtain ⟨hclean, hrest⟩ := Bool.and_eq_true_iff.mp h
    have hfield := scanField_render (scanValue_renderWith v (level + 1) limit
      (renderFieldsWith floats layout level rest ++ text) hclean
      (renderFieldsWith_delimited rest text)) (renderWith_opens hclean _) k
    have ih := scanFields_renderWith rest level limit fuel text hrest
    have hfirst : renderObjectWith floats layout level ((k, v) :: rest) ++ text =
        renderString k ++ (layout.colon ++ (renderWith floats layout (level + 1) v ++
          (renderFieldsWith floats layout level rest ++ text))) := by
      simp only [renderObjectWith, List.append_assoc]
    rw [hfirst, rereadFields]
    cases hread : reread hooks limit v with
    | error e =>
      rw [hread] at hfield
      exact scanSeparated_error hfield
    | ok v' =>
      rw [hread] at hfield
      cases rest with
      | nil =>
        rw [renderFieldsWith, List.append_assoc] at hfield ⊢
        exact scanSeparated_last hfield (layout.newline_spaces level) rfl
      | cons field rest' =>
        have hopens : Opens (renderObjectWith floats layout level (field :: rest') ++ text) :=
          ⟨'"', _, rfl, rfl, by decide⟩
        have htext : renderFieldsWith floats layout level (field :: rest') ++ text =
            layout.before_item ++ ',' :: ((layout.after_item ++ layout.newline (level + 1)) ++
              (renderObjectWith floats layout level (field :: rest') ++ text)) := by
          simp only [renderFieldsWith, renderObjectWith, Layout.item, List.append_assoc,
            List.cons_append]
        rw [htext] at hfield ⊢
        rw [scanSeparated_more hfield layout.before_item_spaces
          (after_comma_spaces layout (level + 1)) (by decide) hopens,
          ih (List.cons_ne_nil _ _) (Nat.le_of_succ_le_succ hfuel)]
        cases rereadFields hooks limit (field :: rest') <;> rfl

end

/-- **A text** is read back from any layout, with white space behind it or without. -/
theorem loads_renderWith {v : JsonValue φ} (h : clean floats v = true) (limit : Nat)
    {space : List Char} (hspace : skipSpace space = []) (hdelimited : Delimited space) :
    loads floats hooks limit (renderWith floats layout level v ++ space) = reread hooks limit v := by
  rw [loads, (renderWith_opens h space).skipSpace,
    scanValue_renderWith v level limit space h hdelimited]
  cases reread hooks limit v with
  | error e => rfl
  | ok v' =>
    show (if skipSpace space = [] then _ else _) = _
    rw [if_pos hspace]
    rfl

/-- **A text** is read back, with white space behind it or without. -/
theorem loads_render {v : JsonValue φ} (h : clean floats v = true) (limit : Nat)
    {space : List Char} (hspace : skipSpace space = []) (hdelimited : Delimited space) :
    loads floats hooks limit (render floats v ++ space) = reread hooks limit v := by
  rw [← renderWith_compact floats 0 v]
  exact loads_renderWith h limit hspace hdelimited

/-! ## When a value is read back -/

mutual

/-- The value with the pairs in its texts joined. -/
def joinAll : JsonValue φ → JsonValue φ
  | .str s => .str (join s)
  | .arr items => .arr (joinItems items)
  | .obj fields => .obj (joinFields fields)
  | v => v

def joinItems : List (JsonValue φ) → List (JsonValue φ)
  | [] => []
  | v :: rest => joinAll v :: joinItems rest

def joinFields : List (PyText × JsonValue φ) → List (PyText × JsonValue φ)
  | [] => []
  | (k, v) :: rest => (join k, joinAll v) :: joinFields rest

end

mutual

/-- No object has two fields whose keys are alike once they are joined. -/
def distinctKeys : JsonValue φ → Bool
  | .arr items => distinctItems items
  | .obj fields => decide ((joinFields fields).map Prod.fst).Nodup && distinctFields fields
  | _ => true

def distinctItems : List (JsonValue φ) → Bool
  | [] => true
  | v :: rest => distinctKeys v && distinctItems rest

def distinctFields : List (PyText × JsonValue φ) → Bool
  | [] => true
  | (_, v) :: rest => distinctKeys v && distinctFields rest

end

/-- The hook keeps the fields of an object, and refuses a key that comes twice. -/
def ScanHooks.Unique (hooks : ScanHooks ε φ) : Prop :=
  ∀ fields v, hooks.pairs fields = .ok v ↔ (fields.map Prod.fst).Nodup ∧ v = .obj fields

theorem ScanHooks.Unique.objectValue (h : hooks.Unique) {fields : List (PyText × JsonValue φ)}
    {v : JsonValue φ} : objectValue hooks fields = .ok v ↔
      (fields.map Prod.fst).Nodup ∧ v = .obj fields := by
  rw [← h fields v, NuSelf.Lib.objectValue]
  cases hooks.pairs fields with
  | error e => exact iff_of_false (by rintro ⟨⟩) (by rintro ⟨⟩)
  | ok v' =>
    constructor
    · intro heq
      cases heq
      rfl
    · intro heq
      cases heq
      rfl

mutual

/-- **A value is read back** if it does not nest too deep and its keys stay distinct; and then with
    the pairs in its texts joined. -/
theorem reread_iff (h : hooks.Unique) : ∀ (v : JsonValue φ) (limit : Nat) (v' : JsonValue φ),
    reread hooks limit v = .ok v' ↔
      nesting v ≤ limit ∧ distinctKeys v = true ∧ v' = joinAll v
  | .null, limit, v' | .bool _, limit, v' | .int _, limit, v' | .float _, limit, v'
  | .foreign _, limit, v' => by
    simp [reread.eq_def, nesting, distinctKeys, joinAll, eq_comm]
  | .str s, limit, v' => by
    simp [reread.eq_def, nesting, distinctKeys, joinAll, eq_comm]
  | .arr items, 0, v' | .obj fields, 0, v' => by simp [reread, nesting]
  | .arr items, limit + 1, v' => by
    have hitems := rereadItems_iff h items limit
    rw [reread, nesting, Nat.add_le_add_iff_right, distinctKeys, joinAll]
    cases hread : rereadItems hooks limit items with
    | error e =>
      refine iff_of_false nofun fun hok => ?_
      rw [(hitems _).mpr ⟨hok.1, hok.2.1, rfl⟩] at hread
      cases hread
    | ok items' =>
      obtain ⟨hdeep, hdistinct, rfl⟩ := (hitems items').mp hread
      constructor
      · intro heq
        cases heq
        exact ⟨hdeep, hdistinct, rfl⟩
      · rintro ⟨-, -, rfl⟩
        rfl
  | .obj fields, limit + 1, v' => by
    have hfields := rereadFields_iff h fields limit
    rw [reread, nesting, Nat.add_le_add_iff_right, distinctKeys, joinAll, Bool.and_eq_true,
      decide_eq_true_eq]
    cases hread : rereadFields hooks limit fields with
    | error e =>
      refine iff_of_false nofun fun hok => ?_
      rw [(hfields _).mpr ⟨hok.1, hok.2.1.2, rfl⟩] at hread
      cases hread
    | ok fields' =>
      obtain ⟨hdeep, hdistinct, rfl⟩ := (hfields fields').mp hread
      show objectValue hooks _ = _ ↔ _
      rw [h.objectValue]
      exact ⟨fun hok => ⟨hdeep, ⟨hok.1, hdistinct⟩, hok.2⟩, fun hok => ⟨hok.2.1.1, hok.2.2⟩⟩

theorem rereadItems_iff (h : hooks.Unique) : ∀ (items : List (JsonValue φ)) (limit : Nat)
    (items' : List (JsonValue φ)), rereadItems hooks limit items = .ok items' ↔
      nestingItems items ≤ limit ∧ distinctItems items = true ∧ items' = joinItems items
  | [], limit, items' => by
    simp [rereadItems, nestingItems, distinctItems, joinItems, eq_comm]
  | v :: rest, limit, items' => by
    have hv := reread_iff h v limit
    have hrest := rereadItems_iff h rest limit
    rw [rereadItems, nestingItems, Nat.max_le, distinctItems, Bool.and_eq_true, joinItems]
    cases hread : reread hooks limit v with
    | error e =>
      refine iff_of_false nofun fun hok => ?_
      rw [(hv _).mpr ⟨hok.1.1, hok.2.1.1, rfl⟩] at hread
      cases hread
    | ok v' =>
      obtain ⟨hdeep, hdistinct, rfl⟩ := (hv v').mp hread
      cases hmore : rereadItems hooks limit rest with
      | error e =>
        refine iff_of_false nofun fun hok => ?_
        rw [(hrest _).mpr ⟨hok.1.2, hok.2.1.2, rfl⟩] at hmore
        cases hmore
      | ok rest' =>
        obtain ⟨hdeep', hdistinct', rfl⟩ := (hrest rest').mp hmore
        constructor
        · intro heq
          cases heq
          exact ⟨⟨hdeep, hdeep'⟩, ⟨hdistinct, hdistinct'⟩, rfl⟩
        · rintro ⟨-, -, rfl⟩
          rfl

theorem rereadFields_iff (h : hooks.Unique) : ∀ (fields : List (PyText × JsonValue φ))
    (limit : Nat) (fields' : List (PyText × JsonValue φ)),
    rereadFields hooks limit fields = .ok fields' ↔
      nestingFields fields ≤ limit ∧ distinctFields fields = true ∧ fields' = joinFields fields
  | [], limit, fields' => by
    simp [rereadFields, nestingFields, distinctFields, joinFields, eq_comm]
  | (k, v) :: rest, limit, fields' => by
    have hv := reread_iff h v limit
    have hrest := rereadFields_iff h rest limit
    rw [rereadFields, nestingFields, Nat.max_le, distinctFields, Bool.and_eq_true, joinFields]
    cases hread : reread hooks limit v with
    | error e =>
      refine iff_of_false nofun fun hok => ?_
      rw [(hv _).mpr ⟨hok.1.1, hok.2.1.1, rfl⟩] at hread
      cases hread
    | ok v' =>
      obtain ⟨hdeep, hdistinct, rfl⟩ := (hv v').mp hread
      cases hmore : rereadFields hooks limit rest with
      | error e =>
        refine iff_of_false nofun fun hok => ?_
        rw [(hrest _).mpr ⟨hok.1.2, hok.2.1.2, rfl⟩] at hmore
        cases hmore
      | ok rest' =>
        obtain ⟨hdeep', hdistinct', rfl⟩ := (hrest rest').mp hmore
        constructor
        · intro heq
          cases heq
          exact ⟨⟨hdeep, hdeep'⟩, ⟨hdistinct, hdistinct'⟩, rfl⟩
        · rintro ⟨-, -, rfl⟩
          rfl

end

/-- **Too many brackets** are not read, whatever is behind them. -/
theorem scanValue_brackets : ∀ (limit : Nat) (text : List Char),
    scanValue floats hooks limit (List.replicate (limit + 1) '[' ++ text) = .error .recursion
  | 0, _ => rfl
  | limit + 1, text => by
    have hopens : Opens (List.replicate (limit + 1) '[' ++ text) := ⟨'[', _, rfl, rfl, by decide⟩
    have hitem := scanValue_brackets limit text
    show scanArray (scanValue floats hooks limit)
      ([] ++ (List.replicate (limit + 1) '[' ++ text)) = _
    rw [scanArray_opens hopens fun _ hc => absurd hc List.not_mem_nil, List.length_append,
      List.length_replicate, Nat.succ_add, scanSeparated_error hitem]
    rfl

/-! ## Texts that are read -/

theorem joinItems_eq_self : ∀ {items : List (JsonValue φ)}, (∀ v ∈ items, joinAll v = v) →
    joinItems items = items
  | [], _ => rfl
  | v :: rest, h => by
    rw [joinItems, h v List.mem_cons_self,
      joinItems_eq_self fun w hw => h w (List.mem_cons_of_mem _ hw)]

theorem joinFields_eq_self : ∀ {fields : List (PyText × JsonValue φ)},
    (∀ field ∈ fields, Joined field.1 ∧ joinAll field.2 = field.2) → joinFields fields = fields
  | [], _ => rfl
  | (k, v) :: rest, h => by
    obtain ⟨hk, hv⟩ := h (k, v) List.mem_cons_self
    have hk : join k = k := hk
    have hv : joinAll v = v := hv
    rw [joinFields, hk, hv, joinFields_eq_self fun w hw => h w (List.mem_cons_of_mem _ hw)]

/-- **No text that is read** has a pair of surrogates in it. -/
theorem joined_invariant (hunique : hooks.Unique)
    (hconstant : ∀ name, ∃ e, hooks.constant name = .error e) :
    ScanInvariant floats hooks hooks fun v => joinAll v = v where
  null := rfl
  bool _ := rfl
  float _ := rfl
  int _ _ _ := rfl
  str _ hs := congrArg JsonValue.str hs
  arr _ hitems := congrArg JsonValue.arr (joinItems_eq_self hitems)
  constant name v hv := by
    obtain ⟨e, he⟩ := hconstant name
    rw [he] at hv
    cases hv
  pairs fields v hfields hv := by
    obtain ⟨-, rfl⟩ := (hunique fields v).mp hv
    exact ⟨hv, congrArg JsonValue.obj (joinFields_eq_self hfields)⟩

theorem loads_joined (hunique : hooks.Unique)
    (hconstant : ∀ name, ∃ e, hooks.constant name = .error e) {limit : Nat} {text : List Char}
    {v : JsonValue φ} (h : loads floats hooks limit text = .ok v) : joinAll v = v :=
  ((joined_invariant hunique hconstant).loads h).2

end

end NuSelf.Lib
