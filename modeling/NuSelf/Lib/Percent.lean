/-
  Percent encoding of texts, by way of UTF-8.

  A text is quoted byte by byte: letters, digits and four marks stand for themselves, every other
  byte is a percent sign with two digits.  A surrogate has no bytes, so a text with one cannot be
  quoted.  Unquoting reads the runs of ASCII in a text as bytes, decodes these, with a replacement
  for what is no UTF-8, and leaves everything else as it is.

  1. `unquote_eq` — a text without percent signs is no exception;
  2. `unquote_quote`, `unquotePlus_quote` — **quoted texts are read back**;
  3. `quote_isSome_iff` — what can be quoted;
  4. `quotedChar_of_quote` — the characters of a quoted text;
  5. `unquote_ne_nil`, `encodable_unquote_iff` — what unquoting makes of an arbitrary text.
-/
import NuSelf.Lib.JsonScan
import NuSelf.Lib.Utf8

namespace NuSelf.Lib

/-! ## Quoting -/

def alwaysSafe (c : Char) : Bool :=
  c.isAlphanum || c = '_' || c = '.' || c = '-' || c = '~'

/-- `f"{n:X}"` of a digit. -/
def upperHexDigit (n : Nat) : Char := if n < 10 then Char.ofNat (48 + n) else Char.ofNat (55 + n)

def quoteByte (b : UInt8) : List Char :=
  if alwaysSafe (Char.ofNat b.toNat) then [Char.ofNat b.toNat]
  else ['%', upperHexDigit (b.toNat / 16), upperHexDigit (b.toNat % 16)]

/-- The characters of a text without surrogates. -/
def characters : PyText → Option (List Char)
  | [] => some []
  | .char c :: rest => (characters rest).map (c :: ·)
  | .surrogate _ :: _ => none

/-- `quote(s, safe="")`; a surrogate raises `UnicodeEncodeError`. -/
def quote (s : PyText) : Option (List Char) :=
  (characters s).map fun text => (utf8 text).flatMap quoteByte

/-- UTF-8 can carry the text. -/
def Encodable (s : PyText) : Prop := ∀ u, CodePoint.surrogate u ∉ s

/-! ## Unquoting -/

/-- `unquote_to_bytes` of an ASCII text. -/
def unquoteToBytes : List Char → List UInt8
  | [] => []
  | '%' :: a :: b :: rest =>
    match hexValue a, hexValue b with
    | some high, some low => UInt8.ofNat (16 * high + low) :: unquoteToBytes rest
    | _, _ => 0x25 :: unquoteToBytes (a :: b :: rest)
  | c :: rest => UInt8.ofNat c.toNat :: unquoteToBytes rest

/-- A run of ASCII, unquoted. -/
def unquoteRun (run : List Char) : PyText := (decodeReplace (unquoteToBytes run)).map .char

/-- `_generate_unquoted_parts`, with the run of ASCII that has been read so far. -/
def unquotedParts (run : List Char) : PyText → PyText
  | [] => unquoteRun run
  | .char c :: rest =>
    if c.toNat < 128 then unquotedParts (run ++ [c]) rest
    else unquoteRun run ++ .char c :: unquotedParts [] rest
  | .surrogate s :: rest => unquoteRun run ++ .surrogate s :: unquotedParts [] rest

def unquote (s : PyText) : PyText :=
  if .char '%' ∈ s then unquotedParts [] s else s

def unquotePlus (s : PyText) : PyText :=
  unquote (s.map fun p => if p = .char '+' then .char ' ' else p)

/-! ## The characters of a quoted text -/

def quotedChar (c : Char) : Bool := alwaysSafe c || c = '%'

theorem toNat_ofNat_byte (b : UInt8) : (Char.ofNat b.toNat).toNat = b.toNat := by
  have hb := b.toNat_lt
  have hvalid : b.toNat.isValidChar := Or.inl (by omega)
  rw [Char.ofNat, dif_pos hvalid]
  rfl

theorem hexValue_upperHexDigit : ∀ n < 16, hexValue (upperHexDigit n) = some n := by decide

theorem alwaysSafe_upperHexDigit : ∀ n < 16, alwaysSafe (upperHexDigit n) = true := by decide

theorem toNat_lt_of_alwaysSafe {c : Char} (h : alwaysSafe c = true) : c.toNat < 128 := by
  unfold alwaysSafe Char.isAlphanum Char.isAlpha Char.isUpper Char.isLower Char.isDigit at h
  simp only [Bool.or_eq_true, Bool.and_eq_true, decide_eq_true_eq] at h
  rcases h with (((h | h) | h) | h) | h
  · rcases h with (h | h) | h
    · exact Nat.lt_of_le_of_lt (UInt32.le_iff_toNat_le.mp h.2) (by decide)
    · exact Nat.lt_of_le_of_lt (UInt32.le_iff_toNat_le.mp h.2) (by decide)
    · exact Nat.lt_of_le_of_lt (UInt32.le_iff_toNat_le.mp h.2) (by decide)
  all_goals
    subst h
    decide

theorem toNat_lt_of_quotedChar {c : Char} (h : quotedChar c = true) : c.toNat < 128 := by
  rw [quotedChar, Bool.or_eq_true, decide_eq_true_eq] at h
  rcases h with h | rfl
  · exact toNat_lt_of_alwaysSafe h
  · decide

theorem quotedChar_of_quoteByte {b : UInt8} {c : Char} (h : c ∈ quoteByte b) :
    quotedChar c = true := by
  have hb := b.toNat_lt
  rw [quoteByte] at h
  rw [quotedChar, Bool.or_eq_true, decide_eq_true_eq]
  split at h
  · rename_i hsafe
    rw [List.mem_singleton] at h
    exact Or.inl (h ▸ hsafe)
  · simp only [List.mem_cons, List.not_mem_nil, or_false] at h
    rcases h with rfl | rfl | rfl
    · exact Or.inr rfl
    · exact Or.inl (alwaysSafe_upperHexDigit _ (by omega))
    · exact Or.inl (alwaysSafe_upperHexDigit _ (by omega))

theorem quotedChar_of_quote {s : PyText} {q : List Char} (h : quote s = some q) {c : Char}
    (hc : c ∈ q) : quotedChar c = true := by
  rw [quote, Option.map_eq_some_iff] at h
  obtain ⟨text, -, rfl⟩ := h
  obtain ⟨b, -, hcb⟩ := List.mem_flatMap.mp hc
  exact quotedChar_of_quoteByte hcb

/-! ## Bytes of a quoted text -/

theorem unquoteToBytes_cons_of_ne {c : Char} (h : c ≠ '%') (rest : List Char) :
    unquoteToBytes (c :: rest) = UInt8.ofNat c.toNat :: unquoteToBytes rest := by
  rw [unquoteToBytes.eq_def]
  split
  · rename_i heq
    cases heq
  · rename_i heq
    exact absurd (List.head_eq_of_cons_eq heq) h
  · rename_i heq
    cases heq
    rfl

theorem unquoteToBytes_quoteByte (b : UInt8) (rest : List Char) :
    unquoteToBytes (quoteByte b ++ rest) = b :: unquoteToBytes rest := by
  have hb := b.toNat_lt
  rw [quoteByte]
  split
  · rename_i hsafe
    have hne : Char.ofNat b.toNat ≠ '%' := by
      intro heq
      rw [heq] at hsafe
      exact absurd hsafe (by decide)
    rw [List.singleton_append, unquoteToBytes_cons_of_ne hne, toNat_ofNat_byte, UInt8.ofNat_toNat]
  · rw [List.cons_append, List.cons_append, List.cons_append, List.nil_append, unquoteToBytes,
      hexValue_upperHexDigit _ (by omega), hexValue_upperHexDigit _ (by omega)]
    dsimp only
    rw [show 16 * (b.toNat / 16) + b.toNat % 16 = b.toNat by omega, UInt8.ofNat_toNat]

theorem unquoteToBytes_quoted : ∀ bytes : List UInt8,
    unquoteToBytes (bytes.flatMap quoteByte) = bytes
  | [] => rfl
  | b :: rest => by
    rw [List.flatMap_cons, unquoteToBytes_quoteByte, unquoteToBytes_quoted rest]

theorem unquoteToBytes_ne_nil {run : List Char} (h : run ≠ []) : unquoteToBytes run ≠ [] := by
  obtain ⟨c, rest, rfl⟩ := List.exists_cons_of_ne_nil h
  rw [unquoteToBytes.eq_def]
  split
  · rename_i heq
    cases heq
  · split <;> exact List.cons_ne_nil _ _
  · exact List.cons_ne_nil _ _

theorem unquoteToBytes_plain : ∀ run : List Char, (∀ c ∈ run, c.toNat < 128 ∧ c ≠ '%') →
    unquoteToBytes run = utf8 run
  | [], _ => rfl
  | c :: rest, h => by
    have hc := h c List.mem_cons_self
    have hone : String.utf8EncodeChar c = [UInt8.ofNat c.toNat] := by
      have hle : c.val.toNat ≤ 127 := Nat.le_of_lt_succ hc.1
      rw [String.utf8EncodeChar, if_pos hle]
      rfl
    rw [unquoteToBytes_cons_of_ne hc.2,
      unquoteToBytes_plain rest fun d hd => h d (List.mem_cons_of_mem _ hd), utf8, utf8,
      List.flatMap_cons, hone, List.singleton_append]

/-! ## Reading back -/

theorem unquoteRun_plain {run : List Char} (h : ∀ c ∈ run, c.toNat < 128 ∧ c ≠ '%') :
    unquoteRun run = run.map .char := by
  rw [unquoteRun, unquoteToBytes_plain run h, decodeReplace_utf8]

theorem unquotedParts_ascii : ∀ (text run : List Char), (∀ c ∈ text, c.toNat < 128) →
    unquotedParts run (text.map .char) = unquoteRun (run ++ text)
  | [], run, _ => by rw [List.append_nil]; rfl
  | c :: rest, run, h => by
    rw [List.map_cons, unquotedParts, if_pos (h c List.mem_cons_self),
      unquotedParts_ascii rest (run ++ [c]) fun d hd => h d (List.mem_cons_of_mem _ hd),
      List.append_assoc, List.singleton_append]

theorem unquotedParts_plain : ∀ (s : PyText) (run : List Char),
    (∀ c ∈ run, c.toNat < 128 ∧ c ≠ '%') → CodePoint.char '%' ∉ s →
    unquotedParts run s = run.map .char ++ s
  | [], run, hrun, _ => by rw [unquotedParts, unquoteRun_plain hrun, List.append_nil]
  | .char c :: rest, run, hrun, hs => by
    obtain ⟨hc, hrest⟩ := List.ne_and_not_mem_of_not_mem_cons hs
    rw [unquotedParts]
    split
    · rename_i hascii
      have hnext : ∀ d ∈ run ++ [c], d.toNat < 128 ∧ d ≠ '%' := by
        intro d hd
        rcases List.mem_append.mp hd with hd | hd
        · exact hrun d hd
        · rw [List.mem_singleton] at hd
          subst hd
          exact ⟨hascii, fun heq => hc (by rw [heq])⟩
      rw [unquotedParts_plain rest _ hnext hrest, List.map_append, List.append_assoc]
      rfl
    · rw [unquoteRun_plain hrun, unquotedParts_plain rest [] nofun hrest]
      rfl
  | .surrogate u :: rest, run, hrun, hs => by
    rw [unquotedParts, unquoteRun_plain hrun,
      unquotedParts_plain rest [] nofun (List.not_mem_of_not_mem_cons hs)]
    rfl

/-- **A text without percent signs is no exception.** -/
theorem unquote_eq (s : PyText) : unquote s = unquotedParts [] s := by
  rw [unquote]
  split
  · rfl
  · rename_i hs
    exact (unquotedParts_plain s [] nofun hs).symm

theorem eq_of_characters : ∀ {s : PyText} {text : List Char}, characters s = some text →
    s = text.map .char
  | [], _, h => by
    cases h
    rfl
  | .char c :: rest, _, h => by
    rw [characters, Option.map_eq_some_iff] at h
    obtain ⟨text, htext, rfl⟩ := h
    rw [List.map_cons, ← eq_of_characters htext]

theorem unquote_quote {s : PyText} {q : List Char} (h : quote s = some q) :
    unquote (q.map .char) = s := by
  have hascii : ∀ c ∈ q, c.toNat < 128 := fun c hc =>
    toNat_lt_of_quotedChar (quotedChar_of_quote h hc)
  rw [quote, Option.map_eq_some_iff] at h
  obtain ⟨text, htext, rfl⟩ := h
  rw [unquote_eq, unquotedParts_ascii _ _ hascii, List.nil_append, unquoteRun,
    unquoteToBytes_quoted, decodeReplace_utf8, ← eq_of_characters htext]

/-- **Quoted texts are read back**, plus signs being quoted too. -/
theorem unquotePlus_quote {s : PyText} {q : List Char} (h : quote s = some q) :
    unquotePlus (q.map .char) = s := by
  have hplus : ∀ p ∈ q.map CodePoint.char, (if p = .char '+' then .char ' ' else p) = p := by
    intro p hp
    obtain ⟨c, hc, rfl⟩ := List.mem_map.mp hp
    refine if_neg fun heq => ?_
    cases heq
    exact absurd (quotedChar_of_quote h hc) (by decide)
  rw [unquotePlus, List.map_congr_left hplus, List.map_id', unquote_quote h]

/-! ## What can be quoted -/

theorem encodable_nil : Encodable [] := fun _ => List.not_mem_nil

theorem encodable_chars (text : List Char) : Encodable (text.map .char) := by
  intro u hu
  obtain ⟨c, -, hc⟩ := List.mem_map.mp hu
  cases hc

theorem characters_isSome_iff : ∀ s : PyText, (characters s).isSome ↔ Encodable s
  | [] => iff_of_true rfl encodable_nil
  | .char c :: rest => by
    rw [characters, Option.isSome_map, characters_isSome_iff rest]
    constructor
    · intro h u hu
      rcases List.mem_cons.mp hu with heq | hu
      · cases heq
      · exact h u hu
    · exact fun h u hu => h u (List.mem_cons_of_mem _ hu)
  | .surrogate u :: rest =>
    iff_of_false Bool.false_ne_true fun h => h u List.mem_cons_self

theorem quote_isSome_iff (s : PyText) : (quote s).isSome ↔ Encodable s := by
  rw [quote, Option.isSome_map]
  exact characters_isSome_iff s

theorem encodable_unquoteRun (run : List Char) : Encodable (unquoteRun run) := encodable_chars _

theorem surrogate_mem_unquotedParts {u : Fin 0x800} : ∀ (s : PyText) (run : List Char),
    CodePoint.surrogate u ∈ unquotedParts run s ↔ CodePoint.surrogate u ∈ s
  | [], run => iff_of_false (encodable_chars _ u) List.not_mem_nil
  | .char c :: rest, run => by
    have hchar : CodePoint.surrogate u ∈ .char c :: rest ↔ CodePoint.surrogate u ∈ rest := by
      rw [List.mem_cons, or_iff_right nofun]
    rw [unquotedParts, hchar]
    split
    · exact surrogate_mem_unquotedParts rest _
    · rw [List.mem_append, or_iff_right (encodable_unquoteRun run u), List.mem_cons, or_iff_right nofun]
      exact surrogate_mem_unquotedParts rest _
  | .surrogate v :: rest, run => by
    rw [unquotedParts, List.mem_append, or_iff_right (encodable_unquoteRun run u), List.mem_cons,
      List.mem_cons, surrogate_mem_unquotedParts rest []]

theorem encodable_unquote_iff (s : PyText) : Encodable (unquote s) ↔ Encodable s := by
  rw [unquote_eq]
  exact forall_congr' fun u => not_congr (surrogate_mem_unquotedParts s [])

theorem encodable_unquotePlus_iff (s : PyText) : Encodable (unquotePlus s) ↔ Encodable s := by
  rw [unquotePlus, encodable_unquote_iff]
  refine forall_congr' fun u => not_congr ?_
  constructor
  · intro hu
    obtain ⟨p, hp, heq⟩ := List.mem_map.mp hu
    split at heq
    · cases heq
    · exact heq ▸ hp
  · exact fun hu => List.mem_map.mpr ⟨_, hu, if_neg nofun⟩

theorem unquotedParts_ne_nil : ∀ (s : PyText) (run : List Char), run ≠ [] ∨ s ≠ [] →
    unquotedParts run s ≠ []
  | [], run, h => by
    have hrun : run ≠ [] := h.resolve_right (absurd rfl)
    intro heq
    exact decodeReplace_ne_nil (unquoteToBytes_ne_nil hrun) (List.map_eq_nil_iff.mp heq)
  | .char c :: rest, run, _ => by
    rw [unquotedParts]
    split
    · exact unquotedParts_ne_nil rest _ (Or.inl (List.append_ne_nil_of_right_ne_nil _ nofun))
    · exact List.append_ne_nil_of_right_ne_nil _ (List.cons_ne_nil _ _)
  | .surrogate u :: rest, run, _ =>
    List.append_ne_nil_of_right_ne_nil _ (List.cons_ne_nil _ _)

theorem unquote_ne_nil {s : PyText} (h : s ≠ []) : unquote s ≠ [] := by
  rw [unquote_eq]
  exact unquotedParts_ne_nil s [] (Or.inr h)

theorem unquotePlus_ne_nil {s : PyText} (h : s ≠ []) : unquotePlus s ≠ [] :=
  unquote_ne_nil fun heq => h (List.map_eq_nil_iff.mp heq)

end NuSelf.Lib
