/-
  Selections of visible indexes, such as `1,3-5,9`.

  The pattern and `int` take every decimal digit of Unicode; which characters these are is a
  parameter.  `int` refuses a numeral with more than 4300 digits, zeros in front among them.

  1. `fullmatch_iff` — the pattern matches the texts of the grammar (`Selects`), and no others.
  2. `parse_selects` — a text of the grammar is read token by token.
  3. `selection_iff` — what is accepted, and the indexes it stands for.
-/
import Mathlib.Computability.RegularExpressions
import NuSelf.Lib.Chosen
import NuSelf.Lib.JsonText
import NuSelf.Lib.Sequence

namespace NuSelf.Runtime.Handles

open NuSelf.Lib

/-! ## The grammar -/

/-- The decimal digits, with their values. -/
structure Decimals where
  value : CodePoint → Option (Fin 10)
  comma : value (.char ',') = none
  hyphen : value (.char '-') = none

/-- The number that some digits stand for. -/
def Decimals.number (d : Decimals) (numeral : PyText) : Nat :=
  numeral.foldl (fun n c => 10 * n + ((d.value c).map Fin.val).getD 0) 0

/-- What the pattern tells apart. -/
inductive Symbol where
  | digit
  | hyphen
  | comma
  | other
  deriving DecidableEq

def Decimals.symbol (d : Decimals) (c : CodePoint) : Symbol :=
  match d.value c with
  | some _ => .digit
  | none => if c = .char '-' then .hyphen else if c = .char ',' then .comma else .other

/-- One index, or a range of them. -/
inductive Token where
  | index (numeral : PyText)
  | range (start_raw end_raw : PyText)

namespace Token

def numerals : Token → List PyText
  | index numeral => [numeral]
  | range start_raw end_raw => [start_raw, end_raw]

def text : Token → PyText
  | index numeral => numeral
  | range start_raw end_raw => start_raw ++ .char '-' :: end_raw

def first (d : Decimals) : Token → Nat
  | index numeral => d.number numeral
  | range start_raw _ => d.number start_raw

def last (d : Decimals) : Token → Nat
  | index numeral => d.number numeral
  | range _ end_raw => d.number end_raw

def denoted (d : Decimals) (t : Token) : List Nat :=
  List.range' (t.first d) (t.last d + 1 - t.first d)

/-- Every numeral has a digit, and nothing else in it. -/
def WellFormed (d : Decimals) (t : Token) : Prop :=
  ∀ numeral ∈ t.numerals, numeral ≠ [] ∧ ∀ c ∈ numeral, (d.value c).isSome = true

end Token

/-- The text is these tokens, with commas between them. -/
structure Selects (d : Decimals) (tokens : List Token) (text : PyText) : Prop where
  some_token : tokens ≠ []
  wellFormed : ∀ t ∈ tokens, t.WellFormed d
  text_eq : text = [CodePoint.char ','].intercalate (tokens.map Token.text)

/-- What it takes for a token to be accepted: no numeral is too long for `int`. -/
structure Token.Accepted (d : Decimals) (count : Nat) (t : Token) : Prop where
  short : ∀ numeral ∈ t.numerals, numeral.length ≤ maxIntDigits
  ordered : t.first d ≤ t.last d
  below : t.last d < count

/-- The indexes that the tokens stand for, each in the place of its first. -/
structure Denotes (d : Decimals) (tokens : List Token) (indexes : List Nat) : Prop where
  in_order : indexes = chosen (isNew id) [] (tokens.flatMap (Token.denoted d))
  distinct : indexes.Nodup
  denoted : ∀ i, i ∈ indexes ↔ ∃ t ∈ tokens, t.first d ≤ i ∧ i ≤ t.last d

/-! ## The source -/

/-- What `parse_visible_index_selection` raises. -/
inductive HandleError where
  | visible_handle_error (text : PyText)
  | value_error

section

open RegularExpression

/-- `\d+` -/
def digitsRe : RegularExpression Symbol := char .digit * (char .digit).star

/-- `\d+(?:-\d+)?` -/
def tokenRe : RegularExpression Symbol := digitsRe * (1 + char .hyphen * digitsRe)

def indexSelectionRe : RegularExpression Symbol := tokenRe * (char Symbol.comma * tokenRe).star

end

variable (d : Decimals)

/-- `str(n)`. -/
def natText (n : Nat) : PyText := pyText (toString n)

/-- `int` of a text of digits; no other text gets there. -/
def intOf (numeral : PyText) : Except HandleError Nat :=
  if numeral.length ≤ maxIntDigits then .ok (d.number numeral) else .error .value_error

/-- The indexes of a token. -/
def expanded (label token : PyText) : Except HandleError (List Nat) :=
  if .char '-' ∈ token then do
    let start ← intOf d (token.takeWhile (· ≠ .char '-'))
    let stop ← intOf d (token.dropWhile (· ≠ .char '-')).tail
    if stop < start then
      .error (.visible_handle_error (pyText "Invalid " ++ label ++ pyText " index range " ++
        token ++ pyText ". Range start must be <= end."))
    else return List.range' start (stop + 1 - start)
  else return List.range' (← intOf d token) 1

/-- The loop over the indexes of a token; what has been seen is what has been taken. -/
def takeIndexes (count : Nat) (label : PyText) :
    List Nat → List Nat → Except HandleError (List Nat)
  | indexes, [] => .ok indexes
  | indexes, index :: rest =>
    if count ≤ index then
      .error (.visible_handle_error (pyText "Invalid " ++ label ++ pyText " index " ++
        natText index ++ pyText ". Valid range: " ++
        if count = 0 then pyText "(none)" else pyText "0-" ++ natText (count - 1)))
    else takeIndexes count label (if index ∈ indexes then indexes else indexes ++ [index]) rest

/-- The loop over the tokens. -/
def takeTokens (count : Nat) (label : PyText) :
    List Nat → List PyText → Except HandleError (List Nat)
  | indexes, [] => .ok indexes
  | indexes, token :: rest => do
    let indexes ← takeIndexes count label indexes (← expanded d label token)
    takeTokens count label indexes rest

def parseVisibleIndexSelection (value : PyText) (count : Nat) (label : PyText) :
    Except HandleError (List Nat) :=
  if indexSelectionRe.rmatch (value.map d.symbol) then
    takeTokens d count label [] (value.splitOn (.char ','))
  else
    .error (.visible_handle_error (pyText "Invalid " ++ label ++ pyText " index selection: " ++
      value ++ pyText ". Expected compact form like 0,2-4,8."))

/-! ## The pattern -/

variable {d}

theorem symbol_digit {c : CodePoint} : d.symbol c = .digit ↔ (d.value c).isSome = true := by
  rw [Decimals.symbol]
  cases d.value c with
  | some v => exact iff_of_true rfl rfl
  | none =>
    refine iff_of_false ?_ nofun
    dsimp only
    split
    · exact nofun
    · split <;> exact nofun

theorem symbol_hyphen {c : CodePoint} : d.symbol c = .hyphen ↔ c = .char '-' := by
  constructor
  · intro h
    rw [Decimals.symbol] at h
    split at h
    · cases h
    · split at h
      · assumption
      · split at h <;> cases h
  · rintro rfl
    rw [Decimals.symbol, d.hyphen]
    rfl

theorem symbol_comma {c : CodePoint} : d.symbol c = .comma ↔ c = .char ',' := by
  constructor
  · intro h
    rw [Decimals.symbol] at h
    split at h
    · cases h
    · split at h
      · cases h
      · split at h
        · assumption
        · cases h
  · rintro rfl
    rw [Decimals.symbol, d.comma]
    rfl

theorem mem_digitsRe {s : List Symbol} :
    s ∈ digitsRe.matches' ↔ s ≠ [] ∧ ∀ c ∈ s, c = Symbol.digit := by
  rw [digitsRe, RegularExpression.matches'_mul, RegularExpression.matches'_char,
    RegularExpression.matches'_star, RegularExpression.matches'_char, Language.mem_mul]
  constructor
  · rintro ⟨_, rfl, _, ⟨pieces, rfl, hpieces⟩, rfl⟩
    refine ⟨List.cons_ne_nil _ _, fun c hc => ?_⟩
    rcases List.mem_cons.mp hc with rfl | hc
    · rfl
    · obtain ⟨piece, hpiece, hc⟩ := List.mem_flatten.mp hc
      obtain rfl : piece = [Symbol.digit] := hpieces piece hpiece
      exact List.mem_singleton.mp hc
  · rintro ⟨hne, hdigits⟩
    obtain ⟨c, rest, rfl⟩ := List.exists_cons_of_ne_nil hne
    obtain ⟨rfl, hrest⟩ := List.forall_mem_cons.mp hdigits
    refine ⟨[Symbol.digit], rfl, rest, ⟨rest.map fun c => [c], ?_, fun piece hpiece => ?_⟩, rfl⟩
    · rw [← List.flatMap_def, List.flatMap_singleton']
    · obtain ⟨c, hc, rfl⟩ := List.mem_map.mp hpiece
      rw [hrest c hc]
      rfl

theorem map_mem_digitsRe {numeral : PyText} : numeral.map d.symbol ∈ digitsRe.matches' ↔
    numeral ≠ [] ∧ ∀ c ∈ numeral, (d.value c).isSome = true := by
  rw [mem_digitsRe, List.forall_mem_map, Ne, List.map_eq_nil_iff]
  simp only [symbol_digit]

/-- **A token** is what its pattern matches. -/
theorem mem_tokenRe {piece : PyText} : piece.map d.symbol ∈ tokenRe.matches' ↔
    ∃ t : Token, t.WellFormed d ∧ t.text = piece := by
  rw [tokenRe, RegularExpression.matches'_mul, RegularExpression.matches'_add,
    RegularExpression.matches'_mul, RegularExpression.matches'_char,
    RegularExpression.matches'_epsilon, Language.mem_mul]
  constructor
  · rintro ⟨start, hstart, rest, hrest, hpiece⟩
    obtain ⟨start, behind, rfl, rfl, rfl⟩ := List.map_eq_append_iff.mp hpiece.symm
    have hnumeral := map_mem_digitsRe.mp hstart
    rcases hrest with hnone | hrest
    · obtain rfl : behind = [] := List.map_eq_nil_iff.mp hnone
      exact ⟨.index start, List.forall_mem_singleton.mpr hnumeral, (List.append_nil start).symm⟩
    · obtain ⟨_, rfl, stop, hstop, hbehind⟩ := Language.mem_mul.mp hrest
      obtain ⟨c, stop, rfl, hc, rfl⟩ := List.map_eq_cons_iff.mp hbehind.symm
      obtain rfl := symbol_hyphen.mp hc
      refine ⟨.range start stop, List.forall_mem_cons.mpr ⟨hnumeral, ?_⟩, rfl⟩
      exact List.forall_mem_singleton.mpr (map_mem_digitsRe.mp hstop)
  · rintro ⟨t, ht, rfl⟩
    cases t with
    | index numeral =>
      refine ⟨numeral.map d.symbol, ?_, [], Or.inl rfl, List.append_nil _⟩
      exact map_mem_digitsRe.mpr (ht numeral List.mem_cons_self)
    | range start stop =>
      refine ⟨start.map d.symbol, ?_, Symbol.hyphen :: stop.map d.symbol, Or.inr ?_, ?_⟩
      · exact map_mem_digitsRe.mpr (ht start List.mem_cons_self)
      · refine Language.mem_mul.mpr ⟨[Symbol.hyphen], rfl, stop.map d.symbol, ?_, rfl⟩
        exact map_mem_digitsRe.mpr (ht stop (List.mem_cons_of_mem _ List.mem_cons_self))
      · rw [Token.text, List.map_append, List.map_cons, symbol_hyphen.mpr rfl]

theorem join_cons (t : Token) (tokens : List Token) :
    [CodePoint.char ','].intercalate ((t :: tokens).map Token.text) =
      t.text ++ tokens.flatMap fun t => .char ',' :: t.text := by
  induction tokens generalizing t with
  | nil => exact (List.intercalate_singleton).trans (List.append_nil _).symm
  | cons next rest ih =>
    rw [List.map_cons, List.map_cons, List.intercalate_cons_cons, ← List.map_cons, ih,
      List.flatMap_cons, List.append_assoc]
    rfl

theorem mem_behind : ∀ {pieces : List (List Symbol)} {behind : PyText},
    behind.map d.symbol = pieces.flatten →
    (∀ piece ∈ pieces, piece ∈ (RegularExpression.char Symbol.comma * tokenRe).matches') →
      ∃ tokens : List Token, (∀ t ∈ tokens, t.WellFormed d) ∧
        behind = tokens.flatMap fun t => .char ',' :: t.text
  | [], behind, hbehind, _ =>
    ⟨[], fun _ ht => absurd ht List.not_mem_nil, List.map_eq_nil_iff.mp hbehind⟩
  | piece :: pieces, behind, hbehind, hpieces => by
    obtain ⟨hpiece, hrest⟩ := List.forall_mem_cons.mp hpieces
    obtain ⟨front, rest, rfl, rfl, hflatten⟩ := List.map_eq_append_iff.mp hbehind
    obtain ⟨tokens, htokens, rfl⟩ := mem_behind hflatten hrest
    rw [RegularExpression.matches'_mul, RegularExpression.matches'_char] at hpiece
    obtain ⟨_, rfl, s, hs, hfront⟩ := Language.mem_mul.mp hpiece
    obtain ⟨c, front, rfl, hc, rfl⟩ := List.map_eq_cons_iff.mp hfront.symm
    obtain rfl := symbol_comma.mp hc
    obtain ⟨t, ht, rfl⟩ := mem_tokenRe.mp hs
    exact ⟨t :: tokens, List.forall_mem_cons.mpr ⟨ht, htokens⟩, rfl⟩

/-- **The pattern** matches the texts of the grammar. -/
theorem fullmatch_iff {value : PyText} : indexSelectionRe.rmatch (value.map d.symbol) = true ↔
    ∃ tokens, Selects d tokens value := by
  rw [RegularExpression.rmatch_iff_matches', indexSelectionRe, RegularExpression.matches'_mul,
    RegularExpression.matches'_star, Language.mem_mul]
  constructor
  · rintro ⟨front, hfront, _, ⟨pieces, rfl, hpieces⟩, hvalue⟩
    obtain ⟨front, behind, rfl, rfl, hbehind⟩ := List.map_eq_append_iff.mp hvalue.symm
    obtain ⟨t, ht, rfl⟩ := mem_tokenRe.mp hfront
    obtain ⟨tokens, htokens, rfl⟩ := mem_behind hbehind hpieces
    exact ⟨t :: tokens, List.cons_ne_nil _ _, List.forall_mem_cons.mpr ⟨ht, htokens⟩,
      (join_cons t tokens).symm⟩
  · rintro ⟨tokens, hne, hwell, rfl⟩
    obtain ⟨t, tokens, rfl⟩ := List.exists_cons_of_ne_nil hne
    obtain ⟨ht, htokens⟩ := List.forall_mem_cons.mp hwell
    refine ⟨t.text.map d.symbol, mem_tokenRe.mpr ⟨t, ht, rfl⟩, _,
      ⟨tokens.map fun t => Symbol.comma :: t.text.map d.symbol, rfl, ?_⟩, ?_⟩
    · intro piece hpiece
      obtain ⟨t', ht', rfl⟩ := List.mem_map.mp hpiece
      rw [RegularExpression.matches'_mul, RegularExpression.matches'_char]
      refine Language.mem_mul.mpr ⟨[Symbol.comma], rfl, _, ?_, rfl⟩
      exact mem_tokenRe.mpr ⟨t', htokens t' ht', rfl⟩
    · rw [join_cons, List.map_append, List.map_flatMap, List.flatMap_def]
      simp only [List.map_cons, symbol_comma.mpr rfl]

/-! ## A text of the grammar -/

theorem not_mem_numeral {numeral : PyText} {c : CodePoint}
    (h : ∀ c ∈ numeral, (d.value c).isSome = true) (hc : d.value c = none) : c ∉ numeral := by
  intro hmem
  have hsome := h c hmem
  rw [hc] at hsome
  cases hsome

theorem Selects.splitOn {tokens : List Token} {value : PyText} (h : Selects d tokens value) :
    value.splitOn (.char ',') = tokens.map Token.text := by
  rw [h.text_eq]
  refine List.splitOn_intercalate _ (fun piece hpiece => ?_) (by simpa using h.some_token)
  obtain ⟨t, ht, rfl⟩ := List.mem_map.mp hpiece
  have hwell := h.wellFormed t ht
  cases t with
  | index numeral => exact not_mem_numeral (hwell numeral List.mem_cons_self).2 d.comma
  | range start stop =>
    have hstart := not_mem_numeral (hwell start List.mem_cons_self).2 d.comma
    have hstop := not_mem_numeral (hwell stop (List.mem_cons_of_mem _ List.mem_cons_self)).2 d.comma
    rw [Token.text, List.mem_append, List.mem_cons]
    rintro (hmem | hmem | hmem)
    · exact hstart hmem
    · cases hmem
    · exact hstop hmem

theorem intOf_ok_iff {numeral : PyText} {n : Nat} :
    intOf d numeral = .ok n ↔ numeral.length ≤ maxIntDigits ∧ n = d.number numeral := by
  rw [intOf]
  split
  · rename_i hshort
    rw [Except.ok.injEq]
    exact ⟨fun h => ⟨hshort, h.symm⟩, fun h => h.2.symm⟩
  · rename_i hlong
    exact iff_of_false nofun fun h => hlong h.1

/-- **One token**. -/
theorem expanded_ok_iff {t : Token} (ht : t.WellFormed d) {label : PyText} {is : List Nat} :
    expanded d label t.text = .ok is ↔
      ((∀ numeral ∈ t.numerals, numeral.length ≤ maxIntDigits) ∧ t.first d ≤ t.last d) ∧
        is = t.denoted d := by
  cases t with
  | index numeral =>
    have hplain := not_mem_numeral (ht numeral List.mem_cons_self).2 d.hyphen
    rw [expanded, Token.text, if_neg hplain, bind_ok_iff, Token.numerals, List.forall_mem_singleton,
      Token.denoted, Token.first, Token.last, Nat.add_sub_cancel_left]
    simp only [intOf_ok_iff]
    constructor
    · rintro ⟨_, ⟨hshort, rfl⟩, h⟩
      exact ⟨⟨hshort, Nat.le_refl _⟩, (Except.ok.inj h).symm⟩
    · rintro ⟨⟨hshort, -⟩, rfl⟩
      exact ⟨_, ⟨hshort, rfl⟩, rfl⟩
  | range start stop =>
    have hplain := not_mem_numeral (ht start List.mem_cons_self).2 d.hyphen
    have hapart : ∀ c ∈ start, decide (c ≠ CodePoint.char '-') = true :=
      fun c hc => decide_eq_true fun heq => hplain (heq ▸ hc)
    have hstart : (start ++ CodePoint.char '-' :: stop).takeWhile (· ≠ .char '-') = start := by
      rw [List.takeWhile_append_of_pos hapart, List.takeWhile_cons_of_neg (by simp),
        List.append_nil]
    have hstop : (start ++ CodePoint.char '-' :: stop).dropWhile (· ≠ .char '-') =
        .char '-' :: stop := by
      rw [List.dropWhile_append_of_pos hapart, List.dropWhile_cons_of_neg (by simp)]
    rw [expanded, Token.text, if_pos (List.mem_append_right _ List.mem_cons_self), hstart, hstop,
      bind_ok_iff, Token.numerals, List.forall_mem_cons, List.forall_mem_singleton, Token.denoted,
      Token.first, Token.last, List.tail_cons]
    simp only [bind_ok_iff, intOf_ok_iff]
    constructor
    · rintro ⟨_, ⟨hfirst, rfl⟩, _, ⟨hlast, rfl⟩, h⟩
      split at h
      · cases h
      · rename_i hordered
        exact ⟨⟨⟨hfirst, hlast⟩, Nat.not_lt.mp hordered⟩, (Except.ok.inj h).symm⟩
    · rintro ⟨⟨⟨hfirst, hlast⟩, hordered⟩, rfl⟩
      refine ⟨_, ⟨hfirst, rfl⟩, _, ⟨hlast, rfl⟩, ?_⟩
      rw [if_neg (Nat.not_lt.mpr hordered)]
      rfl

theorem takeIndexes_ok_iff {count : Nat} {label : PyText} {is : List Nat} :
    ∀ {indexes taken : List Nat}, takeIndexes count label indexes is = .ok taken ↔
      (∀ i ∈ is, i < count) ∧ taken = is.foldl (addBy id) indexes := by
  induction is with
  | nil =>
    intro indexes taken
    rw [takeIndexes, Except.ok.injEq]
    exact ⟨fun h => ⟨fun _ hi => absurd hi List.not_mem_nil, h.symm⟩, fun h => h.2.symm⟩
  | cons i rest ih =>
    intro indexes taken
    rw [takeIndexes, List.forall_mem_cons, List.foldl_cons, addBy, List.map_id]
    split
    · rename_i hbeyond
      exact iff_of_false (by rintro ⟨⟩) fun h => absurd h.1.1 (Nat.not_lt.mpr hbeyond)
    · rename_i hbelow
      rw [ih]
      exact ⟨fun h => ⟨⟨Nat.not_le.mp hbelow, h.1⟩, h.2⟩, fun h => ⟨h.1.2, h.2⟩⟩

theorem mem_denoted {t : Token} {i : Nat} (hordered : t.first d ≤ t.last d) :
    i ∈ t.denoted d ↔ t.first d ≤ i ∧ i ≤ t.last d := by
  rw [Token.denoted, List.mem_range'_1]
  omega

/-- **All tokens**: the induction carries what has been taken. -/
theorem takeTokens_ok_iff {count : Nat} {label : PyText} : ∀ {tokens : List Token},
    (∀ t ∈ tokens, t.WellFormed d) → ∀ {indexes taken : List Nat},
      takeTokens d count label indexes (tokens.map Token.text) = .ok taken ↔
        (∀ t ∈ tokens, t.Accepted d count) ∧
          taken = (tokens.flatMap (Token.denoted d)).foldl (addBy id) indexes
  | [], _, indexes, taken => by
    rw [List.map_nil, takeTokens, Except.ok.injEq]
    exact ⟨fun h => ⟨fun _ ht => absurd ht List.not_mem_nil, h.symm⟩, fun h => h.2.symm⟩
  | t :: tokens, hwell, indexes, taken => by
    obtain ⟨ht, htokens⟩ := List.forall_mem_cons.mp hwell
    rw [List.map_cons, takeTokens, bind_ok_iff, List.forall_mem_cons, List.flatMap_cons,
      List.foldl_append]
    simp only [bind_ok_iff, expanded_ok_iff ht, takeIndexes_ok_iff, takeTokens_ok_iff htokens]
    constructor
    · rintro ⟨_, ⟨⟨hshort, hordered⟩, rfl⟩, _, ⟨hbelow, rfl⟩, hrest, rfl⟩
      have hlast := hbelow _ ((mem_denoted hordered).mpr ⟨hordered, Nat.le_refl _⟩)
      exact ⟨⟨⟨hshort, hordered, hlast⟩, hrest⟩, rfl⟩
    · rintro ⟨⟨haccepted, hrest⟩, rfl⟩
      refine ⟨_, ⟨⟨haccepted.short, haccepted.ordered⟩, rfl⟩, _, ⟨fun i hi => ?_, rfl⟩, hrest, rfl⟩
      exact Nat.lt_of_le_of_lt ((mem_denoted haccepted.ordered).mp hi).2 haccepted.below

/-- **A text of the grammar**, token by token. -/
theorem parse_selects {tokens : List Token} {value : PyText} (h : Selects d tokens value)
    {count : Nat} {label : PyText} {indexes : List Nat} :
    parseVisibleIndexSelection d value count label = .ok indexes ↔
      (∀ t ∈ tokens, t.Accepted d count) ∧ Denotes d tokens indexes := by
  rw [parseVisibleIndexSelection, if_pos (fullmatch_iff.mpr ⟨tokens, h⟩), h.splitOn,
    takeTokens_ok_iff h.wellFormed, foldl_addBy, List.nil_append]
  refine and_congr_right fun haccepted => ⟨?_, fun h => h.in_order⟩
  rintro rfl
  obtain ⟨hnodup, -⟩ := nodup_chosen id [] (tokens.flatMap (Token.denoted d))
  rw [List.map_id] at hnodup
  refine ⟨rfl, hnodup, fun i => ?_⟩
  have hmem : (∃ t ∈ tokens, t.first d ≤ i ∧ i ≤ t.last d) ↔
      i ∈ tokens.flatMap (Token.denoted d) := by
    rw [List.mem_flatMap]
    exact exists_congr fun t => and_congr_right fun ht =>
      (mem_denoted (haccepted t ht).ordered).symm
  rw [hmem]
  constructor
  · exact fun hi => (chosen_sublist _ _).subset hi
  · intro hi
    rcases key_mem_chosen id [] _ i hi with ⟨j, hj, -⟩ | ⟨j, hj, rfl⟩
    · exact absurd hj List.not_mem_nil
    · exact hj

/-! ## Any text -/

/-- **A selection**: accepted are the texts of the grammar whose indexes are below the count and not
    too long for `int`, and whose ranges do not run backwards; they stand for their indexes, each in
    the place of its first. -/
theorem selection_iff (d : Decimals) (value : PyText) (count : Nat) (label : PyText)
    (indexes : List Nat) :
    parseVisibleIndexSelection d value count label = .ok indexes ↔
      ∃ tokens, Selects d tokens value ∧ (∀ t ∈ tokens, t.Accepted d count) ∧
        Denotes d tokens indexes := by
  constructor
  · intro h
    have hmatch : indexSelectionRe.rmatch (value.map d.symbol) = true := by
      rw [parseVisibleIndexSelection] at h
      split at h
      · assumption
      · cases h
    obtain ⟨tokens, hselects⟩ := fullmatch_iff.mp hmatch
    exact ⟨tokens, hselects, (parse_selects hselects).mp h⟩
  · rintro ⟨tokens, hselects, haccepted⟩
    exact (parse_selects hselects).mpr haccepted

/-- The digits of ASCII. -/
def asciiDecimals : Decimals where
  value
    | .char c => if c.isDigit then some (Fin.ofNat 10 (c.toNat - 48)) else none
    | .surrogate _ => none
  comma := rfl
  hyphen := rfl

example : (parseVisibleIndexSelection asciiDecimals (pyText "2-4,0,3") 5 []).toOption =
    some [2, 3, 4, 0] := by decide +kernel

/-- Zero, with too many digits for `int`. -/
def manyZeros : PyText := List.replicate (maxIntDigits + 1) (.char '0')

/-- **Refused**: an index below the count whose numeral is too long. -/
theorem manyZeros_refused :
    ¬ ((∃ indexes, parseVisibleIndexSelection asciiDecimals manyZeros 1 [] = .ok indexes) ↔
      ∃ tokens, Selects asciiDecimals tokens manyZeros ∧
        ∀ t ∈ tokens, t.first asciiDecimals ≤ t.last asciiDecimals ∧ t.last asciiDecimals < 1) := by
  have hnumber : ∀ n, asciiDecimals.number (List.replicate n (.char '0')) = 0 := by
    intro n
    induction n with
    | zero => rfl
    | succ n ih => exact ih
  have hselects : Selects asciiDecimals [.index manyZeros] manyZeros := by
    refine ⟨List.cons_ne_nil _ _, List.forall_mem_singleton.mpr ?_, List.intercalate_singleton.symm⟩
    refine List.forall_mem_singleton.mpr ⟨List.cons_ne_nil _ _, fun c hc => ?_⟩
    rw [List.eq_of_mem_replicate hc]
    rfl
  intro hiff
  obtain ⟨indexes, hok⟩ := hiff.mpr ⟨_, hselects, List.forall_mem_singleton.mpr
    ⟨Nat.le_refl _, Nat.lt_succ_of_le (Nat.le_of_eq (hnumber _))⟩⟩
  have hshort := ((parse_selects hselects).mp hok).1 _ List.mem_cons_self
  have hlength := hshort.short manyZeros List.mem_cons_self
  rw [manyZeros, List.length_replicate] at hlength
  exact Nat.not_succ_le_self _ hlength

end NuSelf.Runtime.Handles
