/-
  Lines of a text, and of the bytes that it is written in.

  Bytes end their lines with line feeds and carriage returns, texts have more line ends
  (`isLineBoundary`), so that one line of the bytes may be several lines of the text.  What a line
  says is its text without margins (`said`).  Cut in its margins, it says what it said before; cut
  anywhere else, it says more than one thing.

  1. `splitOnP_flatMap` — cutting at more places is cutting every piece again.
  2. `said_of_unbroken`, `said_of_broken` — what the pieces of a line say.
  3. `splitLinesFrom_utf8` — the lines of the bytes of a text.
-/
import NuSelf.Lib.ByteLines
import NuSelf.Lib.Lines
import NuSelf.Lib.Utf8

namespace NuSelf.Lib

/-! ## Cutting a list -/

section

variable {α : Type} {p q : α → Bool}

/-- Induction from one place to cut to the next: nothing to cut, or the front up to the first such
    place and the rest. -/
@[elab_as_elim]
theorem splitOnP_induction (p : α → Bool) {motive : List α → Prop} (l : List α)
    (whole : ∀ l : List α, (∀ c ∈ l, p c = false) → motive l)
    (cut : ∀ (a : List α) (d : α) (b : List α), (∀ c ∈ a, p c = false) → p d = true → motive b →
      motive (a ++ d :: b)) : motive l := by
  suffices h : ∀ a l : List α, (∀ c ∈ a, p c = false) → motive (a ++ l) from h [] l nofun
  intro a l
  induction l generalizing a with
  | nil =>
    intro ha
    rw [List.append_nil]
    exact whole a ha
  | cons d b ih =>
    intro ha
    by_cases hd : p d = true
    · exact cut a d b ha hd (ih [] nofun)
    · rw [List.append_cons]
      refine ih (a ++ [d]) (List.forall_mem_append.mpr ⟨ha, ?_⟩)
      exact List.forall_mem_singleton.mpr (Bool.eq_false_iff.mpr hd)

/-- **Cutting at more places** is cutting every piece again. -/
theorem splitOnP_flatMap (hpq : ∀ c, p c = true → q c = true) (l : List α) :
    l.splitOnP q = (l.splitOnP p).flatMap fun piece => piece.splitOnP q := by
  induction l using splitOnP_induction p with
  | whole l hl => rw [List.splitOnP_eq_singleton hl, List.flatMap_singleton]
  | cut a d b ha hd ih =>
    rw [List.splitOnP_append_cons a b (hpq d hd), List.splitOnP_append_cons a b hd,
      List.flatMap_append, ← ih, List.splitOnP_eq_singleton ha, List.flatMap_singleton]

/-- The lines of a list, `line` being read; what ends a line is left out. -/
def linesFrom (p : α → Bool) (line : List α) : List α → List (List α)
  | [] => if line.isEmpty then [] else [line]
  | c :: rest => if p c then line :: linesFrom p [] rest else linesFrom p (line ++ [c]) rest

theorem linesFrom_end {d : α} (hd : p d = true) (line rest : List α) :
    linesFrom p line (d :: rest) = line :: linesFrom p [] rest := if_pos hd

theorem linesFrom_terminated {d : α} (hd : p d = true) : ∀ (l line : List α),
    linesFrom p line (l ++ [d]) = l.splitOnPPrepend p line.reverse
  | [], line => by
    rw [List.nil_append, linesFrom_end hd, List.splitOnPPrepend_nil, List.reverse_reverse]
    rfl
  | c :: l, line => by
    rw [List.cons_append, linesFrom, List.splitOnPPrepend_cons_eq_if]
    split
    · rw [linesFrom_terminated hd l [], List.reverse_nil, List.splitOnPPrepend_nil_right,
        List.reverse_reverse]
    · rw [linesFrom_terminated hd l (line ++ [c]), List.reverse_append]
      rfl

end

/-! ## What lines say -/

/-- A text without its margins, if there is any. -/
def said (line : List Char) : Option (List Char) :=
  if stripChars line = [] then none else some (stripChars line)

theorem said_eq_none_iff {line : List Char} : said line = none ↔ ∀ c ∈ line, isSpace c = true := by
  rw [said, ← stripChars_eq_nil_iff]
  split
  · rename_i h
    exact iff_of_true rfl h
  · rename_i h
    exact iff_of_false (Option.some_ne_none _) h

theorem said_of_ne {line : List Char} (h : said line ≠ none) :
    said line = some (stripChars line) := by
  rw [said] at h ⊢
  split
  · rename_i hnil
    exact absurd (if_pos hnil) h
  · rfl

theorem said_congr {line line' : List Char} (h : stripChars line = stripChars line') :
    said line = said line' := by
  rw [said, said, h]

/-- Around a white space character: one side is blank, or the character lies inside. -/
theorem stripChars_append_cons {a b : List Char} {d : Char} (hd : isSpace d = true) :
    (said a = none ∧ stripChars (a ++ d :: b) = stripChars b) ∨
      (said b = none ∧ stripChars (a ++ d :: b) = stripChars a) ∨
        (said a ≠ none ∧ said b ≠ none ∧ d ∈ stripChars (a ++ d :: b)) := by
  by_cases ha : said a = none
  · refine .inl ⟨ha, ?_⟩
    have hspace : ∀ c ∈ a ++ [d], isSpace c = true :=
      List.forall_mem_append.mpr ⟨said_eq_none_iff.mp ha, List.forall_mem_singleton.mpr hd⟩
    rw [List.append_cons, stripChars_append_left hspace]
  · by_cases hb : said b = none
    · refine .inr (.inl ⟨hb, stripChars_append_right ?_ a⟩)
      exact List.forall_mem_cons.mpr ⟨hd, said_eq_none_iff.mp hb⟩
    · refine .inr (.inr ⟨ha, hb, ?_⟩)
      have hfront : a.dropWhile isSpace ≠ [] := by
        intro hnil
        exact ha (said_eq_none_iff.mpr (List.dropWhile_eq_nil_iff.mp hnil))
      have hback : b.rdropWhile isSpace ≠ [] := by
        intro hnil
        exact hb (said_eq_none_iff.mpr (List.rdropWhile_eq_nil_iff.mp hnil))
      have hcons : (d :: b).rdropWhile isSpace = d :: b.rdropWhile isSpace := by
        rw [rdropWhile_cons, if_neg fun h => hback h.1]
      have hempty : (a.dropWhile isSpace).isEmpty = false := List.isEmpty_eq_false_iff.mpr hfront
      rw [stripChars, List.dropWhile_append, hempty, if_neg Bool.false_ne_true,
        rdropWhile_append_of_visible (by rw [hcons]; exact List.cons_ne_nil _ _), hcons]
      exact List.mem_append_right _ List.mem_cons_self

section

variable {q : Char → Bool}

theorem said_pieces_cut {a b : List Char} {d : Char} (ha : ∀ c ∈ a, q c = false)
    (hd : q d = true) : ((a ++ d :: b).splitOnP q).filterMap said =
      (said a).toList ++ (b.splitOnP q).filterMap said := by
  rw [List.splitOnP_append_cons a b hd, List.filterMap_append, List.splitOnP_eq_singleton ha,
    List.filterMap_cons]
  cases said a <;> rfl

theorem said_pieces_nil_iff (hq : ∀ c, q c = true → isSpace c = true) (line : List Char) :
    (line.splitOnP q).filterMap said = [] ↔ said line = none := by
  induction line using splitOnP_induction q with
  | whole line hline =>
    rw [List.splitOnP_eq_singleton hline, List.filterMap_cons]
    cases said line with
    | none => exact iff_of_true rfl rfl
    | some text => exact iff_of_false (List.cons_ne_nil _ _) (Option.some_ne_none _)
  | cut a d b ha hd ih =>
    have hfront : (said a).toList = [] ↔ said a = none := by
      cases said a with
      | none => exact iff_of_true rfl rfl
      | some text => exact iff_of_false (List.cons_ne_nil _ _) (Option.some_ne_none _)
    rw [said_pieces_cut ha hd, List.append_eq_nil_iff, ih, hfront, said_eq_none_iff,
      said_eq_none_iff, said_eq_none_iff, List.forall_mem_append, List.forall_mem_cons]
    exact and_congr_right fun _ => (and_iff_right (hq d hd)).symm

/-- **A line that is cut in its margins** says what it said before. -/
theorem said_of_unbroken (hq : ∀ c, q c = true → isSpace c = true) {line : List Char}
    (h : ∀ c ∈ stripChars line, q c = false) :
    (line.splitOnP q).filterMap said = (said line).toList := by
  induction line using splitOnP_induction q with
  | whole line hline =>
    rw [List.splitOnP_eq_singleton hline, List.filterMap_cons]
    cases said line <;> rfl
  | cut a d b ha hd ih =>
    rw [said_pieces_cut ha hd]
    rcases stripChars_append_cons (hq d hd) with ⟨hblank, hstrip⟩ | ⟨hblank, hstrip⟩ | ⟨-, -, hmem⟩
    · rw [hblank, said_congr hstrip]
      exact ih (hstrip ▸ h)
    · rw [(said_pieces_nil_iff hq b).mpr hblank, said_congr hstrip, List.append_nil]
    · rw [h d hmem] at hd
      cases hd

/-- **A line that is cut anywhere else** says more than one thing. -/
theorem said_of_broken (hq : ∀ c, q c = true → isSpace c = true) {line : List Char} {c : Char}
    (hc : c ∈ stripChars line) (hcut : q c = true) :
    2 ≤ ((line.splitOnP q).filterMap said).length := by
  have hsubset : ∀ {l : List Char}, c ∈ stripChars l → c ∈ l := fun hc =>
    (List.dropWhile_sublist isSpace).subset ((List.rdropWhile_prefix isSpace _).subset hc)
  induction line using splitOnP_induction q with
  | whole line hline =>
    rw [hline c (hsubset hc)] at hcut
    cases hcut
  | cut a d b ha hd ih =>
    rw [said_pieces_cut ha hd, List.length_append]
    rcases stripChars_append_cons (hq d hd) with ⟨hblank, hstrip⟩ | ⟨-, hstrip⟩ | ⟨hfront, hback, -⟩
    · rw [hblank]
      exact Nat.le_add_left_of_le (ih (hstrip ▸ hc))
    · -- all of the line is in front, where no place to cut is
      rw [ha c (hsubset (hstrip ▸ hc))] at hcut
      cases hcut
    · have hsome : ((b.splitOnP q).filterMap said).length ≠ 0 := by
        intro hzero
        exact hback ((said_pieces_nil_iff hq b).mp (List.length_eq_zero_iff.mp hzero))
      rw [said_of_ne hfront]
      show 2 ≤ 1 + _
      omega

theorem said_flatMap (hq : ∀ c, q c = true → isSpace c = true) : ∀ {lines : List (List Char)},
    (∀ line ∈ lines, ∀ c ∈ stripChars line, q c = false) →
      (lines.flatMap fun line => line.splitOnP q).filterMap said = lines.filterMap said
  | [], _ => rfl
  | line :: rest, h => by
    obtain ⟨hline, hrest⟩ := List.forall_mem_cons.mp h
    rw [List.flatMap_cons, List.filterMap_append, said_of_unbroken hq hline, said_flatMap hq hrest,
      List.filterMap_cons]
    cases said line <;> rfl

theorem said_length_le (line : List Char) : (said line).toList.length ≤ 1 := by
  cases said line with
  | none => exact Nat.zero_le 1
  | some text => exact Nat.le_refl 1

theorem said_pieces_length (hq : ∀ c, q c = true → isSpace c = true) (line : List Char) :
    (said line).toList.length ≤ ((line.splitOnP q).filterMap said).length := by
  by_cases h : ∃ c ∈ stripChars line, q c = true
  · obtain ⟨c, hc, hcut⟩ := h
    have htwo := said_of_broken hq hc hcut
    have hone := said_length_le line
    omega
  · rw [said_of_unbroken hq fun c hc => Bool.eq_false_iff.mpr fun hcut => h ⟨c, hc, hcut⟩]

theorem said_length_cons (line : List Char) (rest : List (List Char)) :
    ((line :: rest).filterMap said).length =
      (said line).toList.length + (rest.filterMap said).length := by
  rw [List.filterMap_cons]
  cases said line with
  | none => exact (Nat.zero_add _).symm
  | some text => exact Nat.add_comm _ 1

theorem said_flatMap_length (hq : ∀ c, q c = true → isSpace c = true) (lines : List (List Char)) :
    (lines.filterMap said).length ≤
      ((lines.flatMap fun line => line.splitOnP q).filterMap said).length := by
  induction lines with
  | nil => exact Nat.le_refl 0
  | cons line rest ih =>
    rw [said_length_cons, List.flatMap_cons, List.filterMap_append, List.length_append]
    exact Nat.add_le_add (said_pieces_length hq line) ih

/-- **Nothing is cut in two** if the pieces say as many things as the lines. -/
theorem unbroken_of_length (hq : ∀ c, q c = true → isSpace c = true) :
    ∀ {lines : List (List Char)},
      ((lines.flatMap fun line => line.splitOnP q).filterMap said).length =
        (lines.filterMap said).length → ∀ line ∈ lines, ∀ c ∈ stripChars line, q c = false
  | [], _ => fun _ hline => absurd hline List.not_mem_nil
  | line :: rest, h => by
    rw [said_length_cons, List.flatMap_cons, List.filterMap_append, List.length_append] at h
    have hone := said_length_le line
    have hfirst := said_pieces_length hq line
    have hmore := said_flatMap_length hq rest
    refine List.forall_mem_cons.mpr ⟨fun c hc => Bool.eq_false_iff.mpr fun hcut => ?_, ?_⟩
    · have htwo := said_of_broken hq hc hcut
      omega
    · exact unbroken_of_length hq (by omega)

end

/-! ## Lines of a text -/

/-- What ends a line of a text besides a carriage return. -/
def isLineBoundary (c : Char) : Bool :=
  [0x0a, 0x0b, 0x0c, 0x1c, 0x1d, 0x1e, 0x85, 0x2028, 0x2029].contains c.toNat

/-- `str.splitlines()`; a carriage return ends a line too, together with a line feed behind it. -/
def strLines (text : List Char) : List (List Char) :=
  linesFrom isLineBoundary [] (universalNewlines text)

theorem isSpace_of_isLineBoundary (c : Char) (h : isLineBoundary c = true) : isSpace c = true := by
  have hcases : c.toNat = 0x0a ∨ c.toNat = 0x0b ∨ c.toNat = 0x0c ∨ c.toNat = 0x1c ∨
      c.toNat = 0x1d ∨ c.toNat = 0x1e ∨ c.toNat = 0x85 ∨ c.toNat = 0x2028 ∨ c.toNat = 0x2029 := by
    simpa [isLineBoundary] using h
  rw [isSpace]
  rcases hcases with h | h | h | h | h | h | h | h | h
  all_goals
    rw [h]
    rfl

theorem getLast?_universalNewlines (text : List Char) (h : text.getLast? = some '\n') :
    (universalNewlines text).getLast? = some '\n' := by
  have hstep : ∀ rest : List Char, (rest ≠ [] → (universalNewlines rest).getLast? = some '\n') →
      ∀ c : Char, (rest = [] → c = '\n') → (c :: universalNewlines rest).getLast? = some '\n' := by
    intro rest hrest c hc
    cases rest with
    | nil => rw [hc rfl, universalNewlines, List.getLast?_singleton]
    | cons d rest =>
      have hlast := hrest (List.cons_ne_nil d rest)
      have hne : universalNewlines (d :: rest) ≠ [] := by
        intro hnil
        rw [hnil] at hlast
        cases hlast
      rw [List.getLast?_cons_of_ne_nil hne, hlast]
  fun_induction universalNewlines text with
  | case1 => exact h
  | case2 rest ih =>
    refine hstep rest (fun hne => ih ?_) '\n' fun _ => rfl
    rwa [List.getLast?_cons_of_ne_nil (List.cons_ne_nil _ _), List.getLast?_cons_of_ne_nil hne] at h
  | case3 rest hpair ih =>
    refine hstep rest (fun hne => ih ?_) '\n' fun _ => rfl
    rwa [List.getLast?_cons_of_ne_nil hne] at h
  | case4 c rest hpair hreturn ih =>
    refine hstep rest (fun hne => ih ?_) c fun hnil => ?_
    · rwa [List.getLast?_cons_of_ne_nil hne] at h
    · subst hnil
      exact Option.some.inj h

/-! ## Bytes of a text -/

theorem eq_newline_of_mem {c : Char} (h : 10 ∈ String.utf8EncodeChar c) : c = '\n' :=
  Char.toNat_inj.mp (toNat_of_mem_utf8EncodeChar h (by decide))

theorem eq_return_of_mem {c : Char} (h : 13 ∈ String.utf8EncodeChar c) : c = '\r' :=
  Char.toNat_inj.mp (toNat_of_mem_utf8EncodeChar h (by decide))

/-! ## Lines of the bytes of a text -/

theorem splitLinesFrom_skip : ∀ (bytes line : List UInt8) (rest : List UInt8),
    10 ∉ bytes → 13 ∉ bytes →
      splitLinesFrom line false (bytes ++ rest) = splitLinesFrom (line ++ bytes) false rest
  | [], line, rest, _, _ => by rw [List.nil_append, List.append_nil]
  | b :: bytes, line, rest, hfeed, hreturn => by
    rw [List.mem_cons, not_or] at hfeed hreturn
    rw [List.cons_append, splitLinesFrom, if_neg (Ne.symm hfeed.1), if_neg (Ne.symm hreturn.1),
      splitLinesFrom_skip bytes _ rest hfeed.2 hreturn.2, ← List.append_cons]

theorem splitLinesFrom_afterReturn {bytes : List UInt8} (h : bytes.head? ≠ some 10)
    (line : List UInt8) : splitLinesFrom line true bytes = splitLinesFrom line false bytes := by
  cases bytes with
  | nil => rfl
  | cons b bytes =>
    have hb : b ≠ 10 := by
      rintro rfl
      exact h rfl
    rw [splitLinesFrom, splitLinesFrom, if_neg hb, if_neg hb]

theorem head?_utf8_ne {text : List Char} (h : ∀ rest, text ≠ '\n' :: rest) :
    (utf8 text).head? ≠ some 10 := by
  intro hhead
  cases text with
  | nil => cases hhead
  | cons c text =>
    rw [utf8_cons, List.head?_append_of_ne_nil _ (utf8EncodeChar_ne_nil c)] at hhead
    exact h text (by rw [eq_newline_of_mem (List.mem_of_head? hhead)])

/-- **The lines of the bytes of a text** are its lines, if only carriage returns and line feeds end
    them. -/
theorem splitLinesFrom_utf8 (text line : List Char) : splitLinesFrom (utf8 line) false (utf8 text) =
    (linesFrom (· == '\n') line (universalNewlines text)).map utf8 := by
  fun_induction universalNewlines text generalizing line with
  | case1 =>
    cases line with
    | nil => rfl
    | cons c line =>
      have hne : utf8 (c :: line) ≠ [] := by
        rw [utf8_cons]
        exact List.append_ne_nil_of_left_ne_nil (utf8EncodeChar_ne_nil c) _
      show splitLinesFrom (utf8 (c :: line)) false [] = [utf8 (c :: line)]
      rw [splitLinesFrom, if_neg hne]
  | case2 rest ih =>
    show utf8 line :: splitLinesFrom [] false (utf8 rest) = _
    rw [linesFrom_end rfl, List.map_cons, ← ih []]
    rfl
  | case3 rest hpair ih =>
    show utf8 line :: splitLinesFrom [] true (utf8 rest) = _
    rw [splitLinesFrom_afterReturn (head?_utf8_ne hpair), linesFrom_end rfl, List.map_cons, ← ih []]
    rfl
  | case4 c rest hpair hreturn ih =>
    by_cases hfeed : c = '\n'
    · subst hfeed
      show utf8 line :: splitLinesFrom [] false (utf8 rest) = _
      rw [linesFrom_end rfl, List.map_cons, ← ih []]
      rfl
    · rw [utf8_cons, splitLinesFrom_skip _ _ _ (fun h => hfeed (eq_newline_of_mem h))
        (fun h => hreturn (eq_return_of_mem h)), linesFrom, if_neg (by simpa using hfeed),
        ← ih (line ++ [c]), utf8_append, utf8_cons, utf8_nil, List.append_nil]

theorem universalNewlines_idem (text : List Char) :
    universalNewlines (universalNewlines text) = universalNewlines text :=
  universalNewlines_eq_self_iff.mpr (not_mem_universalNewlines text)

/-- **The lines of a text** that ends in a line feed are the lines of its bytes, each taken apart. -/
theorem strLines_flatMap {text : List Char} (h : text ≠ [] → text.getLast? = some '\n') :
    strLines text = (linesFrom (· == '\n') [] (universalNewlines text)).flatMap fun line =>
      line.splitOnP isLineBoundary := by
  rw [strLines]
  cases text with
  | nil => rfl
  | cons c rest =>
    have hlast := getLast?_universalNewlines _ (h (List.cons_ne_nil c rest))
    obtain ⟨body, hbody⟩ := List.getLast?_eq_some_iff.mp hlast
    rw [hbody, linesFrom_terminated rfl, linesFrom_terminated rfl, List.reverse_nil,
      List.splitOnPPrepend_nil_right, List.splitOnPPrepend_nil_right]
    exact splitOnP_flatMap (fun c hc => by rw [eq_of_beq hc]; rfl) body

theorem getLast?_of_whole {text : List Char} (h : Whole (utf8 text)) (hne : text ≠ []) :
    text.getLast? = some '\n' := by
  obtain ⟨c, hc⟩ : ∃ c, text.getLast? = some c := ⟨_, List.getLast?_eq_some_getLast hne⟩
  obtain ⟨init, rfl⟩ := List.getLast?_eq_some_iff.mp hc
  have hbytes : utf8 (init ++ [c]) = utf8 init ++ String.utf8EncodeChar c := by
    rw [utf8_append, utf8_cons, utf8_nil, List.append_nil]
  have hlast := h.getLast? (by
    rw [hbytes]
    exact List.append_ne_nil_of_right_ne_nil _ (utf8EncodeChar_ne_nil c))
  rw [hbytes, List.getLast?_append_of_ne_nil _ (utf8EncodeChar_ne_nil c)] at hlast
  rw [hc, eq_newline_of_mem (List.mem_of_getLast? hlast)]

end NuSelf.Lib
