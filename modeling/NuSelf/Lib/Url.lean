/-
  URLs and their queries, cut up and put together.

  A URL is cleaned, then cut into scheme, network location, path, query and fragment.  A query is
  cut at `&`, each of its fields at the first `=`, and a field without a value is dropped: this is
  what makes an empty value and an absent one the same.

  1. `cutAt_append` — the first separator;
  2. `urlsplit_written` — a URL put together from plain parts is cut into these parts;
  3. `parseQsl_urlencode` — **an encoded query is read back, less the fields without a value**;
  4. `parseQsFirst_eq` — the first value of a name, as it stands in the query.
-/
import NuSelf.Lib.Percent

namespace NuSelf.Lib

/-! ## Cutting at a separator -/

section cutting
variable {α : Type} [DecidableEq α]

/-- What stands before the first `sep` and what stands behind it. -/
def cutAt (sep : α) : List α → Option (List α × List α)
  | [] => none
  | a :: rest =>
    if a = sep then some ([], rest)
    else (cutAt sep rest).map fun parts => (a :: parts.1, parts.2)

theorem cutAt_append {sep : α} : ∀ {front : List α}, sep ∉ front → ∀ back : List α,
    cutAt sep (front ++ sep :: back) = some (front, back)
  | [], _, _ => if_pos rfl
  | a :: front, h, back => by
    obtain ⟨hne, hfront⟩ := List.ne_and_not_mem_of_not_mem_cons h
    rw [List.cons_append, cutAt, if_neg hne.symm, cutAt_append hfront back]
    rfl

theorem cutAt_eq_none {sep : α} : ∀ {l : List α}, sep ∉ l → cutAt sep l = none
  | [], _ => rfl
  | a :: rest, h => by
    obtain ⟨hne, hrest⟩ := List.ne_and_not_mem_of_not_mem_cons h
    rw [cutAt, if_neg hne.symm, cutAt_eq_none hrest]
    rfl

end cutting

/-! ## Splitting a URL -/

structure SplitResult where
  scheme : PyText
  netloc : PyText
  path : PyText
  query : PyText
  fragment : PyText
  deriving DecidableEq

/-- `_WHATWG_C0_CONTROL_OR_SPACE`. -/
def CodePoint.isControlOrSpace : CodePoint → Bool
  | .char c => c.toNat ≤ 32
  | .surrogate _ => false

/-- What is taken out of a URL wherever it stands. -/
def takenOut (p : CodePoint) : Bool := p = .char '\t' || p = .char '\r' || p = .char '\n'

def cleaned (url : PyText) : PyText :=
  (url.dropWhile CodePoint.isControlOrSpace).filter fun p => !takenOut p

/-- `scheme_chars`. -/
def schemeChar : CodePoint → Bool
  | .char c => c.isAlphanum || c = '+' || c = '-' || c = '.'
  | .surrogate _ => false

def beginsScheme : PyText → Bool
  | .char c :: _ => c.isAlpha
  | _ => false

/-- `str.lower` of ASCII letters. -/
def lowered : PyText → PyText := List.map fun
  | .char c => .char c.toLower
  | .surrogate u => .surrogate u

def splitScheme (url : PyText) : PyText × PyText :=
  match cutAt (.char ':') url with
  | some (scheme, rest) =>
    if beginsScheme scheme && scheme.all schemeChar then (lowered scheme, rest) else ([], url)
  | none => ([], url)

def inNetloc (p : CodePoint) : Bool := !(p = .char '/' || p = .char '?' || p = .char '#')

/-- `_splitnetloc`, behind two slashes only. -/
def splitNetloc : PyText → PyText × PyText
  | .char '/' :: .char '/' :: rest => (rest.takeWhile inNetloc, rest.dropWhile inNetloc)
  | url => ([], url)

def CodePoint.isAscii : CodePoint → Bool
  | .char c => c.toNat < 128
  | .surrogate _ => false

/-- Why a network location is refused.  `refusal` is the check of a bracketed address and of what
    Unicode normalization makes of the location. -/
def checkNetloc (refusal : PyText → Option PyText) (netloc : PyText) : Option PyText :=
  if CodePoint.char '[' ∈ netloc then
    if CodePoint.char ']' ∈ netloc then refusal netloc else some (pyText "Invalid IPv6 URL")
  else if CodePoint.char ']' ∈ netloc then some (pyText "Invalid IPv6 URL")
  else if netloc.all CodePoint.isAscii then none
  else refusal netloc

def urlsplit (refusal : PyText → Option PyText) (url : PyText) : Except PyText SplitResult :=
  let (scheme, url) := splitScheme (cleaned url)
  let (netloc, url) := splitNetloc url
  match checkNetloc refusal netloc with
  | some message => .error message
  | none =>
    let (url, fragment) := (cutAt (.char '#') url).getD (url, [])
    let (path, query) := (cutAt (.char '?') url).getD (url, [])
    .ok { scheme, netloc, path, query, fragment }

/-! ## Queries -/

/-- A field with a value. -/
def fieldOf (part : PyText) : Option (PyText × PyText) :=
  (cutAt (.char '=') part).filter fun field => field.2 ≠ []

/-- The fields of a query that have a value, as they stand there. -/
def fieldsOf (query : PyText) : List (PyText × PyText) :=
  (query.splitOn (.char '&')).filterMap fieldOf

def unquoteField (field : PyText × PyText) : PyText × PyText :=
  (unquotePlus field.1, unquotePlus field.2)

/-- `parse_qsl`, with blank values dropped. -/
def parseQsl (query : PyText) : List (PyText × PyText) :=
  (fieldsOf query).map unquoteField

/-- `parse_qs(query).get(name, [None])[0]`. -/
def parseQsFirst (name query : PyText) : Option PyText := (parseQsl query).lookup name

/-- `f"{quote(k)}={quote(v)}"`. -/
def encodeField (field : PyText × PyText) : Option PyText := do
  let name ← quote field.1
  let value ← quote field.2
  return name.map .char ++ .char '=' :: value.map .char

/-- `urlencode(params, quote_via=quote)`. -/
def urlencode (params : List (PyText × PyText)) : Option PyText :=
  (params.mapM encodeField).map [CodePoint.char '&'].intercalate

/-- The first value of a name, as it stands in the query. -/
def rawFirst (name query : PyText) : Option PyText :=
  ((fieldsOf query).find? fun field => unquotePlus field.1 = name).map (·.2)

theorem parseQsFirst_eq (name query : PyText) :
    parseQsFirst name query = (rawFirst name query).map unquotePlus := by
  rw [parseQsFirst, parseQsl, rawFirst]
  induction fieldsOf query with
  | nil => rfl
  | cons field rest ih =>
    rw [List.map_cons, unquoteField, List.lookup_cons, List.find?_cons]
    by_cases hname : unquotePlus field.1 = name
    · rw [decide_eq_true hname, beq_iff_eq.mpr hname.symm]
      rfl
    · rw [decide_eq_false hname, beq_eq_false_iff_ne.mpr (Ne.symm hname)]
      exact ih

theorem rawFirst_ne_nil {name query raw : PyText} (h : rawFirst name query = some raw) :
    raw ≠ [] := by
  rw [rawFirst, Option.map_eq_some_iff] at h
  obtain ⟨field, hfind, rfl⟩ := h
  obtain ⟨part, -, hpart⟩ := List.mem_filterMap.mp (List.mem_of_find?_eq_some hfind)
  rw [fieldOf, Option.filter_eq_some_iff] at hpart
  exact of_decide_eq_true hpart.2

theorem parseQsFirst_ne_nil {name query text : PyText}
    (h : parseQsFirst name query = some text) : text ≠ [] := by
  rw [parseQsFirst_eq, Option.map_eq_some_iff] at h
  obtain ⟨raw, hraw, rfl⟩ := h
  exact unquotePlus_ne_nil (rawFirst_ne_nil hraw)

/-! ## Plain parts -/

/-- The characters of quoted texts and of the fields they make. -/
def plainChar (c : Char) : Bool := quotedChar c || c = '=' || c = '&'

def Plain (s : PyText) : Prop := ∀ p ∈ s, ∃ c, p = .char c ∧ plainChar c = true

theorem Plain.append {s t : PyText} (hs : Plain s) (ht : Plain t) : Plain (s ++ t) := fun p hp =>
  (List.mem_append.mp hp).elim (hs p) (ht p)

theorem Plain.not_mem {s : PyText} (hs : Plain s) {c : Char} (hc : plainChar c = false) :
    CodePoint.char c ∉ s := by
  intro hmem
  obtain ⟨d, heq, hd⟩ := hs _ hmem
  cases heq
  exact absurd hd (Bool.eq_false_iff.mp hc)

theorem plain_nil : Plain [] := nofun

theorem plain_cons {c : Char} (hc : plainChar c = true) {s : PyText} (hs : Plain s) :
    Plain (.char c :: s) := by
  intro p hp
  rcases List.mem_cons.mp hp with rfl | hp
  · exact ⟨c, rfl, hc⟩
  · exact hs p hp

theorem plain_of_quoted {q : List Char} (h : ∀ c ∈ q, quotedChar c = true) :
    Plain (q.map .char) := by
  intro p hp
  obtain ⟨c, hc, rfl⟩ := List.mem_map.mp hp
  exact ⟨c, rfl, by rw [plainChar, h c hc]; rfl⟩

theorem plain_pyText {s : String} (h : s.toList.all quotedChar = true) : Plain (pyText s) :=
  plain_of_quoted (List.all_eq_true.mp h)

theorem Plain.isAscii {s : PyText} (hs : Plain s) : s.all CodePoint.isAscii = true := by
  rw [List.all_eq_true]
  intro p hp
  obtain ⟨c, rfl, hc⟩ := hs p hp
  have hlt : c.toNat < 128 := by
    simp only [plainChar, Bool.or_eq_true, decide_eq_true_eq] at hc
    rcases hc with (hc | rfl) | rfl
    · exact toNat_lt_of_quotedChar hc
    · decide
    · decide
  exact decide_eq_true hlt

theorem Plain.takenOut {s : PyText} (hs : Plain s) : ∀ p ∈ s, takenOut p = false := by
  intro p hp
  rw [NuSelf.Lib.takenOut, Bool.or_eq_false_iff, Bool.or_eq_false_iff]
  refine ⟨⟨?_, ?_⟩, ?_⟩
  all_goals
    rw [decide_eq_false_iff_not]
    rintro rfl
    exact hs.not_mem (by decide) hp

theorem Plain.inNetloc {s : PyText} (hs : Plain s) : ∀ p ∈ s, inNetloc p = true := by
  intro p hp
  rw [NuSelf.Lib.inNetloc, Bool.not_eq_true', Bool.or_eq_false_iff, Bool.or_eq_false_iff]
  refine ⟨⟨?_, ?_⟩, ?_⟩
  all_goals
    rw [decide_eq_false_iff_not]
    rintro rfl
    exact hs.not_mem (by decide) hp

/-! ## Putting a URL together -/

/-- A path: nothing, or plain behind a slash. -/
def PlainPath (path : PyText) : Prop := ∀ p rest, path = p :: rest → p = .char '/' ∧ Plain rest

/-- A query with its question mark, if there is one. -/
def queryTail : Option PyText → PyText
  | none => []
  | some query => .char '?' :: query

theorem PlainPath.not_mem {path : PyText} (hpath : PlainPath path) {c : Char}
    (hc : plainChar c = false) (hslash : c ≠ '/') : CodePoint.char c ∉ path := by
  cases path with
  | nil => exact List.not_mem_nil
  | cons p rest =>
    obtain ⟨rfl, hrest⟩ := hpath p rest rfl
    intro hmem
    rcases List.mem_cons.mp hmem with heq | hmem
    · cases heq
      exact hslash rfl
    · exact hrest.not_mem hc hmem

theorem splitNetloc_written {netloc : PyText} (hnetloc : Plain netloc) {path : PyText}
    (hpath : PlainPath path) (query : Option PyText) :
    splitNetloc (.char '/' :: .char '/' :: (netloc ++ (path ++ queryTail query))) =
      (netloc, path ++ queryTail query) := by
  have hstop : (path ++ queryTail query).takeWhile inNetloc = [] ∧
      (path ++ queryTail query).dropWhile inNetloc = path ++ queryTail query := by
    cases path with
    | nil =>
      cases query with
      | none => exact ⟨rfl, rfl⟩
      | some query => exact ⟨rfl, rfl⟩
    | cons p rest =>
      obtain ⟨rfl, -⟩ := hpath p rest rfl
      exact ⟨rfl, rfl⟩
  rw [splitNetloc, List.takeWhile_append_of_pos hnetloc.inNetloc, hstop.1, List.append_nil,
    List.dropWhile_append_of_pos hnetloc.inNetloc, hstop.2]

theorem checkNetloc_plain (refusal : PyText → Option PyText) {netloc : PyText}
    (hnetloc : Plain netloc) : checkNetloc refusal netloc = none := by
  rw [checkNetloc, if_neg (hnetloc.not_mem (by decide)), if_neg (hnetloc.not_mem (by decide)),
    if_pos hnetloc.isAscii]

theorem splitScheme_written {scheme : PyText} (hbegins : beginsScheme scheme = true)
    (hchars : scheme.all schemeChar = true) (rest : PyText) :
    splitScheme (scheme ++ .char ':' :: rest) = (lowered scheme, rest) := by
  have hcolon : CodePoint.char ':' ∉ scheme := by
    intro hmem
    exact absurd (List.all_eq_true.mp hchars _ hmem) (by decide)
  rw [splitScheme, cutAt_append hcolon]
  dsimp only
  rw [hbegins, hchars]
  rfl

theorem cleaned_written {scheme : PyText} (hbegins : beginsScheme scheme = true)
    (hchars : scheme.all schemeChar = true) {rest : PyText}
    (hrest : ∀ p ∈ rest, takenOut p = false) : cleaned (scheme ++ rest) = scheme ++ rest := by
  have hscheme : ∀ p ∈ scheme, takenOut p = false := by
    intro p hp
    have hchar := List.all_eq_true.mp hchars p hp
    rw [takenOut, Bool.or_eq_false_iff, Bool.or_eq_false_iff]
    refine ⟨⟨?_, ?_⟩, ?_⟩
    all_goals
      rw [decide_eq_false_iff_not]
      rintro rfl
      exact absurd hchar (by decide)
  have hfirst : (scheme ++ rest).dropWhile CodePoint.isControlOrSpace = scheme ++ rest := by
    match scheme, hbegins with
    | .char c :: others, hbegins =>
      have hletter : ¬ c.toNat ≤ 32 := by
        have halpha : c.isAlpha = true := hbegins
        intro hle
        unfold Char.isAlpha Char.isUpper Char.isLower at halpha
        simp only [Bool.or_eq_true, Bool.and_eq_true, decide_eq_true_eq] at halpha
        rcases halpha with h | h
        · have h65 : 65 ≤ c.toNat := UInt32.le_iff_toNat_le.mp h.1
          omega
        · have h97 : 97 ≤ c.toNat := UInt32.le_iff_toNat_le.mp h.1
          omega
      rw [List.cons_append, List.dropWhile_cons_of_neg]
      rw [CodePoint.isControlOrSpace, decide_eq_true_eq]
      exact hletter
  rw [cleaned, hfirst, List.filter_eq_self]
  intro p hp
  rcases List.mem_append.mp hp with hp | hp
  · rw [hscheme p hp]
    rfl
  · rw [hrest p hp]
    rfl

/-- **A URL put together from plain parts is cut into these parts.** -/
theorem urlsplit_written (refusal : PyText → Option PyText) {scheme netloc path : PyText}
    {query : Option PyText} (hbegins : beginsScheme scheme = true)
    (hchars : scheme.all schemeChar = true) (hnetloc : Plain netloc) (hpath : PlainPath path)
    (hquery : ∀ q ∈ query, Plain q) :
    urlsplit refusal (scheme ++ .char ':' :: .char '/' :: .char '/' ::
        (netloc ++ (path ++ queryTail query))) =
      .ok { scheme := lowered scheme, netloc, path, query := query.getD [], fragment := [] } := by
  have hpathquery : ∀ {c : Char}, plainChar c = false → c ≠ '/' → c ≠ '?' →
      CodePoint.char c ∉ path ++ queryTail query := by
    intro c hc hslash hmark hmem
    rcases List.mem_append.mp hmem with hmem | hmem
    · exact hpath.not_mem hc hslash hmem
    · cases query with
      | none => exact absurd hmem List.not_mem_nil
      | some q =>
        rcases List.mem_cons.mp hmem with heq | hmem
        · cases heq
          exact hmark rfl
        · exact (hquery q rfl).not_mem hc hmem
  have htaken : ∀ p ∈ CodePoint.char ':' :: .char '/' :: .char '/' ::
      (netloc ++ (path ++ queryTail query)), takenOut p = false := by
    intro p hp
    rcases List.mem_cons.mp hp with rfl | hp
    · rfl
    rcases List.mem_cons.mp hp with rfl | hp
    · rfl
    rcases List.mem_cons.mp hp with rfl | hp
    · rfl
    rcases List.mem_append.mp hp with hp | hp
    · exact hnetloc.takenOut p hp
    rw [takenOut, Bool.or_eq_false_iff, Bool.or_eq_false_iff]
    refine ⟨⟨?_, ?_⟩, ?_⟩
    all_goals
      rw [decide_eq_false_iff_not]
      rintro rfl
      exact hpathquery (by decide) (by decide) (by decide) hp
  have hcut : (cutAt (.char '?') (path ++ queryTail query)).getD (path ++ queryTail query, []) =
      (path, query.getD []) := by
    have hmark : CodePoint.char '?' ∉ path := hpath.not_mem (by decide) (by decide)
    cases query with
    | none =>
      rw [queryTail, List.append_nil, cutAt_eq_none hmark]
      rfl
    | some q =>
      rw [queryTail, cutAt_append hmark]
      rfl
  rw [urlsplit, cleaned_written hbegins hchars htaken, splitScheme_written hbegins hchars]
  dsimp only
  rw [splitNetloc_written hnetloc hpath]
  dsimp only
  rw [checkNetloc_plain refusal hnetloc]
  dsimp only
  rw [cutAt_eq_none (hpathquery (by decide) (by decide) (by decide)), Option.getD_none]
  dsimp only
  rw [hcut]

/-! ## Encoded queries -/

theorem encodeField_spec {field : PyText × PyText} {part : PyText}
    (h : encodeField field = some part) :
    Plain part ∧ CodePoint.char '&' ∉ part ∧
      (fieldOf part).map unquoteField = if field.2 = [] then none else some field := by
  rw [encodeField, Option.bind_eq_bind, Option.bind_eq_some_iff] at h
  obtain ⟨name, hname, h⟩ := h
  rw [Option.bind_eq_some_iff] at h
  obtain ⟨value, hvalue, h⟩ := h
  cases h
  have hplain : Plain (name.map CodePoint.char ++ .char '=' :: value.map .char) :=
    (plain_of_quoted fun _ => quotedChar_of_quote hname).append
      (plain_cons (by decide) (plain_of_quoted fun _ => quotedChar_of_quote hvalue))
  have hfree : ∀ {s : PyText} {q : List Char} {c : Char}, quote s = some q → quotedChar c = false →
      CodePoint.char c ∉ q.map CodePoint.char := by
    intro s q c hq hc hmem
    obtain ⟨d, hd, heq⟩ := List.mem_map.mp hmem
    cases heq
    exact absurd (quotedChar_of_quote hq hd) (Bool.eq_false_iff.mp hc)
  refine ⟨hplain, ?_, ?_⟩
  · intro hmem
    rcases List.mem_append.mp hmem with hmem | hmem
    · exact hfree hname (by decide) hmem
    rcases List.mem_cons.mp hmem with heq | hmem
    · cases heq
    · exact hfree hvalue (by decide) hmem
  · rw [fieldOf, cutAt_append (hfree hname (by decide))]
    by_cases hempty : field.2 = []
    · have hnil : value = [] := by
        rw [hempty] at hvalue
        cases hvalue
        rfl
      rw [if_pos hempty, hnil]
      rfl
    · have hne : value.map CodePoint.char ≠ [] := by
        intro hnil
        refine hempty ?_
        rw [← unquote_quote hvalue, hnil]
        rfl
      rw [if_neg hempty, Option.filter_some, if_pos (decide_eq_true hne), Option.map_some,
        unquoteField, unquotePlus_quote hname, unquotePlus_quote hvalue]

theorem encodeFields_spec : ∀ {params : List (PyText × PyText)} {parts : List PyText},
    params.mapM encodeField = some parts →
    (∀ part ∈ parts, Plain part ∧ CodePoint.char '&' ∉ part) ∧
      (parts.filterMap fieldOf).map unquoteField = params.filter fun field => field.2 ≠ []
  | [], _, h => by
    cases h
    exact ⟨nofun, rfl⟩
  | field :: params, _, h => by
    rw [List.mapM_cons, Option.bind_eq_bind, Option.bind_eq_some_iff] at h
    obtain ⟨part, hpart, h⟩ := h
    rw [Option.bind_eq_bind, Option.bind_eq_some_iff] at h
    obtain ⟨parts, hparts, h⟩ := h
    cases h
    obtain ⟨hplain, hfree, hread⟩ := encodeField_spec hpart
    obtain ⟨hall, hrest⟩ := encodeFields_spec hparts
    refine ⟨?_, ?_⟩
    · intro other hother
      rcases List.mem_cons.mp hother with rfl | hother
      · exact ⟨hplain, hfree⟩
      · exact hall other hother
    · rw [List.filter_cons, List.filterMap_cons]
      by_cases hempty : field.2 = []
      · rw [if_pos hempty, Option.map_eq_none_iff] at hread
        rw [hread, if_neg (by simp [hempty])]
        exact hrest
      · rw [if_neg hempty, Option.map_eq_some_iff] at hread
        obtain ⟨raw, hraw, heq⟩ := hread
        rw [hraw, if_pos (by simp [hempty]), List.map_cons, heq, hrest]

/-- **An encoded query is read back, less the fields without a value.** -/
theorem parseQsl_urlencode {params : List (PyText × PyText)} {query : PyText}
    (h : urlencode params = some query) :
    parseQsl query = params.filter fun field => field.2 ≠ [] := by
  rw [urlencode, Option.map_eq_some_iff] at h
  obtain ⟨parts, hparts, rfl⟩ := h
  obtain ⟨hall, hread⟩ := encodeFields_spec hparts
  rw [parseQsl, fieldsOf, ← hread]
  cases parts with
  | nil => rfl
  | cons part rest =>
    rw [List.splitOn_intercalate _ (fun other hother => (hall other hother).2)
      (List.cons_ne_nil _ _)]

theorem plain_intercalate : ∀ {parts : List PyText}, (∀ part ∈ parts, Plain part) →
    Plain ([CodePoint.char '&'].intercalate parts)
  | [], _ => plain_nil
  | [part], h => by
    rw [List.intercalate_singleton]
    exact h part List.mem_cons_self
  | part :: next :: rest, h => by
    rw [List.intercalate_cons_cons, List.append_assoc, List.singleton_append]
    refine (h part List.mem_cons_self).append (plain_cons (by decide) ?_)
    exact plain_intercalate fun other hother => h other (List.mem_cons_of_mem _ hother)

theorem plain_urlencode {params : List (PyText × PyText)} {query : PyText}
    (h : urlencode params = some query) : Plain query := by
  rw [urlencode, Option.map_eq_some_iff] at h
  obtain ⟨parts, hparts, rfl⟩ := h
  exact plain_intercalate fun part hpart => ((encodeFields_spec hparts).1 part hpart).1

theorem encodeField_isSome_iff (field : PyText × PyText) :
    (encodeField field).isSome ↔ Encodable field.1 ∧ Encodable field.2 := by
  rw [← quote_isSome_iff, ← quote_isSome_iff, encodeField]
  cases quote field.1 with
  | none => exact iff_of_false nofun fun h => Bool.false_ne_true h.1
  | some name =>
    cases quote field.2 with
    | none => exact iff_of_false nofun fun h => Bool.false_ne_true h.2
    | some value => exact iff_of_true rfl ⟨rfl, rfl⟩

theorem urlencode_isSome_iff : ∀ params : List (PyText × PyText),
    (urlencode params).isSome ↔ ∀ field ∈ params, Encodable field.1 ∧ Encodable field.2
  | [] => iff_of_true rfl nofun
  | field :: rest => by
    have ih := urlencode_isSome_iff rest
    rw [urlencode, Option.isSome_map] at ih
    rw [List.forall_mem_cons, ← encodeField_isSome_iff, ← ih, urlencode, Option.isSome_map,
      List.mapM_cons]
    cases encodeField field with
    | none => exact iff_of_false nofun fun h => Bool.false_ne_true h.1
    | some part =>
      cases rest.mapM encodeField with
      | none => exact iff_of_false nofun fun h => Bool.false_ne_true h.2
      | some parts => exact iff_of_true rfl ⟨rfl, rfl⟩

end NuSelf.Lib
