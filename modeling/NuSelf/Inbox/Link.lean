/-
  Deep links: what an inbox item opens, as a URL.

  A link is written with every text that is given, and read by way of a query parser that drops the
  fields without a value.  So an empty title, message or candidate id is written and not read, and
  a text with a surrogate of its own, which UTF-8 cannot carry, is not written at all.  Everything
  else survives, reserved characters among it.

  1. `toUrl_ok_iff` — which links can be written;
  2. `parse_toUrl` — what is read from a written link: **the link without its empty texts**;
  3. `parse_spec` — what is read from an arbitrary URL has no empty text;
  4. `survives_to_url_iff` — **exactly when a link survives**;
  5. `empty_title_lost` — an empty title.
-/
import NuSelf.Lib.Url

namespace NuSelf.Inbox

open NuSelf.Lib

inductive DeepLinkAction where
  | open_conversation | new_conversation
  deriving DecidableEq

structure DeepLink where
  action : DeepLinkAction
  conversation_id : Option PyText := none
  title : Option PyText := none
  message : Option PyText := none
  candidate_id : Option PyText := none
  deriving DecidableEq

inductive LinkError where
  /-- `ValueError(message)`. -/
  | value (message : PyText)
  /-- `UnicodeEncodeError`. -/
  | encode
  deriving DecidableEq

namespace DeepLink

/-! ## Reading -/

def conversationPath : PyText := pyText "/conversation/"

/-- The path, with the network location as its first segment. -/
def pathOf (parsed : SplitResult) : PyText :=
  if parsed.netloc ≠ [] then .char '/' :: (parsed.netloc ++ parsed.path) else parsed.path

def opened (conversation_id query : PyText) : DeepLink where
  action := .open_conversation
  conversation_id := some conversation_id
  message := parseQsFirst (pyText "message") query

def created (query : PyText) : DeepLink where
  action := .new_conversation
  title := parseQsFirst (pyText "title") query
  message := parseQsFirst (pyText "message") query
  candidate_id := parseQsFirst (pyText "candidate_id") query

/-- `parse`, behind `urlparse`. -/
def read (parsed : SplitResult) : Except LinkError DeepLink :=
  if parsed.scheme ≠ pyText "nuself" then
    .error (.value (pyText "unsupported deep link scheme: " ++ parsed.scheme))
  else if parsed.fragment ≠ [] then
    .error (.value (pyText "deep link fragments are not supported"))
  else if conversationPath <+: pathOf parsed then
    let conversation_id := unquote ((pathOf parsed).drop conversationPath.length)
    if conversation_id = [] then .error (.value (pyText "deep link missing conversation id"))
    else .ok (opened conversation_id parsed.query)
  else if pathOf parsed = pyText "/new-conversation" ∨ parsed.netloc = pyText "new-conversation" then
    .ok (created parsed.query)
  else .error (.value (pyText "unsupported deep link path: " ++ pathOf parsed))

def parse (refusal : PyText → Option PyText) (url : PyText) : Except LinkError DeepLink :=
  match urlsplit refusal url with
  | .error message => .error (.value message)
  | .ok parsed => read parsed

theorem read_eq_ok_iff {parsed : SplitResult} {link : DeepLink} :
    read parsed = .ok link ↔ parsed.scheme = pyText "nuself" ∧ parsed.fragment = [] ∧
      ((∃ rest, pathOf parsed = conversationPath ++ rest ∧ unquote rest ≠ [] ∧
          link = opened (unquote rest) parsed.query) ∨
        (¬ conversationPath <+: pathOf parsed ∧
          (pathOf parsed = pyText "/new-conversation" ∨
            parsed.netloc = pyText "new-conversation") ∧
          link = created parsed.query)) := by
  rw [read]
  by_cases hscheme : parsed.scheme = pyText "nuself"
  swap
  · rw [if_pos hscheme]
    exact iff_of_false nofun fun h => hscheme h.1
  by_cases hfragment : parsed.fragment = []
  swap
  · rw [if_neg (not_not.mpr hscheme), if_pos hfragment]
    exact iff_of_false nofun fun h => hfragment h.2.1
  rw [if_neg (not_not.mpr hscheme), if_neg (not_not.mpr hfragment), and_iff_right hscheme,
    and_iff_right hfragment]
  by_cases hopen : conversationPath <+: pathOf parsed
  · rw [if_pos hopen, or_iff_left fun h => h.1 hopen]
    obtain ⟨rest, hrest⟩ := hopen
    rw [← hrest, List.drop_left]
    dsimp only
    split
    · rename_i hempty
      refine iff_of_false nofun ?_
      rintro ⟨other, hother, hne, -⟩
      exact hne (List.append_cancel_left hother ▸ hempty)
    · rename_i hne
      constructor
      · intro h
        cases h
        exact ⟨rest, rfl, hne, rfl⟩
      · rintro ⟨other, hother, -, rfl⟩
        rw [List.append_cancel_left hother]
  · have hnever : ¬ ∃ rest, pathOf parsed = conversationPath ++ rest ∧ unquote rest ≠ [] ∧
        link = opened (unquote rest) parsed.query := by
      rintro ⟨rest, hrest, -⟩
      exact hopen ⟨rest, hrest.symm⟩
    rw [if_neg hopen, or_iff_right hnever, and_iff_right hopen]
    split
    · rename_i hnew
      constructor
      · intro h
        cases h
        exact ⟨hnew, rfl⟩
      · rintro ⟨-, rfl⟩
        rfl
    · rename_i hnew
      exact iff_of_false nofun fun h => hnew h.1

/-! ## Writing -/

/-- A parameter that is not `None`. -/
def given (name : String) (value : Option PyText) : List (PyText × PyText) :=
  value.toList.map fun text => (pyText name, text)

/-- The parameters of a new conversation. -/
def params (link : DeepLink) : List (PyText × PyText) :=
  given "title" link.title ++ given "message" link.message ++
    given "candidate_id" link.candidate_id

/-- What cannot be encoded raises. -/
def encoded {α : Type} (result : Option α) : Except LinkError α := result.elim (.error .encode) .ok

def toUrl (link : DeepLink) : Except LinkError PyText :=
  match link.action with
  | .open_conversation =>
    match link.conversation_id with
    | none =>
      .error (.value (pyText "open_conversation deep link requires conversation_id"))
    | some id => do
      let conversation_id ← encoded (quote id)
      match link.message with
      | some message => do
        let query ← encoded (urlencode [(pyText "message", message)])
        return pyText "nuself://conversation/" ++ conversation_id.map .char ++ .char '?' :: query
      | none => return pyText "nuself://conversation/" ++ conversation_id.map .char
  | .new_conversation =>
    if link.params ≠ [] then do
      let query ← encoded (urlencode link.params)
      return pyText "nuself://new-conversation?" ++ query
    else return pyText "nuself://new-conversation"

def forNewConversation (title message candidate_id : Option PyText) : DeepLink where
  action := .new_conversation
  title := title
  message := message
  candidate_id := candidate_id

/-! ## The texts of a link -/

/-- An action has its own fields only, and an id that is not empty. -/
def WellFormed (link : DeepLink) : Prop :=
  match link.action with
  | .open_conversation =>
    (∃ id, link.conversation_id = some id ∧ id ≠ []) ∧ link.title = none ∧ link.candidate_id = none
  | .new_conversation => link.conversation_id = none

def CanEncode (value : Option PyText) : Prop := ∀ text, value = some text → Encodable text

/-- Every text of the link can be encoded. -/
def Writable (link : DeepLink) : Prop :=
  CanEncode link.conversation_id ∧ CanEncode link.title ∧ CanEncode link.message ∧
    CanEncode link.candidate_id

/-- A text that is neither absent nor empty. -/
def present (value : Option PyText) : Option PyText := value.filter fun text => text ≠ []

/-- The link without its empty texts. -/
def carried (link : DeepLink) : DeepLink where
  action := link.action
  conversation_id := link.conversation_id
  title := present link.title
  message := present link.message
  candidate_id := present link.candidate_id

theorem present_eq_self_iff (value : Option PyText) :
    present value = value ↔ ∀ text, value = some text → text ≠ [] := by
  cases value with
  | none => exact iff_of_true rfl nofun
  | some text =>
    rw [present, Option.filter_eq_some_iff]
    constructor
    · rintro ⟨-, hne⟩ other heq
      cases heq
      exact of_decide_eq_true hne
    · exact fun h => ⟨rfl, decide_eq_true (h text rfl)⟩

/-! ## A written link -/

/-- The URL of a link, put together from plain parts. -/
def written (netloc path : PyText) (query : Option PyText) : PyText :=
  pyText "nuself" ++ .char ':' :: .char '/' :: .char '/' :: (netloc ++ (path ++ queryTail query))

theorem parse_written (refusal : PyText → Option PyText) {netloc path : PyText}
    {query : Option PyText} (hnetloc : Plain netloc) (hpath : PlainPath path)
    (hquery : ∀ q ∈ query, Plain q) :
    parse refusal (written netloc path query) =
      read { scheme := pyText "nuself", netloc, path, query := query.getD [], fragment := [] } := by
  have hlower : lowered (pyText "nuself") = pyText "nuself" := by decide
  rw [parse, written, urlsplit_written refusal (by decide) (by decide) hnetloc hpath hquery, hlower]

/-- The query of a written link. -/
def QueryOf (link : DeepLink) (query : Option PyText) : Prop :=
  urlencode link.params = some (query.getD []) ∧ ∀ q ∈ query, Plain q

theorem toUrl_new {link : DeepLink} (haction : link.action = .new_conversation) {url : PyText} :
    link.toUrl = .ok url →
      ∃ query, QueryOf link query ∧ url = written (pyText "new-conversation") [] query := by
  intro h
  rw [toUrl, haction] at h
  dsimp only at h
  split at h
  · cases hquery : urlencode link.params with
    | none =>
      rw [hquery] at h
      cases h
    | some query =>
      rw [hquery] at h
      cases h
      refine ⟨some query, ⟨hquery, ?_⟩, rfl⟩
      rintro q ⟨⟩
      exact plain_urlencode hquery
  · rename_i hnone
    cases h
    refine ⟨none, ⟨?_, nofun⟩, rfl⟩
    rw [not_not.mp hnone]
    rfl

theorem toUrl_open {link : DeepLink} (haction : link.action = .open_conversation)
    (hwf : link.WellFormed) {url : PyText} : link.toUrl = .ok url →
      ∃ id quoted query, link.conversation_id = some id ∧ id ≠ [] ∧ quote id = some quoted ∧
        QueryOf link query ∧
        url = written (pyText "conversation") (.char '/' :: quoted.map .char) query := by
  intro h
  rw [WellFormed, haction] at hwf
  obtain ⟨⟨id, hid, hne⟩, htitle, hcandidate⟩ := hwf
  have hparams : link.params = given "message" link.message := by
    rw [params, htitle, hcandidate]
    exact List.append_nil _
  rw [toUrl, haction, hid] at h
  dsimp only at h
  cases hquoted : quote id with
  | none =>
    rw [hquoted] at h
    cases h
  | some quoted =>
    rw [hquoted] at h
    cases hmessage : link.message with
    | none =>
      rw [hmessage] at h hparams
      cases h
      refine ⟨id, quoted, none, hid, hne, hquoted, ⟨?_, nofun⟩, ?_⟩
      · rw [hparams]
        rfl
      · rw [written, queryTail, List.append_nil]
        rfl
    | some message =>
      rw [hmessage] at h hparams
      have h : (do
          let query ← encoded (urlencode [(pyText "message", message)])
          return pyText "nuself://conversation/" ++ quoted.map .char ++ .char '?' :: query) =
          Except.ok url := h
      cases hquery : urlencode [(pyText "message", message)] with
      | none =>
        rw [hquery] at h
        cases h
      | some query =>
        rw [hquery] at h
        cases h
        refine ⟨id, quoted, some query, hid, hne, hquoted, ⟨?_, ?_⟩, rfl⟩
        · rw [hparams]
          exact hquery
        · rintro q ⟨⟩
          exact plain_urlencode hquery

/-! ## What is read from a written link -/

theorem lookup_given_self (name : String) (value : Option PyText) :
    ((given name value).filter fun field => field.2 ≠ []).lookup (pyText name) = present value := by
  cases value with
  | none => rfl
  | some text =>
    by_cases hempty : text = []
    · subst hempty
      rfl
    · have hkeep : present (some text) = some text :=
        (present_eq_self_iff _).mpr fun other heq => Option.some.inj heq ▸ hempty
      rw [hkeep, given, Option.toList_some, List.map_singleton, List.filter_cons,
        if_pos (decide_eq_true hempty), List.lookup_cons_self]

theorem lookup_given_of_ne {name other : String} (hne : pyText other ≠ pyText name)
    (value : Option PyText) :
    ((given other value).filter fun field => field.2 ≠ []).lookup (pyText name) = none := by
  rw [List.lookup_eq_none_iff]
  intro field hfield
  obtain ⟨text, -, rfl⟩ := List.mem_map.mp (List.mem_filter.mp hfield).1
  exact bne_iff_ne.mpr hne.symm

theorem parseQsFirst_queryOf {link : DeepLink} {query : Option PyText} (h : QueryOf link query) :
    parseQsFirst (pyText "title") (query.getD []) = present link.title ∧
      parseQsFirst (pyText "message") (query.getD []) = present link.message ∧
      parseQsFirst (pyText "candidate_id") (query.getD []) = present link.candidate_id := by
  rw [parseQsFirst, parseQsFirst, parseQsFirst, parseQsl_urlencode h.1, params, List.filter_append,
    List.filter_append, List.lookup_append, List.lookup_append, List.lookup_append,
    List.lookup_append, List.lookup_append, List.lookup_append]
  refine ⟨?_, ?_, ?_⟩
  · rw [lookup_given_self, lookup_given_of_ne (by decide), lookup_given_of_ne (by decide),
      Option.or_none, Option.or_none]
  · rw [lookup_given_self, lookup_given_of_ne (by decide), lookup_given_of_ne (by decide),
      Option.none_or, Option.or_none]
  · rw [lookup_given_self, lookup_given_of_ne (by decide), lookup_given_of_ne (by decide),
      Option.none_or, Option.none_or]

/-- **A written link is read without its empty texts.** -/
theorem parse_toUrl (refusal : PyText → Option PyText) {link : DeepLink} (hwf : link.WellFormed)
    {url : PyText} (h : link.toUrl = .ok url) : parse refusal url = .ok link.carried := by
  cases haction : link.action with
  | new_conversation =>
    obtain ⟨query, hquery, rfl⟩ := toUrl_new haction h
    obtain ⟨htitle, hmessage, hcandidate⟩ := parseQsFirst_queryOf hquery
    have hid : link.conversation_id = none := by
      rw [WellFormed, haction] at hwf
      exact hwf
    have hnetloc : Plain (pyText "new-conversation") := plain_pyText (by decide)
    have hpath : PlainPath [] := by
      intro p rest heq
      cases heq
    rw [parse_written refusal hnetloc hpath hquery.2, read_eq_ok_iff]
    refine ⟨rfl, rfl, Or.inr ⟨?_, Or.inr rfl, ?_⟩⟩
    · show ¬ conversationPath <+: pyText "/new-conversation"
      decide
    · rw [created, htitle, hmessage, hcandidate, carried, haction, hid]
  | open_conversation =>
    obtain ⟨id, quoted, query, hid, hne, hquoted, hquery, rfl⟩ := toUrl_open haction hwf h
    obtain ⟨-, hmessage, -⟩ := parseQsFirst_queryOf hquery
    obtain ⟨htitle, hcandidate⟩ : link.title = none ∧ link.candidate_id = none := by
      rw [WellFormed, haction] at hwf
      exact hwf.2
    have hnetloc : Plain (pyText "conversation") := plain_pyText (by decide)
    have hpath : PlainPath (.char '/' :: quoted.map .char) := by
      intro p rest heq
      cases heq
      exact ⟨rfl, plain_of_quoted fun _ => quotedChar_of_quote hquoted⟩
    have hread := unquote_quote hquoted
    rw [parse_written refusal hnetloc hpath hquery.2, read_eq_ok_iff]
    refine ⟨rfl, rfl, Or.inl ⟨quoted.map .char, rfl, ?_, ?_⟩⟩
    · rw [hread]
      exact hne
    · rw [hread, opened, hmessage, carried, haction, hid, htitle, hcandidate]
      rfl

/-! ## Which links can be written -/

theorem encodable_given_iff (name : String) (value : Option PyText) :
    (∀ field ∈ given name value, Encodable field.1 ∧ Encodable field.2) ↔ CanEncode value := by
  constructor
  · rintro h text rfl
    exact (h (pyText name, text) (List.mem_singleton.mpr rfl)).2
  · intro h field hfield
    obtain ⟨text, htext, rfl⟩ := List.mem_map.mp hfield
    exact ⟨encodable_chars _, h text (Option.mem_toList.mp htext)⟩

theorem urlencode_params_isSome_iff (link : DeepLink) : (urlencode link.params).isSome ↔
    CanEncode link.title ∧ CanEncode link.message ∧ CanEncode link.candidate_id := by
  rw [urlencode_isSome_iff, params, List.forall_mem_append, List.forall_mem_append,
    encodable_given_iff, encodable_given_iff, encodable_given_iff, and_assoc]

theorem canEncode_some_iff (text : PyText) : CanEncode (some text) ↔ Encodable text := by
  constructor
  · exact fun h => h text rfl
  · rintro h other heq
    exact Option.some.inj heq ▸ h

theorem canEncode_none : CanEncode none := nofun

theorem toUrl_ok_iff {link : DeepLink} (hwf : link.WellFormed) :
    (∃ url, link.toUrl = .ok url) ↔ link.Writable := by
  cases haction : link.action with
  | new_conversation =>
    rw [WellFormed, haction] at hwf
    have hid : link.conversation_id = none := hwf
    rw [Writable, hid, and_iff_right canEncode_none, ← urlencode_params_isSome_iff]
    constructor
    · rintro ⟨url, h⟩
      obtain ⟨query, hquery, -⟩ := toUrl_new haction h
      rw [hquery.1]
      rfl
    · intro h
      obtain ⟨query, hquery⟩ := Option.isSome_iff_exists.mp h
      rw [toUrl, haction]
      dsimp only
      split
      · rw [hquery]
        exact ⟨_, rfl⟩
      · exact ⟨_, rfl⟩
  | open_conversation =>
    constructor
    · rintro ⟨url, h⟩
      obtain ⟨id, quoted, query, hid, -, hquoted, hquery, -⟩ := toUrl_open haction hwf h
      rw [Writable, hid, canEncode_some_iff, ← quote_isSome_iff, hquoted,
        ← urlencode_params_isSome_iff, hquery.1]
      exact ⟨rfl, rfl⟩
    · rw [WellFormed, haction] at hwf
      obtain ⟨⟨id, hid, -⟩, -⟩ := hwf
      rintro ⟨hencode, -, hmessage, -⟩
      rw [hid, canEncode_some_iff, ← quote_isSome_iff] at hencode
      obtain ⟨quoted, hquoted⟩ := Option.isSome_iff_exists.mp hencode
      rw [toUrl, haction, hid]
      dsimp only
      rw [hquoted]
      cases htext : link.message with
      | none => exact ⟨_, rfl⟩
      | some message =>
        have hsome : (urlencode (given "message" (some message))).isSome := by
          rw [urlencode_isSome_iff, encodable_given_iff, ← htext]
          exact hmessage
        obtain ⟨query, hquery⟩ := Option.isSome_iff_exists.mp hsome
        have hquery : urlencode [(pyText "message", message)] = some query := hquery
        refine ⟨pyText "nuself://conversation/" ++ quoted.map .char ++ .char '?' :: query, ?_⟩
        show (do
          let query ← encoded (urlencode [(pyText "message", message)])
          return pyText "nuself://conversation/" ++ quoted.map .char ++ .char '?' :: query) =
            (Except.ok _ : Except LinkError PyText)
        rw [hquery]
        rfl

/-! ## What is read from a URL -/

/-- The parts of a URL that are read, as they stand there. -/
def readParts (parsed : SplitResult) : List PyText :=
  if conversationPath <+: pathOf parsed then
    (pathOf parsed).drop conversationPath.length ::
      (rawFirst (pyText "message") parsed.query).toList
  else
    (rawFirst (pyText "title") parsed.query).toList ++
      (rawFirst (pyText "message") parsed.query).toList ++
      (rawFirst (pyText "candidate_id") parsed.query).toList

def readTexts (refusal : PyText → Option PyText) (url : PyText) : List PyText :=
  match urlsplit refusal url with
  | .error _ => []
  | .ok parsed => readParts parsed

/-- No text of the link is empty. -/
def NoneEmpty (value : Option PyText) : Prop := ∀ text, value = some text → text ≠ []

theorem carried_eq_self_iff (link : DeepLink) :
    link.carried = link ↔
      NoneEmpty link.title ∧ NoneEmpty link.message ∧ NoneEmpty link.candidate_id := by
  rw [NoneEmpty, NoneEmpty, NoneEmpty, ← present_eq_self_iff, ← present_eq_self_iff,
    ← present_eq_self_iff]
  constructor
  · exact fun h => ⟨congrArg title h, congrArg message h, congrArg candidate_id h⟩
  · rintro ⟨htitle, hmessage, hcandidate⟩
    rw [carried, htitle, hmessage, hcandidate]

theorem canEncode_parseQsFirst_iff (name query : PyText) : CanEncode (parseQsFirst name query) ↔
    ∀ raw ∈ (rawFirst name query).toList, Encodable raw := by
  rw [parseQsFirst_eq]
  cases rawFirst name query with
  | none => exact iff_of_true nofun nofun
  | some raw =>
    rw [Option.map_some, canEncode_some_iff, encodable_unquotePlus_iff, Option.toList_some,
      List.forall_mem_singleton]

/-- **What is read has no empty text**, and can be written unless a part of the URL has a
    surrogate. -/
theorem parse_spec {refusal : PyText → Option PyText} {url : PyText} {link : DeepLink}
    (h : parse refusal url = .ok link) : link.WellFormed ∧ link.carried = link ∧
      (link.Writable ↔ ∀ text ∈ readTexts refusal url, Encodable text) := by
  rw [parse] at h
  rw [readTexts]
  cases hsplit : urlsplit refusal url with
  | error message =>
    rw [hsplit] at h
    cases h
  | ok parsed =>
    rw [hsplit] at h
    dsimp only at h ⊢
    have hquery : ∀ name, NoneEmpty (parseQsFirst name parsed.query) :=
      fun _ _ htext => parseQsFirst_ne_nil htext
    obtain ⟨-, -, ⟨rest, hrest, hne, rfl⟩ | ⟨hnot, -, rfl⟩⟩ := read_eq_ok_iff.mp h
    · refine ⟨⟨⟨_, rfl, hne⟩, rfl, rfl⟩, ?_, ?_⟩
      · exact (carried_eq_self_iff _).mpr ⟨nofun, hquery _, nofun⟩
      · rw [readParts, if_pos ⟨rest, hrest.symm⟩, hrest, List.drop_left, List.forall_mem_cons,
          ← canEncode_parseQsFirst_iff, ← encodable_unquote_iff, ← canEncode_some_iff]
        exact and_congr_right fun _ =>
          (and_iff_right canEncode_none).trans (and_iff_left canEncode_none)
    · refine ⟨rfl, ?_, ?_⟩
      · exact (carried_eq_self_iff _).mpr ⟨hquery _, hquery _, hquery _⟩
      · rw [readParts, if_neg hnot, List.forall_mem_append, List.forall_mem_append,
          ← canEncode_parseQsFirst_iff, ← canEncode_parseQsFirst_iff,
          ← canEncode_parseQsFirst_iff, and_assoc]
        exact and_iff_right canEncode_none

/-! ## Round trips -/

/-- `DeepLink.parse(link.to_url()) == link`. -/
def RoundTrips (refusal : PyText → Option PyText) (link : DeepLink) : Prop :=
  ∃ url, link.toUrl = .ok url ∧ parse refusal url = .ok link

theorem roundTrips_iff {refusal : PyText → Option PyText} {link : DeepLink}
    (hwf : link.WellFormed) : RoundTrips refusal link ↔ link.Writable ∧ link.carried = link := by
  constructor
  · rintro ⟨url, hurl, hparse⟩
    rw [parse_toUrl refusal hwf hurl] at hparse
    exact ⟨(toUrl_ok_iff hwf).mp ⟨url, hurl⟩, Except.ok.inj hparse⟩
  · rintro ⟨hwritable, hcarried⟩
    obtain ⟨url, hurl⟩ := (toUrl_ok_iff hwf).mpr hwritable
    have hparse := parse_toUrl refusal hwf hurl
    rw [hcarried] at hparse
    exact ⟨url, hurl, hparse⟩

/-- The text survives: it is not empty, and UTF-8 can carry it. -/
def Survives (text : PyText) : Prop := text ≠ [] ∧ Encodable text

theorem survives_iff (value : Option PyText) :
    (∀ text, value = some text → Survives text) ↔ CanEncode value ∧ NoneEmpty value :=
  ⟨fun h => ⟨fun text heq => (h text heq).2, fun text heq => (h text heq).1⟩,
    fun h text heq => ⟨h.2 text heq, h.1 text heq⟩⟩

/-- **Exactly when a link survives**: a new conversation's, one that opens a conversation, and one
    that has been read from a URL. -/
theorem survives_to_url_iff (refusal : PyText → Option PyText) :
    (∀ title message candidate_id,
        RoundTrips refusal (forNewConversation title message candidate_id) ↔
          (∀ text, title = some text → Survives text) ∧
          (∀ text, message = some text → Survives text) ∧
          ∀ text, candidate_id = some text → Survives text) ∧
      (∀ id message, id ≠ [] →
        (RoundTrips refusal
            { action := .open_conversation, conversation_id := some id, message := message } ↔
          Encodable id ∧ ∀ text, message = some text → Survives text)) ∧
      ∀ url link, parse refusal url = .ok link →
        (RoundTrips refusal link ↔ ∀ text ∈ readTexts refusal url, Encodable text) := by
  refine ⟨?_, ?_, ?_⟩
  · intro title message candidate_id
    have hwf : WellFormed (forNewConversation title message candidate_id) := rfl
    rw [roundTrips_iff hwf, carried_eq_self_iff, Writable, survives_iff, survives_iff, survives_iff]
    show (CanEncode none ∧ CanEncode title ∧ CanEncode message ∧ CanEncode candidate_id) ∧
      NoneEmpty title ∧ NoneEmpty message ∧ NoneEmpty candidate_id ↔ _
    rw [and_iff_right canEncode_none]
    constructor
    · rintro ⟨⟨ht, hm, hc⟩, ht', hm', hc'⟩
      exact ⟨⟨ht, ht'⟩, ⟨hm, hm'⟩, hc, hc'⟩
    · rintro ⟨⟨ht, ht'⟩, ⟨hm, hm'⟩, hc, hc'⟩
      exact ⟨⟨ht, hm, hc⟩, ht', hm', hc'⟩
  · intro id message hid
    have hwf : WellFormed
        { action := .open_conversation, conversation_id := some id, message := message } :=
      ⟨⟨id, rfl, hid⟩, rfl, rfl⟩
    rw [roundTrips_iff hwf, carried_eq_self_iff, Writable, survives_iff, ← canEncode_some_iff]
    constructor
    · rintro ⟨⟨hencode, -, hm, -⟩, -, hm', -⟩
      exact ⟨hencode, hm, hm'⟩
    · rintro ⟨hencode, hm, hm'⟩
      exact ⟨⟨hencode, canEncode_none, hm, canEncode_none⟩, nofun, hm', nofun⟩
  · intro url link h
    obtain ⟨hwf, hcarried, hwritable⟩ := parse_spec h
    rw [roundTrips_iff hwf, and_iff_left hcarried, hwritable]

/-- Reserved characters survive, in a title, in an id and in a URL that is read. -/
theorem reserved_characters_survive :
    RoundTrips (fun _ => none)
        (forNewConversation (some (pyText "T/A")) (some (pyText "M&x=1")) none) ∧
      RoundTrips (fun _ => none)
        { action := .open_conversation, conversation_id := some (pyText "a/b c") } ∧
      parse (fun _ => none) (pyText "nuself://conversation/a+b?message=%41&x") =
        .ok (opened (pyText "a+b") (pyText "message=A")) ∧
      RoundTrips (fun _ => none) (opened (pyText "a+b") (pyText "message=A")) := by
  obtain ⟨hnew, hopen, hurl⟩ := survives_to_url_iff fun _ => none
  have hread : parse (fun _ => none) (pyText "nuself://conversation/a+b?message=%41&x") =
      .ok (opened (pyText "a+b") (pyText "message=A")) := by decide +kernel
  refine ⟨(hnew _ _ _).mpr ⟨?_, ?_, nofun⟩, (hopen _ _ (by decide)).mpr ⟨encodable_chars _, nofun⟩,
    hread, (hurl _ _ hread).mpr ?_⟩
  · rintro text ⟨⟩
    exact ⟨by decide, encodable_chars _⟩
  · rintro text ⟨⟩
    exact ⟨by decide, encodable_chars _⟩
  · have htexts : readTexts (fun _ => none) (pyText "nuself://conversation/a+b?message=%41&x") =
        [pyText "a+b", pyText "%41"] := by decide +kernel
    rw [htexts]
    intro text htext
    simp only [List.mem_cons, List.not_mem_nil, or_false] at htext
    rcases htext with rfl | rfl
    · exact encodable_chars _
    · exact encodable_chars _

/-- An empty title is written, and read as none. -/
theorem empty_title_lost :
    (forNewConversation (some []) none none).toUrl =
        .ok (pyText "nuself://new-conversation?title=") ∧
      parse (fun _ => none) (pyText "nuself://new-conversation?title=") =
        .ok (forNewConversation none none none) ∧
      ¬ ∀ title message candidate_id,
        RoundTrips (fun _ => none) (forNewConversation title message candidate_id) := by
  have hwritten : (forNewConversation (some []) none none).toUrl =
      .ok (pyText "nuself://new-conversation?title=") := by decide +kernel
  have hread : parse (fun _ => none) (pyText "nuself://new-conversation?title=") =
      .ok (forNewConversation none none none) := by decide +kernel
  refine ⟨hwritten, hread, fun h => ?_⟩
  obtain ⟨url, hurl, hparse⟩ := h (some []) none none
  rw [hwritten] at hurl
  cases hurl
  rw [hread] at hparse
  exact absurd hparse (by decide)

end DeepLink

end NuSelf.Inbox
