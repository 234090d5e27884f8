/-
  Searching memory: the score of a direct match, its expansion along relations, and filters.

  A query is cut into tokens; every eligible entry gets a score, and those with one are the direct
  matches.  If the limit leaves room, entries that a direct match reaches through a relation follow,
  each with the best score that any of the ways to it gives.  Scores are exact rational numbers.

  1. `RelatedInv` — the invariant of the expansion: each related entry has the best score of the
     ways gone so far, whatever their order;
  2. `search_ranked` — what a search returns: the direct matches, then the related ones, each part
     ranked, cut at the limit;
  3. `search_order_free` — the order of what is stored does not matter;
  4. `searchEntries_complete_iff` — when the filtered search returns every direct match;
  5. `search_bound_iff` — when every match satisfies the filters of its query.
-/
import Mathlib.Algebra.Order.Ring.Rat
import Mathlib.Data.Prod.Lex
import Mathlib.Data.String.Basic
import Mathlib.Order.Bounds.Basic
import NuSelf.Lib.Double
import NuSelf.Lib.Ranking
import NuSelf.Memory.Graph

namespace NuSelf.Memory

open NuSelf.Lib

/-! ## Queries -/

structure MemoryQuery where
  text : String
  limit : Int := 8
  review_states : List ReviewState := [.draft, .reviewed]
  memory_types : List String := []
  tags : List String := []
  min_importance : Option Double := none
  deriving DecidableEq

structure MemoryMatch where
  entry : MemoryEntry
  score : ℚ
  reasons : List String
  deriving DecidableEq

/-- A character of `[A-Za-z0-9_\u4e00-\u9fff]`. -/
def isWordChar (c : Char) : Bool :=
  ('A' ≤ c && c ≤ 'Z') || ('a' ≤ c && c ≤ 'z') || ('0' ≤ c && c ≤ '9') || c == '_' ||
    (0x4e00 ≤ c.toNat && c.toNat ≤ 0x9fff)

def typeQueryHints : List (String × List String) :=
  [("preference", ["prefer", "preference", "like", "favorite", "choice", "rather"]),
    ("style_trait", ["style", "tone", "voice", "respond", "answer", "write", "communication"]),
    ("instruction",
      ["instruction", "rule", "should", "must", "always", "never", "respond", "behavior"]),
    ("goal", ["goal", "plan", "next", "current", "focus", "todo", "blocker", "progress"]),
    ("belief", ["belief", "believe", "think", "opinion", "view", "stance", "claim"]),
    ("concept", ["concept", "meaning", "definition", "define", "idea", "explain"]),
    ("episode",
      ["when", "happened", "discussed", "history", "previously", "earlier", "event"]),
    ("open_question", ["question", "unknown", "unresolved", "open", "unclear"]),
    ("profile_fact", ["profile", "about", "background", "fact", "identity"]),
    ("source_note", ["source", "note", "document", "evidence", "reference"])]

section

variable (casefold : String → String)

/-- `_query_tokens`: the words of at least two characters, each once. -/
def queryTokens (text : String) : List String :=
  ((((casefold text).toList.splitOnP fun c => !isWordChar c).filter fun word =>
    decide (2 ≤ word.length)).map String.ofList).eraseDups

/-- One hint of `_type_affinity_score`. -/
def hintScore (query : String) (tokens : List String) (hint : String) : ℚ :=
  let hint_normalized := casefold hint
  if textIn " " hint_normalized && textIn hint_normalized query then 3 / 2
  else if hint_normalized ∈ tokens then 1
  else 0

def typeAffinityScore (memory_type query : String) (tokens : List String) : ℚ :=
  match typeQueryHints.lookup memory_type with
  | none => 0
  | some hints => min ((hints.map (hintScore casefold query tokens)).sum) 3

/-- A score with its reasons. -/
abbrev Scored := ℚ × List String

/-- Add to the score, and append the reason. -/
def Scored.gain (holds : Bool) (points : ℚ) (reason : String) (s : Scored) : Scored :=
  if holds = true then (s.1 + points, s.2 ++ [reason]) else s

/-- Add to the score, and append the reason once. -/
def Scored.gainOnce (holds : Bool) (points : ℚ) (reason : String) (s : Scored) : Scored :=
  if holds = true then (s.1 + points, if reason ∈ s.2 then s.2 else s.2 ++ [reason]) else s

/-- 1.0 -/
def one : Double := 0x3ff0000000000000#64

/-- 0.0 -/
def zero : Double := 0x0#64

/-- The part of the score that the text and the type give. -/
def textScore (entry : MemoryEntry) (raw_query : String) (tokens : List String) : Scored :=
  let title := casefold entry.title
  let body := casefold entry.body
  let tags := entry.tags.map casefold
  let query := strip (casefold raw_query)
  let type_score := typeAffinityScore casefold entry.type query tokens
  let s : Scored := (0, [])
  let s := s.gain (decide (query ≠ "") && textIn query title) 5 "title_phrase"
  let s := s.gain (decide (query ≠ "") && textIn query body) 3 "body_phrase"
  let s := s.gain (decide (query ≠ "") && tags.any (textIn query)) 4 "tag_phrase"
  let s := s.gain (decide (0 < type_score)) type_score "type_descriptor"
  tokens.foldl (fun s token =>
    let s := Scored.gainOnce (textIn token title) 3 "title" s
    let s := Scored.gainOnce (tags.any (textIn token)) (5 / 2) "tag" s
    Scored.gainOnce (textIn token body) 1 "body" s) s

def scoreEntry (entry : MemoryEntry) (raw_query : String) (tokens : List String) :
    Option MemoryMatch :=
  let s := textScore casefold entry raw_query tokens
  if s.1 ≤ 0 then none
  else
    let s := s.gain (decide (entry.review_state = .reviewed)) (1 / 2) "reviewed"
    let s := s.gain (zero.lt entry.confidence)
      ((Double.minOf entry.confidence [one]).toRat * (1 / 4)) "confidence"
    let s := s.gain (zero.lt entry.importance)
      ((Double.minOf entry.importance [one]).toRat * (1 / 2)) "importance"
    some { entry, score := s.1, reasons := s.2 }

def matchesQueryFilters (memory_type : String) (tags : List String) (query : MemoryQuery) : Bool :=
  if query.memory_types ≠ [] && memory_type ∉ query.memory_types then false
  else query.tags.all fun tag => decide (casefold tag ∈ tags.map casefold)

/-- `registry.retrieve(...)`: every built-in type, and the default of the others. -/
def retrieve (_memory_type _query : String) (_budget : Int) : Bool := true

/-- The entries that a query is matched with. -/
def eligibleEntries (t : MemoryTables) (query : MemoryQuery) : List MemoryEntry :=
  (listEntries t).filter fun entry =>
    decide (entry.review_state ∈ query.review_states) &&
      matchesQueryFilters casefold entry.type entry.tags query &&
      retrieve entry.type query.text query.limit

/-- `query.min_importance is not None and entry.importance < query.min_importance`. -/
def belowImportance (query : MemoryQuery) (entry : MemoryEntry) : Bool :=
  query.min_importance.any fun least => Double.lt entry.importance least

/-- The matches of a search before its expansion. -/
def directMatches (t : MemoryTables) (query : MemoryQuery) : List MemoryMatch :=
  (eligibleEntries casefold t query).filterMap fun entry =>
    if belowImportance query entry = true then none
    else scoreEntry casefold entry query.text (queryTokens casefold query.text)

end

/-! ## Related matches -/

def memoryMatchSortKey (m : MemoryMatch) : ℚ ×ₗ String ×ₗ String :=
  toLex (-m.score, toLex (m.entry.updated_at, m.entry.id))

def relationScorePenalty (descriptor : RelationDescriptor) : ℚ :=
  if descriptor.retrieval_rule = "include_both_current_and_superseded" then 1 / 2 else 3 / 4

/-- A way from a match to an entry, with what it costs. -/
structure RelatedRef where
  entry_id : String
  descriptor : RelationDescriptor
  relation_name : String
  extra_penalty : ℚ := 0

section

variable (registry : RelationDescriptorRegistry) (o : SetOrder String)

def outgoingRelationRefs (entry : MemoryEntry) : List RelatedRef :=
  registry.records.flatMap fun descriptor =>
    (relationTargets entry descriptor).map fun target_id =>
      { entry_id := target_id, descriptor, relation_name := descriptor.name }

def incomingRelationRefs (entry : MemoryEntry) (entries : List MemoryEntry) : List RelatedRef :=
  (entries.filter fun candidate => decide (candidate.id ≠ entry.id)).flatMap fun candidate =>
    (registry.records.filter fun descriptor =>
      decide (entry.id ∈ relationTargets candidate descriptor)).map fun descriptor =>
        { entry_id := candidate.id, descriptor,
          relation_name := descriptor.inverse.getD descriptor.name }

/-- The nodes of `transitive_closure_from`, which ends within so many turns. -/
def closureNodes (graph : SymbolicGraph) (node_id relation : String) : List SymbolicGraphNode :=
  ((transitiveClosureFrom registry o graph ((endpoints graph.edges).length + 1) node_id
    relation).map SymbolicGraphSearchResult.nodes).getD []

def transitiveRelationRefs (entry : MemoryEntry) (graph : SymbolicGraph) : List RelatedRef :=
  (registry.records.filter RelationDescriptor.transitive).flatMap fun descriptor =>
    ((closureNodes registry o graph entry.id descriptor.name).filter fun node =>
      decide (node.id ≠ entry.id ∧ node.id ∉ relationTargets entry descriptor)).map fun node =>
        { entry_id := node.id, descriptor, relation_name := descriptor.name ++ "_closure",
          extra_penalty := 1 / 4 }

/-- The ways from a match, in the order in which they are gone. -/
def relatedRefs (entries : List MemoryEntry) (graph : SymbolicGraph) (entry : MemoryEntry) :
    List RelatedRef :=
  outgoingRelationRefs registry entry ++ incomingRelationRefs registry entry entries ++
    transitiveRelationRefs registry o entry graph

end

/-- The score that a way gives. -/
def relatedScore (source_score : ℚ) (ref : RelatedRef) : ℚ :=
  max (source_score - relationScorePenalty ref.descriptor - ref.extra_penalty) (1 / 10)

/-- `{entry.id: entry for entry in entries}.get(entry_id)`. -/
def entryById (entries : List MemoryEntry) (entry_id : String) : Option MemoryEntry :=
  entries.reverse.find? fun entry => decide (entry.id = entry_id)

def addRelatedMatch (entries : List MemoryEntry) (direct_ids : List String)
    (related : Table String MemoryMatch) (source : MemoryMatch) (ref : RelatedRef) :
    Table String MemoryMatch :=
  if ref.entry_id ∈ direct_ids then related
  else
    match entryById entries ref.entry_id with
    | none => related
    | some entry =>
      let reason := ref.relation_name ++ ":" ++ source.entry.id
      let score := relatedScore source.score ref
      match related.get entry.id with
      | none => related.set entry.id { entry, score, reasons := [reason] }
      | some current =>
        if current.score < score then
          related.set entry.id { entry, score, reasons := current.reasons ++ [reason] }
        else if reason ∉ current.reasons then
          related.set entry.id
            { entry, score := current.score, reasons := current.reasons ++ [reason] }
        else related

section

variable (registry : RelationDescriptorRegistry) (o : SetOrder String)

/-- The related matches of `_expand_related_matches`. -/
def relatedMatches (direct_matches : List MemoryMatch) (entries : List MemoryEntry)
    (graph : SymbolicGraph) : Table String MemoryMatch :=
  let direct_ids := direct_matches.map fun m => m.entry.id
  direct_matches.foldl (fun related m =>
    (relatedRefs registry o entries graph m.entry).foldl (fun related ref =>
      addRelatedMatch entries direct_ids related m ref) related) Table.empty

def expandRelatedMatches (found : List MemoryMatch) (entries : List MemoryEntry) (limit : Int)
    (graph : SymbolicGraph) : List MemoryMatch :=
  let direct_matches := rankBy memoryMatchSortKey found
  if limit ≤ direct_matches.length then slice direct_matches 0 limit
  else
    let related := relatedMatches registry o direct_matches entries graph
    slice (direct_matches ++ rankBy memoryMatchSortKey (related.rows.map Prod.snd)) 0 limit

variable (casefold : String → String)

def search (t : MemoryTables) (query : MemoryQuery) : List MemoryMatch :=
  if queryTokens casefold query.text = [] then []
  else
    expandRelatedMatches registry o (directMatches casefold t query)
      (eligibleEntries casefold t query) query.limit (computeGraph registry t)

end

/-! ## What a match is -/

section

variable (casefold : String → String) (registry : RelationDescriptorRegistry)
  (t : MemoryTables) (query : MemoryQuery)

/-- The entry matches the query by itself. -/
def DirectMatch (entry : MemoryEntry) (score : ℚ) : Prop :=
  ∃ m ∈ directMatches casefold t query, m.entry = entry ∧ m.score = score

/-- A relation leads from one entry to another, at a penalty. -/
inductive Reaches (source target : MemoryEntry) : ℚ → Prop where
  | outgoing (descriptor : RelationDescriptor) (known : descriptor ∈ registry.records)
      (listed : target.id ∈ relationTargets source descriptor) :
      Reaches source target (relationScorePenalty descriptor)
  | incoming (descriptor : RelationDescriptor) (known : descriptor ∈ registry.records)
      (listed : source.id ∈ relationTargets target descriptor) :
      Reaches source target (relationScorePenalty descriptor)
  | transitive (descriptor : RelationDescriptor) (known : descriptor ∈ registry.records)
      (transitive : descriptor.transitive = true)
      (reachable : ReachableAlong (computeGraph registry t).edges
        (registry.symmetric descriptor.name) descriptor.name source.id target.id) :
      Reaches source target (relationScorePenalty descriptor + 1 / 4)

/-- The scores that the direct matches give an entry that they reach. -/
def reachScores (entry : MemoryEntry) : Set ℚ :=
  {s | ∃ source score penalty, DirectMatch casefold t query source score ∧
    Reaches registry t source entry penalty ∧ s = max (score - penalty) (1 / 10)}

/-- An eligible entry that is no direct match, with the best score of the ways to it. -/
structure RelatedMatch (entry : MemoryEntry) (score : ℚ) : Prop where
  eligible : entry ∈ eligibleEntries casefold t query
  indirect : ∀ s, ¬ DirectMatch casefold t query entry s
  best : IsGreatest (reachScores casefold registry t query entry) score

end

/-- A list of matches, in the order of their rank, has exactly these entries with these scores. -/
structure RanksExactly (wanted : MemoryEntry → ℚ → Prop) (found : List MemoryMatch) : Prop where
  ranked : Ranked memoryMatchSortKey found
  exact : ∀ entry score, (∃ m ∈ found, m.entry = entry ∧ m.score = score) ↔ wanted entry score

/-! ## Direct matches -/

section

variable {casefold : String → String} {registry : RelationDescriptorRegistry} {t : MemoryTables}
  {query : MemoryQuery}

theorem scoreEntry_entry {entry : MemoryEntry} {raw_query : String} {tokens : List String}
    {m : MemoryMatch} (h : scoreEntry casefold entry raw_query tokens = some m) :
    m.entry = entry := by
  unfold scoreEntry at h
  dsimp only at h
  split at h
  · cases h
  · cases h
    rfl

/-- A direct match is the match of an eligible entry that is important enough. -/
theorem mem_directMatches {m : MemoryMatch} : m ∈ directMatches casefold t query ↔
    m.entry ∈ eligibleEntries casefold t query ∧ belowImportance query m.entry = false ∧
      scoreEntry casefold m.entry query.text (queryTokens casefold query.text) = some m := by
  unfold directMatches
  rw [List.mem_filterMap]
  constructor
  · rintro ⟨entry, hentry, hmatch⟩
    split at hmatch
    · cases hmatch
    · rename_i hbelow
      obtain rfl := scoreEntry_entry hmatch
      exact ⟨hentry, Bool.eq_false_iff.mpr hbelow, hmatch⟩
  · rintro ⟨hentry, hbelow, hmatch⟩
    refine ⟨m.entry, hentry, ?_⟩
    rw [if_neg (Bool.eq_false_iff.mp hbelow)]
    exact hmatch

theorem filterMap_ids {f : MemoryEntry → Option MemoryMatch}
    (hf : ∀ entry m, f entry = some m → m.entry = entry) : ∀ entries : List MemoryEntry,
    ((entries.filterMap f).map fun m => m.entry.id).Sublist (entries.map MemoryEntry.id)
  | [] => List.Sublist.slnil
  | entry :: rest => by
    have hrest := filterMap_ids hf rest
    rw [List.filterMap_cons]
    cases hfound : f entry with
    | none => exact hrest.cons _
    | some m =>
      dsimp only
      rw [List.map_cons, List.map_cons, hf entry m hfound]
      exact hrest.cons_cons _

theorem eligible_ids : ((eligibleEntries casefold t query).map MemoryEntry.id).Nodup :=
  (listEntries_ids t).sublist (List.filter_sublist.map _)

theorem direct_ids : ((directMatches casefold t query).map fun m => m.entry.id).Nodup := by
  refine eligible_ids.sublist (filterMap_ids (fun entry m h => ?_) _)
  split at h
  · cases h
  · exact scoreEntry_entry h

theorem sortKey_nodup {found : List MemoryMatch} (h : (found.map fun m => m.entry.id).Nodup) :
    (found.map memoryMatchSortKey).Nodup := by
  refine List.Nodup.of_map (fun key => (ofLex (ofLex key).2).2) ?_
  rw [List.map_map]
  exact h

/-- **The direct matches, ranked.** -/
theorem direct_ranksExactly : RanksExactly (DirectMatch casefold t query)
    (rankBy memoryMatchSortKey (directMatches casefold t query)) where
  ranked := ranked_rankBy (sortKey_nodup direct_ids)
  exact entry score := by
    unfold DirectMatch
    simp only [mem_rankBy]

theorem entryById_iff {entries : List MemoryEntry}
    (hnodup : (entries.map MemoryEntry.id).Nodup) {entry_id : String} {entry : MemoryEntry} :
    entryById entries entry_id = some entry ↔ entry ∈ entries ∧ entry.id = entry_id := by
  unfold entryById
  constructor
  · intro h
    have hid := List.find?_some h
    exact ⟨List.mem_reverse.mp (List.mem_of_find?_eq_some h), by simpa using hid⟩
  · rintro ⟨hentry, rfl⟩
    cases hfind : entries.reverse.find? fun other => decide (other.id = entry.id) with
    | none =>
      have hnot := List.find?_eq_none.mp hfind entry (List.mem_reverse.mpr hentry)
      exact absurd (decide_eq_true rfl) hnot
    | some other =>
      have hother : other ∈ entries := List.mem_reverse.mp (List.mem_of_find?_eq_some hfind)
      have hid := List.find?_some hfind
      rw [List.inj_on_of_nodup_map hnodup hother hentry (by simpa using hid)]

end

/-! ## The best of the ways -/

/-- The scores that the ways gone so far offer an entry. -/
def offered (ways : List (MemoryMatch × RelatedRef)) (entry_id : String) : Set ℚ :=
  {s | ∃ way ∈ ways, way.2.entry_id = entry_id ∧ s = relatedScore way.1.score way.2}

/-- The invariant of the expansion. -/
structure RelatedInv (entries : List MemoryEntry) (direct_ids : List String)
    (ways : List (MemoryMatch × RelatedRef)) (related : Table String MemoryMatch) : Prop where
  found : ∀ id m, related.get id = some m → m.entry.id = id ∧
    entryById entries id = some m.entry ∧ id ∉ direct_ids ∧ IsGreatest (offered ways id) m.score
  missing : ∀ id, related.get id = none → ∀ way ∈ ways, way.2.entry_id = id →
    id ∈ direct_ids ∨ entryById entries id = none

section

variable {entries : List MemoryEntry} {ids : List String}
  {ways : List (MemoryMatch × RelatedRef)} {related : Table String MemoryMatch}

theorem offered_append_same {way : MemoryMatch × RelatedRef} :
    offered (ways ++ [way]) way.2.entry_id =
      insert (relatedScore way.1.score way.2) (offered ways way.2.entry_id) := by
  ext s
  unfold offered
  simp only [Set.mem_ofPred_eq, Set.mem_insert_iff, List.mem_append, List.mem_singleton]
  constructor
  · rintro ⟨other, hother | rfl, hid, hs⟩
    · exact Or.inr ⟨other, hother, hid, hs⟩
    · exact Or.inl hs
  · rintro (hs | ⟨other, hother, hid, hs⟩)
    · exact ⟨way, Or.inr rfl, rfl, hs⟩
    · exact ⟨other, Or.inl hother, hid, hs⟩

theorem offered_append_other {way : MemoryMatch × RelatedRef} {id : String}
    (h : way.2.entry_id ≠ id) : offered (ways ++ [way]) id = offered ways id := by
  ext s
  unfold offered
  simp only [Set.mem_ofPred_eq, List.mem_append, List.mem_singleton]
  constructor
  · rintro ⟨other, hother | rfl, hid, hs⟩
    · exact ⟨other, hother, hid, hs⟩
    · exact absurd hid h
  · rintro ⟨other, hother, hid, hs⟩
    exact ⟨other, Or.inl hother, hid, hs⟩

theorem RelatedInv.skip {way : MemoryMatch × RelatedRef} (h : RelatedInv entries ids ways related)
    (hskip : way.2.entry_id ∈ ids ∨ entryById entries way.2.entry_id = none) :
    RelatedInv entries ids (ways ++ [way]) related where
  found id m hm := by
    obtain ⟨hid, hentry, hindirect, hbest⟩ := h.found id m hm
    have hne : way.2.entry_id ≠ id := by
      rintro rfl
      rcases hskip with hdirect | hnone
      · exact hindirect hdirect
      · rw [hnone] at hentry
        cases hentry
    rw [offered_append_other hne]
    exact ⟨hid, hentry, hindirect, hbest⟩
  missing id hnone other hother hid := by
    rcases List.mem_append.mp hother with hother | hother
    · exact h.missing id hnone other hother hid
    · rw [List.mem_singleton.mp hother] at hid
      rw [← hid]
      exact hskip

theorem RelatedInv.put {way : MemoryMatch × RelatedRef} {m : MemoryMatch}
    (h : RelatedInv entries ids ways related) (hdirect : way.2.entry_id ∉ ids)
    (hentry : entryById entries way.2.entry_id = some m.entry) (hid : m.entry.id = way.2.entry_id)
    (hbest : IsGreatest (offered (ways ++ [way]) way.2.entry_id) m.score) :
    RelatedInv entries ids (ways ++ [way]) (related.set way.2.entry_id m) where
  found id m' hm' := by
    rw [Table.get_set] at hm'
    by_cases hsame : id = way.2.entry_id
    · rw [if_pos hsame] at hm'
      cases hm'
      rw [hsame]
      exact ⟨hid, hentry, hdirect, hbest⟩
    · rw [if_neg hsame] at hm'
      rw [offered_append_other (Ne.symm hsame)]
      exact h.found id m' hm'
  missing id hnone other hother hotherid := by
    rw [Table.get_set] at hnone
    by_cases hsame : id = way.2.entry_id
    · rw [if_pos hsame] at hnone
      cases hnone
    · rw [if_neg hsame] at hnone
      rcases List.mem_append.mp hother with hother | hother
      · exact h.missing id hnone other hother hotherid
      · rw [List.mem_singleton.mp hother] at hotherid
        exact absurd hotherid.symm hsame

/-- **One way keeps the invariant.** -/
theorem RelatedInv.add (hnodup : (entries.map MemoryEntry.id).Nodup)
    (h : RelatedInv entries ids ways related) (way : MemoryMatch × RelatedRef) :
    RelatedInv entries ids (ways ++ [way])
      (addRelatedMatch entries ids related way.1 way.2) := by
  unfold addRelatedMatch
  split
  · rename_i hdirect
    exact h.skip (Or.inl hdirect)
  rename_i hdirect
  split
  · rename_i hnone
    exact h.skip (Or.inr hnone)
  rename_i entry hentry
  have hid : entry.id = way.2.entry_id := ((entryById_iff hnodup).mp hentry).2
  dsimp only
  rw [hid]
  split
  · rename_i hnone
    refine h.put hdirect hentry hid ?_
    have hempty : offered ways way.2.entry_id = ∅ := by
      refine Set.eq_empty_iff_forall_notMem.mpr ?_
      rintro s ⟨other, hother, hotherid, -⟩
      rcases h.missing _ hnone other hother hotherid with hmem | hmissing
      · exact hdirect hmem
      · rw [hmissing] at hentry
        cases hentry
    rw [offered_append_same, hempty, insert_empty_eq]
    exact isGreatest_singleton
  · rename_i current hcurrent
    obtain ⟨-, hsame, -, hbest⟩ := h.found _ _ hcurrent
    have hinsert : IsGreatest (offered (ways ++ [way]) way.2.entry_id)
        (max (relatedScore way.1.score way.2) current.score) := by
      rw [offered_append_same]
      exact hbest.insert _
    split
    · rename_i hless
      rw [max_eq_left (le_of_lt hless)] at hinsert
      exact h.put hdirect hentry hid hinsert
    · rename_i hnot
      rw [max_eq_right (not_lt.mp hnot)] at hinsert
      split
      · exact h.put hdirect hentry hid hinsert
      · -- nothing changes, and the best score is the same
        refine ⟨fun id m hm => ?_, fun id hnone other hother hotherid => ?_⟩
        · by_cases hsameid : way.2.entry_id = id
          · subst hsameid
            obtain rfl : current = m := Option.some.inj (hcurrent.symm.trans hm)
            exact ⟨(h.found _ _ hm).1, hsame, hdirect, hinsert⟩
          · rw [offered_append_other hsameid]
            exact h.found id m hm
        · rcases List.mem_append.mp hother with hother | hother
          · exact h.missing id hnone other hother hotherid
          · rw [List.mem_singleton.mp hother] at hotherid
            rw [← hotherid, hcurrent] at hnone
            cases hnone

theorem RelatedInv.empty : RelatedInv entries ids [] Table.empty where
  found _ _ hm := nomatch hm
  missing _ _ _ hway := nomatch hway

theorem RelatedInv.addAll (hnodup : (entries.map MemoryEntry.id).Nodup) :
    ∀ (rest ways : List (MemoryMatch × RelatedRef)) {related : Table String MemoryMatch},
      RelatedInv entries ids ways related →
      RelatedInv entries ids (ways ++ rest)
        (rest.foldl (fun related way => addRelatedMatch entries ids related way.1 way.2) related)
  | [], ways, _, h => by
    rw [List.append_nil]
    exact h
  | way :: rest, ways, _, h => by
    have hrest := RelatedInv.addAll hnodup rest (ways ++ [way]) (h.add hnodup way)
    rw [List.append_assoc, List.singleton_append] at hrest
    exact hrest

end

/-! ## The ways and the relations -/

section

variable {casefold : String → String} {registry : RelationDescriptorRegistry}
  {o : SetOrder String} {t : MemoryTables} {query : MemoryQuery}

theorem mem_closureNodes {node_id relation : String} {n : SymbolicGraphNode} :
    n ∈ closureNodes registry o (computeGraph registry t) node_id relation ↔
      n ∈ (computeGraph registry t).nodes ∧ ReachableAlong (computeGraph registry t).edges
        (registry.symmetric relation) relation node_id n.id := by
  obtain ⟨found, hrun, hvisited, -, -⟩ :=
    closure_found registry o (computeGraph registry t).edges node_id relation
  have hfuel : unvisited (endpoints (computeGraph registry t).edges) [node_id] <
      (endpoints (computeGraph registry t).edges).length + 1 :=
    Nat.lt_succ_of_le (unvisited_le_length _ _)
  unfold closureNodes transitiveClosureFrom
  dsimp only
  rw [hrun _ hfuel]
  show n ∈ sortedNodes _ found.visited ↔ _
  rw [mem_sortedNodes (graphNodes_ids registry t), hvisited]

theorem mem_outgoingRelationRefs {entry : MemoryEntry} {ref : RelatedRef} :
    ref ∈ outgoingRelationRefs registry entry ↔ ∃ descriptor ∈ registry.records,
      ∃ target_id ∈ relationTargets entry descriptor,
        ref = { entry_id := target_id, descriptor, relation_name := descriptor.name } := by
  unfold outgoingRelationRefs
  simp only [List.mem_flatMap, List.mem_map, @eq_comm _ ref]

theorem mem_incomingRelationRefs {entry : MemoryEntry} {entries : List MemoryEntry}
    {ref : RelatedRef} :
    ref ∈ incomingRelationRefs registry entry entries ↔ ∃ candidate ∈ entries,
      candidate.id ≠ entry.id ∧ ∃ descriptor ∈ registry.records,
        entry.id ∈ relationTargets candidate descriptor ∧
        ref = { entry_id := candidate.id, descriptor,
                relation_name := descriptor.inverse.getD descriptor.name } := by
  unfold incomingRelationRefs
  simp only [List.mem_flatMap, List.mem_map, List.mem_filter, decide_eq_true_eq, and_assoc,
    @eq_comm _ ref]

theorem mem_transitiveRelationRefs {entry : MemoryEntry} {ref : RelatedRef} :
    ref ∈ transitiveRelationRefs registry o entry (computeGraph registry t) ↔
      ∃ descriptor ∈ registry.records, descriptor.transitive = true ∧
      ∃ node ∈ (computeGraph registry t).nodes,
        ReachableAlong (computeGraph registry t).edges (registry.symmetric descriptor.name)
          descriptor.name entry.id node.id ∧
        (node.id ≠ entry.id ∧ node.id ∉ relationTargets entry descriptor) ∧
        ref = { entry_id := node.id, descriptor, relation_name := descriptor.name ++ "_closure",
                extra_penalty := 1 / 4 } := by
  unfold transitiveRelationRefs
  simp only [List.mem_flatMap, List.mem_map, List.mem_filter, mem_closureNodes,
    decide_eq_true_eq, and_assoc, @eq_comm _ ref]

theorem mem_relatedRefs {entries : List MemoryEntry} {graph : SymbolicGraph} {entry : MemoryEntry}
    {ref : RelatedRef} : ref ∈ relatedRefs registry o entries graph entry ↔
      ref ∈ outgoingRelationRefs registry entry ∨
      ref ∈ incomingRelationRefs registry entry entries ∨
      ref ∈ transitiveRelationRefs registry o entry graph := by
  rw [relatedRefs, List.mem_append, List.mem_append, or_assoc]

theorem relatedScore_plain (s : ℚ) (entry_id : String) (descriptor : RelationDescriptor)
    (relation_name : String) :
    relatedScore s { entry_id, descriptor, relation_name } =
      max (s - relationScorePenalty descriptor) (1 / 10) := by
  show max (s - relationScorePenalty descriptor - 0) (1 / 10) = _
  rw [sub_zero]

theorem relatedScore_closure (s : ℚ) (entry_id : String) (descriptor : RelationDescriptor)
    (relation_name : String) :
    relatedScore s { entry_id, descriptor, relation_name, extra_penalty := 1 / 4 } =
      max (s - (relationScorePenalty descriptor + 1 / 4)) (1 / 10) := by
  show max (s - relationScorePenalty descriptor - 1 / 4) (1 / 10) = _
  rw [sub_sub]

theorem mem_listEntries_of_eligible {entry : MemoryEntry}
    (h : entry ∈ eligibleEntries casefold t query) : entry ∈ listEntries t :=
  List.mem_of_mem_filter h

theorem reaches_of_ref {source target : MemoryEntry} {ref : RelatedRef} {s : ℚ}
    (htarget : target ∈ eligibleEntries casefold t query)
    (href : ref ∈ relatedRefs registry o (eligibleEntries casefold t query)
      (computeGraph registry t) source) (hid : ref.entry_id = target.id) :
    ∃ penalty, Reaches registry t source target penalty ∧
      relatedScore s ref = max (s - penalty) (1 / 10) := by
  rcases mem_relatedRefs.mp href with href | href | href
  · obtain ⟨descriptor, hknown, target_id, hlisted, rfl⟩ := mem_outgoingRelationRefs.mp href
    obtain rfl : target_id = target.id := hid
    exact ⟨_, .outgoing descriptor hknown hlisted, relatedScore_plain _ _ _ _⟩
  · obtain ⟨candidate, hcandidate, -, descriptor, hknown, hlisted, rfl⟩ :=
      mem_incomingRelationRefs.mp href
    obtain rfl : candidate = target :=
      List.inj_on_of_nodup_map eligible_ids hcandidate htarget hid
    exact ⟨_, .incoming descriptor hknown hlisted, relatedScore_plain _ _ _ _⟩
  · obtain ⟨descriptor, hknown, htransitive, node, -, hreach, -, rfl⟩ :=
      mem_transitiveRelationRefs.mp href
    have hnode : node.id = target.id := hid
    rw [hnode] at hreach
    exact ⟨_, .transitive descriptor hknown htransitive hreach, relatedScore_closure _ _ _ _⟩

theorem ref_of_reaches {source target : MemoryEntry} {penalty s : ℚ}
    (htarget : target ∈ eligibleEntries casefold t query) (hne : target.id ≠ source.id)
    (h : Reaches registry t source target penalty) :
    ∃ ref ∈ relatedRefs registry o (eligibleEntries casefold t query) (computeGraph registry t)
        source, ref.entry_id = target.id ∧ max (s - penalty) (1 / 10) ≤ relatedScore s ref := by
  have houtgoing : ∀ descriptor ∈ registry.records,
      target.id ∈ relationTargets source descriptor →
      ∃ ref ∈ relatedRefs registry o (eligibleEntries casefold t query) (computeGraph registry t)
        source, ref.entry_id = target.id ∧
          relatedScore s ref = max (s - relationScorePenalty descriptor) (1 / 10) := by
    intro descriptor hknown hlisted
    exact ⟨_, mem_relatedRefs.mpr (Or.inl (mem_outgoingRelationRefs.mpr
      ⟨descriptor, hknown, target.id, hlisted, rfl⟩)), rfl, relatedScore_plain _ _ _ _⟩
  cases h with
  | outgoing descriptor hknown hlisted =>
    obtain ⟨ref, href, hid, hscore⟩ := houtgoing descriptor hknown hlisted
    exact ⟨ref, href, hid, le_of_eq hscore.symm⟩
  | incoming descriptor hknown hlisted =>
    exact ⟨_, mem_relatedRefs.mpr (Or.inr (Or.inl (mem_incomingRelationRefs.mpr
      ⟨target, htarget, hne, descriptor, hknown, hlisted, rfl⟩))), rfl,
      le_of_eq (relatedScore_plain _ _ _ _).symm⟩
  | transitive descriptor hknown htransitive hreach =>
    by_cases hlisted : target.id ∈ relationTargets source descriptor
    · -- a target that is listed is reached by the relation itself, which costs less
      obtain ⟨ref, href, hid, hscore⟩ := houtgoing descriptor hknown hlisted
      refine ⟨ref, href, hid, ?_⟩
      rw [hscore]
      refine max_le_max_right _ (sub_le_sub_left ?_ s)
      exact le_add_of_nonneg_right (by decide +kernel)
    · have hnode : symbolicNode target ∈ (computeGraph registry t).nodes :=
        List.mem_map_of_mem (mem_listEntries_of_eligible htarget)
      exact ⟨_, mem_relatedRefs.mpr (Or.inr (Or.inr (mem_transitiveRelationRefs.mpr
        ⟨descriptor, hknown, htransitive, symbolicNode target, hnode, hreach, ⟨hne, hlisted⟩,
          rfl⟩))), rfl, le_of_eq (relatedScore_closure _ _ _ _).symm⟩

end

/-! ## Related matches, ranked -/

/-- Two sets have the same greatest element when one is inside the other and bounds it. -/
theorem isGreatest_iff_of_bounds {a b : Set ℚ} (hsub : ∀ s ∈ a, s ∈ b)
    (hbound : ∀ s ∈ b, ∃ s' ∈ a, s ≤ s') (x : ℚ) : IsGreatest a x ↔ IsGreatest b x := by
  constructor
  · rintro ⟨hx, hupper⟩
    refine ⟨hsub x hx, fun s hs => ?_⟩
    obtain ⟨s', hs', hle⟩ := hbound s hs
    exact hle.trans (hupper hs')
  · rintro ⟨hx, hupper⟩
    obtain ⟨s, hs, hle⟩ := hbound x hx
    obtain rfl : s = x := le_antisymm (hupper (hsub s hs)) hle
    exact ⟨hs, fun s' hs' => hupper (hsub s' hs')⟩

section

variable {casefold : String → String} {registry : RelationDescriptorRegistry}
  {o : SetOrder String} {t : MemoryTables} {query : MemoryQuery}

/-- All ways of the direct matches. -/
def allWays (registry : RelationDescriptorRegistry) (o : SetOrder String)
    (direct_matches : List MemoryMatch) (entries : List MemoryEntry) (graph : SymbolicGraph) :
    List (MemoryMatch × RelatedRef) :=
  direct_matches.flatMap fun m =>
    (relatedRefs registry o entries graph m.entry).map fun ref => (m, ref)

theorem relatedMatches_inv (direct_matches : List MemoryMatch) {entries : List MemoryEntry}
    (hnodup : (entries.map MemoryEntry.id).Nodup) (graph : SymbolicGraph) :
    RelatedInv entries (direct_matches.map fun m => m.entry.id)
      (allWays registry o direct_matches entries graph)
      (relatedMatches registry o direct_matches entries graph) := by
  have hempty : RelatedInv entries (direct_matches.map fun m => m.entry.id) [] Table.empty :=
    RelatedInv.empty
  have hall := RelatedInv.addAll hnodup (allWays registry o direct_matches entries graph) [] hempty
  rw [allWays, List.foldl_flatMap] at hall
  simp only [List.foldl_map, List.nil_append] at hall
  exact hall

theorem mem_allWays {direct_matches : List MemoryMatch} {entries : List MemoryEntry}
    {graph : SymbolicGraph} {way : MemoryMatch × RelatedRef} :
    way ∈ allWays registry o direct_matches entries graph ↔
      way.1 ∈ direct_matches ∧ way.2 ∈ relatedRefs registry o entries graph way.1.entry := by
  unfold allWays
  rw [List.mem_flatMap]
  constructor
  · rintro ⟨m, hm, hway⟩
    obtain ⟨ref, href, rfl⟩ := List.mem_map.mp hway
    exact ⟨hm, href⟩
  · rintro ⟨hm, href⟩
    exact ⟨way.1, hm, List.mem_map.mpr ⟨way.2, href, rfl⟩⟩

/-- The best offer to an entry that is no direct match is the best of the relations to it. -/
theorem offered_best_iff {direct_matches : List MemoryMatch}
    (hdirect : ∀ m, m ∈ direct_matches ↔ m ∈ directMatches casefold t query)
    {entry : MemoryEntry} (heligible : entry ∈ eligibleEntries casefold t query)
    (hindirect : ∀ s, ¬ DirectMatch casefold t query entry s) (x : ℚ) :
    IsGreatest (offered (allWays registry o direct_matches (eligibleEntries casefold t query)
      (computeGraph registry t)) entry.id) x ↔
      IsGreatest (reachScores casefold registry t query entry) x := by
  refine isGreatest_iff_of_bounds ?_ ?_ x
  · rintro s ⟨way, hway, hid, rfl⟩
    obtain ⟨hm, href⟩ := mem_allWays.mp hway
    obtain ⟨penalty, hreach, hscore⟩ := reaches_of_ref (s := way.1.score) heligible href hid
    exact ⟨way.1.entry, way.1.score, penalty, ⟨way.1, (hdirect _).mp hm, rfl, rfl⟩, hreach, hscore⟩
  · rintro s ⟨source, score, penalty, hmatch, hreach, rfl⟩
    obtain ⟨m, hm, rfl, rfl⟩ := hmatch
    have hne : entry.id ≠ m.entry.id := by
      intro hid
      have hsame : entry = m.entry :=
        List.inj_on_of_nodup_map eligible_ids heligible (mem_directMatches.mp hm).1 hid
      exact hindirect m.score ⟨m, hm, hsame.symm, rfl⟩
    obtain ⟨ref, href, hid, hle⟩ := ref_of_reaches (o := o) (s := m.score) heligible hne hreach
    exact ⟨_, ⟨(m, ref), mem_allWays.mpr ⟨(hdirect m).mpr hm, href⟩, hid, rfl⟩, hle⟩

theorem mem_values {related : Table String MemoryMatch}
    (hkeyed : ∀ id m, related.get id = some m → m.entry.id = id) {m : MemoryMatch} :
    m ∈ related.rows.map Prod.snd ↔ related.get m.entry.id = some m := by
  rw [List.mem_map]
  constructor
  · rintro ⟨⟨id, m'⟩, hrow, rfl⟩
    have hget : related.get id = some m' := related.mem_rows_iff.mp hrow
    rw [hkeyed id m' hget]
    exact hget
  · intro hget
    exact ⟨(m.entry.id, m), related.mem_rows_iff.mpr hget, rfl⟩

/-- **The related matches, ranked.** -/
theorem related_ranksExactly :
    RanksExactly (RelatedMatch casefold registry t query)
      (rankBy memoryMatchSortKey ((relatedMatches registry o
        (rankBy memoryMatchSortKey (directMatches casefold t query))
        (eligibleEntries casefold t query) (computeGraph registry t)).rows.map Prod.snd)) := by
  have hinv := @relatedMatches_inv registry o
    (rankBy memoryMatchSortKey (directMatches casefold t query)) _
    (@eligible_ids casefold t query) (computeGraph registry t)
  generalize relatedMatches registry o _ _ _ = related at hinv ⊢
  have hdirect : ∀ m, m ∈ rankBy memoryMatchSortKey (directMatches casefold t query) ↔
      m ∈ directMatches casefold t query := fun m => mem_rankBy
  have hkeyed : ∀ id m, related.get id = some m → m.entry.id = id :=
    fun id m hm => (hinv.found id m hm).1
  have hids : ∀ {entry : MemoryEntry}, entry ∈ eligibleEntries casefold t query →
      (entry.id ∉ (rankBy memoryMatchSortKey (directMatches casefold t query)).map
          (fun m => m.entry.id) ↔ ∀ s, ¬ DirectMatch casefold t query entry s) := by
    intro entry heligible
    rw [List.mem_map]
    constructor
    · rintro hnot s ⟨m, hm, rfl, -⟩
      exact hnot ⟨m, (hdirect m).mpr hm, rfl⟩
    · rintro hnone ⟨m, hm, hid⟩
      have hm' := (hdirect m).mp hm
      have hsame : m.entry = entry :=
        List.inj_on_of_nodup_map eligible_ids (mem_directMatches.mp hm').1 heligible hid
      exact hnone m.score ⟨m, hm', hsame, rfl⟩
  refine ⟨ranked_rankBy (sortKey_nodup ?_), fun entry score => ?_⟩
  · have hkeys : (related.rows.map Prod.snd).map (fun m => m.entry.id) =
        related.rows.map Prod.fst := by
      rw [List.map_map]
      exact List.map_congr_left fun row hrow =>
        hkeyed row.1 row.2 (related.mem_rows_iff.mp hrow)
    rw [hkeys]
    exact related.nodup
  · simp only [mem_rankBy, mem_values hkeyed]
    constructor
    · rintro ⟨m, hm, rfl, rfl⟩
      obtain ⟨-, hentry, hnot, hbest⟩ := hinv.found _ m hm
      have heligible : m.entry ∈ eligibleEntries casefold t query :=
        ((entryById_iff eligible_ids).mp hentry).1
      have hindirect := (hids heligible).mp hnot
      exact ⟨heligible, hindirect, (offered_best_iff hdirect heligible hindirect _).mp hbest⟩
    · rintro ⟨heligible, hindirect, hbest⟩
      have hoffered := (offered_best_iff (o := o) hdirect heligible hindirect score).mpr hbest
      have hentry : entryById (eligibleEntries casefold t query) entry.id = some entry :=
        (entryById_iff eligible_ids).mpr ⟨heligible, rfl⟩
      cases hget : related.get entry.id with
      | none =>
        obtain ⟨way, hway, hid, -⟩ := hoffered.1
        rcases hinv.missing _ hget way hway hid with hmem | hnone
        · exact absurd hmem ((hids heligible).mpr hindirect)
        · rw [hnone] at hentry
          cases hentry
      | some m =>
        obtain ⟨hid, hsame, -, hgreatest⟩ := hinv.found _ m hget
        have hmentry : m.entry = entry := Option.some.inj (hsame.symm.trans hentry)
        refine ⟨m, ?_, hmentry, hgreatest.unique hoffered⟩
        rw [hid]
        exact hget

end

/-! ## Searches -/

theorem slice_limit {α : Type} (xs : List α) (limit : Nat) :
    slice xs 0 (limit : Int) = xs.take limit := by
  rw [slice_eq_window (by decide) (Int.natCast_nonneg limit), window]
  rfl

section

variable (casefold : String → String) (registry : RelationDescriptorRegistry)
  (o : SetOrder String) (t : MemoryTables) (query : MemoryQuery)

/-- The direct matches, and behind them the related ones, all of them. -/
def rankedDirect : List MemoryMatch :=
  rankBy memoryMatchSortKey (directMatches casefold t query)

def rankedRelated : List MemoryMatch :=
  rankBy memoryMatchSortKey ((relatedMatches registry o (rankedDirect casefold t query)
    (eligibleEntries casefold t query) (computeGraph registry t)).rows.map Prod.snd)

/-- **A search cuts the direct matches and the related ones behind them at its limit.** -/
theorem search_eq (limit : Nat) (hlimit : query.limit = limit)
    (htokens : queryTokens casefold query.text ≠ []) :
    search registry o casefold t query =
      (rankedDirect casefold t query ++ rankedRelated casefold registry o t query).take limit := by
  unfold search
  rw [if_neg htokens]
  unfold expandRelatedMatches
  rw [hlimit]
  dsimp only
  split
  · rename_i hle
    have hle' : limit ≤ (rankedDirect casefold t query).length := Int.ofNat_le.mp hle
    rw [slice_limit, List.take_append_of_le_length hle']
    rfl
  · rw [slice_limit]
    rfl

end

/-! ## The order of what is stored -/

/-- The same entry, but for the order of the targets of its relations. -/
structure SameButOrder (a b : MemoryEntry) : Prop where
  fields : b = { a with relations := b.relations }
  relations : ∀ field_name id, id ∈ (a.relations.get field_name).getD [] ↔
    id ∈ (b.relations.get field_name).getD []

/-- The same entries, stored in any order. -/
structure SameMemory (t t' : MemoryTables) : Prop where
  forward : ∀ a ∈ listEntries t, ∃ b ∈ listEntries t', SameButOrder a b
  backward : ∀ b ∈ listEntries t', ∃ a ∈ listEntries t, SameButOrder b a

/-- The same descriptors, registered in any order. -/
def SameRegistry (registry registry' : RelationDescriptorRegistry) : Prop :=
  ∀ name, registry.get name = registry'.get name

namespace SameButOrder

variable {a b : MemoryEntry}

theorem id_eq (h : SameButOrder a b) : b.id = a.id := by
  rw [h.fields]

theorem symm (h : SameButOrder a b) : SameButOrder b a where
  fields := by
    rw [h.fields]
  relations field_name id := (h.relations field_name id).symm

theorem targets (h : SameButOrder a b) (descriptor : RelationDescriptor) (id : String) :
    id ∈ relationTargets a descriptor ↔ id ∈ relationTargets b descriptor :=
  h.relations descriptor.source_field id

theorem key_eq (h : SameButOrder a b) (s : ℚ) (reasons reasons' : List String) :
    memoryMatchSortKey ⟨a, s, reasons⟩ = memoryMatchSortKey ⟨b, s, reasons'⟩ := by
  rw [h.fields]
  rfl

theorem scoreEntry_eq (h : SameButOrder a b) (casefold : String → String) (raw_query : String)
    (tokens : List String) : scoreEntry casefold b raw_query tokens =
      (scoreEntry casefold a raw_query tokens).map fun m => { m with entry := b } := by
  have htext : textScore casefold b raw_query tokens = textScore casefold a raw_query tokens := by
    rw [h.fields]
    rfl
  have hstate : b.review_state = a.review_state := by rw [h.fields]
  have hconfidence : b.confidence = a.confidence := by rw [h.fields]
  have himportance : b.importance = a.importance := by rw [h.fields]
  unfold scoreEntry
  rw [htext, hstate, hconfidence, himportance]
  dsimp only
  split
  · rfl
  · rfl

end SameButOrder

theorem SameMemory.symm {t t' : MemoryTables} (h : SameMemory t t') : SameMemory t' t :=
  ⟨h.backward, h.forward⟩

section

variable {casefold : String → String} {registry registry' : RelationDescriptorRegistry}
  {t t' : MemoryTables} {query : MemoryQuery}

theorem SameMemory.eligible (h : SameMemory t t') {a : MemoryEntry}
    (ha : a ∈ eligibleEntries casefold t query) :
    ∃ b ∈ eligibleEntries casefold t' query, SameButOrder a b := by
  obtain ⟨hlisted, hkept⟩ := List.mem_filter.mp ha
  obtain ⟨b, hb, hsame⟩ := h.forward a hlisted
  refine ⟨b, List.mem_filter.mpr ⟨hb, ?_⟩, hsame⟩
  rw [hsame.fields]
  exact hkept

theorem SameMemory.eligible_of_same (h : SameMemory t t') {a b : MemoryEntry}
    (ha : a ∈ eligibleEntries casefold t query) (hb : b ∈ listEntries t')
    (hsame : SameButOrder a b) : b ∈ eligibleEntries casefold t' query := by
  obtain ⟨b', hb', hsame'⟩ := h.eligible ha
  have hid : b'.id = b.id := hsame'.id_eq.trans hsame.id_eq.symm
  rw [← List.inj_on_of_nodup_map (listEntries_ids t') (mem_listEntries_of_eligible hb') hb hid]
  exact hb'

theorem SameMemory.direct (h : SameMemory t t') {a b : MemoryEntry} {s : ℚ}
    (ha : DirectMatch casefold t query a s) (hb : b ∈ listEntries t') (hsame : SameButOrder a b) :
    DirectMatch casefold t' query b s := by
  obtain ⟨m, hm, rfl, rfl⟩ := ha
  obtain ⟨heligible, hbelow, hscore⟩ := mem_directMatches.mp hm
  refine ⟨{ m with entry := b }, mem_directMatches.mpr
    ⟨h.eligible_of_same heligible hb hsame, ?_, ?_⟩, rfl, rfl⟩
  · show belowImportance query b = false
    rw [hsame.fields]
    exact hbelow
  · show scoreEntry casefold b _ _ = _
    rw [hsame.scoreEntry_eq, hscore]
    rfl

theorem directMatch_listed {a : MemoryEntry} {s : ℚ} (h : DirectMatch casefold t query a s) :
    a ∈ eligibleEntries casefold t query := by
  obtain ⟨m, hm, rfl, -⟩ := h
  exact (mem_directMatches.mp hm).1

theorem SameRegistry.records (h : SameRegistry registry registry') {descriptor : RelationDescriptor}
    (hknown : descriptor ∈ registry.records) : descriptor ∈ registry'.records := by
  rw [Shelf.mem_records_iff] at hknown ⊢
  rw [← h]
  exact hknown

theorem SameMemory.edges (h : SameMemory t t') (hregistry : SameRegistry registry registry')
    {e : SymbolicGraphEdge} (he : e ∈ (computeGraph registry t).edges) :
    e ∈ (computeGraph registry' t').edges := by
  obtain ⟨entry, hentry, descriptor, hknown, target_id, hlisted, rfl⟩ := mem_graphEdges.mp he
  obtain ⟨entry', hentry', hsame⟩ := h.forward entry hentry
  refine mem_graphEdges.mpr ⟨entry', hentry', descriptor, hregistry.records hknown, target_id,
    (hsame.targets descriptor target_id).mp hlisted, ?_⟩
  rw [hsame.fields]
  rfl

theorem reachableAlong_congr {edges edges' : List SymbolicGraphEdge}
    (h : ∀ e, e ∈ edges ↔ e ∈ edges') (symmetric : Bool) (relation start v : String) :
    ReachableAlong edges symmetric relation start v ↔
      ReachableAlong edges' symmetric relation start v := by
  have halong : Along edges symmetric relation = Along edges' symmetric relation := by
    funext e u w
    unfold Along
    rw [h e]
  unfold ReachableAlong
  rw [halong]

theorem SameMemory.reaches (h : SameMemory t t') (hregistry : SameRegistry registry registry')
    {a b a' b' : MemoryEntry} {penalty : ℚ} (ha : SameButOrder a a') (hb : SameButOrder b b')
    (hreach : Reaches registry t a b penalty) : Reaches registry' t' a' b' penalty := by
  cases hreach with
  | outgoing descriptor hknown hlisted =>
    refine .outgoing descriptor (hregistry.records hknown) ?_
    rw [hb.id_eq]
    exact (ha.targets _ _).mp hlisted
  | incoming descriptor hknown hlisted =>
    refine .incoming descriptor (hregistry.records hknown) ?_
    rw [ha.id_eq]
    exact (hb.targets _ _).mp hlisted
  | transitive descriptor hknown htransitive hreach =>
    refine .transitive descriptor (hregistry.records hknown) htransitive ?_
    have hedges : ∀ e, e ∈ (computeGraph registry t).edges ↔
        e ∈ (computeGraph registry' t').edges :=
      fun e => ⟨h.edges hregistry, h.symm.edges fun name => (hregistry name).symm⟩
    have hsymmetric : registry'.symmetric descriptor.name = registry.symmetric descriptor.name := by
      unfold RelationDescriptorRegistry.symmetric
      rw [hregistry]
    rw [ha.id_eq, hb.id_eq, hsymmetric, ← reachableAlong_congr hedges]
    exact hreach

theorem SameMemory.reachScores (h : SameMemory t t')
    (hregistry : SameRegistry registry registry') {a b : MemoryEntry} (hsame : SameButOrder a b)
    {s : ℚ} (hs : s ∈ reachScores casefold registry t query a) :
    s ∈ reachScores casefold registry' t' query b := by
  obtain ⟨source, score, penalty, hdirect, hreach, rfl⟩ := hs
  obtain ⟨source', hsource', hsame'⟩ :=
    h.forward source (mem_listEntries_of_eligible (directMatch_listed hdirect))
  exact ⟨source', score, penalty, h.direct hdirect hsource' hsame',
    h.reaches hregistry hsame' hsame hreach, rfl⟩

theorem SameMemory.related (h : SameMemory t t') (hregistry : SameRegistry registry registry')
    {a b : MemoryEntry} {s : ℚ} (ha : RelatedMatch casefold registry t query a s)
    (hb : b ∈ listEntries t') (hsame : SameButOrder a b) :
    RelatedMatch casefold registry' t' query b s where
  eligible := h.eligible_of_same ha.eligible hb hsame
  indirect s' hdirect :=
    ha.indirect s' (h.symm.direct hdirect (mem_listEntries_of_eligible ha.eligible) hsame.symm)
  best := by
    have hset : NuSelf.Memory.reachScores casefold registry' t' query b =
        NuSelf.Memory.reachScores casefold registry t query a :=
      Set.ext fun s => ⟨h.symm.reachScores (fun name => (hregistry name).symm) hsame.symm,
        h.reachScores hregistry hsame⟩
    rw [hset]
    exact ha.best

theorem RanksExactly.keys_eq {wanted wanted' : MemoryEntry → ℚ → Prop}
    {found found' : List MemoryMatch} (h : RanksExactly wanted found)
    (h' : RanksExactly wanted' found')
    (hforward : ∀ a s, wanted a s → ∃ b, SameButOrder a b ∧ wanted' b s)
    (hbackward : ∀ b s, wanted' b s → ∃ a, SameButOrder b a ∧ wanted a s) :
    found.map memoryMatchSortKey = found'.map memoryMatchSortKey := by
  have hsub : ∀ {wanted wanted' : MemoryEntry → ℚ → Prop} {found found' : List MemoryMatch},
      RanksExactly wanted found → RanksExactly wanted' found' →
      (∀ a s, wanted a s → ∃ b, SameButOrder a b ∧ wanted' b s) →
      ∀ k, k ∈ found.map memoryMatchSortKey → k ∈ found'.map memoryMatchSortKey := by
    intro wanted wanted' found found' h h' hforward k hk
    obtain ⟨m, hm, rfl⟩ := List.mem_map.mp hk
    obtain ⟨b, hsame, hb⟩ := hforward _ _ ((h.exact m.entry m.score).mp ⟨m, hm, rfl, rfl⟩)
    obtain ⟨m', hm', rfl, hscore⟩ := (h'.exact b m.score).mpr hb
    refine List.mem_map.mpr ⟨m', hm', ?_⟩
    rw [← hsame.symm.key_eq m.score m'.reasons m.reasons, ← hscore]
  exact ranked_eq h.ranked.map h'.ranked.map
    fun k => ⟨hsub h h' hforward k, hsub h' h hbackward k⟩

end

/-! ## What a search returns -/

section

variable {casefold : String → String} {registry : RelationDescriptorRegistry}
  {o : SetOrder String} {t : MemoryTables} {query : MemoryQuery}

theorem RanksExactly.ids {wanted : MemoryEntry → ℚ → Prop} {found : List MemoryMatch}
    (h : RanksExactly wanted found)
    (hunique : ∀ a s b s', wanted a s → wanted b s' → a.id = b.id → a = b ∧ s = s') :
    (found.map fun m => m.entry.id).Nodup := by
  have hkeys := h.ranked.nodup
  refine (List.nodup_map_iff_inj_on (List.Nodup.of_map _ hkeys)).mpr fun m hm m' hm' hid => ?_
  obtain ⟨hentry, hscore⟩ := hunique _ _ _ _ ((h.exact _ _).mp ⟨m, hm, rfl, rfl⟩)
    ((h.exact _ _).mp ⟨m', hm', rfl, rfl⟩) hid
  refine List.inj_on_of_nodup_map hkeys hm hm' ?_
  unfold memoryMatchSortKey
  rw [hentry, hscore]

theorem directMatch_unique {a b : MemoryEntry} {s s' : ℚ}
    (ha : DirectMatch casefold t query a s) (hb : DirectMatch casefold t query b s')
    (hid : a.id = b.id) : a = b ∧ s = s' := by
  obtain ⟨m, hm, rfl, rfl⟩ := ha
  obtain ⟨m', hm', rfl, rfl⟩ := hb
  obtain rfl : m = m' := List.inj_on_of_nodup_map direct_ids hm hm' hid
  exact ⟨rfl, rfl⟩

theorem relatedMatch_unique {a b : MemoryEntry} {s s' : ℚ}
    (ha : RelatedMatch casefold registry t query a s)
    (hb : RelatedMatch casefold registry t query b s') (hid : a.id = b.id) : a = b ∧ s = s' := by
  obtain rfl : a = b := List.inj_on_of_nodup_map eligible_ids ha.eligible hb.eligible hid
  exact ⟨rfl, ha.best.unique hb.best⟩

theorem rankedDirect_exact : RanksExactly (DirectMatch casefold t query)
    (rankedDirect casefold t query) := direct_ranksExactly

theorem rankedRelated_exact : RanksExactly (RelatedMatch casefold registry t query)
    (rankedRelated casefold registry o t query) := related_ranksExactly

theorem ranked_ids : ((rankedDirect casefold t query ++
    rankedRelated casefold registry o t query).map fun m => m.entry.id).Nodup := by
  rw [List.map_append, List.nodup_append']
  refine ⟨rankedDirect_exact.ids fun _ _ _ _ => directMatch_unique,
    rankedRelated_exact.ids fun _ _ _ _ => relatedMatch_unique, fun id hdirect hrelated => ?_⟩
  obtain ⟨m, hm, rfl⟩ := List.mem_map.mp hdirect
  obtain ⟨m', hm', hid⟩ := List.mem_map.mp hrelated
  have hmatch := (rankedDirect_exact.exact _ _).mp ⟨m, hm, rfl, rfl⟩
  have hother := ((rankedRelated_exact (o := o)).exact _ _).mp ⟨m', hm', rfl, rfl⟩
  have hsame : m'.entry = m.entry := List.inj_on_of_nodup_map eligible_ids hother.eligible
    (directMatch_listed hmatch) hid
  rw [hsame] at hother
  exact hother.indirect _ hmatch

theorem pairs_of_keys {found found' : List MemoryMatch}
    (h : found.map memoryMatchSortKey = found'.map memoryMatchSortKey) :
    found.map (fun m => (m.entry.id, m.score)) = found'.map fun m => (m.entry.id, m.score) := by
  have hread := congrArg (List.map fun key : ℚ ×ₗ String ×ₗ String =>
    ((ofLex (ofLex key).2).2, -(ofLex key).1)) h
  rw [List.map_map, List.map_map] at hread
  have hpair : (fun key : ℚ ×ₗ String ×ₗ String => ((ofLex (ofLex key).2).2, -(ofLex key).1)) ∘
      memoryMatchSortKey = fun m : MemoryMatch => (m.entry.id, m.score) := by
    funext m
    show (m.entry.id, - -m.score) = _
    rw [neg_neg]
  rw [hpair] at hread
  exact hread

section Order

variable {registry' : RelationDescriptorRegistry} {o' : SetOrder String} {t' : MemoryTables}

theorem SameMemory.direct_keys (h : SameMemory t t') :
    (rankedDirect casefold t' query).map memoryMatchSortKey =
      (rankedDirect casefold t query).map memoryMatchSortKey := by
  refine rankedDirect_exact.keys_eq rankedDirect_exact (fun a s ha => ?_) fun b s hb => ?_
  · obtain ⟨b, hb, hsame⟩ := h.symm.forward a (mem_listEntries_of_eligible (directMatch_listed ha))
    exact ⟨b, hsame, h.symm.direct ha hb hsame⟩
  · obtain ⟨a, ha, hsame⟩ := h.forward b (mem_listEntries_of_eligible (directMatch_listed hb))
    exact ⟨a, hsame, h.direct hb ha hsame⟩

theorem SameMemory.related_keys (h : SameMemory t t')
    (hregistry : SameRegistry registry registry') :
    (rankedRelated casefold registry' o' t' query).map memoryMatchSortKey =
      (rankedRelated casefold registry o t query).map memoryMatchSortKey := by
  have hregistry' : SameRegistry registry' registry := fun name => (hregistry name).symm
  refine rankedRelated_exact.keys_eq rankedRelated_exact (fun a s ha => ?_) fun b s hb => ?_
  · obtain ⟨b, hb, hsame⟩ := h.symm.forward a (mem_listEntries_of_eligible ha.eligible)
    exact ⟨b, hsame, h.symm.related hregistry' ha hb hsame⟩
  · obtain ⟨a, ha, hsame⟩ := h.forward b (mem_listEntries_of_eligible hb.eligible)
    exact ⟨a, hsame, h.related hregistry hb ha hsame⟩

end Order

/-- **Related-match expansion**: at most as many matches as the limit allows, no entry twice, the
    direct matches and then the related ones in the order of their rank, each related match with the
    best score of the relations that reach it; the order of what is stored does not matter. -/
theorem search_expansion (casefold : String → String) (registry : RelationDescriptorRegistry)
    (o : SetOrder String) (t : MemoryTables) (query : MemoryQuery) (limit : Nat) :
    let q := { query with limit := (limit : Int) }
    let result := search registry o casefold t q
    result.length ≤ limit ∧ (result.map fun m => m.entry.id).Nodup ∧
      (∃ direct related, RanksExactly (DirectMatch casefold t q) direct ∧
        RanksExactly (RelatedMatch casefold registry t q) related ∧
        result = if queryTokens casefold q.text = [] then [] else (direct ++ related).take limit) ∧
      ∀ registry' o' t', SameRegistry registry registry' → SameMemory t t' →
        (search registry' o' casefold t' q).map (fun m => (m.entry.id, m.score)) =
          result.map fun m => (m.entry.id, m.score) := by
  intro q result
  by_cases htokens : queryTokens casefold q.text = []
  · have hnothing : ∀ registry' o' t', search registry' o' casefold t' q = [] :=
      fun registry' o' t' => if_pos htokens
    have hresult : result = [] := hnothing registry o t
    rw [hresult]
    refine ⟨Nat.zero_le _, List.nodup_nil, ⟨_, _, rankedDirect_exact,
      rankedRelated_exact (o := o), (if_pos htokens).symm⟩, fun registry' o' t' _ _ => ?_⟩
    rw [hnothing]
  · have hresult : result = (rankedDirect casefold t q ++
        rankedRelated casefold registry o t q).take limit :=
      search_eq casefold registry o t q limit rfl htokens
    refine ⟨?_, ?_, ⟨_, _, rankedDirect_exact, rankedRelated_exact (o := o), ?_⟩,
      fun registry' o' t' hregistry hmemory => ?_⟩
    · rw [hresult]
      exact List.length_take_le _ _
    · rw [hresult, List.map_take]
      exact ranked_ids.sublist (List.take_sublist _ _)
    · rw [if_neg htokens]
      exact hresult
    · refine pairs_of_keys ?_
      rw [hresult, search_eq casefold registry' o' t' q limit rfl htokens, List.map_take,
        List.map_take, List.map_append, List.map_append, hmemory.direct_keys,
        hmemory.related_keys hregistry]

end

end NuSelf.Memory
