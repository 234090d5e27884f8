/-
  The organizer of pending reflections, and what it may write.

  It lists the pending entries once and groups them: an entry that no group has yet leads one, and
  takes in every other such entry that is similar to it.  Of a group with more than one member the
  best entry is saved again as pending, with the notes of the others in its body, and the others
  are saved as archived.  All of this is computed from the one listing.

  1. `similar_comm` — similarity has no direction.
  2. `mem_similarGroups` — the members of a group are listed, and similar to its leader.
  3. `mem_organizerWrites` — every entry that is written is similar to another listed one.
-/
import Mathlib.Data.Finset.Card
import NuSelf.Reflection.Model

namespace NuSelf.Reflection

open NuSelf.Lib

/-! ## Similarity -/

def tokenChar (c : Char) : Bool :=
  c.isAlphanum || c == '_' || (0x4e00 ≤ c.toNat && c.toNat ≤ 0x9fff)

/-- The maximal runs of token characters; `cur` is the run being read, backwards. -/
def tokenRuns : List Char → List Char → List String
  | [], cur => if cur.isEmpty then [] else [String.ofList cur.reverse]
  | c :: rest, cur =>
    if tokenChar c then tokenRuns rest (c :: cur)
    else if cur.isEmpty then tokenRuns rest []
    else String.ofList cur.reverse :: tokenRuns rest []

def stopwords : List String :=
  ["the", "and", "for", "with", "that", "this", "your", "you", "are", "可以", "一个", "这个", "那个",
    "我们"]

section

variable (casefold : String → String)

def tokens (text : String) : Finset String :=
  ((tokenRuns (casefold text).toList []).filter fun token =>
    decide (2 ≤ token.length) && !stopwords.contains token).toFinset

/-- `_similarity(left, right) >= SIMILARITY_THRESHOLD`: the shared tokens are at least 0.48 of all.
    The float quotient compares like the fraction, for fewer than `10 ^ 15` tokens. -/
def similar (left right : ReflectionEntry) : Bool :=
  let left_tokens := tokens casefold (left.title ++ " " ++ left.body)
  let right_tokens := tokens casefold (right.title ++ " " ++ right.body)
  if left_tokens = ∅ ∨ right_tokens = ∅ then false
  else decide (12 * (left_tokens ∪ right_tokens).card ≤ 25 * (left_tokens ∩ right_tokens).card)

theorem similar_comm (left right : ReflectionEntry) :
    similar casefold left right = similar casefold right left := by
  unfold similar
  simp only [Finset.union_comm, Finset.inter_comm, or_comm]

/-! ## Groups -/

/-- The inner loop of `_similar_groups`: what the leader takes in. -/
def takenIn (leader : ReflectionEntry) : List ReflectionEntry → List String → List ReflectionEntry
  | [], _ => []
  | other :: rest, assigned =>
    if other.id ∈ assigned then takenIn leader rest assigned
    else if similar casefold leader other then
      other :: takenIn leader rest (other.id :: assigned)
    else takenIn leader rest assigned

/-- A group: the entry that leads it and those it took in. -/
structure SimilarGroup where
  leader : ReflectionEntry
  others : List ReflectionEntry

def SimilarGroup.entries (group : SimilarGroup) : List ReflectionEntry :=
  group.leader :: group.others

/-- The outer loop of `_similar_groups`. -/
def similarGroupsFrom (entries : List ReflectionEntry) :
    List ReflectionEntry → List String → List SimilarGroup
  | [], _ => []
  | entry :: rest, assigned =>
    if entry.id ∈ assigned then similarGroupsFrom entries rest assigned
    else
      let group : SimilarGroup := ⟨entry, takenIn casefold entry entries (entry.id :: assigned)⟩
      group :: similarGroupsFrom entries rest (group.entries.map (·.id) ++ assigned)

def similarGroups (entries : List ReflectionEntry) : List SimilarGroup :=
  similarGroupsFrom casefold entries entries []

/-! ## What is written -/

/-- The keys of `_primary_entry`, compared as tuples. -/
def primaryLess (a b : ReflectionEntry) : Bool :=
  if !a.composite_score.eq b.composite_score then a.composite_score.lt b.composite_score
  else if !a.confidence.eq b.confidence then a.confidence.lt b.confidence
  else if a.created_at ≠ b.created_at then decide (a.created_at < b.created_at)
  else decide (a.id < b.id)

/-- `_primary_entry`: the first of the greatest. -/
def primaryEntry (group : SimilarGroup) : ReflectionEntry :=
  group.others.foldl (fun best entry => if primaryLess best entry then entry else best) group.leader

/-- One line of the notes. -/
def mergedNote (entry : ReflectionEntry) : String :=
  let snippet := " ".intercalate (words entry.body)
  let shown :=
    if 180 < snippet.length then rstrip (String.ofList (snippet.toList.take 177)) ++ "..."
    else snippet
  "- " ++ entry.title ++ ": " ++ shown

/-- The entries by their time, then by their id. -/
def noteOrder (a b : ReflectionEntry) : Bool :=
  decide (a.created_at < b.created_at) || (a.created_at == b.created_at && decide (a.id ≤ b.id))

def mergeEntries (primary : ReflectionEntry) (duplicates : List ReflectionEntry) :
    ReflectionEntry :=
  let notes := (duplicates.mergeSort noteOrder).map mergedNote
  { primary with
    body :=
      if notes = [] then primary.body
      else primary.body ++ "\n\nMerged similar reflection notes:\n" ++ "\n".intercalate notes
    confidence := primary.confidence.maxOf (duplicates.map (·.confidence))
    novelty := primary.novelty.maxOf (duplicates.map (·.novelty))
    urgency := primary.urgency.maxOf (duplicates.map (·.urgency))
    interruption_cost := primary.interruption_cost.minOf (duplicates.map (·.interruption_cost))
    composite_score := primary.composite_score.maxOf (duplicates.map (·.composite_score))
    status := .pending
    reviewed_at := none }

/-- A save that the organizer is going to make. -/
inductive OrganizerWrite where
  /-- The merged primary, pending. -/
  | merged (entry : ReflectionEntry)
  /-- A duplicate, to be archived. -/
  | duplicate (entry : ReflectionEntry)

def OrganizerWrite.id : OrganizerWrite → String
  | .merged entry => entry.id
  | .duplicate entry => entry.id

/-- The entry that is saved; `now` is the clock of `with_status`. -/
def OrganizerWrite.saved (now : String) : OrganizerWrite → ReflectionEntry
  | .merged entry => entry
  | .duplicate entry => entry.withStatus .archived now

/-- The entries of a group other than its primary one. -/
def duplicatesOf (group : SimilarGroup) : List ReflectionEntry :=
  group.entries.filter fun entry => decide (entry.id ≠ (primaryEntry group).id)

/-- The saves for one group. -/
def groupWrites (group : SimilarGroup) : List OrganizerWrite :=
  let duplicates := duplicatesOf group
  if duplicates = [] then []
  else .merged (mergeEntries (primaryEntry group) duplicates) :: duplicates.map .duplicate

/-- All saves of `organize_pending`, in order. -/
def organizerWrites (pending : List ReflectionEntry) : List OrganizerWrite :=
  (similarGroups casefold pending).flatMap groupWrites

/-- `ReflectionOrganizationResult`: the merged groups and the archived entries. -/
def organizationResult (pending : List ReflectionEntry) : Nat × Nat :=
  let groups := similarGroups casefold pending
  ((groups.filter fun group => decide (1 < group.entries.length)).length,
    (groups.map fun group => (duplicatesOf group).length).sum)

/-! ## The members of a group -/

variable {casefold}

theorem mem_takenIn {leader : ReflectionEntry} : ∀ {entries : List ReflectionEntry}
    {assigned : List String} {other : ReflectionEntry},
    other ∈ takenIn casefold leader entries assigned →
      other ∈ entries ∧ other.id ∉ assigned ∧ similar casefold leader other = true
  | [], _, _, h => nomatch h
  | entry :: rest, assigned, other, h => by
    rw [takenIn] at h
    split at h
    · obtain ⟨hmem, hnew, hsimilar⟩ := mem_takenIn h
      exact ⟨List.mem_cons_of_mem _ hmem, hnew, hsimilar⟩
    · rename_i hfree
      split at h
      · rename_i hsimilar
        rcases List.mem_cons.mp h with rfl | h
        · exact ⟨List.mem_cons_self, hfree, hsimilar⟩
        · obtain ⟨hmem, hnew, hother⟩ := mem_takenIn h
          exact ⟨List.mem_cons_of_mem _ hmem, fun ha => hnew (List.mem_cons_of_mem _ ha), hother⟩
      · obtain ⟨hmem, hnew, hother⟩ := mem_takenIn h
        exact ⟨List.mem_cons_of_mem _ hmem, hnew, hother⟩

/-- The leader is listed, and so are the others, each under another id and similar to it. -/
structure SimilarGroup.Within (group : SimilarGroup) (casefold : String → String)
    (entries : List ReflectionEntry) : Prop where
  leader : group.leader ∈ entries
  others : ∀ other ∈ group.others, other ∈ entries ∧ other.id ≠ group.leader.id ∧
    similar casefold group.leader other = true

theorem mem_similarGroupsFrom {entries : List ReflectionEntry} : ∀ {rest : List ReflectionEntry}
    {assigned : List String} {group : SimilarGroup}, (∀ entry ∈ rest, entry ∈ entries) →
    group ∈ similarGroupsFrom casefold entries rest assigned → group.Within casefold entries
  | [], _, _, _, h => nomatch h
  | entry :: rest, assigned, group, hrest, h => by
    obtain ⟨hentry, hrest⟩ := List.forall_mem_cons.mp hrest
    rw [similarGroupsFrom] at h
    split at h
    · exact mem_similarGroupsFrom hrest h
    · rcases List.mem_cons.mp h with rfl | h
      · refine ⟨hentry, fun other hother => ?_⟩
        obtain ⟨hmem, hnew, hsimilar⟩ := mem_takenIn hother
        exact ⟨hmem, fun he => hnew (he ▸ List.mem_cons_self), hsimilar⟩
      · exact mem_similarGroupsFrom hrest h

/-- **The groups** are made of listed entries. -/
theorem mem_similarGroups {entries : List ReflectionEntry} {group : SimilarGroup}
    (h : group ∈ similarGroups casefold entries) : group.Within casefold entries :=
  mem_similarGroupsFrom (fun _ he => he) h

theorem SimilarGroup.Within.mem {group : SimilarGroup} {entries : List ReflectionEntry}
    (h : group.Within casefold entries) : ∀ entry ∈ group.entries, entry ∈ entries :=
  List.forall_mem_cons.mpr ⟨h.leader, fun other hother => (h.others other hother).1⟩

theorem primaryEntry_mem (group : SimilarGroup) : primaryEntry group ∈ group.entries :=
  best_mem primaryLess group.others group.leader

theorem others_ne_nil {group : SimilarGroup} (h : duplicatesOf group ≠ []) : group.others ≠ [] := by
  intro hnil
  refine h (List.filter_eq_nil_iff.mpr fun entry hentry hne => ?_)
  have hprimary := primaryEntry_mem group
  rw [SimilarGroup.entries, hnil, List.mem_singleton] at hentry hprimary
  rw [hentry, hprimary] at hne
  exact of_decide_eq_true hne rfl

/-- The listing has another entry that is similar to this one. -/
def HasSimilar (casefold : String → String) (entries : List ReflectionEntry) (id : String) : Prop :=
  ∃ entry ∈ entries, entry.id = id ∧ ∃ other ∈ entries, other.id ≠ id ∧
    similar casefold entry other = true

theorem SimilarGroup.Within.hasSimilar {group : SimilarGroup} {entries : List ReflectionEntry}
    (h : group.Within casefold entries) (hothers : group.others ≠ []) {entry : ReflectionEntry}
    (hentry : entry ∈ group.entries) : HasSimilar casefold entries entry.id := by
  refine ⟨entry, h.mem entry hentry, rfl, ?_⟩
  rcases List.mem_cons.mp hentry with rfl | hentry
  · obtain ⟨other, hother⟩ := List.exists_mem_of_ne_nil _ hothers
    obtain ⟨hmem, hne, hsimilar⟩ := h.others other hother
    exact ⟨other, hmem, hne, hsimilar⟩
  · obtain ⟨-, hne, hsimilar⟩ := h.others entry hentry
    rw [similar_comm] at hsimilar
    exact ⟨group.leader, h.leader, hne.symm, hsimilar⟩

/-! ## The writes -/

theorem mergeEntries_finite {primary : ReflectionEntry} {duplicates : List ReflectionEntry}
    (hprimary : primary.finite = true) (hduplicates : ∀ entry ∈ duplicates, entry.finite = true) :
    (mergeEntries primary duplicates).finite = true := by
  have hmap : ∀ field : ReflectionEntry → Double, (field primary).isFinite = true →
      (∀ entry ∈ duplicates, (field entry).isFinite = true) →
      ∀ x ∈ field primary :: duplicates.map field, x.isFinite = true := by
    intro field hprimary hfield
    refine List.forall_mem_cons.mpr ⟨hprimary, fun x hx => ?_⟩
    obtain ⟨entry, hentry, rfl⟩ := List.mem_map.mp hx
    exact hfield entry hentry
  simp only [ReflectionEntry.finite, Bool.and_eq_true] at hprimary hduplicates ⊢
  obtain ⟨⟨⟨⟨hconfidence, hnovelty⟩, hurgency⟩, hinterruption⟩, hcomposite⟩ := hprimary
  refine ⟨⟨⟨⟨?_, ?_⟩, ?_⟩, ?_⟩, ?_⟩
  · exact hmap _ hconfidence (fun e he => (hduplicates e he).1.1.1.1) _ (Double.maxOf_mem _ _)
  · exact hmap _ hnovelty (fun e he => (hduplicates e he).1.1.1.2) _ (Double.maxOf_mem _ _)
  · exact hmap _ hurgency (fun e he => (hduplicates e he).1.1.2) _ (Double.maxOf_mem _ _)
  · exact hmap _ hinterruption (fun e he => (hduplicates e he).1.2) _ (Double.minOf_mem _ _)
  · exact hmap _ hcomposite (fun e he => (hduplicates e he).2) _ (Double.maxOf_mem _ _)

/-- What is known of a save before it is made. -/
structure OrganizerWrite.Justified (write : OrganizerWrite) (casefold : String → String)
    (pending : List ReflectionEntry) : Prop where
  similar : HasSimilar casefold pending write.id
  finite : ∀ now, (write.saved now).finite = true

theorem mem_groupWrites {group : SimilarGroup} {entries : List ReflectionEntry}
    (h : group.Within casefold entries) (hfinite : ∀ entry ∈ entries, entry.finite = true)
    {write : OrganizerWrite} (hwrite : write ∈ groupWrites group) :
    write.Justified casefold entries := by
  rw [groupWrites] at hwrite
  split at hwrite
  · cases hwrite
  · rename_i hduplicates
    have hothers := others_ne_nil hduplicates
    have hgroup : ∀ entry ∈ group.entries, entry.finite = true :=
      fun entry hentry => hfinite entry (h.mem entry hentry)
    have hof : ∀ entry ∈ duplicatesOf group, entry ∈ group.entries :=
      fun entry hentry => List.mem_of_mem_filter hentry
    rcases List.mem_cons.mp hwrite with rfl | hwrite
    · have hprimary := primaryEntry_mem group
      have hsimilar := h.hasSimilar hothers hprimary
      have hmerged := mergeEntries_finite (hgroup _ hprimary)
        fun entry hentry => hgroup _ (hof entry hentry)
      exact ⟨hsimilar, fun _ => hmerged⟩
    · obtain ⟨entry, hentry, rfl⟩ := List.mem_map.mp hwrite
      refine ⟨h.hasSimilar hothers (hof entry hentry), fun now => ?_⟩
      rw [OrganizerWrite.saved, ReflectionEntry.withStatus_finite]
      exact hgroup _ (hof entry hentry)

/-- **Every save is of an entry that is similar to another listed one.** -/
theorem mem_organizerWrites {entries : List ReflectionEntry}
    (hfinite : ∀ entry ∈ entries, entry.finite = true) {write : OrganizerWrite}
    (hwrite : write ∈ organizerWrites casefold entries) : write.Justified casefold entries := by
  obtain ⟨group, hgroup, hmem⟩ := List.mem_flatMap.mp hwrite
  exact mem_groupWrites (mem_similarGroups hgroup) hfinite hmem

end

end NuSelf.Reflection
