/-
  Reviewing reflections while the organizer runs.

  A review reads its entry and saves it with its new status; the organizer reads the pending
  entries and then saves one entry after the other.  No call holds anything between its read and a
  save, so a run is any sequence of reads and saves of any number of callers.

  A save of the organizer writes the merged primary as it was listed, pending.  If the user has
  dismissed or archived that entry since the listing, the review is undone.

  1. `justified_step` — what a caller is about to write comes from its own listing.
  2. `save_keeps_iff` — one save keeps all reviews, exactly when it is no merged primary over a
     reviewed entry.
  3. `reviewed_stays_iff` — so does a run, exactly when all its saves are such; entries without a
     similar one are never touched.
-/
import Mathlib.Logic.Function.Basic
import NuSelf.Lib.Run
import NuSelf.Reflection.Organizer

namespace NuSelf.Reflection

open NuSelf.Lib

/-! ## Callers -/

inductive Review where
  | dismiss | archive
  deriving DecidableEq

def Review.status : Review → ReflectionStatus
  | .dismiss => .dismissed
  | .archive => .archived

/-- A caller between its read and its last save. -/
inductive ReviewCaller where
  /-- In `organize_pending`: what it has listed, and the saves it has still to make. -/
  | organizing (pending : List ReflectionEntry) (writes : List OrganizerWrite)
  /-- In `dismiss_entry` or `archive_entry`, with the entry it has read. -/
  | reviewing (entry : ReflectionEntry) (review : Review)

structure ReviewSystem (ω : Type) where
  entries : ReflectionEntries
  callers : ω → Option ReviewCaller := fun _ => none

inductive ReviewInput (ω : Type) where
  /-- `organize_pending` lists. -/
  | organize (caller : ω)
  /-- `dismiss_entry` or `archive_entry` reads its entry. -/
  | review (caller : ω) (id_or_index : String) (review : Review)
  /-- The next save of the caller; `now` is the clock of `with_status`. -/
  | save (caller : ω) (now : String)
  /-- The call ends with an error of the storage. -/
  | fail (caller : ω)

inductive ReviewOutput where
  | read
  /-- `ValueError`. -/
  | notFound (id_or_index : String)
  | saved (id : String)
  | failed
  /-- The caller cannot do this now. -/
  | ignored
  deriving DecidableEq

namespace ReviewSystem

variable {ω : Type} [DecidableEq ω] (casefold : String → String) (index : String → Option Nat)

/-- `_resolve_entry`: by id, else by index; `index` is what `isdigit` and `int` make of a text. -/
def resolveEntry (entries : ReflectionEntries) (id_or_index : String) : Option ReflectionEntry :=
  match entries.get id_or_index with
  | some entry => some entry
  | none => (index id_or_index).bind fun i => (entries.list none)[i]?

def setCaller (s : ReviewSystem ω) (caller : ω) (c : Option ReviewCaller) : ReviewSystem ω :=
  { s with callers := Function.update s.callers caller c }

/-- `ReflectionRepository.save` by a caller that then goes on as `next`. -/
def saveAs (s : ReviewSystem ω) (caller : ω) (entry : ReflectionEntry)
    (next : Option ReviewCaller) : ReviewSystem ω × ReviewOutput :=
  match s.entries.save entry with
  | none => (s.setCaller caller none, .failed)
  | some entries => ({ s with entries }.setCaller caller next, .saved entry.id)

def step (s : ReviewSystem ω) : ReviewInput ω → ReviewSystem ω × ReviewOutput
  | .organize caller =>
    match s.callers caller with
    | some _ => (s, .ignored)
    | none =>
      let pending := s.entries.list (some .pending)
      (s.setCaller caller (some (.organizing pending (organizerWrites casefold pending))), .read)
  | .review caller id_or_index review =>
    match s.callers caller with
    | some _ => (s, .ignored)
    | none =>
      match resolveEntry index s.entries id_or_index with
      | none => (s, .notFound id_or_index)
      | some entry => (s.setCaller caller (some (.reviewing entry review)), .read)
  | .save caller now =>
    match s.callers caller with
    | none | some (.organizing _ []) => (s.setCaller caller none, .ignored)
    | some (.organizing pending (write :: writes)) =>
      s.saveAs caller (write.saved now) (some (.organizing pending writes))
    | some (.reviewing entry review) =>
      s.saveAs caller (entry.withStatus review.status now) none
  | .fail caller => (s.setCaller caller none, .failed)

end ReviewSystem

/-! ## What is asked of a run -/

section

variable {ω : Type} [DecidableEq ω]

/-- The entry is there, dismissed or archived. -/
def Reviewed (entries : ReflectionEntries) (id : String) : Prop :=
  ∃ entry, entries.get id = some entry ∧ entry.status ≠ .pending

/-- The step leaves every review as it is, and an organizer changes no entry without a similar one
    in its listing. -/
structure KeepsReviews (casefold : String → String)
    (e : Step (ReviewSystem ω) (ReviewInput ω) ReviewOutput) : Prop where
  reviewed : ∀ id, Reviewed e.before.entries id → Reviewed e.after.entries id
  untouched : ∀ caller now pending writes, e.input = .save caller now →
    e.before.callers caller = some (.organizing pending writes) →
    ∀ id, ¬ HasSimilar casefold pending id → e.after.entries.get id = e.before.entries.get id

/-- A merged primary is saved only while its entry is still pending. -/
def PrimaryPending (s : ReviewSystem ω) (i : ReviewInput ω) : Prop :=
  ∀ caller now pending merged writes, i = .save caller now →
    s.callers caller = some (.organizing pending (.merged merged :: writes)) →
    ∀ stored, s.entries.get merged.id = some stored → stored.status = .pending

/-! ## The invariant -/

/-- What a caller is about to write. -/
def CallerJustified (casefold : String → String) : ReviewCaller → Prop
  | .organizing pending writes =>
    ∀ write ∈ writes, write.Justified casefold pending ∧
      ∀ merged, write = .merged merged → merged.status = .pending
  | .reviewing entry _ => entry.finite = true

/-- Every caller writes what it has read. -/
def Justified (casefold : String → String) (s : ReviewSystem ω) : Prop :=
  ∀ caller c, s.callers caller = some c → CallerJustified casefold c

theorem mem_groupWrites_merged {group : SimilarGroup} {merged : ReflectionEntry}
    (h : OrganizerWrite.merged merged ∈ groupWrites group) : merged.status = .pending := by
  rw [groupWrites] at h
  split at h
  · cases h
  · rcases List.mem_cons.mp h with h | h
    · cases h
      rfl
    · obtain ⟨entry, -, hentry⟩ := List.mem_map.mp h
      cases hentry

variable {casefold : String → String} {index : String → Option Nat} {s : ReviewSystem ω}

theorem justified_listed (entries : ReflectionEntries) :
    CallerJustified casefold (.organizing (entries.list (some .pending))
      (organizerWrites casefold (entries.list (some .pending)))) := by
  intro write hwrite
  have hfinite : ∀ entry ∈ entries.list (some .pending), entry.finite = true := fun entry hentry =>
    entries.valid_of_get (ReflectionEntries.mem_list_iff.mp hentry).1
  refine ⟨mem_organizerWrites hfinite hwrite, ?_⟩
  rintro merged rfl
  obtain ⟨group, -, hmem⟩ := List.mem_flatMap.mp hwrite
  exact mem_groupWrites_merged hmem

omit [DecidableEq ω] in
theorem resolveEntry_finite {entries : ReflectionEntries} {id_or_index : String}
    {entry : ReflectionEntry}
    (h : ReviewSystem.resolveEntry index entries id_or_index = some entry) :
    entry.finite = true := by
  rw [ReviewSystem.resolveEntry] at h
  split at h
  · rename_i found hget
    cases h
    exact entries.valid_of_get hget
  · obtain ⟨i, -, hentry⟩ := Option.bind_eq_some_iff.mp h
    have hmem := List.mem_of_getElem? hentry
    exact entries.valid_of_get (ReflectionEntries.mem_list_iff.mp hmem).1

theorem Justified.setCaller (h : Justified casefold s) {caller : ω} {c : Option ReviewCaller}
    (hc : ∀ c' ∈ c, CallerJustified casefold c') :
    Justified casefold (s.setCaller caller c) := by
  intro q c' hq
  rw [ReviewSystem.setCaller] at hq
  simp only [Function.update_apply] at hq
  split at hq
  · exact hc c' hq
  · exact h q c' hq

theorem Justified.saveAs (h : Justified casefold s) {caller : ω} {entry : ReflectionEntry}
    {next : Option ReviewCaller} (hnext : ∀ c ∈ next, CallerJustified casefold c) :
    Justified casefold (s.saveAs caller entry next).1 := by
  rw [ReviewSystem.saveAs]
  split
  · exact h.setCaller fun _ hc => nomatch hc
  · rename_i entries _
    have hentries : Justified casefold { s with entries } := h
    exact hentries.setCaller hnext

/-- **Every caller writes what it has read**, after each step. -/
theorem justified_step (h : Justified casefold s) (i : ReviewInput ω) :
    Justified casefold (s.step casefold index i).1 := by
  have hnone : ∀ c ∈ (none : Option ReviewCaller), CallerJustified casefold c :=
    fun _ hc => nomatch hc
  cases i with
  | organize caller =>
    rw [ReviewSystem.step]
    split
    · exact h
    · refine h.setCaller fun c hc => ?_
      cases hc
      exact justified_listed s.entries
  | review caller id_or_index review =>
    rw [ReviewSystem.step]
    split
    · exact h
    · split
      · exact h
      · rename_i entry hentry
        refine h.setCaller fun c hc => ?_
        cases hc
        exact resolveEntry_finite hentry
  | save caller now =>
    rw [ReviewSystem.step]
    split
    · exact h.setCaller hnone
    · exact h.setCaller hnone
    · rename_i pending write writes hcaller
      refine h.saveAs fun c hc => ?_
      cases hc
      exact fun w hw => h caller _ hcaller w (List.mem_cons_of_mem _ hw)
    · exact h.saveAs hnone
  | fail caller => exact h.setCaller hnone

/-! ## One step -/

theorem get_saveAs {caller : ω} {entry : ReflectionEntry} {next : Option ReviewCaller}
    (hfinite : entry.finite = true) (id : String) :
    (s.saveAs caller entry next).1.entries.get id =
      if id = entry.id then some entry else s.entries.get id := by
  rw [ReviewSystem.saveAs, ReflectionEntries.save, dif_pos hfinite]
  exact Shelf.get_put s.entries entry hfinite id

omit [DecidableEq ω] in
theorem keeps_of_entries {e : Step (ReviewSystem ω) (ReviewInput ω) ReviewOutput}
    (h : e.after.entries = e.before.entries) : KeepsReviews casefold e where
  reviewed := fun id hid => by rw [h]; exact hid
  untouched := fun _ _ _ _ _ _ _ _ => by rw [h]

/-- The entry that the caller saves next. -/
def ReviewCaller.nextSave (now : String) : ReviewCaller → Option ReflectionEntry
  | .organizing _ [] => none
  | .organizing _ (write :: _) => some (write.saved now)
  | .reviewing entry review => some (entry.withStatus review.status now)

theorem save_none {caller : ω} {now : String}
    (h : (s.callers caller).bind (·.nextSave now) = none) :
    (s.step casefold index (.save caller now)).1.entries = s.entries := by
  rw [ReviewSystem.step]
  split
  · rfl
  · rfl
  · rename_i hcaller
    rw [hcaller] at h
    cases h
  · rename_i hcaller
    rw [hcaller] at h
    cases h

theorem save_some (hs : Justified casefold s) {caller : ω} {now : String} {entry : ReflectionEntry}
    (h : (s.callers caller).bind (·.nextSave now) = some entry) (id : String) :
    (s.step casefold index (.save caller now)).1.entries.get id =
      if id = entry.id then some entry else s.entries.get id := by
  rw [ReviewSystem.step]
  split
  · rename_i hcaller
    rw [hcaller] at h
    cases h
  · rename_i hcaller
    rw [hcaller] at h
    cases h
  · rename_i pending write writes hcaller
    rw [hcaller] at h
    cases h
    exact get_saveAs ((hs caller _ hcaller write List.mem_cons_self).1.finite now) id
  · rename_i found review hcaller
    rw [hcaller] at h
    cases h
    have hfinite : (found.withStatus review.status now).finite = true := hs caller _ hcaller
    exact get_saveAs hfinite id

theorem merged_of_pending {c : ReviewCaller} {now : String} {entry : ReflectionEntry}
    (h : c.nextSave now = some entry) (hpending : entry.status = .pending) :
    ∃ pending writes, c = .organizing pending (.merged entry :: writes) := by
  cases c with
  | reviewing found review =>
    cases h
    cases review <;> cases hpending
  | organizing pending writes =>
    cases writes with
    | nil => cases h
    | cons write writes =>
      cases h
      cases write with
      | merged merged => exact ⟨pending, writes, rfl⟩
      | duplicate duplicate => cases hpending

/-- **A save keeps all reviews**, exactly when it is no merged primary over a reviewed entry. -/
theorem save_keeps_iff (hs : Justified casefold s) (caller : ω) (now : String) :
    KeepsReviews casefold ⟨s, .save caller now, (s.step casefold index (.save caller now)).2,
        (s.step casefold index (.save caller now)).1⟩ ↔ PrimaryPending s (.save caller now) := by
  constructor
  · rintro hkeeps caller' now' pending merged writes hinput hcaller stored hstored
    cases hinput
    by_contra hreviewed
    obtain ⟨entry, hget, hstatus⟩ := hkeeps.reviewed merged.id ⟨stored, hstored, hreviewed⟩
    have hnext : (s.callers caller).bind (·.nextSave now) = some merged := by
      rw [hcaller]
      rfl
    rw [save_some hs hnext, if_pos rfl] at hget
    cases hget
    exact hstatus ((hs caller _ hcaller _ List.mem_cons_self).2 merged rfl)
  · intro hprimary
    cases hnext : (s.callers caller).bind (·.nextSave now) with
    | none => exact keeps_of_entries (save_none hnext)
    | some entry =>
      obtain ⟨c, hcaller, hsave⟩ := Option.bind_eq_some_iff.mp hnext
      constructor
      · rintro id ⟨stored, hstored, hreviewed⟩
        rw [Reviewed, save_some hs hnext]
        by_cases hid : id = entry.id
        · rw [if_pos hid]
          refine ⟨entry, rfl, fun hpending => ?_⟩
          obtain ⟨pending, writes, rfl⟩ := merged_of_pending hsave hpending
          rw [hid] at hstored
          exact hreviewed (hprimary caller now pending entry writes rfl hcaller stored hstored)
        · rw [if_neg hid]
          exact ⟨stored, hstored, hreviewed⟩
      · rintro caller' now' pending writes hinput horganizing id hnone
        cases hinput
        rw [save_some hs hnext, if_neg]
        rintro rfl
        have horganizing' : s.callers caller = some (.organizing pending writes) := horganizing
        rw [hcaller] at horganizing'
        cases horganizing'
        cases writes with
        | nil => cases hsave
        | cons write writes =>
          cases hsave
          have hjustified := (hs caller _ hcaller write List.mem_cons_self).1.similar
          cases write <;> exact hnone hjustified

theorem step_keeps_iff (hs : Justified casefold s) (i : ReviewInput ω) :
    KeepsReviews casefold ⟨s, i, (s.step casefold index i).2, (s.step casefold index i).1⟩ ↔
      PrimaryPending s i := by
  cases i with
  | save caller now => exact save_keeps_iff hs caller now
  | organize caller =>
    refine ⟨fun _ _ _ _ _ _ h => (nomatch h), fun _ => keeps_of_entries ?_⟩
    show (s.step casefold index (.organize caller)).1.entries = s.entries
    rw [ReviewSystem.step]
    split <;> rfl
  | review caller id_or_index review =>
    refine ⟨fun _ _ _ _ _ _ h => (nomatch h), fun _ => keeps_of_entries ?_⟩
    show (s.step casefold index (.review caller id_or_index review)).1.entries = s.entries
    rw [ReviewSystem.step]
    split
    · rfl
    · split <;> rfl
  | fail caller =>
    exact ⟨fun _ _ _ _ _ _ h => (nomatch h), fun _ => keeps_of_entries rfl⟩

end

/-- **A run keeps all reviews**, exactly when no merged primary is saved over a reviewed entry;
    entries without a similar one are not touched. -/
theorem reviewed_stays_iff {ω : Type} [DecidableEq ω] (casefold : String → String)
    (index : String → Option Nat) (entries : ReflectionEntries) (inputs : List (ReviewInput ω)) :
    (∀ e ∈ run (ReviewSystem.step casefold index) { entries } inputs, KeepsReviews casefold e) ↔
      ∀ e ∈ run (ReviewSystem.step casefold index) { entries } inputs,
        PrimaryPending e.before e.input := by
  refine @run_forall_iff _ _ _ _ (Justified casefold) _ _
    (fun s i hs _ => justified_step hs i) ?_ _ _ ?_
  · rintro ⟨s, i, output, after⟩ hof hs
    obtain ⟨rfl, rfl⟩ : after = (s.step casefold index i).1 ∧ output = (s.step casefold index i).2 :=
      ⟨hof.after_eq.symm, hof.output_eq.symm⟩
    exact step_keeps_iff hs i
  · intro caller c hc
    cases hc

/-- An idea that comes twice, once with a better score. -/
def repeatedIdea (id : String) (composite_score : Double) : ReflectionEntry where
  id := id
  title := "walk more"
  body := "walk every morning"
  candidate_type := .action
  confidence := 0x3fe0000000000000#64
  novelty := 0x3fe0000000000000#64
  urgency := 0x3fe0000000000000#64
  interruption_cost := 0x3fc0000000000000#64
  composite_score := composite_score
  status := .pending
  discussion_approved := none
  discussion_trace := []
  deep_link := ""
  created_at := "2026-01-01T12:00:00+00:00"
  reviewed_at := none

def repeatedIdeas : ReflectionEntries :=
  (Shelf.empty.put (repeatedIdea "a" 0x3fe8000000000000#64) rfl).put
    (repeatedIdea "b" 0x3fe0000000000000#64) rfl

/-- The organizer lists; the user dismisses the better idea; the organizer saves it. -/
def dismissedInBetween : List (ReviewInput Bool) :=
  [.organize true, .review false "a" .dismiss, .save false "2026-01-01T13:00:00+00:00",
    .save true "2026-01-01T13:00:01+00:00"]

/-- **The dismissal is undone**: the idea is pending again. -/
theorem dismissal_undone :
    (((final (ReviewSystem.step id fun _ => none) { entries := repeatedIdeas }
      (dismissedInBetween.take 3)).entries.get "a").map (·.status) = some .dismissed) ∧
    (((final (ReviewSystem.step id fun _ => none) { entries := repeatedIdeas }
      dismissedInBetween).entries.get "a").map (·.status) = some .pending) ∧
    ¬ ∀ e ∈ run (ReviewSystem.step id fun _ => none) { entries := repeatedIdeas }
      dismissedInBetween, KeepsReviews id e := by
  have hbefore : ((final (ReviewSystem.step id fun _ => none) { entries := repeatedIdeas }
      (dismissedInBetween.take 3)).entries.get "a").map (·.status) = some .dismissed := by
    decide +kernel
  have hafter : ((final (ReviewSystem.step id fun _ => none) { entries := repeatedIdeas }
      dismissedInBetween).entries.get "a").map (·.status) = some .pending := by
    decide +kernel
  refine ⟨hbefore, hafter, fun h => ?_⟩
  obtain ⟨stored, hstored, hdismissed⟩ := Option.map_eq_some_iff.mp hbefore
  obtain ⟨saved, hsaved, hpending⟩ := Option.map_eq_some_iff.mp hafter
  have hlast := h ⟨final (ReviewSystem.step id fun _ => none) { entries := repeatedIdeas }
      (dismissedInBetween.take 3), .save true "2026-01-01T13:00:01+00:00", _, _⟩
    (List.mem_cons_of_mem _ (List.mem_cons_of_mem _ (List.mem_cons_of_mem _ List.mem_cons_self)))
  have hreviewed : stored.status ≠ .pending := by
    rw [hdismissed]
    decide
  obtain ⟨found, hfound, hstatus⟩ := hlast.reviewed "a" ⟨stored, hstored, hreviewed⟩
  have hsame : some saved = some found := hsaved.symm.trans hfound
  cases hsame
  exact hstatus hpending

end NuSelf.Reflection
