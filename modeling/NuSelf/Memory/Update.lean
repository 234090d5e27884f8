/-
  What an accepted update leaves of an entry.

  The curator's update candidate is built field by field from the entry, and so is the merged entry
  when the candidate is accepted.  What one of the two leaves out falls back to a default: the
  candidate has the importance of a new one, and the merged entry has no payload.  A candidate of a
  profile fact goes to the profile items, whatever collection its entry is in.

  1. `mergeRelations_self` — relations are merged into themselves without a change;
  2. `accept_update`, `accept_update_invalid` — what an acceptance leaves of the entry;
  3. `accepted_update_iff` — it succeeds and changes the stated fields only, exactly when the entry
     has the defaults and its type can do without a payload;
  4. `updateKeeps_iff_of_unchanged` — the same for an entry that nobody has changed since.
-/
import NuSelf.Memory.Conflicts

namespace NuSelf.Memory

open NuSelf.Lib

/-- Only the title, the body, the tags, the confidence, the source references, the evidence, the
    review state and the time of the update have changed. -/
structure ChangesStated (e e' : PayloadEntry) : Prop where
  id : e'.id = e.id
  type : e'.type = e.type
  created_at : e'.created_at = e.created_at
  privacy : e'.privacy = e.privacy
  importance : e'.importance = e.importance
  revisit_at : e'.revisit_at = e.revisit_at
  observed_at : e'.observed_at = e.observed_at
  valid_from : e'.valid_from = e.valid_from
  valid_until : e'.valid_until = e.valid_until
  temporal_note : e'.temporal_note = e.temporal_note
  relations : e'.relations = e.relations
  payload : e'.payload = e.payload

/-- The acceptance succeeds, and changes the stated fields of the entry only. -/
def UpdatesInPlace (uuid5 : String → String) (t : PayloadTables) (c : MemoryCandidate)
    (state : TargetReviewState) (r : Readings) (e : PayloadEntry) : Prop :=
  ∃ t' target e', t.accept uuid5 c.id state r = .ok (t', target) ∧ t'.entry e.id = some e' ∧
    ChangesStated e e'

/-- The candidate is the update that the curator stages for the entry: of an update action, or of a
    create action that conflicts with it. -/
def StagedUpdate (lower : String → String) (settings : StagingSettings) (t : PayloadTables)
    (action : MemoryAction) (source : ActionSource) (r : ActionReadings)
    (existing : PayloadEntry) (c : MemoryCandidate) : Prop :=
  match action.action with
  | .create => createOutcome lower settings t action source r = .ok (.merged existing c)
  | .update => changeOutcome t action source r = some (existing, c)
  | .ignore => False

/-- The entry has what the candidate and the merged entry are given by default, and what the
    candidate says of it still holds. -/
structure UpdateKeeps (c : MemoryCandidate) (e : PayloadEntry) : Prop where
  type : e.type ≠ "persona_instruction"
  title : blank c.title = false
  body : blank c.body = false
  confidence : outsideUnit c.confidence = false
  importance : e.importance = defaultImportance
  payload : e.payload = []
  observed_at : orText c.observed_at e.observed_at = e.observed_at
  valid_from : orText c.valid_from e.valid_from = e.valid_from
  valid_until : orText c.valid_until e.valid_until = e.valid_until
  temporal_note : (if c.temporal_note = "" then e.temporal_note else c.temporal_note) =
    e.temporal_note
  relations : mergeRelations e.relations c.relations = e.relations

section

variable {uuid5 lower : String → String} {settings : StagingSettings} {t t₀ : PayloadTables}
  {c : MemoryCandidate} {e existing : PayloadEntry} {state : TargetReviewState} {r : Readings}
  {action : MemoryAction} {source : ActionSource} {readings : ActionReadings}

/-! ## The candidate -/

theorem StagedUpdate.candidate
    (h : StagedUpdate lower settings t₀ action source readings existing c) :
    ∃ title body tags, c = updateCandidate source action existing.toMemoryEntry title body tags
      readings.readings.now := by
  unfold StagedUpdate at h
  split at h
  · unfold createOutcome at h
    split at h
    · cases h
    · split at h
      · obtain ⟨tags, -, h⟩ := bind_ok h
        cases h
        exact ⟨_, _, _, rfl⟩
      · cases h
  · unfold changeOutcome at h
    split at h
    · cases h
    · split at h
      · cases h
      · cases h
        exact ⟨_, _, _, rfl⟩
  · exact h.elim

/-! ## The merged entry -/

theorem issues_of_registered {m : MemoryEntry} (h : registered m.type = true) :
    m.issues = [] ↔ m.type ≠ "persona_instruction" ∧ blank m.title = false ∧
      blank m.body = false ∧ outsideUnit m.confidence = false := by
  unfold MemoryEntry.issues
  rw [if_neg (by rw [h]; decide)]
  by_cases htype : m.type = "persona_instruction"
  · rw [if_pos htype]
    simp [htype]
  · rw [if_neg htype]
    simp [htype, issueIf]

theorem admitted_of_registered {m : MemoryEntry} {now : String} (h : registered m.type = true) :
    m.admitted now = if m.issues = [] then .ok m else .error (.invalid m.type m.issues) := by
  unfold MemoryEntry.admitted
  rw [if_neg (by rw [h]; simp)]
  by_cases hissues : m.issues = []
  · rw [if_neg (not_not.mpr hissues), if_pos hissues]
  · rw [if_pos hissues, if_neg hissues]

/-- What the acceptance makes of the merged entry. -/
def promotedEntry (m : MemoryEntry) (now : String) : TargetReviewState → MemoryEntry
  | .draft => m
  | .reviewed => { m with review_state := .reviewed, updated_at := now }

theorem promotedEntry_id (m : MemoryEntry) (now : String) (state : TargetReviewState) :
    (promotedEntry m now state).id = m.id := by
  cases state <;> rfl

theorem promotedEntry_finite (m : MemoryEntry) (now : String) (state : TargetReviewState) :
    (promotedEntry m now state).finite = m.finite := by
  cases state <;> rfl

/-- The promotion of a merged entry of a registered type passes the check again. -/
theorem promoteTarget_merged {m : MemoryEntry} {now : String}
    (hregistered : registered m.type = true) (hdraft : m.review_state = .draft)
    (hissues : m.issues = []) :
    ∃ statements, promoteTarget (.entry m) state now =
        .ok ⟨statements, .entry (promotedEntry m now state)⟩ ∧
      (statements = [] ∧ promotedEntry m now state = m ∨
        statements = [.saveEntry (promotedEntry m now state)]) := by
  cases state with
  | draft =>
    refine ⟨[], ?_, Or.inl ⟨rfl, rfl⟩⟩
    unfold promoteTarget
    dsimp only
    rw [if_pos (Or.inl rfl)]
    rfl
  | reviewed =>
    refine ⟨[.saveEntry (promotedEntry m now .reviewed)], ?_, Or.inr rfl⟩
    have hkept : registered (promotedEntry m now .reviewed).type = true := hregistered
    have hclean : (promotedEntry m now .reviewed).issues = [] :=
      (issues_of_registered hkept).mpr ((issues_of_registered hregistered).mp hissues)
    unfold promoteTarget
    dsimp only
    rw [hdraft, if_neg (by decide)]
    show ((promotedEntry m now .reviewed).admitted now >>= _) = _
    rw [admitted_of_registered hkept, if_pos hclean]
    rfl

theorem putEntry_of_finite {t : MemoryTables} {m : MemoryEntry} (h : m.finite = true) :
    t.putEntry m = .ok { t with entries := t.entries.put m h } := dif_pos h

theorem saveCandidate_of_finite {t : MemoryTables} (h : c.finite = true) :
    t.saveCandidate c = .ok { t with candidates := t.candidates.put c h } := dif_pos h

theorem performAll_merge {t : MemoryTables} {m : MemoryEntry} {now : String}
    {statements : List Statement} {accepted : MemoryCandidate} (hfinite : m.finite = true)
    (haccepted : accepted.finite = true)
    (hstatements : statements = [] ∧ promotedEntry m now state = m ∨
      statements = [.saveEntry (promotedEntry m now state)]) :
    ∃ t', performAll (.saveEntry m :: statements ++ [.saveCandidate accepted]) t = .ok t' ∧
      t'.entries.get m.id = some (promotedEntry m now state) := by
  have hpromoted : (promotedEntry m now state).finite = true := by
    rw [promotedEntry_finite]
    exact hfinite
  rcases hstatements with ⟨rfl, hsame⟩ | rfl
  · refine ⟨{ t with
      entries := t.entries.put m hfinite
      candidates := t.candidates.put accepted haccepted }, ?_, ?_⟩
    · show (t.putEntry m >>= fun t => t.saveCandidate accepted >>= _) = _
      rw [putEntry_of_finite hfinite]
      show (MemoryTables.saveCandidate _ accepted >>= _) = _
      rw [saveCandidate_of_finite haccepted]
      rfl
    · show (t.entries.put m hfinite).get m.id = _
      rw [Shelf.get_put, if_pos rfl, hsame]
  · refine ⟨{ t with
      entries := (t.entries.put m hfinite).put (promotedEntry m now state) hpromoted
      candidates := t.candidates.put accepted haccepted }, ?_, ?_⟩
    · show (t.putEntry m >>= fun t => t.putEntry (promotedEntry m now state) >>= fun t =>
        t.saveCandidate accepted >>= _) = _
      rw [putEntry_of_finite hfinite]
      show (MemoryTables.putEntry _ (promotedEntry m now state) >>= fun t =>
        t.saveCandidate accepted >>= _) = _
      rw [putEntry_of_finite hpromoted]
      show (MemoryTables.saveCandidate _ accepted >>= _) = _
      rw [saveCandidate_of_finite haccepted]
      rfl
    · show ((t.entries.put m hfinite).put _ hpromoted).get m.id = _
      rw [Shelf.get_put, if_pos (promotedEntry_id m now state).symm]

/-! ## The acceptance -/

/-- An update candidate as it is staged: it waits, and names its target. -/
structure UpdateOf (c : MemoryCandidate) (target_id : String) : Prop where
  pending : c.review_state = .pending
  action : c.action = .update
  target : c.target_entry_id = some target_id

theorem accept_of_update {target_id : String}
    (hstored : t.tables.candidates.get c.id = some c) (hc : UpdateOf c target_id) :
    t.accept uuid5 c.id state r = t.transact uuid5 c (.merge target_id) state r := by
  unfold PayloadTables.accept
  rw [pendingCandidate_of_get hstored, if_pos hc.pending]
  show (reviewRoute c >>= _) = _
  unfold reviewRoute
  rw [hc.action, hc.target]
  rfl

theorem entry_get (h : t.entry e.id = some e) :
    t.tables.entries.get e.id = some e.toMemoryEntry := by
  obtain ⟨m, hm, he⟩ := Option.map_eq_some_iff.mp h
  rw [hm, ← he]
  rfl

theorem entry_of_get {entry_id : String} {m : MemoryEntry}
    (hget : t.tables.entries.get entry_id = some m) (hpayload : t.payloads.get entry_id = none) :
    t.entry entry_id = some (PayloadEntry.of m noPayload) := by
  unfold PayloadTables.entry PayloadTables.payload
  rw [hget, hpayload]
  rfl

theorem mergedTarget_entry (htype : c.type ≠ "profile_fact") (hentry : t.entry e.id = some e) :
    mergedTarget t.tables c e.id r.now = .ok (.entry (e.toMemoryEntry.merged c r.now)) := by
  have hget : t.tables.getEntry e.id = .ok e.toMemoryEntry := by
    rw [MemoryTables.getEntry, entry_get hentry]
  unfold mergedTarget getTarget
  rw [if_neg htype, hget]
  rfl

theorem registered_merged (h : registered e.type = true) :
    registered (e.toMemoryEntry.merged c r.now).type = true := h

theorem PayloadTables.transact_ok {route : ReviewRoute} {commit : Commit} {tables : MemoryTables}
    (hcommit : routeCommit uuid5 t.tables c route state r = .ok commit)
    (hperform : performAll commit.statements t.tables = .ok tables) :
    t.transact uuid5 c route state r =
      .ok (⟨tables, commit.statements.foldl payloadsAfter t.payloads⟩, commit.target) := by
  unfold PayloadTables.transact
  rw [hcommit]
  show (performAll commit.statements t.tables >>= _) = _
  rw [hperform]
  rfl

theorem payloadsAfter_merge {payloads : Table String FrozenPayload} {m : MemoryEntry} {now : String}
    {statements : List Statement} {accepted : MemoryCandidate}
    (hstatements : statements = [] ∧ promotedEntry m now state = m ∨
      statements = [.saveEntry (promotedEntry m now state)]) :
    ((.saveEntry m :: statements ++ [.saveCandidate accepted] : List Statement).foldl payloadsAfter
      payloads).get m.id = none := by
  rcases hstatements with ⟨rfl, -⟩ | rfl
  · show (payloads.erase m.id).get m.id = none
    rw [Table.get_erase, if_pos rfl]
  · show ((payloads.erase m.id).erase (promotedEntry m now state).id).get m.id = none
    rw [Table.get_erase, if_pos (promotedEntry_id m now state).symm]

/-- **A valid merged entry takes the place of the old one**, without a payload. -/
theorem accept_update (hstored : t.tables.candidates.get c.id = some c) (hc : UpdateOf c e.id)
    (htype : c.type ≠ "profile_fact") (hentry : t.entry e.id = some e)
    (hregistered : registered e.type = true)
    (hissues : (e.toMemoryEntry.merged c r.now).issues = []) :
    ∃ t' target, t.accept uuid5 c.id state r = .ok (t', target) ∧
      t'.entry e.id = some (PayloadEntry.of
        (promotedEntry (e.toMemoryEntry.merged c r.now) r.now state) noPayload) := by
  have hregistered' := @registered_merged c e r hregistered
  obtain ⟨statements, hpromote, hstatements⟩ :=
    @promoteTarget_merged state (e.toMemoryEntry.merged c r.now) r.now hregistered' rfl hissues
  have hcommit : routeCommit uuid5 t.tables c (.merge e.id) state r =
      .ok ⟨.saveEntry (e.toMemoryEntry.merged c r.now) :: statements ++
        [.saveCandidate (c.accepted e.id r.now)],
        .entry (promotedEntry (e.toMemoryEntry.merged c r.now) r.now state)⟩ := by
    show (mergedTarget t.tables c e.id r.now >>= _) = _
    rw [mergedTarget_entry htype hentry]
    show ((ReviewTarget.entry _).admitted r.now >>= fun saved =>
      promoteTarget (.entry (e.toMemoryEntry.merged c r.now)) state r.now >>= _) = _
    rw [hpromote]
    show ((MemoryEntry.admitted _ r.now >>= _) >>= _) = _
    rw [admitted_of_registered hregistered', if_pos hissues]
    rfl
  have hfinite : c.finite = true := t.tables.candidates.valid_of_get hstored
  obtain ⟨tables, hperform, hlast⟩ := @performAll_merge state t.tables
    (e.toMemoryEntry.merged c r.now) r.now statements (c.accepted e.id r.now) hfinite hfinite
    hstatements
  rw [accept_of_update hstored hc]
  refine ⟨_, _, PayloadTables.transact_ok hcommit hperform, ?_⟩
  have hnone := @payloadsAfter_merge state t.payloads (e.toMemoryEntry.merged c r.now) r.now
    statements (c.accepted e.id r.now) hstatements
  exact entry_of_get hlast hnone

theorem accept_update_invalid (hstored : t.tables.candidates.get c.id = some c)
    (hc : UpdateOf c e.id) (htype : c.type ≠ "profile_fact") (hentry : t.entry e.id = some e)
    (hregistered : registered e.type = true)
    (hissues : (e.toMemoryEntry.merged c r.now).issues ≠ []) :
    ∃ error, t.accept uuid5 c.id state r = .error error := by
  refine ⟨.invalid e.type (e.toMemoryEntry.merged c r.now).issues, ?_⟩
  rw [accept_of_update hstored hc]
  unfold PayloadTables.transact
  show (mergeCommit t.tables c e.id state r >>= _) = _
  unfold mergeCommit
  rw [mergedTarget_entry htype hentry]
  show (((MemoryEntry.admitted _ r.now >>= _) >>= _) >>= _) = _
  rw [admitted_of_registered (registered_merged hregistered), if_neg hissues]
  rfl

/-- **A candidate of a profile fact** goes to the profile items, and the entries stay. -/
theorem accept_fact_update (hstored : t.tables.candidates.get c.id = some c)
    (hc : UpdateOf c e.id) (htype : c.type = "profile_fact") :
    (∀ item, t.tables.profile.get e.id = some item →
      ∃ t' target, t.accept uuid5 c.id state r = .ok (t', target) ∧ t'.entry e.id = t.entry e.id) ∧
    (t.tables.profile.get e.id = none →
      t.accept uuid5 c.id state r = .error (.profileItemNotFound e.id)) := by
  rw [accept_of_update hstored hc]
  constructor
  · intro item hitem
    have hget : t.tables.getProfileItem e.id = .ok item := by
      rw [MemoryTables.getProfileItem, hitem]
    have hcommit : routeCommit uuid5 t.tables c (.merge e.id) state r =
        .ok ⟨[.saveProfileItem (item.merged c r.now), .saveCandidate (c.accepted e.id r.now)],
          .profileItem (item.merged c r.now)⟩ := by
      show (mergedTarget t.tables c e.id r.now >>= _) = _
      unfold mergedTarget getTarget
      rw [if_pos htype, hget]
      rfl
    have hfinite : c.finite = true := t.tables.candidates.valid_of_get hstored
    have hitem_finite : (item.merged c r.now).finite = true := by
      have hconfidence : isFinite c.confidence = true := (Bool.and_eq_true_iff.mp hfinite).1
      show (isFinite c.confidence && isFinite defaultImportance) = true
      rw [hconfidence]
      decide
    have hsave : t.tables.saveProfileItem (item.merged c r.now) =
        .ok { t.tables with profile := t.tables.profile.put _ hitem_finite } := dif_pos hitem_finite
    have haccepted : (c.accepted e.id r.now).finite = true := hfinite
    have hperform : performAll [.saveProfileItem (item.merged c r.now),
        .saveCandidate (c.accepted e.id r.now)] t.tables =
        .ok { t.tables with
          profile := t.tables.profile.put _ hitem_finite
          candidates := t.tables.candidates.put _ haccepted } := by
      show (t.tables.saveProfileItem _ >>= _) = _
      rw [hsave]
      show (MemoryTables.saveCandidate _ (c.accepted e.id r.now) >>= _) = _
      rw [saveCandidate_of_finite haccepted]
      rfl
    exact ⟨_, _, PayloadTables.transact_ok hcommit hperform, rfl⟩
  · intro hnone
    have hget : t.tables.getProfileItem e.id = .error (.profileItemNotFound e.id) := by
      rw [MemoryTables.getProfileItem, hnone]
    unfold PayloadTables.transact
    show (mergeCommit t.tables c e.id state r >>= _) = _
    unfold mergeCommit mergedTarget getTarget
    rw [if_pos htype, hget]
    rfl

/-! ## The fields that stay -/

theorem changesStated_iff :
    ChangesStated e (PayloadEntry.of
        (promotedEntry (e.toMemoryEntry.merged c r.now) r.now state) noPayload) ↔
      c.importance = e.importance ∧ e.payload = [] ∧
        orText c.observed_at e.observed_at = e.observed_at ∧
        orText c.valid_from e.valid_from = e.valid_from ∧
        orText c.valid_until e.valid_until = e.valid_until ∧
        (if c.temporal_note = "" then e.temporal_note else c.temporal_note) = e.temporal_note ∧
        mergeRelations e.relations c.relations = e.relations := by
  cases state with
  | draft | reviewed =>
    constructor
    · intro h
      exact ⟨h.importance, h.payload.symm, h.observed_at, h.valid_from, h.valid_until,
        h.temporal_note, h.relations⟩
    · rintro ⟨himportance, hpayload, hobserved, hfrom, huntil, hnote, hrelations⟩
      exact ⟨rfl, rfl, rfl, rfl, himportance, rfl, hobserved, hfrom, huntil, hnote, hrelations,
        hpayload.symm⟩

theorem ChangesStated.refl (e : PayloadEntry) : ChangesStated e e :=
  ⟨rfl, rfl, rfl, rfl, rfl, rfl, rfl, rfl, rfl, rfl, rfl, rfl⟩

/-- **The acceptance of an update of an entry**, whatever the update says. -/
theorem updatesInPlace_iff (hstored : t.tables.candidates.get c.id = some c)
    (hc : UpdateOf c e.id) (himportance : c.importance = defaultImportance)
    (hentry : t.entry e.id = some e) (hregistered : registered e.type = true) :
    UpdatesInPlace uuid5 t c state r e ↔
      (c.type = "profile_fact" ∧ ∃ item, t.tables.profile.get e.id = some item) ∨
        (c.type ≠ "profile_fact" ∧ UpdateKeeps c e) := by
  by_cases htype : c.type = "profile_fact"
  · obtain ⟨hsome, hnone⟩ := @accept_fact_update uuid5 t c e state r hstored hc htype
    constructor
    · rintro ⟨t', target, e', haccept, -⟩
      cases hitem : t.tables.profile.get e.id with
      | some item => exact Or.inl ⟨htype, item, rfl⟩
      | none =>
        rw [hnone hitem] at haccept
        cases haccept
    · rintro (⟨-, item, hitem⟩ | ⟨hne, -⟩)
      · obtain ⟨t', target, haccept, hkept⟩ := hsome item hitem
        exact ⟨t', target, e, haccept, hkept.trans hentry, ChangesStated.refl e⟩
      · exact absurd htype hne
  · have hvalid := @issues_of_registered (e.toMemoryEntry.merged c r.now) hregistered
    by_cases hissues : (e.toMemoryEntry.merged c r.now).issues = []
    · obtain ⟨t', target, haccept, hafter⟩ :=
        @accept_update uuid5 t c e state r hstored hc htype hentry hregistered hissues
      obtain ⟨hpersona, htitle, hbody, hconfidence⟩ := hvalid.mp hissues
      have hfields := @changesStated_iff c e state r
      rw [himportance, eq_comm (a := defaultImportance)] at hfields
      constructor
      · rintro ⟨t₁, target₁, e', haccept₁, hafter₁, hchanges⟩
        obtain ⟨rfl, -⟩ := Prod.mk.inj (Except.ok.inj (haccept.symm.trans haccept₁))
        obtain rfl := Option.some.inj (hafter.symm.trans hafter₁)
        obtain ⟨himp, hpayload, hobserved, hfrom, huntil, hnote, hrelations⟩ :=
          hfields.mp hchanges
        exact Or.inr ⟨htype, hpersona, htitle, hbody, hconfidence, himp, hpayload, hobserved,
          hfrom, huntil, hnote, hrelations⟩
      · rintro (⟨hfact, -⟩ | ⟨-, h⟩)
        · exact absurd hfact htype
        · exact ⟨t', target, _, haccept, hafter, hfields.mpr ⟨h.importance, h.payload,
            h.observed_at, h.valid_from, h.valid_until, h.temporal_note, h.relations⟩⟩
    · constructor
      · rintro ⟨t', target, e', haccept, -⟩
        obtain ⟨error, hrefused⟩ := @accept_update_invalid uuid5 t c e state r hstored hc htype
          hentry hregistered hissues
        rw [hrefused] at haccept
        cases haccept
      · rintro (⟨hfact, -⟩ | ⟨-, h⟩)
        · exact absurd hfact htype
        · exact absurd (hvalid.mpr ⟨h.type, h.title, h.body, h.confidence⟩) hissues

end

/-- **An accepted update changes only what it states** exactly when it goes to a profile item of
    the id of the entry, or the entry has no payload, needs none, and has the importance of a new
    candidate, and what the candidate took over from it still holds. -/
theorem accepted_update_iff (uuid5 lower : String → String) (settings : StagingSettings)
    (t₀ t : PayloadTables) (action : MemoryAction) (source : ActionSource)
    (readings : ActionReadings) (existing e : PayloadEntry) (c : MemoryCandidate)
    (state : TargetReviewState) (r : Readings)
    (hstaged : StagedUpdate lower settings t₀ action source readings existing c)
    (hstored : t.tables.candidates.get c.id = some c) (hentry : t.entry existing.id = some e)
    (hregistered : registered e.type = true) :
    UpdatesInPlace uuid5 t c state r e ↔
      (c.type = "profile_fact" ∧ ∃ item, t.tables.profile.get e.id = some item) ∨
        (c.type ≠ "profile_fact" ∧ UpdateKeeps c e) := by
  obtain ⟨title, body, tags, hc⟩ := hstaged.candidate
  have hid : existing.id = e.id := by
    obtain ⟨m, hm, he⟩ := Option.map_eq_some_iff.mp hentry
    rw [← he]
    exact (t.tables.entries.key_of_get hm).symm
  rw [hid] at hentry
  have hupdate : UpdateOf c e.id := by
    rw [hc, ← hid]
    exact ⟨rfl, rfl, rfl⟩
  have himportance : c.importance = defaultImportance := by
    rw [hc]
    rfl
  exact updatesInPlace_iff hstored hupdate himportance hentry hregistered

/-! ## An entry that nobody has changed -/

theorem mergeRelations_of_mem {base other : Relations}
    (h : ∀ row ∈ other.rows, ∀ value ∈ row.2, value ∈ (base.get row.1).getD []) :
    mergeRelations base other = base := by
  have hrow : ∀ row : String × List String, (∀ value ∈ row.2, value ∈ (base.get row.1).getD []) →
      row.2.foldl (fun merged value =>
        if value ∈ (merged.get row.1).getD [] then merged
        else merged.set row.1 ((merged.get row.1).getD [] ++ [value])) base = base := by
    rintro ⟨name, targets⟩ hrow
    induction targets with
    | nil => rfl
    | cons value targets ih =>
      obtain ⟨hvalue, htargets⟩ := List.forall_mem_cons.mp hrow
      rw [List.foldl_cons, if_pos hvalue]
      exact ih htargets
  unfold mergeRelations
  revert h
  induction other.rows with
  | nil => exact fun _ => rfl
  | cons row rows ih =>
    intro h
    obtain ⟨hfirst, hrest⟩ := List.forall_mem_cons.mp h
    rw [List.foldl_cons]
    show rows.foldl _ (row.2.foldl _ base) = base
    rw [hrow row hfirst]
    exact ih hrest

theorem mergeRelations_self (relations : Relations) :
    mergeRelations relations relations = relations := by
  refine mergeRelations_of_mem fun row hrow value hvalue => ?_
  rw [relations.mem_rows_iff.mp hrow]
  exact hvalue

theorem orText_self (text : Option String) : orText text text = text := by
  unfold orText
  split <;> rfl

theorem orText_filled_iff (text : Option String) (observed_at : String) :
    orText (orText text (some observed_at)) text = text ↔
      observed_at = "" ∨ ∃ kept, kept ≠ "" ∧ text = some kept := by
  have hfilled : ∀ kept : String, kept ≠ "" → ∀ other, orText (some kept) other = some kept := by
    intro kept hkept other
    unfold orText
    split
    · rename_i he
      cases he
    · rename_i he
      exact absurd (Option.some.inj he) hkept
    · rename_i he
      exact he.symm
  cases text with
  | none =>
    show orText (some observed_at) none = none ↔ _
    by_cases hempty : observed_at = ""
    · rw [hempty]
      exact ⟨fun _ => Or.inl rfl, fun _ => rfl⟩
    · rw [hfilled observed_at hempty]
      simp [hempty]
  | some kept =>
    by_cases hkept : kept = ""
    · rw [hkept]
      show orText (some observed_at) (some "") = some "" ↔ _
      by_cases hempty : observed_at = ""
      · rw [hempty]
        exact ⟨fun _ => Or.inl rfl, fun _ => rfl⟩
      · rw [hfilled observed_at hempty]
        simp [hempty]
    · rw [hfilled kept hkept, hfilled kept hkept]
      exact ⟨fun _ => Or.inr ⟨kept, hkept, rfl⟩, fun _ => rfl⟩

/-- **For an entry that nobody has changed since**, it is about the entry alone. -/
theorem updateKeeps_iff_of_unchanged {source : ActionSource} {action : MemoryAction}
    {e : PayloadEntry} {title body : String} {tags : List String} {now : String} :
    UpdateKeeps (updateCandidate source action e.toMemoryEntry title body tags now) e ↔
      e.type ≠ "persona_instruction" ∧ blank title = false ∧ blank body = false ∧
        outsideUnit action.confidence = false ∧ e.importance = defaultImportance ∧
        e.payload = [] ∧
        (source.observed_at = "" ∨ ∃ kept, kept ≠ "" ∧ e.observed_at = some kept) := by
  constructor
  · intro h
    exact ⟨h.type, h.title, h.body, h.confidence, h.importance, h.payload,
      (orText_filled_iff _ _).mp h.observed_at⟩
  · rintro ⟨htype, htitle, hbody, hconfidence, himportance, hpayload, hobserved⟩
    refine ⟨htype, htitle, hbody, hconfidence, himportance, hpayload,
      (orText_filled_iff _ _).mpr hobserved, orText_self _, orText_self _, ?_,
      mergeRelations_self _⟩
    exact ite_self _

/-! ### An update of a goal -/

/-- The goal with an importance, and its update. -/
def updateTables (importance : BitVec 64) (h : isFinite importance = true) : PayloadTables where
  tables := { MemoryTables.empty with
    entries := Shelf.empty.put (storedGoal "Tea" importance)
      (Bool.and_eq_true_iff.mpr ⟨(by decide : isFinite defaultConfidence = true), h⟩) }
  payloads := Table.empty

def teaUpdate : MemoryAction where
  action := .update
  title := "Tea"
  body := "Drink less of it."
  type := "goal"
  tags := ["drinks"]
  entry_id := some "mem_goal"
  confidence := defaultConfidence
  reason := "stated"

def teaSource : ActionSource := ⟨"interaction:2", "2026-01-03", "cand_1"⟩

def teaReadings : ActionReadings := ⟨"fresh", ⟨"fresh", "2026-01-03"⟩⟩

/-- The candidate of the update; it does not depend on the importance of the goal. -/
def teaCandidate : MemoryCandidate :=
  updateCandidate teaSource teaUpdate (storedGoal "Tea" defaultImportance) "Tea"
    "Drink less of it." ["drinks"] "2026-01-03"

/-- The tables once the candidate is staged. -/
def stagedTables (importance : BitVec 64) (h : isFinite importance = true) : PayloadTables :=
  { updateTables importance h with
    tables := { (updateTables importance h).tables with
      candidates := Shelf.empty.put teaCandidate (by decide) } }

theorem teaUpdate_staged (importance : BitVec 64) (h : isFinite importance = true) :
    StagedUpdate id {} (updateTables importance h) teaUpdate teaSource teaReadings
      (PayloadEntry.of (storedGoal "Tea" importance) noPayload) teaCandidate := rfl

theorem tea_update_in_place :
    UpdatesInPlace id (stagedTables defaultImportance (by decide)) teaCandidate .reviewed
      ⟨"fresh", "2026-01-03"⟩ (PayloadEntry.of (storedGoal "Tea" defaultImportance) noPayload) := by
  have hkeeps : UpdateKeeps (updateCandidate teaSource teaUpdate
      (PayloadEntry.of (storedGoal "Tea" defaultImportance) noPayload).toMemoryEntry "Tea"
      "Drink less of it." ["drinks"] "2026-01-03")
      (PayloadEntry.of (storedGoal "Tea" defaultImportance) noPayload) :=
    updateKeeps_iff_of_unchanged.mpr ⟨by decide, by decide +kernel, by decide +kernel, by decide,
      rfl, rfl, Or.inr ⟨"2026-01-01", by decide, rfl⟩⟩
  exact (accepted_update_iff id id {} _ _ _ _ _ _ _ _ _ _
    (teaUpdate_staged defaultImportance (by decide)) rfl rfl
    (by decide)).mpr (Or.inr ⟨by decide, hkeeps⟩)

/-- 0.9 -/
def highImportance : BitVec 64 := 0x3feccccccccccccd#64

/-- The importance of the goal is lost. -/
theorem update_resets_importance :
    ¬ ∀ (uuid5 lower : String → String) (settings : StagingSettings) (t₀ t : PayloadTables)
      (action : MemoryAction) (source : ActionSource) (readings : ActionReadings)
      (existing e : PayloadEntry) (c : MemoryCandidate) (state : TargetReviewState) (r : Readings),
      StagedUpdate lower settings t₀ action source readings existing c →
      t.tables.candidates.get c.id = some c → t.entry existing.id = some e →
      registered e.type = true → UpdatesInPlace uuid5 t c state r e := by
  intro h
  have hplace := h id id {} _ (stagedTables highImportance (by decide)) _ _ _ _ _ _ .reviewed
    ⟨"fresh", "2026-01-03"⟩ (teaUpdate_staged highImportance (by decide)) rfl rfl (by decide)
  have hupdate : UpdateOf teaCandidate "mem_goal" := ⟨rfl, rfl, rfl⟩
  rcases (updatesInPlace_iff rfl hupdate rfl rfl (by decide)).mp hplace with
    ⟨hfact, -⟩ | ⟨-, hkeeps⟩
  · revert hfact
    decide
  · have himportance := hkeeps.importance
    revert himportance
    decide

end NuSelf.Memory
