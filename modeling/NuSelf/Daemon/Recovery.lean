/-
  Committed turns that never reach memory.

  The reply of a turn and its observation are two durable writes of one handler.  What lies between
  them is the handler alone: an exception or the death of the daemon there leaves a reply whose
  observation nobody publishes, since the scans read memory's inbox and never the conversations.
  A publication that collides with another observation ends the same way.

  1. `kept_step` — a committed turn is recorded or its handler is still to publish it, as long as
     no step drops a turn that is not recorded;
  2. `crash_remembers_iff` — after a crash every committed turn is recorded exactly when the crash
     drops none that is not;
  3. `no_turn_lost` — in a run without such steps every committed turn is recorded whenever no
     handler has one to publish;
  4. `interrupted_turn_is_lost` — a crash behind the commit, a restart and a scan.
-/
import NuSelf.Daemon.Publication

namespace NuSelf.Daemon

open NuSelf.Lib NuSelf.Chat NuSelf.Conversation NuSelf.Memory NuSelf.Storage

variable {cfg : PlaneConfig} {s s' : ChatPlane} {db : Records}

/-- The texts of the turn are fragments of a stored observation. -/
def Recorded (db : Records) (turn : CompletedTurn) : Prop :=
  ∃ id o, getObservation db id = .ok o ∧ strip ("user: " ++ turn.user_content) ∈ o.fragments ∧
    strip ("assistant: " ++ turn.assistant_content) ∈ o.fragments

/-- **No committed turn is lost to memory.** -/
def Remembers (s : ChatPlane) : Prop :=
  ∀ t ∈ s.issued, t.committed = true → Recorded s.db t.turn

/-- The condition on a step: no committed turn that is not recorded loses its handler before it is
    published, or collides with another observation when it is. -/
def NothingDropped (cfg : PlaneConfig) (s : ChatPlane) : PlaneInput → Prop
  | .crash => ∀ p ∈ s.publishing, p.2.committed = true → Recorded s.db p.2.turn
  | .interrupt handler =>
    ∀ p, s.find handler = some p → p.2.committed = true → Recorded s.db p.2.turn
  | .publish handler _ _ =>
    ∀ p, s.find handler = some p → p.2.committed = true →
      Agrees cfg s.published p.2.turn ∨ Recorded s.db p.2.turn
  | _ => True

/-! ## What is recorded -/

theorem recorded_of_mem {published : List Issued} (h : InboxInv cfg db published) {t : Issued}
    (ht : t ∈ published) : Recorded db t.turn := by
  obtain ⟨o, ho, -, -, hfragments⟩ := h.stored t ht
  refine ⟨o.id, o, ho.read, ?_, ?_⟩
  · rw [hfragments]
    exact List.mem_cons_self
  · rw [hfragments]
    exact List.mem_cons_of_mem _ List.mem_cons_self

theorem recorded_iff {published : List Issued} (h : InboxInv cfg db published)
    (turn : CompletedTurn) :
    Recorded db turn ↔ ∃ t ∈ published,
      strip ("user: " ++ turn.user_content) ∈ chatFragments t.turn ∧
        strip ("assistant: " ++ turn.assistant_content) ∈ chatFragments t.turn := by
  constructor
  · rintro ⟨id, o, hread, huser, hassistant⟩
    rcases h.known id with hfree | ⟨t, ht, rfl⟩
    · rw [getObservation, collectionGet, hfree] at hread
      cases hread
    · obtain ⟨o', ho', hid, -, hfragments⟩ := h.stored t ht
      rw [← hid, ho'.read] at hread
      obtain rfl := Except.ok.inj hread
      rw [hfragments] at huser hassistant
      exact ⟨t, ht, huser, hassistant⟩
  · rintro ⟨t, ht, huser, hassistant⟩
    obtain ⟨o, ho, -, -, hfragments⟩ := h.stored t ht
    rw [← hfragments] at huser hassistant
    exact ⟨o.id, o, ho.read, huser, hassistant⟩

/-- **What is recorded stays so.** -/
theorem Recorded.step {turn : CompletedTurn} (h : Recorded s.db turn)
    (hinbox : InboxInv cfg s.db s.published) (i : PlaneInput) :
    Recorded (planeStep cfg s i).1.db turn := by
  obtain ⟨hinbox', hgrows⟩ := inboxInv_step s i hinbox
  obtain ⟨t, ht, hfragments⟩ := (recorded_iff hinbox turn).mp h
  exact (recorded_iff hinbox' turn).mpr ⟨t, hgrows t ht, hfragments⟩

/-! ## No turn is lost -/

/-- A committed turn is recorded, or its handler is still to publish it. -/
structure KeptInv (cfg : PlaneConfig) (s : ChatPlane) : Prop where
  inbox : InboxInv cfg s.db s.published
  called : ∀ p ∈ s.publishing, p.2 ∈ s.issued
  kept : ∀ t ∈ s.issued, t.committed = true →
    (∃ p ∈ s.publishing, p.2 = t) ∨ Recorded s.db t.turn

theorem keptInv_start : KeptInv cfg ChatPlane.start :=
  ⟨inboxInv_start, fun _ hp => (nomatch hp), fun _ ht => (nomatch ht)⟩

theorem KeptInv.remembers (h : KeptInv cfg s) (hidle : s.publishing = []) : Remembers s := by
  intro t ht hcommitted
  rcases h.kept t ht hcommitted with ⟨p, hp, -⟩ | hrecorded
  · rw [hidle] at hp
    exact nomatch hp
  · exact hrecorded

theorem KeptInv.leaves (h : KeptInv cfg s) (handler : Nat)
    (hleft : ∀ p, s.find handler = some p → p.2.committed = true → Recorded s'.db p.2.turn)
    (hstays : ∀ t : Issued, Recorded s.db t.turn → Recorded s'.db t.turn) :
    ∀ t ∈ s.issued, t.committed = true →
      (∃ p ∈ s.without handler, p.2 = t) ∨ Recorded s'.db t.turn := by
  intro t ht hcommitted
  rcases h.kept t ht hcommitted with ⟨p, hp, rfl⟩ | hrecorded
  · rcases mem_without_or_find hp handler with hstay | hfind
    · exact Or.inl ⟨p, hstay, rfl⟩
    · exact Or.inr (hleft p hfind hcommitted)
  · exact Or.inr (hstays t hrecorded)

/-- **A step under the condition loses no committed turn.** -/
theorem kept_step (s : ChatPlane) (i : PlaneInput) (h : KeptInv cfg s)
    (hok : NothingDropped cfg s i) : KeptInv cfg (planeStep cfg s i).1 := by
  have hinbox := (inboxInv_step s i h.inbox).1
  have hstays : ∀ t : Issued, Recorded s.db t.turn → Recorded (planeStep cfg s i).1.db t.turn :=
    fun t ht => ht.step h.inbox i
  cases hi : i.handles with
  | false =>
    have hquiet : Quiet s (planeStep cfg s i).1 := (quiet_step s hi).1
    refine ⟨hinbox, ?_, ?_⟩
    · rw [hquiet.publishing, hquiet.issued]
      exact h.called
    · rw [hquiet.publishing, hquiet.issued]
      exact fun t ht hcommitted => (h.kept t ht hcommitted).imp_right (hstays t)
  | true =>
    cases i with
    | respond handler call configured outcome =>
      refine ⟨hinbox, fun p hp => ?_, fun t ht hcommitted => ?_⟩
      · rcases List.mem_append.mp hp with hp | hp
        · exact List.mem_append_left _ (h.called p hp)
        · obtain ⟨t, ht, rfl⟩ := List.mem_map.mp hp
          exact List.mem_append_right _ ht
      · rcases List.mem_append.mp ht with ht | ht
        · rcases h.kept t ht hcommitted with ⟨p, hp, hturn⟩ | hrecorded
          · exact Or.inl ⟨p, List.mem_append_left _ hp, hturn⟩
          · exact Or.inr (hstays t hrecorded)
        · exact Or.inl ⟨(handler, t), List.mem_append_right _ (List.mem_map_of_mem ht), rfl⟩
    | interrupt handler =>
      exact ⟨hinbox, fun p hp => h.called p (mem_of_mem_without hp),
        h.leaves handler hok hstays⟩
    | crash =>
      refine ⟨hinbox, fun p hp => (nomatch hp), fun t ht hcommitted => Or.inr ?_⟩
      rcases h.kept t ht hcommitted with ⟨p, hp, rfl⟩ | hrecorded
      · exact hok p hp hcommitted
      · exact hrecorded
    | publish handler observed_at source_trace_id =>
      rcases publish_step h.inbox handler observed_at source_trace_id with
        ⟨-, hstep⟩ | ⟨p, hfind, hagrees, o, db', hstep, hinv⟩ | ⟨p, hfind, hnot, hstep⟩
      · rw [hstep]
        exact h
      · rw [hstep] at hinbox hstays ⊢
        refine ⟨hinbox, fun q hq => h.called q (mem_of_mem_without hq),
          h.leaves handler (fun q hq _ => ?_) hstays⟩
        -- the turn that leaves is the published one
        obtain rfl := Option.some.inj (hfind.symm.trans hq)
        exact recorded_of_mem hinv (List.mem_append_right _ List.mem_cons_self)
      · rw [hstep] at hinbox hstays ⊢
        refine ⟨hinbox, fun q hq => h.called q (mem_of_mem_without hq),
          h.leaves handler (fun q hq hcommitted => ?_) hstays⟩
        rcases hok q hq hcommitted with hagrees | hrecorded
        · obtain rfl := Option.some.inj (hfind.symm.trans hq)
          exact absurd hagrees hnot
        · exact hrecorded
    | _ => cases hi

/-- **A crash loses exactly the turns it drops**: those that are not recorded already. -/
theorem crash_remembers_iff (h : KeptInv cfg s) :
    Remembers (planeStep cfg s .crash).1 ↔ NothingDropped cfg s .crash := by
  constructor
  · intro hremembers p hp hcommitted
    exact hremembers p.2 (h.called p hp) hcommitted
  · intro hok
    exact (kept_step s .crash h hok).remembers rfl

/-- **No committed turn is lost in a run that drops none.** -/
theorem no_turn_lost (cfg : PlaneConfig) (inputs : List PlaneInput)
    (hok : ∀ e ∈ run (planeStep cfg) ChatPlane.start inputs, NothingDropped cfg e.before e.input) :
    ∀ e ∈ run (planeStep cfg) ChatPlane.start inputs,
      e.after.publishing = [] → Remembers e.after := by
  intro e he hidle
  have hkept := (run_induct kept_step ChatPlane.start inputs keptInv_start hok e he).2
  exact hkept.remembers hidle

/-! ## A turn with and without its publication -/

def askedTurn : PlaneInput := .respond 0 { message := "Hi" } true (.answer { answer := "Yes." })

def publishedTurn : List PlaneInput :=
  [askedTurn, .publish 0 ⟨"now", now_ne⟩ none, .crash, .scan]

theorem published_turn_is_kept :
    (final (planeStep samplePlane) ChatPlane.start publishedTurn).published.length = 1 ∧
      ∀ e ∈ run (planeStep samplePlane) ChatPlane.start publishedTurn,
        e.after.publishing = [] → Remembers e.after := by
  refine ⟨by decide +kernel, no_turn_lost samplePlane publishedTurn ?_⟩
  simp only [run, publishedTurn, List.forall_mem_cons]
  refine ⟨trivial, fun p _ _ => Or.inl fun t ht => ?_, fun p hp => ?_, trivial,
    fun e he => absurd he List.not_mem_nil⟩
  · -- nothing has been published before
    cases ht
  · have hidle : (planeStep samplePlane (planeStep samplePlane ChatPlane.start askedTurn).1
        (.publish 0 ⟨"now", now_ne⟩ none)).1.publishing.length = 0 := by decide +kernel
    rw [List.length_eq_zero_iff.mp hidle] at hp
    cases hp

/-- No turn id is used twice in a conversation. -/
def NoRetry (inputs : List PlaneInput) : Prop :=
  (inputs.filterMap fun
    | .respond _ c _ _ => c.turn_id.map fun turn_id => (c.conversation_id, turn_id)
    | _ => none).Nodup

/-- **The daemon dies behind the commit**: the scan after the restart finds nothing. -/
theorem interrupted_turn_is_lost :
    ¬ ∀ (cfg : PlaneConfig) (inputs : List PlaneInput), NoRetry inputs →
      ∀ e ∈ run (planeStep cfg) ChatPlane.start inputs,
        e.input = .scan → e.after.publishing = [] → Remembers e.after := by
  intro h
  have hrun := h samplePlane [askedTurn, .crash, .scan] List.nodup_nil
  obtain ⟨scanned, hscanned, hinput, hidle, hissued⟩ :
      ∃ e ∈ run (planeStep samplePlane) ChatPlane.start [askedTurn, .crash, .scan],
        e.input = .scan ∧ e.after.publishing = [] ∧ e.after.db = Table.empty ∧
          ∃ t ∈ e.after.issued, t.committed = true := by
    refine ⟨_, List.mem_cons_of_mem _ (List.mem_cons_of_mem _ List.mem_cons_self), rfl, rfl, rfl,
      ?_⟩
    have hissued : ((planeStep samplePlane ChatPlane.start askedTurn).1.issued.any
        fun t => t.committed) = true := by decide +kernel
    exact List.any_eq_true.mp hissued
  obtain ⟨hempty, t, ht, hcommitted⟩ := hissued
  obtain ⟨id, o, hread, -⟩ := hrun scanned hscanned hinput hidle t ht hcommitted
  rw [hempty] at hread
  cases hread

end NuSelf.Daemon
