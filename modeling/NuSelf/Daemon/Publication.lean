/-
  Chat turns of the daemon and the publication of their observations.

  A handler of the daemon runs a turn and then publishes it to memory: two durable writes, the
  reply in the conversation store and the observation in memory's inbox.  Between them other
  handlers run, conversations are renamed, branched, deleted and created again, an exception can
  end the handler, and the daemon can die, which loses the handlers and the continuations and
  nothing else.  Periodic scans read the inbox and have its pending observations curated.

  `ChatPlane` is that state.  Three parts of it are only looked at from outside: the number of
  times a conversation id has been taken from its conversation (`lives`), the turns that calls
  have given, each with the life of its id (`issued`), and those that were published.

  1. `InboxInv` — the inbox holds exactly the observations of the published turns;
  2. `publish_cases` — a publication succeeds exactly when every published turn with the same
     observation id has the same reference and fragments;
  3. `quiet_step` — a step that no handler takes leaves the turns alone;
  4. `inboxInv_step` — every step keeps the inbox, so every run does (`inbox_exact`).
-/
import NuSelf.Chat.Completed
import NuSelf.Memory.Curator

namespace NuSelf.Daemon

open NuSelf.Lib NuSelf.Chat NuSelf.Conversation NuSelf.Memory NuSelf.Storage

/-! ## The machine -/

/-- What the daemon is set up with: `digest` marks pending turns, `uuid5` and `casefold` are
    Python's. -/
structure PlaneConfig where
  digest : String → String
  uuid5 : String → String
  casefold : String → String
  settings : ChatAgentSettings
  min_quality_chars : Nat

/-- A completed turn that a call gave: in which life of its conversation id, and whether the call
    committed it or read it back. -/
structure Issued where
  turn : CompletedTurn
  life : Nat
  committed : Bool
  deriving DecidableEq

structure ChatPlane where
  runtime : ChatRuntime
  db : Records
  /-- The handlers that have their reply and have not published it yet. -/
  publishing : List (Nat × Issued)
  lives : String → Nat
  issued : List Issued
  published : List Issued

/-- A new installation. -/
def ChatPlane.start : ChatPlane where
  runtime := .empty
  db := Table.empty
  publishing := []
  lives := fun _ => 0
  issued := []
  published := []

/-- A reading of the clock, as text. -/
abbrev ClockText := { text : String // text ≠ "" }

inductive PlaneInput where
  /-- A handler runs a turn. -/
  | respond (handler : Nat) (call : RespondCall) (configured : Bool) (outcome : ModelOutcome)
  /-- The handler publishes its turn. -/
  | publish (handler : Nat) (observed_at : ClockText) (source_trace_id : Option String)
  /-- An exception ends the handler before it publishes. -/
  | interrupt (handler : Nat)
  /-- The daemon dies and is started again. -/
  | crash
  | compress (conversation_id : String) (agent : Option (Except String String))
  | create (conversation_id : String)
  | rename (old_conversation_id new_conversation_id : String)
  | branch (source_conversation_id new_conversation_id : String) (message_index : Option Int)
  | archive (conversation_id : String)
  | unarchive (conversation_id : String)
  | delete (conversation_id : String)
  /-- `_scan_memory_observations`. -/
  | scan
  | curate (run : CuratorRun)

inductive PlaneOutput where
  | silent
  | responded (output : RespondOutput)
  | published (result : Except MemoryError MemoryObservation)
  | compressed (result : Except ChatError Unit)
  | refused (error : StoreError)
  | scanned (pending : Except MemoryError (List String))
  | curated (error : Option MemoryError)

/-- The turn that a call gives its handler. -/
def ChatPlane.issue (s : ChatPlane) (output : RespondOutput) : Option Issued :=
  match output.result with
  | .error _ => none
  | .ok result => result.completed_turn.map fun turn =>
      ⟨turn, s.lives turn.conversation_id, !output.reused⟩

/-- The id is taken from its conversation. -/
def nextLife (lives : String → Nat) (conversation_id : String) : String → Nat :=
  fun id => if id = conversation_id then lives id + 1 else lives id

/-- The handler leaves; it is in the list once. -/
def ChatPlane.without (s : ChatPlane) (handler : Nat) : List (Nat × Issued) :=
  s.publishing.eraseP fun p => decide (p.1 = handler)

def ChatPlane.find (s : ChatPlane) (handler : Nat) : Option (Nat × Issued) :=
  s.publishing.find? fun p => decide (p.1 = handler)

/-- A command on the conversation store. -/
def ChatPlane.withStore (s : ChatPlane) (result : Except StoreError ConversationStore)
    (lives : String → Nat) : ChatPlane × PlaneOutput :=
  match result with
  | .error e => (s, .refused e)
  | .ok store => ({ s with runtime := { s.runtime with store := store }, lives := lives }, .silent)

variable (cfg : PlaneConfig)

def planeStep (s : ChatPlane) : PlaneInput → ChatPlane × PlaneOutput
  | .respond handler call configured outcome =>
    let r := respond cfg.digest s.runtime call configured outcome
    ({ s with
      runtime := r.1
      publishing := s.publishing ++ (s.issue r.2).toList.map fun t => (handler, t)
      issued := s.issued ++ (s.issue r.2).toList }, .responded r.2)
  | .publish handler observed_at source_trace_id =>
    match s.find handler with
    | none => (s, .silent)
    | some (_, t) =>
      match publishChatObservation cfg.uuid5 s.db t.turn observed_at source_trace_id with
      | .error e => ({ s with publishing := s.without handler }, .published (.error e))
      | .ok (observation, db) =>
        ({ s with
          db := db
          publishing := s.without handler
          published := s.published ++ [t] }, .published (.ok observation))
  | .interrupt handler => ({ s with publishing := s.without handler }, .silent)
  | .crash =>
    ({ s with runtime := ⟨s.runtime.store, Table.empty⟩, publishing := [] }, .silent)
  | .compress conversation_id agent =>
    let r := compressConversation cfg.digest cfg.settings s.runtime conversation_id agent
    ({ s with runtime := r.1 }, .compressed r.2)
  | .create conversation_id =>
    s.withStore (s.runtime.store.save (.empty conversation_id)) (nextLife s.lives conversation_id)
  | .rename old new =>
    s.withStore (s.runtime.store.rename old new)
      (if old = new then s.lives else nextLife s.lives old)
  | .branch source new message_index =>
    s.withStore ((s.runtime.store.branch source new message_index).map Prod.fst) s.lives
  | .archive conversation_id => s.withStore (s.runtime.store.archive conversation_id) s.lives
  | .unarchive conversation_id => s.withStore (s.runtime.store.unarchive conversation_id) s.lives
  | .delete conversation_id =>
    s.withStore (s.runtime.store.delete conversation_id) (nextLife s.lives conversation_id)
  | .scan =>
    (s, .scanned ((pendingObservations s.db).map fun pending => pending.map fun o => o.id))
  | .curate run =>
    let r := runOnce cfg.casefold cfg.min_quality_chars s.db run
    ({ s with db := r.1 }, .curated r.2)

/-! ## The inbox -/

/-- **The inbox holds the observations of the published turns**, and no others. -/
structure InboxInv (db : Records) (published : List Issued) : Prop where
  stored : ∀ t ∈ published, ∃ o, Holds db o ∧ o.id = observationId cfg.uuid5 t.turn ∧
    o.source_ref = chatSourceRef cfg.uuid5 t.turn ∧ o.fragments = chatFragments t.turn
  known : ∀ id, db.get ("memory_observations", id) = none ∨
    ∃ t ∈ published, observationId cfg.uuid5 t.turn = id

/-- Every published turn with the observation id of the turn has its reference and fragments. -/
def Agrees (published : List Issued) (turn : CompletedTurn) : Prop :=
  ∀ t ∈ published, observationId cfg.uuid5 t.turn = observationId cfg.uuid5 turn →
    chatSourceRef cfg.uuid5 t.turn = chatSourceRef cfg.uuid5 turn ∧
      chatFragments t.turn = chatFragments turn

variable {cfg} {s : ChatPlane} {db db' : Records} {published : List Issued}

theorem inboxInv_start : InboxInv cfg Table.empty [] where
  stored := fun _ ht => nomatch ht
  known := fun _ => Or.inl rfl

theorem InboxInv.keeps (h : InboxInv cfg db published) (hkeeps : KeepsInbox db db') :
    InboxInv cfg db' published where
  stored := fun t ht => by
    obtain ⟨o, ho, hid, href, hfragments⟩ := h.stored t ht
    obtain ⟨o', ho', hid', href', hfragments'⟩ := hkeeps.holds o ho
    exact ⟨o', ho', hid'.trans hid, href'.trans href, hfragments'.trans hfragments⟩
  known := fun id => by
    rcases h.known id with hfree | hknown
    · exact Or.inl (hkeeps.free id hfree)
    · exact Or.inr hknown

/-- **When a publication succeeds**: every published turn with its observation id agrees with it.
    Then the inbox holds its observation; otherwise it reports a collision. -/
theorem publish_cases (h : InboxInv cfg db published) (t : Issued) (observed_at : ClockText)
    (source_trace_id : Option String) :
    (Agrees cfg published t.turn ∧ ∃ o db',
      publishChatObservation cfg.uuid5 db t.turn observed_at source_trace_id = .ok (o, db') ∧
      InboxInv cfg db' (published ++ [t])) ∨
    (¬ Agrees cfg published t.turn ∧
      publishChatObservation cfg.uuid5 db t.turn observed_at source_trace_id =
        .error .identityCollision) := by
  have hwell := chatObservation_wellFormed cfg.uuid5 t.turn observed_at.2 source_trace_id
  rw [publish_eq]
  by_cases hknown : ∃ t' ∈ published,
      observationId cfg.uuid5 t'.turn = observationId cfg.uuid5 t.turn
  · obtain ⟨t', ht', hid'⟩ := hknown
    obtain ⟨o, ho, hoid, href, hfragments⟩ := h.stored t' ht'
    rw [observe_of_holds ho (hoid.trans hid')]
    by_cases hsame : chatSourceRef cfg.uuid5 t'.turn = chatSourceRef cfg.uuid5 t.turn ∧
        chatFragments t'.turn = chatFragments t.turn
    · obtain ⟨hsameRef, hsameFragments⟩ := hsame
      refine Or.inl ⟨fun t'' ht'' hid'' => ?_, o, db, if_neg ?_, ?_⟩
      · -- one observation is held under the id
        obtain ⟨o'', ho'', hoid'', href'', hfragments''⟩ := h.stored t'' ht''
        have hids : o''.id = o.id := hoid''.trans (hid''.trans (hid'.symm.trans hoid.symm))
        have hreads := ho''.read
        rw [hids, ho.read] at hreads
        obtain rfl := Except.ok.inj hreads
        exact ⟨href''.symm.trans (href.trans hsameRef),
          hfragments''.symm.trans (hfragments.trans hsameFragments)⟩
      · rintro (hne | hne)
        · exact hne (href.trans hsameRef)
        · exact hne (hfragments.trans hsameFragments)
      · refine ⟨fun t'' ht'' => ?_, fun id => ?_⟩
        · rcases List.mem_append.mp ht'' with ht'' | ht''
          · exact h.stored t'' ht''
          · rw [List.mem_singleton.mp ht'']
            exact ⟨o, ho, hoid.trans hid', href.trans hsameRef, hfragments.trans hsameFragments⟩
        · rcases h.known id with hfree | ⟨t'', ht'', hid''⟩
          · exact Or.inl hfree
          · exact Or.inr ⟨t'', List.mem_append_left _ ht'', hid''⟩
    · refine Or.inr ⟨fun hagrees => hsame (hagrees t' ht' hid'), if_pos ?_⟩
      rw [href, hfragments]
      by_cases href' : chatSourceRef cfg.uuid5 t'.turn = chatSourceRef cfg.uuid5 t.turn
      · exact Or.inr fun hfragments' => hsame ⟨href', hfragments'⟩
      · exact Or.inl href'
  · have hfree : db.get ("memory_observations", observationId cfg.uuid5 t.turn) = none := by
      rcases h.known (observationId cfg.uuid5 t.turn) with hfree | hthere
      · exact hfree
      · exact absurd hthere hknown
    obtain ⟨db', hobserve, hholds, hother⟩ := observe_of_free hwell hfree
    refine Or.inl ⟨fun t' ht' hid' => absurd ⟨t', ht', hid'⟩ hknown, _, db', hobserve, ?_, ?_⟩
    · intro t' ht'
      rcases List.mem_append.mp ht' with ht' | ht'
      · obtain ⟨o, ho, hoid, hsame⟩ := h.stored t' ht'
        refine ⟨o, ⟨ho.wellFormed, ?_⟩, hoid, hsame⟩
        rw [collectionGet, hother _ (fun he => ?_)]
        · exact ho.stored
        · exact hknown ⟨t', ht', hoid.symm.trans (congrArg Prod.snd he)⟩
      · rw [List.mem_singleton.mp ht']
        exact ⟨_, hholds, rfl, rfl, rfl⟩
    · intro id
      by_cases hid : id = observationId cfg.uuid5 t.turn
      · exact Or.inr ⟨t, List.mem_append_right _ List.mem_cons_self, hid.symm⟩
      · rw [hother _ fun he => hid (congrArg Prod.snd he)]
        rcases h.known id with hfree' | ⟨t', ht', hid'⟩
        · exact Or.inl hfree'
        · exact Or.inr ⟨t', List.mem_append_left _ ht', hid'⟩

/-! ## Steps -/

/-- The turns stay where they are, and the inbox keeps its observations. -/
structure Quiet (s s' : ChatPlane) : Prop where
  publishing : s'.publishing = s.publishing
  issued : s'.issued = s.issued
  published : s'.published = s.published
  inbox : KeepsInbox s.db s'.db

theorem Quiet.refl (s : ChatPlane) : Quiet s s := ⟨rfl, rfl, rfl, KeepsInbox.of_same fun _ => rfl⟩

/-- A handler makes the step, or all handlers are lost in it. -/
def PlaneInput.handles : PlaneInput → Bool
  | .respond .. | .publish .. | .interrupt _ | .crash => true
  | _ => false

theorem withStore_quiet (s : ChatPlane) (result : Except StoreError ConversationStore)
    (lives : String → Nat) : Quiet s (s.withStore result lives).1 ∧
      ∀ published, (s.withStore result lives).2 ≠ .published published := by
  cases result with
  | error e => exact ⟨Quiet.refl s, fun _ h => nomatch h⟩
  | ok store => exact ⟨⟨rfl, rfl, rfl, KeepsInbox.of_same fun _ => rfl⟩, fun _ h => nomatch h⟩

/-- **A step that no handler takes leaves the turns alone**, and publishes nothing. -/
theorem quiet_step (s : ChatPlane) {i : PlaneInput} (h : i.handles = false) :
    Quiet s (planeStep cfg s i).1 ∧ ∀ published, (planeStep cfg s i).2 ≠ .published published := by
  cases i with
  | respond handler call configured outcome => cases h
  | publish handler observed_at source_trace_id => cases h
  | interrupt handler => cases h
  | crash => cases h
  | scan => exact ⟨Quiet.refl s, fun _ h => nomatch h⟩
  | compress id agent =>
    exact ⟨⟨rfl, rfl, rfl, KeepsInbox.of_same fun _ => rfl⟩, fun _ h => nomatch h⟩
  | curate run => exact ⟨⟨rfl, rfl, rfl, runOnce_keeps _ _ _ _⟩, fun _ h => nomatch h⟩
  | create id => exact withStore_quiet s _ _
  | rename old new => exact withStore_quiet s _ _
  | branch source new message_index => exact withStore_quiet s _ _
  | archive id => exact withStore_quiet s _ _
  | unarchive id => exact withStore_quiet s _ _
  | delete id => exact withStore_quiet s _ _

theorem find_mem {handler : Nat} {p : Nat × Issued} (h : s.find handler = some p) :
    p ∈ s.publishing ∧ p.1 = handler := by
  unfold ChatPlane.find at h
  have hfound := List.find?_some h
  exact ⟨List.mem_of_find?_eq_some h, of_decide_eq_true hfound⟩

theorem mem_of_mem_without {handler : Nat} {p : Nat × Issued} (h : p ∈ s.without handler) :
    p ∈ s.publishing :=
  List.mem_of_mem_eraseP h

theorem mem_without_or_find {p : Nat × Issued} (h : p ∈ s.publishing) (handler : Nat) :
    p ∈ s.without handler ∨ s.find handler = some p := by
  let leaves : Nat × Issued → Bool := fun q => decide (q.1 = handler)
  show p ∈ s.publishing.eraseP leaves ∨ s.publishing.find? leaves = some p
  revert h
  induction s.publishing with
  | nil => exact fun h => nomatch h
  | cons q rest ih =>
    intro h
    by_cases hq : leaves q = true
    · rw [List.eraseP_cons_of_pos hq, List.find?_cons_of_pos hq]
      rcases List.mem_cons.mp h with rfl | h
      · exact Or.inr rfl
      · exact Or.inl h
    · rw [List.eraseP_cons_of_neg hq, List.find?_cons_of_neg hq]
      rcases List.mem_cons.mp h with rfl | h
      · exact Or.inl List.mem_cons_self
      · exact (ih h).imp_left (List.mem_cons_of_mem _)

/-- **What a publication does**: nothing without a turn to publish; otherwise the handler leaves,
    with its turn published or with a collision. -/
theorem publish_step (h : InboxInv cfg s.db s.published) (handler : Nat) (observed_at : ClockText)
    (source_trace_id : Option String) :
    (s.find handler = none ∧
      planeStep cfg s (.publish handler observed_at source_trace_id) = (s, .silent)) ∨
    (∃ p, s.find handler = some p ∧ Agrees cfg s.published p.2.turn ∧ ∃ o db',
      planeStep cfg s (.publish handler observed_at source_trace_id) =
        ({ s with
          db := db'
          publishing := s.without handler
          published := s.published ++ [p.2] }, .published (.ok o)) ∧
      InboxInv cfg db' (s.published ++ [p.2])) ∨
    (∃ p, s.find handler = some p ∧ ¬ Agrees cfg s.published p.2.turn ∧
      planeStep cfg s (.publish handler observed_at source_trace_id) =
        ({ s with publishing := s.without handler }, .published (.error .identityCollision))) := by
  cases hfind : s.find handler with
  | none => exact Or.inl ⟨rfl, by simp only [planeStep, hfind]⟩
  | some p =>
    rcases publish_cases h p.2 observed_at source_trace_id with
      ⟨hagrees, o, db', hok, hinv⟩ | ⟨hnot, herror⟩
    · refine Or.inr (Or.inl ⟨p, rfl, hagrees, o, db', ?_, hinv⟩)
      simp only [planeStep, hfind, hok]
    · refine Or.inr (Or.inr ⟨p, rfl, hnot, ?_⟩)
      simp only [planeStep, hfind, herror]

/-- **Every step keeps the inbox**, and what was published stays published. -/
theorem inboxInv_step (s : ChatPlane) (i : PlaneInput) (h : InboxInv cfg s.db s.published) :
    InboxInv cfg (planeStep cfg s i).1.db (planeStep cfg s i).1.published ∧
      ∀ t ∈ s.published, t ∈ (planeStep cfg s i).1.published := by
  cases hi : i.handles with
  | false =>
    have hquiet : Quiet s (planeStep cfg s i).1 := (quiet_step s hi).1
    rw [hquiet.published]
    exact ⟨h.keeps hquiet.inbox, fun _ ht => ht⟩
  | true =>
    cases i with
    | respond handler call configured outcome => exact ⟨h, fun _ ht => ht⟩
    | interrupt handler => exact ⟨h, fun _ ht => ht⟩
    | crash => exact ⟨h, fun _ ht => ht⟩
    | publish handler observed_at source_trace_id =>
      rcases publish_step h handler observed_at source_trace_id with
        ⟨-, hstep⟩ | ⟨p, -, -, o, db', hstep, hinv⟩ | ⟨p, -, -, hstep⟩
      · rw [hstep]
        exact ⟨h, fun _ ht => ht⟩
      · rw [hstep]
        exact ⟨hinv, fun _ ht => List.mem_append_left _ ht⟩
      · rw [hstep]
        exact ⟨h, fun _ ht => ht⟩
    | _ => cases hi

/-- **The inbox after any run**, through commands, curation and crashes. -/
theorem inbox_exact (inputs : List PlaneInput) :
    let s := final (planeStep cfg) .start inputs
    InboxInv cfg s.db s.published :=
  @final_induct _ _ _ (planeStep cfg) (fun s => InboxInv cfg s.db s.published)
    (fun s i h => (inboxInv_step s i h).1) _ inputs inboxInv_start

/-! ## A sample installation -/

/-- `uuid5(NAMESPACE_URL, name).hex` on the names of two turns, and another text for each other
    name. -/
def sampleUuid5 (name : String) : String :=
  if name = "default:0:2" then "b875a1f94d435734bcd6d00a14f9fc7b"
  else if name = "interaction:b875a1f94d435734bcd6d00a14f9fc7b" then
    "3954e984cffb57f5a31f479abc5a0d39"
  else if name = "default:2:4" then "472124be1d2e5e2081a38f5f827af040"
  else if name = "interaction:472124be1d2e5e2081a38f5f827af040" then
    "e698d4577be559a3a53ed6bca9d86ccb"
  else "x" ++ name

/-- The turns of the sample runs have no id and nothing is curated there, so that neither `digest`
    nor `casefold` is used. -/
def samplePlane : PlaneConfig where
  digest := id
  uuid5 := sampleUuid5
  casefold := id
  settings := historyWindow
  min_quality_chars := 1

theorem now_ne : "now" ≠ "" := by decide

end NuSelf.Daemon
