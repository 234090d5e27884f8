/-
  The observation ids of committed turns.

  An observation is named after the id of its conversation and the absolute range of its messages.
  While an id belongs to one conversation, a range is committed there once, and what is read back
  under a range has the texts that were committed (`Shows`).  But deleting a conversation, creating
  it anew or renaming it away lets the id go to another one, which counts its messages from the
  beginning, or from wherever a branch or a renamed conversation begins.  Its turns get the
  references of old ones, and their publication collides.

  1. `observationId_eq_iff` — ids name ranges;
  2. `carries_command` — a command keeps what the conversations show, or takes their ids;
  3. `planeInv_step` — the turns of one life keep their ranges apart;
  4. `identified_iff` — ids are distinct and publications accepted in a step exactly when no range
     of an earlier life returns with other texts;
  5. `identity_iff` — so it is in a run;
  6. `noRangeReturns_of_kept` — nothing returns while no id is taken from its conversation.
-/
import NuSelf.Daemon.Publication

namespace NuSelf.Daemon

open NuSelf.Lib NuSelf.Chat NuSelf.Conversation NuSelf.Memory NuSelf.Storage

variable {cfg : PlaneConfig} {s s' : ChatPlane}

/-! ## Ids -/

/-- The turns stand under the same range of the same conversation id. -/
structure SameRange (t t' : CompletedTurn) : Prop where
  conversation : t.conversation_id = t'.conversation_id
  start : t.start_index = t'.start_index
  stop : t.end_index = t'.end_index

theorem SameRange.symm {t t' : CompletedTurn} (h : SameRange t t') : SameRange t' t :=
  ⟨h.conversation.symm, h.start.symm, h.stop.symm⟩

/-- The name of a range; the conversation id may hold the separator, the indexes cannot. -/
theorem rangeName_inj (c c' : String) (i i' j j' : Nat) :
    c ++ ":" ++ toString i ++ ":" ++ toString j = c' ++ ":" ++ toString i' ++ ":" ++ toString j' ↔
      c = c' ∧ i = i' ∧ j = j' := by
  have hjoin : ∀ (a : String) (m n : Nat), a ++ ":" ++ toString m ++ ":" ++ toString n =
      joinKey ':' (joinKey ':' a (toString m)) (toString n) := by
    intro a m n
    apply String.ext
    simp [joinKey]
  have hdigits : ∀ n : Nat, ':' ∉ (toString n).toList := not_mem_numeral (by decide)
  rw [hjoin, hjoin, joinKey_inj_right (hdigits _) (hdigits _),
    joinKey_inj_right (hdigits _) (hdigits _), numeral_inj, numeral_inj, and_assoc]

theorem chatSourceRef_eq_iff {uuid5 : String → String} (h : Function.Injective uuid5)
    {t t' : CompletedTurn} : chatSourceRef uuid5 t = chatSourceRef uuid5 t' ↔ SameRange t t' := by
  unfold chatSourceRef
  rw [append_right_cancel_text, h.eq_iff, rangeName_inj]
  constructor
  · rintro ⟨hconversation, hstart, hend⟩
    exact ⟨hconversation, hstart, hend⟩
  · rintro ⟨hconversation, hstart, hend⟩
    exact ⟨hconversation, hstart, hend⟩

/-- **Observation ids name ranges.** -/
theorem observationId_eq_iff {uuid5 : String → String} (h : Function.Injective uuid5)
    {t t' : CompletedTurn} :
    observationId uuid5 t = observationId uuid5 t' ↔ SameRange t t' := by
  unfold observationId
  rw [append_right_cancel_text, h.eq_iff, chatSourceRef_eq_iff h]

theorem agrees_iff (h : Function.Injective cfg.uuid5) {published : List Issued}
    {turn : CompletedTurn} :
    Agrees cfg published turn ↔
      ∀ t ∈ published, SameRange t.turn turn → chatFragments t.turn = chatFragments turn := by
  constructor
  · intro hagrees t ht hrange
    exact (hagrees t ht ((observationId_eq_iff h).mpr hrange)).2
  · intro hsame t ht hid
    have hrange := (observationId_eq_iff h).mp hid
    exact ⟨(chatSourceRef_eq_iff h).mpr hrange, hsame t ht hrange⟩

/-! ## Lives -/

/-- The last reply apart, no stored message reports a missing model. -/
def TailsOnly (s : ChatPlane) : Prop := ∀ id, TailOnly (s.runtime.view id)

theorem view_of_get {s : ChatRuntime} {id : String} {state : Option ConversationState}
    (h : s.store.get id = state) : s.view id = Chat.view (state.getD (.empty id)) := by
  rw [← h]
  rfl

/-- The id is taken from its conversation, or the conversation shows its turns as before. -/
structure Carries (s s' : ChatPlane) (id : String) : Prop where
  tail : TailOnly (s'.runtime.view id)
  shown : s.lives id < s'.lives id ∨ (s'.lives id = s.lives id ∧
    ∀ turn, Shows (s.runtime.view id) turn → Shows (s'.runtime.view id) turn)

namespace Carries

variable {id : String}

theorem same (htails : TailsOnly s) (hview : s'.runtime.view id = s.runtime.view id)
    (hlives : s'.lives id = s.lives id) : Carries s s' id := by
  refine ⟨?_, Or.inr ⟨hlives, fun turn hturn => ?_⟩⟩
  · rw [hview]
    exact htails id
  · rw [hview]
    exact hturn

theorem refl (htails : TailsOnly s) (id : String) : Carries s s id := same htails rfl rfl

theorem fresh (htail : TailOnly (s'.runtime.view id)) (hlives : s'.lives id = s.lives id)
    (hnone : s.runtime.store.get id = none) : Carries s s' id := by
  refine ⟨htail, Or.inr ⟨hlives, fun turn hturn => ?_⟩⟩
  rw [view_of_get hnone] at hturn
  exact absurd hturn (shows_nil_false rfl)

end Carries

theorem withStore_carries (htails : TailsOnly s) {result : Except StoreError ConversationStore}
    {lives : String → Nat}
    (h : ∀ store, result = .ok store → ∀ id,
      Carries s { s with runtime := { s.runtime with store := store }, lives := lives } id)
    (id : String) : Carries s (s.withStore result lives).1 id := by
  cases result with
  | error e => exact Carries.refl htails id
  | ok store => exact h store rfl id

theorem carries_kept (htails : TailsOnly s) {store : ConversationStore} {lives : String → Nat}
    {id : String} (hview : Chat.view ((store.get id).getD (.empty id)) =
      Chat.view ((s.runtime.store.get id).getD (.empty id)))
    (hlives : lives id = s.lives id) :
    Carries s { s with runtime := { s.runtime with store := store }, lives := lives } id :=
  Carries.same htails hview hlives

theorem tailOnly_empty (id : String) : TailOnly (Chat.view (.empty id)) := tailOnly_nil 0

theorem nextLife_lt (lives : String → Nat) (id : String) : lives id < nextLife lives id id := by
  rw [nextLife, if_pos rfl]
  exact Nat.lt_succ_self _

theorem nextLife_ne (lives : String → Nat) {id other : String} (h : other ≠ id) :
    nextLife lives id other = lives other := if_neg h

theorem carries_taken (htails : TailsOnly s) {store : ConversationStore} {taken : String}
    {state : Option ConversationState}
    (hstate : state.getD (.empty taken) = .empty taken)
    (hget : ∀ id, store.get id = if id = taken then state else s.runtime.store.get id)
    (id : String) :
    Carries s { s with
      runtime := { s.runtime with store := store }, lives := nextLife s.lives taken } id := by
  by_cases hid : id = taken
  · subst hid
    refine ⟨?_, Or.inl (nextLife_lt _ _)⟩
    rw [view_of_get ((hget id).trans (if_pos rfl)), hstate]
    exact tailOnly_empty id
  · have hkept := (hget id).trans (if_neg hid)
    exact carries_kept htails (by rw [hkept]) (nextLife_ne _ hid)

theorem carries_marked (htails : TailsOnly s) {store : ConversationStore}
    {conversation_id : String} {state marked : ConversationState}
    (hstate : s.runtime.store.get conversation_id = some state)
    (hget : ∀ id, store.get id =
      if id = conversation_id then some marked else s.runtime.store.get id)
    (hview : Chat.view marked = Chat.view state) (id : String) :
    Carries s { s with runtime := { s.runtime with store := store } } id := by
  refine carries_kept htails ?_ rfl
  rw [hget id]
  by_cases hid : id = conversation_id
  · rw [if_pos hid, hid, hstate]
    exact hview
  · rw [if_neg hid]

theorem carries_renamed (htails : TailsOnly s) {old new : String} {store : ConversationStore}
    (hrename : s.runtime.store.rename old new = .ok store) (id : String) :
    Carries s { s with
      runtime := { s.runtime with store := store }
      lives := if old = new then s.lives else nextLife s.lives old } id := by
  by_cases hsame : old = new
  · -- nothing happens
    obtain rfl : s.runtime.store = store := by
      rw [hsame, ConversationStore.rename, if_pos rfl] at hrename
      exact Except.ok.inj hrename
    exact carries_kept htails rfl (by rw [if_pos hsame])
  · obtain ⟨state, hold, hnew, hget⟩ := ConversationStore.get_rename hrename hsame
    rw [if_neg hsame]
    by_cases hid : id = old
    · subst hid
      refine ⟨?_, Or.inl (nextLife_lt _ _)⟩
      rw [view_of_get ((hget id).trans (if_pos rfl))]
      exact tailOnly_empty id
    · by_cases hid' : id = new
      · subst hid'
        refine Carries.fresh ?_ (nextLife_ne _ hid) hnew
        -- the messages of the renamed conversation
        rw [view_of_get ((hget id).trans ((if_neg hid).trans (if_pos rfl)))]
        have htail := htails old
        rw [view_of_get hold] at htail
        exact htail
      · have hkept := (hget id).trans ((if_neg hid).trans (if_neg hid'))
        exact carries_kept htails (by rw [hkept]) (nextLife_ne _ hid)

theorem carries_branched (htails : TailsOnly s) {source new : String} {message_index : Option Int}
    {store : ConversationStore} {branched : ConversationState}
    (hbranch : s.runtime.store.branch source new message_index = .ok (store, branched))
    (id : String) : Carries s { s with runtime := { s.runtime with store := store } } id := by
  obtain ⟨hnew, hget⟩ := ConversationStore.get_branch hbranch
  obtain ⟨state, n, hn, hsource, -, hbranched, -⟩ := ConversationStore.branch_ok hbranch
  by_cases hid : id = new
  · subst hid
    refine Carries.fresh ?_ rfl hnew
    rw [view_of_get ((hget id).trans (if_pos rfl)), hbranched]
    have htail := htails source
    rw [view_of_get hsource] at htail
    exact htail.take state.message_start_index n
  · have hkept := (hget id).trans (if_neg hid)
    exact carries_kept htails (by rw [hkept]) rfl

/-- **A command keeps what the conversations show, or takes their ids.** -/
theorem carries_command (htails : TailsOnly s) {i : PlaneInput} (hi : i.handles = false)
    (id : String) : Carries s (planeStep cfg s i).1 id := by
  cases i with
  | respond handler call configured outcome => cases hi
  | publish handler observed_at source_trace_id => cases hi
  | interrupt handler => cases hi
  | crash => cases hi
  | scan => exact Carries.refl htails id
  | curate run => exact Carries.same htails rfl rfl
  | compress conversation_id agent =>
    obtain ⟨n, hn, hdrops⟩ := @compress_drops cfg.settings cfg.digest s.runtime conversation_id
      agent id
    have hfollows := @compress_follows cfg.settings cfg.digest s.runtime conversation_id agent id
    refine ⟨?_, Or.inr ⟨rfl, fun turn hturn => hturn.follows hfollows⟩⟩
    show TailOnly ((compressConversation cfg.digest cfg.settings s.runtime conversation_id
      agent).1.view id)
    rw [hdrops]
    exact (htails id).drop _ n
  | create conversation_id =>
    refine withStore_carries htails (fun store hsave => ?_) id
    exact carries_taken htails rfl (ConversationStore.get_save hsave)
  | delete conversation_id =>
    refine withStore_carries htails (fun store hdelete => ?_) id
    exact carries_taken htails rfl (ConversationStore.get_delete hdelete)
  | archive conversation_id =>
    refine withStore_carries htails (fun store harchive => ?_) id
    obtain ⟨state, hstate, hget⟩ := ConversationStore.get_archive harchive
    exact carries_marked htails hstate hget rfl
  | unarchive conversation_id =>
    refine withStore_carries htails (fun store hunarchive => ?_) id
    obtain ⟨state, hstate, hget⟩ := ConversationStore.get_unarchive hunarchive
    exact carries_marked htails hstate hget rfl
  | rename old new =>
    exact withStore_carries htails (fun store hrename => carries_renamed htails hrename) id
  | branch source new message_index =>
    refine withStore_carries htails (fun store hstore => ?_) id
    cases hbranch : s.runtime.store.branch source new message_index with
    | error e =>
      rw [hbranch] at hstore
      cases hstore
    | ok r =>
      rw [hbranch] at hstore
      obtain rfl : r.1 = store := Except.ok.inj hstore
      exact carries_branched htails hbranch

/-! ## The turns of one life -/

/-- The ids of the committed turns, in the order of their commits. -/
def ChatPlane.committedIds (cfg : PlaneConfig) (s : ChatPlane) : List String :=
  (s.issued.filter fun t => t.committed).map fun t => observationId cfg.uuid5 t.turn

/-- **The turns of one life keep their ranges apart**: a range is committed once in a life, and
    whatever is read back under it has the same texts. -/
structure PlaneInv (cfg : PlaneConfig) (s : ChatPlane) : Prop where
  inbox : InboxInv cfg s.db s.published
  tails : TailsOnly s
  called : ∀ p ∈ s.publishing, p.2 ∈ s.issued
  accepted : ∀ t ∈ s.published, t ∈ s.issued
  lived : ∀ t ∈ s.issued, t.life ≤ s.lives t.turn.conversation_id
  shown : ∀ t ∈ s.issued, t.life = s.lives t.turn.conversation_id →
    Shows (s.runtime.view t.turn.conversation_id) t.turn
  ranged : ∀ t ∈ s.issued, t.committed = true → t.turn.end_index = t.turn.start_index + 2
  same : ∀ t ∈ s.issued, ∀ t' ∈ s.issued, SameRange t.turn t'.turn → t.life = t'.life →
    chatFragments t.turn = chatFragments t'.turn
  distinct : (s.committedIds cfg).Nodup

theorem planeInv_start : PlaneInv cfg ChatPlane.start where
  inbox := inboxInv_start
  tails := fun _ => tailOnly_nil 0
  called := fun _ h => nomatch h
  accepted := fun _ h => nomatch h
  lived := fun _ h => nomatch h
  shown := fun _ h => nomatch h
  ranged := fun _ h => nomatch h
  same := fun _ h => nomatch h
  distinct := List.nodup_nil

/-- Where no turn is given, it is enough that the conversations carry over. -/
theorem PlaneInv.carried (h : PlaneInv cfg s) (hinbox : InboxInv cfg s'.db s'.published)
    (hcarries : ∀ id, Carries s s' id) (hissued : s'.issued = s.issued)
    (hcalled : ∀ p ∈ s'.publishing, p ∈ s.publishing)
    (haccepted : ∀ t ∈ s'.published, t ∈ s.issued) : PlaneInv cfg s' where
  inbox := hinbox
  tails := fun id => (hcarries id).tail
  called := fun p hp => by
    rw [hissued]
    exact h.called p (hcalled p hp)
  accepted := fun t ht => by
    rw [hissued]
    exact haccepted t ht
  lived := fun t ht => by
    rw [hissued] at ht
    have hlived := h.lived t ht
    rcases (hcarries t.turn.conversation_id).shown with hlt | ⟨hlives, -⟩ <;> omega
  shown := fun t ht hlife => by
    rw [hissued] at ht
    have hlived := h.lived t ht
    rcases (hcarries t.turn.conversation_id).shown with hlt | ⟨hlives, hshown⟩
    · omega
    · exact hshown t.turn (h.shown t ht (hlife.trans hlives))
  ranged := by
    rw [hissued]
    exact h.ranged
  same := by
    rw [hissued]
    exact h.same
  distinct := by
    rw [ChatPlane.committedIds, hissued]
    exact h.distinct

/-! ## The turn of a call -/

/-- **What a call gives**: nothing, or a turn that it reads off its conversation, or the turn that
    it commits. -/
theorem issue_cases (digest : String → String) (s : ChatPlane) (c : RespondCall)
    (configured : Bool) (outcome : ModelOutcome) :
    (¬ Commits digest s.runtime c configured outcome ∧
      (∀ id, (respond digest s.runtime c configured outcome).1.view id = s.runtime.view id) ∧
      (s.issue (respond digest s.runtime c configured outcome).2 = none ∨
        ∃ turn, turn.conversation_id = c.conversation_id ∧
          Reads (s.runtime.view c.conversation_id) turn ∧
          s.issue (respond digest s.runtime c configured outcome).2 =
            some ⟨turn, s.lives c.conversation_id, false⟩)) ∨
    (Commits digest s.runtime c configured outcome ∧ ∃ answer,
      s.issue (respond digest s.runtime c configured outcome).2 =
        some ⟨committedTurn (s.runtime.view c.conversation_id) c answer,
          s.lives c.conversation_id, true⟩ ∧
      ∀ id, (respond digest s.runtime c configured outcome).1.view id =
        if id = c.conversation_id then afterCommit (s.runtime.view id) c answer
        else s.runtime.view id) := by
  rcases respond_issue digest s.runtime c configured outcome with
    ⟨hnot, hviews, ⟨error, herror⟩ | ⟨result, turn, hresult, hreused, hturn, hid, hreads⟩⟩ |
    ⟨hcommits, result, hresult, hreused, hturn, hviews⟩
  · refine Or.inl ⟨hnot, hviews, Or.inl ?_⟩
    simp only [ChatPlane.issue, herror]
  · refine Or.inl ⟨hnot, hviews, Or.inr ⟨turn, hid, hreads, ?_⟩⟩
    simp only [ChatPlane.issue, hresult, hreused, hturn, Option.map_some, hid, Bool.not_true]
  · refine Or.inr ⟨hcommits, result.answer, ?_, hviews⟩
    simp only [ChatPlane.issue, hresult, hreused, hturn, Option.map_some, Bool.not_false]
    rfl

/-- The state after a call that gives a turn. -/
def ChatPlane.gives (s : ChatPlane) (handler : Nat) (runtime : ChatRuntime) (t : Issued) :
    ChatPlane :=
  { s with
    runtime := runtime
    publishing := s.publishing ++ [(handler, t)]
    issued := s.issued ++ [t] }

theorem PlaneInv.gives (h : PlaneInv cfg s) (handler : Nat) {runtime : ChatRuntime} {t : Issued}
    (hcarries : ∀ id, TailOnly (runtime.view id) ∧
      ∀ turn, Shows (s.runtime.view id) turn → Shows (runtime.view id) turn)
    (hlife : t.life = s.lives t.turn.conversation_id)
    (hshows : Shows (runtime.view t.turn.conversation_id) t.turn)
    (hranged : t.committed = true → t.turn.end_index = t.turn.start_index + 2)
    (hsame : ∀ t' ∈ s.issued, SameRange t'.turn t.turn → t'.life = t.life →
      chatFragments t'.turn = chatFragments t.turn)
    (hdistinct : ((s.gives handler runtime t).committedIds cfg).Nodup) :
    PlaneInv cfg (s.gives handler runtime t) where
  inbox := h.inbox
  tails := fun id => (hcarries id).1
  called := fun p hp => by
    rcases List.mem_append.mp hp with hp | hp
    · exact List.mem_append_left _ (h.called p hp)
    · rw [List.mem_singleton.mp hp]
      exact List.mem_append_right _ List.mem_cons_self
  accepted := fun t' ht' => List.mem_append_left _ (h.accepted t' ht')
  lived := fun t' ht' => by
    rcases List.mem_append.mp ht' with ht' | ht'
    · exact h.lived t' ht'
    · rw [List.mem_singleton.mp ht']
      exact hlife.le
  shown := fun t' ht' hlife' => by
    rcases List.mem_append.mp ht' with ht' | ht'
    · exact (hcarries _).2 _ (h.shown t' ht' hlife')
    · rw [List.mem_singleton.mp ht']
      exact hshows
  ranged := fun t' ht' hcommitted => by
    rcases List.mem_append.mp ht' with ht' | ht'
    · exact h.ranged t' ht' hcommitted
    · rw [List.mem_singleton.mp ht'] at hcommitted ⊢
      exact hranged hcommitted
  same := fun t₁ h₁ t₂ h₂ hrange hlives => by
    rcases List.mem_append.mp h₁ with h₁ | h₁ <;> rcases List.mem_append.mp h₂ with h₂ | h₂
    · exact h.same t₁ h₁ t₂ h₂ hrange hlives
    · rw [List.mem_singleton.mp h₂] at hrange hlives ⊢
      exact hsame t₁ h₁ hrange hlives
    · rw [List.mem_singleton.mp h₁] at hrange hlives ⊢
      exact (hsame t₂ h₂ hrange.symm hlives.symm).symm
    · rw [List.mem_singleton.mp h₁, List.mem_singleton.mp h₂]
  distinct := hdistinct

theorem respond_none {handler : Nat} {c : RespondCall} {configured : Bool} {outcome : ModelOutcome}
    (h : s.issue (respond cfg.digest s.runtime c configured outcome).2 = none) :
    (planeStep cfg s (.respond handler c configured outcome)).1 =
      { s with runtime := (respond cfg.digest s.runtime c configured outcome).1 } := by
  simp only [planeStep, h, Option.toList_none, List.map_nil, List.append_nil]

theorem respond_some {handler : Nat} {c : RespondCall} {configured : Bool} {outcome : ModelOutcome}
    {t : Issued} (h : s.issue (respond cfg.digest s.runtime c configured outcome).2 = some t) :
    (planeStep cfg s (.respond handler c configured outcome)).1 =
      s.gives handler (respond cfg.digest s.runtime c configured outcome).1 t := by
  simp only [planeStep, h, Option.toList_some, List.map_cons, List.map_nil, ChatPlane.gives]

theorem committedIds_gives (s : ChatPlane) (handler : Nat) (runtime : ChatRuntime) (t : Issued) :
    (s.gives handler runtime t).committedIds cfg =
      s.committedIds cfg ++ if t.committed = true then [observationId cfg.uuid5 t.turn] else [] := by
  show List.map _ (List.filter _ (s.issued ++ [t])) = _
  rw [List.filter_append, List.map_append]
  cases hcommitted : t.committed with
  | true =>
    rw [List.filter_cons_of_pos hcommitted]
    rfl
  | false =>
    rw [List.filter_cons_of_neg (by simp [hcommitted])]
    rfl

/-! ## Ranges that return -/

/-- The turn that a call commits does not stand where a turn of an earlier life stood. -/
def NewRange (s : ChatPlane) (c : RespondCall) : Prop :=
  ∀ t ∈ s.issued, t.committed = true → t.turn.conversation_id = c.conversation_id →
    t.life ≠ s.lives c.conversation_id →
      t.turn.start_index ≠ (s.runtime.view c.conversation_id).start +
        (promptMessages (s.runtime.view c.conversation_id).items).length

/-- The condition on a step: no turn is committed under the range of one that was committed in an
    earlier life of its conversation id, and none is published under the range of one that was
    published in another life with other texts. -/
def NoRangeReturns (cfg : PlaneConfig) (s : ChatPlane) : PlaneInput → Prop
  | .respond _ c configured outcome =>
    Commits cfg.digest s.runtime c configured outcome → NewRange s c
  | .publish handler _ _ => ∀ p, s.find handler = some p → ∀ t ∈ s.published,
      SameRange t.turn p.2.turn → t.life ≠ p.2.life →
        chatFragments t.turn = chatFragments p.2.turn
  | _ => True

/-- **A committed turn ends behind all earlier ones of its life.** -/
theorem PlaneInv.other_life (h : PlaneInv cfg s) {t : Issued} (ht : t ∈ s.issued) {c : RespondCall}
    {answer : String}
    (hrange : SameRange t.turn (committedTurn (s.runtime.view c.conversation_id) c answer)) :
    t.life ≠ s.lives c.conversation_id := by
  intro hlife
  have hconversation : t.turn.conversation_id = c.conversation_id := hrange.conversation
  have hshown := h.shown t ht (by rw [hconversation]; exact hlife)
  rw [hconversation] at hshown
  have hbehind : t.turn.end_index <
      (committedTurn (s.runtime.view c.conversation_id) c answer).end_index :=
    hshown.ends_before (h.tails _)
  have hstop := hrange.stop
  omega

theorem newRange_iff (h : PlaneInv cfg s) (c : RespondCall) (answer : String) :
    NewRange s c ↔ ∀ t ∈ s.issued, t.committed = true →
      ¬ SameRange t.turn (committedTurn (s.runtime.view c.conversation_id) c answer) := by
  constructor
  · intro hnew t ht hcommitted hrange
    exact hnew t ht hcommitted hrange.conversation (h.other_life ht hrange) hrange.start
  · intro hapart t ht hcommitted hconversation _ hstart
    -- committed turns have two messages
    have hranged := h.ranged t ht hcommitted
    refine hapart t ht hcommitted ⟨hconversation, hstart, ?_⟩
    rw [hranged, hstart]
    rfl

/-- **The ids stay distinct exactly when no committed range returns.** -/
theorem respond_distinct_iff (huuid : Function.Injective cfg.uuid5) (h : PlaneInv cfg s)
    (handler : Nat) (c : RespondCall) (configured : Bool) (outcome : ModelOutcome) :
    ((planeStep cfg s (.respond handler c configured outcome)).1.committedIds cfg).Nodup ↔
      NoRangeReturns cfg s (.respond handler c configured outcome) := by
  rcases issue_cases cfg.digest s c configured outcome with
    ⟨hnot, -, hnone | ⟨turn, -, -, hsome⟩⟩ | ⟨hcommits, answer, hsome, -⟩
  · rw [respond_none hnone]
    exact ⟨fun _ hcommits => absurd hcommits hnot, fun _ => h.distinct⟩
  · rw [respond_some hsome, committedIds_gives]
    refine ⟨fun _ hcommits => absurd hcommits hnot, fun _ => ?_⟩
    rw [if_neg (by simp), List.append_nil]
    exact h.distinct
  · rw [respond_some hsome, committedIds_gives, if_pos rfl, List.nodup_append_comm,
      List.singleton_append, List.nodup_cons]
    have hfresh : (observationId cfg.uuid5
        (committedTurn (s.runtime.view c.conversation_id) c answer) ∉ s.committedIds cfg) ↔
          NewRange s c := by
      rw [newRange_iff h c answer]
      constructor
      · intro hnot t ht hcommitted hrange
        refine hnot (List.mem_map.mpr ⟨t, List.mem_filter.mpr ⟨ht, hcommitted⟩, ?_⟩)
        exact (observationId_eq_iff huuid).mpr hrange
      · intro hapart hmem
        obtain ⟨t, ht, hid⟩ := List.mem_map.mp hmem
        obtain ⟨ht, hcommitted⟩ := List.mem_filter.mp ht
        exact hapart t ht hcommitted ((observationId_eq_iff huuid).mp hid)
    constructor
    · rintro ⟨hnot, -⟩ -
      exact hfresh.mp hnot
    · intro hnew
      exact ⟨hfresh.mpr (hnew hcommits), h.distinct⟩

/-- **A publication is accepted exactly when no published range returns with other texts.** -/
theorem publish_agrees_iff (huuid : Function.Injective cfg.uuid5) (h : PlaneInv cfg s)
    {handler : Nat} {p : Nat × Issued} (hfind : s.find handler = some p) :
    Agrees cfg s.published p.2.turn ↔ ∀ t ∈ s.published, SameRange t.turn p.2.turn →
      t.life ≠ p.2.life → chatFragments t.turn = chatFragments p.2.turn := by
  rw [agrees_iff huuid]
  constructor
  · intro hagrees t ht hrange _
    exact hagrees t ht hrange
  · intro hother t ht hrange
    by_cases hlife : t.life = p.2.life
    · exact h.same t (h.accepted t ht) p.2 (h.called p (find_mem hfind).1) hrange hlife
    · exact hother t ht hrange hlife

/-! ## Every step -/

theorem planeInv_respond (huuid : Function.Injective cfg.uuid5) (h : PlaneInv cfg s)
    (handler : Nat) (c : RespondCall) (configured : Bool) (outcome : ModelOutcome)
    (hok : NoRangeReturns cfg s (.respond handler c configured outcome)) :
    PlaneInv cfg (planeStep cfg s (.respond handler c configured outcome)).1 := by
  have hdistinct := (respond_distinct_iff huuid h handler c configured outcome).mpr hok
  rcases issue_cases cfg.digest s c configured outcome with
    ⟨-, hviews, hnone | ⟨turn, hid, hreads, hsome⟩⟩ | ⟨-, answer, hsome, hviews⟩
  · rw [respond_none hnone]
    exact h.carried h.inbox (fun id => Carries.same h.tails (hviews id) rfl) rfl
      (fun _ hp => hp) h.accepted
  · -- the turn is read off the conversation
    rw [respond_some hsome] at hdistinct ⊢
    have hturn : Shows (s.runtime.view turn.conversation_id) turn := by
      rw [hid]
      exact shows_read hreads
    refine h.gives handler (fun id => ?_) (by rw [hid]) ?_ (fun hcommitted => nomatch hcommitted)
      (fun t ht hrange hlife => ?_) hdistinct
    · rw [hviews id]
      exact ⟨h.tails id, fun _ hshows => hshows⟩
    · rw [hviews]
      exact hturn
    · have hconversation : t.turn.conversation_id = c.conversation_id :=
        hrange.conversation.trans hid
      have hshown := h.shown t ht (by rw [hconversation]; exact hlife)
      rw [hconversation] at hshown
      obtain ⟨huser, hassistant⟩ :=
        hshown.reads_same hreads hrange.start.symm hrange.stop.symm
      show chatFragments t.turn = chatFragments turn
      rw [chatFragments, chatFragments, huser, hassistant]
  · -- the turn is committed
    rw [respond_some hsome] at hdistinct ⊢
    refine h.gives handler (fun id => ?_) rfl ?_ (fun _ => rfl) (fun t ht hrange hlife => ?_)
      hdistinct
    · rw [hviews id]
      split
      · exact ⟨tailOnly_commit _ _ _, fun _ hshows => hshows.commit (h.tails id) c answer⟩
      · exact ⟨h.tails id, fun _ hshows => hshows⟩
    · show Shows ((respond cfg.digest s.runtime c configured outcome).1.view c.conversation_id) _
      rw [hviews c.conversation_id, if_pos rfl]
      exact shows_committed _ c answer
    · exact absurd hlife (h.other_life ht hrange)

/-- **Every step under the condition keeps the ranges of a life apart.** -/
theorem planeInv_step (huuid : Function.Injective cfg.uuid5) (s : ChatPlane) (i : PlaneInput)
    (h : PlaneInv cfg s) (hok : NoRangeReturns cfg s i) : PlaneInv cfg (planeStep cfg s i).1 := by
  have hinbox := (inboxInv_step s i h.inbox).1
  cases hi : i.handles with
  | false =>
    have hquiet : Quiet s (planeStep cfg s i).1 := (quiet_step s hi).1
    refine h.carried hinbox (carries_command h.tails hi) hquiet.issued ?_ ?_
    · rw [hquiet.publishing]
      exact fun _ hp => hp
    · rw [hquiet.published]
      exact h.accepted
  | true =>
    cases i with
    | respond handler c configured outcome =>
      exact planeInv_respond huuid h handler c configured outcome hok
    | interrupt handler =>
      exact h.carried hinbox (fun id => Carries.same h.tails rfl rfl) rfl
        (fun _ hp => mem_of_mem_without hp) h.accepted
    | crash =>
      exact h.carried hinbox (fun id => Carries.same h.tails rfl rfl) rfl (fun _ hp => nomatch hp)
        h.accepted
    | publish handler observed_at source_trace_id =>
      rcases publish_step h.inbox handler observed_at source_trace_id with
        ⟨-, hstep⟩ | ⟨p, hfind, -, o, db', hstep, -⟩ | ⟨p, -, -, hstep⟩
      · rw [hstep]
        exact h
      · rw [hstep] at hinbox ⊢
        refine h.carried hinbox (fun id => Carries.same h.tails rfl rfl) rfl
          (fun _ hp => mem_of_mem_without hp) (fun t ht => ?_)
        rcases List.mem_append.mp ht with ht | ht
        · exact h.accepted t ht
        · rw [List.mem_singleton.mp ht]
          exact h.called p (find_mem hfind).1
      · rw [hstep] at hinbox ⊢
        exact h.carried hinbox (fun id => Carries.same h.tails rfl rfl) rfl
          (fun _ hp => mem_of_mem_without hp) h.accepted
    | _ => cases hi

/-- Committed turns have distinct observation ids, and no publication reports a collision. -/
structure Identified (cfg : PlaneConfig) (e : Step ChatPlane PlaneInput PlaneOutput) : Prop where
  distinct : (e.after.committedIds cfg).Nodup
  accepted : e.output ≠ .published (.error .identityCollision)

/-- **A step identifies its turns exactly under the condition.** -/
theorem identified_iff (huuid : Function.Injective cfg.uuid5)
    (e : Step ChatPlane PlaneInput PlaneOutput) (he : e.Of (planeStep cfg))
    (h : PlaneInv cfg e.before) : Identified cfg e ↔ NoRangeReturns cfg e.before e.input := by
  obtain ⟨s, i, o, s'⟩ := e
  obtain rfl : (planeStep cfg s i).1 = s' := he.after_eq
  obtain rfl : (planeStep cfg s i).2 = o := he.output_eq
  cases hi : i.handles with
  | false =>
    obtain ⟨hquiet, hsilent⟩ : Quiet s (planeStep cfg s i).1 ∧
        ∀ published, (planeStep cfg s i).2 ≠ .published published := quiet_step s hi
    have hsame : (planeStep cfg s i).1.committedIds cfg = s.committedIds cfg := by
      rw [ChatPlane.committedIds, hquiet.issued]
      rfl
    constructor
    · intro _
      cases i <;> trivial
    · intro _
      refine ⟨?_, hsilent _⟩
      show ((planeStep cfg s i).1.committedIds cfg).Nodup
      rw [hsame]
      exact h.distinct
  | true =>
    cases i with
    | respond handler c configured outcome =>
      have hiff := respond_distinct_iff huuid h handler c configured outcome
      exact ⟨fun hgood => hiff.mp hgood.distinct, fun hok => ⟨hiff.mpr hok, fun h => nomatch h⟩⟩
    | interrupt handler => exact ⟨fun _ => trivial, fun _ => ⟨h.distinct, fun h => nomatch h⟩⟩
    | crash => exact ⟨fun _ => trivial, fun _ => ⟨h.distinct, fun h => nomatch h⟩⟩
    | publish handler observed_at source_trace_id =>
      rcases publish_step h.inbox handler observed_at source_trace_id with
        ⟨hnone, hstep⟩ | ⟨p, hfind, hagrees, o, db', hstep, -⟩ | ⟨p, hfind, hnot, hstep⟩
      · rw [hstep]
        refine ⟨fun _ p hfind => ?_, fun _ => ⟨h.distinct, fun h => nomatch h⟩⟩
        rw [hnone] at hfind
        cases hfind
      · rw [hstep]
        refine ⟨fun _ q hq => ?_, fun _ => ⟨h.distinct, fun h => nomatch h⟩⟩
        obtain rfl := Option.some.inj (hfind.symm.trans hq)
        exact (publish_agrees_iff huuid h hfind).mp hagrees
      · rw [hstep]
        constructor
        · intro hgood
          exact absurd rfl hgood.accepted
        · intro hok
          exact absurd ((publish_agrees_iff huuid h hfind).mpr (hok p hfind)) hnot
    | _ => cases hi

/-- **Ids are distinct and publications accepted in a run exactly when no range of an earlier life
    returns.** -/
theorem identity_iff (cfg : PlaneConfig) (huuid : Function.Injective cfg.uuid5)
    (inputs : List PlaneInput) :
    (∀ e ∈ run (planeStep cfg) ChatPlane.start inputs, Identified cfg e) ↔
      ∀ e ∈ run (planeStep cfg) ChatPlane.start inputs, NoRangeReturns cfg e.before e.input :=
  @run_forall_iff _ _ _ _ (PlaneInv cfg) _ _ (planeInv_step huuid) (identified_iff huuid)
    ChatPlane.start inputs planeInv_start

/-! ## Ids that are never taken -/

/-- The commands that take an id from its conversation. -/
def PlaneInput.takesId : PlaneInput → Bool
  | .create _ | .rename .. | .delete _ => true
  | _ => false

theorem lives_of_kept (s : ChatPlane) {i : PlaneInput} (h : i.takesId = false) :
    (planeStep cfg s i).1.lives = s.lives := by
  have hstore : ∀ r : Except StoreError ConversationStore,
      (s.withStore r s.lives).1.lives = s.lives := by
    intro r
    cases r <;> rfl
  cases i with
  | create id => cases h
  | rename old new => cases h
  | delete id => cases h
  | branch source new message_index => exact hstore _
  | archive id => exact hstore _
  | unarchive id => exact hstore _
  | publish handler observed_at source_trace_id =>
    unfold planeStep
    dsimp only
    split
    · rfl
    · split <;> rfl
  | _ => rfl

theorem noRangeReturns_of_first (h : PlaneInv cfg s) (hlives : ∀ id, s.lives id = 0)
    (i : PlaneInput) : NoRangeReturns cfg s i := by
  have hfirst : ∀ t ∈ s.issued, t.life = 0 := by
    intro t ht
    have hlived := h.lived t ht
    rw [hlives] at hlived
    exact Nat.le_zero.mp hlived
  cases i with
  | respond handler c configured outcome =>
    intro _ t ht _ _ hlife
    rw [hlives, hfirst t ht] at hlife
    exact absurd rfl hlife
  | publish handler observed_at source_trace_id =>
    intro p hfind t ht _ hlife
    rw [hfirst t (h.accepted t ht), hfirst p.2 (h.called p (find_mem hfind).1)] at hlife
    exact absurd rfl hlife
  | _ => trivial

/-- **While no id is taken from its conversation no range returns**: chats, branches, archives,
    compressions and crashes are harmless. -/
theorem noRangeReturns_of_kept (huuid : Function.Injective cfg.uuid5) (inputs : List PlaneInput)
    (hkept : ∀ i ∈ inputs, i.takesId = false) :
    ∀ e ∈ run (planeStep cfg) ChatPlane.start inputs, NoRangeReturns cfg e.before e.input := by
  have hstep : ∀ s (i : PlaneInput), PlaneInv cfg s ∧ (∀ id, s.lives id = 0) →
      i.takesId = false →
      PlaneInv cfg (planeStep cfg s i).1 ∧ ∀ id, (planeStep cfg s i).1.lives id = 0 := by
    rintro s i ⟨hinv, hlives⟩ hi
    refine ⟨planeInv_step huuid s i hinv (noRangeReturns_of_first hinv hlives i), fun id => ?_⟩
    rw [lives_of_kept s hi]
    exact hlives id
  intro e he
  have hok : ∀ e ∈ run (planeStep cfg) ChatPlane.start inputs, e.input.takesId = false :=
    fun e he => hkept _ (input_mem _ _ _ e he)
  obtain ⟨⟨hinv, hlives⟩, -⟩ := @run_induct _ _ _ _ _ (fun _ i => i.takesId = false) hstep
    ChatPlane.start inputs ⟨planeInv_start, fun _ => rfl⟩ hok e he
  exact noRangeReturns_of_first hinv hlives e.input

/-! ## One id, two conversations -/

/-- What `sampleUuid5` names. -/
def sampleName (id : String) : String :=
  if id = "b875a1f94d435734bcd6d00a14f9fc7b" then "default:0:2"
  else if id = "3954e984cffb57f5a31f479abc5a0d39" then
    "interaction:b875a1f94d435734bcd6d00a14f9fc7b"
  else if id = "472124be1d2e5e2081a38f5f827af040" then "default:2:4"
  else if id = "e698d4577be559a3a53ed6bca9d86ccb" then
    "interaction:472124be1d2e5e2081a38f5f827af040"
  else dropPrefix "x" id

theorem sampleUuid5_injective : Function.Injective sampleUuid5 := by
  have hx : ∀ name id : String, hasPrefix "x" id = false → "x" ++ name ≠ id := by
    rintro name id hid rfl
    rw [hasPrefix_append] at hid
    cases hid
  have hname : Function.LeftInverse sampleName sampleUuid5 := by
    intro name
    unfold sampleUuid5
    split_ifs with h₁ h₂ h₃ h₄
    · rw [h₁]
      rfl
    · rw [h₂]
      rfl
    · rw [h₃]
      rfl
    · rw [h₄]
      rfl
    · unfold sampleName
      rw [if_neg (hx _ _ (by decide)), if_neg (hx _ _ (by decide)), if_neg (hx _ _ (by decide)),
        if_neg (hx _ _ (by decide)), dropPrefix_append]
  exact hname.injective

/-- A turn on the default conversation, and its publication. -/
def publishedTalk (message answer : String) : List PlaneInput :=
  [.respond 0 { message } true (.answer { answer }), .publish 0 ⟨"now", now_ne⟩ none]

def twoTalks : List PlaneInput := publishedTalk "Hi" "Yes." ++ publishedTalk "More?" "No."

theorem talk_identified :
    (final (planeStep samplePlane) ChatPlane.start twoTalks).published.length = 2 ∧
      ∀ e ∈ run (planeStep samplePlane) ChatPlane.start twoTalks, Identified samplePlane e := by
  refine ⟨by decide +kernel, ?_⟩
  have hkept : ∀ i ∈ twoTalks, i.takesId = false := by decide
  exact (identity_iff samplePlane sampleUuid5_injective twoTalks).mpr
    (noRangeReturns_of_kept sampleUuid5_injective twoTalks hkept)

/-- The conversation is deleted between its two turns. -/
def deletedTalk : List PlaneInput :=
  publishedTalk "Hi" "Yes." ++ [.delete "default"] ++ publishedTalk "More?" "No."

/-- **The second conversation begins where the first one began**: its turn has the id of the old
    one, and the publication reports a collision. -/
theorem deleted_talk_collides :
    (¬ ∀ cfg : PlaneConfig, Function.Injective cfg.uuid5 → ∀ inputs : List PlaneInput,
      ∀ e ∈ run (planeStep cfg) ChatPlane.start inputs, (e.after.committedIds cfg).Nodup) ∧
    ¬ ∀ cfg : PlaneConfig, Function.Injective cfg.uuid5 → ∀ inputs : List PlaneInput,
      ∀ e ∈ run (planeStep cfg) ChatPlane.start inputs,
        e.output ≠ .published (.error .identityCollision) := by
  constructor
  · intro h
    have hrun := h samplePlane sampleUuid5_injective deletedTalk
    simp only [run, deletedTalk, publishedTalk, List.cons_append, List.nil_append,
      List.forall_mem_cons] at hrun
    obtain ⟨-, -, -, hdistinct, -⟩ := hrun
    revert hdistinct
    decide +kernel
  · intro h
    have hrun := h samplePlane sampleUuid5_injective deletedTalk
    simp only [run, deletedTalk, publishedTalk, List.cons_append, List.nil_append,
      List.forall_mem_cons] at hrun
    obtain ⟨-, -, -, -, haccepted, -⟩ := hrun
    exact haccepted rfl

end NuSelf.Daemon
