/-
  The stored messages of a conversation as a log by absolute index.

  `view` reads a stored conversation as the tail of a log: its first message stands at
  `message_start_index`.  An observer remembers what every index of every conversation has shown.
  History is append-only when a committed turn puts its two messages behind all earlier ones and no
  index ever shows another message than the one that is remembered.

  A compression moves messages away in front, a call that does not commit leaves the messages, but
  a committed turn saves the messages of its prompt, and these leave out the replies that report a
  missing model.  So:

  1. `respond_issue`, `compress_drops` — what a step does to the views;
  2. `appendOnly_iff` — a step is append-only exactly when no committed turn finds such a reply;
  3. `history_iff` — so is a run.
-/
import NuSelf.Chat.Respond
import NuSelf.Lib.Log
import NuSelf.Lib.Run

namespace NuSelf.Chat

open NuSelf.Lib NuSelf.Conversation

variable {digest : String → String} {s s' : ChatRuntime} {c : RespondCall} {configured : Bool}
  {outcome : ModelOutcome} {settings : ChatAgentSettings}

/-! ## Views -/

/-- The stored messages, each under its absolute index. -/
def view (state : ConversationState) : LogView ConversationMessage where
  start := state.message_start_index
  items := state.messages

/-- The view of a conversation of the store. -/
def ChatRuntime.view (s : ChatRuntime) (conversation_id : String) : LogView ConversationMessage :=
  Chat.view (s.store.stateOf conversation_id)

@[simp]
theorem view_finishTurnAttempt (state : ConversationState) (turn_id : Option String) :
    view (state.finishTurnAttempt turn_id) = view state := by
  cases turn_id <;> rfl

theorem beginState_view {state state' : ConversationState}
    {turn : Option ConversationStore.TurnAttempt} {resume : Bool}
    (h : ConversationStore.beginState digest state turn resume = .ok state') :
    view state' = view state := by
  unfold ConversationStore.beginState at h
  split at h
  · cases h; rfl
  · split at h
    · cases h; rfl
    · unfold ConversationStore.beginTurnAttempt at h
      split at h
      · split at h
        · cases h
        · split at h
          · cases h; rfl
          · cases h
      · cases h; rfl

theorem beginUpdate_view {store store' : ConversationStore} {id : String}
    {turn : Option ConversationStore.TurnAttempt} {resume : Bool}
    {ticket : ConversationStore.Ticket}
    (h : store.beginUpdate digest id turn resume = .ok (store', ticket)) :
    view ticket.state = view (store.stateOf id) ∧ ticket.state.conversation_id = id ∧
      ∀ other, view (store'.stateOf other) = view (store.stateOf other) := by
  obtain ⟨-, hstate, hstore, hother, -⟩ := ConversationStore.beginUpdate_spec h
  have hview := beginState_view hstate
  refine ⟨hview, ?_, fun other => ?_⟩
  · rw [← hstore, store'.stateOf_conversation_id]
  · by_cases hid : other = id
    · rw [hid, hstore, hview]
    · rw [ConversationStore.stateOf, ConversationStore.stateOf, hother other hid]

/-! ## Dropped replies -/

/-- A reply that reports a missing model. -/
def saysNotConfigured (m : ConversationMessage) : Bool :=
  decide (m.role = .assistant) && hasPrefix "LLM API is not configured yet." m.content

theorem promptMessages_eq_self {messages : List ConversationMessage} :
    promptMessages messages = messages ↔ ∀ m ∈ messages, saysNotConfigured m = false := by
  have hfilter : promptMessages messages = messages.filter fun m => !saysNotConfigured m := rfl
  rw [hfilter, List.filter_eq_self]
  simp

/-- The state before a call lets it through to the commit of its reply: its ids and its turn are
    accepted, the turn has no stored result, and the response step gives an output. -/
def Commits (digest : String → String) (s : ChatRuntime) (c : RespondCall) (configured : Bool)
    (outcome : ModelOutcome) : Prop :=
  blank c.conversation_id = false ∧ ∃ attempt store ticket output, c.attempt = .ok attempt ∧
    s.store.beginUpdate digest c.conversation_id attempt c.effect_resolution.isSome =
      .ok (store, ticket) ∧
    completedTurnResult ticket.state c.message c.conversation_id c.turn_id = .ok none ∧
    (complete configured s.continuations c outcome).result = .ok output

theorem respond_of_commits (h : Commits digest s c configured outcome) :
    ∃ result, (respond digest s c configured outcome).2.result = .ok result ∧
      (respond digest s c configured outcome).2.reused = false := by
  obtain ⟨hcontext, attempt, store, ticket, output, hattempt, hbegin, hcompleted, hdone⟩ := h
  obtain ⟨-, -, -, -, hid, -, horiginal⟩ := ConversationStore.beginUpdate_spec hbegin
  have hcid := (beginUpdate_view hbegin).2.1
  have hcommit : store.commitUpdate ticket (turnState ticket.state c output.answer) = .ok _ :=
    ConversationStore.commitUpdate_ok (hcid.trans hid.symm) (by rw [hid, horiginal])
  refine ⟨turnResult (turnState ticket.state c output.answer) c output, ?_, ?_⟩
  · simp only [respond, hcontext, hattempt, hbegin, hcompleted, hdone, hcommit]
    rfl
  · simp only [respond, hcontext, hattempt, hbegin, hcompleted, hdone, hcommit]
    rfl

/-! ## What a step does to the views -/

/-- The messages of a turn. -/
def turnMessages (c : RespondCall) (answer : String) : List ConversationMessage :=
  [{ role := .user, content := c.message, turn_id := c.turn_id },
    { role := .assistant, content := answer, turn_id := c.turn_id }]

/-- Where a turn stands that is committed behind the messages of the prompt. -/
def committedTurn (v : LogView ConversationMessage) (c : RespondCall) (answer : String) :
    CompletedTurn where
  conversation_id := c.conversation_id
  start_index := v.start + (promptMessages v.items).length
  end_index := v.start + (promptMessages v.items).length + 2
  user_content := c.message
  assistant_content := answer
  turn_id := c.turn_id

/-- The turn is read off a question and a reply of the view. -/
structure Reads (v : LogView ConversationMessage) (turn : CompletedTurn) : Prop where
  question : ∃ i m, turn.start_index = v.start + i ∧ v.items[i]? = some m ∧ m.role = .user ∧
    m.content = turn.user_content
  reply : ∃ j m, turn.end_index = v.start + j + 1 ∧ v.items[j]? = some m ∧ m.role = .assistant ∧
    m.content = turn.assistant_content

theorem completedTurnResult_reads {state : ConversationState} {message conversation_id : String}
    {turn_id : Option String} {completed : ChatResult}
    (h : completedTurnResult state message conversation_id turn_id = .ok (some completed)) :
    ∃ turn, completed.completed_turn = some turn ∧ turn.conversation_id = conversation_id ∧
      Reads (view state) turn := by
  have hindex : ∀ {m : ConversationMessage} {t : String} {role : ConversationRole},
      state.messages.reverse.find? (ConversationMessage.isOf t role) = some m →
        state.messages[state.messages.idxOf m]? = some m ∧ m.role = role := by
    intro m t role hfind
    have hmem : m ∈ state.messages := List.mem_reverse.mp (List.mem_of_find?_eq_some hfind)
    have hrole := (ConversationMessage.isOf_iff.mp (List.find?_some hfind)).2
    exact ⟨List.getElem?_idxOf hmem, hrole⟩
  unfold completedTurnResult at h
  cases turn_id with
  | none => cases h
  | some t =>
    dsimp only at h
    split at h
    · cases h
    · split at h
      · cases h
      · rename_i reply hreply
        split at h
        · cases h
        · rename_i question hquestion
          split at h
          · obtain rfl := Option.some.inj (Except.ok.inj h)
            obtain ⟨hq, hqrole⟩ := hindex hquestion
            obtain ⟨hr, hrrole⟩ := hindex hreply
            exact ⟨_, rfl, rfl, ⟨_, question, rfl, hq, hqrole, rfl⟩,
              ⟨_, reply, rfl, hr, hrrole, rfl⟩⟩
          · cases h

theorem turnResult_turn (state : ConversationState) (c : RespondCall)
    (output : ChatStructuredOutput) :
    (turnResult (turnState state c output.answer) c output).completed_turn =
      some (committedTurn (view state) c output.answer) := by
  have hnext : (turnState state c output.answer).next_message_index =
      state.message_start_index + (promptMessages state.messages).length + 2 := by
    show state.message_start_index + (promptMessages state.messages ++ _).length = _
    rw [List.length_append]
    rfl
  simp only [turnResult, hnext, committedTurn, view, Nat.add_sub_cancel]

/-- **What a call gives and does to the views**: an error, or a turn that it reads off the stored
    messages, and no view changes; or the reply is committed behind the messages of the prompt. -/
theorem respond_issue (digest : String → String) (s : ChatRuntime) (c : RespondCall)
    (configured : Bool) (outcome : ModelOutcome) :
    (¬ Commits digest s c configured outcome ∧
      (∀ id, (respond digest s c configured outcome).1.view id = s.view id) ∧
      ((∃ error, (respond digest s c configured outcome).2.result = .error error) ∨
        ∃ result turn, (respond digest s c configured outcome).2.result = .ok result ∧
          (respond digest s c configured outcome).2.reused = true ∧
          result.completed_turn = some turn ∧ turn.conversation_id = c.conversation_id ∧
          Reads (s.view c.conversation_id) turn)) ∨
    (Commits digest s c configured outcome ∧ ∃ result,
      (respond digest s c configured outcome).2.result = .ok result ∧
      (respond digest s c configured outcome).2.reused = false ∧
      result.completed_turn =
        some (committedTurn (s.view c.conversation_id) c result.answer) ∧
      ∀ id, (respond digest s c configured outcome).1.view id =
        if id = c.conversation_id then
          ⟨(s.view id).start, promptMessages (s.view id).items ++ turnMessages c result.answer⟩
        else s.view id) := by
  have hcases := respond_cases digest s c configured outcome
  have hcommits := @respond_of_commits digest s c configured outcome
  revert hcases hcommits
  generalize respond digest s c configured outcome = r
  obtain ⟨s', o⟩ := r
  intro hcases hcommits
  cases hcases with
  | refused hrefusal =>
    refine Or.inl ⟨fun h => ?_, fun _ => rfl, Or.inl ⟨_, rfl⟩⟩
    obtain ⟨_, h, -⟩ := hcommits h
    cases h
  | @replayed attempt store ticket completed hcontext hattempt hbegin hcompleted =>
    obtain ⟨hview, hcid, hother⟩ := beginUpdate_view hbegin
    obtain ⟨turn, hturn, hid, hreads⟩ := completedTurnResult_reads hcompleted
    rw [hview] at hreads
    refine Or.inl ⟨fun h => ?_, fun id => ?_, Or.inr ⟨_, turn, rfl, rfl, hturn, hid, hreads⟩⟩
    · obtain ⟨_, -, h⟩ := hcommits h
      cases h
    · show view (ConversationStore.stateOf _ id) = _
      rw [ConversationStore.stateOf_put, ConversationState.finishTurnAttempt_conversation_id, hcid]
      by_cases hid : id = c.conversation_id
      · rw [if_pos hid, view_finishTurnAttempt, hview, hid]
        rfl
      · rw [if_neg hid, hother]
        rfl
  | failed hcontext hattempt hbegin hcompleted hdone =>
    obtain ⟨-, -, hother⟩ := beginUpdate_view hbegin
    refine Or.inl ⟨fun h => ?_, fun id => hother id, Or.inl ⟨_, rfl⟩⟩
    obtain ⟨_, h, -⟩ := hcommits h
    cases h
  | @committed attempt store ticket output hcontext hattempt hbegin hcompleted hdone =>
    obtain ⟨hview, hcid, hother⟩ := beginUpdate_view hbegin
    have hstart : ticket.state.message_start_index = (s.view c.conversation_id).start :=
      congrArg LogView.start hview
    have hitems : ticket.state.messages = (s.view c.conversation_id).items :=
      congrArg LogView.items hview
    refine Or.inr ⟨⟨hcontext, attempt, store, ticket, output, hattempt, hbegin, hcompleted, hdone⟩,
      _, rfl, rfl, ?_, fun id => ?_⟩
    · rw [turnResult_turn, hview]
      rfl
    · show view (ConversationStore.stateOf _ id) = _
      rw [ConversationStore.stateOf_put, ConversationState.finishTurnAttempt_conversation_id]
      show view (if id = ticket.state.conversation_id then _ else _) = _
      rw [hcid]
      by_cases hid : id = c.conversation_id
      · rw [if_pos hid, if_pos hid, view_finishTurnAttempt, hid, ← hstart, ← hitems]
        rfl
      · rw [if_neg hid, if_neg hid, hother]
        rfl

/-- **What a call does to the views**: none changes, or the reply is committed behind the messages
    of the prompt. -/
theorem respond_views (digest : String → String) (s : ChatRuntime) (c : RespondCall)
    (configured : Bool) (outcome : ModelOutcome) :
    (¬ Commits digest s c configured outcome ∧
      (∀ id, (respond digest s c configured outcome).1.view id = s.view id) ∧
      ∀ result, (respond digest s c configured outcome).2.result = .ok result →
        (respond digest s c configured outcome).2.reused = true) ∨
    (Commits digest s c configured outcome ∧ ∃ result,
      (respond digest s c configured outcome).2.result = .ok result ∧
      (respond digest s c configured outcome).2.reused = false ∧
      ∀ id, (respond digest s c configured outcome).1.view id =
        if id = c.conversation_id then
          ⟨(s.view id).start, promptMessages (s.view id).items ++ turnMessages c result.answer⟩
        else s.view id) := by
  rcases respond_issue digest s c configured outcome with ⟨hnot, hviews, hresult⟩ | hcommitted
  · refine Or.inl ⟨hnot, hviews, fun result hok => ?_⟩
    rcases hresult with ⟨error, herror⟩ | ⟨_, _, _, hreused, -⟩
    · rw [herror] at hok
      cases hok
    · exact hreused
  · obtain ⟨hcommits, result, hresult, hreused, -, hviews⟩ := hcommitted
    exact Or.inr ⟨hcommits, result, hresult, hreused, hviews⟩

theorem compressState_drops (agent : Option (Except String String)) (state : ConversationState) :
    ∃ n ≤ state.messages.length - settings.recent_messages,
      view (compressState settings agent state) =
        ⟨state.message_start_index + n, state.messages.drop n⟩ := by
  unfold compressState
  split
  · exact ⟨0, Nat.zero_le _, rfl⟩
  · have hstart : state.next_message_index -
        (state.messages.drop (state.messages.length - settings.recent_messages)).length =
        state.message_start_index + (state.messages.length - settings.recent_messages) := by
      have hindexes := state.indexes
      rw [List.length_drop]
      omega
    exact ⟨_, Nat.le_refl _, by rw [← hstart]; rfl⟩

theorem compress_drops (digest : String → String) (s : ChatRuntime) (conversation_id : String)
    (agent : Option (Except String String)) (id : String) :
    ∃ n ≤ (s.view id).items.length - settings.recent_messages,
      (compressConversation digest settings s conversation_id agent).1.view id =
        ⟨(s.view id).start + n, (s.view id).items.drop n⟩ := by
  have hsame : ∃ n ≤ (s.view id).items.length - settings.recent_messages,
      s.view id = ⟨(s.view id).start + n, (s.view id).items.drop n⟩ := ⟨0, Nat.zero_le _, rfl⟩
  unfold compressConversation
  cases hbegin : s.store.beginUpdate digest conversation_id none false with
  | error error => exact hsame
  | ok r =>
    obtain ⟨store, ticket⟩ := r
    obtain ⟨-, -, -, -, hid, hturn, horiginal⟩ := ConversationStore.beginUpdate_spec hbegin
    obtain ⟨hview, hcid, hother⟩ := beginUpdate_view hbegin
    have hcompressed : (compressState settings agent ticket.state).conversation_id =
        conversation_id := by
      rw [← hcid]
      unfold compressState
      split <;> rfl
    dsimp only
    rw [ConversationStore.commitUpdate_ok (hcompressed.trans hid.symm) (by rw [hid, horiginal])]
    show ∃ n ≤ _, view (ConversationStore.stateOf _ id) = _
    rw [ConversationStore.stateOf_put, ConversationState.finishTurnAttempt_conversation_id,
      hcompressed]
    by_cases hne : id = conversation_id
    · obtain ⟨n, hn, hdrops⟩ := @compressState_drops settings agent ticket.state
      have hstart : ticket.state.message_start_index = (s.view id).start := by
        rw [hne]
        exact congrArg LogView.start hview
      have hitems : ticket.state.messages = (s.view id).items := by
        rw [hne]
        exact congrArg LogView.items hview
      rw [hitems] at hn hdrops
      rw [hstart] at hdrops
      rw [if_pos hne, view_finishTurnAttempt]
      exact ⟨n, hn, hdrops⟩
    · rw [if_neg hne, hother]
      exact hsame

theorem compress_follows (digest : String → String) (s : ChatRuntime) (conversation_id : String)
    (agent : Option (Except String String)) (id : String) :
    (s.view id).Follows
      ((compressConversation digest settings s conversation_id agent).1.view id) := by
  obtain ⟨n, hn, hdrops⟩ := @compress_drops settings digest s conversation_id agent id
  rw [hdrops]
  exact LogView.Follows.advance (Nat.le_trans hn (Nat.sub_le _ _))

/-! ## Append-only -/

/-- What every index of every conversation has shown. -/
abbrev Histories := String → LogView.Memory ConversationMessage

def ChatRuntime.histories (s : ChatRuntime) : Histories := fun id => (s.view id).at?

def seeHistory (seen : Histories) (e : Step ChatRuntime ChatInput ChatOutput) : Histories :=
  fun id => LogView.remember (seen id) (e.after.view id)

/-- The runtime with the memory of what its indexes have shown. -/
def historyStep (digest : String → String) (settings : ChatAgentSettings) :
    ChatRuntime × Histories → ChatInput → (ChatRuntime × Histories) × ChatOutput :=
  watched (chatStep digest settings) seeHistory

/-- A committed turn puts its two messages behind the stored ones, and no index shows another
    message than before. -/
structure AppendOnly (e : Step (ChatRuntime × Histories) ChatInput ChatOutput) : Prop where
  appended : ∀ c configured outcome o result, e.input = .respond c configured outcome →
    e.output = .responded o → o.result = .ok result → o.reused = false →
      e.after.1.view c.conversation_id =
        { e.before.1.view c.conversation_id with
          items := (e.before.1.view c.conversation_id).items ++ turnMessages c result.answer }
  stable : ∀ id i m m', e.before.2 id i = some m → (e.after.1.view id).at? i = some m' → m' = m

/-- The condition on a step: a turn that reaches its commit finds no reply that reports a missing
    model among the stored messages of its conversation. -/
def HistoryKept (digest : String → String) (s : ChatRuntime × Histories) : ChatInput → Prop
  | .respond c configured outcome => Commits digest s.1 c configured outcome →
      ∀ m ∈ (s.1.view c.conversation_id).items, saysNotConfigured m = false
  | .compress _ _ => True

/-- The memory is up to date with every conversation. -/
def HistoryInv (s : ChatRuntime × Histories) : Prop :=
  ∀ id, LogView.UpToDate (s.2 id) (s.1.view id)

/-- **A step under the condition only moves messages away in front and appends at the end.** -/
theorem step_follows (s : ChatRuntime × Histories) (i : ChatInput) (hok : HistoryKept digest s i)
    (id : String) : (s.1.view id).Follows ((chatStep digest settings s.1 i).1.view id) := by
  cases i with
  | compress conversation_id agent => exact compress_follows digest s.1 conversation_id agent id
  | respond c configured outcome =>
    show (s.1.view id).Follows ((respond digest s.1 c configured outcome).1.view id)
    rcases respond_views digest s.1 c configured outcome with ⟨-, hsame, -⟩ | ⟨hcommits, hviews⟩
    · rw [hsame id]
      exact LogView.Follows.refl _
    · obtain ⟨result, -, -, hview⟩ := hviews
      rw [hview id]
      by_cases hid : id = c.conversation_id
      · have hkept := promptMessages_eq_self.mpr (hok hcommits)
        rw [if_pos hid, hid, hkept]
        exact LogView.Follows.extend _ _
      · rw [if_neg hid]
        exact LogView.Follows.refl _

theorem historyInv_step (s : ChatRuntime × Histories) (i : ChatInput) (hinv : HistoryInv s)
    (hok : HistoryKept digest s i) : HistoryInv (historyStep digest settings s i).1 :=
  fun id => (step_follows s i hok id).upToDate (hinv id)

/-- **A step is append-only exactly under the condition.** -/
theorem appendOnly_iff (e : Step (ChatRuntime × Histories) ChatInput ChatOutput)
    (he : e.Of (historyStep digest settings)) (hinv : HistoryInv e.before) :
    AppendOnly e ↔ HistoryKept digest e.before e.input := by
  obtain ⟨s, i, o, s'⟩ := e
  obtain rfl : (historyStep digest settings s i).1 = s' := he.after_eq
  obtain rfl : (historyStep digest settings s i).2 = o := he.output_eq
  constructor
  · intro hgood
    cases i with
    | compress conversation_id agent => trivial
    | respond c configured outcome =>
      intro hcommits
      rcases respond_views digest s.1 c configured outcome with ⟨hnot, -⟩ | ⟨-, hviews⟩
      · exact absurd hcommits hnot
      · obtain ⟨result, hresult, hreused, hview⟩ := hviews
        have happended := hgood.appended c configured outcome _ result rfl rfl hresult hreused
        have hitems : promptMessages (s.1.view c.conversation_id).items ++
            turnMessages c result.answer =
            (s.1.view c.conversation_id).items ++ turnMessages c result.answer := by
          have hboth := (hview c.conversation_id).symm.trans happended
          rw [if_pos rfl] at hboth
          exact congrArg LogView.items hboth
        exact promptMessages_eq_self.mp (List.append_cancel_right hitems)
  · intro hok
    refine ⟨?_, fun id i' m m' hseen hshown => ?_⟩
    · rintro c configured outcome o result hi ho hresult hreused
      cases i with
      | compress conversation_id agent => cases hi
      | respond c' configured' outcome' =>
        cases hi
        cases ho
        rcases respond_views digest s.1 c configured outcome with
          ⟨-, -, hreplay⟩ | ⟨hcommits, hviews⟩
        · have hreplayed := hreplay result hresult
          rw [hreused] at hreplayed
          cases hreplayed
        · obtain ⟨result', hresult', -, hview⟩ := hviews
          cases hresult'.symm.trans hresult
          have hcommitted := hview c.conversation_id
          rw [if_pos rfl, promptMessages_eq_self.mpr (hok hcommits)] at hcommitted
          exact hcommitted
    · exact (step_follows s i hok id).agrees (hinv id) hseen hshown

/-- **Conversation history is append-only in a run exactly when no committed turn finds a reply
    that reports a missing model.** -/
theorem history_iff (digest : String → String) (settings : ChatAgentSettings) (s : ChatRuntime)
    (inputs : List ChatInput) :
    (∀ e ∈ run (historyStep digest settings) (s, s.histories) inputs, AppendOnly e) ↔
      ∀ e ∈ run (historyStep digest settings) (s, s.histories) inputs,
        HistoryKept digest e.before e.input :=
  @run_forall_iff _ _ _ _ HistoryInv _ _ historyInv_step appendOnly_iff (s, s.histories) inputs
    fun _ => LogView.upToDate_self _

/-! ## A reply without a model -/

def historyWindow : ChatAgentSettings where
  recent_messages := 12
  summary_trigger_messages := 24
  summary_target_chars := 4000
  recent_pos := Nat.succ_pos _

/-- The first turn finds no model, the second one does. -/
def modelArrives : List ChatInput :=
  [.respond { message := "Are you there?" } false (.failed ""),
    .respond { message := "And now?" } true (.answer { answer := "Yes." })]

theorem history_shifts :
    ¬ ∀ (digest : String → String) (settings : ChatAgentSettings) (s : ChatRuntime)
      (inputs : List ChatInput),
      ∀ e ∈ run (historyStep digest settings) (s, s.histories) inputs, AppendOnly e := by
  intro h
  have hrun := h id historyWindow ChatRuntime.empty modelArrives
  simp only [run, modelArrives, List.forall_mem_cons] at hrun
  obtain ⟨-, ⟨happended, -⟩, -⟩ := hrun
  have hview := happended _ _ _ _ _ rfl rfl rfl rfl
  -- three messages instead of four
  have hlength := congrArg (fun v => v.items.length) hview
  revert hlength
  decide +kernel

end NuSelf.Chat
