/-
  What compression keeps of a conversation, and when it does.

  Compression starts where there are more messages than the trigger, and moves all but the recent
  ones into the summary.  Where the recent window is wider than the trigger it also starts where
  nothing is to be moved: the summary is rewritten from itself alone, and so it is every time again.

  1. `compressState_keeps` — the messages are a suffix, the indexes follow, the rest stays.
  2. `compressState_again` — a window within the trigger leaves nothing to do.
  3. `compress_keeps_tail_iff` — exactly when a compression is what it should be.
-/
import NuSelf.Chat.Engine

namespace NuSelf.Chat

open NuSelf.Lib NuSelf.Conversation

/-- `ChatContextConfig`, with the bounds of its fields. -/
structure ChatContextConfig where
  recent_messages : Nat := 12
  summary_trigger_messages : Nat := 18
  summary_target_chars : Nat := 2400
  recent_ge : 1 ≤ recent_messages := by decide
  trigger_ge : 3 ≤ summary_trigger_messages := by decide
  target_ge : 100 ≤ summary_target_chars := by decide

/-- The settings of the runtime. -/
def ChatContextConfig.settings (config : ChatContextConfig) : ChatAgentSettings where
  recent_messages := config.recent_messages
  summary_trigger_messages := config.summary_trigger_messages
  summary_target_chars := config.summary_target_chars
  recent_pos := config.recent_ge

section

variable {settings : ChatAgentSettings} {agent : Option (Except String String)}
  {state : ConversationState}

/-! ## What always holds -/

theorem compressState_of_le (h : state.messages.length ≤ settings.summary_trigger_messages) :
    compressState settings agent state = state := if_pos h

theorem compressState_messages (h : ¬ state.messages.length ≤ settings.summary_trigger_messages) :
    (compressState settings agent state).messages =
      state.messages.drop (state.messages.length - settings.recent_messages) := by
  rw [compressState, if_neg h]

theorem compressState_summary (h : ¬ state.messages.length ≤ settings.summary_trigger_messages) :
    (compressState settings agent state).summary =
      summarize settings agent state.summary
        (state.messages.take (state.messages.length - settings.recent_messages)) := by
  rw [compressState, if_neg h]

/-- What a compression keeps, whatever the summary. -/
structure Keeps (state next : ConversationState) : Prop where
  conversation_id : next.conversation_id = state.conversation_id
  messages : next.messages <:+ state.messages
  message_start_index : next.message_start_index =
    state.message_start_index + (state.messages.length - next.messages.length)
  next_message_index : next.next_message_index = state.next_message_index
  archived : next.archived = state.archived
  pending_turns : next.pending_turns = state.pending_turns

theorem compressState_keeps (settings : ChatAgentSettings) (agent : Option (Except String String))
    (state : ConversationState) : Keeps state (compressState settings agent state) := by
  by_cases hle : state.messages.length ≤ settings.summary_trigger_messages
  · rw [compressState_of_le hle]
    exact ⟨rfl, List.suffix_rfl, by rw [Nat.sub_self, Nat.add_zero], rfl, rfl, rfl⟩
  · have hindexes := state.indexes
    have hmessages : (compressState settings agent state).messages = _ := compressState_messages hle
    refine ⟨?_, ?_, ?_, ?_, ?_, ?_⟩
    · rw [compressState, if_neg hle]
    · rw [hmessages]
      exact List.drop_suffix _ _
    · rw [hmessages, compressState, if_neg hle]
      show state.next_message_index - _ = _
      rw [List.length_drop]
      omega
    · rw [compressState, if_neg hle]
    · rw [compressState, if_neg hle]
    · rw [compressState, if_neg hle]

/-! ## Summaries -/

theorem summarize_length (settings : ChatAgentSettings) (agent : Option (Except String String))
    (previous_summary : String) (messages : List ConversationMessage) :
    (summarize settings agent previous_summary messages).toList.length ≤
      settings.summary_target_chars := by
  show (String.ofList (List.take _ _)).toList.length ≤ _
  rw [String.toList_ofList]
  exact List.length_take_le _ _

theorem localSummary_nil (previous_summary : String) (target_chars : Nat) :
    localSummary previous_summary "" target_chars =
      String.ofList (previous_summary.toList.drop
        (previous_summary.toList.length - target_chars)) := by
  rw [localSummary]
  by_cases hempty : previous_summary = ""
  · subst hempty
    rfl
  · have hparts : [previous_summary, ""].filter (fun part => part ≠ "") = [previous_summary] := by
      rw [List.filter_cons_of_pos (by simpa using hempty)]
      rfl
    have hjoined : "\n\n".intercalate [previous_summary] = previous_summary := rfl
    simp only [hparts, hjoined]

theorem summarize_local (settings : ChatAgentSettings) (previous_summary : String) :
    summarize settings none previous_summary [] =
      String.ofList (previous_summary.toList.drop
        (previous_summary.toList.length - settings.summary_target_chars)) := by
  have hfallback := localSummary_nil previous_summary settings.summary_target_chars
  show String.ofList ((localSummary previous_summary "" _).toList.take _) = _
  rw [hfallback, String.toList_ofList, List.take_of_length_le]
  rw [List.length_drop]
  omega

/-- **Without a model** and without messages, a summary stays exactly if it is short enough. -/
theorem summarize_local_iff (settings : ChatAgentSettings) (previous_summary : String) :
    summarize settings none previous_summary [] = previous_summary ↔
      previous_summary.toList.length ≤ settings.summary_target_chars := by
  rw [summarize_local]
  constructor
  · intro h
    have hlength := congrArg (fun s => s.toList.length) h
    simp only [String.toList_ofList, List.length_drop] at hlength
    omega
  · intro h
    rw [Nat.sub_eq_zero_of_le h, List.drop_zero, String.ofList_toList]

theorem summarize_answer (hpos : 0 < settings.summary_target_chars) {c : Char}
    (hc : isSpace c = false) (previous_summary : String) (messages : List ConversationMessage) :
    summarize settings (some (.ok (String.singleton c))) previous_summary messages =
      String.singleton c := by
  have hvisible : blank (String.singleton c) = false := by
    simp [blank, hc]
  simp only [summarize, hvisible, Bool.false_eq_true, if_false]
  rw [List.take_of_length_le]
  · exact String.ofList_toList
  · rw [String.toList_singleton]
    exact hpos

/-! ## Once and again -/

theorem compressState_of_window (htrigger : settings.summary_trigger_messages < state.messages.length)
    (hwindow : state.messages.length ≤ settings.recent_messages) :
    compressState settings agent state =
      { state with summary := summarize settings agent state.summary [] } := by
  have hcut : state.messages.length - settings.recent_messages = 0 := Nat.sub_eq_zero_of_le hwindow
  have hindexes := state.indexes
  obtain ⟨conversation_id, summary, messages, start, next, archived, pending, hidx, hunique⟩ := state
  simp only at hcut htrigger hindexes
  rw [compressState, if_neg (Nat.not_le.mpr htrigger)]
  simp only [hcut, List.take_zero, List.drop_zero, ConversationState.mk.injEq, true_and, and_true]
  omega

/-- **A window within the trigger** leaves nothing to do. -/
theorem compressState_again (hwindow : settings.recent_messages ≤ settings.summary_trigger_messages)
    (agent' : Option (Except String String)) :
    compressState settings agent' (compressState settings agent state) =
      compressState settings agent state := by
  refine compressState_of_le ?_
  by_cases hle : state.messages.length ≤ settings.summary_trigger_messages
  · rw [compressState_of_le hle]
    exact hle
  · rw [compressState_messages hle, List.length_drop]
    omega

/-- What a compression leaves, with as many messages as the window has at most. -/
theorem compressState_length (htrigger : settings.summary_trigger_messages < state.messages.length) :
    (compressState settings agent state).messages.length =
      min settings.recent_messages state.messages.length := by
  rw [compressState_messages (Nat.not_le.mpr htrigger), List.length_drop]
  omega

/-- Without a model a short summary survives a compression that moves nothing. -/
theorem compressState_local (hwindow : state.messages.length ≤ settings.recent_messages)
    (hshort : state.summary.toList.length ≤ settings.summary_target_chars) :
    compressState settings none state = state := by
  by_cases hle : state.messages.length ≤ settings.summary_trigger_messages
  · exact compressState_of_le hle
  · rw [compressState_of_window (Nat.not_le.mp hle) hwindow, (summarize_local_iff _ _).mpr hshort]

end

/-! ## Exactly when -/

/-- A compression, and another one behind it with any result of the model. -/
structure KeepsTail (settings : ChatAgentSettings) (agent : Option (Except String String))
    (state : ConversationState) : Prop where
  keeps : Keeps state (compressState settings agent state)
  summary : (compressState settings agent state).summary ≠ state.summary →
    (compressState settings agent state).messages.length < state.messages.length
  again : ∀ agent' : Option (Except String String), agent'.isSome = agent.isSome →
    compressState settings agent' (compressState settings agent state) =
      compressState settings agent state

section

variable {settings : ChatAgentSettings} {state : ConversationState}

/-- With a model, a window wider than the trigger shows in what the model answers. -/
theorem not_again (hpos : 0 < settings.summary_target_chars)
    (hwindow : settings.summary_trigger_messages < settings.recent_messages)
    (htrigger : settings.summary_trigger_messages < state.messages.length)
    (answer : Except String String) : ¬ KeepsTail settings (some answer) state := by
  intro h
  obtain ⟨next, hnext⟩ : ∃ next, next = compressState settings (some answer) state := ⟨_, rfl⟩
  have hlength : next.messages.length = min settings.recent_messages state.messages.length := by
    rw [hnext]
    exact compressState_length htrigger
  have hlong : settings.summary_trigger_messages < next.messages.length := by
    rw [hlength]
    exact Nat.lt_min.mpr ⟨hwindow, htrigger⟩
  have hsmall : next.messages.length ≤ settings.recent_messages := by
    rw [hlength]
    exact Nat.min_le_left _ _
  have hsummary : ∀ c : Char, isSpace c = false → String.singleton c = next.summary := by
    intro c hc
    have hagain := congrArg ConversationState.summary (h.again (some (.ok (String.singleton c))) rfl)
    rw [← hnext, compressState_of_window hlong hsmall] at hagain
    rw [← hagain]
    exact (summarize_answer hpos hc _ _).symm
  have hsame := (hsummary 'a' (by decide)).trans (hsummary 'b' (by decide)).symm
  exact absurd hsame (by decide)

theorem keepsTail_local_iff (htrigger : settings.summary_trigger_messages < state.messages.length) :
    KeepsTail settings none state ↔ settings.recent_messages < state.messages.length ∨
      state.summary.toList.length ≤ settings.summary_target_chars := by
  have hlength : (compressState settings none state).messages.length =
      min settings.recent_messages state.messages.length := compressState_length htrigger
  constructor
  · intro h
    by_cases hmoved : settings.recent_messages < state.messages.length
    · exact Or.inl hmoved
    · refine Or.inr ((summarize_local_iff _ _).mp ?_)
      by_contra hchanged
      have hmessages := h.summary (by
        rw [compressState_of_window htrigger (Nat.not_lt.mp hmoved)]
        exact hchanged)
      omega
  · intro h
    have hshort : (compressState settings none state).summary.toList.length ≤
        settings.summary_target_chars := by
      rw [compressState_summary (Nat.not_le.mpr htrigger)]
      exact summarize_length _ _ _ _
    refine ⟨compressState_keeps _ _ _, fun hchanged => ?_, fun agent' hagent => ?_⟩
    · rcases h with hmoved | hsummary
      · omega
      · by_cases hmoved : settings.recent_messages < state.messages.length
        · omega
        · rw [compressState_local (Nat.not_lt.mp hmoved) hsummary] at hchanged
          exact absurd rfl hchanged
    · obtain rfl : agent' = none := Option.isNone_iff_eq_none.mp (by simpa using hagent)
      exact compressState_local (hlength ▸ Nat.min_le_left _ _) hshort

end

/-- **When compression keeps the tail**: where it does not start, where the window lies within the
    trigger, and without a model also where it moves something or the summary is short. -/
theorem compress_keeps_tail_iff (config : ChatContextConfig) (configured : Bool)
    (state : ConversationState) :
    (∀ agent : Option (Except String String), agent.isSome = configured →
      KeepsTail config.settings agent state) ↔
      state.messages.length ≤ config.summary_trigger_messages ∨
        config.recent_messages ≤ config.summary_trigger_messages ∨
        configured = false ∧ (config.recent_messages < state.messages.length ∨
          state.summary.toList.length ≤ config.summary_target_chars) := by
  by_cases hle : state.messages.length ≤ config.summary_trigger_messages
  · refine iff_of_true (fun agent _ => ?_) (Or.inl hle)
    have hsame : ∀ agent', compressState config.settings agent' state = state :=
      fun agent' => compressState_of_le hle
    refine ⟨compressState_keeps _ _ _, fun hchanged => absurd ?_ hchanged, fun agent' _ => ?_⟩
    · rw [hsame]
    · rw [hsame agent, hsame]
  by_cases hwindow : config.recent_messages ≤ config.summary_trigger_messages
  · refine iff_of_true (fun agent _ => ?_) (Or.inr (Or.inl hwindow))
    refine ⟨compressState_keeps _ _ _, fun _ => ?_, fun agent' _ => compressState_again hwindow agent'⟩
    rw [compressState_length (Nat.not_le.mp hle)]
    have hrecent : config.settings.recent_messages ≤ config.summary_trigger_messages := hwindow
    omega
  have hlocal : KeepsTail config.settings none state ↔ _ :=
    keepsTail_local_iff (Nat.not_le.mp hle)
  cases configured with
  | true =>
    refine iff_of_false (fun h => ?_) fun h => ?_
    · have hpos : 0 < config.settings.summary_target_chars := by
        have htarget := config.target_ge
        show 0 < config.summary_target_chars
        omega
      exact not_again hpos (Nat.not_le.mp hwindow) (Nat.not_le.mp hle) _
        (h (some (.ok "a")) rfl)
    · rcases h with h | h | h
      · exact hle h
      · exact hwindow h
      · exact nomatch h.1
  | false =>
    constructor
    · exact fun h => Or.inr (Or.inr ⟨rfl, hlocal.mp (h none rfl)⟩)
    · rintro (h | h | h) agent hagent
      · exact absurd h hle
      · exact absurd h hwindow
      · obtain rfl : agent = none := Option.isNone_iff_eq_none.mp (by simpa using hagent)
        exact hlocal.mpr h.2

/-- Four messages, with a trigger of three and a window of five. -/
def shortTrigger : ChatContextConfig where
  recent_messages := 5
  summary_trigger_messages := 3

def fourMessages : ConversationState where
  conversation_id := "default"
  summary := "the user prefers tea"
  messages := List.replicate 4 { role := .user, content := "hello" }
  next_message_index := 4
  pending_turns := []
  indexes := rfl
  pending_unique := List.nodup_nil

/-- Nothing is moved, and the summary is what the model makes of nothing. -/
theorem shortTrigger_rewrites :
    (compressState shortTrigger.settings (some (.ok "(nothing new)")) fourMessages).messages =
        fourMessages.messages ∧
      (compressState shortTrigger.settings (some (.ok "(nothing new)")) fourMessages).summary =
        "(nothing new)" ∧
      ¬ KeepsTail shortTrigger.settings (some (.ok "(nothing new)")) fourMessages := by
  refine ⟨by decide +kernel, by decide +kernel, fun h => ?_⟩
  have hmoved := h.summary (by decide +kernel)
  exact absurd hmoved (by decide +kernel)

end NuSelf.Chat
