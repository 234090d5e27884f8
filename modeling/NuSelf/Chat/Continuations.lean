/-
  Suspended turns: who is shown, resumes or consumes a continuation.

  A turn that waits for a tool effect leaves its supervisor in a registry, under a text that joins
  the ids of the turn with `:`.  Neither id is free of `:`, so the text does not determine them.
  What the registry does determine is the text: `KeyedByOwner`, every continuation stands under the
  key of the call that created it.  From it:

  1. `complete_touched` — a call that has got past the store touches exactly the reported
     continuation under its own key;
  2. `isolated_iff` — a step touches its own turn's continuation only, exactly when no other turn
     with a pending request shares the key;
  3. `suspended_isolated_iff` — so does a run.
-/
import NuSelf.Chat.Respond
import NuSelf.Lib.Run

namespace NuSelf.Chat

open NuSelf.Lib NuSelf.Feature NuSelf.Conversation

variable {digest : String → String} {settings : ChatAgentSettings} {s : ChatRuntime}
  {c : RespondCall} {configured : Bool} {outcome : ModelOutcome}

/-! ## Keys -/

/-- One turn of one conversation. -/
def CallOwner.SameTurn (a b : CallOwner) : Prop :=
  a.conversation_id = b.conversation_id ∧ a.turn_id = b.turn_id

/-- The owners that the key does not tell apart: equal parts, and parts where a `:` inside the
    first one lets the cut move. -/
def CallOwner.SameKey (a b : CallOwner) : Prop :=
  a.keyParts = b.keyParts ∨
    CutMoved ':' a.keyParts.1 a.keyParts.2 b.keyParts.1 b.keyParts.2 ∨
    CutMoved ':' b.keyParts.1 b.keyParts.2 a.keyParts.1 a.keyParts.2

theorem checkpointKey_eq_iff {a b : CallOwner} :
    a.checkpointKey = b.checkpointKey ↔ a.SameKey b := by
  rw [CallOwner.checkpointKey, CallOwner.checkpointKey, append_right_cancel_text, joinKey_eq_iff,
    ← Prod.ext_iff]
  rfl

/-! ## The registry -/

/-- Every continuation stands under the key of the call that created it. -/
def KeyedByOwner (continuations : Table String Supervisor) : Prop :=
  ∀ key pending, continuations.get key = some pending → key = pending.owner.checkpointKey

theorem keyedByOwner_empty : KeyedByOwner Table.empty := by
  intro key pending h
  rw [Table.get_empty] at h
  cases h

theorem KeyedByOwner.erase {continuations : Table String Supervisor} (h : KeyedByOwner continuations)
    (key : String) : KeyedByOwner (continuations.erase key) := by
  intro q pending hq
  rw [Table.get_erase] at hq
  split at hq
  · cases hq
  · exact h q pending hq

theorem KeyedByOwner.set {continuations : Table String Supervisor} (h : KeyedByOwner continuations)
    {key : String} {value : Supervisor} (hkey : key = value.owner.checkpointKey) :
    KeyedByOwner (continuations.set key value) := by
  intro q pending hq
  rw [Table.get_set] at hq
  split at hq
  · rename_i hqk
    cases hq
    rw [hqk, hkey]
  · exact h q pending hq

theorem keyedByOwner_reportPending {continuations : Table String Supervisor}
    (h : KeyedByOwner continuations) (pending : Supervisor) :
    KeyedByOwner (reportPending continuations pending).continuations := by
  unfold reportPending
  split <;> exact h

/-- The response step leaves every continuation under its creator's key: a resumed one that
    suspends again keeps its creator, a new one is created by the caller. -/
theorem keyedByOwner_completeWithTools {continuations : Table String Supervisor}
    (h : KeyedByOwner continuations) (c : RespondCall) (outcome : ModelOutcome) :
    KeyedByOwner (completeWithTools continuations c outcome).continuations := by
  unfold completeWithTools
  cases hget : continuations.get c.owner.checkpointKey with
  | some pending =>
    cases c.effect_resolution with
    | none => exact keyedByOwner_reportPending h pending
    | some resolution =>
      dsimp only
      split
      · exact keyedByOwner_reportPending h pending
      · cases outcome with
        | answer output => exact h.erase _
        | suspended request recorded => exact (h.erase _).set (show _ = pending.owner.checkpointKey from h _ _ hget)
        | failed error => exact h.erase _
  | none =>
    cases c.effect_resolution with
    | some resolution => exact h
    | none =>
      cases outcome with
      | answer output => exact h
      | suspended request recorded => exact h.set rfl
      | failed error => exact h

theorem keyedByOwner_complete {continuations : Table String Supervisor}
    (h : KeyedByOwner continuations) (configured : Bool) (c : RespondCall)
    (outcome : ModelOutcome) :
    KeyedByOwner (complete configured continuations c outcome).continuations := by
  cases configured with
  | true => exact keyedByOwner_completeWithTools h c outcome
  | false => exact h

/-- What the response step touches: the continuation under the caller's key, where it has a
    request to show. -/
theorem complete_touched (configured : Bool) (continuations : Table String Supervisor)
    (c : RespondCall) (outcome : ModelOutcome) (owner : CallOwner) :
    (complete configured continuations c outcome).touched = some owner ↔
      configured = true ∧ ∃ pending, continuations.get c.owner.checkpointKey = some pending ∧
        pending.effect_request ≠ none ∧ pending.owner = owner := by
  cases configured with
  | false => simp [complete]
  | true =>
    simp only [complete, completeWithTools, reportPending, if_true, true_and]
    cases hget : continuations.get c.owner.checkpointKey with
    | none =>
      cases c.effect_resolution <;> cases outcome <;> simp
    | some pending =>
      obtain ⟨recorded, creator⟩ := pending
      cases recorded with
      | none => cases c.effect_resolution <;> simp
      | some request =>
        cases c.effect_resolution with
        | none => simp
        | some resolution =>
          dsimp only
          split
          · simp
          · cases outcome <;> simp

/-- A continuation that the response step leaves behind in another form, or not at all, is the one
    it touched. -/
theorem complete_frame {continuations : Table String Supervisor} {key : String}
    {pending : Supervisor} (hget : continuations.get key = some pending)
    (hchanged : (complete configured continuations c outcome).continuations.get key ≠
      some pending) :
    (complete configured continuations c outcome).touched = some pending.owner := by
  cases configured with
  | false => exact absurd hget hchanged
  | true =>
    simp only [complete, completeWithTools, reportPending, if_true] at hchanged ⊢
    by_cases hkey : key = c.owner.checkpointKey
    · subst hkey
      rw [hget] at hchanged ⊢
      obtain ⟨recorded, creator⟩ := pending
      cases recorded with
      | none =>
        -- a supervisor without a request is shown to nobody and stays
        exfalso
        apply hchanged
        cases c.effect_resolution <;> simp [hget]
      | some request =>
        cases c.effect_resolution with
        | none => rfl
        | some resolution =>
          dsimp only
          split
          · rfl
          · cases outcome <;> rfl
    · exfalso
      apply hchanged
      cases continuations.get c.owner.checkpointKey with
      | none =>
        cases c.effect_resolution <;> cases outcome <;> simp [hkey, hget]
      | some other =>
        obtain ⟨recorded, creator⟩ := other
        cases c.effect_resolution with
        | none => cases recorded <;> exact hget
        | some resolution =>
          dsimp only
          split
          · cases recorded <;> exact hget
          · cases outcome <;> simp [hkey, hget]

/-! ## One step -/

/-- The call gets past the store: its ids are accepted, its turn is neither refused nor
    committed. -/
def ReachesResponse (digest : String → String) (s : ChatRuntime) (c : RespondCall) : Prop :=
  blank c.conversation_id = false ∧ ∃ attempt store ticket, c.attempt = .ok attempt ∧
    s.store.beginUpdate digest c.conversation_id attempt c.effect_resolution.isSome =
      .ok (store, ticket) ∧
    completedTurnResult ticket.state c.message c.conversation_id c.turn_id = .ok none

/-- A call does to the continuations what its response step does, if it gets there. -/
theorem respond_continuations (digest : String → String) (s : ChatRuntime) (c : RespondCall)
    (configured : Bool) (outcome : ModelOutcome) :
    (ReachesResponse digest s c ∧
        (respond digest s c configured outcome).2.touched =
          (complete configured s.continuations c outcome).touched ∧
        (respond digest s c configured outcome).1.continuations =
          (complete configured s.continuations c outcome).continuations) ∨
      (¬ ReachesResponse digest s c ∧ (respond digest s c configured outcome).2.touched = none ∧
        (respond digest s c configured outcome).1.continuations = s.continuations) := by
  unfold respond ReachesResponse
  cases hcontext : blank c.conversation_id with
  | true => exact Or.inr ⟨by simp, rfl, rfl⟩
  | false =>
    rw [if_neg (by simp)]
    cases hattempt : c.attempt with
    | error error => exact Or.inr ⟨by simp, rfl, rfl⟩
    | ok attempt =>
      dsimp only
      cases hbegin : s.store.beginUpdate digest c.conversation_id attempt
          c.effect_resolution.isSome with
      | error error => exact Or.inr ⟨by simp [hbegin], rfl, rfl⟩
      | ok r =>
        obtain ⟨store, ticket⟩ := r
        dsimp only
        cases hcompleted : completedTurnResult ticket.state c.message c.conversation_id
            c.turn_id with
        | error error => exact Or.inr ⟨by simp [hbegin, hcompleted], rfl, rfl⟩
        | ok completed =>
          cases completed with
          | some completed =>
            refine Or.inr ⟨by simp [hbegin, hcompleted], ?_⟩
            dsimp only
            split <;> exact ⟨rfl, rfl⟩
          | none =>
            refine Or.inl ⟨⟨rfl, attempt, store, ticket, rfl, hbegin, hcompleted⟩, ?_⟩
            dsimp only
            split
            · exact ⟨rfl, rfl⟩
            · split <;> exact ⟨rfl, rfl⟩

theorem keyedByOwner_step (s : ChatRuntime) (i : ChatInput) (h : KeyedByOwner s.continuations) :
    KeyedByOwner (chatStep digest settings s i).1.continuations := by
  cases i with
  | respond c configured outcome =>
    show KeyedByOwner (respond digest s c configured outcome).1.continuations
    rcases respond_continuations digest s c configured outcome with ⟨-, -, hsame⟩ | ⟨-, -, hsame⟩
    · rw [hsame]
      exact keyedByOwner_complete h configured c outcome
    · rw [hsame]
      exact h
  | compress conversation_id agent =>
    have hsame : (compressConversation digest settings s conversation_id agent).1.continuations =
        s.continuations := by
      unfold compressConversation
      split
      · rfl
      · split <;> rfl
    show KeyedByOwner (compressConversation digest settings s conversation_id agent).1.continuations
    rw [hsame]
    exact h

/-- A call is shown, resumes and consumes continuations of its own turn only: what it touches was
    created by a call of the same conversation and turn, and every other one stays. -/
def TouchesOwn (e : Step ChatRuntime ChatInput ChatOutput) : Prop :=
  match e.input, e.output with
  | .respond c _ _, .responded o =>
    (∀ owner, o.touched = some owner → owner.SameTurn c.owner) ∧
      ∀ key pending, e.before.continuations.get key = some pending →
        ¬ pending.owner.SameTurn c.owner → e.after.continuations.get key = some pending
  | _, _ => True

/-- No suspended turn that shows a request shares the call's key, other than its own. -/
def KeyIsOwn (s : ChatRuntime) (c : RespondCall) : Prop :=
  ∀ key pending, s.continuations.get key = some pending → pending.effect_request ≠ none →
    pending.owner.SameKey c.owner → pending.owner.SameTurn c.owner

/-- The condition on a step: a call that reaches a configured model shares its key with no pending
    request of another turn. -/
def KeysApart (digest : String → String) (s : ChatRuntime) : ChatInput → Prop
  | .respond c configured _ => configured = true → ReachesResponse digest s c → KeyIsOwn s c
  | .compress _ _ => True

/-- One step keeps suspended turns apart exactly when it meets the condition. -/
theorem isolated_iff (e : Step ChatRuntime ChatInput ChatOutput)
    (he : e.Of (chatStep digest settings)) (hinv : KeyedByOwner e.before.continuations) :
    TouchesOwn e ↔ KeysApart digest e.before e.input := by
  obtain ⟨s, i, o, s'⟩ := e
  have hstep : chatStep digest settings s i = (s', o) := he
  cases i with
  | compress conversation_id agent => exact ⟨fun _ => trivial, fun _ => trivial⟩
  | respond c configured outcome =>
    cases hstep
    have hcases := respond_continuations digest s c configured outcome
    constructor
    · rintro ⟨htouched, -⟩ hconfigured hreach key pending hget hrequest hkey
      rcases hcases with ⟨-, hsame, -⟩ | ⟨hnot, -, -⟩
      · apply htouched
        rw [hsame, complete_touched]
        refine ⟨hconfigured, pending, ?_, hrequest, rfl⟩
        rw [← checkpointKey_eq_iff.mpr hkey, ← hinv key pending hget]
        exact hget
      · exact absurd hreach hnot
    · intro hapart
      have hown : ∀ owner, (respond digest s c configured outcome).2.touched = some owner →
          owner.SameTurn c.owner := by
        intro owner howner
        rcases hcases with ⟨hreach, hsame, -⟩ | ⟨-, hnone, -⟩
        · rw [hsame, complete_touched] at howner
          obtain ⟨hconfigured, pending, hget, hrequest, rfl⟩ := howner
          exact hapart hconfigured hreach _ pending hget hrequest
            (checkpointKey_eq_iff.mp (hinv _ pending hget).symm)
        · rw [hnone] at howner
          cases howner
      refine ⟨hown, fun key pending hget hother => ?_⟩
      show (respond digest s c configured outcome).1.continuations.get key = some pending
      rcases hcases with ⟨-, htouched, hsame⟩ | ⟨-, -, hsame⟩
      · by_contra hchanged
        rw [hsame] at hchanged
        exact hother (hown _ (htouched.trans (complete_frame hget hchanged)))
      · rw [hsame]
        exact hget

/-! ## Runs -/

/-- **When suspended turns are isolated**: in every run of turns and compressions, every call is
    shown, resumes and consumes continuations of its own conversation and turn only, exactly when
    no call reaches the model while the pending request of another turn stands under its key. -/
theorem suspended_isolated_iff (digest : String → String) (settings : ChatAgentSettings)
    (inputs : List ChatInput) :
    (∀ e ∈ run (chatStep digest settings) ChatRuntime.empty inputs, TouchesOwn e) ↔
      ∀ e ∈ run (chatStep digest settings) ChatRuntime.empty inputs,
        KeysApart digest e.before e.input :=
  run_forall_iff (fun s i h _ => keyedByOwner_step s i h) isolated_iff _ inputs keyedByOwner_empty

/-- The default context window. -/
def defaultWindow : ChatAgentSettings where
  recent_messages := 12
  summary_trigger_messages := 18
  summary_target_chars := 2400
  recent_pos := by decide

/-- A request of one tool call for approval. -/
def sampleRequest : ToolEffectRequest :=
  .approval
    { component := "chat", operation := "profile_update", action := "update_profile"
      resource := "profile:item-1", risk := .reversible, summary := "Update one profile item"
      component_nonblank := by decide, operation_nonblank := by decide
      action_nonblank := by decide, resource_nonblank := by decide
      summary_nonblank := by decide }

/-- Turn `c` of conversation `a:b` suspends; then turn `b:c` of conversation `a` runs. -/
def crossedTurns : List ChatInput :=
  [.respond { message := "update my profile", conversation_id := "a:b", turn_id := some "c" } true
      (.suspended sampleRequest (some sampleRequest)),
    .respond { message := "hello", conversation_id := "a", turn_id := some "b:c" } true
      (.answer { answer := "hi" })]

/-- Two conversations share a checkpoint key: the second is shown the first one's request. -/
theorem suspended_isolated_fails :
    ¬ ∀ (digest : String → String) (inputs : List ChatInput),
      ∀ e ∈ run (chatStep digest defaultWindow) ChatRuntime.empty inputs, TouchesOwn e := by
  intro h
  have hlast := h id crossedTurns _ (List.mem_of_getLast? rfl)
  have hsame := hlast.1 ⟨"a:b", some "c", ""⟩ rfl
  exact absurd hsame.1 (by decide)

end NuSelf.Chat
