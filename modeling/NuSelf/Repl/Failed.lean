/-
  What a conversation command leaves behind when the store refuses it.

  The loop sends the next message to the conversation whose id the command returns.  So a command
  that reports an error should return the current id, with the store as it was, and one that goes
  through should lead to a conversation that is there and active, or to the default one.  Renaming,
  branching, archiving and deleting compute the id that they return whatever the store says.

  1. `rename_keeps_iff`, `branchTo_keeps_iff`, `archive_keeps_iff`, `delete_keeps_iff` — one
     command each;
  2. `keeps_session_iff` — every command;
  3. `failed_rename_moves` — a refused rename moves the session to the conversation in its way.
-/
import NuSelf.Repl.Conversations

namespace NuSelf.Repl

open NuSelf.Lib NuSelf.Conversation

/-- The command reports an error. -/
def ReplOutput.Failed : ReplOutput → Prop
  | .done (.error _) _ | .done (.invalidIndex _) _ | .raised _ => True
  | _ => False

/-- The command reports that it has renamed, branched, archived or deleted. -/
def ReplOutput.Succeeded : ReplOutput → Prop
  | .done (.renamed _) _ | .done (.branched _) _ | .done (.archived _) _ | .done (.deleted _) _ =>
    True
  | _ => False

/-- A stored conversation that is not archived. -/
def Active (store : ConversationStore) (conversation_id : String) : Prop :=
  ∃ state, store.get conversation_id = some state ∧ state.archived = false

/-- What a command should do to the session. -/
structure KeepsSession (s : ReplState) (handled : ReplState × ReplOutput) : Prop where
  failed : handled.2.Failed → handled.1 = s
  succeeded : handled.2.Succeeded →
    handled.1.current_conversation_id = "default" ∨
      Active handled.1.conversations handled.1.current_conversation_id

/-! ## The conditions -/

/-- Renaming to another id: both are valid, the current one is there, active unless it becomes the
    default one, and the new one is free. -/
def RenameGoes (s : ReplState) (new_id : String) : Prop :=
  validId s.current_conversation_id = true ∧ validId new_id = true ∧
    (∃ state, s.conversations.get s.current_conversation_id = some state ∧
      (new_id = "default" ∨ state.archived = false)) ∧
    s.conversations.get new_id = none

def RenameKeeps (s : ReplState) (new_id : String) : Prop :=
  (new_id = s.current_conversation_id ∧ (new_id = "default" ∨ Active s.conversations new_id)) ∨
    (new_id ≠ s.current_conversation_id ∧ RenameGoes s new_id)

/-- Branching to the current id is refused without harm. -/
def BranchKeeps (s : ReplState) (new_id : String) (index : Option Int) : Prop :=
  new_id = s.current_conversation_id ∨
    (validId s.current_conversation_id = true ∧ validId new_id = true ∧
      s.conversations.get new_id = none ∧
      ∃ state, s.conversations.get s.current_conversation_id = some state ∧
        ∀ i ∈ index, 0 ≤ i ∧ i ≤ (state.messages.length : Int))

def ArchiveKeeps (s : ReplState) : Prop :=
  s.current_conversation_id = "default" ∨
    (validId s.current_conversation_id = true ∧ Active s.conversations s.current_conversation_id)

def DeleteKeeps (s : ReplState) : Prop :=
  s.current_conversation_id = "default" ∨
    (validId s.current_conversation_id = true ∧
      ∃ state, s.conversations.get s.current_conversation_id = some state)

/-- The condition on a command. -/
def CommandKeeps (int : String → Option Int) (s : ReplState) (c : ReplCommand) : Prop :=
  match c.name with
  | .rename => c.body ≠ "" → RenameKeeps s c.body
  | .branch =>
    match words c.body with
    | [] => True
    | [new_id] => BranchKeeps s new_id none
    | new_id :: word :: _ => ∀ index ∈ int word, BranchKeeps s new_id (some index)
  | .archive => c.body = "" → ArchiveKeeps s
  | .delete => c.body = "" → DeleteKeeps s
  | .conversation | .unarchive | .archived => True

/-! ## One command each -/

variable {s : ReplState}

theorem keeps_of_same {o : ReplOutput} (ho : ¬ o.Succeeded) : KeepsSession s (s, o) where
  failed := fun _ => rfl
  succeeded := fun h => absurd h ho

theorem keeps_error_iff {id result : String} {error : StoreError} :
    KeepsSession s ({ s with current_conversation_id := id }, .done (.error error) result) ↔
      id = s.current_conversation_id := by
  constructor
  · intro h
    exact congrArg ReplState.current_conversation_id (h.failed trivial)
  · rintro rfl
    exact keeps_of_same not_false

theorem keeps_ok_iff {t : ReplState} {o : ReplOutput} (hfailed : ¬ o.Failed) (ho : o.Succeeded) :
    KeepsSession s (t, o) ↔ t.current_conversation_id = "default" ∨
      Active t.conversations t.current_conversation_id :=
  ⟨fun h => h.succeeded ho, fun h => ⟨fun hf => absurd hf hfailed, fun _ => h⟩⟩

theorem rename_keeps_iff (new_id : String) :
    KeepsSession s (handleConversationRename s new_id) ↔ (new_id ≠ "" → RenameKeeps s new_id) := by
  unfold handleConversationRename
  by_cases hempty : new_id = ""
  · rw [if_pos hempty]
    exact ⟨fun _ h => absurd hempty h, fun _ => keeps_of_same not_false⟩
  rw [if_neg hempty, forall_prop_of_true hempty]
  by_cases hsame : new_id = s.current_conversation_id
  · -- renaming a conversation to its own id looks nothing up
    have hok : s.conversations.rename s.current_conversation_id new_id = .ok s.conversations :=
      if_pos hsame.symm
    rw [hok]
    rw [RenameKeeps, or_iff_left fun h => h.1 hsame, and_iff_right hsame]
    exact keeps_ok_iff not_false trivial
  · rw [RenameKeeps, or_iff_right fun h => hsame h.1, and_iff_right hsame]
    have hok := @ConversationStore.rename_ok_iff s.conversations _ _ (Ne.symm hsame)
    cases hrename : s.conversations.rename s.current_conversation_id new_id with
    | error error =>
      refine keeps_error_iff.trans ⟨fun h => absurd h hsame, fun h => ?_⟩
      obtain ⟨hcurrent, hnew, ⟨state, hget, -⟩, hfree⟩ := h
      obtain ⟨store', heq⟩ := hok.mpr ⟨hcurrent, hnew, ⟨state, hget⟩, hfree⟩
      rw [hrename] at heq
      cases heq
    | ok store =>
      obtain ⟨hcurrent, hnew, -, -⟩ := hok.mp ⟨store, hrename⟩
      obtain ⟨state, hget, hfree, hstore⟩ := ConversationStore.get_rename hrename (Ne.symm hsame)
      have hmoved : store.get new_id = some { state with conversation_id := new_id } := by
        rw [hstore, if_neg hsame, if_pos rfl]
      refine Iff.trans (keeps_ok_iff not_false trivial) ?_
      show new_id = "default" ∨ Active store new_id ↔ _
      constructor
      · intro h
        refine ⟨hcurrent, hnew, ⟨state, hget, h.imp_right ?_⟩, hfree⟩
        rintro ⟨moved, hmoved', hactive⟩
        rw [hmoved] at hmoved'
        cases hmoved'
        exact hactive
      · rintro ⟨-, -, ⟨state', hget', h⟩, -⟩
        rw [hget] at hget'
        cases hget'
        exact h.imp_right fun hactive => ⟨_, hmoved, hactive⟩

theorem branchTo_keeps_iff (new_id : String) (index : Option Int) :
    KeepsSession s (branchTo s new_id index) ↔ BranchKeeps s new_id index := by
  have hok := @ConversationStore.branch_ok_iff s.conversations s.current_conversation_id new_id index
  rw [BranchKeeps, ← hok, branchTo]
  cases hbranch : s.conversations.branch s.current_conversation_id new_id index with
  | error error =>
    refine keeps_error_iff.trans ⟨Or.inl, fun h => ?_⟩
    rcases h with h | ⟨r, hr⟩
    · exact h
    · cases hr
  | ok r =>
    obtain ⟨store, branched⟩ := r
    obtain ⟨state, n, hn, -, -, rfl, rfl⟩ := ConversationStore.branch_ok hbranch
    refine Iff.trans (keeps_ok_iff not_false trivial)
      ⟨fun _ => Or.inr ⟨_, rfl⟩, fun _ => Or.inr ?_⟩
    refine ⟨ConversationStore.branchOf state new_id n hn, ?_, rfl⟩
    exact (s.conversations.get_put _ new_id).trans (if_pos rfl)

theorem archive_keeps_iff : KeepsSession s (handleConversationArchive s) ↔ ArchiveKeeps s := by
  rw [ArchiveKeeps, Active, ← ConversationStore.archive_ok_iff, handleConversationArchive]
  cases s.conversations.archive s.current_conversation_id with
  | error error =>
    refine keeps_error_iff.trans ⟨fun h => Or.inl h.symm, fun h => ?_⟩
    rcases h with h | ⟨store', heq⟩
    · exact h.symm
    · cases heq
  | ok store =>
    exact Iff.trans (keeps_ok_iff not_false trivial)
      ⟨fun _ => Or.inr ⟨store, rfl⟩, fun _ => Or.inl rfl⟩

theorem delete_keeps_iff : KeepsSession s (handleConversationDelete s) ↔ DeleteKeeps s := by
  rw [DeleteKeeps, ← ConversationStore.delete_ok_iff, handleConversationDelete]
  cases s.conversations.delete s.current_conversation_id with
  | error error =>
    refine keeps_error_iff.trans ⟨fun h => Or.inl h.symm, fun h => ?_⟩
    rcases h with h | ⟨store', heq⟩
    · exact h.symm
    · cases heq
  | ok store =>
    exact Iff.trans (keeps_ok_iff not_false trivial)
      ⟨fun _ => Or.inr ⟨store, rfl⟩, fun _ => Or.inl rfl⟩

theorem unarchive_keeps (conversation_id : String) :
    KeepsSession s (handleConversationUnarchive s conversation_id) := by
  unfold handleConversationUnarchive
  split
  · exact keeps_of_same not_false
  · split
    · exact ⟨False.elim, False.elim⟩
    · exact keeps_of_same not_false

theorem switch_keeps (conversation_id : String) :
    KeepsSession s (handleConversationSwitch s conversation_id) := by
  unfold handleConversationSwitch
  split
  · exact keeps_of_same not_false
  split
  · exact ⟨False.elim, False.elim⟩
  · split
    · exact keeps_of_same not_false
    · exact ⟨False.elim, False.elim⟩

theorem reject_keeps_iff {c : ReplCommand} {handled : ReplState × ReplOutput} :
    KeepsSession s (rejectNonemptyBody s c handled) ↔ (c.body = "" → KeepsSession s handled) := by
  unfold rejectNonemptyBody
  by_cases hempty : c.body = ""
  · rw [if_pos hempty, forall_prop_of_true hempty]
  · rw [if_neg hempty]
    exact ⟨fun _ h => absurd h hempty, fun _ => keeps_of_same not_false⟩

/-! ## Every command -/

/-- **A command keeps the session where it should be**, exactly when it meets its condition: for
    every store, current id and argument. -/
theorem keeps_session_iff (int : String → Option Int) (s : ReplState) (c : ReplCommand) :
    KeepsSession s (replStep int s c) ↔ CommandKeeps int s c := by
  unfold replStep CommandKeeps
  cases c.name with
  | conversation => exact iff_true_intro (switch_keeps c.body)
  | rename => exact rename_keeps_iff c.body
  | branch =>
    dsimp only
    unfold handleConversationBranch
    cases words c.body with
    | nil => exact iff_true_intro (keeps_of_same fun h => h)
    | cons new_id rest =>
      cases rest with
      | nil => exact branchTo_keeps_iff new_id none
      | cons word rest =>
        dsimp only
        cases int word with
        | none => exact ⟨fun _ _ h => (nomatch h), fun _ => keeps_of_same fun h => h⟩
        | some index =>
          refine (branchTo_keeps_iff new_id (some index)).trans ⟨fun h i hi => ?_, fun h => h _ rfl⟩
          cases hi
          exact h
  | archive =>
    exact reject_keeps_iff.trans (forall_congr' fun _ => archive_keeps_iff)
  | unarchive => exact iff_true_intro (unarchive_keeps c.body)
  | archived => exact iff_true_intro (reject_keeps_iff.mpr fun _ => keeps_of_same fun h => h)
  | delete =>
    exact reject_keeps_iff.trans (forall_congr' fun _ => delete_keeps_iff)

/-- Two conversations; the session is in the first one. -/
def workSession : ReplState where
  conversations := (ConversationStore.empty.put workConversation).put (.empty "private")
  current_conversation_id := "work"

def renamePrivate : ReplCommand where
  name := .rename
  body := "private"

/-- **A refused rename moves the session** to the conversation that has the id already. -/
theorem failed_rename_moves :
    (replStep String.toInt? workSession renamePrivate).2 =
        .done (.error (.alreadyExists "private")) "redraw_header" ∧
      (replStep String.toInt? workSession renamePrivate).1.current_conversation_id = "private" ∧
      ¬ KeepsSession workSession (replStep String.toInt? workSession renamePrivate) := by
  have houtput : (replStep String.toInt? workSession renamePrivate).2 =
      .done (.error (.alreadyExists "private")) "redraw_header" := by
    decide +kernel
  have hid : (replStep String.toInt? workSession renamePrivate).1.current_conversation_id =
      "private" := by
    decide +kernel
  refine ⟨houtput, hid, fun h => ?_⟩
  have hsame := h.failed (by rw [houtput]; trivial)
  rw [hsame] at hid
  exact absurd hid (by decide)

end NuSelf.Repl
