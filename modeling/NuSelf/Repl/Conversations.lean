/-
  The conversation commands of the REPL.

  A command works on the store and on the id of the current conversation; a refusal by the store is
  printed, and only switching lets it through.  `replStep` is the dispatcher on these commands.

  Navigation should keep every conversation: what existed before a command exists after it with the
  same summary, messages and pending turns, under its new id if it was renamed, and only deletion
  removes one.  `:conversation <id>` decides from the listing whether the conversation is new, and
  the listing leaves archived conversations out.  So:

  1. `switch_preserves_iff` — switching keeps everything unless its target is an archived
     conversation with content;
  2. `preserves_iff` — every other command keeps everything;
  3. `navigation_preserves_iff` — both over runs, from any store.
-/
import NuSelf.Conversation.Store
import NuSelf.Lib.Run
import NuSelf.Lib.Text

namespace NuSelf.Repl

open NuSelf.Lib NuSelf.Conversation

/-! ## The commands -/

/-- The names under which the dispatcher registers them; `:archived` lists. -/
inductive CommandName where
  | conversation | rename | branch | archive | unarchive | archived | delete
  deriving DecidableEq, Repr

/-- A resolved command: its name, its stripped argument, and the line as typed. -/
structure ReplCommand where
  name : CommandName
  body : String := ""
  command : String := ""
  deriving DecidableEq

/-- What a command prints. -/
inductive Printed where
  | help (command : String)
  | active (ids : List String)
  | archivedIds (ids : List String)
  | switched (conversation_id : String)
  | renamed (new_id : String)
  | branched (new_id : String)
  | invalidIndex (word : String)
  | archived (conversation_id : String)
  | unarchived (conversation_id : String)
  | deleted (conversation_id : String)
  | error (error : StoreError)
  deriving DecidableEq

/-- What a command returns to the loop, or the error that leaves it. -/
inductive ReplOutput where
  | done (printed : Printed) (result : String)
  | raised (error : StoreError)
  deriving DecidableEq

structure ReplState where
  conversations : ConversationStore
  current_conversation_id : String

def rejectNonemptyBody (s : ReplState) (c : ReplCommand) (handle : ReplState × ReplOutput) :
    ReplState × ReplOutput :=
  if c.body = "" then handle else (s, .done (.help c.command) "")

def handleConversationSwitch (s : ReplState) (conversation_id : String) : ReplState × ReplOutput :=
  if conversation_id = "" then (s, .done (.active s.conversations.list) "")
  else if conversation_id ∈ s.conversations.list then
    ({ s with current_conversation_id := conversation_id },
      .done (.switched conversation_id) "redraw_header")
  else
    match s.conversations.save (.empty conversation_id) with
    | .error error => (s, .raised error)
    | .ok store => (⟨store, conversation_id⟩, .done (.switched conversation_id) "redraw_header")

def handleConversationRename (s : ReplState) (new_id : String) : ReplState × ReplOutput :=
  if new_id = "" then (s, .done (.help ":rename") "redraw_header")
  else
    match s.conversations.rename s.current_conversation_id new_id with
    | .ok store => (⟨store, new_id⟩, .done (.renamed new_id) "redraw_header")
    | .error error =>
      ({ s with current_conversation_id := new_id }, .done (.error error) "redraw_header")

/-- `store.branch(current, new_id, index)` and what the command makes of it. -/
def branchTo (s : ReplState) (new_id : String) (index : Option Int) : ReplState × ReplOutput :=
  match s.conversations.branch s.current_conversation_id new_id index with
  | .ok (store, _) => (⟨store, new_id⟩, .done (.branched new_id) "redraw_header")
  | .error error =>
    ({ s with current_conversation_id := new_id }, .done (.error error) "redraw_header")

/-- The body is a new id and an index; `int` reads the index. -/
def handleConversationBranch (int : String → Option Int) (s : ReplState) (body : String) :
    ReplState × ReplOutput :=
  match words body with
  | [] => (s, .done (.help ":branch") "redraw_header")
  | [new_id] => branchTo s new_id none
  | new_id :: word :: _ =>
    match int word with
    | none => (s, .done (.invalidIndex word) "")
    | some index => branchTo s new_id (some index)

def handleConversationArchive (s : ReplState) : ReplState × ReplOutput :=
  match s.conversations.archive s.current_conversation_id with
  | .ok store =>
    (⟨store, "default"⟩, .done (.archived s.current_conversation_id) "redraw_header")
  | .error error =>
    ({ s with current_conversation_id := "default" }, .done (.error error) "redraw_header")

def handleConversationUnarchive (s : ReplState) (conversation_id : String) :
    ReplState × ReplOutput :=
  if conversation_id = "" then (s, .done (.help ":unarchive") "")
  else
    match s.conversations.unarchive conversation_id with
    | .ok store => ({ s with conversations := store }, .done (.unarchived conversation_id) "")
    | .error error => (s, .done (.error error) "")

def handleConversationDelete (s : ReplState) : ReplState × ReplOutput :=
  match s.conversations.delete s.current_conversation_id with
  | .ok store => (⟨store, "default"⟩, .done (.deleted s.current_conversation_id) "redraw_header")
  | .error error =>
    ({ s with current_conversation_id := "default" }, .done (.error error) "redraw_header")

def replStep (int : String → Option Int) (s : ReplState) (c : ReplCommand) :
    ReplState × ReplOutput :=
  match c.name with
  | .conversation => handleConversationSwitch s c.body
  | .rename => handleConversationRename s c.body
  | .branch => handleConversationBranch int s c.body
  | .archive => rejectNonemptyBody s c (handleConversationArchive s)
  | .unarchive => handleConversationUnarchive s c.body
  | .archived =>
    rejectNonemptyBody s c (s, .done (.archivedIds s.conversations.listArchived) "")
  | .delete => rejectNonemptyBody s c (handleConversationDelete s)

/-! ## Keeping conversations -/

/-- What a user has in a conversation. -/
def SameContent (a b : ConversationState) : Prop :=
  a.summary = b.summary ∧ a.messages = b.messages ∧ a.pending_turns = b.pending_turns

/-- Where a conversation is found after a command on the state `s` with this output. -/
def newId (s : ReplState) (o : ReplOutput) (id : String) : String :=
  match o with
  | .done (.renamed new_id) _ => if id = s.current_conversation_id then new_id else id
  | _ => id

/-- Every conversation but the one a deletion addresses exists after the command with its
    content. -/
def Preserves (e : Step ReplState ReplCommand ReplOutput) : Prop :=
  ∀ id state, e.before.conversations.get id = some state →
    (e.input.name = .delete ∧ id = e.before.current_conversation_id) ∨
    ∃ state', e.after.conversations.get (newId e.before e.output id) = some state' ∧
      SameContent state state'

/-- The condition on a command: a switch does not go to an archived conversation with content. -/
def SwitchKeeps (s : ReplState) (c : ReplCommand) : Prop :=
  c.name = .conversation → validId c.body = true →
    ∀ state, s.conversations.get c.body = some state → state.archived = true →
      state.summary = "" ∧ state.messages = [] ∧ state.pending_turns = []

theorem SameContent.refl (a : ConversationState) : SameContent a a := ⟨rfl, rfl, rfl⟩

variable {s s' : ReplState} {c : ReplCommand} {printed : Printed} {result : String}
  {o : ReplOutput}

theorem preserves_of_same (hstore : s'.conversations = s.conversations)
    (hid : ∀ id, newId s o id = id) : Preserves ⟨s, c, o, s'⟩ := by
  intro id state hget
  refine Or.inr ⟨state, ?_, SameContent.refl state⟩
  show s'.conversations.get (newId s o id) = some state
  rw [hid, hstore]
  exact hget

/-- A command that writes one record keeps everything if the record keeps its content. -/
theorem preserves_of_write {target : String} {written : ConversationState}
    (hstore : ∀ id, s'.conversations.get id =
      if id = target then some written else s.conversations.get id)
    (hcontent : ∀ state, s.conversations.get target = some state → SameContent state written)
    (hid : ∀ id, newId s o id = id) : Preserves ⟨s, c, o, s'⟩ := by
  intro id state hget
  refine Or.inr ?_
  show ∃ state', s'.conversations.get (newId s o id) = some state' ∧ SameContent state state'
  rw [hid, hstore]
  by_cases hi : id = target
  · subst hi
    rw [if_pos rfl]
    exact ⟨written, rfl, hcontent state hget⟩
  · rw [if_neg hi]
    exact ⟨state, hget, SameContent.refl state⟩

/-- Switching keeps every conversation, exactly when the target is not archived with content. -/
theorem switch_preserves_iff (hname : c.name = .conversation) :
    Preserves ⟨s, c, (handleConversationSwitch s c.body).2, (handleConversationSwitch s c.body).1⟩ ↔
      SwitchKeeps s c := by
  unfold handleConversationSwitch
  by_cases hempty : c.body = ""
  · rw [if_pos hempty]
    constructor
    · intro _ _ hvalid
      rw [hempty] at hvalid
      exact absurd hvalid (by decide)
    · exact fun _ => preserves_of_same rfl fun _ => rfl
  rw [if_neg hempty]
  by_cases hlisted : c.body ∈ s.conversations.list
  · rw [if_pos hlisted]
    constructor
    · intro _ _ _ state hget harchived
      obtain ⟨listed, hlistedget, hactive⟩ := (ConversationStore.mem_list_iff _).mp hlisted
      rw [hget] at hlistedget
      cases hlistedget
      rw [harchived] at hactive
      cases hactive
    · exact fun _ => preserves_of_same rfl fun _ => rfl
  rw [if_neg hlisted]
  cases hsave : s.conversations.save (.empty c.body) with
  | error error =>
    constructor
    · intro _ _ hvalid
      have hvalid' : validId (ConversationState.empty c.body).conversation_id = true := hvalid
      rw [ConversationStore.save, if_neg (by simp [hvalid'])] at hsave
      cases hsave
    · exact fun _ => preserves_of_same rfl fun _ => rfl
  | ok store =>
    have hstore := ConversationStore.get_save hsave
    constructor
    · intro hkeeps _ _ state hget _
      rcases hkeeps c.body state hget with ⟨hdelete, -⟩ | ⟨state', hget', hsame⟩
      · rw [hname] at hdelete
        cases hdelete
      · have hwritten : store.get c.body = some (.empty c.body) := by
          rw [hstore]
          exact if_pos rfl
        have hstate' : store.get c.body = some state' := hget'
        rw [hwritten] at hstate'
        cases hstate'
        exact hsame
    · intro hkeeps
      refine preserves_of_write hstore (fun state hget => ?_) fun _ => rfl
      have hvalid : validId c.body = true := by
        by_contra hinvalid
        have hinvalid' : validId (ConversationState.empty c.body).conversation_id = false :=
          Bool.eq_false_iff.mpr hinvalid
        rw [ConversationStore.save, if_pos hinvalid'] at hsave
        cases hsave
      -- the target exists and is not listed, so it is archived
      have harchived : state.archived = true := by
        by_contra hactive
        exact hlisted ((ConversationStore.mem_list_iff _).mpr ⟨state, hget, by simpa using hactive⟩)
      exact hkeeps hname hvalid state hget harchived

theorem rename_preserves (s : ReplState) (c : ReplCommand) :
    Preserves ⟨s, c, (handleConversationRename s c.body).2,
      (handleConversationRename s c.body).1⟩ := by
  unfold handleConversationRename
  by_cases hempty : c.body = ""
  · rw [if_pos hempty]
    exact preserves_of_same rfl fun _ => rfl
  rw [if_neg hempty]
  cases hrename : s.conversations.rename s.current_conversation_id c.body with
  | error error => exact preserves_of_same rfl fun _ => rfl
  | ok store =>
    intro id state hget
    refine Or.inr ?_
    show ∃ state', store.get (if id = s.current_conversation_id then c.body else id) = some state' ∧
      SameContent state state'
    by_cases hsame : s.current_conversation_id = c.body
    · -- renaming a conversation to its own id does nothing
      rw [hsame, ConversationStore.rename, if_pos rfl] at hrename
      cases hrename
      refine ⟨state, ?_, SameContent.refl state⟩
      by_cases hid : id = s.current_conversation_id
      · rw [if_pos hid, ← hsame, ← hid]
        exact hget
      · rw [if_neg hid]
        exact hget
    · obtain ⟨old, hold, hnew, hstore⟩ := ConversationStore.get_rename hrename hsame
      by_cases hid : id = s.current_conversation_id
      · rw [if_pos hid, hstore, if_neg (fun h => hsame h.symm), if_pos rfl]
        rw [hid, hold] at hget
        cases hget
        exact ⟨_, rfl, rfl, rfl, rfl⟩
      · have hidnew : id ≠ c.body := by
          rintro rfl
          rw [hnew] at hget
          cases hget
        rw [if_neg hid, hstore, if_neg hid, if_neg hidnew]
        exact ⟨state, hget, SameContent.refl state⟩

theorem branchTo_preserves (s : ReplState) (c : ReplCommand) (new_id : String)
    (index : Option Int) :
    Preserves ⟨s, c, (branchTo s new_id index).2, (branchTo s new_id index).1⟩ := by
  unfold branchTo
  cases hbranch : s.conversations.branch s.current_conversation_id new_id index with
  | error error => exact preserves_of_same rfl fun _ => rfl
  | ok r =>
    obtain ⟨store, branched⟩ := r
    obtain ⟨hnew, hstore⟩ := ConversationStore.get_branch hbranch
    refine preserves_of_write hstore (fun state hget => ?_) fun _ => rfl
    rw [hnew] at hget
    cases hget

theorem archive_preserves (s : ReplState) (c : ReplCommand) :
    Preserves ⟨s, c, (handleConversationArchive s).2, (handleConversationArchive s).1⟩ := by
  unfold handleConversationArchive
  cases harchive : s.conversations.archive s.current_conversation_id with
  | error error => exact preserves_of_same rfl fun _ => rfl
  | ok store =>
    obtain ⟨old, hold, hstore⟩ := ConversationStore.get_archive harchive
    refine preserves_of_write hstore (fun state hget => ?_) fun _ => rfl
    rw [hold] at hget
    cases hget
    exact ⟨rfl, rfl, rfl⟩

theorem unarchive_preserves (s : ReplState) (c : ReplCommand) :
    Preserves ⟨s, c, (handleConversationUnarchive s c.body).2,
      (handleConversationUnarchive s c.body).1⟩ := by
  unfold handleConversationUnarchive
  by_cases hempty : c.body = ""
  · rw [if_pos hempty]
    exact preserves_of_same rfl fun _ => rfl
  rw [if_neg hempty]
  cases hunarchive : s.conversations.unarchive c.body with
  | error error => exact preserves_of_same rfl fun _ => rfl
  | ok store =>
    obtain ⟨old, hold, hstore⟩ := ConversationStore.get_unarchive hunarchive
    refine preserves_of_write hstore (fun state hget => ?_) fun _ => rfl
    rw [hold] at hget
    cases hget
    exact ⟨rfl, rfl, rfl⟩

theorem delete_preserves (s : ReplState) (hname : c.name = .delete) :
    Preserves ⟨s, c, (handleConversationDelete s).2, (handleConversationDelete s).1⟩ := by
  unfold handleConversationDelete
  cases hdelete : s.conversations.delete s.current_conversation_id with
  | error error => exact preserves_of_same rfl fun _ => rfl
  | ok store =>
    intro id state hget
    by_cases hid : id = s.current_conversation_id
    · exact Or.inl ⟨hname, hid⟩
    · refine Or.inr ⟨state, ?_, SameContent.refl state⟩
      show store.get id = some state
      rw [ConversationStore.get_delete hdelete, if_neg hid]
      exact hget

/-- One command keeps every conversation exactly when it meets the condition. -/
theorem preserves_iff {int : String → Option Int} (e : Step ReplState ReplCommand ReplOutput)
    (he : e.Of (replStep int)) : Preserves e ↔ SwitchKeeps e.before e.input := by
  obtain ⟨s, c, o, s'⟩ := e
  have hstep : replStep int s c = (s', o) := he
  by_cases hname : c.name = .conversation
  · have hswitch := switch_preserves_iff (s := s) hname
    simp only [replStep, hname] at hstep
    rw [hstep] at hswitch
    exact hswitch
  · -- no other command has a condition
    have hkeeps : SwitchKeeps s c := fun h => absurd h hname
    refine ⟨fun _ => hkeeps, fun _ => ?_⟩
    have hreject : ∀ handled : ReplState × ReplOutput,
        Preserves ⟨s, c, handled.2, handled.1⟩ →
        Preserves ⟨s, c, (rejectNonemptyBody s c handled).2, (rejectNonemptyBody s c handled).1⟩ := by
      intro handled hhandled
      unfold rejectNonemptyBody
      split
      · exact hhandled
      · exact preserves_of_same rfl fun _ => rfl
    have hout : Preserves ⟨s, c, (replStep int s c).2, (replStep int s c).1⟩ := by
      unfold replStep
      cases hc : c.name with
      | conversation => exact absurd hc hname
      | rename => exact rename_preserves s c
      | branch =>
        simp only [handleConversationBranch]
        split
        · exact preserves_of_same rfl fun _ => rfl
        · exact branchTo_preserves s c _ _
        · split
          · exact preserves_of_same rfl fun _ => rfl
          · exact branchTo_preserves s c _ _
      | archive => exact hreject _ (archive_preserves s c)
      | unarchive => exact unarchive_preserves s c
      | archived => exact hreject _ (preserves_of_same rfl fun _ => rfl)
      | delete => exact hreject _ (delete_preserves s hc)
    rw [hstep] at hout
    exact hout

/-- **When navigation keeps every conversation**: from any store, a run of conversation commands
    keeps every conversation with its content, deletion of the current one apart, exactly when no
    switch goes to an archived conversation with content. -/
theorem navigation_preserves_iff (int : String → Option Int) (s : ReplState)
    (commands : List ReplCommand) :
    (∀ e ∈ run (replStep int) s commands, Preserves e) ↔
      ∀ e ∈ run (replStep int) s commands, SwitchKeeps e.before e.input := by
  constructor
  · intro h e he
    exact (preserves_iff e (run_of _ s commands e he)).mp (h e he)
  · intro h e he
    exact (preserves_iff e (run_of _ s commands e he)).mpr (h e he)

/-- A conversation with one message. -/
def workConversation : ConversationState where
  conversation_id := "work"
  messages := [{ role := .user, content := "hello" }]
  message_start_index := 0
  next_message_index := 1
  pending_turns := []
  indexes := rfl
  pending_unique := List.nodup_nil

/-- Archiving a conversation and switching back to it erases its messages. -/
theorem navigation_erases : ¬ ∀ (s : ReplState) (commands : List ReplCommand),
    ∀ e ∈ run (replStep String.toInt?) s commands, Preserves e := by
  intro h
  have hswitch := h ⟨ConversationStore.empty.put workConversation, "work"⟩
    [{ name := .archive }, { name := .conversation, body := "work" }] _ (List.mem_of_getLast? rfl)
  rcases hswitch "work" { workConversation with archived := true } (by decide) with
    ⟨hdelete, -⟩ | ⟨state', hget, -, hmessages, -⟩
  · exact absurd hdelete (by decide)
  · cases hget
    cases hmessages

end NuSelf.Repl
