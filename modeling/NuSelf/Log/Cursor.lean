/-
  The interactive cursor over the logs of all components.

  The cursor remembers for each component the inode of the active file it has last seen, and how far
  it has read that file.  A poll looks at the active file of each component; where it is another one,
  the remembered file is looked for among the backups and finished first.  What a line says is a
  parameter (`parse`): an event, or nothing for a blank or a corrupt line.

  1. **The code** — `readLogPath`, `findLogWithIdentity`, `readComponent`,
     `reconcileLogEventIdentities`, `readNewEvents`.
  2. **Steps** — file operations of the writers, of any size and in any order, and polls.
  3. **Delivery** (`readNewEvents_delivers`) — a poll returns the events of the lines it reads by
     their time, one for each identity that was not returned before.
-/
import Mathlib.Logic.Function.Basic
import NuSelf.Lib.ByteLines
import NuSelf.Log.Actions

namespace NuSelf.Log

open NuSelf.Lib

/-! ## Events -/

inductive LogComponent where
  | daemon | chat | memory | persona | inbox | delivery | reflection | reasoning | storage
  deriving DecidableEq

def logComponents : List LogComponent :=
  [.daemon, .chat, .memory, .persona, .inbox, .delivery, .reflection, .reasoning, .storage]

theorem mem_logComponents (c : LogComponent) : c ∈ logComponents := by
  cases c <;> decide

structure LogEvent where
  /-- The time of the event; a plain line has none. -/
  instant : Option Int
  event_id : Option String
  /-- The text of its record, without the id. -/
  record : String
  deriving DecidableEq

/-- The key of an event in `_reconcile_log_event_identities`. -/
def LogEvent.identity (e : LogEvent) : String :=
  match e.event_id with
  | some event_id => "id:" ++ event_id
  | none => "legacy:" ++ e.record

/-- `chronological_key`: events without a time come first, and are all equal. -/
def LogEvent.chronologicalKey (e : LogEvent) : Nat × Int :=
  match e.instant with
  | none => (0, 0)
  | some instant => (1, instant)

/-- The order of the keys, as tuples. -/
def notAfter (e e' : LogEvent) : Prop :=
  e.chronologicalKey.1 < e'.chronologicalKey.1 ∨
    (e.chronologicalKey.1 = e'.chronologicalKey.1 ∧
      e.chronologicalKey.2 ≤ e'.chronologicalKey.2)

instance : DecidableRel notAfter := fun _ _ => inferInstanceAs (Decidable (_ ∨ _))

/-- `events.sort(key=_log_event_chronological_key)`. -/
def sortEvents (events : List LogEvent) : List LogEvent := events.insertionSort notAfter

/-- `_reconcile_log_event_identities`: the first event of each identity not seen so far, and what
    has been seen then. -/
def reconcileLogEventIdentities (seen : List String) : List LogEvent → List LogEvent × List String
  | [] => ([], seen)
  | e :: events =>
    if e.identity ∈ seen then reconcileLogEventIdentities seen events
    else
      let rest := reconcileLogEventIdentities (seen ++ [e.identity]) events
      (e :: rest.1, rest.2)

/-! ## Reading -/

/-- What the cursor knows of one component. -/
structure Position where
  offset : Nat
  identity : Option Nat
  deriving DecidableEq

structure InteractiveLogCursor where
  seen_event_keys : List String
  positions : LogComponent → Position

/-- `from_project` for one component. -/
def positionAt (dir : LogDir) : Position :=
  match dir.files.get .active with
  | some file => ⟨file.content.length, some file.inode⟩
  | none => ⟨0, none⟩

def fromProject (dirs : LogComponent → LogDir) : InteractiveLogCursor :=
  ⟨[], fun c => positionAt (dirs c)⟩

/-- `_read_log_path`: the complete lines behind the offset, and the offset behind them. -/
def readLogPath (file : LogFile) (offset : Nat) : List Bytes × Nat :=
  let appended := file.content.drop offset
  (completeLines appended, offset + completeLength appended)

def findLogWithIdentity (dir : LogDir) (identity : Nat) : Option LogFile :=
  (componentLogPaths dir).findSome? fun candidate =>
    if candidate = .active then none
    else (dir.files.get candidate).filter fun file => decide (file.inode = identity)

/-- `_read_component`: the lines it reads, and the position afterwards. -/
def readComponent (dir : LogDir) (position : Position) : List Bytes × Position :=
  match dir.files.get .active with
  | none => ([], ⟨0, none⟩)
  | some active =>
    if position.identity ≠ none ∧ position.identity ≠ some active.inode then
      let rotated := (position.identity.bind (findLogWithIdentity dir)).elim []
        fun file => (readLogPath file position.offset).1
      let current := readLogPath active 0
      (rotated ++ current.1, ⟨current.2, some active.inode⟩)
    else
      let offset := if active.content.length < position.offset then 0 else position.offset
      let current := readLogPath active offset
      (current.1, ⟨current.2, some active.inode⟩)

section

variable (parse : LogComponent → Bytes → Option LogEvent)

/-- The events of the lines that a poll reads, before they are sorted. -/
def eventsRead (lines : LogComponent → List Bytes) : List LogEvent :=
  logComponents.flatMap fun c => (lines c).filterMap (parse c)

def readNewEvents (dirs : LogComponent → LogDir) (cursor : InteractiveLogCursor) :
    InteractiveLogCursor × List LogEvent :=
  let read := fun c => readComponent (dirs c) (cursor.positions c)
  let reconciled := reconcileLogEventIdentities cursor.seen_event_keys
    (sortEvents (eventsRead parse fun c => (read c).1))
  (⟨reconciled.2, fun c => (read c).2⟩, reconciled.1)

end

/-! ## Steps -/

structure Logs where
  dirs : LogComponent → LogDir
  cursor : InteractiveLogCursor

inductive Input where
  | log (component : LogComponent) (action : FileAction)
  | poll

/-- One step; a poll returns its events. -/
def step (parse : LogComponent → Bytes → Option LogEvent) (backup_count : Nat) (s : Logs) :
    Input → Logs × List LogEvent
  | .log c action =>
    ({ s with dirs := Function.update s.dirs c (action.run backup_count (s.dirs c)) }, [])
  | .poll =>
    let r := readNewEvents parse s.dirs s.cursor
    ({ s with cursor := r.1 }, r.2)

/-- The logs after some actions of the writers, and a cursor that is created on them. -/
def created (backup_count : Nat) (before : List (LogComponent × FileAction)) : Logs :=
  let dirs := before.foldl
    (fun dirs entry => Function.update dirs entry.1 (entry.2.run backup_count (dirs entry.1)))
    fun _ => LogDir.fresh
  ⟨dirs, fromProject dirs⟩

/-! ## What a poll returns of the events it reads -/

/-- `returned` are the events by their time, the first of each identity, and none that has been
    seen. -/
structure Delivers (seen : List String) (events returned : List LogEvent) : Prop where
  sorted : returned.Sublist (sortEvents events)
  once : (returned.map LogEvent.identity).Nodup
  unseen : ∀ e ∈ returned, e.identity ∉ seen
  all : ∀ e ∈ events, e.identity ∈ seen ∨ ∃ e' ∈ returned, e'.identity = e.identity

theorem reconcile_spec : ∀ (events : List LogEvent) (seen : List String),
    let r := reconcileLogEventIdentities seen events
    r.2 = seen ++ r.1.map LogEvent.identity ∧ r.1.Sublist events ∧
      (r.1.map LogEvent.identity).Nodup ∧ (∀ e ∈ r.1, e.identity ∉ seen) ∧
      ∀ e ∈ events, e.identity ∈ seen ∨ ∃ e' ∈ r.1, e'.identity = e.identity
  | [], seen => by
    refine ⟨(List.append_nil seen).symm, .slnil, List.nodup_nil, ?_, ?_⟩
    · intro e he
      cases he
    · intro e he
      cases he
  | e :: events, seen => by
    rw [reconcileLogEventIdentities]
    by_cases hseen : e.identity ∈ seen
    · rw [if_pos hseen]
      obtain ⟨hkeys, hsub, hnodup, hunseen, hall⟩ := reconcile_spec events seen
      refine ⟨hkeys, hsub.cons e, hnodup, hunseen, fun e' he' => ?_⟩
      rcases List.mem_cons.mp he' with rfl | he'
      · exact .inl hseen
      · exact hall e' he'
    · rw [if_neg hseen]
      obtain ⟨hkeys, hsub, hnodup, hunseen, hall⟩ := reconcile_spec events (seen ++ [e.identity])
      refine ⟨?_, hsub.cons_cons e, ?_, ?_, ?_⟩
      · rw [hkeys, List.append_assoc]
        rfl
      · rw [List.map_cons, List.nodup_cons]
        refine ⟨fun hmem => ?_, hnodup⟩
        obtain ⟨e', he', heq⟩ := List.mem_map.mp hmem
        exact hunseen e' he' (List.mem_append_right _ (List.mem_singleton.mpr heq))
      · intro e' he'
        rcases List.mem_cons.mp he' with rfl | he'
        · exact hseen
        · exact fun hmem => hunseen e' he' (List.mem_append_left _ hmem)
      · intro e' he'
        rcases List.mem_cons.mp he' with rfl | he'
        · exact .inr ⟨e', List.mem_cons_self, rfl⟩
        · rcases hall e' he' with hmem | ⟨e'', he'', heq⟩
          · rcases List.mem_append.mp hmem with hmem | hmem
            · exact .inl hmem
            · exact .inr ⟨e, List.mem_cons_self, (List.mem_singleton.mp hmem).symm⟩
          · exact .inr ⟨e'', List.mem_cons_of_mem _ he'', heq⟩

/-- **A poll**: what is returned, of the events of the lines it reads, and what is seen then. -/
theorem readNewEvents_delivers (parse : LogComponent → Bytes → Option LogEvent)
    (dirs : LogComponent → LogDir) (cursor : InteractiveLogCursor) :
    let r := readNewEvents parse dirs cursor
    Delivers cursor.seen_event_keys
        (eventsRead parse fun c => (readComponent (dirs c) (cursor.positions c)).1) r.2 ∧
      r.1.seen_event_keys = cursor.seen_event_keys ++ r.2.map LogEvent.identity := by
  obtain ⟨hkeys, hsub, hnodup, hunseen, hall⟩ := reconcile_spec
    (sortEvents (eventsRead parse fun c => (readComponent (dirs c) (cursor.positions c)).1))
    cursor.seen_event_keys
  refine ⟨⟨hsub, hnodup, hunseen, fun e he => hall e ?_⟩, hkeys⟩
  exact (List.mem_insertionSort notAfter).mpr he

end NuSelf.Log
