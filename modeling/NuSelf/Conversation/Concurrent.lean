/-
  Calls on the conversation store that run at the same time.

  A call is a process or a thread in one operation.  An operation takes the locks of its
  conversations, in the order of their ids, and then runs one transaction; `update` runs two, and
  its callback between them with no transaction open.  Each lock, read, `BEGIN`, transaction body,
  commit and release is one step of its call, and any call may take the next step, see a storage
  error instead, or die.  A flock has one holder and is free when its holder is dead; SQLite admits
  one writing transaction at a time, and what it writes is seen when it commits.

  1. **The code** — `step`, with the places of a call (`Phase`).
  2. **The rows** — an operation keeps to the conversations that it locks (`runOp_within`).
-/
import Mathlib.Data.List.Dedup
import NuSelf.Conversation.Records
import NuSelf.Lib.JsonEq
import NuSelf.Lib.Locks

namespace NuSelf.Conversation.Wire.Concurrent

open NuSelf.Lib NuSelf.Storage

/-! ## Calls -/

structure UpdateArgs where
  conversation_id : String
  turn_id : Option String
  user_message : Option String
  continue_pending_turn : Bool

/-- The turn that an update is for. -/
def UpdateArgs.turn (args : UpdateArgs) : Option (String × String) := do
  let turn_id ← args.turn_id
  let user_message ← args.user_message
  return (turn_id, user_message)

/-- The operations of one transaction. -/
inductive LockedOp where
  | save (state : ConversationState)
  | rename (old_conversation_id new_conversation_id : String)
  | branch (source_conversation_id new_conversation_id : String) (message_index : Option Int)
  | archive (conversation_id : String)
  | unarchive (conversation_id : String)
  | delete (conversation_id : String)

namespace LockedOp

/-- What it does in its transaction. -/
def toOp : LockedOp → StoreOp
  | .save state => .save state
  | .rename old_conversation_id new_conversation_id =>
    .rename old_conversation_id new_conversation_id
  | .branch source_conversation_id new_conversation_id message_index =>
    .branch source_conversation_id new_conversation_id message_index
  | .archive conversation_id => .archive conversation_id
  | .unarchive conversation_id => .unarchive conversation_id
  | .delete conversation_id => .delete conversation_id

/-- The ids that it validates, in this order, and locks. -/
def ids : LockedOp → List String
  | .save state => [state.conversation_id]
  | .rename old_conversation_id new_conversation_id => [old_conversation_id, new_conversation_id]
  | .branch source_conversation_id new_conversation_id _ =>
    [source_conversation_id, new_conversation_id]
  | .archive conversation_id | .unarchive conversation_id | .delete conversation_id =>
    [conversation_id]

end LockedOp

inductive Request where
  | update (args : UpdateArgs)
  | locked (op : LockedOp)

def Request.ids : Request → List String
  | .update args => [args.conversation_id]
  | .locked op => op.ids

/-- `sorted(set(conversation_ids))`. -/
def lockOrder (conversation_ids : List String) : List String :=
  ConversationStore.sortedIds conversation_ids.dedup

inductive CallError where
  | records (e : RecordsError)
  /-- `turn_id` without `user_message`, or the other way. -/
  | suppliedTogether
  /-- The lock file, a read or the transaction fails. -/
  | storage
  /-- The observer of the commit raises. -/
  | observer
  deriving DecidableEq

def fromRecords {α : Type} : Except RecordsError α → Except CallError α
  | .ok a => .ok a
  | .error e => .error (.records e)

inductive Outcome where
  | returned
  | raised (e : CallError)
  deriving DecidableEq

/-! ## Transactions -/

/-- What runs in a transaction. -/
inductive Work where
  /-- The turn of an update is marked; `state` has the mark. -/
  | mark (args : UpdateArgs) (turn_id : String) (state : ConversationState)
  /-- The commit of an update, whose callback was given `given` and returned `updated`. -/
  | commit (args : UpdateArgs) (original : Option Record) (given updated : ConversationState)
  | locked (op : LockedOp)

def Work.locks : Work → List String
  | .mark args _ _ | .commit args _ _ _ => [args.conversation_id]
  | .locked op => lockOrder op.ids

/-- `==` on what `self._collection.get` returns. -/
def sameRecord : Option Record → Option Record → Bool
  | none, none => true
  | some a, some b => Json.equal (.obj a.rows) (.obj b.rows)
  | _, _ => false

/-- The body of the transaction, with the rows it leaves. -/
def Work.run (sha : Sha256) (db : Records) : Work → Except CallError Records
  | .mark _ _ state => (fromRecords (saveUnlocked db state)).map Prod.fst
  | .commit args original _ updated => do
    let raw ← fromRecords (readRaw db args.conversation_id)
    if sameRecord raw original = false then .error (.records (.store .changedConcurrently))
    else (fromRecords (saveUnlocked db (updated.finishTurnAttempt args.turn_id))).map Prod.fst
  | .locked op => (fromRecords (runOp sha db op.toOp)).map Prod.fst

/-- Where a transaction is. -/
inductive Stage where
  | waiting
  | opened
  /-- The rows are written and not yet committed. -/
  | written (db : Records)

/-! ## The places of a call -/

inductive Phase where
  | idle
  /-- It takes the locks `rest`. -/
  | acquiring (request : Request) (held rest : List String)
  /-- An update is about to read its record. -/
  | reading (args : UpdateArgs)
  | transacting (work : Work) (stage : Stage)
  /-- The turn is marked; the record is read again. -/
  | rereading (args : UpdateArgs) (state : ConversationState)
  /-- The callback runs. -/
  | calling (args : UpdateArgs) (original : Option Record) (given : ConversationState)
  /-- The update is committed; its observer is called. -/
  | observing (args : UpdateArgs)
  /-- The call ends once its locks are released. -/
  | leaving (held : List String) (outcome : Outcome)
  | done (outcome : Outcome)
  | dead

namespace Phase

/-- The locks that the call holds. -/
def held : Phase → List String
  | .acquiring _ held _ => held
  | .reading args | .rereading args _ | .calling args _ _ | .observing args =>
    [args.conversation_id]
  | .transacting work _ => work.locks
  | .leaving held _ => held
  | .idle | .done _ | .dead => []

/-- The locks that it has yet to take. -/
def wanted : Phase → List String
  | .acquiring _ _ rest => rest
  | _ => []

/-- Its transaction is open. -/
def writing : Phase → Bool
  | .transacting _ .opened | .transacting _ (.written _) => true
  | _ => false

/-- What has become of the call. -/
def outcome : Phase → Option Outcome
  | .leaving _ outcome | .done outcome => some outcome
  | _ => none

end Phase

/-- A conversation that is renamed to itself. -/
def Request.nothingToDo : Request → Bool
  | .locked (.rename old_conversation_id new_conversation_id) =>
    decide (old_conversation_id = new_conversation_id)
  | _ => false

/-- `(turn_id is None) != (user_message is None)`. -/
def Request.incomplete : Request → Bool
  | .update args => args.turn_id.isNone != args.user_message.isNone
  | .locked _ => false

/-- The checks of a call before its locks. -/
def Request.start (request : Request) : Phase :=
  if request.nothingToDo = true then .done .returned
  else
    match request.ids.find? fun id => !validId id with
    | some id => .done (.raised (.records (.store (.invalidId id))))
    | none =>
      if request.incomplete = true then .done (.raised .suppliedTogether)
      else .acquiring request [] (lockOrder request.ids)

/-- With its locks the call goes on to its first read or its transaction. -/
def Request.enter : Request → Phase
  | .update args => .reading args
  | .locked op => .transacting (.locked op) .waiting

def UpdateArgs.fails (args : UpdateArgs) (e : CallError) : Phase :=
  .leaving [args.conversation_id] (.raised e)

/-- The state that an update reads from its record. -/
def stateOfRaw (conversation_id : String) : Option Record → Except RecordsError ConversationState
  | none => .ok (.empty conversation_id)
  | some raw => decodeRaw raw

/-- `update` from its first read to the marking of the turn or the callback. -/
def UpdateArgs.afterRead (args : UpdateArgs) (sha : Sha256) (db : Records) : Phase :=
  match readRaw db args.conversation_id with
  | .error e => args.fails (.records e)
  | .ok original =>
    match stateOfRaw args.conversation_id original with
    | .error e => args.fails (.records e)
    | .ok state =>
      match args.turn with
      | none => .calling args original state
      | some (turn_id, user_message) =>
        if state.hasReply turn_id = true then .calling args original state
        else
          match beginTurnAttempt sha state turn_id user_message args.continue_pending_turn with
          | .error e => args.fails (.records e)
          | .ok marked => .transacting (.mark args turn_id marked) .waiting

/-- The second read, of the marked record. -/
def UpdateArgs.afterMark (args : UpdateArgs) (db : Records) (state : ConversationState) : Phase :=
  match readRaw db args.conversation_id with
  | .error e => args.fails (.records e)
  | .ok original => .calling args original state

/-- What the callback returns; `none` is an exception. -/
def UpdateArgs.afterCallback (args : UpdateArgs) (original : Option Record)
    (given : ConversationState) : Option ConversationState → Phase
  | none => args.fails (.records .callback)
  | some updated =>
    if updated.conversation_id ≠ args.conversation_id then
      args.fails (.records (.store .identityChanged))
    else .transacting (.commit args original given updated) .waiting

/-- Behind a committed transaction. -/
def Work.next : Work → Phase
  | .mark args _ state => .rereading args state
  | .commit args _ _ _ => .observing args
  | .locked op => .leaving (lockOrder op.ids).reverse .returned

/-! ## What a record holds -/

/-- A record of a conversation names the id that it lies under. -/
def Keyed (db : Records) : Prop :=
  ∀ id p c, db.get ("conversations", id) = some p →
    p.record.get "conversation_id" = some (.str c) → c = id

/-- Under the id lies the record of the state. -/
def RowOf (db : Records) (id : String) (state : ConversationState) : Prop :=
  ∃ p, db.get ("conversations", id) = some p ∧ p.record = state.toWire.erase "id"

/-- Only the conversations with these ids may change. -/
structure Within (ids : List String) (db db' : Records) : Prop where
  other : ∀ k, (∀ id ∈ ids, k ≠ ("conversations", id)) → db'.get k = db.get k
  keyed : Keyed db'

namespace Within

variable {ids more : List String} {db db₁ db' : Records}

theorem refl (hkeyed : Keyed db) : Within ids db db := ⟨fun _ _ => rfl, hkeyed⟩

theorem mono (h : Within ids db db') (hmore : ∀ id ∈ ids, id ∈ more) : Within more db db' :=
  ⟨fun k hk => h.other k fun id hid => hk id (hmore id hid), h.keyed⟩

theorem trans (h : Within ids db db₁) (h' : Within ids db₁ db') : Within ids db db' :=
  ⟨fun k hk => (h'.other k hk).trans (h.other k hk), h'.keyed⟩

theorem row (h : Within ids db db') {id : String} (hid : id ∉ ids) :
    db'.get ("conversations", id) = db.get ("conversations", id) := by
  refine h.other _ fun id' hid' heq => hid ?_
  rw [(Prod.mk.inj heq).2]
  exact hid'

end Within

section

variable {db db' : Records} {id : String} {state : ConversationState}

theorem readRaw_ok {raw : Option Record} (h : readRaw db id = .ok raw) :
    (raw = none ∧ db.get ("conversations", id) = none) ∨
      ∃ p r, raw = some r ∧ db.get ("conversations", id) = some p ∧
        ∀ name, name ≠ "id" → r.get name = p.record.get name := by
  rw [readRaw, collectionGet] at h
  cases hget : db.get ("conversations", id) with
  | none =>
    rw [hget] at h
    cases h
    exact .inl ⟨rfl, rfl⟩
  | some p =>
    rw [hget] at h
    dsimp only at h
    rw [decode] at h
    split at h
    · cases h
    · split at h
      · cases h
        refine .inr ⟨p, _, rfl, rfl, fun name hname => ?_⟩
        show (("id", Json.str id) :: p.record.rows).lookup name = _
        rw [lookup_row, if_neg hname]
        rfl
      · cases h

theorem readRaw_congr (h : db'.get ("conversations", id) = db.get ("conversations", id)) :
    readRaw db' id = readRaw db id := by
  rw [readRaw, readRaw, collectionGet, collectionGet, h]

theorem stateOfRaw_id (hkeyed : Keyed db) {raw : Option Record} (hread : readRaw db id = .ok raw)
    (hstate : stateOfRaw id raw = .ok state) : state.conversation_id = id := by
  rcases readRaw_ok hread with ⟨rfl, -⟩ | ⟨p, r, rfl, hget, hfields⟩
  · cases hstate
    rfl
  · rw [stateOfRaw, decodeRaw] at hstate
    cases hwire : ConversationState.fromWire r with
    | error e =>
      rw [hwire] at hstate
      cases hstate
    | ok s =>
      rw [hwire] at hstate
      cases hstate
      have hname := ConversationState.get_conversation_id hwire
      rw [hfields _ (by decide)] at hname
      exact hkeyed id p _ hget hname

theorem readRaw_rowOf (hrow : RowOf db id state) {raw : Option Record}
    (hread : readRaw db id = .ok raw) :
    ∃ r, raw = some r ∧ ConversationState.SameFields r state.toWire := by
  obtain ⟨p, hget, hp⟩ := hrow
  rcases readRaw_ok hread with ⟨-, hnone⟩ | ⟨q, r, rfl, hget', hfields⟩
  · rw [hget] at hnone
    cases hnone
  · rw [hget] at hget'
    cases hget'
    refine ⟨r, rfl, fun name hname => ?_⟩
    rw [hfields name hname, hp]
    exact (Table.get_erase _ _ _).trans (if_neg hname)

variable {effect : Effect}

theorem saveUnlocked_row (h : saveUnlocked db state = .ok (db', effect)) :
    RowOf db' state.conversation_id state := by
  obtain ⟨p, rfl, hp, -⟩ := saveUnlocked_ok h
  exact ⟨p, Table.get_set_self _ _ _, hp⟩

theorem saveUnlocked_within (hkeyed : Keyed db) (h : saveUnlocked db state = .ok (db', effect)) :
    Within [state.conversation_id] db db' := by
  obtain ⟨p, rfl, hp, -⟩ := saveUnlocked_ok h
  refine ⟨fun k hk => Table.get_set_ne _ _ (hk _ List.mem_cons_self), fun id q c hq hc => ?_⟩
  rw [Table.get_set] at hq
  split at hq
  · rename_i hid
    cases hq
    rw [hp] at hc
    have hname : (state.toWire.erase "id").get "conversation_id" =
        some (.str state.conversation_id) :=
      (Table.get_erase _ _ _).trans (if_neg (by decide))
    rw [hname] at hc
    cases hc
    exact (Prod.mk.inj hid).2.symm
  · exact hkeyed id q c hq hc

theorem delete_within (hkeyed : Keyed db) (conversation_id : String) :
    Within [conversation_id] db (collectionDelete db "conversations" conversation_id) := by
  refine ⟨fun k hk => ?_, fun id q c hq hc => ?_⟩
  · exact (Table.get_erase _ _ _).trans (if_neg (hk _ List.mem_cons_self))
  · rw [collectionDelete, Table.get_erase] at hq
    split at hq
    · cases hq
    · exact hkeyed id q c hq hc

theorem rename_within (hkeyed : Keyed db) {old new : String}
    (h : rename db old new = .ok (db', effect)) : Within [old, new] db db' := by
  rw [rename] at h
  split at h
  · cases h
    exact Within.refl hkeyed
  · obtain ⟨⟨⟩, -, h⟩ := bind_ok h
    obtain ⟨⟨⟩, -, h⟩ := bind_ok h
    obtain ⟨raw, -, h⟩ := bind_ok h
    cases raw with
    | none => cases h
    | some raw =>
      obtain ⟨taken, -, h⟩ := bind_ok h
      cases taken with
      | some _ => cases h
      | none =>
        obtain ⟨state, -, h⟩ := bind_ok h
        obtain ⟨⟨db₁, effect₁⟩, hsave, h⟩ := bind_ok h
        cases h
        have hsaved : Within [old, new] db db₁ := (saveUnlocked_within hkeyed hsave).mono (by simp)
        exact hsaved.trans ((delete_within hsaved.keyed old).mono (by simp))

theorem branch_within (hkeyed : Keyed db) {source new : String} {index : Option Int}
    (h : branch db source new index = .ok (db', effect)) : Within [source, new] db db' := by
  obtain ⟨⟨⟩, -, h⟩ := bind_ok h
  obtain ⟨⟨⟩, -, h⟩ := bind_ok h
  obtain ⟨raw, -, h⟩ := bind_ok h
  cases raw with
  | none => cases h
  | some raw =>
    obtain ⟨taken, -, h⟩ := bind_ok h
    cases taken with
    | some _ => cases h
    | none =>
      obtain ⟨state, -, h⟩ := bind_ok h
      dsimp only at h
      split at h
      · cases h
      · have hsaved := saveUnlocked_within hkeyed h
        exact hsaved.mono (by simp [ConversationState.branchOf])

theorem setArchived_within (hkeyed : Keyed db) {archived : Bool} {missing already : StoreError}
    (h : setArchived db archived missing already id = .ok (db', effect)) : Within [id] db db' := by
  obtain ⟨⟨⟩, -, h⟩ := bind_ok h
  obtain ⟨raw, hread, h⟩ := bind_ok h
  cases raw with
  | none => cases h
  | some raw =>
    obtain ⟨state, hstate, h⟩ := bind_ok h
    split at h
    · cases h
    · have hid : state.conversation_id = id := stateOfRaw_id hkeyed hread hstate
      have hsaved := saveUnlocked_within hkeyed h
      rw [← hid]
      exact hsaved

/-- **An operation keeps to the conversations that it locks.** -/
theorem runOp_within {sha : Sha256} (hkeyed : Keyed db) {op : LockedOp}
    (h : runOp sha db op.toOp = .ok (db', effect)) : Within op.ids db db' := by
  cases op with
  | save state =>
    obtain ⟨⟨⟩, -, h⟩ := bind_ok h
    exact saveUnlocked_within hkeyed h
  | rename old new => exact rename_within hkeyed h
  | branch source new index => exact branch_within hkeyed h
  | archive conversation_id => exact setArchived_within hkeyed h
  | unarchive conversation_id => exact setArchived_within hkeyed h
  | delete conversation_id =>
    obtain ⟨⟨⟩, -, h⟩ := bind_ok h
    obtain ⟨raw, -, h⟩ := bind_ok h
    cases raw with
    | none => cases h
    | some raw =>
      cases h
      exact delete_within hkeyed conversation_id

end

/-! ## The system -/

structure System where
  db : Records
  /-- The holder of each lock. -/
  lock : String → Option Nat
  /-- The call whose transaction is open. -/
  writer : Option Nat
  phase : Nat → Phase

namespace System

def start (db : Records) : System := ⟨db, fun _ => none, none, fun _ => .idle⟩

def move (s : System) (n : Nat) (p : Phase) : System :=
  { s with phase := Function.update s.phase n p }

/-- The next step of a call; a call that has to wait stays where it is. -/
def advance (s : System) (sha : Sha256) (n : Nat) : System :=
  match s.phase n with
  | .acquiring request _ [] => s.move n request.enter
  | .acquiring request held (id :: rest) =>
    if s.lock id = none then
      { s with lock := Function.update s.lock id (some n) }.move n
        (.acquiring request (id :: held) rest)
    else s
  | .reading args => s.move n (args.afterRead sha s.db)
  | .transacting work .waiting =>
    if s.writer = none then
      { s with writer := some n }.move n (.transacting work .opened)
    else s
  | .transacting work .opened =>
    match work.run sha s.db with
    | .error e => { s with writer := none }.move n (.leaving work.locks.reverse (.raised e))
    | .ok db => s.move n (.transacting work (.written db))
  | .transacting work (.written db) => { s with db, writer := none }.move n work.next
  | .rereading args state => s.move n (args.afterMark s.db state)
  | .leaving [] outcome => s.move n (.done outcome)
  | .leaving (id :: rest) outcome =>
    { s with lock := Function.update s.lock id none }.move n (.leaving rest outcome)
  | .idle | .calling _ _ _ | .observing _ | .done _ | .dead => s

/-- The current storage call of a call fails; an open transaction is rolled back. -/
def fail (s : System) (n : Nat) : System :=
  match s.phase n with
  | .acquiring _ held _ => s.move n (.leaving held (.raised .storage))
  | .reading args | .rereading args _ => s.move n (args.fails .storage)
  | .transacting work .waiting => s.move n (.leaving work.locks.reverse (.raised .storage))
  | .transacting work .opened | .transacting work (.written _) =>
    { s with writer := none }.move n (.leaving work.locks.reverse (.raised .storage))
  | .idle | .calling _ _ _ | .observing _ | .leaving _ _ | .done _ | .dead => s

/-- A call dies; its locks are free and its transaction is gone. -/
def crash (s : System) (n : Nat) : System :=
  { s with
    lock := fun id => if s.lock id = some n then none else s.lock id
    writer := if s.writer = some n then none else s.writer }.move n .dead

end System

inductive Input where
  | start (n : Nat) (request : Request)
  | advance (n : Nat)
  /-- The callback of an update ends. -/
  | callback (n : Nat) (result : Option ConversationState)
  /-- The observer of a commit ends, or there is none. -/
  | observe (n : Nat) (raises : Bool)
  | fail (n : Nat)
  | crash (n : Nat)

/-- One step of the system. -/
def step (sha : Sha256) (s : System) : Input → System × Unit
  | .start n request =>
    match s.phase n with
    | .idle => (s.move n request.start, ())
    | _ => (s, ())
  | .advance n => (s.advance sha n, ())
  | .callback n result =>
    match s.phase n with
    | .calling args original given => (s.move n (args.afterCallback original given result), ())
    | _ => (s, ())
  | .observe n raises =>
    match s.phase n with
    | .observing args =>
      let outcome := if raises = true then .raised .observer else .returned
      (s.move n (.leaving [args.conversation_id] outcome), ())
    | _ => (s, ())
  | .fail n => (s.fail n, ())
  | .crash n => (s.crash n, ())

end NuSelf.Conversation.Wire.Concurrent
