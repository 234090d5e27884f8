/-
  Chat requests through the daemon scheduler.

  `DaemonState.run_chat` admits one task per request and waits for its future.  It has two locked
  sections, the health snapshot and the submission, and any other section may run between them;
  so a call that has seen a running scheduler is kept in `callers` until it submits.  The other
  submitters of the daemon (periodic scans, memory curation, history compression, reason exports)
  share the scheduler and its one table of identities.

  The identity of a chat task is glued from two free texts, `chat.turn:{conversation}:{turn}`, and
  says nothing about the message.  So a request can be answered by the future of another one:

  1. `work_identity_ne` — no other task of the daemon has the identity of a chat task;
  2. `chatIdentity_eq_iff` — two chat identities agree exactly when the pairs do or the cut moves;
  3. `chat_coalescing_iff` — a run answers every request faithfully exactly when no request meets
     an admitted one of its key with other content.
-/
import NuSelf.Daemon.Scheduler
import NuSelf.Feature.Protocol
import NuSelf.Lib.Run

namespace NuSelf.Daemon

open NuSelf.Lib NuSelf.Feature

/-! ## Requests and tasks -/

/-- `ChatRequestPayload`, with what its decoder lets through: any message, ids with a visible
    character.  A request without a conversation id talks to `default`. -/
@[ext] structure ChatRequest where
  message : String
  conversation_id : String := "default"
  turn_id : Option String := none
  effect_resolution : Option ToolEffectResolution := none
  conversation_id_nonblank : blank conversation_id = false
  turn_id_nonblank : ∀ t, turn_id = some t → blank t = false

instance : DecidableEq ChatRequest := fun _ _ => decidable_of_iff _ ChatRequest.ext_iff.symm

structure ChatTaskPayload where
  message : String
  conversation_id : String
  turn_id : Option String
  effect_resolution : Option ToolEffectResolution
  deriving DecidableEq

/-- The payloads of the daemon's tasks. -/
inductive TaskPayload where
  | none
  | chat (payload : ChatTaskPayload)
  | text (value : String)
  | job (job_id resource_id attempt : String)
  deriving DecidableEq

/-- One call of `run_chat`; `uuid` is the `uuid4().hex` it draws when the request has no turn. -/
structure ChatCall where
  request : ChatRequest
  uuid : String
  deriving DecidableEq

namespace ChatCall

/-- What stands for the turn in the identity. -/
def turnPart (call : ChatCall) : String := call.request.turn_id.getD call.uuid

def payload (call : ChatCall) : ChatTaskPayload where
  message := call.request.message
  conversation_id := call.request.conversation_id
  turn_id := call.request.turn_id
  effect_resolution := call.request.effect_resolution

/-- `f"chat.turn:{conversation_id}:{turn_id}"`. -/
def identity (call : ChatCall) : String :=
  "chat.turn:" ++ joinKey ':' call.request.conversation_id call.turnPart

def task (call : ChatCall) : DaemonTask TaskPayload where
  kind := "chat.turn"
  identity := call.identity
  resource := "conversation:" ++ call.request.conversation_id
  payload := .chat call.payload
  priority := 10
  kind_nonblank := by decide
  identity_nonblank := not_blank_append (by decide) _
  resource_nonblank := not_blank_append (by decide) _

end ChatCall

/-- The recurring responsibilities of `start_background_tasks`. -/
inductive PeriodicKind where
  | memoryScan | conversationScan | reflectionCheck | reasonCheck | deliveryRun
  deriving DecidableEq, Repr

def PeriodicKind.name : PeriodicKind → String
  | .memoryScan => "memory.scan"
  | .conversationScan => "conversation.scan"
  | .reflectionCheck => "reflection.check"
  | .reasonCheck => "reason.check"
  | .deliveryRun => "delivery.run"

theorem PeriodicKind.name_nonblank (k : PeriodicKind) : blank k.name = false := by
  cases k <;> decide

/-- Everything else the daemon submits. -/
inductive DaemonWork where
  | periodic (kind : PeriodicKind) (interval : Rat)
  | memoryCurate (observation_id : String)
  | conversationCompress (conversation_id : String)
  | reasonExport (job_id resource_id attempt : String) (delay_seconds : Rat)
  deriving DecidableEq

namespace DaemonWork

def task : DaemonWork → DaemonTask TaskPayload
  | .periodic kind _ =>
    { kind := kind.name, identity := "periodic:" ++ kind.name,
      resource := "schedule:" ++ kind.name, payload := .none, priority := 100
      kind_nonblank := kind.name_nonblank
      identity_nonblank := not_blank_append (by decide) _
      resource_nonblank := not_blank_append (by decide) _ }
  | .memoryCurate observation_id =>
    { kind := "memory.curate", identity := "memory.curate:" ++ observation_id,
      resource := "memory-observation:" ++ observation_id, payload := .text observation_id,
      priority := 100
      kind_nonblank := by decide
      identity_nonblank := not_blank_append (by decide) _
      resource_nonblank := not_blank_append (by decide) _ }
  | .conversationCompress conversation_id =>
    { kind := "conversation.compress", identity := "conversation.compress:" ++ conversation_id,
      resource := "conversation:" ++ conversation_id, payload := .text conversation_id,
      priority := 120
      kind_nonblank := by decide
      identity_nonblank := not_blank_append (by decide) _
      resource_nonblank := not_blank_append (by decide) _ }
  | .reasonExport job_id resource_id attempt _ =>
    { kind := "reason.export",
      identity := "reason.export:" ++ joinKey ':' job_id (joinKey ':' resource_id attempt),
      resource := "reason:" ++ resource_id, payload := .job job_id resource_id attempt,
      priority := 50
      kind_nonblank := by decide
      identity_nonblank := not_blank_append (by decide) _
      resource_nonblank := not_blank_append (by decide) _ }

def delay_seconds : DaemonWork → Rat
  | .periodic _ interval => interval
  | .reasonExport _ _ _ delay_seconds => delay_seconds
  | _ => 0

def interval_seconds : DaemonWork → Option Rat
  | .periodic _ interval => some interval
  | _ => none

end DaemonWork

def daemonTaskKinds : List String :=
  ["memory.scan", "memory.curate", "conversation.scan", "chat.turn", "conversation.compress",
    "reflection.check", "reason.check", "delivery.run", "reason.export"]

/-! ## The daemon, section by section -/

variable {ρ : Type}

/-- The scheduler, and the `run_chat` calls between their two sections. -/
structure DaemonState (ρ : Type) where
  scheduler : DaemonScheduler TaskPayload ρ
  callers : List ChatCall

def DaemonState.new (max_concurrency queue_capacity : Nat) : DaemonState ρ where
  scheduler := .new daemonTaskKinds max_concurrency queue_capacity
  callers := []

/-- One locked section, with what it reads from outside. -/
inductive DaemonInput (ρ : Type) where
  | snapshot (call : ChatCall)
  | submitChat (call : ChatCall) (now : Rat)
  | submitWork (work : DaemonWork) (now : Rat)
  | start
  | dispatch (now : Rat)
  | complete (completion : Nat) (executed : Except String ρ) (now : Rat)
  | beginShutdown (cancel_pending : Bool)
  | endShutdown

inductive DaemonOutput where
  | silent
  /-- `DaemonUnavailableError`. -/
  | unavailable
  | refused (error : SchedulerError)
  /-- The future the caller waits for. -/
  | future (completion : Nat)
  deriving DecidableEq

/-- One section.  A call that has not seen a running scheduler does not submit, and a future that
    is not in flight does not complete. -/
def daemonStep (s : DaemonState ρ) : DaemonInput ρ → DaemonState ρ × DaemonOutput
  | .snapshot call =>
    if s.scheduler.isRunning = true then ({ s with callers := call :: s.callers }, .silent)
    else (s, .unavailable)
  | .submitChat call now =>
    if call ∈ s.callers then
      match s.scheduler.submit call.task 0 none now with
      | .error error => ({ s with callers := s.callers.erase call }, .refused error)
      | .ok (scheduler, completion) =>
        ({ scheduler := scheduler, callers := s.callers.erase call }, .future completion)
    else (s, .silent)
  | .submitWork work now =>
    match s.scheduler.submit work.task work.delay_seconds work.interval_seconds now with
    | .error error => (s, .refused error)
    | .ok (scheduler, completion) => ({ s with scheduler := scheduler }, .future completion)
  | .start =>
    match s.scheduler.start with
    | .error error => (s, .refused error)
    | .ok scheduler => ({ s with scheduler := scheduler }, .silent)
  | .dispatch now => ({ s with scheduler := s.scheduler.dispatch now }, .silent)
  | .complete completion executed now =>
    match s.scheduler.in_flight.find? fun q => decide (q.completion = completion) with
    | none => (s, .silent)
    | some q => ({ s with scheduler := s.scheduler.complete q executed now }, .silent)
  | .beginShutdown cancel_pending =>
    ({ s with scheduler := s.scheduler.beginShutdown cancel_pending }, .silent)
  | .endShutdown => ({ s with scheduler := s.scheduler.endShutdown }, .silent)

/-! ## Identities -/

/-- The pairs of two calls that the identity does not tell apart: equal ones, and those where a
    `:` inside a conversation id lets the cut move. -/
def SameKey (a b : ChatCall) : Prop :=
  (a.request.conversation_id = b.request.conversation_id ∧ a.turnPart = b.turnPart) ∨
    CutMoved ':' a.request.conversation_id a.turnPart b.request.conversation_id b.turnPart ∨
    CutMoved ':' b.request.conversation_id b.turnPart a.request.conversation_id a.turnPart

theorem chatIdentity_eq_iff {a b : ChatCall} : a.identity = b.identity ↔ SameKey a b := by
  rw [ChatCall.identity, ChatCall.identity, append_right_cancel_text, joinKey_eq_iff]
  rfl

/-- The first character of an identity, or the third where the firsts agree, tells the daemon's
    other tasks from its chat tasks. -/
theorem work_identity_ne (work : DaemonWork) (call : ChatCall) :
    work.task.identity ≠ call.task.identity := by
  intro h
  have hlist := congrArg (fun s => s.toList.take 2) h
  cases work <;>
    simp [DaemonWork.task, ChatCall.task, ChatCall.identity, String.toList_append] at hlist

/-! ## What the scheduler holds -/

/-- A task that a submitter of the daemon has built. -/
def Built (task : DaemonTask TaskPayload) : Prop :=
  (∃ call : ChatCall, task = call.task) ∨ ∃ work : DaemonWork, task = work.task

/-- A built task with the identity of a chat call is the task of a chat call. -/
theorem Built.of_identity {task : DaemonTask TaskPayload} (h : Built task) {call : ChatCall}
    (hid : task.identity = call.task.identity) : ∃ other : ChatCall, task = other.task := by
  rcases h with hchat | ⟨work, rfl⟩
  · exact hchat
  · exact absurd hid (work_identity_ne work call)

/-- The invariant of the daemon: admission is sound, every admitted task was built by a submitter,
    and every task kind has its handler. -/
structure DaemonInv (s : DaemonState ρ) : Prop where
  admitted : s.scheduler.Admitted
  built : ∀ q ∈ s.scheduler.live, Built q.task
  kinds : s.scheduler.handlers = daemonTaskKinds

theorem daemonInv_new (m c : Nat) : DaemonInv (DaemonState.new m c : DaemonState ρ) where
  admitted := DaemonScheduler.admitted_new _ m c
  built := fun _ hq => nomatch hq
  kinds := rfl

theorem DaemonInv.change {s : DaemonState ρ} (h : DaemonInv s)
    {may : DaemonTask TaskPayload → Prop} (hmay : ∀ t, may t → Built t)
    {scheduler : DaemonScheduler TaskPayload ρ}
    (hc : DaemonScheduler.Change may s.scheduler scheduler) (callers : List ChatCall) :
    DaemonInv ({ scheduler := scheduler, callers := callers } : DaemonState ρ) where
  admitted := h.admitted.change hc
  built := hc.forall_task hmay h.built
  kinds := hc.handlers_eq.trans h.kinds

theorem daemonInv_step (s : DaemonState ρ) (i : DaemonInput ρ) (h : DaemonInv s) :
    DaemonInv (daemonStep s i).1 := by
  have hnone : ∀ t : DaemonTask TaskPayload, False → Built t := fun t ht => ht.elim
  cases i with
  | snapshot call =>
    simp only [daemonStep]
    split
    · exact ⟨h.admitted, h.built, h.kinds⟩
    · exact h
  | submitChat call now =>
    simp only [daemonStep]
    split
    · split
      · exact ⟨h.admitted, h.built, h.kinds⟩
      · rename_i scheduler completion hs
        exact h.change (fun t ht => Or.inl ⟨call, ht⟩) (DaemonScheduler.change_submit hs) _
    · exact h
  | submitWork work now =>
    simp only [daemonStep]
    split
    · exact h
    · rename_i scheduler completion hs
      exact h.change (fun t ht => Or.inr ⟨work, ht⟩) (DaemonScheduler.change_submit hs) _
  | start =>
    simp only [daemonStep]
    split
    · exact h
    · rename_i scheduler hs
      exact h.change hnone (DaemonScheduler.change_start hs) _
  | dispatch now => exact h.change hnone (DaemonScheduler.change_dispatch _ now) _
  | complete completion executed now =>
    simp only [daemonStep]
    split
    · exact h
    · rename_i q hq
      have hmem : q ∈ s.scheduler.in_flight := List.mem_of_find?_eq_some hq
      -- the next round of a periodic task is the task that was built before
      have hbuilt : ∀ t, t = q.task → Built t := by
        rintro t rfl
        exact h.built q (List.mem_append_right _ hmem)
      exact h.change hbuilt (DaemonScheduler.change_complete hmem executed now) _
  | beginShutdown cancel_pending =>
    exact h.change hnone (DaemonScheduler.change_beginShutdown _ cancel_pending) _
  | endShutdown => exact h.change hnone (DaemonScheduler.change_endShutdown _) _

/-! ## Faithful coalescing -/

/-- The answered request has what the request that made the task has: conversation id, turn id,
    message and effect resolution. -/
def FaithfulCoalescing (e : Step (DaemonState ρ) (DaemonInput ρ) DaemonOutput) : Prop :=
  match e.input, e.output with
  | .submitChat call _, .future completion =>
    ∀ q ∈ e.before.scheduler.live, q.completion = completion → q.task.payload = .chat call.payload
  | _, _ => True

/-- No chat task of the call's key that is waiting or in flight has other content. -/
def KeyAgrees (s : DaemonScheduler TaskPayload ρ) (call : ChatCall) : Prop :=
  ∀ other : ChatCall, (∃ q ∈ s.live, q.task = other.task) → SameKey other call →
    other.payload = call.payload

/-- The condition on a section: a chat call that submits while admission is open meets no admitted
    chat task of its key with other content. -/
def CoalescesSafely (s : DaemonState ρ) : DaemonInput ρ → Prop
  | .submitChat call _ =>
    call ∈ s.callers → s.scheduler.accepting = true → KeyAgrees s.scheduler call
  | _ => True

theorem faithfulCoalescing_iff (e : Step (DaemonState ρ) (DaemonInput ρ) DaemonOutput)
    (he : e.Of daemonStep) (hinv : DaemonInv e.before) :
    FaithfulCoalescing e ↔ CoalescesSafely e.before e.input := by
  obtain ⟨s, i, o, s'⟩ := e
  have hstep : daemonStep s i = (s', o) := he
  cases i with
  | submitChat call now =>
    have hout : (daemonStep s (.submitChat call now)).2 = o := by rw [hstep]
    simp only [daemonStep] at hout
    show FaithfulCoalescing ⟨s, .submitChat call now, o, s'⟩ ↔
      (call ∈ s.callers → s.scheduler.accepting = true → KeyAgrees s.scheduler call)
    split at hout
    · rename_i hcaller
      constructor
      · -- an admitted task of the key answers the call, so its content is the call's
        rintro hfaithful - hopen other ⟨q, hq, hqt⟩ hkey
        have hid : q.task.identity = call.task.identity := by
          rw [hqt]
          exact chatIdentity_eq_iff.mpr hkey
        have hget := (hinv.admitted.active_iff _ q).mpr ⟨hq, hid⟩
        have hkind : call.task.kind ∈ s.scheduler.handlers := by
          rw [hinv.kinds]
          show "chat.turn" ∈ daemonTaskKinds
          decide
        rw [DaemonScheduler.submit_coalesces now hopen hkind hget] at hout
        cases hout
        have hpay := hfaithful q hq rfl
        rw [hqt] at hpay
        exact TaskPayload.chat.inj hpay
      · intro hsafe
        cases hs : s.scheduler.submit call.task 0 none now with
        | error error =>
          rw [hs] at hout
          cases hout
          trivial
        | ok r =>
          obtain ⟨scheduler, completion⟩ := r
          rw [hs] at hout
          cases hout
          intro q hq hqc
          have hid := (DaemonScheduler.submit_future_iff hinv.admitted hs hq).mp hqc
          obtain ⟨other, hother⟩ := (hinv.built q hq).of_identity hid
          have hopen : s.scheduler.accepting = true := DaemonScheduler.submit_accepting hs
          have hkey : SameKey other call := chatIdentity_eq_iff.mp (by rw [hother] at hid; exact hid)
          have hpay := hsafe hcaller hopen other ⟨q, hq, hother⟩ hkey
          show q.task.payload = .chat call.payload
          rw [hother, ← hpay]
          rfl
    · rename_i hcaller
      cases hout
      exact ⟨fun _ h => absurd h hcaller, fun _ => trivial⟩
  | snapshot | submitWork | start | dispatch | complete | beginShutdown | endShutdown =>
    exact ⟨fun _ => trivial, fun _ => trivial⟩

/-- **When chat requests coalesce faithfully**: in every run of the daemon, every request that is
    answered by the future of an admitted task has that task's conversation, turn, message and
    resolution, exactly when no submitting request ever meets an admitted chat task of its key
    with other content. -/
theorem chat_coalescing_iff (max_concurrency queue_capacity : Nat)
    (inputs : List (DaemonInput ρ)) :
    (∀ e ∈ run daemonStep (DaemonState.new max_concurrency queue_capacity) inputs,
      FaithfulCoalescing e) ↔
    ∀ e ∈ run daemonStep (DaemonState.new max_concurrency queue_capacity) inputs,
      CoalescesSafely e.before e.input :=
  run_forall_iff (fun s i h _ => daemonInv_step s i h) faithfulCoalescing_iff _ inputs
    (daemonInv_new _ _)

/-- Turn `c` of conversation `a:b`. -/
def callAB : ChatCall where
  request :=
    { message := "hello", conversation_id := "a:b", turn_id := some "c"
      conversation_id_nonblank := by decide
      turn_id_nonblank := by simpa using (by decide : blank "c" = false) }
  uuid := ""

/-- Turn `b:c` of conversation `a`. -/
def callA : ChatCall where
  request :=
    { message := "bye", conversation_id := "a", turn_id := some "b:c"
      conversation_id_nonblank := by decide
      turn_id_nonblank := by simpa using (by decide : blank "b:c" = false) }
  uuid := ""

/-- Two conversations share an identity: the second request gets the first one's future. -/
theorem chat_coalescing_crosses :
    ¬ ∀ inputs : List (DaemonInput String), ∀ e ∈ run daemonStep (DaemonState.new 4 256) inputs,
      FaithfulCoalescing e := by
  intro h
  have hlast := h [.start, .snapshot callAB, .snapshot callA, .submitChat callAB 0,
    .submitChat callA 0] _ (List.mem_of_getLast? rfl)
  have hpay := hlast _ List.mem_cons_self rfl
  exact absurd hpay (by decide)

end NuSelf.Daemon
