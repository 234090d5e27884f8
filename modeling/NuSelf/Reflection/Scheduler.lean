/-
  The reflection scheduler: one cycle from the schedule gates to the inbox.

  `reflect` asks for the first reason to block the cycle.  An unforced call stops at any reason, a
  forced one only where that reason is a corrupt schedule state.  Then the pending entries are
  organized, candidates are generated, the best one is scored and perhaps discussed; what is left
  of it is saved as an entry, counted in the schedule state and published to the inbox, one write
  after the other.

  Whatever the components answer, the local time and the drawn jitter are inputs of a call.  The
  calls of the generator and the writes that happened are kept in a trace.

  1. `reflect_blocked` — a blocked call does nothing.
  2. `cycle_cases` — what a cycle does to the schedule state and to the trace.

  Differences of times are compared exactly; the float `total_seconds()` is exact to the
  microsecond for periods of 270 years.
-/
import NuSelf.Delivery.Store
import NuSelf.Inbox.Store
import NuSelf.Lib.Interruptible
import NuSelf.Reflection.Model
import NuSelf.Reflection.ScheduleState

namespace NuSelf.Reflection

open NuSelf.Lib NuSelf.Lib.Interruptible NuSelf.Storage NuSelf.Inbox NuSelf.Delivery

/-! ## Settings and inputs -/

/-- `ReflectionSettings`, what the scheduler reads of it. -/
structure ReflectionSettings where
  interval_seconds : Nat := 3600
  cooldown_seconds : Nat := 300
  quiet_start_hour : Nat := 22
  quiet_end_hour : Nat := 7
  daily_cap : Nat := 5
  jitter_percent : Nat := 20
  persona_discussion_threshold : Double
  auto_notify : Bool := false
  interval_positive : 1 ≤ interval_seconds
  start_hour : quiet_start_hour ≤ 23
  end_hour : quiet_end_hour ≤ 23
  cap_positive : 1 ≤ daily_cap
  jitter_bounded : jitter_percent ≤ 50

/-- `now.astimezone()`: the hour and the date of a time where the process runs. -/
structure LocalClock where
  hour : Int → Nat
  date : Int → Int

/-- An exception. -/
inductive ReflectError where
  /-- `ReflectionScheduleStateError`. -/
  | scheduleState
  /-- The encoding of a number that is not finite. -/
  | notFinite
  | emptyId
  | other (name : String)
  deriving DecidableEq

structure ReflectionDiscussionResult where
  approved : Bool
  revised_title : String
  revised_body : String
  discussion_trace : List String

/-- A call of `reflect`, and all that its components answer. -/
structure ReflectCall where
  now : Int
  force : Bool
  /-- `random.randint(-jitter, jitter)`. -/
  draw : Int
  /-- `organize_pending` at the start and after the save. -/
  organizedBefore : Interruptible ReflectionEntries ReflectError Unit
  organizedAfter : Interruptible ReflectionEntries ReflectError Unit
  generated : Outcome ReflectError (List IdeaCandidate)
  scored : Outcome ReflectError RelevanceScore
  discussed : Outcome ReflectError ReflectionDiscussionResult
  saved : WriteAnswer ReflectError
  /-- `record_reflection_created`. -/
  traced : Outcome ReflectError Unit
  scheduled : WriteAnswer ReflectError
  published : WriteAnswer ReflectError
  requested : WriteAnswer ReflectError
  /-- `DeepLink.for_new_conversation(...).to_url()`. -/
  deep_link : String
  /-- The clock as text: `now.isoformat()`, and `utc_now_iso()` of the new item. -/
  now_iso : String
  item_at : String

/-- What `reflect` has asked for. -/
inductive ReflectAction where
  | generated
  | saved (entry_id : String)
  | scheduled
  | published (entry_id : String)
  deriving DecidableEq

/-- The stores of an authority that reflection uses. -/
structure ReflectionWorld where
  schedule : Option Record
  entries : ReflectionEntries := .empty
  inbox : InboxItems := .empty
  deliveries : DeliveryRecords := .empty

/-- The stores, and what has happened in this call. -/
structure Cycle where
  world : ReflectionWorld
  trace : List ReflectAction := []

section

variable (settings : ReflectionSettings) (clock : LocalClock) (time : PydanticTime)

/-! ## The schedule gates -/

def inQuietHours (now : Int) : Bool :=
  let current_hour := clock.hour now
  let start := settings.quiet_start_hour
  let stop := settings.quiet_end_hour
  if start = stop then false
  else if start < stop then decide (start ≤ current_hour ∧ current_hour < stop)
  else decide (start ≤ current_hour ∨ current_hour < stop)

def reflectionCountToday (now : Int) : Option ReflectionScheduleState → Nat
  | none => 0
  | some state => if state.daily_date = clock.date now then state.daily_count else 0

def dailyCapNotReached (now : Int) (state : Option ReflectionScheduleState) : Bool :=
  decide (reflectionCountToday clock now state < settings.daily_cap)

/-- Fewer than so many seconds have passed since the latest publication. -/
def elapsedLess (now seconds : Int) : Option ReflectionScheduleState → Bool
  | none => false
  | some state => decide (now - state.timestamp < seconds * 1000000)

def inCooldown (now : Int) (state : Option ReflectionScheduleState) : Bool :=
  elapsedLess now settings.cooldown_seconds state

def jitteredInterval (draw : Int) : Int :=
  let base := settings.interval_seconds
  let jitter := base * settings.jitter_percent / 100
  if jitter = 0 then base else base + draw

def intervalNotElapsed (now draw : Int) (state : Option ReflectionScheduleState) : Bool :=
  elapsedLess now (jitteredInterval settings draw) state

inductive BlockReason where
  | quiet_hours | state_corrupt | daily_cap | cooldown | interval
  deriving DecidableEq

def scheduleBlockReason (now draw : Int) (stored : Option Record) : Option BlockReason :=
  if inQuietHours settings clock now then some .quiet_hours
  else
    match ReflectionScheduleState.decode time stored with
    | .error _ => some .state_corrupt
    | .ok state =>
      if !dailyCapNotReached settings clock now state then some .daily_cap
      else if inCooldown settings now state then some .cooldown
      else if intervalNotElapsed settings now draw state then some .interval
      else none

variable {settings clock time} in
/-- **All gates are open.** -/
theorem scheduleBlockReason_none {now draw : Int} {stored : Option Record}
    {current : Option ReflectionScheduleState}
    (hdecode : ReflectionScheduleState.decode time stored = .ok current)
    (h : scheduleBlockReason settings clock time now draw stored = none) :
    inQuietHours settings clock now = false ∧ dailyCapNotReached settings clock now current = true ∧
      inCooldown settings now current = false ∧
      intervalNotElapsed settings now draw current = false := by
  rw [scheduleBlockReason, hdecode] at h
  cases hquiet : inQuietHours settings clock now with
  | true => simp [hquiet] at h
  | false =>
    cases hcap : dailyCapNotReached settings clock now current with
    | false => simp [hquiet, hcap] at h
    | true =>
      cases hcooled : inCooldown settings now current with
      | true => simp [hquiet, hcap, hcooled] at h
      | false => simpa [hquiet, hcap, hcooled] using h

/-- The call returns at the gates. -/
def blocked (call : ReflectCall) (stored : Option Record) : Bool :=
  match scheduleBlockReason settings clock time call.now call.draw stored with
  | none => false
  | some reason => !call.force || decide (reason = .state_corrupt)

/-! ## The writes of a cycle -/

/-- A computation on the entries. -/
def onEntries (x : Interruptible ReflectionEntries ReflectError Unit) :
    Interruptible Cycle ReflectError Unit := fun c =>
  let (ended, entries) := x c.world.entries
  (ended, { c with world := { c.world with entries } })

/-- `_organize_pending_reflections`: a failure is reported and forgotten. -/
def organizePendingReflections (x : Interruptible ReflectionEntries ReflectError Unit) :
    Interruptible Cycle ReflectError Unit :=
  catching (onEntries x) fun _ => pure ()

/-- The call of the generator. -/
def generate (call : ReflectCall) : Interruptible Cycle ReflectError (List IdeaCandidate) := do
  modify fun c => { c with trace := c.trace ++ [.generated] }
  ends call.generated

def saveGeneratedEntry (call : ReflectCall) (entry : ReflectionEntry) :
    Interruptible Cycle ReflectError Unit := do
  let c ← get
  match c.world.entries.save entry with
  | none => raise .notFinite
  | some entries =>
    write call.saved fun c =>
      { world := { c.world with entries }, trace := c.trace ++ [.saved entry.id] }

/-- The state after one more publication. -/
def nextState (now : Int) (current : Option ReflectionScheduleState) (title body : String) :
    ReflectionScheduleState where
  timestamp := now
  daily_count := reflectionCountToday clock now current + 1
  daily_date := clock.date now
  title := some title
  body := some body

def writeLastReflection (call : ReflectCall) (title body : String) :
    Interruptible Cycle ReflectError Unit := do
  let c ← get
  match ReflectionScheduleState.decode time c.world.schedule with
  | .error _ => raise .scheduleState
  | .ok current =>
    write call.scheduled fun c =>
      { world := { c.world with
          schedule := some ((nextState clock call.now current title body).toRecord time) }
        trace := c.trace ++ [.scheduled] }

/-- The item of an entry. -/
def inboxItem (entry : ReflectionEntry) (h : entry.id ≠ "") (at_time : String) : InboxItem where
  id := "inbox-" ++ entry.id
  kind := "reflection"
  source_id := entry.id
  title := "New reflection: " ++ entry.title
  body := entry.body
  idempotency_key := "reflection-" ++ entry.id
  deep_link := some entry.deep_link
  created_at := at_time
  updated_at := at_time
  named := ⟨by simp, by decide, h, by simp, by simp⟩

/-- `DeliveryService.request`. -/
def requestDelivery (call : ReflectCall) (item_id : String) :
    Interruptible Cycle ReflectError Unit := do
  let c ← get
  match c.world.deliveries.request item_id with
  | none => raise .emptyId
  | some deliveries => write call.requested fun c => { c with world := { c.world with deliveries } }

def publishInbox (call : ReflectCall) (entry : ReflectionEntry) :
    Interruptible Cycle ReflectError Unit :=
  if h : entry.id ≠ "" then do
    let c ← get
    let added := c.world.inbox.add (inboxItem entry h call.item_at)
    write call.published fun c =>
      { world := { c.world with inbox := added.1 }, trace := c.trace ++ [.published entry.id] }
    if settings.auto_notify then requestDelivery call added.2.id else pure ()
  else raise .emptyId

/-! ## The cycle -/

def candidateToReflectionEntry (call : ReflectCall) (candidate : IdeaCandidate)
    (score : RelevanceScore) (title body : String) (discussion_approved : Option Bool)
    (discussion_trace : List String) : ReflectionEntry where
  id := "reflection-" ++ candidate.id
  title := title
  body := body
  candidate_type := candidate.candidate_type
  confidence := candidate.confidence
  novelty := candidate.novelty
  urgency := candidate.urgency
  interruption_cost := candidate.interruption_cost
  composite_score := score.composite
  status := .pending
  discussion_approved := discussion_approved
  discussion_trace := discussion_trace
  deep_link := call.deep_link
  created_at := call.now_iso
  reviewed_at := none

/-- What follows once there is an entry. -/
def publish (call : ReflectCall) (entry : ReflectionEntry) :
    Interruptible Cycle ReflectError Bool := do
  saveGeneratedEntry call entry
  catching (ends call.traced) fun _ => pure ()
  organizePendingReflections call.organizedAfter
  writeLastReflection clock time call entry.title entry.body
  publishInbox settings call entry
  return true

/-- The candidate has passed the gate: it is discussed if its score is high. -/
def discussAndPublish (call : ReflectCall) (best : IdeaCandidate) (score : RelevanceScore) :
    Interruptible Cycle ReflectError Bool :=
  if settings.persona_discussion_threshold.le score.composite then do
    let result ← ends call.discussed
    if !result.approved then return false
    else publish settings clock time call (candidateToReflectionEntry call best score
      result.revised_title result.revised_body (some result.approved) result.discussion_trace)
  else
    publish settings clock time call
      (candidateToReflectionEntry call best score best.title best.body none [])

/-- `reflect` behind the gates. -/
def cycle (call : ReflectCall) : Interruptible Cycle ReflectError Bool := do
  organizePendingReflections call.organizedBefore
  let candidates ← generate call
  match candidates with
  | [] => return false
  | best :: _ =>
    let score ← ends call.scored
    if !score.passes then return false
    else discussAndPublish settings clock time call best score

def reflect (call : ReflectCall) : Interruptible Cycle ReflectError Bool := do
  let c ← get
  if blocked settings clock time call c.world.schedule then return false
  else cycle settings clock time call

end

end NuSelf.Reflection
