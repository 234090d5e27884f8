/-
  Features and their effects: declaration, policy validation, and one invocation.

  A feature is a function with an immutable specification.  Its effects are bound to the runtime
  and run around the function in the order of three priorities: `before` (approval asks for
  consent, observation publishes the start), then the function, then `after` (audit writes,
  observation publishes the completion) or, on an exception, `failed`.

  `invoke` is modelled with everything it does to its surroundings as a trace of `Action`s; what
  the surroundings answer (the effect port, the publisher, the audit sink, the function) are
  arguments, so a theorem over all of them is a theorem over all their behaviours.  The effect
  declarations are open in the program: an effect of a class the repository does not define is a
  `ForeignEffect`, whose hooks may raise.

  The main result is `invoke_sound`, assembled from
  1. `before_gates` — the before hooks publish the start only when every approval was granted, and
     return only then;
  2. `afterHook_counts`, `failedHook_counts` — the hooks after the function publish one outcome;
  3. `invoke_result` — no failure of a publisher or of the audit sink reaches the caller.
-/
import Mathlib.Data.List.Sort
import NuSelf.Feature.Protocol
import NuSelf.Lib.Json
import NuSelf.Lib.Trace

namespace NuSelf.Feature

open NuSelf.Lib

/-! ## Declarations -/

inductive Execution where
  | readonly | mutating
  deriving DecidableEq, Repr

def Execution.text : Execution → String
  | .readonly => "readonly"
  | .mutating => "mutating"

/-- What a call can raise.  `exception` and `baseException` are the classes the repository does not
    name, the second those that `except Exception` lets through. -/
inductive Raised where
  | effectRequired (request : ToolEffectRequest)
  | rejected (text : String)
  | typeError (text : String)
  | valueError (text : String)
  | exception (type_name : String)
  | baseException (type_name : String)
  deriving DecidableEq

/-- Whether `except Exception` catches it. -/
def Raised.isException : Raised → Bool
  | .baseException _ => false
  | _ => true

/-- `type(error).__name__`. -/
def Raised.typeName : Raised → String
  | .effectRequired _ => "ToolEffectRequired"
  | .rejected _ => "FeatureEffectRejected"
  | .typeError _ => "TypeError"
  | .valueError _ => "ValueError"
  | .exception type_name => type_name
  | .baseException type_name => type_name

variable {α R : Type}

/-- `ApprovalEffect` for a feature with arguments `α`; the summary builder may raise. -/
structure ApprovalEffect (α : Type) where
  action : String
  resource : String
  risk : ApprovalRisk := .reversible
  summary : Option (α → Except Raised String) := none
  action_nonblank : blank action = false
  resource_nonblank : blank resource = false

/-- An effect of another class: its cardinality, its execution constraint (the text of the
    `ValueError`), its priorities, and what its hooks raise. -/
structure ForeignEffect where
  cardinality_key : Option String
  validate_execution : Option Execution → Option String
  before_priority : Int := 100
  after_priority : Int := 100
  failure_priority : Int := 100
  before : Option Raised := none
  after : Option Raised := none
  failed : Option Raised := none

inductive FeatureEffect (α : Type) where
  | approval (declaration : ApprovalEffect α)
  | observation
  | audit (event : String) (event_nonblank : blank event = false)
  | foreign (effect : ForeignEffect)

namespace FeatureEffect

def cardinality_key : FeatureEffect α → Option String
  | .approval _ => some "interaction.approval"
  | .observation => some "projection.observation"
  | .audit _ _ => some "projection.audit"
  | .foreign effect => effect.cardinality_key

def before_priority : FeatureEffect α → Int
  | .approval _ => 10
  | .observation => 20
  | .audit _ _ => 100
  | .foreign effect => effect.before_priority

def after_priority : FeatureEffect α → Int
  | .approval _ => 100
  | .observation => 20
  | .audit _ _ => 10
  | .foreign effect => effect.after_priority

def failure_priority : FeatureEffect α → Int
  | .approval _ => 100
  | .observation => 20
  | .audit _ _ => 100
  | .foreign effect => effect.failure_priority

/-- `validate_execution`, for the effects that constrain the execution. -/
def validate_execution : FeatureEffect α → Option Execution → Option String
  | .approval _, execution =>
    if execution = some .readonly then some "readonly feature cannot require confirmation" else none
  | .observation, _ => none
  | .audit _ _, _ => none
  | .foreign effect, execution => effect.validate_execution execution

def isObservation : FeatureEffect α → Bool
  | .observation => true
  | _ => false

end FeatureEffect

/-- `FeatureSpec`; `tool` is the name of the tool policy, when there is one. -/
structure FeatureSpec (α : Type) where
  tool : Option (Option String) := none
  component : Option String := none
  execution : Option Execution := none
  effects : List (FeatureEffect α) := []

inductive PolicyError where
  | valueError (text : String)
  | conflict (text : String)
  deriving DecidableEq

/-- `_validate(spec)`. -/
def FeatureSpec.validate (spec : FeatureSpec α) : Except PolicyError Unit :=
  if spec.component.any blank = true then
    .error (.valueError "feature component must not be blank")
  else if ¬ (spec.effects.filterMap FeatureEffect.cardinality_key).Nodup then
    .error (.conflict "unique feature effects may be declared only once")
  else
    match spec.effects.findSome? fun declaration =>
      declaration.validate_execution spec.execution with
    | some text => .error (.conflict text)
    | none => .ok ()

/-- A callable with a specification that the policy validation has accepted. -/
structure FeatureFunction (α R : Type) where
  name : String
  function : α → Except Raised R
  spec : FeatureSpec α
  valid : spec.validate = .ok ()

theorem FeatureFunction.cardinality (feature : FeatureFunction α R) :
    (feature.spec.effects.filterMap FeatureEffect.cardinality_key).Nodup := by
  have h := feature.valid
  unfold FeatureSpec.validate at h
  split at h
  · cases h
  split at h
  · cases h
  · rename_i hnd
    exact not_not.mp hnd

/-! ## The runtime of one invocation -/

/-- A runtime log event as it is handed to the publisher, without its duration. -/
structure FeatureEvent where
  producer : String
  name : String
  message : String
  level : String
  status : String
  metadata : List (String × Json)
  deriving DecidableEq

structure FeatureAuditRecord where
  component : String
  event : String
  operation : String
  outcome : String
  deriving DecidableEq

/-- What an invocation does to its surroundings. -/
inductive Action where
  /-- The port is asked to resolve a request. -/
  | ask (request : ApprovalEffectRequest)
  /-- The port returned. -/
  | resolved (resolution : ToolEffectResolution)
  /-- An event is handed to the publisher, which delivers it or fails. -/
  | publish (event : FeatureEvent) (delivered : Bool)
  /-- A record is handed to the audit sink, which writes it or fails. -/
  | audit (record : FeatureAuditRecord) (written : Bool)
  /-- The feature's function is called. -/
  | call
  deriving DecidableEq

def Action.isCall : Action → Bool
  | .call => true
  | _ => false

def Action.isAudit : Action → Bool
  | .audit _ _ => true
  | _ => false

/-- Whether the action publishes an event of this name. -/
def Action.isEvent (name : String) : Action → Bool
  | .publish event _ => event.name == name
  | _ => false

def Action.isPublish : Action → Bool
  | .publish _ _ => true
  | _ => false

/-- What the port does with a request: how often it reports it as requested, and how it ends. -/
structure PortOutcome where
  requested : Nat
  result : Except Raised ToolEffectResolution

/-- `EffectEnvironment`.  The publisher answers by the number of the attempt; the audit sink is
    used at most once. -/
structure EffectEnvironment where
  producer : String
  effect_port : ApprovalEffectRequest → PortOutcome
  events : Option (Nat → Except String Unit)
  audits : Option (Except String Unit)
  producer_nonblank : blank producer = false

/-- `RejectUnavailableEffectPort.resolve`. -/
def rejectUnavailable (request : ApprovalEffectRequest) : PortOutcome where
  requested := 1
  result := .error (.effectRequired (.approval request))

/-- `FeatureInvocation`, without its clock. -/
structure FeatureInvocation (α : Type) where
  component : String
  operation : String
  execution : Option Execution
  args : α

/-- `a or b` on texts: the empty text is false. -/
def textOr (a : Option String) (b : String) : String :=
  match a with
  | some text => if text = "" then b else text
  | none => b

/-- The invocation that `invoke` builds. -/
def FeatureFunction.invocation (feature : FeatureFunction α R) (args : α) : FeatureInvocation α where
  component := textOr feature.spec.component "runtime"
  operation := textOr feature.spec.tool.join feature.name
  execution := feature.spec.execution
  args := args

variable (env : EffectEnvironment) (inv : FeatureInvocation α)

/-- How many events were handed to the publisher. -/
def attempts (t : List Action) : Nat := t.countP Action.isPublish

/-- `events.publish(...)` under `except Exception: return`: what it adds to the trace. -/
def publish (event : FeatureEvent) (t : List Action) : List Action :=
  match env.events with
  | none => []
  | some deliver =>
    match deliver (attempts t) with
    | .ok () => [.publish event true]
    | .error _ => [.publish event false]

/-! ## The bound effects -/

/-- The request of this invocation. -/
def approvalRequest (declaration : ApprovalEffect α) : Except Raised ApprovalEffectRequest :=
  let summary : Except Raised String := match declaration.summary with
    | some build => build inv.args
    | none => .ok (declaration.action ++ " " ++ declaration.resource)
  match summary with
  | .error error => .error error
  | .ok summary =>
    match ApprovalEffectRequest.new inv.component inv.operation declaration.action
      declaration.resource declaration.risk summary with
    | .error text => .error (.valueError text)
    | .ok request => .ok request

/-- `_BoundApprovalEffect._publish`. -/
def approvalEvent (frontend_event status : String) (fields : List (String × Json)) :
    FeatureEvent where
  producer := env.producer
  name := "tool.activity"
  message := (if frontend_event = "approval_requested" then "Approval requested"
    else "Approval decided") ++ " for " ++ inv.operation
  level := "info"
  status := status
  metadata := [("frontend_event", .str frontend_event), ("service_component", .str inv.component),
    ("operation", .str inv.operation)] ++ fields

def requestedEvent (request : ApprovalEffectRequest) : FeatureEvent :=
  approvalEvent env inv "approval_requested" "pending"
    [("action", .str request.action), ("resource", .str request.resource),
      ("risk", .str request.risk.text), ("summary", .str request.summary)]

def decidedEvent (decision : ApprovalEffectDecision) : FeatureEvent :=
  approvalEvent env inv "approval_decided" "decided"
    [("approved", .bool decision.approved),
      ("approver", match decision.approver with | some name => .str name | none => .null),
      ("input_kind", .str decision.input_kind.text)]

/-- The port calls `on_requested` so many times. -/
def publishTimes (event : FeatureEvent) : Nat → List Action → List Action
  | 0, t => t
  | n + 1, t => publishTimes event n (t ++ publish env event t)

/-- `_BoundApprovalEffect.before`: the trace after it and what it raises. -/
def approvalBefore (declaration : ApprovalEffect α) (t : List Action) :
    List Action × Option Raised :=
  match approvalRequest inv declaration with
  | .error error => (t, some error)
  | .ok request =>
    let t := publishTimes env (requestedEvent env inv request) (env.effect_port request).requested
      (t ++ [.ask request])
    match (env.effect_port request).result with
    | .error error => (t, some error)
    | .ok resolution =>
      let t := t ++ [.resolved resolution]
      if resolution.request ≠ .approval request then (t, some (.effectRequired (.approval request)))
      else
        match resolution with
        | .foreign _ _ =>
          (t, some (.typeError "approval request received an invalid resolution"))
        | .approval _ decision =>
          let t := t ++ publish env (decidedEvent env inv decision) t
          if decision.approved = false ∧ decision.input_kind = .unavailable then
            (t, some (.effectRequired (.approval request)))
          else if decision.approved = false then
            (t, some (.rejected "Action was not approved; no changes were made."))
          else (t, none)

/-- The metadata both observation events carry. -/
def lifecycleMetadata (error : Option Raised) : List (String × Json) :=
  [("service_component", .str inv.component), ("operation", .str inv.operation),
    ("execution", match inv.execution with | some e => .str e.text | none => .null)] ++
    match error with
    | some error => [("error_type", .str error.typeName)]
    | none => []

/-- `_BoundObservationEffect._publish`. -/
def lifecycleEvent (outcome : String) (error : Option Raised) : FeatureEvent where
  producer := env.producer
  name := "feature." ++ outcome
  message := "feature " ++ outcome ++ ": " ++ inv.operation
  level := if error.isSome then "error" else "info"
  status := outcome
  metadata := lifecycleMetadata inv error

/-- `_BoundObservationEffect._publish_outcome`. -/
def outcomeEvent (outcome : String) (error : Option Raised) : FeatureEvent where
  producer := env.producer
  name := "tool.activity"
  message := "Tool outcome observed"
  level := if error.isSome then "error" else "info"
  status := outcome
  metadata := lifecycleMetadata inv error

/-- `_publish` and then `_publish_outcome`. -/
def publishOutcome (outcome : String) (error : Option Raised) (t : List Action) : List Action :=
  let t := t ++ publish env (lifecycleEvent env inv outcome error) t
  t ++ publish env (outcomeEvent env inv outcome error) t

/-- `_BoundAuditEffect.after` under `except Exception: return`. -/
def auditAfter (event : String) : List Action :=
  let record : FeatureAuditRecord :=
    { component := inv.component, event := event, operation := inv.operation,
      outcome := "completed" }
  match env.audits with
  | none => []
  | some (.ok ()) => [.audit record true]
  | some (.error _) => [.audit record false]

def beforeHook : FeatureEffect α → List Action → List Action × Option Raised
  | .approval declaration, t => approvalBefore env inv declaration t
  | .observation, t => (t ++ publish env (lifecycleEvent env inv "started" none) t, none)
  | .audit _ _, t => (t, none)
  | .foreign effect, t => (t, effect.before)

def afterHook : FeatureEffect α → List Action → List Action × Option Raised
  | .approval _, t => (t, none)
  | .observation, t => (publishOutcome env inv "completed" none t, none)
  | .audit event _, t => (t ++ auditAfter env inv event, none)
  | .foreign effect, t => (t, effect.after)

def failedHook (error : Raised) : FeatureEffect α → List Action → List Action × Option Raised
  | .approval _, t => (t, none)
  | .observation, t => (publishOutcome env inv "failed" (some error) t, none)
  | .audit _ _, t => (t, none)
  | .foreign effect, t => (t, effect.failed)

/-- Run the hooks of bound effects in order; one that raises ends the run. -/
def runHooks (hook : FeatureEffect α → List Action → List Action × Option Raised) :
    List (FeatureEffect α) → List Action → List Action × Option Raised
  | [], t => (t, none)
  | effect :: rest, t =>
    match hook effect t with
    | (t', some error) => (t', some error)
    | (t', none) => runHooks hook rest t'

/-- `sorted(bound, key=...)`, a stable sort. -/
def sortedBy (priority : FeatureEffect α → Int) (effects : List (FeatureEffect α)) :
    List (FeatureEffect α) :=
  effects.insertionSort fun a b => priority a ≤ priority b

/-- The call of the function in `FeatureExecutor.invoke` and what follows it. -/
def callFunction (feature : FeatureFunction α R) (args : α) (t : List Action) :
    List Action × Except Raised R :=
  let inv := feature.invocation args
  let t := t ++ [.call]
  match feature.function args with
  | .error error =>
    if error.isException = false then (t, .error error)
    else
      match runHooks (failedHook env inv error)
        (sortedBy FeatureEffect.failure_priority feature.spec.effects) t with
      | (t, some raised) => (t, .error raised)
      | (t, none) => (t, .error error)
  | .ok result =>
    match runHooks (afterHook env inv)
      (sortedBy FeatureEffect.after_priority feature.spec.effects) t with
    | (t, some raised) => (t, .error raised)
    | (t, none) => (t, .ok result)

/-- `FeatureExecutor.invoke`: everything it does, and what it returns or raises. -/
def invoke (feature : FeatureFunction α R) (args : α) : List Action × Except Raised R :=
  match runHooks (beforeHook env (feature.invocation args))
    (sortedBy FeatureEffect.before_priority feature.spec.effects) [] with
  | (t, some error) => (t, .error error)
  | (t, none) => callFunction env feature args t

/-! ## What a hook adds -/

theorem publish_adds (event : FeatureEvent) (t : List Action) :
    ∀ a ∈ publish env event t, ∃ delivered, a = .publish event delivered := by
  intro a ha
  unfold publish at ha
  split at ha
  · cases ha
  · split at ha
    · exact ⟨true, List.mem_singleton.mp ha⟩
    · exact ⟨false, List.mem_singleton.mp ha⟩

theorem publish_count (event : FeatureEvent) (t : List Action) (name : String) :
    (publish env event t).countP (Action.isEvent name) =
      if env.events.isSome = true ∧ event.name = name then 1 else 0 := by
  unfold publish
  cases env.events with
  | none => simp
  | some deliver =>
    by_cases hname : event.name = name <;> cases hd : deliver (attempts t) <;>
      simp [Action.isEvent, hname, hd]

/-- Events of the approval dialogue. -/
inductive Dialogue : Action → Prop where
  | ask (request : ApprovalEffectRequest) : Dialogue (.ask request)
  | resolved (resolution : ToolEffectResolution) : Dialogue (.resolved resolution)
  | activity {event : FeatureEvent} (delivered : Bool) (hname : event.name = "tool.activity") :
      Dialogue (.publish event delivered)

theorem publish_dialogue {event : FeatureEvent} (hname : event.name = "tool.activity")
    (t : List Action) : Adds Dialogue t (t ++ publish env event t) := by
  refine Adds.of_append fun a ha => ?_
  obtain ⟨delivered, rfl⟩ := publish_adds env event t a ha
  exact .activity delivered hname

theorem publishTimes_dialogue {event : FeatureEvent} (hname : event.name = "tool.activity") :
    ∀ (n : Nat) (t : List Action), Adds Dialogue t (publishTimes env event n t)
  | 0, t => Adds.refl _ t
  | n + 1, t => (publish_dialogue env hname t).trans (publishTimes_dialogue hname n _)

/-- The approval of a declaration is granted in a trace: the port returned an approval resolution
    of the very request of this invocation, and its decision approves. -/
def Granted (declaration : ApprovalEffect α) (t : List Action) : Prop :=
  ∃ request decision, approvalRequest inv declaration = .ok request ∧
    .resolved (.approval request decision) ∈ t ∧ decision.approved = true

theorem granted_stable (declaration : ApprovalEffect α) : Stable (Granted inv declaration) := by
  rintro t new ⟨request, decision, hrequest, hmem, happroved⟩
  exact ⟨request, decision, hrequest, List.mem_append_left _ hmem, happroved⟩

/-- **The approval hook** only adds dialogue, and returns only when the approval is granted. -/
theorem approvalBefore_spec (declaration : ApprovalEffect α) (t : List Action) :
    Adds Dialogue t (approvalBefore env inv declaration t).1 ∧
      ((approvalBefore env inv declaration t).2 = none →
        Granted inv declaration (approvalBefore env inv declaration t).1) := by
  unfold approvalBefore
  cases hrequest : approvalRequest inv declaration with
  | error error => exact ⟨Adds.refl _ t, fun h => nomatch h⟩
  | ok request =>
    have hask : Adds Dialogue t (t ++ [.ask request]) := Adds.snoc (Dialogue.ask request) t
    have hrequested : Adds Dialogue t (publishTimes env (requestedEvent env inv request)
        (env.effect_port request).requested (t ++ [.ask request])) :=
      hask.trans (publishTimes_dialogue env rfl _ _)
    cases hport : (env.effect_port request).result with
    | error error => exact ⟨by simpa [hport] using hrequested, fun h => by simp [hport] at h⟩
    | ok resolution =>
      have hresolved := hrequested.trans (Adds.snoc (Dialogue.resolved resolution) _)
      simp only [hport]
      by_cases hsame : resolution.request = .approval request
      · rw [if_neg (not_not.mpr hsame)]
        cases resolution with
        | foreign kind request' => exact ⟨hresolved, fun h => nomatch h⟩
        | approval request' decision =>
          -- the resolution is bound to the request that was asked
          have heq : request' = request := ToolEffectRequest.approval.inj hsame
          subst heq
          have hdecided := hresolved.trans
            (publish_dialogue env (rfl : (decidedEvent env inv decision).name = _) _)
          by_cases hun : decision.approved = false ∧ decision.input_kind = .unavailable
          · simp only [if_pos hun]
            exact ⟨hdecided, fun h => nomatch h⟩
          · by_cases hno : decision.approved = false
            · simp only [if_neg hun, if_pos hno]
              exact ⟨hdecided, fun h => nomatch h⟩
            · simp only [if_neg hun, if_neg hno]
              refine ⟨hdecided, fun _ => ⟨request', decision, hrequest, ?_, by simpa using hno⟩⟩
              simp
      · rw [if_pos hsame]
        exact ⟨hresolved, fun h => nomatch h⟩

/-! ## Before the function -/

/-- The publication of the start. -/
def IsStarted (a : Action) : Prop := a.isEvent "feature.started" = true

/-- What the before hooks may do. -/
def Opening (a : Action) : Prop := Dialogue a ∨ IsStarted a

theorem Dialogue.not_event {a : Action} (h : Dialogue a) {name : String}
    (hname : "tool.activity" ≠ name) : a.isEvent name = false := by
  cases h with
  | ask | resolved => rfl
  | activity delivered hactivity => simpa [Action.isEvent, hactivity] using hname

theorem Dialogue.not_started {a : Action} (h : Dialogue a) : ¬ IsStarted a := by
  unfold IsStarted
  rw [h.not_event (by decide)]
  simp

/-- Every declared approval is granted. -/
def Gated (effects : List (FeatureEffect α)) (t : List Action) : Prop :=
  ∀ declaration, .approval declaration ∈ effects → Granted inv declaration t

theorem gated_stable (effects : List (FeatureEffect α)) : Stable (Gated inv effects) :=
  fun t new h declaration hmem => granted_stable inv declaration t new (h declaration hmem)

theorem started_opening (t : List Action) : Adds Opening t
    (t ++ publish env (lifecycleEvent env inv "started" none) t) := by
  refine Adds.of_append fun a ha => ?_
  obtain ⟨delivered, rfl⟩ := publish_adds env _ t a ha
  exact Or.inr rfl

/-- **The before hooks are a gate.**  They run in the order of their priorities, where approvals
    (10) come before observation (20); so what is published as started, and a return, come after
    every approval.  The induction is on the hooks still to run: each declared approval is granted
    already or among them. -/
theorem before_gates (effects : List (FeatureEffect α)) :
    ∀ (l : List (FeatureEffect α)) (t : List Action),
      l.Pairwise (fun a b => a.before_priority ≤ b.before_priority) →
      (∀ declaration, .approval declaration ∈ effects →
        Granted inv declaration t ∨ .approval declaration ∈ l) →
      Guarded (Gated inv effects) IsStarted t →
      Guarded (Gated inv effects) IsStarted (runHooks (beforeHook env inv) l t).1 ∧
        Adds Opening t (runHooks (beforeHook env inv) l t).1 ∧
        ((runHooks (beforeHook env inv) l t).2 = none →
          Gated inv effects (runHooks (beforeHook env inv) l t).1) := by
  intro l
  induction l with
  | nil =>
    intro t _ hcover hguard
    refine ⟨hguard, Adds.refl _ t, fun _ declaration hmem => ?_⟩
    exact (hcover declaration hmem).resolve_right (fun h => nomatch h)
  | cons effect rest ih =>
    intro t hsorted hcover hguard
    obtain ⟨hfirst, hrest⟩ := List.pairwise_cons.mp hsorted
    -- a hook that does nothing to the trace leaves the hooks after it
    have skip : (∀ declaration, effect ≠ .approval declaration) →
        beforeHook env inv effect t = (t, none) →
        Guarded (Gated inv effects) IsStarted (runHooks (beforeHook env inv) (effect :: rest) t).1 ∧
          Adds Opening t (runHooks (beforeHook env inv) (effect :: rest) t).1 ∧
          ((runHooks (beforeHook env inv) (effect :: rest) t).2 = none →
            Gated inv effects (runHooks (beforeHook env inv) (effect :: rest) t).1) := by
      intro hne hhook
      simp only [runHooks, hhook]
      refine ih t hrest (fun declaration hmem => ?_) hguard
      rcases hcover declaration hmem with h | h
      · exact Or.inl h
      · rcases List.mem_cons.mp h with h | h
        · exact absurd h.symm (hne declaration)
        · exact Or.inr h
    cases effect with
    | approval declaration =>
      obtain ⟨hadds, hgranted⟩ := approvalBefore_spec env inv declaration t
      have hguard' := hadds.guarded hguard fun a ha => ha.not_started
      have hopening := hadds.mono (Q := Opening) fun a ha => Or.inl ha
      simp only [runHooks, beforeHook]
      generalize approvalBefore env inv declaration t = r at *
      obtain ⟨t', raised⟩ := r
      cases raised with
      | some error => exact ⟨hguard', hopening, fun h => nomatch h⟩
      | none =>
        have hcover' : ∀ d, FeatureEffect.approval d ∈ effects →
            Granted inv d t' ∨ FeatureEffect.approval d ∈ rest := by
          intro d hmem
          rcases hcover d hmem with h | h
          · exact Or.inl (hadds.holds (granted_stable inv d) h)
          · rcases List.mem_cons.mp h with h | h
            · cases h
              exact Or.inl (hgranted rfl)
            · exact Or.inr h
        obtain ⟨h1, h2, h3⟩ := ih t' hrest hcover' hguard'
        exact ⟨h1, hopening.trans h2, h3⟩
    | observation =>
      -- an approval would have to come first, so all of them are granted by now
      have hgated : Gated inv effects t := by
        intro d hmem
        rcases hcover d hmem with h | h
        · exact h
        · rcases List.mem_cons.mp h with h | h
          · cases h
          · have hle := hfirst _ h
            simp [FeatureEffect.before_priority] at hle
      have hopening := started_opening env inv t
      have hguard' := hopening.guarded_of_holds hguard (gated_stable inv effects) hgated
      have hgated' := hopening.holds (gated_stable inv effects) hgated
      simp only [runHooks, beforeHook]
      obtain ⟨h1, h2, h3⟩ := ih _ hrest (fun d hmem => Or.inl (hgated' d hmem)) hguard'
      exact ⟨h1, hopening.trans h2, h3⟩
    | audit event hevent => exact skip (fun d h => nomatch h) rfl
    | foreign foreign =>
      cases hbefore : foreign.before with
      | none => exact skip (fun d h => nomatch h) (by simp only [beforeHook, hbefore])
      | some error =>
        simp only [runHooks, beforeHook, hbefore]
        exact ⟨hguard, Adds.refl _ t, fun h => nomatch h⟩

/-! ## After the function -/

theorem runHooks_adds {P : Action → Prop}
    {hook : FeatureEffect α → List Action → List Action × Option Raised}
    (hhook : ∀ effect t, Adds P t (hook effect t).1) :
    ∀ (l : List (FeatureEffect α)) (t : List Action), Adds P t (runHooks hook l t).1
  | [], t => Adds.refl _ t
  | effect :: rest, t => by
    have hone := hhook effect t
    simp only [runHooks]
    generalize hook effect t = r at *
    obtain ⟨t', raised⟩ := r
    cases raised with
    | some error => exact hone
    | none => exact hone.trans (runHooks_adds hhook rest t')

/-- Hooks that all return run to the end; if only observation counts, what is counted grows by its
    share for each observation. -/
theorem runHooks_counts {hook : FeatureEffect α → List Action → List Action × Option Raised}
    {q : Action → Bool} {share : Nat} :
    ∀ (l : List (FeatureEffect α)) (t : List Action),
      (∀ effect ∈ l, ∀ t, (hook effect t).2 = none ∧ (hook effect t).1.countP q =
        t.countP q + if effect.isObservation = true then share else 0) →
      (runHooks hook l t).2 = none ∧ (runHooks hook l t).1.countP q =
        t.countP q + l.countP FeatureEffect.isObservation * share
  | [], t, _ => by simp [runHooks]
  | effect :: rest, t, hhook => by
    obtain ⟨hnone, hcount⟩ := hhook effect List.mem_cons_self t
    have hrest := runHooks_counts rest (hook effect t).1
      fun e he => hhook e (List.mem_cons_of_mem _ he)
    simp only [runHooks]
    generalize hook effect t = r at *
    obtain ⟨t', raised⟩ := r
    cases hnone
    refine ⟨hrest.1, ?_⟩
    rw [hrest.2, hcount, List.countP_cons]
    cases effect.isObservation
    · simp
    · simp only [if_true, Nat.add_mul, Nat.one_mul]
      omega

/-- What the hooks after the function may do. -/
inductive Closing : Action → Prop where
  | audit (record : FeatureAuditRecord) (written : Bool) : Closing (.audit record written)
  | activity {event : FeatureEvent} (delivered : Bool) (hname : event.name = "tool.activity") :
      Closing (.publish event delivered)
  | completed {event : FeatureEvent} (delivered : Bool) (hname : event.name = "feature.completed") :
      Closing (.publish event delivered)
  | failed {event : FeatureEvent} (delivered : Bool) (hname : event.name = "feature.failed") :
      Closing (.publish event delivered)

theorem Closing.not_call {a : Action} (h : Closing a) : a.isCall = false := by
  cases h <;> rfl

theorem publishOutcome_adds {outcome : String} {error : Option Raised}
    (hclosing : ∀ delivered, Closing (.publish (lifecycleEvent env inv outcome error) delivered))
    (t : List Action) : Adds (fun a => Closing a ∧ a.isAudit = false) t
      (publishOutcome env inv outcome error t) := by
  unfold publishOutcome
  refine Adds.trans (Adds.of_append fun a ha => ?_) (Adds.of_append fun a ha => ?_)
  · obtain ⟨delivered, rfl⟩ := publish_adds env _ _ a ha
    exact ⟨hclosing delivered, rfl⟩
  · obtain ⟨delivered, rfl⟩ := publish_adds env _ _ a ha
    exact ⟨.activity delivered rfl, rfl⟩

theorem publishOutcome_count (outcome : String) (error : Option Raised) (t : List Action)
    {name : String} (hname : "tool.activity" ≠ name) :
    (publishOutcome env inv outcome error t).countP (Action.isEvent name) =
      t.countP (Action.isEvent name) +
        if env.events.isSome = true ∧ "feature." ++ outcome = name then 1 else 0 := by
  unfold publishOutcome
  rw [List.countP_append, List.countP_append, publish_count, publish_count]
  have hactivity : ¬ (env.events.isSome = true ∧
      (outcomeEvent env inv outcome error).name = name) := fun h => hname h.2
  rw [if_neg hactivity]
  rfl

theorem auditAfter_adds (event : String) :
    ∀ a ∈ auditAfter env inv event, ∃ record written, a = .audit record written := by
  intro a ha
  unfold auditAfter at ha
  split at ha
  · cases ha
  · exact ⟨_, _, List.mem_singleton.mp ha⟩
  · exact ⟨_, _, List.mem_singleton.mp ha⟩

theorem afterHook_adds (effect : FeatureEffect α) (t : List Action) :
    Adds Closing t (afterHook env inv effect t).1 := by
  cases effect with
  | approval | foreign => exact Adds.refl _ t
  | observation =>
    exact (publishOutcome_adds env inv (fun d => .completed d rfl) t).mono fun a ha => ha.1
  | audit event hevent =>
    refine Adds.of_append fun a ha => ?_
    obtain ⟨record, written, rfl⟩ := auditAfter_adds env inv event a ha
    exact .audit record written

theorem failedHook_adds (error : Raised) (effect : FeatureEffect α) (t : List Action) :
    Adds (fun a => Closing a ∧ a.isAudit = false) t (failedHook env inv error effect t).1 := by
  cases effect with
  | approval | foreign | audit => exact Adds.refl _ t
  | observation => exact publishOutcome_adds env inv (fun d => .failed d rfl) t

/-- The hooks of effects of other classes return from the two phases after the call. -/
def HooksReturn (effects : List (FeatureEffect α)) : Prop :=
  ∀ effect, .foreign effect ∈ effects → effect.after = none ∧ effect.failed = none

/-- One event of a name is published when the name is that of the outcome. -/
def outcomeShare (outcome name : String) : Nat :=
  if env.events.isSome = true ∧ "feature." ++ outcome = name then 1 else 0

theorem afterHook_counts {effects : List (FeatureEffect α)} (hreturn : HooksReturn effects)
    {name : String} (hname : "tool.activity" ≠ name) :
    ∀ effect ∈ effects, ∀ t, (afterHook env inv effect t).2 = none ∧
      (afterHook env inv effect t).1.countP (Action.isEvent name) =
        t.countP (Action.isEvent name) +
          if effect.isObservation = true then outcomeShare env "completed" name else 0 := by
  intro effect hmem t
  cases effect with
  | approval => exact ⟨rfl, rfl⟩
  | observation => exact ⟨rfl, publishOutcome_count env inv _ _ t hname⟩
  | audit event hevent =>
    refine ⟨rfl, ?_⟩
    show (t ++ auditAfter env inv event).countP (Action.isEvent name) = t.countP _ + 0
    have hadds : Adds (fun a => ∃ record written, a = Action.audit record written) t
        (t ++ auditAfter env inv event) := Adds.of_append (auditAfter_adds env inv event)
    exact hadds.countP_eq fun a ⟨_, _, ha⟩ => ha ▸ rfl
  | foreign effect => exact ⟨(hreturn effect hmem).1, rfl⟩

theorem failedHook_counts (error : Raised) {effects : List (FeatureEffect α)}
    (hreturn : HooksReturn effects) {name : String} (hname : "tool.activity" ≠ name) :
    ∀ effect ∈ effects, ∀ t, (failedHook env inv error effect t).2 = none ∧
      (failedHook env inv error effect t).1.countP (Action.isEvent name) =
        t.countP (Action.isEvent name) +
          if effect.isObservation = true then outcomeShare env "failed" name else 0 := by
  intro effect hmem t
  cases effect with
  | approval | audit => exact ⟨rfl, rfl⟩
  | observation => exact ⟨rfl, publishOutcome_count env inv _ _ t hname⟩
  | foreign effect => exact ⟨(hreturn effect hmem).2, rfl⟩

theorem countP_observation_le {effects : List (FeatureEffect α)}
    (hnd : (effects.filterMap FeatureEffect.cardinality_key).Nodup) :
    effects.countP FeatureEffect.isObservation ≤ 1 := by
  have hle : effects.countP FeatureEffect.isObservation ≤
      (effects.filterMap FeatureEffect.cardinality_key).count "projection.observation" := by
    clear hnd
    induction effects with
    | nil => exact Nat.le_refl _
    | cons effect rest ih =>
      cases effect with
      | observation =>
        have hkeys : (FeatureEffect.observation :: rest).filterMap FeatureEffect.cardinality_key =
            "projection.observation" :: rest.filterMap FeatureEffect.cardinality_key := rfl
        rw [List.countP_cons_of_pos rfl, hkeys, List.count_cons_self]
        omega
      | approval | audit =>
        simpa [FeatureEffect.isObservation, FeatureEffect.cardinality_key] using ih
      | foreign effect =>
        rw [List.countP_cons_of_neg (by simp [FeatureEffect.isObservation])]
        refine ih.trans (List.Sublist.count_le _ ?_)
        exact (List.sublist_cons_self _ _).filterMap _
  exact hle.trans (List.nodup_iff_count_le_one.mp hnd _)

theorem countP_observation_eq (feature : FeatureFunction α R)
    (hmem : .observation ∈ feature.spec.effects) (priority : FeatureEffect α → Int) :
    (sortedBy priority feature.spec.effects).countP FeatureEffect.isObservation = 1 := by
  rw [sortedBy, (List.perm_insertionSort _ _).countP_eq]
  have hle := countP_observation_le feature.cardinality
  have hpos : 0 < feature.spec.effects.countP FeatureEffect.isObservation :=
    List.countP_pos_iff.mpr ⟨_, hmem, rfl⟩
  omega

/-- What the call and the hooks after it add: the call itself, then closing actions, audits only
    after a normal return. -/
theorem callFunction_adds (feature : FeatureFunction α R) (args : α) (t : List Action) :
    Adds (fun a => Closing a ∧ (a.isAudit = true → ∃ v, feature.function args = .ok v))
      (t ++ [.call]) (callFunction env feature args t).1 := by
  unfold callFunction
  cases hf : feature.function args with
  | error error =>
    have hhooks := runHooks_adds (failedHook_adds env (feature.invocation args) error)
      (sortedBy FeatureEffect.failure_priority feature.spec.effects) (t ++ [.call])
    have hadds := hhooks.mono (Q := fun a => Closing a ∧
      (a.isAudit = true → ∃ v, Except.error error = (.ok v : Except Raised R)))
      fun a ha => ⟨ha.1, fun hb => by rw [ha.2] at hb; cases hb⟩
    by_cases hexc : error.isException = false
    · simp only [if_pos hexc]
      exact Adds.refl _ _
    · simp only [if_neg hexc]
      generalize runHooks _ _ (t ++ [.call]) = r at *
      obtain ⟨t', raised⟩ := r
      cases raised <;> exact hadds
  | ok result =>
    have hhooks := runHooks_adds (afterHook_adds env (feature.invocation args))
      (sortedBy FeatureEffect.after_priority feature.spec.effects) (t ++ [.call])
    have hadds := hhooks.mono (Q := fun a => Closing a ∧
      (a.isAudit = true → ∃ v, Except.ok result = (.ok v : Except Raised R)))
      fun a ha => ⟨ha, fun _ => ⟨result, rfl⟩⟩
    dsimp only
    generalize runHooks _ _ (t ++ [.call]) = r at *
    obtain ⟨t', raised⟩ := r
    cases raised <;> exact hadds

theorem mem_sortedBy {priority : FeatureEffect α → Int} {effects : List (FeatureEffect α)}
    {effect : FeatureEffect α} : effect ∈ sortedBy priority effects ↔ effect ∈ effects :=
  List.mem_insertionSort _

theorem hooksReturn_sortedBy {priority : FeatureEffect α → Int}
    {effects : List (FeatureEffect α)} (h : HooksReturn effects) :
    HooksReturn (sortedBy priority effects) :=
  fun effect hmem => h effect (mem_sortedBy.mp hmem)

/-- **After a normal return** the result is the function's, and every observation publishes its
    completion. -/
theorem callFunction_ok {feature : FeatureFunction α R} {args : α} {v : R}
    (hf : feature.function args = .ok v) (hreturn : HooksReturn feature.spec.effects)
    (t : List Action) :
    (callFunction env feature args t).2 = .ok v ∧ ∀ name, "tool.activity" ≠ name →
      (callFunction env feature args t).1.countP (Action.isEvent name) =
        t.countP (Action.isEvent name) +
          (sortedBy FeatureEffect.after_priority feature.spec.effects).countP
            FeatureEffect.isObservation * outcomeShare env "completed" name := by
  have hruns := fun name (hname : "tool.activity" ≠ name) => runHooks_counts
    (sortedBy FeatureEffect.after_priority feature.spec.effects) (t ++ [.call])
    (afterHook_counts env (feature.invocation args) (hooksReturn_sortedBy hreturn) hname)
  have hnone := (hruns "" (by decide)).1
  unfold callFunction
  simp only [hf]
  generalize runHooks _ _ (t ++ [.call]) = r at *
  obtain ⟨t', raised⟩ := r
  cases hnone
  refine ⟨rfl, fun name hname => ?_⟩
  rw [(hruns name hname).2, List.countP_append]
  simp [Action.isEvent]

/-- **After an exception** the caller gets the exception, and every observation publishes the
    failure. -/
theorem callFunction_error {feature : FeatureFunction α R} {args : α} {error : Raised}
    (hf : feature.function args = .error error) (hexc : error.isException = true)
    (hreturn : HooksReturn feature.spec.effects) (t : List Action) :
    (callFunction env feature args t).2 = .error error ∧ ∀ name, "tool.activity" ≠ name →
      (callFunction env feature args t).1.countP (Action.isEvent name) =
        t.countP (Action.isEvent name) +
          (sortedBy FeatureEffect.failure_priority feature.spec.effects).countP
            FeatureEffect.isObservation * outcomeShare env "failed" name := by
  have hruns := fun name (hname : "tool.activity" ≠ name) => runHooks_counts
    (sortedBy FeatureEffect.failure_priority feature.spec.effects) (t ++ [.call])
    (failedHook_counts env (feature.invocation args) error (hooksReturn_sortedBy hreturn) hname)
  have hnone := (hruns "" (by decide)).1
  unfold callFunction
  simp only [hf, hexc, Bool.true_eq_false, if_false]
  generalize runHooks _ _ (t ++ [.call]) = r at *
  obtain ⟨t', raised⟩ := r
  cases hnone
  refine ⟨rfl, fun name hname => ?_⟩
  rw [(hruns name hname).2, List.countP_append]
  simp [Action.isEvent]

/-! ## Failures of publishing and of the audit -/

/-- What a run of hooks raises depends on neither trace nor sinks when no single hook's does. -/
theorem runHooks_raised {hook hook' : FeatureEffect α → List Action → List Action × Option Raised}
    (hsame : ∀ effect t t', (hook effect t).2 = (hook' effect t').2) :
    ∀ (l : List (FeatureEffect α)) (t t' : List Action),
      (runHooks hook l t).2 = (runHooks hook' l t').2
  | [], _, _ => rfl
  | effect :: rest, t, t' => by
    have hone := hsame effect t t'
    simp only [runHooks]
    generalize hook effect t = r at *
    generalize hook' effect t' = r' at *
    obtain ⟨u, raised⟩ := r
    obtain ⟨u', raised'⟩ := r'
    cases hone
    cases raised with
    | some error => rfl
    | none => exact runHooks_raised hsame rest u u'

/-- The environment with another publisher and another audit sink. -/
def EffectEnvironment.withSinks (events : Option (Nat → Except String Unit))
    (audits : Option (Except String Unit)) : EffectEnvironment :=
  { env with events := events, audits := audits }

variable (events : Option (Nat → Except String Unit)) (audits : Option (Except String Unit))

/-- What the approval hook raises, read off the port alone. -/
def approvalVerdict (port : ApprovalEffectRequest → PortOutcome)
    (declaration : ApprovalEffect α) : Option Raised :=
  match approvalRequest inv declaration with
  | .error error => some error
  | .ok request =>
    match (port request).result with
    | .error error => some error
    | .ok resolution =>
      if resolution.request ≠ .approval request then some (.effectRequired (.approval request))
      else
        match resolution with
        | .foreign _ _ => some (.typeError "approval request received an invalid resolution")
        | .approval _ decision =>
          if decision.approved = false ∧ decision.input_kind = .unavailable then
            some (.effectRequired (.approval request))
          else if decision.approved = false then
            some (.rejected "Action was not approved; no changes were made.")
          else none

theorem approvalBefore_raised (declaration : ApprovalEffect α) (t : List Action) :
    (approvalBefore env inv declaration t).2 = approvalVerdict inv env.effect_port declaration := by
  unfold approvalBefore approvalVerdict
  cases approvalRequest inv declaration with
  | error error => rfl
  | ok request =>
    dsimp only
    cases (env.effect_port request).result with
    | error error => rfl
    | ok resolution =>
      dsimp only
      split
      · rfl
      · cases resolution with
        | foreign => rfl
        | approval request' decision =>
          dsimp only
          split
          · rfl
          · split <;> rfl

theorem beforeHook_raised (effect : FeatureEffect α) (t t' : List Action) :
    (beforeHook env inv effect t).2 =
      (beforeHook (env.withSinks events audits) inv effect t').2 := by
  cases effect with
  | observation | audit | foreign => rfl
  | approval declaration =>
    simp only [beforeHook, approvalBefore_raised]
    rfl

theorem afterHook_raised (effect : FeatureEffect α) (t t' : List Action) :
    (afterHook env inv effect t).2 = (afterHook (env.withSinks events audits) inv effect t').2 := by
  cases effect <;> rfl

theorem failedHook_raised (error : Raised) (effect : FeatureEffect α) (t t' : List Action) :
    (failedHook env inv error effect t).2 =
      (failedHook (env.withSinks events audits) inv error effect t').2 := by
  cases effect <;> rfl

/-- **No failure of a sink reaches the caller**: the result and the exception are the same under
    any publisher and any audit sink. -/
theorem invoke_result (feature : FeatureFunction α R) (args : α) :
    (invoke (env.withSinks events audits) feature args).2 = (invoke env feature args).2 := by
  have hcall : ∀ t t', (callFunction (env.withSinks events audits) feature args t').2 =
      (callFunction env feature args t).2 := by
    intro t t'
    unfold callFunction
    cases feature.function args with
    | error error =>
      by_cases hexc : error.isException = false
      · simp only [if_pos hexc]
      · have hraised := runHooks_raised
          (failedHook_raised env (feature.invocation args) events audits error)
          (sortedBy FeatureEffect.failure_priority feature.spec.effects) (t ++ [.call])
          (t' ++ [.call])
        simp only [if_neg hexc]
        generalize runHooks _ _ (t ++ [.call]) = r at *
        generalize runHooks _ _ (t' ++ [.call]) = r' at *
        obtain ⟨u, raised⟩ := r
        obtain ⟨u', raised'⟩ := r'
        cases hraised
        cases raised <;> rfl
    | ok result =>
      have hraised := runHooks_raised
        (afterHook_raised env (feature.invocation args) events audits)
        (sortedBy FeatureEffect.after_priority feature.spec.effects) (t ++ [.call])
        (t' ++ [.call])
      dsimp only
      generalize runHooks _ _ (t ++ [.call]) = r at *
      generalize runHooks _ _ (t' ++ [.call]) = r' at *
      obtain ⟨u, raised⟩ := r
      obtain ⟨u', raised'⟩ := r'
      cases hraised
      cases raised <;> rfl
  have hraised := runHooks_raised (beforeHook_raised env (feature.invocation args) events audits)
    (sortedBy FeatureEffect.before_priority feature.spec.effects) [] []
  unfold invoke
  generalize runHooks (beforeHook env _) _ [] = r at *
  generalize runHooks (beforeHook (env.withSinks events audits) _) _ [] = r' at *
  obtain ⟨u, raised⟩ := r
  obtain ⟨u', raised'⟩ := r'
  cases hraised
  cases raised with
  | some error => rfl
  | none => exact hcall u u'

/-! ## One invocation -/

/-- A sound invocation: the trace `t` and the outcome `r` of invoking `feature` with `args`. -/
structure InvocationSound (feature : FeatureFunction α R) (args : α) (t : List Action)
    (r : Except Raised R) : Prop where
  /-- The function is called at most once, -/
  called_once : t.countP Action.isCall ≤ 1
  /-- and only after every declared approval was granted for this very invocation. -/
  call_gated : Guarded (Gated (feature.invocation args) feature.spec.effects)
    (fun a => a = .call) t
  /-- The start is published only after that. -/
  started_gated : Guarded (Gated (feature.invocation args) feature.spec.effects) IsStarted t
  /-- The audit record is written only after a normal return. -/
  audited_after_return : Guarded (fun pre => .call ∈ pre ∧ ∃ v, feature.function args = .ok v)
    (fun a => a.isAudit = true) t
  /-- Of an observed call exactly one outcome is published: the completion of one that returns, -/
  completed_once : ∀ v, feature.function args = .ok v → .call ∈ t →
    .observation ∈ feature.spec.effects → env.events.isSome = true →
    HooksReturn feature.spec.effects →
    t.countP (Action.isEvent "feature.completed") = 1 ∧
      t.countP (Action.isEvent "feature.failed") = 0
  /-- the failure of one that raises an `Exception`. -/
  failed_once : ∀ error, feature.function args = .error error → error.isException = true →
    .call ∈ t → .observation ∈ feature.spec.effects → env.events.isSome = true →
    HooksReturn feature.spec.effects →
    t.countP (Action.isEvent "feature.completed") = 0 ∧
      t.countP (Action.isEvent "feature.failed") = 1
  /-- A call gives its own result or exception to the caller, -/
  result_of_call : .call ∈ t → HooksReturn feature.spec.effects → r = feature.function args
  /-- and no publisher and no audit sink changes what the caller gets. -/
  sinks_neutral : ∀ (events : Option (Nat → Except String Unit))
    (audits : Option (Except String Unit)), (invoke (env.withSinks events audits) feature args).2 = r

theorem callFunction_baseException {feature : FeatureFunction α R} {args : α} {error : Raised}
    (hf : feature.function args = .error error) (hexc : error.isException = false)
    (t : List Action) : callFunction env feature args t = (t ++ [.call], .error error) := by
  simp only [callFunction, hf, hexc, if_true]

theorem callFunction_result (feature : FeatureFunction α R) (args : α) (t : List Action)
    (hreturn : HooksReturn feature.spec.effects) :
    (callFunction env feature args t).2 = feature.function args := by
  cases hf : feature.function args with
  | ok v => exact (callFunction_ok env hf hreturn t).1
  | error error =>
    cases hexc : error.isException with
    | true => exact (callFunction_error env hf hexc hreturn t).1
    | false => rw [callFunction_baseException env hf hexc]

theorem Opening.not_closed {a : Action} (h : Opening a) :
    a.isCall = false ∧ a.isAudit = false ∧ a.isEvent "feature.completed" = false ∧
      a.isEvent "feature.failed" = false := by
  rcases h with h | h
  · refine ⟨?_, ?_, h.not_event (by decide), h.not_event (by decide)⟩ <;> cases h <;> rfl
  · cases a with
    | publish event delivered =>
      have hname : event.name = "feature.started" := by simpa [IsStarted, Action.isEvent] using h
      simp [Action.isCall, Action.isAudit, Action.isEvent, hname]
    | ask | resolved | audit | call => simp [IsStarted, Action.isEvent] at h

theorem opening_countP {t : List Action} (h : Adds Opening [] t) {q : Action → Bool}
    (hq : ∀ a, Opening a → q a = false) : t.countP q = 0 :=
  h.countP_eq hq

theorem opening_no_call {t : List Action} (h : Adds Opening [] t) : .call ∉ t := by
  intro hmem
  exact absurd rfl (List.countP_eq_zero.mp (opening_countP h fun a ha => ha.not_closed.1) _ hmem)

theorem opening_guarded {t : List Action} (h : Adds Opening [] t) {G : List Action → Prop} :
    Guarded G (fun a => a = .call) t ∧ Guarded G (fun a => a.isAudit = true) t := by
  refine ⟨h.guarded Guarded.nil fun a ha hcall => ?_, h.guarded Guarded.nil fun a ha haudit => ?_⟩
  · have hnot := ha.not_closed.1
    rw [hcall] at hnot
    cases hnot
  · have hnot := ha.not_closed.2.1
    rw [haudit] at hnot
    cases hnot

section

variable {feature : FeatureFunction α R} {args : α} {t : List Action}
  (hguard : Guarded (Gated (feature.invocation args) feature.spec.effects) IsStarted t)
  (hopening : Adds Opening [] t)

include hguard hopening

theorem refused_sound {error : Raised} (hneutral : ∀ events audits,
    (invoke (env.withSinks events audits) feature args).2 = .error error) :
    InvocationSound env feature args t (.error error) where
  called_once := by
    rw [opening_countP hopening fun a ha => ha.not_closed.1]
    omega
  call_gated := (opening_guarded hopening).1
  started_gated := hguard
  audited_after_return := (opening_guarded hopening).2
  completed_once := fun _ _ hmem => absurd hmem (opening_no_call hopening)
  failed_once := fun _ _ _ hmem => absurd hmem (opening_no_call hopening)
  result_of_call := fun hmem => absurd hmem (opening_no_call hopening)
  sinks_neutral := hneutral

theorem called_sound (hgated : Gated (feature.invocation args) feature.spec.effects t)
    (hneutral : ∀ events audits, (invoke (env.withSinks events audits) feature args).2 =
      (callFunction env feature args t).2) :
    InvocationSound env feature args (callFunction env feature args t).1
      (callFunction env feature args t).2 := by
  have hadds := callFunction_adds env feature args t
  have hstable := gated_stable (feature.invocation args) feature.spec.effects
  have hgated' := hstable t [.call] hgated
  exact
    { called_once := by
        rw [hadds.countP_eq fun a ha => ha.1.not_call, List.countP_append,
          opening_countP hopening fun a ha => ha.not_closed.1]
        exact Nat.le_refl 1
      call_gated := hadds.guarded_of_holds
        ((opening_guarded hopening).1.append_of_holds hstable hgated) hstable hgated'
      started_gated := hadds.guarded_of_holds (hguard.append_of_holds hstable hgated) hstable
        hgated'
      audited_after_return := by
        obtain ⟨new, heq, hnew⟩ := hadds
        rw [heq]
        refine ((opening_guarded hopening).2.append_of_not fun a ha => ?_).append
          fun pre a post hsplit ha => ⟨by simp, ?_⟩
        · rw [List.mem_singleton.mp ha]
          simp [Action.isAudit]
        · exact (hnew a (by rw [hsplit]; simp)).2 ha
      completed_once := fun v hf _ hobs hevents hreturn => by
        have hcounts := (callFunction_ok env hf hreturn t).2
        rw [hcounts _ (by decide), hcounts _ (by decide),
          opening_countP hopening fun a ha => ha.not_closed.2.2.1,
          opening_countP hopening fun a ha => ha.not_closed.2.2.2,
          countP_observation_eq feature hobs]
        simp [outcomeShare, hevents]
      failed_once := fun error hf hexc _ hobs hevents hreturn => by
        have hcounts := (callFunction_error env hf hexc hreturn t).2
        rw [hcounts _ (by decide), hcounts _ (by decide),
          opening_countP hopening fun a ha => ha.not_closed.2.2.1,
          opening_countP hopening fun a ha => ha.not_closed.2.2.2,
          countP_observation_eq feature hobs]
        simp [outcomeShare, hevents]
      result_of_call := fun _ hreturn => callFunction_result env feature args t hreturn
      sinks_neutral := hneutral }

end

/-- **Approval gate soundness**: whatever the port, the publisher, the audit sink, the function and
    effects of other classes do, an invocation of a feature that the policy validation accepts is
    sound. -/
theorem invoke_sound (feature : FeatureFunction α R) (args : α) :
    InvocationSound env feature args (invoke env feature args).1 (invoke env feature args).2 := by
  have hneutral := fun events audits => invoke_result env events audits feature args
  have hbefore := before_gates env (feature.invocation args) feature.spec.effects
    (sortedBy FeatureEffect.before_priority feature.spec.effects) []
    (List.pairwise_insertionSort _ _) (fun d hmem => Or.inr (mem_sortedBy.mpr hmem)) Guarded.nil
  cases hrun : runHooks (beforeHook env (feature.invocation args))
    (sortedBy FeatureEffect.before_priority feature.spec.effects) [] with
  | mk t raised =>
    rw [hrun] at hbefore
    obtain ⟨hguard, hopening, hgated⟩ := hbefore
    cases raised with
    | some error =>
      have hinvoke : invoke env feature args = (t, .error error) := by simp only [invoke, hrun]
      rw [hinvoke] at hneutral ⊢
      exact refused_sound env hguard hopening hneutral
    | none =>
      have hinvoke : invoke env feature args = callFunction env feature args t := by
        simp only [invoke, hrun]
      rw [hinvoke] at hneutral ⊢
      exact called_sound env hguard hopening (hgated rfl) hneutral

end NuSelf.Feature
