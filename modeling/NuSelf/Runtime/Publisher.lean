/-
  Runtime events and the projections of one process.

  A publication takes down the attached projections under the lock and calls those that fit
  without it, one after the other; meanwhile projections come and go and other events are
  published.  A projection may use the publisher itself: those are steps of others, and come before
  the step of its own call.

  1. **The code** — `attachProjection`, `detachProjection`, `checkEnvelope`, `deliverNext`.
  2. `Due` — who was called and who is still to be called make up those that fit.
  3. `publication_delivers` — so whatever the others do, a publication calls the projections that
     were attached when it began, once each and in their order, failures or not.
-/
import NuSelf.Lib.Run

namespace NuSelf.Runtime.Events

open NuSelf.Lib

/-! ## The publisher -/

inductive MessageKind where
  | event
  | job
  | audit
  deriving DecidableEq

/-- What the publisher reads of a `RuntimeEnvelope`. -/
structure RuntimeEnvelope (ρ : Type) where
  kind : MessageKind
  name : String
  producer : String
  payload : ρ

/-- An entry of `_projections`. -/
structure Projection (κ : Type) where
  projection_id : Nat
  selector : Option (String × String)
  projection : κ

structure EventProjectionHandle where
  publisher_id : String
  projection_id : Nat

/-- `definitions` says which events are registered, and which payloads their validators take. -/
structure EventPublisher (κ ρ : Type) where
  publisher_id : String
  definitions : String × String → Option (ρ → Bool)
  next_projection_id : Nat := 1
  projections : List (Projection κ) := []

inductive PublisherError where
  /-- `ValueError`. -/
  | value
  /-- `UnknownEventDefinitionError`. -/
  | unknown
  /-- The validator raises. -/
  | payload

variable {κ ρ : Type}

namespace EventPublisher

/-- `attach_projection` behind its checks. -/
def attach (p : EventPublisher κ ρ) (projection : κ) (selector : Option (String × String)) :
    EventPublisher κ ρ × EventProjectionHandle :=
  ({ p with
      next_projection_id := p.next_projection_id + 1
      projections := p.projections ++ [⟨p.next_projection_id, selector, projection⟩] },
    ⟨p.publisher_id, p.next_projection_id⟩)

def attachProjection (p : EventPublisher κ ρ) (projection : κ) :
    Option String → Option String →
      Except PublisherError (EventPublisher κ ρ × EventProjectionHandle)
  | none, none => .ok (p.attach projection none)
  | some producer, some name =>
    match p.definitions (producer, name) with
    | none => .error .unknown
    | some _ => .ok (p.attach projection (some (producer, name)))
  | _, _ => .error .value

def detachProjection (p : EventPublisher κ ρ) (handle : EventProjectionHandle) :
    EventPublisher κ ρ × Bool :=
  if handle.publisher_id ≠ p.publisher_id then (p, false)
  else
    ({ p with projections := p.projections.filter (·.projection_id ≠ handle.projection_id) },
      p.projections.any (·.projection_id = handle.projection_id))

/-- What `publish_envelope` checks first. -/
def checkEnvelope (p : EventPublisher κ ρ) (event : RuntimeEnvelope ρ) : Except PublisherError Unit :=
  if event.kind ≠ .event then .error .value
  else
    match p.definitions (event.producer, event.name) with
    | none => .error .unknown
    | some valid => if valid event.payload = true then .ok () else .error .payload

end EventPublisher

/-! ## Publications -/

/-- How the call of a projection ends: `interrupted` is for what is no `Exception`. -/
inductive CallEnd where
  | returned
  | raised (error : String)
  | interrupted

/-- `_deliver_validated_envelope` behind its lock, with the calls it has made. -/
structure Delivery (κ ρ : Type) where
  event : RuntimeEnvelope ρ
  projections : List (Projection κ)
  failures : List (Nat × String) := []
  called : List (Nat × CallEnd) := []
  interrupted : Bool := false

def Projection.fits (event : RuntimeEnvelope ρ) (p : Projection κ) : Bool :=
  p.selector.all (· == (event.producer, event.name))

/-- The next turn of the loop. -/
def deliverNext (d : Delivery κ ρ) (ended : CallEnd) : Delivery κ ρ :=
  match d.interrupted, d.projections with
  | false, p :: rest =>
    if p.fits d.event = true then
      { d with
        projections := rest
        called := d.called ++ [(p.projection_id, ended)]
        failures := d.failures ++
          (match ended with
            | .raised error => [(p.projection_id, error)]
            | _ => [])
        interrupted := ended matches .interrupted }
    else { d with projections := rest }
  | _, _ => d

/-- The publisher, and the publications it has let through. -/
structure System (κ ρ : Type) where
  publisher : EventPublisher κ ρ
  deliveries : List (Delivery κ ρ) := []

inductive Input (κ ρ : Type) where
  | attach (projection : κ) (producer name : Option String)
  | detach (handle : EventProjectionHandle)
  | publish (event : RuntimeEnvelope ρ)
  | deliver (delivery : Nat) (ended : CallEnd)

/-- A step, and the error that refuses it. -/
def System.step (s : System κ ρ) : Input κ ρ → System κ ρ × Option PublisherError
  | .attach projection producer name =>
    match s.publisher.attachProjection projection producer name with
    | .error error => (s, some error)
    | .ok (publisher, _) => ({ s with publisher }, none)
  | .detach handle => ({ s with publisher := (s.publisher.detachProjection handle).1 }, none)
  | .publish event =>
    match s.publisher.checkEnvelope event with
    | .error error => (s, some error)
    | .ok () =>
      ({ s with deliveries := s.deliveries ++ [{ event, projections := s.publisher.projections }] },
        none)
  | .deliver delivery ended =>
    ({ s with deliveries := s.deliveries.modify delivery (deliverNext · ended) }, none)

/-! ## What a publication calls -/

def raisedCall : Nat × CallEnd → Option (Nat × String)
  | (id, .raised error) => some (id, error)
  | _ => none

/-- The ids of the projections that fit, in order. -/
def fitting (event : RuntimeEnvelope ρ) (projections : List (Projection κ)) : List Nat :=
  (projections.filter (·.fits event)).map Projection.projection_id

/-- A publication of `event` to the projections `due`: so far it has called the first of them. -/
structure Due (event : RuntimeEnvelope ρ) (due : List Nat) (d : Delivery κ ρ) : Prop where
  event : d.event = event
  called : d.called.map Prod.fst ++ fitting d.event d.projections = due
  /-- The failures it raises are those of the calls that raised. -/
  failures : d.failures = d.called.filterMap raisedCall

variable {event : RuntimeEnvelope ρ} {due : List Nat}

theorem Due.deliverNext {d : Delivery κ ρ} (h : Due event due d) (ended : CallEnd) :
    Due event due (deliverNext d ended) := by
  unfold Events.deliverNext
  split
  · rename_i p rest _ hprojections
    have hcalled := h.called
    rw [hprojections, fitting] at hcalled
    split
    · rename_i hfits
      refine ⟨h.event, ?_, ?_⟩
      · rw [List.filter_cons_of_pos hfits] at hcalled
        rw [List.map_append, List.append_assoc]
        exact hcalled
      · show d.failures ++ _ = (d.called ++ _).filterMap raisedCall
        rw [List.filterMap_append, h.failures]
        cases ended <;> rfl
    · rename_i hfits
      rw [List.filter_cons_of_neg hfits] at hcalled
      exact ⟨h.event, hcalled, h.failures⟩
  · exact h

/-- The ids are given out in order. -/
def Ordered (p : EventPublisher κ ρ) : Prop :=
  (p.projections.map Projection.projection_id ++ [p.next_projection_id]).Pairwise (· < ·)

theorem Ordered.attach {p : EventPublisher κ ρ} (h : Ordered p) (projection : κ)
    (selector : Option (String × String)) : Ordered (p.attach projection selector).1 := by
  unfold Ordered EventPublisher.attach
  rw [List.map_append, List.pairwise_append]
  refine ⟨h, List.pairwise_singleton _ _, fun id hid last hlast => ?_⟩
  rw [List.mem_singleton.mp hlast]
  rcases List.mem_append.mp hid with hid | hid
  · exact Nat.lt_succ_of_lt ((List.pairwise_append.mp h).2.2 id hid _ List.mem_cons_self)
  · rw [List.mem_singleton.mp hid]
    exact Nat.lt_succ_self _

theorem ordered_step (s : System κ ρ) (i : Input κ ρ) (h : Ordered s.publisher) :
    Ordered (s.step i).1.publisher := by
  cases i with
  | attach projection producer name =>
    unfold System.step EventPublisher.attachProjection
    cases producer <;> cases name
    · exact h.attach _ _
    · exact h
    · exact h
    · dsimp only
      split <;> rename_i hattach <;> split at hattach <;> cases hattach
      · exact h
      · exact h.attach _ _
  | detach handle =>
    unfold System.step EventPublisher.detachProjection
    dsimp only
    split
    · exact h
    · exact h.sublist ((List.filter_sublist.map _).append (List.Sublist.refl _))
  | publish event =>
    unfold System.step
    dsimp only
    split <;> exact h
  | deliver delivery ended => exact h

theorem due_step {delivery : Nat} (s : System κ ρ) (i : Input κ ρ)
    (h : ∃ d, s.deliveries[delivery]? = some d ∧ Due event due d) :
    ∃ d, (s.step i).1.deliveries[delivery]? = some d ∧ Due event due d := by
  obtain ⟨d, hd, hdue⟩ := h
  cases i with
  | attach projection producer name =>
    unfold System.step
    dsimp only
    split <;> exact ⟨d, hd, hdue⟩
  | detach handle => exact ⟨d, hd, hdue⟩
  | publish event' =>
    unfold System.step
    dsimp only
    split
    · exact ⟨d, hd, hdue⟩
    · exact ⟨d, (List.getElem?_append_left (List.getElem?_eq_some_iff.mp hd).1).trans hd, hdue⟩
  | deliver delivery' ended =>
    show ∃ d, (s.deliveries.modify delivery' _)[delivery]? = some d ∧ _
    rw [List.getElem?_modify, hd]
    split
    · exact ⟨_, rfl, hdue.deliverNext ended⟩
    · exact ⟨d, rfl, hdue⟩

/-- **A publication calls the projections that were attached when it began**, once each and in the
    order in which they were attached, whatever is attached, detached and published meanwhile. -/
theorem publication_delivers (publisher_id : String)
    (definitions : String × String → Option (ρ → Bool)) (before after : List (Input κ ρ))
    (event : RuntimeEnvelope ρ) :
    let s := final System.step ⟨⟨publisher_id, definitions, 1, []⟩, []⟩ before
    let due := fitting event s.publisher.projections
    s.publisher.checkEnvelope event = .ok () →
      due.Pairwise (· < ·) ∧
        ∃ d, (final System.step s (.publish event :: after)).deliveries[s.deliveries.length]? =
          some d ∧ Due event due d := by
  intro s due hcheck
  have hordered : Ordered s.publisher :=
    @final_induct _ _ _ System.step (fun s => Ordered s.publisher) ordered_step _ before
      (List.pairwise_singleton _ _)
  refine ⟨(List.pairwise_append.mp hordered).1.sublist (List.filter_sublist.map _), ?_⟩
  refine final_induct due_step _ after ⟨⟨event, s.publisher.projections, [], [], false⟩, ?_, ?_⟩
  · show (s.step (.publish event)).1.deliveries[s.deliveries.length]? = _
    unfold System.step
    dsimp only
    rw [hcheck]
    exact List.getElem?_concat_length
  · exact ⟨rfl, rfl, rfl⟩

def turnStarted : RuntimeEnvelope Unit := ⟨.event, "turn.started", "chat", ()⟩

/-- The second projection is detached while the event is on its way to it. -/
theorem publication_delivers_detached :
    let s := final System.step ⟨⟨"daemon", fun _ => some fun _ => true, 1, []⟩, []⟩
      [.attach () none none, .attach () (some "chat") (some "turn.started")]
    ∃ d, (final System.step s [.publish turnStarted, .deliver 0 (.raised "full"),
      .detach ⟨"daemon", 2⟩, .deliver 0 .returned]).deliveries[0]? = some d ∧
        Due turnStarted [1, 2] d :=
  (publication_delivers "daemon" _ _ _ turnStarted rfl).2

end NuSelf.Runtime.Events
