/-
  The activity broker: live events fanned out to bounded subscriptions.

  Every method of the broker is one critical section of its condition, except `next_events`, which
  comes back to its section each time it is woken.  So a run of the broker is any sequence of
  sections: opening, publishing, closing, entering `next_events`, one more look of a caller that is
  in it.  The readings of the clock are inputs.  A subscription may also expire, which every
  section but `close` checks first.

  An observer keeps for each subscription what was published for its turn since it was opened, and
  the batches that were returned for it (`ActivityLog`).  The batches must account for what was
  published: in order, nothing twice, each batch behind exactly as many lost events as it says
  (`Lib.Spells`), and what is not accounted for yet must still be waiting (`Accounted`).

  1. `get_published`, `get_expired` — what a section does to one subscription.
  2. `accounted_step` — every section keeps the account of every subscription.
  3. `activity_accounted` — so it holds in every run.
-/
import Mathlib.Logic.Function.Basic
import NuSelf.Lib.Gaps
import NuSelf.Lib.Run
import NuSelf.Lib.Table

namespace NuSelf.Daemon

open NuSelf.Lib

/-! ## The broker -/

/-- `_ActivitySubscription`; `events` and `dropped_count` are its queue. -/
structure ActivitySubscription (Event : Type) where
  turn_id : String
  queue : DropQueue Event := {}
  last_access_at : Int

/-- What the constructor of the broker checks. -/
structure ActivitySettings where
  max_events : Nat
  ttl_seconds : Int
  max_positive : 1 ≤ max_events
  ttl_positive : 0 < ttl_seconds

inductive ActivityError where
  /-- `ActivitySubscriptionNotFound`. -/
  | notFound (subscription_id : String)
  | value (text : String)
  deriving DecidableEq

/-- The subscriptions, by id. -/
abbrev ActivityBroker (Event : Type) := Table String (ActivitySubscription Event)

namespace ActivityBroker

variable {Event : Type} (settings : ActivitySettings) (turnId : Event → Option String)

/-- `_expire_locked`. -/
def expired (now : Int) (b : ActivityBroker Event) : ActivityBroker Event :=
  b.filterRows fun _ s => !decide (s.last_access_at < now - settings.ttl_seconds)

/-- The loop of `publish` over the subscriptions. -/
def published (event : Event) (b : ActivityBroker Event) : ActivityBroker Event :=
  b.mapRows fun _ s =>
    if turnId event = some s.turn_id then
      { s with queue := s.queue.push settings.max_events event }
    else s

variable {settings turnId}

theorem get_expired {now : Int} {b : ActivityBroker Event} {id : String}
    {s : ActivitySubscription Event} (h : (b.expired settings now).get id = some s) :
    b.get id = some s := by
  rw [expired, Table.get_filterRows, Option.filter_eq_some_iff] at h
  exact h.1

theorem get_published (event : Event) (b : ActivityBroker Event) (id : String) :
    (b.published settings turnId event).get id = (b.get id).map fun s =>
      if turnId event = some s.turn_id then
        { s with queue := s.queue.push settings.max_events event }
      else s :=
  Table.get_mapRows _ _ _

end ActivityBroker

/-! ## Callers and sections -/

/-- A caller inside `next_events`: its arguments and its deadline. -/
structure ActivityPoll where
  subscription_id : String
  deadline : Int
  limit : Nat
  limit_positive : 1 ≤ limit

/-- The broker and the callers that wait in `next_events`. -/
structure ActivitySystem (ω Event : Type) where
  broker : ActivityBroker Event := .empty
  polls : ω → Option ActivityPoll := fun _ => none

inductive ActivityInput (ω Event : Type) where
  /-- `open`; the id is the `uuid4` that it draws. -/
  | openTurn (turn_id : String) (subscription_id : String) (now opened_at : Int)
  | publish (event : Event) (now : Int)
  /-- `next_events` up to its section. -/
  | poll (caller : ω) (subscription_id : String) (timeout_seconds limit : Int) (now : Int)
  /-- One pass of its loop: the readings of the clock for the expiry, the access, the deadline. -/
  | look (caller : ω) (now accessed_at checked_at : Int)
  | close (subscription_id : String)

inductive ActivityOutput (Event : Type) where
  | done
  | raised (error : ActivityError)
  | opened (subscription_id : String)
  /-- `next_events` has returned this batch for the subscription. -/
  | batch (subscription_id : String) (piece : Piece Event)
  /-- The caller waits on the condition. -/
  | waiting
  deriving DecidableEq

namespace ActivitySystem

variable {ω Event : Type} [DecidableEq ω] (settings : ActivitySettings)
  (turnId : Event → Option String)

/-- The caller leaves `next_events`. -/
def leave (caller : ω) (s : ActivitySystem ω Event) : ActivitySystem ω Event :=
  { s with polls := Function.update s.polls caller none }

/-- One pass of the loop of `next_events`. -/
def lookLocked (caller : ω) (p : ActivityPoll) (accessed_at checked_at : Int)
    (s : ActivitySystem ω Event) : ActivitySystem ω Event × ActivityOutput Event :=
  match s.broker.get p.subscription_id with
  | none => (s.leave caller, .raised (.notFound p.subscription_id))
  | some found =>
    let subscription := { found with last_access_at := accessed_at }
    if subscription.queue.items ≠ [] then
      let (piece, queue) := subscription.queue.take p.limit
      let broker := s.broker.set p.subscription_id { subscription with queue := queue }
      ({ s with broker := broker }.leave caller, .batch p.subscription_id piece)
    else
      let touched := { s with broker := s.broker.set p.subscription_id subscription }
      if p.deadline - checked_at ≤ 0 then (touched.leave caller, .batch p.subscription_id ⟨0, []⟩)
      else (touched, .waiting)

/-- One section. -/
def step (s : ActivitySystem ω Event) :
    ActivityInput ω Event → ActivitySystem ω Event × ActivityOutput Event
  | .openTurn turn_id subscription_id now opened_at =>
    if turn_id = "" then (s, .raised (.value "activity turn_id must not be empty"))
    else
      let broker := (s.broker.expired settings now).set subscription_id
        { turn_id, last_access_at := opened_at }
      ({ s with broker := broker }, .opened subscription_id)
  | .publish event now =>
    if turnId event = none then (s, .done)
    else
      let broker := (s.broker.expired settings now).published settings turnId event
      ({ s with broker := broker }, .done)
  | .poll caller subscription_id timeout_seconds limit now =>
    if timeout_seconds < 0 then (s, .raised (.value "activity timeout must not be negative"))
    else if h : limit < 1 then (s, .raised (.value "activity batch limit must be positive"))
    else
      let p : ActivityPoll :=
        ⟨subscription_id, now + timeout_seconds, limit.toNat, by omega⟩
      ({ s with polls := Function.update s.polls caller (some p) }, .waiting)
  | .look caller now accessed_at checked_at =>
    match s.polls caller with
    | none => (s, .done)
    | some p =>
      lookLocked caller p accessed_at checked_at
        { s with broker := s.broker.expired settings now }
  | .close subscription_id => ({ s with broker := s.broker.erase subscription_id }, .done)

end ActivitySystem

/-! ## The account -/

/-- What an observer knows of one subscription. -/
structure ActivityLog (Event : Type) where
  turn_id : String
  published : List Event := []
  batches : List (Piece Event) := []

/-- What the observer knows of every id that was opened. -/
abbrev ActivityLogs (Event : Type) := String → Option (ActivityLog Event)

namespace ActivityLog

variable {ω Event : Type} (turnId : Event → Option String)

/-- A published event is noted where its turn is the one subscribed to. -/
def note (event : Event) (l : ActivityLog Event) : ActivityLog Event :=
  if turnId event = some l.turn_id then { l with published := l.published ++ [event] } else l

def read (piece : Piece Event) (l : ActivityLog Event) : ActivityLog Event :=
  { l with batches := l.batches ++ [piece] }

/-- The observer sees the calls and what they return. -/
def see (logs : ActivityLogs Event)
    (e : Step (ActivitySystem ω Event) (ActivityInput ω Event) (ActivityOutput Event)) :
    ActivityLogs Event :=
  match e.input, e.output with
  | .openTurn turn_id _ _ _, .opened subscription_id =>
    Function.update logs subscription_id (some { turn_id })
  | .publish event _, _ => fun id => (logs id).map (note turnId event)
  | _, .batch subscription_id piece =>
    Function.update logs subscription_id ((logs subscription_id).map (read piece))
  | _, _ => logs

end ActivityLog

/-- The batches of a subscription account for what was published to it. -/
structure Accounted {Event : Type} (b : ActivityBroker Event) (id : String)
    (l : ActivityLog Event) : Prop where
  /-- The batches, in order, each behind as many lost events as it says; `unread` is not read. -/
  batches : ∃ unread, Spells unread l.published l.batches
  /-- While the subscription lives, what has not been read waits in its queue or is counted there. -/
  live : ∀ s, b.get id = some s → Spells [] l.published (l.batches ++ [s.queue.piece])
  /-- Delivered events are a part of the published ones, in their order. -/
  ordered : (l.batches.flatMap Piece.items).Sublist l.published
  /-- Each event is delivered, or counted as dropped, or waits. -/
  counted : ∀ s, b.get id = some s → l.published.length =
    (l.batches.flatMap Piece.items).length + s.queue.items.length +
      ((l.batches.map Piece.lost).sum + s.queue.dropped)
  /-- A batch that says something was lost is not empty. -/
  followed : ∀ p ∈ l.batches, 0 < p.lost → p.items ≠ []

/-! ## The invariant -/

variable {ω Event : Type} {settings : ActivitySettings} {turnId : Event → Option String}

/-- What the account of a living subscription rests on. -/
structure Kept (settings : ActivitySettings) (l : ActivityLog Event)
    (s : ActivitySubscription Event) : Prop where
  turn : s.turn_id = l.turn_id
  sound : s.queue.Sound settings.max_events
  spells : ∃ waiting, Spells waiting l.published l.batches ∧ Spells [] waiting [s.queue.piece]

structure ActivityInv (settings : ActivitySettings) (b : ActivityBroker Event)
    (logs : ActivityLogs Event) : Prop where
  /-- Whoever is subscribed has been seen to open. -/
  kept : ∀ id sub, b.get id = some sub → ∃ l, logs id = some l ∧ Kept settings l sub
  batches : ∀ id l, logs id = some l → ∃ unread, Spells unread l.published l.batches
  followed : ∀ id l, logs id = some l → ∀ p ∈ l.batches, 0 < p.lost → p.items ≠ []

variable {b b' : ActivityBroker Event} {logs : ActivityLogs Event}

theorem ActivityInv.accounted (h : ActivityInv settings b logs) {id : String}
    {l : ActivityLog Event} (hl : logs id = some l) : Accounted b id l := by
  have hlive : ∀ sub, b.get id = some sub →
      Spells [] l.published (l.batches ++ [sub.queue.piece]) := by
    intro sub hsub
    obtain ⟨l', hl', hkept⟩ := h.kept id sub hsub
    cases hl.symm.trans hl'
    obtain ⟨waiting, hread, hwaiting⟩ := hkept.spells
    exact hread.snoc hwaiting
  refine ⟨h.batches id l hl, hlive, ?_, fun sub hsub => ?_, h.followed id l hl⟩
  · obtain ⟨unread, hread⟩ := h.batches id l hl
    exact (List.sublist_append_left _ _).trans hread.sublist
  · have hlength := (hlive sub hsub).length_eq
    simp only [List.flatMap_append, List.map_append, List.sum_append, List.length_append] at hlength
    simp only [DropQueue.piece, List.flatMap_cons, List.flatMap_nil, List.append_nil,
      List.map_cons, List.map_nil, List.sum_cons, List.sum_nil, List.length_nil] at hlength
    omega

theorem ActivityInv.fewer (h : ActivityInv settings b logs)
    (hb : ∀ id sub, b'.get id = some sub → b.get id = some sub) : ActivityInv settings b' logs :=
  ⟨fun id sub hsub => h.kept id sub (hb id sub hsub), h.batches, h.followed⟩

theorem ActivityInv.expired (h : ActivityInv settings b logs) (now : Int) :
    ActivityInv settings (b.expired settings now) logs :=
  h.fewer fun _ _ hsub => ActivityBroker.get_expired hsub

/-- A new subscription starts a new account, whatever its id was used for before. -/
theorem ActivityInv.opened (h : ActivityInv settings b logs) (id turn_id : String)
    (opened_at : Int) :
    ActivityInv settings (b.set id { turn_id, last_access_at := opened_at })
      (Function.update logs id (some { turn_id })) where
  kept := by
    intro q sub hsub
    rw [Table.get_set] at hsub
    split at hsub
    · rename_i hq
      cases hsub
      subst hq
      refine ⟨{ turn_id }, Function.update_self _ _ _, rfl, DropQueue.sound_empty _, [], rfl, ?_⟩
      exact ⟨[], [], rfl, rfl, rfl⟩
    · rename_i hq
      rw [Function.update_of_ne hq]
      exact h.kept q sub hsub
  batches := by
    intro q l hl
    by_cases hq : q = id
    · subst hq
      rw [Function.update_self] at hl
      cases hl
      exact ⟨[], rfl⟩
    · rw [Function.update_of_ne hq] at hl
      exact h.batches q l hl
  followed := by
    intro q l hl
    by_cases hq : q = id
    · subst hq
      rw [Function.update_self] at hl
      cases hl
      exact fun p hp => nomatch hp
    · rw [Function.update_of_ne hq] at hl
      exact h.followed q l hl

/-- A published event is waiting for, or counted by, whoever subscribes to its turn. -/
theorem Kept.note {l : ActivityLog Event} {sub : ActivitySubscription Event}
    (h : Kept settings l sub) (event : Event) :
    Kept settings (l.note turnId event)
      (if turnId event = some sub.turn_id then
        { sub with queue := sub.queue.push settings.max_events event } else sub) := by
  rw [ActivityLog.note]
  by_cases hturn : turnId event = some l.turn_id
  · rw [if_pos hturn, if_pos (by rw [h.turn]; exact hturn)]
    obtain ⟨waiting, hread, hwaiting⟩ := h.spells
    exact ⟨h.turn, DropQueue.sound_push settings.max_positive event _, waiting ++ [event],
      hread.grow [event], DropQueue.spells_push hwaiting _ event⟩
  · rw [if_neg hturn, if_neg (by rw [h.turn]; exact hturn)]
    exact h

theorem ActivityInv.published (h : ActivityInv settings b logs) (event : Event) :
    ActivityInv settings (b.published settings turnId event)
      fun id => (logs id).map (ActivityLog.note turnId event) where
  kept := by
    intro id sub hsub
    rw [ActivityBroker.get_published, Option.map_eq_some_iff] at hsub
    obtain ⟨old, hold, rfl⟩ := hsub
    obtain ⟨l, hl, hkept⟩ := h.kept id old hold
    exact ⟨_, by rw [hl]; rfl, hkept.note event⟩
  batches := by
    intro id l hl
    obtain ⟨old, hold, rfl⟩ := Option.map_eq_some_iff.mp hl
    obtain ⟨unread, hread⟩ := h.batches id old hold
    unfold ActivityLog.note
    split
    · exact ⟨unread ++ [event], hread.grow [event]⟩
    · exact ⟨unread, hread⟩
  followed := by
    intro id l hl
    obtain ⟨old, hold, rfl⟩ := Option.map_eq_some_iff.mp hl
    unfold ActivityLog.note
    split <;> exact h.followed id old hold

theorem ActivityInv.turnless (h : ActivityInv settings b logs) {event : Event}
    (hturn : turnId event = none) :
    ActivityInv settings b fun id => (logs id).map (ActivityLog.note turnId event) := by
  have hsame : ActivityLog.note turnId event = id := by
    funext l
    rw [ActivityLog.note, hturn]
    exact if_neg (by simp)
  simpa only [hsame, Option.map_id_fun, id] using h

/-- A batch is returned, and the queue of the subscription is what is left. -/
theorem ActivityInv.read (h : ActivityInv settings b logs) {id : String}
    {found sub : ActivitySubscription Event} (hfound : b.get id = some found) {piece : Piece Event}
    (hturn : sub.turn_id = found.turn_id) (hsound : sub.queue.Sound settings.max_events)
    (hspells : ∀ waiting, Spells [] waiting [found.queue.piece] →
      ∃ left, Spells left waiting [piece] ∧ Spells [] left [sub.queue.piece])
    (hfollowed : 0 < piece.lost → piece.items ≠ []) :
    ActivityInv settings (b.set id sub)
      (Function.update logs id ((logs id).map (ActivityLog.read piece))) := by
  obtain ⟨l, hl, hkept⟩ := h.kept id found hfound
  obtain ⟨waiting, hread, hwaiting⟩ := hkept.spells
  obtain ⟨left, hpiece, hleft⟩ := hspells waiting hwaiting
  have hnew : (logs id).map (ActivityLog.read piece) = some (l.read piece) := by rw [hl]; rfl
  refine ⟨fun q sub' hsub => ?_, fun q l' hl' => ?_, fun q l' hl' => ?_⟩
  · rw [Table.get_set] at hsub
    split at hsub
    · rename_i hq
      cases hsub
      subst hq
      rw [Function.update_self, hnew]
      exact ⟨_, rfl, hturn.trans hkept.turn, hsound, left, hread.snoc hpiece, hleft⟩
    · rename_i hq
      rw [Function.update_of_ne hq]
      exact h.kept q sub' hsub
  · by_cases hq : q = id
    · subst hq
      rw [Function.update_self, hnew] at hl'
      cases hl'
      exact ⟨left, hread.snoc hpiece⟩
    · rw [Function.update_of_ne hq] at hl'
      exact h.batches q l' hl'
  · by_cases hq : q = id
    · subst hq
      rw [Function.update_self, hnew] at hl'
      cases hl'
      intro p hp
      rcases List.mem_append.mp hp with hp | hp
      · exact h.followed q l hl p hp
      · rw [List.mem_singleton.mp hp]
        exact hfollowed
    · rw [Function.update_of_ne hq] at hl'
      exact h.followed q l' hl'

theorem ActivityInv.touched (h : ActivityInv settings b logs) {id : String}
    {found : ActivitySubscription Event} (hfound : b.get id = some found) (accessed_at : Int) :
    ActivityInv settings (b.set id { found with last_access_at := accessed_at }) logs where
  kept := by
    intro q sub hsub
    rw [Table.get_set] at hsub
    split at hsub
    · rename_i hq
      cases hsub
      subst hq
      obtain ⟨l, hl, hkept⟩ := h.kept q found hfound
      exact ⟨l, hl, hkept.turn, hkept.sound, hkept.spells⟩
    · exact h.kept q sub hsub
  batches := h.batches
  followed := h.followed

theorem see_look (s s' : ActivitySystem ω Event) (caller : ω) (now accessed_at checked_at : Int)
    (o : ActivityOutput Event) :
    ActivityLog.see turnId logs ⟨s, .look caller now accessed_at checked_at, o, s'⟩ =
      match o with
      | .batch id piece => Function.update logs id ((logs id).map (ActivityLog.read piece))
      | _ => logs := by
  cases o <;> rfl

theorem activityInv_start :
    ActivityInv settings ({} : ActivitySystem ω Event).broker fun _ => none :=
  ⟨fun _ _ h => (nomatch h), fun _ _ h => (nomatch h), fun _ _ h => (nomatch h)⟩

variable [DecidableEq ω]

theorem ActivityInv.look {s : ActivitySystem ω Event} (h : ActivityInv settings s.broker logs)
    (caller : ω) (p : ActivityPoll) (accessed_at checked_at : Int) :
    ActivityInv settings (ActivitySystem.lookLocked caller p accessed_at checked_at s).1.broker
      (match (ActivitySystem.lookLocked caller p accessed_at checked_at s).2 with
        | .batch id piece => Function.update logs id ((logs id).map (ActivityLog.read piece))
        | _ => logs) := by
  unfold ActivitySystem.lookLocked
  split
  · exact h
  · rename_i found hfound
    obtain ⟨l, hl, hkept⟩ := h.kept _ found hfound
    dsimp only
    split
    · exact h.read hfound rfl (DropQueue.sound_take hkept.sound p.limit)
        (fun waiting hwaiting => DropQueue.spells_take hwaiting p.limit)
        (DropQueue.take_followed hkept.sound p.limit_positive)
    · rename_i hempty
      split
      · -- nothing waits: the empty batch says so, and the queue stays as it is
        refine h.read hfound rfl hkept.sound (fun waiting hwaiting => ⟨waiting, ?_, hwaiting⟩)
          (fun hlost => absurd hlost (Nat.lt_irrefl 0))
        exact ⟨[], waiting, rfl, rfl, rfl⟩
      · exact h.touched hfound accessed_at

/-- **Every section keeps the account** of every subscription. -/
theorem accounted_step (s : ActivitySystem ω Event × ActivityLogs Event)
    (i : ActivityInput ω Event) (h : ActivityInv settings s.1.broker s.2) :
    ActivityInv settings
      (watched (ActivitySystem.step settings turnId) (ActivityLog.see turnId) s i).1.1.broker
      (watched (ActivitySystem.step settings turnId) (ActivityLog.see turnId) s i).1.2 := by
  obtain ⟨s, logs⟩ := s
  cases i with
  | openTurn turn_id subscription_id now opened_at =>
    unfold watched ActivitySystem.step ActivityLog.see
    dsimp only
    split
    · exact h
    · exact (h.expired now).opened subscription_id turn_id opened_at
  | publish event now =>
    unfold watched ActivitySystem.step ActivityLog.see
    dsimp only
    split
    · rename_i hturn
      exact h.turnless hturn
    · exact (h.expired now).published event
  | poll caller subscription_id timeout_seconds limit now =>
    unfold watched ActivitySystem.step ActivityLog.see
    dsimp only
    split
    · exact h
    · split <;> exact h
  | look caller now accessed_at checked_at =>
    cases hpoll : s.polls caller with
    | none =>
      simp only [watched, ActivitySystem.step, hpoll, see_look]
      exact h
    | some p =>
      have hlook := ActivityInv.look (s := { s with broker := s.broker.expired settings now })
        (h.expired now) caller p accessed_at checked_at
      simp only [watched, ActivitySystem.step, hpoll, see_look]
      exact hlook
  | close subscription_id =>
    refine h.fewer fun id sub hsub => ?_
    have hsub : (s.broker.erase subscription_id).get id = some sub := hsub
    rw [Table.get_erase] at hsub
    split at hsub
    · cases hsub
    · exact hsub

/-- The broker and its observer after a run from nothing. -/
def activityRun (settings : ActivitySettings) (turnId : Event → Option String)
    (inputs : List (ActivityInput ω Event)) : ActivitySystem ω Event × ActivityLogs Event :=
  final (watched (ActivitySystem.step settings turnId) (ActivityLog.see turnId))
    ({}, fun _ => none) inputs

/-- **The broker accounts for every event**, in every run of any callers: of what is published to a
    subscription, its batches return the events in order and each once, count exactly the ones that
    are missing in front of each batch, and the rest is waiting. -/
theorem activity_accounted (settings : ActivitySettings) (turnId : Event → Option String)
    (inputs : List (ActivityInput ω Event)) (id : String) (l : ActivityLog Event)
    (h : (activityRun settings turnId inputs).2 id = some l) :
    Accounted (activityRun settings turnId inputs).1.broker id l :=
  (final_induct (fun s i => accounted_step s i) _ inputs activityInv_start).accounted h

/-- Three events for a queue of two, read one at a time. -/
def crowdedTurn : List (ActivityInput Unit (Option String × String)) :=
  [.openTurn "turn-1" "s" 0 0, .publish (some "turn-1", "first") 1,
    .publish (some "other", "ignored") 2, .publish (some "turn-1", "second") 3,
    .publish (some "turn-1", "third") 4, .poll () "s" 0 1 5, .look () 5 5 5,
    .poll () "s" 0 1 6, .look () 6 6 6]

theorem crowdedTurn_accounted :
    Accounted (activityRun ⟨2, 300, by decide, by decide⟩ Prod.fst crowdedTurn).1.broker "s"
      ⟨"turn-1", [(some "turn-1", "first"), (some "turn-1", "second"), (some "turn-1", "third")],
        [⟨1, [(some "turn-1", "second")]⟩, ⟨0, [(some "turn-1", "third")]⟩]⟩ :=
  activity_accounted _ _ _ _ _ rfl

end NuSelf.Daemon
