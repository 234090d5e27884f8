/-
  The cancellation token.

  Threads call `cancel`, `register` and the removal callbacks that `register` returns; what each
  does under the lock is one step.  The closers are invoked outside the lock, one after the other,
  and between any two steps of a call the other threads may take theirs.  A closer may return or
  raise, and while it runs it may call the token itself: that is a step of another call here.

  Closers are told apart by `==`, for that is how the list of callbacks finds the one to remove.
  So the crux is a conservation law for each closer (`Account`): invoked, owed by a call on its way
  and still in the list make up the registrations that were not taken back.

  1. `at_most_once` — without any condition, no closer is invoked more often than registered;
  2. `account_step` — what a step preserves unless it takes back a registration for a second time
     while an equal closer is in the list;
  3. `settles` — the calls on their way can always be finished, whatever their closers do;
  4. `closers_invoked` — in every such run, each closer is invoked once for each registration that
     was not taken back before the cancel.
-/
import NuSelf.Lib.Run
import NuSelf.Lib.Sequence

namespace NuSelf.Runtime.Cancellation

open NuSelf.Lib

/-! ## The token -/

structure CancellationToken (κ : Type) where
  cancelled : Bool := false
  callbacks : List κ := []

namespace CancellationToken

variable {κ : Type} [DecidableEq κ]

/-- `cancel` under the lock: the closers to invoke, or nothing if it was cancelled before. -/
def cancel (token : CancellationToken κ) : Option (CancellationToken κ × List κ) :=
  if token.cancelled = true then none
  else some ({ cancelled := true, callbacks := [] }, token.callbacks)

/-- `register` under the lock: nothing if it comes too late. -/
def register (token : CancellationToken κ) (callback : κ) : Option (CancellationToken κ) :=
  if token.cancelled = true then none
  else some { token with callbacks := token.callbacks ++ [callback] }

/-- `_discard`: the first callback that is equal. -/
def discard (token : CancellationToken κ) (callback : κ) : CancellationToken κ :=
  { token with callbacks := token.callbacks.erase callback }

end CancellationToken

/-! ## Calls from many threads -/

inductive CallKind where
  | cancel
  /-- A `cancel` that found the token cancelled. -/
  | again
  /-- A `register` that came too late. -/
  | register
  deriving DecidableEq, Repr

/-- A call behind its locked section. -/
structure Call (κ : Type) where
  kind : CallKind
  /-- The closers that it has still to invoke. -/
  pending : List κ := []
  running : Option κ := none
  /-- How many of its closers have raised. -/
  failures : Nat := 0

inductive CallResult where
  | returned (value : Bool)
  /-- `CancellationCleanupError` of `cancel`. -/
  | cleanupError (failures : Nat)
  /-- `register` returned its removal callback. -/
  | registered
  /-- The closer of `register` raised. -/
  | raised
  deriving DecidableEq, Repr

/-- How a call ended, if it has. -/
def Call.result {κ : Type} (call : Call κ) : Option CallResult :=
  match call.running, call.pending with
  | none, [] =>
    some <| match call.kind with
      | .cancel => if call.failures = 0 then .returned true else .cleanupError call.failures
      | .again => .returned false
      | .register => if call.failures = 0 then .registered else .raised
  | _, _ => none

/-- One call of `register`. -/
structure Registration (κ : Type) where
  closer : κ
  /-- It came after the cancel, and its removal callback does nothing. -/
  late : Bool
  /-- It was taken back before the cancel. -/
  unregistered : Bool := false

structure Threads (κ : Type) where
  token : CancellationToken κ := {}
  calls : List (Call κ) := []
  /-- What has been registered, oldest first. -/
  registrations : List (Registration κ) := []
  /-- The closers that have been invoked, oldest first. -/
  invoked : List κ := []

inductive Event (κ : Type) where
  | cancel
  | register (callback : κ)
  /-- The removal callback of a registration is called. -/
  | unregister (registration : Nat)
  /-- A call invokes its next closer. -/
  | invoke (call : Nat)
  /-- The closer that a call has invoked returns, or raises. -/
  | finish (call : Nat) (raised : Bool)

section

variable {κ : Type} [DecidableEq κ]

def cancelStep (s : Threads κ) : Threads κ :=
  match s.token.cancel with
  | none => { s with calls := s.calls ++ [{ kind := .again }] }
  | some (token, callbacks) =>
    { s with token, calls := s.calls ++ [{ kind := .cancel, pending := callbacks }] }

def registerStep (s : Threads κ) (callback : κ) : Threads κ :=
  match s.token.register callback with
  | none =>
    { s with
      calls := s.calls ++ [{ kind := .register, pending := [callback] }]
      registrations := s.registrations ++ [{ closer := callback, late := true }] }
  | some token =>
    { s with
      token
      registrations := s.registrations ++ [{ closer := callback, late := false }] }

def unregisterStep (s : Threads κ) (registration : Nat) : Threads κ :=
  match s.registrations[registration]? with
  | none => s
  | some r =>
    if r.late = true then s
    else
      { s with
        token := s.token.discard r.closer
        registrations :=
          if s.token.cancelled = true then s.registrations
          else s.registrations.set registration { r with unregistered := true } }

def invokeStep (s : Threads κ) (i : Nat) : Threads κ :=
  match s.calls[i]? with
  | none => s
  | some call =>
    match call.running, call.pending with
    | none, c :: rest =>
      { s with
        calls := s.calls.set i { call with pending := rest, running := some c }
        invoked := s.invoked ++ [c] }
    | _, _ => s

def finishStep (s : Threads κ) (i : Nat) (raised : Bool) : Threads κ :=
  match s.calls[i]? with
  | none => s
  | some call =>
    if call.running = none then s
    else
      { s with
        calls := s.calls.set i
          { call with
            running := none
            failures := if raised = true then call.failures + 1 else call.failures } }

def step (s : Threads κ) : Event κ → Threads κ × Unit
  | .cancel => (cancelStep s, ())
  | .register callback => (registerStep s callback, ())
  | .unregister registration => (unregisterStep s registration, ())
  | .invoke i => (invokeStep s i, ())
  | .finish i raised => (finishStep s i raised, ())

/-! ## What is asked for -/

/-- How often a closer was registered. -/
def registered (s : Threads κ) (c : κ) : Nat :=
  s.registrations.countP fun r => decide (r.closer = c)

/-- How often it was registered and not taken back before the cancel. -/
def expected (s : Threads κ) (c : κ) : Nat :=
  s.registrations.countP fun r => decide (r.closer = c) && !r.unregistered

/-- How often it is still to be invoked by the calls on their way. -/
def owed (s : Threads κ) (c : κ) : Nat := (s.calls.map fun call => call.pending.count c).sum

/-- No call is on its way. -/
def Quiet (s : Threads κ) : Prop := ∀ call ∈ s.calls, call.pending = [] ∧ call.running = none

/-- The condition on a step: no registration is taken back for a second time while an equal closer
    is in the list. -/
def Once (s : Threads κ) : Event κ → Prop
  | .unregister registration => ∀ r, s.registrations[registration]? = some r →
      r.unregistered = true → r.closer ∉ s.token.callbacks
  | _ => True

/-! ## Nothing gets lost between the list and the calls -/

/-- How often a closer was invoked, is owed, or stands in the list. -/
def accounted (s : Threads κ) (c : κ) : Nat :=
  s.invoked.count c + owed s c + s.token.callbacks.count c

theorem owed_append (s : Threads κ) (call : Call κ) (c : κ) :
    ((s.calls ++ [call]).map fun call => call.pending.count c).sum =
      owed s c + call.pending.count c := by
  rw [owed, List.map_append, List.sum_append]
  rfl

theorem accounted_cancel (s : Threads κ) (c : κ) :
    accounted (cancelStep s) c = accounted s c := by
  unfold cancelStep CancellationToken.cancel
  by_cases hcancelled : s.token.cancelled = true
  · rw [if_pos hcancelled]
    dsimp only [accounted, owed]
    rw [owed_append]
    rfl
  · rw [if_neg hcancelled]
    dsimp only [accounted, owed]
    rw [owed_append, List.count_nil]
    exact (Nat.add_assoc _ _ _).symm

theorem accounted_register (s : Threads κ) (callback c : κ) :
    accounted (registerStep s callback) c = accounted s c + if callback = c then 1 else 0 := by
  have hone : [callback].count c = if callback = c then 1 else 0 := by
    rw [List.count_singleton]
    simp
  unfold registerStep CancellationToken.register
  by_cases hcancelled : s.token.cancelled = true
  · rw [if_pos hcancelled]
    dsimp only [accounted, owed]
    rw [owed_append, hone, owed]
    omega
  · rw [if_neg hcancelled]
    dsimp only [accounted, owed]
    rw [List.count_append, hone]
    omega

theorem accounted_invoke (s : Threads κ) (i : Nat) (c : κ) :
    accounted (invokeStep s i) c = accounted s c := by
  unfold invokeStep
  split
  · rfl
  · rename_i call hcall
    split
    · rename_i c' rest hrunning hpending
      have howed := @sum_map_set _ (fun call : Call κ => call.pending.count c)
        { call with pending := rest, running := some c' } s.calls i call hcall
      dsimp only [accounted, owed] at howed ⊢
      rw [hpending, List.count_cons] at howed
      rw [List.count_append, List.count_singleton]
      omega
    · rfl

theorem accounted_finish (s : Threads κ) (i : Nat) (raised : Bool) (c : κ) :
    accounted (finishStep s i raised) c = accounted s c := by
  unfold finishStep
  split
  · rfl
  · rename_i call hcall
    split
    · rfl
    · have howed := @sum_map_set _ (fun call : Call κ => call.pending.count c)
        { call with
          running := none
          failures := if raised = true then call.failures + 1 else call.failures }
        s.calls i call hcall
      dsimp only [accounted, owed] at howed ⊢
      omega

/-- Taking a registration back takes an equal closer out of the list, if there is one. -/
theorem accounted_unregister {s : Threads κ} {registration : Nat} {r : Registration κ}
    (hr : s.registrations[registration]? = some r) (hlate : r.late = false) (c : κ) :
    accounted (unregisterStep s registration) c +
      (if r.closer = c ∧ r.closer ∈ s.token.callbacks then 1 else 0) = accounted s c := by
  have herase : (s.token.callbacks.erase r.closer).count c +
      (if r.closer = c ∧ r.closer ∈ s.token.callbacks then 1 else 0) =
        s.token.callbacks.count c := by
    by_cases hc : r.closer = c
    · subst hc
      rw [List.count_erase_self]
      by_cases hmem : r.closer ∈ s.token.callbacks
      · have hpos := List.count_pos_iff.mpr hmem
        rw [if_pos ⟨rfl, hmem⟩]
        omega
      · rw [if_neg fun h => hmem h.2, List.count_eq_zero.mpr hmem]
    · rw [List.count_erase_of_ne (Ne.symm hc), if_neg fun h => hc h.1, Nat.add_zero]
  unfold unregisterStep
  rw [hr]
  dsimp only
  rw [if_neg (by rw [hlate]; exact Bool.false_ne_true)]
  dsimp only [accounted, owed, CancellationToken.discard]
  omega

/-! ## At most once -/

theorem expected_le_registered (s : Threads κ) (c : κ) : expected s c ≤ registered s c :=
  List.countP_mono_left fun _ _ h => (Bool.and_eq_true_iff.mp h).1

theorem registered_register (s : Threads κ) (callback c : κ) :
    registered (registerStep s callback) c = registered s c + if callback = c then 1 else 0 := by
  unfold registerStep
  split
  · rw [registered, List.countP_append, List.countP_singleton]
    simp [registered]
  · rw [registered, List.countP_append, List.countP_singleton]
    simp [registered]

theorem registered_unregister (s : Threads κ) (registration : Nat) (c : κ) :
    registered (unregisterStep s registration) c = registered s c := by
  unfold unregisterStep
  split
  · rfl
  · rename_i r hr
    split
    · rfl
    · dsimp only [registered]
      split
      · rfl
      · have hset := @countP_set _ (fun r : Registration κ => decide (r.closer = c))
          { r with unregistered := true } _ _ _ hr
        dsimp only at hset
        omega

omit [DecidableEq κ] in
theorem registrations_cancel (s : Threads κ) : (cancelStep s).registrations = s.registrations := by
  unfold cancelStep
  split <;> rfl

omit [DecidableEq κ] in
theorem registrations_invoke (s : Threads κ) (i : Nat) :
    (invokeStep s i).registrations = s.registrations := by
  unfold invokeStep
  split
  · rfl
  · split <;> rfl

omit [DecidableEq κ] in
theorem registrations_finish (s : Threads κ) (i : Nat) (raised : Bool) :
    (finishStep s i raised).registrations = s.registrations := by
  unfold finishStep
  split
  · rfl
  · split <;> rfl

theorem accounted_unregister_le (s : Threads κ) (registration : Nat) (c : κ) :
    accounted (unregisterStep s registration) c ≤ accounted s c := by
  cases hr : s.registrations[registration]? with
  | none => simp [unregisterStep, hr]
  | some r =>
    by_cases hlate : r.late = true
    · simp [unregisterStep, hr, hlate]
    · have h := accounted_unregister hr (Bool.eq_false_iff.mpr hlate) c
      omega

/-- **No step invokes, or promises to invoke, a closer more often than it was registered.** -/
theorem at_most_once_step {s : Threads κ} {c : κ} (h : accounted s c ≤ registered s c)
    (event : Event κ) : accounted (step s event).1 c ≤ registered (step s event).1 c := by
  cases event with
  | cancel =>
    show accounted (cancelStep s) c ≤ registered (cancelStep s) c
    rw [accounted_cancel, registered, registrations_cancel]
    exact h
  | register callback =>
    show accounted (registerStep s callback) c ≤ registered (registerStep s callback) c
    rw [accounted_register, registered_register]
    omega
  | unregister registration =>
    show accounted (unregisterStep s registration) c ≤ registered (unregisterStep s registration) c
    rw [registered_unregister]
    exact Nat.le_trans (accounted_unregister_le s registration c) h
  | invoke i =>
    show accounted (invokeStep s i) c ≤ registered (invokeStep s i) c
    rw [accounted_invoke, registered, registrations_invoke]
    exact h
  | finish i raised =>
    show accounted (finishStep s i raised) c ≤ registered (finishStep s i raised) c
    rw [accounted_finish, registered, registrations_finish]
    exact h

/-- **Never twice.**  Whatever the threads do, no closer is invoked more often than registered. -/
theorem at_most_once (events : List (Event κ)) (c : κ) :
    let s := final step ({} : Threads κ) events
    s.invoked.count c ≤ registered s c := by
  intro s
  have h : accounted s c ≤ registered s c :=
    @final_induct _ _ _ step (fun s => accounted s c ≤ registered s c)
      (fun _ event h => at_most_once_step h event) {} events (Nat.le_refl 0)
  rw [accounted] at h
  omega

/-! ## Exactly once -/

/-- The invariant: what is accounted for is what was registered and not taken back. -/
structure Account (s : Threads κ) : Prop where
  law : ∀ c, accounted s c = expected s c
  before : s.token.cancelled = false → s.calls = [] ∧ s.invoked = []
  after : s.token.cancelled = true → s.token.callbacks = []

theorem account_start : Account ({} : Threads κ) :=
  ⟨fun _ => rfl, fun _ => ⟨rfl, rfl⟩, fun h => (nomatch h)⟩

theorem Account.listed {s : Threads κ} (h : Account s) (hfresh : s.token.cancelled = false)
    (c : κ) : s.token.callbacks.count c = expected s c := by
  obtain ⟨hcalls, hinvoked⟩ := h.before hfresh
  have hlaw := h.law c
  rw [accounted, owed, hcalls, hinvoked] at hlaw
  simpa using hlaw

theorem expected_register (s : Threads κ) (callback c : κ) :
    expected (registerStep s callback) c = expected s c + if callback = c then 1 else 0 := by
  unfold registerStep
  split
  · rw [expected, List.countP_append, List.countP_singleton]
    simp [expected]
  · rw [expected, List.countP_append, List.countP_singleton]
    simp [expected]

theorem account_cancel {s : Threads κ} (h : Account s) : Account (cancelStep s) := by
  refine ⟨fun c => ?_, ?_, ?_⟩
  · rw [accounted_cancel, expected, registrations_cancel]
    exact h.law c
  · unfold cancelStep CancellationToken.cancel
    by_cases hcancelled : s.token.cancelled = true
    · rw [if_pos hcancelled]
      intro hfresh
      rw [hcancelled] at hfresh
      cases hfresh
    · rw [if_neg hcancelled]
      exact fun hfresh => nomatch hfresh
  · unfold cancelStep CancellationToken.cancel
    by_cases hcancelled : s.token.cancelled = true
    · rw [if_pos hcancelled]
      exact h.after
    · rw [if_neg hcancelled]
      exact fun _ => rfl

theorem account_register {s : Threads κ} (h : Account s) (callback : κ) :
    Account (registerStep s callback) := by
  refine ⟨fun c => ?_, ?_, ?_⟩
  · rw [accounted_register, expected_register, h.law c]
  · unfold registerStep CancellationToken.register
    by_cases hcancelled : s.token.cancelled = true
    · rw [if_pos hcancelled]
      intro hfresh
      rw [hcancelled] at hfresh
      cases hfresh
    · rw [if_neg hcancelled]
      exact h.before
  · unfold registerStep CancellationToken.register
    by_cases hcancelled : s.token.cancelled = true
    · rw [if_pos hcancelled]
      exact h.after
    · rw [if_neg hcancelled]
      exact fun hlater => absurd hlater hcancelled

theorem account_invoke {s : Threads κ} (h : Account s) (i : Nat) : Account (invokeStep s i) := by
  refine ⟨fun c => ?_, ?_, ?_⟩
  · rw [accounted_invoke, expected, registrations_invoke]
    exact h.law c
  · unfold invokeStep
    split
    · exact h.before
    · rename_i call hcall
      split
      · intro hfresh
        rw [(h.before hfresh).1] at hcall
        cases hcall
      · exact h.before
  · unfold invokeStep
    split
    · exact h.after
    · split
      · exact h.after
      · exact h.after

theorem account_finish {s : Threads κ} (h : Account s) (i : Nat) (raised : Bool) :
    Account (finishStep s i raised) := by
  refine ⟨fun c => ?_, ?_, ?_⟩
  · rw [accounted_finish, expected, registrations_finish]
    exact h.law c
  · unfold finishStep
    split
    · exact h.before
    · rename_i call hcall
      split
      · exact h.before
      · intro hfresh
        rw [(h.before hfresh).1] at hcall
        cases hcall
  · unfold finishStep
    split
    · exact h.after
    · split
      · exact h.after
      · exact h.after

theorem account_unregister {s : Threads κ} (h : Account s) {registration : Nat}
    (honce : Once s (.unregister registration)) : Account (unregisterStep s registration) := by
  cases hr : s.registrations[registration]? with
  | none =>
    rw [unregisterStep, hr]
    exact h
  | some r =>
    by_cases hlate : r.late = true
    · rw [unregisterStep, hr]
      dsimp only
      rw [if_pos hlate]
      exact h
    · have hcount := accounted_unregister hr (Bool.eq_false_iff.mpr hlate)
      by_cases hcancelled : s.token.cancelled = true
      · have hempty := h.after hcancelled
        have hexpected : ∀ c, expected (unregisterStep s registration) c = expected s c := by
          intro c
          simp [unregisterStep, hr, hlate, hcancelled, expected]
        refine ⟨fun c => ?_, ?_, ?_⟩
        · have hc := hcount c
          rw [if_neg fun hmem => by rw [hempty] at hmem; cases hmem.2] at hc
          rw [hexpected, ← h.law c]
          exact hc
        · simp [unregisterStep, hr, hlate, hcancelled, CancellationToken.discard]
        · simp [unregisterStep, hr, hlate, hcancelled, hempty, CancellationToken.discard]
      · have hfresh : s.token.cancelled = false := Bool.eq_false_iff.mpr hcancelled
        have hexpected : ∀ c, expected (unregisterStep s registration) c +
            (if r.closer = c ∧ r.unregistered = false then 1 else 0) = expected s c := by
          intro c
          have hset := @countP_set _
            (fun r : Registration κ => decide (r.closer = c) && !r.unregistered)
            { r with unregistered := true } _ _ _ hr
          simp only [Bool.not_true, Bool.and_false, Bool.false_eq_true, if_false, Bool.and_eq_true,
            decide_eq_true_eq, Bool.not_eq_true', Nat.add_zero] at hset
          have hafter : (unregisterStep s registration).registrations =
              s.registrations.set registration { r with unregistered := true } := by
            simp [unregisterStep, hr, hlate, hfresh]
          rw [expected, hafter]
          exact hset
        -- the list has an equal closer exactly if the registration was not taken back before
        have hlisted : r.closer ∈ s.token.callbacks ↔ r.unregistered = false := by
          constructor
          · intro hmem
            exact Bool.eq_false_iff.mpr fun hback => honce r hr hback hmem
          · intro hback
            have hpos : 0 < expected s r.closer :=
              List.countP_pos_iff.mpr ⟨r, List.mem_of_getElem? hr, by simp [hback]⟩
            rw [← h.listed hfresh r.closer] at hpos
            exact List.count_pos_iff.mp hpos
        refine ⟨fun c => ?_, ?_, ?_⟩
        · have hc := hcount c
          have hexp := hexpected c
          have hlaw := h.law c
          simp only [hlisted] at hc
          omega
        · obtain ⟨hcalls, hinvoked⟩ := h.before hfresh
          simp [unregisterStep, hr, hlate, hcalls, hinvoked]
        · simp [unregisterStep, hr, hlate, hfresh, CancellationToken.discard]

/-- **Every step keeps the account** unless it takes a registration back for a second time while an
    equal closer is in the list. -/
theorem account_step {s : Threads κ} {event : Event κ} (h : Account s) (honce : Once s event) :
    Account (step s event).1 := by
  cases event with
  | cancel => exact account_cancel h
  | register callback => exact account_register h callback
  | unregister registration => exact account_unregister h honce
  | invoke i => exact account_invoke h i
  | finish i raised => exact account_finish h i raised

/-! ## Calls come to an end -/

/-- What the calls on their way have still to do. -/
def work (s : Threads κ) : Nat :=
  (s.calls.map fun call =>
    2 * call.pending.length + if call.running.isSome = true then 1 else 0).sum

/-- A step of a call on its way, with the closers raising as they do. -/
def ByClosers (raises : κ → Bool) (s : Threads κ) : Event κ → Prop
  | .invoke _ => True
  | .finish i raised => ∀ call c, s.calls[i]? = some call → call.running = some c →
      raised = raises c
  | _ => False

theorem goes_on (raises : κ → Bool) {s : Threads κ} (h : ¬ Quiet s) :
    ∃ event, ByClosers raises s event ∧ work (step s event).1 < work s := by
  obtain ⟨call, hmem, hbusy⟩ : ∃ call ∈ s.calls, ¬ (call.pending = [] ∧ call.running = none) := by
    simpa [Quiet] using h
  obtain ⟨i, hcall⟩ := List.getElem?_of_mem hmem
  cases hrunning : call.running with
  | some c =>
    refine ⟨.finish i (raises c), ?_, ?_⟩
    · intro call' c' hcall' hrunning'
      obtain rfl : call = call' := Option.some.inj (hcall.symm.trans hcall')
      obtain rfl : c = c' := Option.some.inj (hrunning.symm.trans hrunning')
      rfl
    · have hless := @sum_map_set _ (fun call : Call κ =>
          2 * call.pending.length + if call.running.isSome = true then 1 else 0)
        { call with
          running := none
          failures := if raises c = true then call.failures + 1 else call.failures }
        s.calls i call hcall
      have hafter : (step s (.finish i (raises c))).1.calls = s.calls.set i
          { call with
            running := none
            failures := if raises c = true then call.failures + 1 else call.failures } := by
        simp [step, finishStep, hcall, hrunning]
      rw [work, hafter, work]
      simp only [hrunning, Option.isSome_some, Option.isSome_none, Bool.false_eq_true, if_true,
        if_false] at hless
      omega
  | none =>
    cases hpending : call.pending with
    | nil => exact absurd ⟨hpending, hrunning⟩ hbusy
    | cons c rest =>
      refine ⟨.invoke i, trivial, ?_⟩
      have hless := @sum_map_set _ (fun call : Call κ =>
          2 * call.pending.length + if call.running.isSome = true then 1 else 0)
        { call with pending := rest, running := some c } s.calls i call hcall
      have hafter : (step s (.invoke i)).1.calls =
          s.calls.set i { call with pending := rest, running := some c } := by
        simp [step, invokeStep, hcall, hrunning, hpending]
      rw [work, hafter, work]
      simp only [hrunning, hpending, List.length_cons, Option.isSome_some, Option.isSome_none,
        Bool.false_eq_true, if_true, if_false] at hless
      omega

/-- **The calls on their way can be finished**, whichever closers raise. -/
theorem settles (raises : κ → Bool) (s : Threads κ) :
    ∃ rest, (∀ e ∈ run step s rest, ByClosers raises e.before e.input) ∧
      Quiet (final step s rest) := by
  induction hwork : work s using Nat.strongRecOn generalizing s with
  | ind n ih =>
    by_cases hquiet : Quiet s
    · exact ⟨[], fun e he => (nomatch he), hquiet⟩
    · obtain ⟨event, hevent, hless⟩ := goes_on raises hquiet
      obtain ⟨rest, hrest, hend⟩ := ih _ (hwork ▸ hless) (step s event).1 rfl
      exact ⟨event :: rest, List.forall_mem_cons.mpr ⟨hevent, hrest⟩, hend⟩

theorem byClosers_keeps {raises : κ → Bool} {s : Threads κ} {event : Event κ}
    (h : ByClosers raises s event) :
    (step s event).1.registrations = s.registrations ∧ (step s event).1.token = s.token := by
  cases event with
  | cancel => exact h.elim
  | register callback => exact h.elim
  | unregister registration => exact h.elim
  | invoke i =>
    refine ⟨registrations_invoke s i, ?_⟩
    show (invokeStep s i).token = s.token
    unfold invokeStep
    split
    · rfl
    · split <;> rfl
  | finish i raised =>
    refine ⟨registrations_finish s i raised, ?_⟩
    show (finishStep s i raised).token = s.token
    unfold finishStep
    split
    · rfl
    · split <;> rfl

omit [DecidableEq κ] in
theorem once_of_byClosers {raises : κ → Bool} {s : Threads κ} {event : Event κ}
    (h : ByClosers raises s event) : Once s event := by
  cases event with
  | unregister registration => exact h.elim
  | cancel | register | invoke | finish => trivial

/-! ## Every run -/

theorem Account.invoked_eq {s : Threads κ} (h : Account s) (hcancelled : s.token.cancelled = true)
    (hquiet : Quiet s) (c : κ) : s.invoked.count c = expected s c := by
  have howed : owed s c = 0 := by
    refine List.sum_eq_zero_iff_forall_eq_nat.mpr fun n hn => ?_
    obtain ⟨call, hcall, rfl⟩ := List.mem_map.mp hn
    rw [(hquiet call hcall).1]
    rfl
  have hlaw := h.law c
  rw [accounted, h.after hcancelled, howed] at hlaw
  simpa using hlaw

/-- **Each closer is invoked once for each registration of it that was not taken back before the
    cancel**: never more often than registered, never before the cancel, and as often as expected
    when no call is on its way; and whichever closers raise, the calls on their way can be finished,
    and leave no closer out. -/
theorem closers_invoked (events : List (Event κ))
    (honce : ∀ e ∈ run step ({} : Threads κ) events, Once e.before e.input) :
    let s := final step ({} : Threads κ) events
    (∀ c, s.invoked.count c ≤ registered s c) ∧
      (s.token.cancelled = false → s.invoked = []) ∧
      (s.token.cancelled = true → Quiet s → ∀ c, s.invoked.count c = expected s c) ∧
      (s.token.cancelled = true → ∀ raises : κ → Bool, ∃ rest,
        (∀ e ∈ run step s rest, ByClosers raises e.before e.input) ∧
          ∀ c, (final step s rest).invoked.count c = expected s c) := by
  have haccount : Account (final step ({} : Threads κ) events) :=
    final_induct_of (fun _ _ => account_step) _ events account_start honce
  intro s
  refine ⟨fun c => ?_, fun hfresh => (haccount.before hfresh).2, haccount.invoked_eq, ?_⟩
  · have hlaw : s.invoked.count c + owed s c + s.token.callbacks.count c = expected s c :=
      haccount.law c
    have hle := expected_le_registered s c
    omega
  · intro hcancelled raises
    obtain ⟨rest, hrest, hquiet⟩ := settles raises s
    have hend : Account (final step s rest) := final_induct_of (fun _ _ => account_step) s rest
      haccount fun e he => once_of_byClosers (hrest e he)
    have hkept : (final step s rest).registrations = s.registrations ∧
        (final step s rest).token = s.token := by
      refine @final_induct_of _ _ _ step
        (fun t => t.registrations = s.registrations ∧ t.token = s.token) (ByClosers raises) ?_
        s rest ⟨rfl, rfl⟩ hrest
      intro t event ht hevent
      obtain ⟨hregistrations, htoken⟩ := byClosers_keeps hevent
      exact ⟨hregistrations.trans ht.1, htoken.trans ht.2⟩
    refine ⟨rest, hrest, fun c => ?_⟩
    have hcount := hend.invoked_eq (by rw [hkept.2]; exact hcancelled) hquiet c
    rw [hcount, expected, hkept.1]
    rfl

end

/-! ### Runs with a shared closer -/

/-- Two threads register the same closer and one takes its registration back; the cancel comes
    between a third registration and a fourth, and one closer raises. -/
def sharedEvents : List (Event String) :=
  [.register "close", .register "close", .register "log", .unregister 0, .cancel, .invoke 0,
    .register "late", .finish 0 true, .invoke 1, .invoke 0, .cancel, .finish 1 false,
    .finish 0 false]

theorem shared_closers_invoked :
    let s := final step ({} : Threads String) sharedEvents
    (∀ c, s.invoked.count c ≤ registered s c) ∧
      s.invoked = ["close", "late", "log"] ∧
      s.calls.map Call.result =
        [some (.cleanupError 1), some .registered, some (.returned false)] := by
  have honce : ∀ e ∈ run step ({} : Threads String) sharedEvents, Once e.before e.input := by
    simp [sharedEvents, run, step, Once, registerStep, CancellationToken.register]
  exact ⟨(closers_invoked sharedEvents honce).1, by decide, by decide⟩

/-- One thread takes its registration back twice, and with it that of another thread, which has
    registered an equal closer: the closer is expected once and is never invoked. -/
theorem taken_back_twice :
    let s := final step ({} : Threads String)
      [.register "close", .register "close", .unregister 0, .unregister 0, .cancel]
    s.token.cancelled = true ∧ Quiet s ∧ expected s "close" = 1 ∧ s.invoked.count "close" = 0 := by
  refine ⟨rfl, ?_, by decide, by decide⟩
  intro call hcall
  obtain rfl : call = { kind := .cancel } := List.mem_singleton.mp hcall
  exact ⟨rfl, rfl⟩

end NuSelf.Runtime.Cancellation
