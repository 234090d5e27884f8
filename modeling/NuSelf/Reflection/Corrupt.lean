/-
  A corrupt schedule state, and the one way around it.

  `reflect` is meant to do nothing while the stored schedule state does not decode.  It sees the
  corrupt state only as the first reason found to block the cycle, and quiet hours are looked at
  before: in quiet hours the reason is "quiet_hours", and a forced call passes by that.  It then
  generates a candidate and saves an entry before it reads the state again and raises.

  1. `corrupt_uncounted` — the corrupt record is never overwritten and the inbox gets nothing.
  2. `generated_cycle` — a cycle that starts generates.
  3. `corrupt_failClosed_iff` — the call is fail-closed exactly when it is not forced in quiet
     hours.
-/
import NuSelf.Reflection.Limits

namespace NuSelf.Reflection

open NuSelf.Lib NuSelf.Lib.Interruptible

section

variable {settings : ReflectionSettings} {clock : LocalClock} {time : PydanticTime}
  {w : ReflectionWorld} {call : ReflectCall} {error : ReflectionScheduleStateError}

/-! ## What survives in any case -/

theorem publish_corrupt (hcorrupt : ReflectionScheduleState.decode time w.schedule = .error error)
    (entry : ReflectionEntry) :
    Preserves (Uncounted w) (publish settings clock time call entry) := by
  have htraced : Preserves (Uncounted w)
      (catching (ends call.traced) fun _ => pure () : Interruptible Cycle ReflectError Unit) :=
    (preserves_ends _).catching fun _ => preserves_pure _
  refine (saveGeneratedEntry_uncounted entry).bind fun _ => htraced.bind fun _ =>
    (organize_uncounted _).bind fun _ c hc => ?_
  -- the state is read again, and does not decode now either
  have hraised : writeLastReflection clock time call entry.title entry.body c =
      (.raised .scheduleState, c) := by
    rw [writeLastReflection, get_bind, hc.schedule, hcorrupt]
    rfl
  rw [raised_bind hraised]
  exact hc

theorem cycle_corrupt (hcorrupt : ReflectionScheduleState.decode time w.schedule = .error error) :
    Preserves (Uncounted w) (cycle settings clock time call) := by
  refine (organize_uncounted _).bind fun _ => generate_uncounted.bind fun candidates => ?_
  cases candidates with
  | nil => exact preserves_pure false
  | cons best rest =>
    refine (preserves_ends _).bind fun score => ?_
    split
    · exact preserves_pure false
    · rw [discussAndPublish]
      split
      · refine (preserves_ends _).bind fun result => ?_
        split
        · exact preserves_pure false
        · exact publish_corrupt hcorrupt _
      · exact publish_corrupt hcorrupt _

/-- **The record stays as it is, and nothing reaches the inbox.** -/
theorem corrupt_uncounted
    (hcorrupt : ReflectionScheduleState.decode time w.schedule = .error error) :
    Uncounted w (reflect settings clock time call { world := w }).2 := by
  have hstart : Uncounted w { world := w } := ⟨rfl, rfl, fun _ hmem => nomatch hmem⟩
  rw [reflect, get_bind]
  split
  · exact hstart
  · exact cycle_corrupt hcorrupt _ hstart

/-! ## The generator in a cycle -/

/-- A candidate was asked for. -/
def Generated (c : Cycle) : Prop := ReflectAction.generated ∈ c.trace

theorem generated_write {answer : WriteAnswer ReflectError} {put : Cycle → Cycle}
    (h : ∀ c, ∃ more, (put c).trace = c.trace ++ more) : Preserves Generated (write answer put) := by
  refine preserves_write fun c hc => ?_
  obtain ⟨more, htrace⟩ := h c
  rw [Generated, htrace]
  exact List.mem_append_left _ hc

theorem generated_organize (x : Interruptible ReflectionEntries ReflectError Unit) :
    Preserves Generated (organizePendingReflections x) :=
  Preserves.catching (fun _ hc => hc) fun _ => preserves_pure _

theorem generated_save (entry : ReflectionEntry) :
    Preserves Generated (saveGeneratedEntry call entry) := by
  refine Preserves.get_bind fun c hc => ?_
  cases c.world.entries.save entry with
  | none => exact hc
  | some entries => exact generated_write (fun c => ⟨[.saved entry.id], rfl⟩) c hc

theorem generated_writeLast (title body : String) :
    Preserves Generated (writeLastReflection clock time call title body) := by
  refine Preserves.get_bind fun c hc => ?_
  cases ReflectionScheduleState.decode time c.world.schedule with
  | error e => exact hc
  | ok current => exact generated_write (fun c => ⟨[.scheduled], rfl⟩) c hc

theorem generated_request (item_id : String) :
    Preserves Generated (requestDelivery call item_id) := by
  refine Preserves.get_bind fun c hc => ?_
  cases c.world.deliveries.request item_id with
  | none => exact hc
  | some deliveries =>
    show Generated (write call.requested _ c).2
    refine preserves_write (fun c hc => ?_) c hc
    exact hc

theorem generated_publishInbox (entry : ReflectionEntry) :
    Preserves Generated (publishInbox settings call entry) := by
  rw [publishInbox]
  split
  · refine Preserves.get_bind fun c hc => ?_
    refine Preserves.bind (generated_write fun c => ⟨[.published entry.id], rfl⟩) (fun _ => ?_) c hc
    split
    · exact generated_request _
    · exact preserves_pure ()
  · exact preserves_raise _

theorem generated_publish (entry : ReflectionEntry) :
    Preserves Generated (publish settings clock time call entry) :=
  (generated_save entry).bind fun _ =>
    ((preserves_ends _).catching fun _ => preserves_pure _).bind fun _ =>
    (generated_organize _).bind fun _ => (generated_writeLast _ _).bind fun _ =>
    (generated_publishInbox entry).bind fun _ => preserves_pure true

theorem generated_discussAndPublish (best : IdeaCandidate) (score : RelevanceScore) :
    Preserves Generated (discussAndPublish settings clock time call best score) := by
  rw [discussAndPublish]
  split
  · refine (preserves_ends _).bind fun result => ?_
    split
    · exact preserves_pure false
    · exact generated_publish _
  · exact generated_publish _

/-- **A cycle generates**, unless the process stops before. -/
theorem generated_cycle (c : Cycle) (hruns : (call.organizedBefore c.world.entries).1 ≠ .stopped) :
    Generated (cycle settings clock time call c).2 := by
  have horganized := organize_run c call.organizedBefore
  rw [if_neg hruns] at horganized
  rw [cycle, returned_bind horganized]
  have hgenerates : Leads (fun _ => True) Generated (generate call) := by
    intro c' _
    have hmem : ReflectAction.generated ∈ c'.trace ++ [.generated] :=
      List.mem_append_right _ List.mem_cons_self
    exact hmem
  refine hgenerates.bind (fun _ h => h) (fun candidates => ?_) _ trivial
  cases candidates with
  | nil => exact preserves_pure false
  | cons best rest =>
    refine Preserves.bind (preserves_ends _) fun score => ?_
    split
    · exact preserves_pure false
    · exact generated_discussAndPublish best score

theorem cycle_stopped (c : Cycle) (hstops : (call.organizedBefore c.world.entries).1 = .stopped) :
    (cycle settings clock time call c).2 =
      { c with world := { c.world with entries := (call.organizedBefore c.world.entries).2 } } := by
  have horganized := organize_run c call.organizedBefore
  rw [if_pos hstops] at horganized
  rw [cycle, stopped_bind horganized]

/-! ## Fail-closed -/

/-- Nothing was generated, saved, counted or published. -/
structure FailClosed (w : ReflectionWorld) (c : Cycle) : Prop where
  no_candidate : ¬ Generated c
  no_entry : c.world.entries = w.entries
  schedule : c.world.schedule = w.schedule
  inbox : c.world.inbox = w.inbox

/-- A corrupt state blocks, unless quiet hours come first and force passes by them. -/
theorem blocked_corrupt
    (hcorrupt : ReflectionScheduleState.decode time w.schedule = .error error) :
    blocked settings clock time call w.schedule =
      !(call.force && inQuietHours settings clock call.now) := by
  rw [blocked, scheduleBlockReason, hcorrupt]
  cases inQuietHours settings clock call.now with
  | true => simp
  | false => simp

end

/-- **Fail-closed, exactly when the call is not forced in quiet hours**, or the process stops in
    the organizer before anything is written. -/
theorem corrupt_failClosed_iff (settings : ReflectionSettings) (clock : LocalClock)
    (time : PydanticTime) (w : ReflectionWorld) (call : ReflectCall)
    (hcorrupt : ReflectionScheduleState.decode time w.schedule = .error ⟨⟩) :
    FailClosed w (reflect settings clock time call { world := w }).2 ↔
      ¬ (call.force = true ∧ inQuietHours settings clock call.now = true) ∨
        call.organizedBefore w.entries = (.stopped, w.entries) := by
  have hblocked : blocked settings clock time call w.schedule =
      !(call.force && inQuietHours settings clock call.now) := blocked_corrupt hcorrupt
  rw [reflect, get_bind]
  by_cases hpass : call.force = true ∧ inQuietHours settings clock call.now = true
  · -- the cycle runs
    have hopen : blocked settings clock time call w.schedule = false := by
      rw [hblocked, hpass.1, hpass.2]
      rfl
    rw [hopen, if_neg Bool.false_ne_true]
    constructor
    · intro hclosed
      refine Or.inr ?_
      by_contra hne
      by_cases hruns : (call.organizedBefore w.entries).1 = .stopped
      · rw [cycle_stopped { world := w } hruns] at hclosed
        exact hne (Prod.ext hruns hclosed.no_entry)
      · exact hclosed.no_candidate (generated_cycle { world := w } hruns)
    · rintro (hnot | hstopped)
      · exact absurd hpass hnot
      · rw [cycle_stopped { world := w } (congrArg Prod.fst hstopped)]
        refine { no_candidate := fun hmem => ?_, no_entry := ?_, schedule := rfl, inbox := rfl }
        · exact absurd hmem List.not_mem_nil
        · exact congrArg Prod.snd hstopped
  · have hclosed : blocked settings clock time call w.schedule = true := by
      rw [hblocked, Bool.not_eq_true', ← Bool.not_eq_true, Bool.and_eq_true]
      exact hpass
    rw [hclosed, if_pos rfl]
    refine ⟨fun _ => Or.inl hpass, fun _ => ?_⟩
    refine { no_candidate := fun hmem => ?_, no_entry := rfl, schedule := rfl, inbox := rfl }
    exact absurd hmem List.not_mem_nil

/-- A record of a version that nobody knows. -/
def unknownVersion : Storage.Record where
  rows := [("id", .str "reflection"), ("schema_version", .int 2)]
  nodup := by decide

/-- Eleven at night. -/
def nightCall (force : Bool) : ReflectCall :=
  fullCall "a" 1767308400000000 "2026-01-01T23:00:00+00:00" force

/-- **Forced at night**: the entry is saved, and then the call raises. -/
theorem forced_night_not_failClosed :
    ReflectionScheduleState.decode newYearTime (some unknownVersion) = .error ⟨⟩ ∧
    ¬ FailClosed { schedule := some unknownVersion }
      (reflect defaultSettings utcClock newYearTime (nightCall true)
        { world := { schedule := some unknownVersion } }).2 ∧
    (reflect defaultSettings utcClock newYearTime (nightCall true)
        { world := { schedule := some unknownVersion } }).1 = .raised .scheduleState ∧
    (reflect defaultSettings utcClock newYearTime (nightCall true)
        { world := { schedule := some unknownVersion } }).2.trace =
      [.generated, .saved "reflection-a"] := by
  have htrace : (reflect defaultSettings utcClock newYearTime (nightCall true)
        { world := { schedule := some unknownVersion } }).2.trace =
      [.generated, .saved "reflection-a"] := by decide +kernel
  refine ⟨by decide +kernel, fun hclosed => ?_, by decide +kernel, htrace⟩
  refine hclosed.no_candidate ?_
  rw [Generated, htrace]
  exact List.mem_cons_self

/-- By day the same call is blocked. -/
theorem forced_noon_failClosed :
    FailClosed { schedule := some unknownVersion }
      (reflect defaultSettings utcClock newYearTime
        (fullCall "a" 1767268800000000 "2026-01-01T12:00:00+00:00" true)
        { world := { schedule := some unknownVersion } }).2 :=
  (corrupt_failClosed_iff _ _ _ _ _ (by decide +kernel)).mpr (Or.inl (by decide +kernel))

end NuSelf.Reflection
