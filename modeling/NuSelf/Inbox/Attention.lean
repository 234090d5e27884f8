/-
  Attention: from a saved step or reflection to its inbox item.

  An advance saves its step, a reflection cycle its entry; the inbox item of either is a later write
  of the same job.  What stops a job in between (an error, the end of the process) leaves the record
  without an item, and no later job looks for such records: a job publishes what it has itself
  saved, and nothing runs at a start that would do it for another.

  1. `reflect_inbox`, `advance_inbox` — a job adds the item of what it has saved if it gets through
     to its inbox write, and leaves the inbox alone if not.
  2. `holds_run` — so the inbox holds the keys of the jobs that got through, each once.
  3. `attended_iff` — every record has exactly one item, exactly when a job got through for it.

  A job after a crash starts from what the stores hold.
-/
import NuSelf.Reasoning.Scheduler
import NuSelf.Reflection.Limits

namespace NuSelf.Inbox

open NuSelf.Lib NuSelf.Lib.Interruptible NuSelf.Storage NuSelf.Reasoning NuSelf.Reflection

/-! ## The jobs -/

/-- `reason_steps`. -/
abbrev ReasoningSteps := Shelf ReasoningStep.id ReasoningStep.finite

/-- The stores of an authority. -/
structure AttentionWorld where
  reflection : ReflectionWorld
  threads : ReasonThreads
  steps : ReasoningSteps := .empty

/-- A call of `advance_thread` with a step, and what the stores answer. -/
structure AdvanceJob where
  id : String
  step : ReasoningStep
  now : Int
  /-- `batch_write`: the step and the thread in one transaction. -/
  saved : WriteAnswer ReasonError
  published : WriteAnswer ReasonError
  /-- `utc_now_iso()` of the new item. -/
  item_at : String

/-- The item of a step. -/
def stepItem (step : ReasoningStep) (h : step.id ≠ "") (topic at_time : String) : InboxItem where
  id := "inbox-reason-step-" ++ step.id
  kind := "reason_step"
  source_id := step.id
  title := "Reason update: " ++ topic
  body := step.summary
  idempotency_key := "reason-step-" ++ step.id
  created_at := at_time
  updated_at := at_time
  named := ⟨by simp, by decide, h, by simp, by simp⟩

namespace AdvanceJob

/-- The last write of `advance_thread`. -/
def publish (job : AdvanceJob) (topic : String) : Interruptible AttentionWorld ReasonError Unit :=
  if h : job.step.id ≠ "" then
    write job.published fun w =>
      { w with reflection := { w.reflection with
          inbox := (w.reflection.inbox.add (stepItem job.step h topic job.item_at)).1 } }
  else raise (.value "Inbox field 'source_id' must be non-empty")

/-- `advance_thread`. -/
def run (iso : IsoTime) (job : AdvanceJob) : Interruptible AttentionWorld ReasonError Unit := do
  let w ← get
  match w.threads.get job.id with
  | none => raise (.notFound job.id)
  | some thread =>
    match advanceThread iso thread job.step job.now with
    | .error e => raise e
    | .ok updated =>
      if h : job.step.finite = true then do
        write job.saved fun w =>
          { w with threads := w.threads.put updated rfl, steps := w.steps.put job.step h }
        if job.step.requiresAttention then job.publish updated.topic else pure ()
      else raise (.value "Out of range float values are not JSON compliant")

end AdvanceJob

inductive AttentionJob where
  | reflect (call : ReflectCall)
  | advance (job : AdvanceJob)

section

variable (settings : ReflectionSettings) (clock : LocalClock) (time : PydanticTime)
  (iso : IsoTime)

/-- The stores after a job, however it ends. -/
def attend (w : AttentionWorld) : AttentionJob → AttentionWorld × Unit
  | .reflect call =>
    ({ w with reflection := (reflect settings clock time call ⟨w.reflection, []⟩).2.world }, ())
  | .advance job => ((job.run iso w).2, ())

/-! ## What is asked -/

/-- A stored record that asks for attention, by its idempotency key. -/
inductive Asks (w : AttentionWorld) : String → Prop
  | step (step : ReasoningStep) (hstored : w.steps.get step.id = some step)
      (hattention : step.requiresAttention = true) : Asks w ("reason-step-" ++ step.id)
  | entry (entry : ReflectionEntry) (hstored : w.reflection.entries.get entry.id = some entry) :
      Asks w ("reflection-" ++ entry.id)

/-- Every record that asks for attention has exactly one item. -/
def Attended (w : AttentionWorld) : Prop := ∀ key, Asks w key → w.reflection.inbox.HoldsOne key

/-- The entry that is made of a candidate which has passed the gate. -/
def discussedEntry (call : ReflectCall) (best : IdeaCandidate) (score : RelevanceScore) :
    Option ReflectionEntry :=
  if settings.persona_discussion_threshold.le score.composite then
    match call.discussed with
    | .returned result =>
      if !result.approved then none
      else some (candidateToReflectionEntry call best score result.revised_title
        result.revised_body (some result.approved) result.discussion_trace)
    | _ => none
  else some (candidateToReflectionEntry call best score best.title best.body none [])

/-- The entry that a cycle makes of its answers. -/
def entryToPublish (call : ReflectCall) : Option ReflectionEntry :=
  match call.generated, call.scored with
  | .returned (best :: _), .returned score =>
    if !score.passes then none else discussedEntry settings call best score
  | _, _ => none

/-- From its save to its inbox write nothing stops the publication of the entry. -/
structure PublicationGetsThrough (call : ReflectCall) (entry : ReflectionEntry)
    (w : ReflectionWorld) : Prop where
  finite : entry.finite = true
  saved : call.saved = .written
  traced : call.traced ≠ .stopped
  organized : (call.organizedAfter (w.entries.put entry finite)).1 ≠ .stopped
  schedule : ∃ current, ReflectionScheduleState.decode time w.schedule = .ok current
  scheduled : call.scheduled = .written
  published : call.published.lands = true

/-- The cycle saves this entry, and gets through to its inbox write. -/
structure CycleGetsThrough (call : ReflectCall) (w : ReflectionWorld) (entry : ReflectionEntry) :
    Prop where
  open_gates : blocked settings clock time call w.schedule = false
  organized : (call.organizedBefore w.entries).1 ≠ .stopped
  entry_eq : entryToPublish settings call = some entry
  publication : PublicationGetsThrough time call entry
    { w with entries := (call.organizedBefore w.entries).2 }

/-- The advance saves its step, and gets through to its inbox write. -/
structure AdvanceGetsThrough (job : AdvanceJob) (w : AttentionWorld) : Prop where
  applies : ∃ thread updated, w.threads.get job.id = some thread ∧
    advanceThread iso thread job.step job.now = .ok updated
  finite : job.step.finite = true
  attention : job.step.requiresAttention = true
  named : job.step.id ≠ ""
  saved : job.saved = .written
  published : job.published.lands = true

/-- The job gets through to the inbox write under this key. -/
def GetsThrough (w : AttentionWorld) (job : AttentionJob) (key : String) : Prop :=
  match job with
  | .reflect call =>
    ∃ entry, CycleGetsThrough settings clock time call w.reflection entry ∧
      key = "reflection-" ++ entry.id
  | .advance job => AdvanceGetsThrough iso job w ∧ key = "reason-step-" ++ job.step.id

/-! ## A reflection cycle -/

/-- The item is added if `p` holds, else nothing is. -/
def AddsIf (p : Prop) (item : InboxItem) (before after : InboxItems) : Prop :=
  (p ∧ after = (before.add item).1) ∨ (¬ p ∧ after = before)

theorem AddsIf.congr {p q : Prop} {item : InboxItem} {before after : InboxItems}
    (h : AddsIf p item before after) (hiff : p ↔ q) : AddsIf q item before after :=
  propext hiff ▸ h

section Cycle

variable {settings : ReflectionSettings} {clock : LocalClock} {time : PydanticTime}
  {call : ReflectCall} {entry : ReflectionEntry} {c : Cycle}

theorem requestDelivery_inbox (item_id : String) :
    (requestDelivery call item_id c).2.world.inbox = c.world.inbox := by
  rw [requestDelivery, get_bind]
  cases c.world.deliveries.request item_id with
  | none => rfl
  | some deliveries =>
    cases call.requested <;> rfl

theorem publishInbox_inbox (h : entry.id ≠ "") :
    (publishInbox settings call entry c).2.world.inbox =
      if call.published.lands then (c.world.inbox.add (inboxItem entry h call.item_at)).1
      else c.world.inbox := by
  rw [publishInbox, dif_pos h, get_bind]
  cases hpublished : call.published with
  | written =>
    rw [returned_bind (write_written _ _)]
    split
    · rw [requestDelivery_inbox]
      rfl
    · rfl
  | refused e => rfl
  | unsynced e => rfl
  | stopped => rfl

variable (settings clock) in
theorem countAndPublish_inbox (h : entry.id ≠ "") (title body : String) :
    AddsIf ((∃ current, ReflectionScheduleState.decode time c.world.schedule = .ok current) ∧
        call.scheduled = .written ∧ call.published.lands = true)
      (inboxItem entry h call.item_at) c.world.inbox
      ((writeLastReflection clock time call title body >>= fun _ =>
        publishInbox settings call entry >>= fun _ =>
          (pure true : Interruptible Cycle ReflectError Bool)) c).2.world.inbox := by
  cases hdecode : ReflectionScheduleState.decode time c.world.schedule with
  | error e =>
    have hcount : writeLastReflection clock time call title body c =
        (.raised .scheduleState, c) := by
      rw [writeLastReflection, get_bind, hdecode]
      rfl
    refine Or.inr ⟨fun hthrough => ?_, ?_⟩
    · obtain ⟨⟨current, hok⟩, -⟩ := hthrough
      cases hok
    · rw [raised_bind hcount]
  | ok current =>
    let c₁ : Cycle :=
      { world := { c.world with
          schedule := some ((nextState clock call.now current title body).toRecord time) }
        trace := c.trace ++ [.scheduled] }
    have hcount : writeLastReflection clock time call title body c =
        (call.scheduled.outcome, if call.scheduled.lands then c₁ else c) := by
      rw [writeLastReflection, get_bind, hdecode]
      rfl
    by_cases hscheduled : call.scheduled = .written
    · rw [hscheduled] at hcount
      have hreturned : writeLastReflection clock time call title body c = (.returned (), c₁) :=
        hcount
      have hlast : ((publishInbox settings call entry >>= fun _ =>
          (pure true : Interruptible Cycle ReflectError Bool)) c₁).2.world.inbox =
            (publishInbox settings call entry c₁).2.world.inbox := by
        rw [bind_run]
        rcases publishInbox settings call entry c₁ with ⟨o, c₂⟩
        cases o <;> rfl
      rw [returned_bind hreturned, hlast, publishInbox_inbox h]
      by_cases hpublished : call.published.lands = true
      · rw [if_pos hpublished]
        exact Or.inl ⟨⟨⟨current, rfl⟩, hscheduled, hpublished⟩, rfl⟩
      · rw [if_neg hpublished]
        exact Or.inr ⟨fun hthrough => hpublished hthrough.2.2, rfl⟩
    · refine Or.inr ⟨fun hthrough => hscheduled hthrough.2.1, ?_⟩
      rw [ended_bind hcount fun _ ho => hscheduled (WriteAnswer.outcome_returned_iff.mp ho)]
      split <;> rfl

variable (settings clock time call c) in
/-- **The publication** adds the item if nothing stops it. -/
theorem publish_inbox (h : entry.id ≠ "") :
    AddsIf (PublicationGetsThrough time call entry c.world) (inboxItem entry h call.item_at)
      c.world.inbox (publish settings clock time call entry c).2.world.inbox := by
  by_cases hfinite : entry.finite = true
  swap
  · have hsave : saveGeneratedEntry call entry c = (.raised .notFinite, c) := by
      rw [saveGeneratedEntry, get_bind, ReflectionEntries.save, dif_neg hfinite]
      rfl
    refine Or.inr ⟨fun hthrough => hfinite hthrough.finite, ?_⟩
    rw [publish, raised_bind hsave]
  let entries := c.world.entries.put entry hfinite
  let c₁ : Cycle :=
    { world := { c.world with entries }, trace := c.trace ++ [.saved entry.id] }
  have hsave : saveGeneratedEntry call entry c =
      (call.saved.outcome, if call.saved.lands then c₁ else c) := by
    rw [saveGeneratedEntry, get_bind, ReflectionEntries.save, dif_pos hfinite]
    rfl
  by_cases hsaved : call.saved = .written
  swap
  · refine Or.inr ⟨fun hthrough => hsaved hthrough.saved, ?_⟩
    rw [publish, ended_bind hsave fun _ ho => hsaved (WriteAnswer.outcome_returned_iff.mp ho)]
    split <;> rfl
  rw [hsaved] at hsave
  have hreturned : saveGeneratedEntry call entry c = (.returned (), c₁) := hsave
  rw [publish, returned_bind hreturned]
  by_cases htraced : call.traced = .stopped
  · refine Or.inr ⟨fun hthrough => hthrough.traced htraced, ?_⟩
    rw [htraced]
    rfl
  have htrace : catching (ends call.traced) (fun _ => pure ()) c₁ = (.returned (), c₁) := by
    rw [catching, ends_run]
    cases hcase : call.traced with
    | returned u => rfl
    | raised e => rfl
    | stopped => exact absurd hcase htraced
  rw [returned_bind htrace]
  have horganize := organize_run c₁ call.organizedAfter
  by_cases hstops : (call.organizedAfter entries).1 = .stopped
  · refine Or.inr ⟨fun hthrough => hthrough.organized hstops, ?_⟩
    rw [if_pos hstops] at horganize
    rw [stopped_bind horganize]
  rw [if_neg hstops] at horganize
  rw [returned_bind horganize]
  refine (countAndPublish_inbox settings clock h entry.title entry.body).congr ?_
  constructor
  · rintro ⟨hschedule, hscheduled, hpublished⟩
    exact ⟨hfinite, hsaved, htraced, hstops, hschedule, hscheduled, hpublished⟩
  · intro hthrough
    exact ⟨hthrough.schedule, hthrough.scheduled, hthrough.published⟩

theorem discussedEntry_id {best : IdeaCandidate} {score : RelevanceScore}
    (h : discussedEntry settings call best score = some entry) :
    entry.id = "reflection-" ++ best.id := by
  rw [discussedEntry] at h
  split at h
  · split at h
    · split at h
      · cases h
      · cases h
        rfl
    · cases h
  · cases h
    rfl

theorem entryToPublish_id (h : entryToPublish settings call = some entry) :
    ∃ candidate_id, entry.id = "reflection-" ++ candidate_id := by
  rw [entryToPublish] at h
  split at h
  · split at h
    · cases h
    · exact ⟨_, discussedEntry_id h⟩
  · cases h

variable (settings clock time call c) in
theorem discussAndPublish_run (best : IdeaCandidate) (score : RelevanceScore) :
    (∃ found, discussedEntry settings call best score = some found ∧
        discussAndPublish settings clock time call best score c =
          publish settings clock time call found c) ∨
      (discussedEntry settings call best score = none ∧
        (discussAndPublish settings clock time call best score c).2 = c) := by
  rw [discussedEntry, discussAndPublish]
  split
  · cases hdiscussed : call.discussed with
    | raised e => exact Or.inr ⟨rfl, rfl⟩
    | stopped => exact Or.inr ⟨rfl, rfl⟩
    | returned result =>
      simp only
      rw [returned_bind (ends_run _ _)]
      split
      · exact Or.inr ⟨rfl, rfl⟩
      · exact Or.inl ⟨_, rfl, rfl⟩
  · exact Or.inl ⟨_, rfl, rfl⟩

/-- The cycle once the organizer is through and the candidates are generated. -/
def generatedCycle (call : ReflectCall) (w : ReflectionWorld) : Cycle where
  world := { w with entries := (call.organizedBefore w.entries).2 }
  trace := [.generated]

variable (settings clock time call) in
theorem candidates_run (w : ReflectionWorld)
    (horganized : (call.organizedBefore w.entries).1 ≠ .stopped) :
    (∃ found, entryToPublish settings call = some found ∧
        cycle settings clock time call ⟨w, []⟩ =
          publish settings clock time call found (generatedCycle call w)) ∨
      (entryToPublish settings call = none ∧
        (cycle settings clock time call ⟨w, []⟩).2.world.inbox = w.inbox) := by
  have horganize := organize_run ⟨w, []⟩ call.organizedBefore
  rw [if_neg horganized] at horganize
  rw [cycle, returned_bind horganize]
  have hgenerate : generate call
      { world := { w with entries := (call.organizedBefore w.entries).2 }, trace := [] } =
        (call.generated, generatedCycle call w) := rfl
  cases hgenerated : call.generated with
  | raised e =>
    rw [hgenerated] at hgenerate
    rw [raised_bind hgenerate]
    exact Or.inr ⟨by rw [entryToPublish, hgenerated], rfl⟩
  | stopped =>
    rw [hgenerated] at hgenerate
    rw [stopped_bind hgenerate]
    exact Or.inr ⟨by rw [entryToPublish, hgenerated], rfl⟩
  | returned candidates =>
    rw [hgenerated] at hgenerate
    rw [returned_bind hgenerate]
    cases candidates with
    | nil => exact Or.inr ⟨by rw [entryToPublish, hgenerated], rfl⟩
    | cons best rest =>
      cases hscored : call.scored with
      | raised e => exact Or.inr ⟨by rw [entryToPublish, hgenerated, hscored], rfl⟩
      | stopped => exact Or.inr ⟨by rw [entryToPublish, hgenerated, hscored], rfl⟩
      | returned score =>
        have hentry : entryToPublish settings call =
            if !score.passes then none else discussedEntry settings call best score := by
          rw [entryToPublish, hgenerated, hscored]
        simp only
        rw [returned_bind (ends_run _ _)]
        split
        · rename_i hfails
          rw [if_pos hfails] at hentry
          exact Or.inr ⟨hentry, rfl⟩
        · rename_i hpasses
          rw [if_neg hpasses] at hentry
          rcases discussAndPublish_run settings clock time call (generatedCycle call w) best score
            with ⟨found, hfound, hrun⟩ | ⟨hnone, hrun⟩
          · exact Or.inl ⟨found, hentry.trans hfound, hrun⟩
          · rw [hrun]
            exact Or.inr ⟨hentry.trans hnone, rfl⟩

variable (settings clock time call) in
/-- **A cycle** adds the item of the entry with which it gets through, or nothing. -/
theorem reflect_inbox (w : ReflectionWorld) :
    (∃ entry, ∃ h : entry.id ≠ "", CycleGetsThrough settings clock time call w entry ∧
        (reflect settings clock time call ⟨w, []⟩).2.world.inbox =
          (w.inbox.add (inboxItem entry h call.item_at)).1) ∨
      ((∀ entry, ¬ CycleGetsThrough settings clock time call w entry) ∧
        (reflect settings clock time call ⟨w, []⟩).2.world.inbox = w.inbox) := by
  rw [reflect, get_bind]
  cases hblocked : blocked settings clock time call w.schedule with
  | true =>
    refine Or.inr ⟨fun entry hthrough => ?_, rfl⟩
    cases hblocked.symm.trans hthrough.open_gates
  | false =>
    rw [if_neg Bool.false_ne_true]
    by_cases hstops : (call.organizedBefore w.entries).1 = .stopped
    · refine Or.inr ⟨fun entry hthrough => hthrough.organized hstops, ?_⟩
      have horganize := organize_run ⟨w, []⟩ call.organizedBefore
      rw [if_pos hstops] at horganize
      rw [cycle, stopped_bind horganize]
    rcases candidates_run settings clock time call w hstops with
      ⟨found, hfound, hrun⟩ | ⟨hnone, hrun⟩
    · obtain ⟨candidate_id, hid⟩ := entryToPublish_id hfound
      have hne : found.id ≠ "" := by rw [hid]; simp
      rw [hrun]
      rcases publish_inbox settings clock time call (generatedCycle call w) hne with
        ⟨hthrough, hadded⟩ | ⟨hnot, hsame⟩
      · exact Or.inl ⟨found, hne, ⟨hblocked, hstops, hfound, hthrough⟩, hadded⟩
      · refine Or.inr ⟨fun entry hthrough => hnot ?_, hsame⟩
        cases hfound.symm.trans hthrough.entry_eq
        exact hthrough.publication
    · refine Or.inr ⟨fun entry hthrough => ?_, hrun⟩
      cases hnone.symm.trans hthrough.entry_eq

end Cycle

/-! ## An advance -/

/-- **An advance** adds the item of the step with which it gets through, or nothing. -/
theorem advance_inbox (iso : IsoTime) (job : AdvanceJob) (w : AttentionWorld) :
    (∃ topic, ∃ h : job.step.id ≠ "", AdvanceGetsThrough iso job w ∧
        (job.run iso w).2.reflection.inbox =
          (w.reflection.inbox.add (stepItem job.step h topic job.item_at)).1) ∨
      (¬ AdvanceGetsThrough iso job w ∧ (job.run iso w).2.reflection.inbox = w.reflection.inbox) := by
  rw [AdvanceJob.run, get_bind]
  cases hthread : w.threads.get job.id with
  | none =>
    refine Or.inr ⟨fun hthrough => ?_, rfl⟩
    obtain ⟨thread, updated, hget, -⟩ := hthrough.applies
    cases hthread.symm.trans hget
  | some thread =>
    cases hadvance : advanceThread iso thread job.step job.now with
    | error e =>
      simp only [hadvance]
      refine Or.inr ⟨fun hthrough => ?_, rfl⟩
      obtain ⟨thread', updated, hget, hok⟩ := hthrough.applies
      cases hthread.symm.trans hget
      cases hadvance.symm.trans hok
    | ok updated =>
      simp only [hadvance]
      by_cases hfinite : job.step.finite = true
      swap
      · rw [dif_neg hfinite]
        exact Or.inr ⟨fun hthrough => hfinite hthrough.finite, rfl⟩
      rw [dif_pos hfinite]
      by_cases hsaved : job.saved = .written
      swap
      · refine Or.inr ⟨fun hthrough => hsaved hthrough.saved, ?_⟩
        cases hcase : job.saved with
        | written => exact absurd hcase hsaved
        | refused e => rfl
        | unsynced e => rfl
        | stopped => rfl
      rw [hsaved, returned_bind (write_written _ _)]
      by_cases hattention : job.step.requiresAttention = true
      swap
      · rw [if_neg hattention]
        exact Or.inr ⟨fun hthrough => hattention hthrough.attention, rfl⟩
      rw [if_pos hattention, AdvanceJob.publish]
      by_cases hnamed : job.step.id ≠ ""
      swap
      · rw [dif_neg hnamed]
        exact Or.inr ⟨fun hthrough => hnamed hthrough.named, rfl⟩
      rw [dif_pos hnamed, write]
      by_cases hpublished : job.published.lands = true
      · rw [if_pos hpublished]
        exact Or.inl ⟨updated.topic, hnamed, ⟨⟨thread, updated, hthread, hadvance⟩, hfinite,
          hattention, hnamed, hsaved, hpublished⟩, rfl⟩
      · rw [if_neg hpublished]
        exact Or.inr ⟨fun hthrough => hpublished hthrough.published, rfl⟩

/-! ## Keys and ids -/

/-- The ids and keys of the two kinds of items. -/
def Named (item : InboxItem) : Prop :=
  (∃ candidate_id, item.id = "inbox-reflection-" ++ candidate_id ∧
      item.idempotency_key = "reflection-reflection-" ++ candidate_id) ∨
    ∃ step_id, item.id = "inbox-reason-step-" ++ step_id ∧
      item.idempotency_key = "reason-step-" ++ step_id

theorem named_key_eq {a b : InboxItem} (ha : Named a) (hb : Named b) (hid : a.id = b.id) :
    a.idempotency_key = b.idempotency_key := by
  rcases ha with ⟨x, hax, hakey⟩ | ⟨x, hax, hakey⟩ <;>
    rcases hb with ⟨y, hby, hbkey⟩ | ⟨y, hby, hbkey⟩ <;>
    rw [hax, hby] at hid
  · rw [hakey, hbkey, (String.append_right_inj _).mp hid]
  · have hlist := congrArg String.toList hid
    simp at hlist
  · have hlist := congrArg String.toList hid
    simp at hlist
  · rw [hakey, hbkey, (String.append_right_inj _).mp hid]

/-- No key twice, and every item named after its record. -/
structure Tidy (inbox : InboxItems) : Prop where
  unique : inbox.KeysUnique
  named : ∀ item, inbox.get item.id = some item → Named item

theorem named_inboxItem {entry : ReflectionEntry} (h : entry.id ≠ "") {candidate_id : String}
    (hid : entry.id = "reflection-" ++ candidate_id) (at_time : String) :
    Named (inboxItem entry h at_time) := by
  refine Or.inl ⟨candidate_id, ?_, ?_⟩
  · show "inbox-" ++ entry.id = _
    rw [hid, ← String.append_assoc]
    rfl
  · show "reflection-" ++ entry.id = _
    rw [hid, ← String.append_assoc]
    rfl

theorem tidy_add {inbox : InboxItems} {item : InboxItem} (htidy : Tidy inbox) (hitem : Named item) :
    Tidy (inbox.add item).1 ∧
      ∀ key, (inbox.add item).1.Holds key ↔ inbox.Holds key ∨ key = item.idempotency_key := by
  have hfits : inbox.Fits item := by
    intro other hother
    have hid := inbox.key_of_get hother
    exact named_key_eq (htidy.named other (hid ▸ hother)) hitem hid
  refine ⟨⟨InboxItems.add_keysUnique htidy.unique, fun other hother => ?_⟩,
    InboxItems.add_holds_iff hfits⟩
  by_cases hholds : inbox.Holds item.idempotency_key
  · rw [InboxItems.add_of_holds hholds] at hother
    exact htidy.named other hother
  · rw [InboxItems.add_of_not_holds hholds, Shelf.get_put] at hother
    split at hother
    · cases hother
      exact hitem
    · exact htidy.named other hother

variable (settings : ReflectionSettings) (clock : LocalClock) (time : PydanticTime) (iso : IsoTime)

/-- **A job** adds the key with which it gets through, and no other. -/
theorem attend_holds (w : AttentionWorld) (job : AttentionJob) (htidy : Tidy w.reflection.inbox) :
    Tidy (attend settings clock time iso w job).1.reflection.inbox ∧
      ∀ key, (attend settings clock time iso w job).1.reflection.inbox.Holds key ↔
        w.reflection.inbox.Holds key ∨ GetsThrough settings clock time iso w job key := by
  cases job with
  | reflect call =>
    show Tidy (reflect settings clock time call ⟨w.reflection, []⟩).2.world.inbox ∧
      ∀ key, (reflect settings clock time call ⟨w.reflection, []⟩).2.world.inbox.Holds key ↔ _
    rcases reflect_inbox settings clock time call w.reflection with
      ⟨entry, h, hthrough, hadded⟩ | ⟨hnot, hsame⟩
    · obtain ⟨candidate_id, hid⟩ := entryToPublish_id hthrough.entry_eq
      obtain ⟨htidy', hholds⟩ := tidy_add htidy (named_inboxItem h hid call.item_at)
      rw [hadded]
      refine ⟨htidy', fun key => (hholds key).trans (or_congr_right ⟨?_, ?_⟩)⟩
      · rintro rfl
        exact ⟨entry, hthrough, rfl⟩
      · rintro ⟨entry', hthrough', rfl⟩
        cases hthrough.entry_eq.symm.trans hthrough'.entry_eq
        rfl
    · rw [hsame]
      refine ⟨htidy, fun key => (or_iff_left ?_).symm⟩
      rintro ⟨entry, hthrough, -⟩
      exact hnot entry hthrough
  | advance job =>
    show Tidy (job.run iso w).2.reflection.inbox ∧
      ∀ key, (job.run iso w).2.reflection.inbox.Holds key ↔ _
    rcases advance_inbox iso job w with ⟨topic, h, hthrough, hadded⟩ | ⟨hnot, hsame⟩
    · have hnamed : Named (stepItem job.step h topic job.item_at) :=
        Or.inr ⟨job.step.id, rfl, rfl⟩
      obtain ⟨htidy', hholds⟩ := tidy_add htidy hnamed
      rw [hadded]
      refine ⟨htidy', fun key => (hholds key).trans (or_congr_right ⟨?_, ?_⟩)⟩
      · rintro rfl
        exact ⟨hthrough, rfl⟩
      · rintro ⟨-, rfl⟩
        rfl
    · rw [hsame]
      refine ⟨htidy, fun key => (or_iff_left ?_).symm⟩
      rintro ⟨hthrough, -⟩
      exact hnot hthrough

/-- **A run of jobs**: the keys are those of the jobs that got through. -/
theorem holds_run : ∀ (jobs : List AttentionJob) (w : AttentionWorld), Tidy w.reflection.inbox →
    Tidy (final (attend settings clock time iso) w jobs).reflection.inbox ∧
      ∀ key, (final (attend settings clock time iso) w jobs).reflection.inbox.Holds key ↔
        w.reflection.inbox.Holds key ∨ ∃ e ∈ run (attend settings clock time iso) w jobs,
          GetsThrough settings clock time iso e.before e.input key
  | [], w, htidy => ⟨htidy, fun key => by simp [final, run]⟩
  | job :: jobs, w, htidy => by
    obtain ⟨htidy₁, hholds₁⟩ := attend_holds settings clock time iso w job htidy
    obtain ⟨htidy₂, hholds₂⟩ := holds_run jobs _ htidy₁
    refine ⟨htidy₂, fun key => ?_⟩
    simp only [run, List.exists_mem_cons_iff]
    rw [← or_assoc, ← hholds₁]
    exact hholds₂ key

end

/-- **Attention**: after any jobs, whatever stopped them, every step that asks for attention and
    every entry has exactly one item, exactly when for each of them some job got through to its
    inbox write. -/
theorem attended_iff (settings : ReflectionSettings) (clock : LocalClock) (time : PydanticTime)
    (iso : IsoTime) (threads : ReasonThreads) (schedule : Option Record) (jobs : List AttentionJob) :
    Attended (final (attend settings clock time iso)
        { reflection := { schedule }, threads } jobs) ↔
      ∀ key, Asks (final (attend settings clock time iso)
          { reflection := { schedule }, threads } jobs) key →
        ∃ e ∈ run (attend settings clock time iso) { reflection := { schedule }, threads } jobs,
          GetsThrough settings clock time iso e.before e.input key := by
  have htidy : Tidy (Shelf.empty : InboxItems) := ⟨InboxItems.keysUnique_empty, fun _ h => nomatch h⟩
  obtain ⟨htidy', hholds⟩ := holds_run settings clock time iso jobs
    { reflection := { schedule }, threads } htidy
  refine forall_congr' fun key => imp_congr_right fun _ => ?_
  rw [InboxItems.holdsOne_iff htidy'.unique, hholds key, or_iff_right]
  rintro ⟨id, item, hget, -⟩
  cases hget

/-- The process stops between the step and its item. -/
def lostStep : AttentionJob :=
  .advance
    { id := "reason-1", step := noonStep, now := 1767268800000000, saved := .written
      published := .stopped, item_at := "2026-01-01T12:00:00+00:00" }

/-- The process stops between the entry and its item. -/
def lostEntry : AttentionJob :=
  .reflect { fullCall "1" 1767268800000000 "2026-01-01T12:00:00+00:00" false with
    published := .stopped }

/-- The stores after the job. -/
def after (job : AttentionJob) : AttentionWorld :=
  final (attend defaultSettings utcClock newYearTime noonIso)
    { reflection := { schedule := none }, threads := Shelf.empty.put emptyThread rfl } [job]

/-- **Lost attention**: a step and an entry without an item. -/
theorem attention_lost : ¬ Attended (after lostStep) ∧ ¬ Attended (after lostEntry) := by
  constructor
  · intro h
    obtain ⟨item, ⟨hget, -⟩, -⟩ := h _ (.step noonStep rfl rfl)
    cases hget
  · intro h
    have hstored : ((after lostEntry).reflection.entries.get "reflection-1").isSome = true := by
      decide +kernel
    have hempty : (after lostEntry).reflection.inbox.records = [] := by decide +kernel
    obtain ⟨entry, hentry⟩ := Option.isSome_iff_exists.mp hstored
    have hid := Shelf.key_of_get _ hentry
    obtain ⟨item, ⟨hget, -⟩, -⟩ := h _ (.entry entry (hid ▸ hentry))
    have hmem := (Shelf.mem_records_iff _).mpr hget
    rw [hempty] at hmem
    cases hmem

end NuSelf.Inbox
