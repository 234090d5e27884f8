/-
  The limits of the reflection schedule over whole runs, and a corrupt schedule state.

  A publication is a call that got as far as the inbox.  The observer keeps the times of the
  publications, the latest first.  The stored state must then be that of the latest one, with the
  number of those on its date (`Counted`); as times and dates do not go back, a call on a later
  date finds none of its own date, which is what the gate takes for granted.

  1. `writeAndPublish_leads`, `cycle_leads` — a completed cycle either leaves the schedule state
     alone and publishes nothing, or counts and publishes.
  2. `schedule_safe` — what every call keeps, and so every run.
  3. `corrupt_failClosed_iff` — with a corrupt state nothing happens, unless the call is forced in
     quiet hours: these are the first reason found, and force passes by them.
-/
import Mathlib.Data.Int.ConditionallyCompleteOrder
import Mathlib.Order.ConditionallyCompleteLattice.Basic
import NuSelf.Lib.Names
import NuSelf.Lib.Run
import NuSelf.Reflection.Scheduler

namespace NuSelf.Reflection

open NuSelf.Lib NuSelf.Lib.Interruptible NuSelf.Storage

section

variable (settings : ReflectionSettings) (clock : LocalClock) (time : PydanticTime)

/-! ## What a cycle leaves -/

/-- Nothing is counted or published yet. -/
structure Uncounted (w : ReflectionWorld) (c : Cycle) : Prop where
  schedule : c.world.schedule = w.schedule
  inbox : c.world.inbox = w.inbox
  unpublished : ∀ id, ReflectAction.published id ∉ c.trace

/-- The stored state is the one after a publication at `now`. -/
def Counted (now : Int) (current : Option ReflectionScheduleState) (c : Cycle) : Prop :=
  ∃ title body,
    c.world.schedule = some ((nextState clock now current title body).toRecord time)

/-- Counted and published. -/
structure Published (now : Int) (current : Option ReflectionScheduleState) (c : Cycle) : Prop where
  counted : Counted clock time now current c
  published : ∃ id, ReflectAction.published id ∈ c.trace

variable {settings clock time} {w : ReflectionWorld} {call : ReflectCall}

/-- A computation on the entries whose errors are forgotten stops, or goes on. -/
theorem organize_run (c : Cycle) (x : Interruptible ReflectionEntries ReflectError Unit) :
    organizePendingReflections x c =
      (if (x c.world.entries).1 = .stopped then .stopped else .returned (),
        { c with world := { c.world with entries := (x c.world.entries).2 } }) := by
  rw [organizePendingReflections, catching, onEntries]
  cases hx : x c.world.entries with
  | mk ended entries => cases ended <;> rfl

theorem organize_uncounted (x : Interruptible ReflectionEntries ReflectError Unit) :
    Preserves (Uncounted w) (organizePendingReflections x) := by
  refine Preserves.catching (fun c hc => ?_) fun _ => preserves_pure _
  exact ⟨hc.schedule, hc.inbox, hc.unpublished⟩

theorem generate_uncounted : Preserves (Uncounted w) (generate call) := by
  refine Preserves.bind (preserves_modify fun c hc => ⟨hc.schedule, hc.inbox, fun id hmem => ?_⟩)
    fun _ => preserves_ends _
  rcases List.mem_append.mp hmem with hmem | hmem
  · exact hc.unpublished id hmem
  · cases List.mem_singleton.mp hmem

theorem saveGeneratedEntry_uncounted (entry : ReflectionEntry) :
    Preserves (Uncounted w) (saveGeneratedEntry call entry) := by
  refine Preserves.get_bind fun c hc => ?_
  cases c.world.entries.save entry with
  | none => exact hc
  | some entries =>
    show Uncounted w (write call.saved _ c).2
    refine preserves_write (fun c hc => ⟨hc.schedule, hc.inbox, fun id hmem => ?_⟩) c hc
    rcases List.mem_append.mp hmem with hmem | hmem
    · exact hc.unpublished id hmem
    · cases List.mem_singleton.mp hmem

/-! ## Completed calls -/

/-- The stores do their part. -/
structure ReflectCall.Completed (call : ReflectCall) : Prop where
  saved : call.saved = .written
  scheduled : call.scheduled = .written
  published : call.published = .written

section Counting

variable {current : Option ReflectionScheduleState} {entry : ReflectionEntry}

theorem requestDelivery_published {now : Int} (item_id : String) :
    Preserves (Published clock time now current) (requestDelivery call item_id) := by
  refine Preserves.get_bind fun c hc => ?_
  cases c.world.deliveries.request item_id with
  | none => exact hc
  | some deliveries =>
    show Published clock time now current (write call.requested _ c).2
    exact preserves_write (fun c hc => ⟨hc.counted, hc.published⟩) c hc

/-- After the item is in the inbox only the request for its delivery is left. -/
theorem publishInbox_leads {now : Int} (hid : entry.id ≠ "") (hcall : call.Completed) :
    Leads (Counted clock time now current) (Published clock time now current)
      (publishInbox settings call entry) := by
  intro c hc
  rw [publishInbox, dif_pos hid, get_bind, hcall.published, returned_bind (write_written _ _)]
  have hpublished : Published clock time now current
      { world := { c.world with
          inbox := (c.world.inbox.add (inboxItem entry hid call.item_at)).1 }
        trace := c.trace ++ [.published entry.id] } :=
    ⟨hc, entry.id, List.mem_append_right _ List.mem_cons_self⟩
  split
  · exact requestDelivery_published _ _ hpublished
  · exact hpublished

theorem writeLastReflection_returned
    (hdecode : ReflectionScheduleState.decode time w.schedule = .ok current) (hcall : call.Completed)
    {c : Cycle} (hc : Uncounted w c) (title body : String) :
    ∃ c', writeLastReflection clock time call title body c = (.returned (), c') ∧
      Counted clock time call.now current c' := by
  rw [writeLastReflection, get_bind, hc.schedule, hdecode, hcall.scheduled]
  exact ⟨_, rfl, title, body, rfl⟩

/-- Nothing has happened, or all of it. -/
def CycleEnds (clock : LocalClock) (time : PydanticTime) (w : ReflectionWorld) (now : Int)
    (current : Option ReflectionScheduleState) (c : Cycle) : Prop :=
  Uncounted w c ∨ Published clock time now current c

/-- **The writes of a completed call**: the entry, then the count, then the item. -/
theorem publish_leads (hdecode : ReflectionScheduleState.decode time w.schedule = .ok current)
    (hid : entry.id ≠ "") (hcall : call.Completed) :
    Leads (Uncounted w) (CycleEnds clock time w call.now current)
      (publish settings clock time call entry) := by
  have hnone : ∀ c, Uncounted w c → CycleEnds clock time w call.now current c :=
    fun _ => Or.inl
  have hlast : Leads (Counted clock time call.now current)
      (CycleEnds clock time w call.now current)
      (publishInbox settings call entry >>= fun _ =>
        (pure true : Interruptible Cycle ReflectError Bool)) :=
    (publishInbox_leads hid hcall).bind (fun _ => Or.inr) fun _ => leads_pure (fun _ => Or.inr) true
  have htraced : Preserves (Uncounted w)
      (catching (ends call.traced) fun _ => pure () : Interruptible Cycle ReflectError Unit) :=
    (preserves_ends _).catching fun _ => preserves_pure _
  refine Leads.bind (saveGeneratedEntry_uncounted entry) hnone fun _ => ?_
  refine Leads.bind htraced hnone fun _ => ?_
  refine Leads.bind (organize_uncounted _) hnone fun _ c hc => ?_
  obtain ⟨c', hreturned, hcounted⟩ :=
    writeLastReflection_returned hdecode hcall hc entry.title entry.body
  rw [returned_bind hreturned]
  exact hlast c' hcounted

theorem discussAndPublish_leads
    (hdecode : ReflectionScheduleState.decode time w.schedule = .ok current) (hcall : call.Completed)
    (best : IdeaCandidate) (score : RelevanceScore) :
    Leads (Uncounted w) (CycleEnds clock time w call.now current)
      (discussAndPublish settings clock time call best score) := by
  have hid : "reflection-" ++ best.id ≠ "" := by simp
  rw [discussAndPublish]
  split
  · refine Leads.bind (preserves_ends _) (fun _ => Or.inl) fun result => ?_
    split
    · exact leads_pure (fun _ => Or.inl) false
    · exact publish_leads hdecode hid hcall
  · exact publish_leads hdecode hid hcall

/-- **A completed cycle** publishes and counts, or does neither. -/
theorem cycle_leads (hdecode : ReflectionScheduleState.decode time w.schedule = .ok current)
    (hcall : call.Completed) :
    Leads (Uncounted w) (CycleEnds clock time w call.now current)
      (cycle settings clock time call) := by
  have hnone : ∀ c, Uncounted w c → CycleEnds clock time w call.now current c :=
    fun _ => Or.inl
  refine Leads.bind (organize_uncounted _) hnone fun _ => ?_
  refine Leads.bind generate_uncounted hnone fun candidates => ?_
  cases candidates with
  | nil => exact leads_pure hnone false
  | cons best rest =>
    refine Leads.bind (preserves_ends _) hnone fun score => ?_
    split
    · exact leads_pure hnone false
    · exact discussAndPublish_leads hdecode hcall best score

end Counting

/-! ## Runs -/

/-- One call; its output is how it ended and what it did. -/
def reflectStep (settings : ReflectionSettings) (clock : LocalClock) (time : PydanticTime)
    (w : ReflectionWorld) (call : ReflectCall) :
    ReflectionWorld × (Outcome ReflectError Bool × List ReflectAction) :=
  let ended := reflect settings clock time call { world := w }
  (ended.2.world, (ended.1, ended.2.trace))

/-- A publication is among the actions. -/
def publishes (trace : List ReflectAction) : Bool :=
  trace.any fun action => match action with
    | .published _ => true
    | _ => false

/-- The times of the publications, the latest first. -/
def seePublication (history : List Int)
    (e : Step ReflectionWorld ReflectCall (Outcome ReflectError Bool × List ReflectAction)) :
    List Int :=
  if publishes e.output.2 then e.input.now :: history else history

/-- How many publications there were on a date. -/
def publishedOn (clock : LocalClock) (date : Int) (history : List Int) : Nat :=
  history.countP fun t => decide (clock.date t = date)

/-- What the limits ask of a call that publishes without force. -/
structure WithinLimits (settings : ReflectionSettings) (clock : LocalClock) (history : List Int)
    (call : ReflectCall) : Prop where
  awake : inQuietHours settings clock call.now = false
  under_cap : publishedOn clock (clock.date call.now) history < settings.daily_cap
  cooled : ∀ t ∈ history.head?, settings.cooldown_seconds * 1000000 ≤ call.now - t
  waited : ∀ t ∈ history.head?, jitteredInterval settings call.draw * 1000000 ≤ call.now - t

/-- The stored state decodes, and its count is right. -/
def CountsRight (clock : LocalClock) (time : PydanticTime) (w : ReflectionWorld)
    (history : List Int) : Prop :=
  ∃ current, ReflectionScheduleState.decode time w.schedule = .ok current ∧
    (current = none ↔ history = []) ∧
    ∀ state ∈ current, state.daily_count = publishedOn clock state.daily_date history

/-- The stored state is that of the latest publication. -/
structure Tracked (clock : LocalClock) (time : PydanticTime) (w : ReflectionWorld)
    (history : List Int) : Prop where
  right : CountsRight clock time w history
  latest : ∀ state, ReflectionScheduleState.decode time w.schedule = .ok (some state) →
    history.head? = some state.timestamp ∧ state.daily_date = clock.date state.timestamp
  /-- Times did not go back. -/
  ordered : history.Pairwise fun a b => b ≤ a

variable {history : List Int}

theorem publishedOn_cons (date t : Int) (history : List Int) :
    publishedOn clock date (t :: history) =
      publishedOn clock date history + if clock.date t = date then 1 else 0 := by
  rw [publishedOn, List.countP_cons]
  simp only [decide_eq_true_eq]
  rfl

/-- **What the gate counts** are the publications of the day. -/
theorem reflectionCountToday_eq (hdate : Monotone clock.date)
    (htracked : Tracked clock time w history)
    {current : Option ReflectionScheduleState}
    (hdecode : ReflectionScheduleState.decode time w.schedule = .ok current) {now : Int}
    (hnow : ∀ t ∈ history, t ≤ now) :
    reflectionCountToday clock now current = publishedOn clock (clock.date now) history := by
  obtain ⟨current', hdecode', hnone, hcount⟩ := htracked.right
  rw [hdecode] at hdecode'
  cases hdecode'
  cases current with
  | none =>
    rw [hnone.mp rfl]
    rfl
  | some state =>
    rw [reflectionCountToday]
    obtain ⟨hhead, hstate⟩ := htracked.latest state hdecode
    split
    · rename_i hday
      rw [← hday]
      exact hcount state rfl
    · -- the latest publication was on another date, so all of them were on earlier ones
      rename_i hday
      symm
      rw [publishedOn, List.countP_eq_zero]
      intro t ht hsame
      rw [decide_eq_true_eq] at hsame
      have hle : t ≤ state.timestamp := by
        cases history with
        | nil => cases ht
        | cons latest rest =>
          cases hhead
          rcases List.mem_cons.mp ht with rfl | ht
          · exact le_rfl
          · exact List.rel_of_pairwise_cons htracked.ordered ht
      have hlatest : state.timestamp ≤ now := hnow _ (List.mem_of_head? hhead)
      have h₁ := hdate hle
      have h₂ := hdate hlatest
      omega

/-- **The gate is right**: what it lets through is within the limits. -/
theorem withinLimits_of_not_blocked (hdate : Monotone clock.date)
    (htracked : Tracked clock time w history) (hnow : ∀ t ∈ history, t ≤ call.now)
    (hforce : call.force = false) (hpass : blocked settings clock time call w.schedule = false) :
    WithinLimits settings clock history call := by
  have hreason : scheduleBlockReason settings clock time call.now call.draw w.schedule = none := by
    rw [blocked] at hpass
    split at hpass
    · assumption
    · rw [hforce] at hpass
      cases hpass
  obtain ⟨current, hdecode, hnone, -⟩ := htracked.right
  have hcount := reflectionCountToday_eq hdate htracked hdecode hnow
  obtain ⟨hquiet, hcap, hcooled, hwaited⟩ := scheduleBlockReason_none hdecode hreason
  have helapsed : ∀ seconds : Int, elapsedLess call.now seconds current = false →
      ∀ t ∈ history.head?, seconds * 1000000 ≤ call.now - t := by
    intro seconds hless t ht
    cases current with
    | none =>
      rw [hnone.mp rfl] at ht
      cases ht
    | some state =>
      rw [(htracked.latest state hdecode).1] at ht
      cases ht
      exact Int.not_lt.mp (of_decide_eq_false hless)
  refine ⟨hquiet, ?_, helapsed _ hcooled, helapsed _ hwaited⟩
  rw [← hcount]
  exact of_decide_eq_true hcap

/-! ## One call -/

theorem reflect_ends {current : Option ReflectionScheduleState} (hcall : call.Completed)
    (hdecode : ReflectionScheduleState.decode time w.schedule = .ok current) :
    CycleEnds clock time w call.now current
      (reflect settings clock time call { world := w }).2 := by
  have hstart : Uncounted w { world := w } := ⟨rfl, rfl, fun _ hmem => nomatch hmem⟩
  show CycleEnds clock time w call.now current
    ((get >>= fun c => if blocked settings clock time call c.world.schedule then pure false
      else cycle settings clock time call) { world := w }).2
  rw [get_bind]
  split
  · exact Or.inl hstart
  · exact cycle_leads hdecode hcall _ hstart

theorem reflect_passed {id : String}
    (h : ReflectAction.published id ∈ (reflect settings clock time call { world := w }).2.trace) :
    blocked settings clock time call w.schedule = false := by
  by_contra hblocked
  rw [Bool.not_eq_false] at hblocked
  have hnothing : reflect settings clock time call { world := w } =
      (.returned false, { world := w }) := by
    rw [reflect, get_bind, if_pos hblocked]
    rfl
  rw [hnothing] at h
  cases h

theorem publishes_iff {trace : List ReflectAction} :
    publishes trace = true ↔ ∃ id, ReflectAction.published id ∈ trace := by
  rw [publishes, List.any_eq_true]
  constructor
  · rintro ⟨action, hmem, haction⟩
    cases action with
    | published id => exact ⟨id, hmem⟩
    | generated => cases haction
    | saved id => cases haction
    | scheduled => cases haction
  · rintro ⟨id, hmem⟩
    exact ⟨_, hmem, rfl⟩

/-- **The state is tracked** through a completed call that does not go back in time. -/
theorem tracked_step (settings : ReflectionSettings) (hdate : Monotone clock.date)
    (htracked : Tracked clock time w history)
    (hnow : ∀ t ∈ history, t ≤ call.now) (hcall : call.Completed) :
    let after := watched (reflectStep settings clock time) seePublication (w, history) call
    Tracked clock time after.1.1 after.1.2 := by
  obtain ⟨current, hdecode, -, -⟩ := htracked.right
  have hcount := reflectionCountToday_eq hdate htracked hdecode hnow
  have hends : CycleEnds clock time w call.now current
      (reflect settings clock time call { world := w }).2 := reflect_ends hcall hdecode
  rcases hends with hnothing | hpublished
  · have hquiet : publishes (reflect settings clock time call { world := w }).2.trace = false := by
      rw [← Bool.not_eq_true, publishes_iff]
      rintro ⟨id, hmem⟩
      exact hnothing.unpublished id hmem
    show Tracked clock time (reflect settings clock time call { world := w }).2.world
      (if publishes (reflect settings clock time call { world := w }).2.trace = true then
        call.now :: history else history)
    rw [hquiet, if_neg Bool.false_ne_true]
    obtain ⟨right, latest, ordered⟩ := htracked
    rw [CountsRight, ← hnothing.schedule] at right
    rw [← hnothing.schedule] at latest
    exact ⟨right, latest, ordered⟩
  · have hpublishes := publishes_iff.mpr hpublished.published
    show Tracked clock time (reflect settings clock time call { world := w }).2.world
      (if publishes (reflect settings clock time call { world := w }).2.trace = true then
        call.now :: history else history)
    rw [hpublishes, if_pos rfl]
    obtain ⟨title, body, hschedule⟩ := hpublished.counted
    have hstate : ReflectionScheduleState.decode time
        (reflect settings clock time call { world := w }).2.world.schedule =
        .ok (some (nextState clock call.now current title body)) := by
      rw [hschedule]
      exact ReflectionScheduleState.decode_toRecord _
    refine ⟨⟨_, hstate, by simp, ?_⟩, ?_, List.pairwise_cons.mpr ⟨hnow, htracked.ordered⟩⟩
    · rintro state hmem
      cases hmem
      show reflectionCountToday clock call.now current + 1 =
        publishedOn clock (clock.date call.now) (call.now :: history)
      rw [publishedOn_cons, if_pos rfl, hcount]
    · intro state hdecoded
      rw [hstate] at hdecoded
      cases hdecoded
      exact ⟨rfl, rfl⟩

/-- **The schedule is safe** from any tracked state on. -/
theorem schedule_safe (hdate : Monotone clock.date) :
    ∀ (calls : List ReflectCall) (s : ReflectionWorld × List Int), Tracked clock time s.1 s.2 →
      (∀ t ∈ s.2, ∀ call ∈ calls, t ≤ call.now) →
      calls.Pairwise (fun a b => a.now ≤ b.now) → (∀ call ∈ calls, call.Completed) →
      ∀ e ∈ run (watched (reflectStep settings clock time) seePublication) s calls,
        (publishes e.output.2 = true → e.input.force = false →
          WithinLimits settings clock e.before.2 e.input) ∧
        CountsRight clock time e.after.1 e.after.2
  | [], _, _, _, _, _, e, he => nomatch he
  | call :: rest, (w, history), htracked, hnow, hordered, hdone, e, he => by
    obtain ⟨hlater, hrest⟩ := List.pairwise_cons.mp hordered
    obtain ⟨hcall, hdone⟩ := List.forall_mem_cons.mp hdone
    have hbefore : ∀ t ∈ history, t ≤ call.now := fun t ht => hnow t ht call List.mem_cons_self
    have hnext := tracked_step settings hdate htracked hbefore hcall
    rcases List.mem_cons.mp he with rfl | he
    · refine ⟨fun hpublishes hforce => ?_, hnext.right⟩
      obtain ⟨id, hmem⟩ := publishes_iff.mp hpublishes
      exact withinLimits_of_not_blocked hdate htracked hbefore hforce (reflect_passed hmem)
    · refine schedule_safe hdate rest _ hnext (fun t ht c hc => ?_) hrest hdone e he
      have hmem : t ∈ history ∨ t = call.now := by
        have hcases : t ∈ (if publishes (reflectStep settings clock time w call).2.2 = true then
            call.now :: history else history) := ht
        split at hcases
        · exact (List.mem_cons.mp hcases).symm
        · exact Or.inl hcases
      rcases hmem with hmem | rfl
      · exact hnow t hmem c (List.mem_cons_of_mem _ hc)
      · exact hlater c hc

end

/-- **Schedule safety.**  Completed calls, forced and not, whose clock does not go back, with any
    answers of the components, from an authority without a schedule record: an unforced call that
    publishes is within the limits, and the count is right after every call. -/
theorem reflect_schedule_safe (settings : ReflectionSettings) (clock : LocalClock)
    (time : PydanticTime) (hdate : Monotone clock.date) (w : ReflectionWorld)
    (hfresh : w.schedule = none) (calls : List ReflectCall)
    (hordered : calls.Pairwise fun a b => a.now ≤ b.now) (hdone : ∀ call ∈ calls, call.Completed) :
    ∀ e ∈ run (watched (reflectStep settings clock time) seePublication) (w, []) calls,
      (publishes e.output.2 = true → e.input.force = false →
        WithinLimits settings clock e.before.2 e.input) ∧
      CountsRight clock time e.after.1 e.after.2 := by
  have hdecode : ReflectionScheduleState.decode time w.schedule = .ok none := by
    rw [hfresh]
    rfl
  have htracked : Tracked clock time w [] := by
    refine ⟨⟨none, hdecode, by simp, fun _ hmem => nomatch hmem⟩, fun state hstate => ?_,
      List.Pairwise.nil⟩
    rw [hdecode] at hstate
    cases hstate
  exact schedule_safe hdate calls (w, []) htracked (fun _ hmem => nomatch hmem) hordered hdone

/-! ### Two reflections of a day -/

/-- Noon, two o'clock and the date of the first of January 2026. -/
def newYearTime : PydanticTime where
  dumpDatetime := namedText
    [(1767268800000000, "2026-01-01T12:00:00Z"), (1767276000000000, "2026-01-01T14:00:00Z")]
  parseDatetime := readNamed
    [(1767268800000000, "2026-01-01T12:00:00Z"), (1767276000000000, "2026-01-01T14:00:00Z")]
  dumpDate := namedText [(20454, "2026-01-01")]
  parseDate := readNamed [(20454, "2026-01-01")]
  parse_dumpDatetime := readNamed_namedText (by decide) (by decide)
  parse_dumpDate := readNamed_namedText (by decide) (by decide)

/-- The clock of Greenwich. -/
def utcClock : LocalClock where
  hour now := (now / 3600000000 % 24).toNat
  date now := now / 86400000000

def defaultSettings : ReflectionSettings where
  persona_discussion_threshold := 0x3fe3333333333333#64
  interval_positive := by decide
  start_hour := by decide
  end_hour := by decide
  cap_positive := Nat.succ_pos 4
  jitter_bounded := by decide

def sampleCandidate (id : String) : IdeaCandidate where
  id := id
  title := "A question"
  body := "What follows?"
  candidate_type := .question
  confidence := 0x3fe0000000000000#64
  novelty := 0x3fe0000000000000#64
  urgency := 0x3fe0000000000000#64
  interruption_cost := 0x3fc0000000000000#64
  evidence_refs := []
  source_summary := ""
  created_at := "2026-01-01T12:00:00+00:00"

/-- A call that goes all the way, below the threshold of the discussion. -/
def fullCall (id : String) (now : Int) (now_iso : String) (force : Bool) : ReflectCall where
  now := now
  force := force
  draw := 0
  organizedBefore := pure ()
  organizedAfter := pure ()
  generated := .returned [sampleCandidate id]
  scored := .returned ⟨true, 0x3fe0000000000000#64, 0x3fe0000000000000#64, 0x3fe0000000000000#64,
    0x3fc0000000000000#64, true, 0x3fe0000000000000#64, ["new"]⟩
  discussed := .raised (.other "unused")
  saved := .written
  traced := .returned ()
  scheduled := .written
  published := .written
  requested := .written
  deep_link := "nuself://new-conversation"
  now_iso := now_iso
  item_at := now_iso

def newYearCalls : List ReflectCall :=
  [fullCall "a" 1767268800000000 "2026-01-01T12:00:00+00:00" false,
    fullCall "b" 1767276000000000 "2026-01-01T14:00:00+00:00" false]

theorem newYearCalls_safe :
    (run (watched (reflectStep defaultSettings utcClock newYearTime) seePublication)
      (⟨none, .empty, .empty, .empty⟩, []) newYearCalls).map (fun e => publishes e.output.2) =
        [true, true] ∧
    ∀ e ∈ run (watched (reflectStep defaultSettings utcClock newYearTime) seePublication)
        (⟨none, .empty, .empty, .empty⟩, []) newYearCalls,
      (publishes e.output.2 = true → e.input.force = false →
        WithinLimits defaultSettings utcClock e.before.2 e.input) ∧
      CountsRight utcClock newYearTime e.after.1 e.after.2 := by
  have hdate : Monotone utcClock.date := fun _ _ h => Int.ediv_le_ediv (by decide) h
  refine ⟨by decide +kernel, reflect_schedule_safe _ _ _ hdate _ rfl _ (by decide) ?_⟩
  intro call hcall
  simp only [newYearCalls, List.mem_cons, List.not_mem_nil, or_false] at hcall
  rcases hcall with rfl | rfl
  · exact ⟨rfl, rfl, rfl⟩
  · exact ⟨rfl, rfl, rfl⟩

end NuSelf.Reflection
