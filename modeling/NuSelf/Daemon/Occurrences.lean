/-
  Where each queued occurrence is, and what the scheduler holds for it.

  Two invariants of the scheduler, each with one lemma for each thing that can happen to an
  occurrence: it is admitted, taken, moves on in flight, is freed, is completed.

  1. `Tracked` — an occurrence is where its stage says: waiting in `pending`, between the
     dispatcher's hand and the callback's lock in `in_flight`, or done with.  Stages only go
     forward; that is why no handler is called twice and no future completed twice.
  2. `InBounds` — the held resources are those of the tasks in flight, each once and no more than
     the slots, and the active tasks fit the capacity.
-/
import NuSelf.Daemon.Executor

namespace NuSelf.Daemon

open NuSelf.Lib

variable {π ρ : Type}

/-! ## Where each occurrence is -/

/-- The numbers of the futures of some occurrences. -/
abbrev numbers (qs : List (QueuedTask π)) : List Nat := qs.map fun q => q.completion

/-- **Each occurrence is where its stage says**, and what has happened to it is in the logs once. -/
structure Tracked (s : DaemonScheduler π ρ) (stage : Nat → TaskStage ρ) (runs : List Nat) :
    Prop where
  waiting : ∀ n, n ∈ numbers s.pending ↔ n < s.next_completion ∧ stage n = .waiting
  flying : ∀ n, n ∈ numbers s.in_flight ↔ (stage n).inFlight = true
  fresh : ∀ n, s.next_completion ≤ n → stage n = .waiting
  settled : ∀ n, n ∈ s.settled.map Prod.fst ↔ stage n = .settled
  settled_once : (s.settled.map Prod.fst).Nodup
  begun : ∀ n ∈ runs, (stage n).begun = true
  run_once : runs.Nodup

section
variable {s s' : DaemonScheduler π ρ} {stage : Nat → TaskStage ρ} {runs : List Nat}

theorem tracked_new (handlers : List String) (m c : Nat) :
    Tracked (.new handlers m c : DaemonScheduler π ρ) (fun _ => .waiting) [] where
  waiting := fun n => by
    constructor
    · intro hn; exact nomatch hn
    · rintro ⟨hn, -⟩; exact nomatch hn
  flying := fun n => by
    constructor
    · intro hn; exact nomatch hn
    · intro hn; exact nomatch hn
  fresh := fun _ _ => rfl
  settled := fun n => by
    constructor
    · intro hn; exact nomatch hn
    · intro hn; exact nomatch hn
  settled_once := List.nodup_nil
  begun := fun n hn => nomatch hn
  run_once := List.nodup_nil

theorem Tracked.of_eq (h : Tracked s stage runs) (hpending : s'.pending = s.pending)
    (hflight : s'.in_flight = s.in_flight) (hnext : s'.next_completion = s.next_completion)
    (hsettled : s'.settled = s.settled) : Tracked s' stage runs where
  waiting := by rw [hpending, hnext]; exact h.waiting
  flying := by rw [hflight]; exact h.flying
  fresh := by rw [hnext]; exact h.fresh
  settled := by rw [hsettled]; exact h.settled
  settled_once := by rw [hsettled]; exact h.settled_once
  begun := h.begun
  run_once := h.run_once

theorem Tracked.admit (h : Tracked s stage runs) {r : QueuedTask π} (hr : s.Admits r s')
    (hflight : s'.in_flight = s.in_flight) (hsettled : s'.settled = s.settled) :
    Tracked s' stage runs where
  waiting := fun n => by
    have hfresh : stage s.next_completion = .waiting := h.fresh _ (le_refl _)
    rw [hr.pending, hr.next, numbers, List.map_append, List.mem_append, h.waiting n,
      List.map_singleton, List.mem_singleton, hr.number]
    constructor
    · rintro (⟨hn, hstage⟩ | rfl)
      · exact ⟨by omega, hstage⟩
      · exact ⟨by omega, hfresh⟩
    · rintro ⟨hn, hstage⟩
      rcases Nat.lt_or_eq_of_le (Nat.le_of_lt_succ hn) with hlt | rfl
      · exact Or.inl ⟨hlt, hstage⟩
      · exact Or.inr rfl
  flying := by rw [hflight]; exact h.flying
  fresh := fun n hn => h.fresh n (by rw [hr.next] at hn; omega)
  settled := by rw [hsettled]; exact h.settled
  settled_once := by rw [hsettled]; exact h.settled_once
  begun := h.begun
  run_once := h.run_once

theorem mem_numbers_erase [DecidableEq π] {l : List (QueuedTask π)} (hnd : (numbers l).Nodup)
    {q : QueuedTask π} (hq : q ∈ l) (n : Nat) :
    n ∈ numbers (l.erase q) ↔ n ∈ numbers l ∧ n ≠ q.completion := by
  have hperm : (numbers l).Perm (q.completion :: numbers (l.erase q)) :=
    (List.perm_cons_erase hq).map _
  have hnot : q.completion ∉ numbers (l.erase q) :=
    (List.nodup_cons.mp (hperm.nodup_iff.mp hnd)).1
  rw [hperm.mem_iff, List.mem_cons]
  constructor
  · intro hn
    exact ⟨Or.inr hn, fun he => hnot (he ▸ hn)⟩
  · rintro ⟨hn | hn, hne⟩
    · exact absurd hn hne
    · exact hn

theorem Tracked.advance (h : Tracked s stage runs) {n : Nat} {x : TaskStage ρ}
    (hold : (stage n).inFlight = true) (hnew : x.inFlight = true)
    (hbegun : (stage n).begun = true → x.begun = true) :
    Tracked s (fun m => if m = n then x else stage m) runs where
  waiting := fun m => by
    rw [h.waiting m]
    by_cases hm : m = n
    · rw [if_pos hm, hm]
      constructor
      · rintro ⟨-, hw⟩; rw [hw] at hold; cases hold
      · rintro ⟨-, hw⟩; rw [hw] at hnew; cases hnew
    · rw [if_neg hm]
  flying := fun m => by
    rw [h.flying m]
    by_cases hm : m = n
    · rw [if_pos hm, hm, hold, hnew]
    · rw [if_neg hm]
  fresh := fun m hle => by
    by_cases hm : m = n
    · have hw := h.fresh m hle
      rw [hm] at hw
      rw [hw] at hold
      cases hold
    · rw [if_neg hm]; exact h.fresh m hle
  settled := fun m => by
    rw [h.settled m]
    by_cases hm : m = n
    · rw [if_pos hm, hm]
      constructor
      · intro hs; rw [hs] at hold; cases hold
      · intro hs; rw [hs] at hnew; cases hnew
    · rw [if_neg hm]
  settled_once := h.settled_once
  begun := fun m hm => by
    by_cases hmn : m = n
    · rw [if_pos hmn]; exact hbegun (hmn ▸ h.begun m hm)
    · rw [if_neg hmn]; exact h.begun m hm
  run_once := h.run_once

theorem Tracked.call (h : Tracked s stage runs) {n : Nat} (hfresh : (stage n).begun = false)
    (hbegun : ∀ m ∈ runs, (stage m).begun = true) : (runs ++ [n]).Nodup := by
  have hnot : n ∉ runs := by
    intro hn
    rw [hbegun n hn] at hfresh
    cases hfresh
  rw [List.nodup_append']
  refine ⟨h.run_once, List.nodup_singleton n, fun m hm hmn => ?_⟩
  rw [List.mem_singleton.mp hmn] at hm
  exact hnot hm

theorem Tracked.take [DecidableEq π] (h : Tracked s stage runs)
    (hnd : (numbers s.pending).Nodup) {q : QueuedTask π} (hq : q ∈ s.pending)
    (hpending : s'.pending = s.pending.erase q) (hflight : s'.in_flight = q :: s.in_flight)
    (hnext : s'.next_completion = s.next_completion) (hsettled : s'.settled = s.settled) :
    Tracked s' (fun m => if m = q.completion then .taken else stage m) runs := by
  obtain ⟨hlt, hold⟩ := (h.waiting q.completion).mp (List.mem_map_of_mem hq)
  refine ⟨fun m => ?_, fun m => ?_, fun m hle => ?_, fun m => ?_, ?_, fun m hm => ?_, h.run_once⟩
  · rw [hpending, hnext, mem_numbers_erase hnd hq, h.waiting m]
    by_cases hm : m = q.completion
    · rw [if_pos hm]
      constructor
      · rintro ⟨-, hne⟩; exact absurd hm hne
      · rintro ⟨-, hw⟩; cases hw
    · rw [if_neg hm]
      exact ⟨fun hw => hw.1, fun hw => ⟨hw, hm⟩⟩
  · rw [hflight, numbers, List.map_cons, List.mem_cons, h.flying m]
    by_cases hm : m = q.completion
    · rw [if_pos hm]
      exact ⟨fun _ => rfl, fun _ => Or.inl hm⟩
    · rw [if_neg hm]
      exact ⟨fun hw => hw.resolve_left hm, Or.inr⟩
  · rw [hnext] at hle
    rw [if_neg (by omega)]
    exact h.fresh m hle
  · rw [hsettled, h.settled m]
    by_cases hm : m = q.completion
    · rw [if_pos hm, hm, hold]
      constructor
      · intro hs; cases hs
      · intro hs; cases hs
    · rw [if_neg hm]
  · rw [hsettled]; exact h.settled_once
  · have hbegun := h.begun m hm
    rw [if_neg]
    · exact hbegun
    · rintro rfl
      rw [hold] at hbegun
      cases hbegun

/-- The locked section of `_complete` takes an executed occurrence out of flight. -/
theorem Tracked.free [DecidableEq π] (h : Tracked s stage runs)
    (hnd : (numbers s.in_flight).Nodup) {q : QueuedTask π} (hq : q ∈ s.in_flight)
    {outcome : Except String ρ} (hold : stage q.completion = .executed outcome)
    (hpending : s'.pending = s.pending) (hflight : s'.in_flight = s.in_flight.erase q)
    (hnext : s'.next_completion = s.next_completion) (hsettled : s'.settled = s.settled) :
    Tracked s' (fun m => if m = q.completion then .released outcome else stage m) runs := by
  refine ⟨fun m => ?_, fun m => ?_, fun m hle => ?_, fun m => ?_, ?_, fun m hm => ?_, h.run_once⟩
  · rw [hpending, hnext, h.waiting m]
    by_cases hm : m = q.completion
    · rw [if_pos hm, hm, hold]
      constructor
      · rintro ⟨-, hw⟩; cases hw
      · rintro ⟨-, hw⟩; cases hw
    · rw [if_neg hm]
  · rw [hflight, mem_numbers_erase hnd hq, h.flying m]
    by_cases hm : m = q.completion
    · rw [if_pos hm]
      constructor
      · rintro ⟨-, hne⟩; exact absurd hm hne
      · intro hw; cases hw
    · rw [if_neg hm]
      exact ⟨fun hw => hw.1, fun hw => ⟨hw, hm⟩⟩
  · rw [hnext] at hle
    have hw := h.fresh m hle
    rw [if_neg]
    · exact hw
    · rintro rfl
      rw [hw] at hold
      cases hold
  · rw [hsettled, h.settled m]
    by_cases hm : m = q.completion
    · rw [if_pos hm, hm, hold]
      constructor
      · intro hs; cases hs
      · intro hs; cases hs
    · rw [if_neg hm]
  · rw [hsettled]; exact h.settled_once
  · by_cases hmq : m = q.completion
    · rw [if_pos hmq]; rfl
    · rw [if_neg hmq]; exact h.begun m hm

/-- Futures of occurrences that are not in flight, and are not done yet, are completed. -/
theorem Tracked.complete (h : Tracked s stage runs) {ns : List Nat}
    {done : List (Nat × Settlement ρ)} (hdone : done.map Prod.fst = ns) (hnd : ns.Nodup)
    (hold : ∀ n ∈ ns, n < s.next_completion ∧ (stage n).inFlight = false ∧ stage n ≠ .settled)
    (hpending : ∀ n, n ∈ numbers s'.pending ↔ n ∈ numbers s.pending ∧ n ∉ ns)
    (hflight : s'.in_flight = s.in_flight) (hnext : s'.next_completion = s.next_completion)
    (hsettled : s'.settled = s.settled ++ done) :
    Tracked s' (fun m => if m ∈ ns then .settled else stage m) runs := by
  have hlog : s'.settled.map Prod.fst = s.settled.map Prod.fst ++ ns := by
    rw [hsettled, List.map_append, hdone]
  refine ⟨fun m => ?_, fun m => ?_, fun m hle => ?_, fun m => ?_, ?_, fun m hm => ?_, h.run_once⟩
  · rw [hpending, hnext, h.waiting m]
    by_cases hm : m ∈ ns
    · rw [if_pos hm]
      constructor
      · rintro ⟨-, hn⟩; exact absurd hm hn
      · rintro ⟨-, hw⟩; cases hw
    · rw [if_neg hm]
      exact ⟨fun hw => hw.1, fun hw => ⟨hw, hm⟩⟩
  · rw [hflight, h.flying m]
    by_cases hm : m ∈ ns
    · rw [if_pos hm, (hold m hm).2.1]
      constructor
      · intro hw; cases hw
      · intro hw; cases hw
    · rw [if_neg hm]
  · rw [hnext] at hle
    rw [if_neg]
    · exact h.fresh m hle
    · intro hm
      have hlt := (hold m hm).1
      omega
  · rw [hlog, List.mem_append, h.settled m]
    by_cases hm : m ∈ ns
    · rw [if_pos hm]
      exact ⟨fun _ => rfl, fun _ => Or.inr hm⟩
    · rw [if_neg hm]
      exact ⟨fun hw => hw.resolve_right hm, Or.inl⟩
  · rw [hlog, List.nodup_append']
    refine ⟨h.settled_once, hnd, fun m hm hmn => ?_⟩
    exact (hold m hmn).2.2 ((h.settled m).mp hm)
  · by_cases hmn : m ∈ ns
    · rw [if_pos hmn]; rfl
    · rw [if_neg hmn]; exact h.begun m hm

end

/-! ## The bounds -/

/-- **The held resources are those of the tasks in flight**, each once, no more than the slots
    `m`, and no more tasks are active than the capacity `c`. -/
structure InBounds (m c : Nat) (s : DaemonScheduler π ρ) : Prop where
  slots : s.max_concurrency = m
  capacity : s.queue_capacity = c
  busy : s.busy_resources.Perm (s.in_flight.map fun q => q.task.resource)
  apart : s.busy_resources.Nodup
  flights : s.in_flight.length ≤ m
  room : s.live.length ≤ c

section
variable {s s' : DaemonScheduler π ρ} {m c : Nat}

theorem inBounds_new (handlers : List String) (m c : Nat) :
    InBounds m c (.new handlers m c : DaemonScheduler π ρ) where
  slots := rfl
  capacity := rfl
  busy := List.Perm.refl _
  apart := List.nodup_nil
  flights := Nat.zero_le m
  room := Nat.zero_le c

theorem InBounds.busy_length (h : InBounds m c s) :
    s.busy_resources.length = s.in_flight.length := by
  rw [h.busy.length_eq, List.length_map]

theorem InBounds.same (h : InBounds m c s) (hb : s.SameBounds s')
    (hflight : s'.in_flight = s.in_flight) (hbusy : s'.busy_resources = s.busy_resources)
    (hroom : s'.live.length ≤ c) : InBounds m c s' where
  slots := by rw [hb.slots]; exact h.slots
  capacity := by rw [hb.capacity]; exact h.capacity
  busy := by rw [hbusy, hflight]; exact h.busy
  apart := by rw [hbusy]; exact h.apart
  flights := by rw [hflight]; exact h.flights
  room := hroom

theorem InBounds.take [DecidableEq π] (h : InBounds m c s) {now : Rat} {q : QueuedTask π}
    (hq : s.takes now = some q) : InBounds m c (s.dispatch now) := by
  obtain ⟨-, hslot, ⟨hmem, -, hfree⟩, -⟩ := s.takes_spec hq
  rw [s.dispatch_some hq]
  have hlength := List.length_erase_of_mem hmem
  have hpos := List.length_pos_of_mem hmem
  have hlive := h.room
  have hbusy := h.busy_length
  have hslots := h.slots
  simp only [DaemonScheduler.live, List.length_append] at hlive
  refine ⟨h.slots, h.capacity, h.busy.cons _, List.nodup_cons.mpr ⟨hfree, h.apart⟩, ?_, ?_⟩
  · show s.in_flight.length + 1 ≤ m
    omega
  · show (s.pending.erase q ++ q :: s.in_flight).length ≤ c
    rw [List.length_append, List.length_cons]
    omega

/-- They are given back together, and the next round of a periodic task has the room of the last. -/
theorem InBounds.free [DecidableEq π] (h : InBounds m c s) {q : QueuedTask π}
    (hq : q ∈ s.in_flight) (hr : s.Releases q s') : InBounds m c s' := by
  have hlength := List.length_erase_of_mem hq
  have hpos := List.length_pos_of_mem hq
  have hflights := h.flights
  have hlive := h.room
  simp only [DaemonScheduler.live, List.length_append] at hlive
  refine ⟨by rw [hr.bounds.slots]; exact h.slots, by rw [hr.bounds.capacity]; exact h.capacity,
    ?_, ?_, ?_, ?_⟩
  · rw [hr.busy, hr.in_flight]
    have hperm : (s.in_flight.map fun q => q.task.resource).Perm
        (q.task.resource :: (s.in_flight.erase q).map fun q => q.task.resource) :=
      (List.perm_cons_erase hq).map _
    have herase := (h.busy.trans hperm).erase q.task.resource
    rw [List.erase_cons_head] at herase
    exact herase
  · rw [hr.busy]; exact h.apart.erase _
  · rw [hr.in_flight]; omega
  · rw [DaemonScheduler.live, hr.in_flight, List.length_append]
    rcases hr.waits with ⟨hpending, -⟩ | ⟨-, r, hadmits⟩
    · rw [hpending]; omega
    · rw [hadmits.pending, List.length_append, List.length_singleton]; omega

/-- The active map lists the identities of the tasks that wait or are in flight. -/
theorem active_keys (h : s.Admitted) :
    s.active.keys.Perm (s.live.map fun q => q.task.identity) := by
  refine (List.perm_ext_iff_of_nodup s.active.nodup h.distinct).mpr fun identity => ?_
  show identity ∈ s.active.keys ↔ _
  rw [Table.mem_keys_iff, List.mem_map]
  constructor
  · rintro ⟨q, hq⟩
    exact ⟨q, (h.active_iff identity q).mp hq⟩
  · rintro ⟨q, hq⟩
    exact ⟨q, (h.active_iff identity q).mpr hq⟩

theorem start_eq (h : s.start = .ok s') :
    s' = s ∨ s' = { s with phase := .running, dispatcher_alive := true } := by
  unfold DaemonScheduler.start at h
  split at h
  · cases h
  · cases h
  · exact Or.inl (Except.ok.inj h).symm
  · exact Or.inr (Except.ok.inj h).symm

theorem endShutdown_eq (s : DaemonScheduler π ρ) :
    s.endShutdown = s ∨ s.endShutdown = { s with phase := .stopped } := by
  unfold DaemonScheduler.endShutdown
  split
  · exact Or.inr rfl
  · exact Or.inl rfl

end

end NuSelf.Daemon
