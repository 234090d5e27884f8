/-
  Delivery loops side by side.

  Any number of loops, in the daemon and in commands, work on one store.  A loop may stop anywhere,
  by a crash or an exception: the kernel takes its lock back, and the store keeps what was saved.  A
  loop that starts again is a loop that takes a lock again.

  1. **The system** — the shared store, the point of every loop, the owner of every lock file.
  2. **The invariant** (`inv_step`) — a loop that is past its check is the only one on its record
     (`one_loop`), so what it knows lasts.
  3. **What a step may change** (`evolves_step`, `handed_step`): settled results and final records
     stay.
  4. An attempt that nobody is working on any more is `interrupted`; it can only become `uncertain`
     (`interrupted_step`), and does when the record is taken up again (`recover_step`).
  5. `delivered_at_most_once` puts these together for every run.
-/
import Mathlib.Data.Set.Subsingleton
import Mathlib.Logic.Function.Basic
import NuSelf.Delivery.Deliver
import NuSelf.Lib.Run

namespace NuSelf.Delivery

open NuSelf.Lib

/-! ## The system -/

structure System (ω : Type) where
  shared : Shared
  phase : ω → Phase
  /-- Who has the lock file of a record. -/
  owner : String → Option ω

inductive Input (ω : Type) where
  | request (itemId : String)
  /-- The loop begins to deliver a record: the lock is given to it. -/
  | acquire (w : ω) (id : String) (adapters : AdapterIds)
  | move (w : ω) (env : Env)
  /-- The loop dies, or leaves with an exception. -/
  | stop (w : ω)

namespace System

variable {ω : Type} [DecidableEq ω]

/-- The loop leaves `deliver`, or goes on. -/
def enter (s : System ω) (w : ω) (r : Phase × Shared) : System ω where
  shared := r.2
  phase := Function.update s.phase w r.1
  owner := fun id =>
    if (s.phase w).held = some id ∧ r.1.held = none then none else s.owner id

/-- One step of the system; what cannot happen changes nothing. -/
def step (s : System ω) : Input ω → System ω × Unit
  | .request itemId =>
    match s.shared.store.request itemId with
    | none => (s, ())
    | some store => ({ s with shared := { s.shared with store := store } }, ())
  | .acquire w id adapters =>
    if (s.phase w).isIdle = true ∧ s.owner id = none ∧ validStorageKey id = true then
      ({ s with
          phase := Function.update s.phase w (.check id adapters)
          owner := Function.update s.owner id (some w) }, ())
    else (s, ())
  | .move w env => (s.enter w (Delivery.move env (s.phase w) s.shared), ())
  | .stop w => (s.enter w (.idle, s.shared), ())

/-- Nothing requested, nobody at work. -/
def start : System ω := ⟨⟨.empty, [], []⟩, fun _ => .idle, fun _ => none⟩

end System

/-! ## The invariant of the system -/

namespace System

variable {ω : Type}

structure Inv (s : System ω) : Prop where
  sound : Sound s.shared
  knows : ∀ w, Knows s.shared (s.phase w)
  locked : ∀ w id, (s.phase w).held = some id → s.owner id = some w

/-- Somebody has the attempt in flight. -/
def busy (s : System ω) (id a : String) : Prop := ∃ w, (s.phase w).inFlight id a

/-- The attempt was started, its result is not saved, and nobody is working on it any more. -/
def interrupted (s : System ω) (id a : String) : Prop :=
  s.shared.Result id a .delivering ∧ ¬ s.busy id a

variable [DecidableEq ω] {s : System ω}

omit [DecidableEq ω] in
theorem inv_start : Inv (start : System ω) where
  sound := by
    refine ⟨List.nodup_nil, fun _ _ h => (nomatch h), fun _ _ h => ?_, fun _ _ h => (nomatch h)⟩
    obtain ⟨_, _, hget, -⟩ := h
    cases hget
  knows := fun _ => trivial
  locked := fun _ _ h => nomatch h

theorem inv_enter (h : Inv s) {w : ω} {r : Phase × Shared} (hr : Moved (s.phase w) s.shared r) :
    Inv (s.enter w r) := by
  -- two loops never hold the same record
  have hother : ∀ w', w' ≠ w → ∀ id, (s.phase w').held = some id → (s.phase w).held ≠ some id := by
    intro w' hw id hid hid'
    have howner := h.locked w' id hid
    rw [h.locked w id hid'] at howner
    exact hw (Option.some.inj howner).symm
  refine ⟨hr.sound, fun w' => ?_, fun w' id hheld => ?_⟩
  · by_cases hw : w' = w
    · subst hw
      show Knows r.2 (Function.update s.phase w' r.1 w')
      rw [Function.update_self]
      exact hr.knows
    · show Knows r.2 (Function.update s.phase w r.1 w')
      rw [Function.update_of_ne hw]
      exact knows_frame (fun id hid => hr.frame id (hother w' hw id hid)) (h.knows w')
  · have hphase : Phase.held (Function.update s.phase w r.1 w') = some id := hheld
    show (if (s.phase w).held = some id ∧ r.1.held = none then none else s.owner id) = some w'
    by_cases hw : w' = w
    · subst hw
      rw [Function.update_self] at hphase
      have hkept : ¬ ((s.phase w').held = some id ∧ r.1.held = none) := by
        rintro ⟨-, hnone⟩
        rw [hnone] at hphase
        cases hphase
      rw [if_neg hkept]
      rcases hr.held with hnone | hsame
      · rw [hnone] at hphase
        cases hphase
      · exact h.locked w' id (hsame.symm.trans hphase)
    · rw [Function.update_of_ne hw] at hphase
      rw [if_neg fun hrel => hother w' hw id hphase hrel.1]
      exact h.locked w' id hphase

omit [DecidableEq ω] in
theorem inv_request (h : Inv s) {itemId : String} {store : DeliveryRecords}
    (hstore : s.shared.store.request itemId = some store) :
    Inv { s with shared := { s.shared with store := store } } := by
  rcases request_cases hstore with rfl | ⟨hne, hnone, rfl⟩
  · exact h
  have hold : ∀ id r, s.shared.store.get id = some r →
      (s.shared.store.save (.requested itemId hne)).get id = some r := by
    intro id r hget
    rw [DeliveryRecords.get_save, if_neg]
    · exact hget
    · intro hid
      have hid : id = "delivery-" ++ itemId := hid
      rw [hid, hnone] at hget
      cases hget
  have hnew : ∀ id r, (s.shared.store.save (.requested itemId hne)).get id = some r →
      s.shared.store.get id = some r ∨ r = .requested itemId hne := by
    intro id r hget
    rw [DeliveryRecords.get_save] at hget
    split at hget
    · cases hget
      exact Or.inr rfl
    · exact Or.inl hget
  refine ⟨⟨h.sound.once, fun id a hmem => ?_, fun id a hres => ?_, fun id r hget hsent => ?_⟩,
    fun w => ?_, h.locked⟩
  · obtain ⟨status, hstatus, r, res, hget, hres⟩ := h.sound.started id a hmem
    exact ⟨status, hstatus, r, res, hold id r hget, hres⟩
  · obtain ⟨r, res, hget, hres, hstatus⟩ := hres
    rcases hnew id r hget with hget | rfl
    · exact h.sound.sent_reported id a ⟨r, res, hget, hres, hstatus⟩
    · cases hres
  · rcases hnew id r hget with hget | rfl
    · obtain ⟨hplan, hall⟩ := h.sound.sent_all id r hget hsent
      refine ⟨hplan, fun a ha => ?_⟩
      obtain ⟨r', res, hget', hres⟩ := hall a ha
      exact ⟨r', res, hold id r' hget', hres⟩
    · cases hsent
  · have hopen : ∀ id, s.shared.Open id → SameRecord id s.shared
        { s.shared with store := s.shared.store.save (.requested itemId hne) } := by
      rintro id ⟨r, hget, -⟩
      exact ⟨(hold id r hget).trans hget.symm, fun a => ⟨Iff.rfl, Iff.rfl⟩⟩
    have hknows := h.knows w
    cases hp : s.phase w <;> rw [hp] at hknows <;> first
      | trivial
      | exact knows_frame (fun id hid => by cases hid; exact hopen _ hknows) hknows
      | exact knows_frame (fun id hid => by cases hid; exact hopen _ hknows.1) hknows

/-- **The invariant is kept by every step.** -/
theorem inv_step (s : System ω) (i : Input ω) (h : Inv s) : Inv (step s i).1 := by
  cases i with
  | request itemId =>
    rw [step]
    split
    · exact h
    · rename_i store hstore
      exact inv_request h hstore
  | acquire w id adapters =>
    rw [step]
    split
    · rename_i hfree
      refine ⟨h.sound, fun w' => ?_, fun w' id' hheld => ?_⟩
      · by_cases hw : w' = w
        · subst hw
          show Knows s.shared (Function.update s.phase w' (.check id adapters) w')
          rw [Function.update_self]
          trivial
        · show Knows s.shared (Function.update s.phase w (.check id adapters) w')
          rw [Function.update_of_ne hw]
          exact h.knows w'
      · have hphase : Phase.held (Function.update s.phase w (.check id adapters) w') = some id' :=
          hheld
        show Function.update s.owner id (some w) id' = some w'
        by_cases hw : w' = w
        · subst hw
          rw [Function.update_self] at hphase
          cases hphase
          rw [Function.update_self]
        · rw [Function.update_of_ne hw] at hphase
          have howner := h.locked w' id' hphase
          rw [Function.update_of_ne]
          · exact howner
          · rintro rfl
            rw [hfree.2.1] at howner
            cases howner
    · exact h
  | move w env => exact inv_enter h (moved env h.sound (h.knows w))
  | stop w => exact inv_enter h (moved_idle h.sound)

/-- **One loop at a record**: whatever the loops do, no two hold the same one. -/
theorem one_loop (is : List (Input ω)) (id : String) :
    {w | ((final step start is).phase w).held = some id}.Subsingleton := by
  intro w hw w' hw'
  have hinv : Inv (final step start is) := final_induct inv_step start is inv_start
  exact Option.some.inj ((hinv.locked w id hw).symm.trans (hinv.locked w' id hw'))

/-! ## What a step of the system may change -/

omit [DecidableEq ω] in
theorem evolves_request {itemId : String} {store : DeliveryRecords}
    (hstore : s.shared.store.request itemId = some store) (busy : String → String → Prop) :
    Evolves busy s.shared { s.shared with store := store } := by
  rcases request_cases hstore with rfl | ⟨hne, hnone, rfl⟩
  · exact .of_store_eq rfl
  have hold : ∀ id r, s.shared.store.get id = some r →
      (s.shared.store.save (.requested itemId hne)).get id = some r := by
    intro id r hget
    rw [DeliveryRecords.get_save, if_neg]
    · exact hget
    · intro hid
      have hid : id = "delivery-" ++ itemId := hid
      rw [hid, hnone] at hget
      cases hget
  exact ⟨fun id r hget _ => hold id r hget,
    fun id r a res hget hres => ⟨r, res, hold id r hget, hres, .refl _ res⟩⟩

theorem evolves_step (h : Inv s) (i : Input ω) : Evolves s.busy s.shared (step s i).1.shared := by
  cases i with
  | request itemId =>
    rw [step]
    split
    · exact .of_store_eq rfl
    · rename_i store hstore
      exact evolves_request hstore s.busy
  | acquire w id adapters =>
    rw [step]
    split <;> exact .of_store_eq rfl
  | move w env =>
    exact (moved env h.sound (h.knows w)).evolves.mono fun id a hflight => ⟨w, hflight⟩
  | stop w => exact .of_store_eq rfl

theorem busy_step (h : Inv s) (i : Input ω) {id a : String} (hbusy : (step s i).1.busy id a) :
    s.busy id a ∨ s.shared.Result id a .pending := by
  have henter : ∀ {w : ω} {r : Phase × Shared}, Moved (s.phase w) s.shared r →
      (s.enter w r).busy id a → s.busy id a ∨ s.shared.Result id a .pending := by
    rintro w r hr ⟨w', hflight⟩
    have hphase : Phase.inFlight (Function.update s.phase w r.1 w') id a := hflight
    by_cases hw : w' = w
    · subst hw
      rw [Function.update_self] at hphase
      exact (hr.flight id a hphase).imp_left fun hp => ⟨w', hp⟩
    · rw [Function.update_of_ne hw] at hphase
      exact Or.inl ⟨w', hphase⟩
  cases i with
  | request itemId =>
    rw [step] at hbusy
    split at hbusy <;> exact Or.inl hbusy
  | acquire w id' adapters =>
    rw [step] at hbusy
    split at hbusy
    · obtain ⟨w', hflight⟩ := hbusy
      have hphase : Phase.inFlight (Function.update s.phase w (.check id' adapters) w') id a :=
        hflight
      by_cases hw : w' = w
      · subst hw
        rw [Function.update_self] at hphase
        exact hphase.elim
      · rw [Function.update_of_ne hw] at hphase
        exact Or.inl ⟨w', hphase⟩
    · exact Or.inl hbusy
  | move w env => exact henter (moved env h.sound (h.knows w)) hbusy
  | stop w => exact henter (moved_idle h.sound) hbusy

theorem handed_step (h : Inv s) (i : Input ω) {id a : String}
    (hmem : (id, a) ∈ (step s i).1.shared.handed) :
    (id, a) ∈ s.shared.handed ∨ s.busy id a := by
  cases i with
  | request itemId =>
    rw [step] at hmem
    split at hmem <;> exact Or.inl hmem
  | acquire w id' adapters =>
    rw [step] at hmem
    split at hmem <;> exact Or.inl hmem
  | move w env =>
    exact ((moved env h.sound (h.knows w)).handed id a hmem).imp_right fun hp => ⟨w, hp⟩
  | stop w => exact Or.inl hmem

omit [DecidableEq ω] in
theorem busy_delivering (h : Inv s) {id a : String} (hbusy : s.busy id a) :
    s.shared.Result id a .delivering := by
  obtain ⟨w, hflight⟩ := hbusy
  have hknows := h.knows w
  cases hp : s.phase w <;> rw [hp] at hflight hknows <;> first
    | exact hflight.elim
    | (obtain ⟨rfl, rfl⟩ := hflight
       first
         | exact hknows.2.1
         | exact hknows.2)

/-- **An interrupted attempt** stays so or becomes uncertain. -/
theorem interrupted_step (h : Inv s) (i : Input ω) {id a : String} (hint : s.interrupted id a) :
    (step s i).1.interrupted id a ∨ (step s i).1.shared.Result id a .uncertain := by
  obtain ⟨⟨r, res, hget, hres, hstatus⟩, hidle⟩ := hint
  obtain ⟨r', res', hget', hres', hstep⟩ := (evolves_step h i).results id r a res hget hres
  unfold ResultStep at hstep
  rw [hstatus] at hstep
  rcases hstep with hdelivering | huncertain | ⟨hbusy, -⟩
  · left
    refine ⟨⟨r', res', hget', hres', hdelivering⟩, fun hbusy => ?_⟩
    rcases busy_step h i hbusy with hbefore | hpending
    · exact hidle hbefore
    · cases result_unique hpending ⟨r, res, hget, hres, hstatus⟩
  · exact Or.inr ⟨r', res', hget', hres', huncertain⟩
  · exact absurd hbusy hidle

theorem settled_step (h : Inv s) (i : Input ω) {id a : String} {status : AdapterStatus}
    (hs : status.settled = true) (hres : s.shared.Result id a status) :
    (step s i).1.shared.Result id a status := by
  obtain ⟨r, res, hget, hres, rfl⟩ := hres
  obtain ⟨r', res', hget', hres', hstep⟩ := (evolves_step h i).results id r a res hget hres
  rw [hstep.of_settled hs] at hres'
  exact ⟨r', res, hget', hres', rfl⟩

/-- **Recovery**: the loop that takes a record up again makes its interrupted attempts uncertain. -/
theorem recover_step {w : ω} {env : Env} {id : String} {adapters : AdapterIds}
    (hphase : s.phase w = .recover id adapters) {a : String}
    (hres : s.shared.Result id a .delivering) :
    (step s (.move w env)).1.shared.Result id a .uncertain := by
  obtain ⟨r, res, hget, hres, hstatus⟩ := hres
  show (Delivery.move env (s.phase w) s.shared).2.Result id a .uncertain
  rw [hphase, Delivery.move, hget]
  show (s.shared.transact id (some ∘ .recovered) (.item id adapters r.requiredAdapters)).2.Result
    id a .uncertain
  unfold Shared.transact DeliveryRecords.update
  rw [hget, Option.bind_some]
  refine ⟨r.recovered, res.recovered, ?_, ?_, ?_⟩
  · exact Shared.get_saved_self hget rfl
  · rw [DeliveryRecord.get_recovered, hres, Option.map_some]
  · rw [AdapterResult.recovered_status, if_pos hstatus]

/-! ## At most once -/

/-- What every step of every run keeps to. -/
structure DeliveredOnce (e : Lib.Step (System ω) (Input ω) Unit) : Prop where
  /-- No adapter gets a record twice. -/
  once : e.after.shared.handed.Nodup
  /-- A record is sent only when every adapter of its plan has reported success. -/
  sent : ∀ id r, e.after.shared.store.get id = some r → r.status = .sent →
    r.requiredAdapters ≠ [] ∧ ∀ a ∈ r.requiredAdapters, (id, a) ∈ e.after.shared.reported
  /-- Records that are sent or failed never change. -/
  final : ∀ id r, e.before.shared.store.get id = some r → r.status ≠ .pending →
    e.after.shared.store.get id = some r
  /-- Neither do results that are sent, failed or uncertain. -/
  settled : ∀ id a status, status.settled = true → e.before.shared.Result id a status →
    e.after.shared.Result id a status
  /-- An interrupted attempt stays as it is until it becomes uncertain ... -/
  interrupted : ∀ id a, e.before.interrupted id a →
    e.after.interrupted id a ∨ e.after.shared.Result id a .uncertain
  /-- ... which it does when a loop takes the record up again ... -/
  recovered : ∀ w env id adapters, e.input = .move w env →
    e.before.phase w = .recover id adapters → ∀ a, e.before.shared.Result id a .delivering →
      e.after.shared.Result id a .uncertain
  /-- ... and neither it nor a settled one goes out any more. -/
  not_again : ∀ id a, (e.before.interrupted id a ∨
      ∃ status, status.settled = true ∧ e.before.shared.Result id a status) →
    (id, a) ∈ e.after.shared.handed → (id, a) ∈ e.before.shared.handed

/-- **At most once**: for any loops with any adapters, any requests, and loops that stop anywhere
    and start again in any order. -/
theorem delivered_at_most_once (is : List (Input ω)) :
    ∀ e ∈ run step (start : System ω) is, DeliveredOnce e := by
  intro e he
  have hinv := run_invariant inv_step inv_start is e he
  have hof : (step e.before e.input).1 = e.after := (run_of step start is e he).after_eq
  have hevolves := evolves_step hinv.1 e.input
  rw [hof] at hevolves
  refine ⟨hinv.2.sound.once, fun id r hget hsent => ?_, hevolves.final,
    fun id a status hs hres => ?_, fun id a hint => ?_,
    fun w env id adapters hin hphase a hres => ?_, fun id a hdone hmem => ?_⟩
  · obtain ⟨hplan, hall⟩ := hinv.2.sound.sent_all id r hget hsent
    exact ⟨hplan, fun a ha => hinv.2.sound.sent_reported id a (hall a ha)⟩
  · rw [← hof]
    exact settled_step hinv.1 e.input hs hres
  · rw [← hof]
    exact interrupted_step hinv.1 e.input hint
  · rw [← hof, hin]
    exact recover_step hphase hres
  · rw [← hof] at hmem
    rcases handed_step hinv.1 e.input hmem with hold | hbusy
    · exact hold
    · exfalso
      rcases hdone with hint | ⟨status, hs, hres⟩
      · exact hint.2 hbusy
      · have hdelivering := busy_delivering hinv.1 hbusy
        rw [result_unique hres hdelivering] at hs
        cases hs

/-- Two loops; the first stops while the adapter has the item, the second finds what is left. -/
theorem delivered_at_most_once_crash :
    let adapters : AdapterIds := ⟨["log"], by decide, by decide⟩
    let env : Env := ⟨true, true, "2026-01-01T00:00:00+00:00"⟩
    let is : List (Input Bool) := .request "item-1" :: .acquire true "delivery-item-1" adapters ::
      List.replicate 7 (.move true env) ++
      .stop true :: .acquire false "delivery-item-1" adapters ::
      List.replicate 6 (.move false env)
    (run step (start : System Bool) is).length = 17 ∧
      ∀ e ∈ run step (start : System Bool) is, DeliveredOnce e := by
  intro adapters env is
  exact ⟨rfl, delivered_at_most_once is⟩

end System

end NuSelf.Delivery
