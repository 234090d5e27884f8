/-
  One delivery, step by step.

  `deliver` takes the lock of a record for as long as it works on it; every access to the store is
  one transaction, and the external send lies between two of them.

  1. **The points of `deliver`** (`Phase`) and its steps (`move`).  What goes out to an adapter is
     noted (`handed`), and so is every reported success (`reported`).
  2. **What a loop knows** at its point (`Knows`), and what the store keeps to (`Sound`).
  3. **What a transaction does to a record** (`Rewrites`): a result that is settled stays, one that
     is `delivering` is settled by the loop that has it in flight, or becomes uncertain.
  4. `moved` — every step keeps the store sound, leaves the loop knowing its new place, changes no
     final record, and touches only the record that the loop holds.
-/
import NuSelf.Delivery.Store

namespace NuSelf.Delivery

open NuSelf.Lib

/-! ## The points of a delivery -/

/-- Where a loop is in `deliver`; behind `check` it holds a record that it found pending.
    `callable` are the adapters that it can call: none for an item that is missing, where the same
    loop runs without them. -/
inductive Phase where
  | idle
  | check (id : String) (adapters : AdapterIds)
  | prepare (id : String) (adapters : AdapterIds)
  | recover (id : String) (adapters : AdapterIds)
  /-- Before the inbox is read. -/
  | item (id : String) (adapters : AdapterIds) (required : List String)
  /-- Before the next result is looked at. -/
  | next (id : String) (callable rest : List String)
  | begin (id : String) (callable : List String) (a : String) (rest : List String)
  | send (id : String) (callable : List String) (a : String) (rest : List String)
  /-- The adapter has the item. -/
  | wait (id : String) (callable : List String) (a : String) (rest : List String)
  | finish (id : String) (callable : List String) (a : String) (rest : List String)
      (success : Bool)
  | finalize (id : String)

namespace Phase

/-- The record whose lock the loop holds. -/
def held : Phase → Option String
  | .idle => none
  | .check id _ | .prepare id _ | .recover id _ | .item id _ _ | .next id _ _ | .begin id _ _ _
  | .send id _ _ _ | .wait id _ _ _ | .finish id _ _ _ _ | .finalize id => some id

def isIdle : Phase → Bool
  | .idle => true
  | _ => false

/-- The loop has begun this attempt and not yet saved its result. -/
def inFlight : Phase → String → String → Prop
  | .send id _ a _, id', a' | .wait id _ a _, id', a' | .finish id _ a _ _, id', a' =>
    id = id' ∧ a = a'
  | _, _, _ => False

end Phase

/-- What the environment decides in one step. -/
structure Env where
  found : Bool
  success : Bool
  now : String

/-- The store, and what has gone out: pairs of a record and an adapter. -/
structure Shared where
  store : DeliveryRecords
  handed : List (String × String)
  reported : List (String × String)

namespace Shared

/-- One transaction on the record; a `KeyError` ends the delivery. -/
def transact (g : Shared) (id : String) (f : DeliveryRecord → Option DeliveryRecord)
    (after : Phase) : Phase × Shared :=
  match g.store.update id f with
  | none => (.idle, g)
  | some store => (after, { g with store := store })

end Shared

/-- One step of `deliver`. -/
def move (env : Env) : Phase → Shared → Phase × Shared
  | .idle, g => (.idle, g)
  | .check id adapters, g =>
    match g.store.get id with
    | none => (.idle, g)
    | some r => (if r.status ≠ .pending then .idle else .prepare id adapters, g)
  | .prepare id adapters, g => g.transact id (some ∘ .prepared adapters) (.recover id adapters)
  | .recover id adapters, g =>
    match g.store.get id with
    | none => (.idle, g)
    | some r => g.transact id (some ∘ .recovered) (.item id adapters r.requiredAdapters)
  | .item id adapters required, g =>
    (.next id (if env.found then adapters.ids else []) required, g)
  | .next id _ [], g => (.finalize id, g)
  | .next id callable (a :: rest), g =>
    match (g.store.get id).bind fun r => r.results.get a with
    | none => (.idle, g)
    | some res =>
      (if res.status ≠ .pending then .next id callable rest else .begin id callable a rest, g)
  | .begin id callable a rest, g => g.transact id (DeliveryRecord.begun a) (.send id callable a rest)
  | .send id callable a rest, g =>
    if a ∈ callable then
      (.wait id callable a rest, { g with handed := g.handed ++ [(id, a)] })
    else (.finish id callable a rest false, g)
  | .wait id callable a rest, g =>
    (.finish id callable a rest env.success,
      if env.success then { g with reported := g.reported ++ [(id, a)] } else g)
  | .finish id callable a rest success, g =>
    g.transact id (DeliveryRecord.finished a success env.now) (.next id callable rest)
  | .finalize id, g => g.transact id (some ∘ .finalized) .idle

/-! ## What a loop knows -/

/-- The record is there and pending. -/
def Shared.Open (g : Shared) (id : String) : Prop :=
  ∃ r, g.store.get id = some r ∧ r.status = .pending

/-- The status of one result. -/
def Shared.Result (g : Shared) (id a : String) (status : AdapterStatus) : Prop :=
  ∃ r res, g.store.get id = some r ∧ r.results.get a = some res ∧ res.status = status

/-- What holds at the point of a loop. -/
def Knows (g : Shared) : Phase → Prop
  | .idle | .check _ _ => True
  | .prepare id _ | .recover id _ | .item id _ _ | .next id _ _ | .finalize id => g.Open id
  | .begin id _ a _ => g.Open id ∧ g.Result id a .pending
  | .send id _ a _ => g.Open id ∧ g.Result id a .delivering ∧ (id, a) ∉ g.handed
  | .wait id _ a _ => g.Open id ∧ g.Result id a .delivering
  | .finish id _ a _ success =>
    g.Open id ∧ g.Result id a .delivering ∧ (success = true → (id, a) ∈ g.reported)

/-- What the store and the notes keep to. -/
structure Sound (g : Shared) : Prop where
  once : g.handed.Nodup
  started : ∀ id a, (id, a) ∈ g.handed → ∃ status, status ≠ .pending ∧ g.Result id a status
  sent_reported : ∀ id a, g.Result id a .sent → (id, a) ∈ g.reported
  sent_all : ∀ id r, g.store.get id = some r → r.status = .sent →
    r.requiredAdapters ≠ [] ∧ ∀ a ∈ r.requiredAdapters, g.Result id a .sent

/-! ## What a transaction does to a record -/

/-- One result over one step; `busy` says that somebody has this attempt in flight. -/
def ResultStep (busy : Prop) (res res' : AdapterResult) : Prop :=
  match res.status with
  | .pending => True
  | .delivering =>
    res'.status = .delivering ∨ res'.status = .uncertain ∨ busy ∧ res'.status.settled = true
  | _ => res' = res

theorem ResultStep.refl (busy : Prop) (res : AdapterResult) : ResultStep busy res res := by
  unfold ResultStep
  split
  · trivial
  · rename_i h
    exact Or.inl h
  · rfl

theorem ResultStep.of_settled {busy : Prop} {res res' : AdapterResult}
    (h : ResultStep busy res res') (hs : res.status.settled = true) : res' = res := by
  unfold ResultStep at h
  cases hstatus : res.status <;> simp only [hstatus] at h hs
  · cases hs
  · cases hs
  · exact h
  · exact h
  · exact h

theorem ResultStep.ne_pending {busy : Prop} {res res' : AdapterResult}
    (h : ResultStep busy res res') (hs : res.status ≠ .pending) : res'.status ≠ .pending := by
  unfold ResultStep at h
  cases hstatus : res.status <;> simp only [hstatus] at h
  · exact absurd hstatus hs
  · rcases h with h | h | ⟨-, h⟩
    · rw [h]; decide
    · rw [h]; decide
    · intro hp
      rw [hp] at h
      cases h
  · rw [h, hstatus]; decide
  · rw [h, hstatus]; decide
  · rw [h, hstatus]; decide

/-- A record over one transaction of the loop that holds its lock. -/
structure Rewrites (g : Shared) (busy : String → Prop) (id : String) (r r' : DeliveryRecord) :
    Prop where
  same_id : r'.id = r.id
  results : ∀ a res, r.results.get a = some res →
    ∃ res', r'.results.get a = some res' ∧ ResultStep (busy a) res res'
  sent : ∀ a res', r'.results.get a = some res' → res'.status = .sent →
    r.results.get a = some res' ∨ (id, a) ∈ g.reported
  sent_all : r'.status = .sent → r'.requiredAdapters ≠ [] ∧
    ∀ a ∈ r'.requiredAdapters, ∃ res, r'.results.get a = some res ∧ res.status = .sent

section

variable {g : Shared} {busy : String → Prop} {id : String} {r : DeliveryRecord}

theorem rewrites_refl (h : r.status = .pending) : Rewrites g busy id r r where
  same_id := rfl
  results := fun _ res hget => ⟨res, hget, .refl _ res⟩
  sent := fun _ _ hget _ => Or.inl hget
  sent_all := fun hsent => by
    rw [h] at hsent
    cases hsent

theorem rewrites_prepared (h : r.status = .pending) (adapters : AdapterIds) :
    Rewrites g busy id r (r.prepared adapters) := by
  unfold DeliveryRecord.prepared
  split
  · exact rewrites_refl h
  · rename_i hplan
    rw [not_not] at hplan
    refine ⟨rfl, fun a res hget => ?_, fun a res' hget hsent => ?_, fun hsent => ?_⟩
    · have hmem := DeliveryRecord.mem_of_result hget
      rw [hplan] at hmem
      cases hmem
    · dsimp only at hget
      rw [DeliveryRecord.get_newResults] at hget
      split at hget
      · cases hget
        cases hsent
      · cases hget
    · rw [show r.status = .sent from hsent] at h
      cases h

theorem rewrites_recovered (h : r.status = .pending) :
    Rewrites g busy id r r.recovered where
  same_id := rfl
  results := by
    intro a res hget
    refine ⟨res.recovered, by rw [DeliveryRecord.get_recovered, hget]; rfl, ?_⟩
    by_cases hd : res.status = .delivering
    · have hstatus : res.recovered.status = .uncertain := by
        rw [AdapterResult.recovered_status, if_pos hd]
      unfold ResultStep
      rw [hd]
      exact Or.inr (Or.inl hstatus)
    · rw [AdapterResult.recovered_of_ne hd]
      exact .refl _ res
  sent := by
    intro a res' hget hsent
    rw [DeliveryRecord.get_recovered] at hget
    obtain ⟨res, hres, rfl⟩ := Option.map_eq_some_iff.mp hget
    have hd : res.status ≠ .delivering := by
      intro hd
      rw [AdapterResult.recovered_status, if_pos hd] at hsent
      cases hsent
    rw [AdapterResult.recovered_of_ne hd]
    exact Or.inl hres
  sent_all := fun hsent => by
    rw [show r.status = .sent from hsent] at h
    cases h

theorem rewrites_withResult (h : r.status = .pending) {a : String} {res new : AdapterResult}
    (hget : r.results.get a = some res) (hstep : ResultStep (busy a) res new)
    (hsent : new.status = .sent → (id, a) ∈ g.reported) :
    Rewrites g busy id r (r.withResult a new) where
  same_id := rfl
  results := by
    intro b old hold
    by_cases hb : b = a
    · subst hb
      rw [hold] at hget
      cases hget
      exact ⟨new, by rw [DeliveryRecord.get_withResult, hold, Option.map_some, if_pos rfl], hstep⟩
    · exact ⟨old, by rw [DeliveryRecord.get_withResult, hold, Option.map_some, if_neg hb],
        .refl _ old⟩
  sent := by
    intro b res' hget' hs
    rw [DeliveryRecord.get_withResult] at hget'
    obtain ⟨old, hold, hnew⟩ := Option.map_eq_some_iff.mp hget'
    by_cases hb : b = a
    · subst hb
      rw [if_pos rfl] at hnew
      subst hnew
      exact Or.inr (hsent hs)
    · rw [if_neg hb] at hnew
      subst hnew
      exact Or.inl hold
  sent_all := fun hs => by
    rw [show r.status = .sent from hs] at h
    cases h

theorem rewrites_finalized : Rewrites g busy id r r.finalized where
  same_id := rfl
  results := fun _ res hget => ⟨res, hget, .refl _ res⟩
  sent := fun _ _ hget _ => Or.inl hget
  sent_all := DeliveryRecord.finalized_sent

end

/-! ## What a step may change -/

/-- What happens to the records over a step; `busy` are the attempts in flight. -/
structure Evolves (busy : String → String → Prop) (g g' : Shared) : Prop where
  /-- A record that is sent or failed stays as it is. -/
  final : ∀ id r, g.store.get id = some r → r.status ≠ .pending → g'.store.get id = some r
  results : ∀ id r a res, g.store.get id = some r → r.results.get a = some res →
    ∃ r' res', g'.store.get id = some r' ∧ r'.results.get a = some res' ∧
      ResultStep (busy id a) res res'

theorem Evolves.of_store_eq {busy : String → String → Prop} {g g' : Shared}
    (h : g'.store = g.store) : Evolves busy g g' where
  final := fun id r hget _ => by rw [h]; exact hget
  results := fun id r a res hget hres => ⟨r, res, by rw [h]; exact hget, hres, .refl _ res⟩

theorem Evolves.mono {busy busy' : String → String → Prop} {g g' : Shared}
    (h : Evolves busy g g') (himp : ∀ id a, busy id a → busy' id a) : Evolves busy' g g' where
  final := h.final
  results := by
    intro id r a res hget hres
    obtain ⟨r', res', hget', hres', hstep⟩ := h.results id r a res hget hres
    refine ⟨r', res', hget', hres', ?_⟩
    unfold ResultStep at hstep ⊢
    split
    · trivial
    · rename_i hd
      simp only [hd] at hstep
      exact hstep.imp_right fun h => h.imp_right fun h => ⟨himp id a h.1, h.2⟩
    · rename_i hp hd
      split at hstep
      · exact absurd ‹_› hp
      · exact absurd ‹_› hd
      · exact hstep

/-- Nothing about the record has changed. -/
def SameRecord (id : String) (g g' : Shared) : Prop :=
  g'.store.get id = g.store.get id ∧
    ∀ a, ((id, a) ∈ g'.handed ↔ (id, a) ∈ g.handed) ∧
      ((id, a) ∈ g'.reported ↔ (id, a) ∈ g.reported)

/-- What a step of a loop that knows its place leaves. -/
structure Moved (p : Phase) (g : Shared) (r : Phase × Shared) : Prop where
  sound : Sound r.2
  knows : Knows r.2 r.1
  held : r.1.held = none ∨ r.1.held = p.held
  flight : ∀ id a, r.1.inFlight id a → p.inFlight id a ∨ g.Result id a .pending
  handed : ∀ id a, (id, a) ∈ r.2.handed → (id, a) ∈ g.handed ∨ p.inFlight id a
  evolves : Evolves p.inFlight g r.2
  frame : ∀ id, p.held ≠ some id → SameRecord id g r.2

theorem moved_stay {p p' : Phase} {g : Shared} (hsound : Sound g) (hknows : Knows g p')
    (hheld : p'.held = none ∨ p'.held = p.held)
    (hflight : ∀ id a, p'.inFlight id a → p.inFlight id a ∨ g.Result id a .pending) :
    Moved p g (p', g) where
  sound := hsound
  knows := hknows
  held := hheld
  flight := hflight
  handed := fun _ _ h => Or.inl h
  evolves := .of_store_eq rfl
  frame := fun _ _ => ⟨rfl, fun _ => ⟨Iff.rfl, Iff.rfl⟩⟩

theorem moved_idle {p : Phase} {g : Shared} (hsound : Sound g) : Moved p g (.idle, g) :=
  moved_stay hsound trivial (Or.inl rfl) fun _ _ h => h.elim

namespace Shared

variable {g : Shared} {id : String} {r r' : DeliveryRecord}

/-- The shared state after a record has been saved. -/
def saved (g : Shared) (r : DeliveryRecord) : Shared := { g with store := g.store.save r }

theorem get_saved_self (hget : g.store.get id = some r) (hid : r'.id = r.id) :
    (g.saved r').store.get id = some r' := by
  have hrid : r.id = id := g.store.named id r hget
  show (g.store.save r').get id = some r'
  rw [DeliveryRecords.get_save, if_pos (by rw [hid, hrid])]

theorem get_saved_ne (hget : g.store.get id = some r) (hid : r'.id = r.id) {i : String}
    (hi : i ≠ id) : (g.saved r').store.get i = g.store.get i := by
  have hrid : r.id = id := g.store.named id r hget
  show (g.store.save r').get i = g.store.get i
  rw [DeliveryRecords.get_save, if_neg (by rw [hid, hrid]; exact hi)]

end Shared

/-- **Saving a record** keeps the store sound, when the record was pending and was rewritten as the
    transactions rewrite it. -/
theorem sound_saved {g : Shared} (hsound : Sound g) {busy : String → Prop} {id : String}
    {r r' : DeliveryRecord} (hget : g.store.get id = some r) (hrw : Rewrites g busy id r r') :
    Sound (g.saved r') := by
  have hself := Shared.get_saved_self hget hrw.same_id
  have hne : ∀ i, i ≠ id → (g.saved r').store.get i = g.store.get i := fun i hi =>
    Shared.get_saved_ne hget hrw.same_id hi
  refine ⟨hsound.once, fun i a hmem => ?_, fun i a hres => ?_, fun i r₁ hr₁ hsent => ?_⟩
  · obtain ⟨status, hstatus, r₀, res, hr₀, hres, rfl⟩ := hsound.started i a hmem
    by_cases hi : i = id
    · subst hi
      rw [hget] at hr₀
      cases hr₀
      obtain ⟨res', hres', hstep⟩ := hrw.results a res hres
      exact ⟨res'.status, hstep.ne_pending hstatus, r', res', hself, hres', rfl⟩
    · exact ⟨res.status, hstatus, r₀, res, (hne i hi).trans hr₀, hres, rfl⟩
  · obtain ⟨r₁, res, hr₁, hres, hstatus⟩ := hres
    by_cases hi : i = id
    · subst hi
      rw [hself] at hr₁
      cases hr₁
      rcases hrw.sent a res hres hstatus with hold | hrep
      · exact hsound.sent_reported i a ⟨r, res, hget, hold, hstatus⟩
      · exact hrep
    · rw [hne i hi] at hr₁
      exact hsound.sent_reported i a ⟨r₁, res, hr₁, hres, hstatus⟩
  · by_cases hi : i = id
    · subst hi
      rw [hself] at hr₁
      cases hr₁
      obtain ⟨hplan, hall⟩ := hrw.sent_all hsent
      refine ⟨hplan, fun a ha => ?_⟩
      obtain ⟨res, hres, hstatus⟩ := hall a ha
      exact ⟨r', res, hself, hres, hstatus⟩
    · rw [hne i hi] at hr₁
      obtain ⟨hplan, hall⟩ := hsound.sent_all i r₁ hr₁ hsent
      refine ⟨hplan, fun a ha => ?_⟩
      obtain ⟨r₂, res, hr₂, hres, hstatus⟩ := hall a ha
      exact ⟨r₂, res, (hne i hi).trans hr₂, hres, hstatus⟩

theorem evolves_saved {g : Shared} {busy : String → String → Prop} {id : String}
    {r r' : DeliveryRecord} (hget : g.store.get id = some r) (hopen : r.status = .pending)
    (hrw : Rewrites g (busy id) id r r') : Evolves busy g (g.saved r') := by
  have hself := Shared.get_saved_self hget hrw.same_id
  refine ⟨fun i r₁ hr₁ hfinal => ?_, fun i r₁ a res hr₁ hres => ?_⟩
  · by_cases hi : i = id
    · subst hi
      rw [hget] at hr₁
      cases hr₁
      exact absurd hopen hfinal
    · rw [Shared.get_saved_ne hget hrw.same_id hi]
      exact hr₁
  · by_cases hi : i = id
    · subst hi
      rw [hget] at hr₁
      cases hr₁
      obtain ⟨res', hres', hstep⟩ := hrw.results a res hres
      exact ⟨r', res', hself, hres', hstep⟩
    · refine ⟨r₁, res, ?_, hres, .refl _ res⟩
      rw [Shared.get_saved_ne hget hrw.same_id hi]
      exact hr₁

theorem moved_transact {p after : Phase} {g : Shared} (hsound : Sound g) {id : String}
    {f : DeliveryRecord → Option DeliveryRecord} (hheld : p.held = some id) (hopen : g.Open id)
    (hrw : ∀ r r', g.store.get id = some r → r.status = .pending → f r = some r' →
      Rewrites g (p.inFlight id) id r r' ∧ Knows (g.saved r') after)
    (hafter : after.held = none ∨ after.held = p.held)
    (hflight : ∀ i a, after.inFlight i a → p.inFlight i a ∨ g.Result i a .pending) :
    Moved p g (g.transact id f after) := by
  obtain ⟨r, hget, hpending⟩ := hopen
  unfold Shared.transact DeliveryRecords.update
  cases hf : f r with
  | none =>
    rw [hget, Option.bind_some, hf]
    exact moved_idle hsound
  | some r' =>
    rw [hget, Option.bind_some, hf]
    obtain ⟨hstep, hknows⟩ := hrw r r' hget hpending hf
    refine ⟨sound_saved hsound hget hstep, hknows, hafter, hflight, fun _ _ h => Or.inl h,
      evolves_saved hget hpending hstep, fun i hi => ⟨?_, fun a => ⟨Iff.rfl, Iff.rfl⟩⟩⟩
    have hne : i ≠ id := fun h => hi (h ▸ hheld)
    exact Shared.get_saved_ne hget hstep.same_id hne

/-! ## One step of a loop -/

theorem open_saved {g : Shared} {id : String} {r r' : DeliveryRecord}
    (hget : g.store.get id = some r) (hid : r'.id = r.id) (h : r'.status = .pending) :
    (g.saved r').Open id :=
  ⟨r', Shared.get_saved_self hget hid, h⟩

theorem result_unique {g : Shared} {id a : String} {x y : AdapterStatus} (hx : g.Result id a x)
    (hy : g.Result id a y) : x = y := by
  obtain ⟨r, res, hr, hres, rfl⟩ := hx
  obtain ⟨r', res', hr', hres', rfl⟩ := hy
  rw [hr] at hr'
  cases hr'
  rw [hres] at hres'
  cases hres'
  rfl

theorem prepared_status (adapters : AdapterIds) (r : DeliveryRecord) :
    (r.prepared adapters).status = r.status := by
  unfold DeliveryRecord.prepared
  split <;> rfl

theorem moved_begin {g : Shared} {id a : String} {callable rest : List String} (hsound : Sound g)
    (hknows : Knows g (.begin id callable a rest)) :
    Moved (.begin id callable a rest) g
      (g.transact id (DeliveryRecord.begun a) (.send id callable a rest)) := by
  obtain ⟨hopen, hpending⟩ := hknows
  refine moved_transact hsound rfl hopen (fun r r' hget hstatus hf => ?_) (Or.inr rfl)
    fun i b hib => ?_
  · obtain ⟨res, hres, hr'⟩ := Option.map_eq_some_iff.mp hf
    have hres_pending : res.status = .pending :=
      result_unique ⟨r, res, hget, hres, rfl⟩ hpending
    rw [if_neg (not_not.mpr hres_pending)] at hr'
    subst hr'
    have hstep : ResultStep False res res.begun := by
      unfold ResultStep
      rw [hres_pending]
      trivial
    have hself := @Shared.get_saved_self g id r (r.withResult a res.begun) hget rfl
    refine ⟨rewrites_withResult hstatus hres hstep (fun h => nomatch h),
      open_saved hget rfl hstatus, ⟨_, res.begun, hself, ?_, rfl⟩, fun hmem => ?_⟩
    · rw [DeliveryRecord.get_withResult, hres, Option.map_some, if_pos rfl]
    · obtain ⟨status, hne, hresult⟩ := hsound.started id a hmem
      exact hne (result_unique hresult hpending)
  · obtain ⟨rfl, rfl⟩ := hib
    exact Or.inr hpending

/-- The result of the attempt is saved; the success it tells of has been reported. -/
theorem moved_finish {g : Shared} {id a now : String} {callable rest : List String}
    {success : Bool} (hsound : Sound g) (hknows : Knows g (.finish id callable a rest success)) :
    Moved (.finish id callable a rest success) g
      (g.transact id (DeliveryRecord.finished a success now) (.next id callable rest)) := by
  obtain ⟨hopen, hdelivering, hreported⟩ := hknows
  refine moved_transact hsound rfl hopen (fun r r' hget hstatus hf => ?_) (Or.inr rfl)
    fun _ _ h => h.elim
  obtain ⟨res, hres, rfl⟩ := Option.map_eq_some_iff.mp hf
  have hres_delivering : res.status = .delivering :=
    result_unique ⟨r, res, hget, hres, rfl⟩ hdelivering
  have hstep : ResultStep ((Phase.finish id callable a rest success).inFlight id a) res
      (res.finished success now) := by
    unfold ResultStep
    rw [hres_delivering]
    refine Or.inr (Or.inr ⟨⟨rfl, rfl⟩, ?_⟩)
    rw [AdapterResult.finished_status]
    cases success <;> rfl
  refine ⟨rewrites_withResult hstatus hres hstep fun hsent => ?_, open_saved hget rfl hstatus⟩
  apply hreported
  rw [AdapterResult.finished_status] at hsent
  cases success
  · cases hsent
  · rfl

theorem pair_ne {i id a b : String} (h : some id ≠ some i) : (i, b) ≠ (id, a) := by
  intro heq
  cases heq
  exact h rfl

theorem moved_send {g : Shared} {id a : String} {callable rest : List String} (hsound : Sound g)
    (hknows : Knows g (.send id callable a rest)) :
    Moved (.send id callable a rest) g
      (.wait id callable a rest, { g with handed := g.handed ++ [(id, a)] }) := by
  obtain ⟨hopen, hdelivering, hfresh⟩ := hknows
  refine ⟨⟨?_, fun i b hmem => ?_, hsound.sent_reported, hsound.sent_all⟩,
    ⟨hopen, hdelivering⟩, Or.inr rfl, fun i b h => Or.inl h, fun i b hmem => ?_,
    .of_store_eq rfl, fun i hi => ⟨rfl, fun b => ⟨?_, Iff.rfl⟩⟩⟩
  · exact List.nodup_append'.mpr ⟨hsound.once, List.nodup_singleton _,
      fun x hx hx' => hfresh (List.mem_singleton.mp hx' ▸ hx)⟩
  · rcases List.mem_append.mp hmem with hold | hnew
    · exact hsound.started i b hold
    · obtain ⟨rfl, rfl⟩ := Prod.mk.injEq .. ▸ List.mem_singleton.mp hnew
      exact ⟨.delivering, by decide, hdelivering⟩
  · rcases List.mem_append.mp hmem with hold | hnew
    · exact Or.inl hold
    · obtain ⟨rfl, rfl⟩ := Prod.mk.injEq .. ▸ List.mem_singleton.mp hnew
      exact Or.inr ⟨rfl, rfl⟩
  · simp [pair_ne hi]

theorem moved_wait {g : Shared} {id a : String} {callable rest : List String} {success : Bool}
    (hsound : Sound g) (hknows : Knows g (.wait id callable a rest)) :
    Moved (.wait id callable a rest) g (.finish id callable a rest success,
      if success then { g with reported := g.reported ++ [(id, a)] } else g) := by
  obtain ⟨hopen, hdelivering⟩ := hknows
  cases success with
  | false =>
    exact moved_stay hsound ⟨hopen, hdelivering, fun h => nomatch h⟩ (Or.inr rfl)
      fun i b h => Or.inl h
  | true =>
    refine ⟨⟨hsound.once, hsound.started, fun i b h => ?_, hsound.sent_all⟩,
      ⟨hopen, hdelivering, fun _ => ?_⟩, Or.inr rfl, fun i b h => Or.inl h,
      fun i b h => Or.inl h, .of_store_eq rfl, fun i hi => ⟨rfl, fun b => ⟨Iff.rfl, ?_⟩⟩⟩
    · exact List.mem_append_left _ (hsound.sent_reported i b h)
    · exact List.mem_append_right _ List.mem_cons_self
    · show (i, b) ∈ g.reported ++ [(id, a)] ↔ _
      simp [pair_ne hi]

/-- **Every step of a loop** that knows its place keeps the store sound, and leaves the loop knowing
    its new place. -/
theorem moved (env : Env) {p : Phase} {g : Shared} (hsound : Sound g) (hknows : Knows g p) :
    Moved p g (move env p g) := by
  cases p with
  | idle => exact moved_idle hsound
  | check id adapters =>
    rw [move]
    cases hget : g.store.get id with
    | none => exact moved_idle hsound
    | some r =>
      by_cases hstatus : r.status = .pending
      · have hgo : (if r.status ≠ .pending then Phase.idle else .prepare id adapters) =
            .prepare id adapters := if_neg (not_not.mpr hstatus)
        simp only [hgo]
        exact moved_stay hsound ⟨r, hget, hstatus⟩ (Or.inr rfl) fun _ _ h => h.elim
      · have hleave : (if r.status ≠ .pending then Phase.idle else .prepare id adapters) =
            .idle := if_pos hstatus
        simp only [hleave]
        exact moved_idle hsound
  | prepare id adapters =>
    refine moved_transact hsound rfl hknows (fun r r' hget hstatus hf => ?_) (Or.inr rfl)
      fun _ _ h => h.elim
    cases hf
    have hrw : Rewrites g ((Phase.prepare id adapters).inFlight id) id r _ :=
      rewrites_prepared hstatus adapters
    exact ⟨hrw, open_saved hget hrw.same_id ((prepared_status adapters r).trans hstatus)⟩
  | recover id adapters =>
    rw [move]
    cases hread : g.store.get id with
    | none => exact moved_idle hsound
    | some r₀ =>
      refine moved_transact hsound rfl hknows (fun r r' hget hstatus hf => ?_) (Or.inr rfl)
        fun _ _ h => h.elim
      cases hf
      exact ⟨rewrites_recovered hstatus, open_saved hget rfl hstatus⟩
  | item id adapters required =>
    exact moved_stay hsound hknows (Or.inr rfl) fun _ _ h => h.elim
  | next id callable rest =>
    cases rest with
    | nil => exact moved_stay hsound hknows (Or.inr rfl) fun _ _ h => h.elim
    | cons a rest =>
      rw [move]
      cases hread : (g.store.get id).bind fun r => r.results.get a with
      | none => exact moved_idle hsound
      | some res =>
        obtain ⟨r, hget, hres⟩ := Option.bind_eq_some_iff.mp hread
        by_cases hstatus : res.status = .pending
        · have hgo : (if res.status ≠ .pending then Phase.next id callable rest
              else .begin id callable a rest) = .begin id callable a rest :=
            if_neg (not_not.mpr hstatus)
          simp only [hgo]
          exact moved_stay hsound ⟨hknows, r, res, hget, hres, hstatus⟩ (Or.inr rfl)
            fun _ _ h => h.elim
        · have hskip : (if res.status ≠ .pending then Phase.next id callable rest
              else .begin id callable a rest) = .next id callable rest := if_pos hstatus
          simp only [hskip]
          exact moved_stay hsound hknows (Or.inr rfl) fun _ _ h => h.elim
  | begin id callable a rest => exact moved_begin hsound hknows
  | send id callable a rest =>
    rw [move]
    split
    · exact moved_send hsound hknows
    · obtain ⟨hopen, hdelivering, -⟩ := hknows
      exact moved_stay hsound ⟨hopen, hdelivering, fun h => nomatch h⟩ (Or.inr rfl)
        fun i b h => Or.inl h
  | wait id callable a rest => exact moved_wait hsound hknows
  | finish id callable a rest success => exact moved_finish hsound hknows
  | finalize id =>
    refine moved_transact hsound rfl hknows (fun r r' hget hstatus hf => ?_) (Or.inl rfl)
      fun _ _ h => h.elim
    cases hf
    exact ⟨rewrites_finalized, trivial⟩

/-! ## What lasts while others move -/

theorem knows_frame {g g' : Shared} {p : Phase}
    (hsame : ∀ id, p.held = some id → SameRecord id g g') (h : Knows g p) : Knows g' p := by
  have hopen : ∀ id, p.held = some id → g.Open id → g'.Open id := by
    rintro id hid ⟨r, hget, hstatus⟩
    exact ⟨r, (hsame id hid).1.trans hget, hstatus⟩
  have hresult : ∀ id a status, p.held = some id → g.Result id a status →
      g'.Result id a status := by
    rintro id a status hid ⟨r, res, hget, hres, hstatus⟩
    exact ⟨r, res, (hsame id hid).1.trans hget, hres, hstatus⟩
  cases p with
  | idle => trivial
  | check id adapters => trivial
  | prepare id adapters => exact hopen id rfl h
  | recover id adapters => exact hopen id rfl h
  | item id adapters required => exact hopen id rfl h
  | next id callable rest => exact hopen id rfl h
  | begin id callable a rest => exact ⟨hopen id rfl h.1, hresult id a _ rfl h.2⟩
  | send id callable a rest =>
    refine ⟨hopen id rfl h.1, hresult id a _ rfl h.2.1, fun hmem => h.2.2 ?_⟩
    exact ((hsame id rfl).2 a).1.mp hmem
  | wait id callable a rest => exact ⟨hopen id rfl h.1, hresult id a _ rfl h.2⟩
  | finish id callable a rest success =>
    refine ⟨hopen id rfl h.1, hresult id a _ rfl h.2.1, fun hs => ?_⟩
    exact ((hsame id rfl).2 a).2.mpr (h.2.2 hs)
  | finalize id => exact hopen id rfl h

/-- A request leaves every record that is there as it is; the record it adds has no results. -/
theorem request_cases {s s' : DeliveryRecords} {itemId : String}
    (h : s.request itemId = some s') :
    s' = s ∨ ∃ hne, s.get ("delivery-" ++ itemId) = none ∧
      s' = s.save (.requested itemId hne) := by
  unfold DeliveryRecords.request at h
  split at h
  · rename_i hne
    split at h
    · cases h
      exact Or.inl rfl
    · rename_i hnone
      cases h
      exact Or.inr ⟨hne, Option.not_isSome_iff_eq_none.mp hnone, rfl⟩
  · cases h

end NuSelf.Delivery
