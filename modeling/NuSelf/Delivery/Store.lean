/-
  Delivery records and their transitions.

  A record asks for one inbox item to be presented by a fixed plan of adapters, with one result per
  adapter.  A result is `pending`, then `delivering` while the adapter has the item, then `sent` or
  `failed`; an attempt of which nobody knows the outcome becomes `uncertain`.

  1. `AdapterResult`, `DeliveryRecord`: what their constructors check is a field.
  2. The transitions of one record, as `DeliveryStore` computes them in its transactions:
     `prepared`, `recovered`, `begun`, `finished`, `finalized`.
  3. What a transition leaves: `finalized_sent` says when a record is final.
  4. `DeliveryRecords`: the store, each record under its own id.
-/
import NuSelf.Lib.Table
import NuSelf.Lib.Text

namespace NuSelf.Delivery

open NuSelf.Lib

/-! ## Results -/

inductive AdapterStatus where
  | pending | delivering | sent | failed | uncertain
  deriving DecidableEq

/-- The adapter has been tried, and nothing will be done about it any more. -/
def AdapterStatus.settled : AdapterStatus → Bool
  | .sent | .failed | .uncertain => true
  | _ => false

structure AdapterResult where
  status : AdapterStatus
  attempts : Nat
  sentAt : Option String
  sent_iff : status = .sent ↔ sentAt.isSome = true
  deriving DecidableEq

namespace AdapterResult

/-- `AdapterResult()`. -/
def new : AdapterResult := ⟨.pending, 0, none, by decide⟩

/-- `AdapterResult("delivering", result.attempts + 1)`. -/
def begun (res : AdapterResult) : AdapterResult := ⟨.delivering, res.attempts + 1, none, by simp⟩

/-- The result of `finish_adapter`. -/
def finished (success : Bool) (now : String) (res : AdapterResult) : AdapterResult :=
  if success then ⟨.sent, res.attempts, some now, by simp⟩
  else ⟨.failed, res.attempts, none, by simp⟩

/-- `replace(result, status="uncertain")` for an attempt that was in flight. -/
def recovered (res : AdapterResult) : AdapterResult :=
  if res.status = .delivering then ⟨.uncertain, res.attempts, none, by simp⟩ else res

theorem finished_status (success : Bool) (now : String) (res : AdapterResult) :
    (finished success now res).status = if success then .sent else .failed := by
  cases success <;> rfl

theorem recovered_status (res : AdapterResult) :
    res.recovered.status = if res.status = .delivering then .uncertain else res.status := by
  unfold recovered
  split <;> rfl

theorem recovered_of_ne {res : AdapterResult} (h : res.status ≠ .delivering) :
    res.recovered = res := by
  rw [recovered, if_neg h]

end AdapterResult

/-! ## Records -/

inductive DeliveryStatus where
  | pending | sent | failed
  deriving DecidableEq

structure DeliveryRecord where
  id : String
  itemId : String
  status : DeliveryStatus
  requiredAdapters : List String
  results : Table String AdapterResult
  id_ne : id ≠ ""
  item_ne : itemId ≠ ""
  adapters_named : ∀ a ∈ requiredAdapters, a ≠ ""
  adapters_nodup : requiredAdapters.Nodup
  results_cover : ∀ a, (results.get a).isSome = true ↔ a ∈ requiredAdapters

/-- The keys of `_index(adapters)`. -/
structure AdapterIds where
  ids : List String
  named : ∀ a ∈ ids, a ≠ ""
  nodup : ids.Nodup

namespace DeliveryRecord

/-- A record as `request` creates it. -/
def requested (itemId : String) (h : itemId ≠ "") : DeliveryRecord where
  id := "delivery-" ++ itemId
  itemId := itemId
  status := .pending
  requiredAdapters := []
  results := .empty
  id_ne := ne_empty_of_not_blank (not_blank_append (by decide) itemId)
  item_ne := h
  adapters_named := fun _ ha => nomatch ha
  adapters_nodup := List.nodup_nil
  results_cover := fun a => by simp

/-- A new result for every adapter. -/
def newResults (adapters : AdapterIds) : Table String AdapterResult :=
  ⟨adapters.ids.map fun a => (a, .new), by
    simpa [List.map_map, Function.comp_def] using adapters.nodup⟩

theorem get_newResults (adapters : AdapterIds) (a : String) :
    (newResults adapters).get a = if a ∈ adapters.ids then some .new else none := by
  by_cases h : a ∈ adapters.ids
  · rw [if_pos h]
    exact (Table.mem_rows_iff _).mp (List.mem_map.mpr ⟨a, h, rfl⟩)
  · rw [if_neg h, Table.get_eq_none_iff]
    intro hmem
    obtain ⟨row, hrow, hkey⟩ := List.mem_map.mp hmem
    obtain ⟨b, hb, rfl⟩ := List.mem_map.mp hrow
    exact h (hkey ▸ hb)

/-- `prepare`: the plan is chosen unless there is one. -/
def prepared (adapters : AdapterIds) (r : DeliveryRecord) : DeliveryRecord :=
  if r.requiredAdapters ≠ [] then r
  else { r with
    requiredAdapters := adapters.ids
    results := newResults adapters
    adapters_named := adapters.named
    adapters_nodup := adapters.nodup
    results_cover := fun a => by
      rw [get_newResults]
      split <;> simp_all }

/-- The record with its results rewritten, the plan unchanged. -/
def mapResults (f : String → AdapterResult → AdapterResult) (r : DeliveryRecord) :
    DeliveryRecord :=
  { r with
    results := r.results.mapRows f
    results_cover := fun a => by
      rw [Table.get_mapRows, Option.isSome_map]
      exact r.results_cover a }

/-- `recover`. -/
def recovered (r : DeliveryRecord) : DeliveryRecord := r.mapResults fun _ => .recovered

/-- Overwrite the result of one adapter of the plan. -/
def withResult (a : String) (res : AdapterResult) (r : DeliveryRecord) : DeliveryRecord :=
  r.mapResults fun b old => if b = a then res else old

/-- `begin`, where the adapter is one of the plan. -/
def begun (a : String) (r : DeliveryRecord) : Option DeliveryRecord :=
  (r.results.get a).map fun res =>
    if res.status ≠ .pending then r else r.withResult a res.begun

/-- `finish_adapter`, where the adapter is one of the plan. -/
def finished (a : String) (success : Bool) (now : String) (r : DeliveryRecord) :
    Option DeliveryRecord :=
  (r.results.get a).map fun res => r.withResult a (res.finished success now)

/-- The states of the results. -/
def states (r : DeliveryRecord) : List AdapterStatus := r.results.rows.map fun row => row.2.status

/-- `finalize`. -/
def finalized (r : DeliveryRecord) : DeliveryRecord :=
  { r with
    status :=
      if r.states = [] ∨ ∃ x ∈ r.states, x = .pending ∨ x = .delivering then .pending
      else if ∀ x ∈ r.states, x = .sent then .sent
      else .failed }

/-! ### The results after a transition -/

theorem get_withResult (a b : String) (res : AdapterResult) (r : DeliveryRecord) :
    (r.withResult a res).results.get b =
      (r.results.get b).map fun old => if b = a then res else old :=
  Table.get_mapRows _ _ _

theorem get_recovered (a : String) (r : DeliveryRecord) :
    r.recovered.results.get a = (r.results.get a).map .recovered :=
  Table.get_mapRows _ _ _

theorem mem_states {r : DeliveryRecord} {x : AdapterStatus} :
    x ∈ r.states ↔ ∃ a res, r.results.get a = some res ∧ res.status = x := by
  rw [states, List.mem_map]
  constructor
  · rintro ⟨⟨a, res⟩, hrow, rfl⟩
    exact ⟨a, res, (Table.mem_rows_iff _).mp hrow, rfl⟩
  · rintro ⟨a, res, hget, rfl⟩
    exact ⟨(a, res), (Table.mem_rows_iff _).mpr hget, rfl⟩

theorem result_of_mem {r : DeliveryRecord} {a : String} (h : a ∈ r.requiredAdapters) :
    ∃ res, r.results.get a = some res :=
  Option.isSome_iff_exists.mp ((r.results_cover a).mpr h)

theorem mem_of_result {r : DeliveryRecord} {a : String} {res : AdapterResult}
    (h : r.results.get a = some res) : a ∈ r.requiredAdapters :=
  (r.results_cover a).mp (by rw [h]; rfl)

/-- **A record is `sent` only when every result is**, and there is one. -/
theorem finalized_sent {r : DeliveryRecord} (h : r.finalized.status = .sent) :
    r.requiredAdapters ≠ [] ∧
      ∀ a ∈ r.requiredAdapters, ∃ res, r.results.get a = some res ∧ res.status = .sent := by
  unfold finalized at h
  dsimp only at h
  split at h
  · cases h
  · rename_i hopen
    split at h
    · rename_i hall
      constructor
      · intro hnil
        apply hopen
        left
        apply List.eq_nil_iff_forall_not_mem.mpr
        intro x hx
        obtain ⟨a, res, hget, -⟩ := mem_states.mp hx
        have hmem := mem_of_result hget
        rw [hnil] at hmem
        cases hmem
      · intro a ha
        obtain ⟨res, hget⟩ := result_of_mem ha
        exact ⟨res, hget, hall _ (mem_states.mpr ⟨a, res, hget, rfl⟩)⟩
    · cases h

end DeliveryRecord

/-! ## The store -/

/-- `validate_storage_key`, which `lock` asks for. -/
def validStorageKey (key : String) : Bool :=
  !(key == "" || key == "." || key == ".." || key.toList.elem '\x00' || key.toList.elem '/' ||
    key.toList.elem '\\')

/-- The `delivery_records` collection. -/
structure DeliveryRecords where
  rows : Table String DeliveryRecord
  named : ∀ id r, rows.get id = some r → r.id = id

namespace DeliveryRecords

def empty : DeliveryRecords := ⟨.empty, fun _ _ h => nomatch h⟩

def save (s : DeliveryRecords) (r : DeliveryRecord) : DeliveryRecords where
  rows := s.rows.set r.id r
  named := by
    intro id r' h
    rw [Table.get_set] at h
    split at h
    · rename_i hid
      cases h
      exact hid.symm
    · exact s.named id r' h

def get (s : DeliveryRecords) (id : String) : Option DeliveryRecord := s.rows.get id

@[simp] theorem get_save (s : DeliveryRecords) (r : DeliveryRecord) (id : String) :
    (s.save r).get id = if id = r.id then some r else s.get id :=
  Table.get_set _ _ _ _

/-- One transaction on a record: it is read, rewritten and saved.  Nothing is saved where the code
    raises a `KeyError`. -/
def update (s : DeliveryRecords) (id : String) (f : DeliveryRecord → Option DeliveryRecord) :
    Option DeliveryRecords :=
  (s.get id).bind fun r => (f r).map s.save

def request (s : DeliveryRecords) (itemId : String) : Option DeliveryRecords :=
  if h : itemId ≠ "" then
    if (s.get ("delivery-" ++ itemId)).isSome then some s
    else some (s.save (.requested itemId h))
  else none

end DeliveryRecords

end NuSelf.Delivery
