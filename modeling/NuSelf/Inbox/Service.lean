/-
  The inbox service on the records that are stored, decodable or not.

  Items are stored under their ids and told apart by their idempotency keys.  `add` looks for its
  key among the records that decode, and writes under its id without looking what is there.

  Every call is one transaction, which holds the lock of the backend from the first read to the
  commit: threads take turns by calls, and a transaction that fails leaves everything as it was.

  1. `keysUnique_step` — no call stores a key twice.
  2. `published_step_iff` — an `add` takes nothing away exactly when its id is free.
  3. `publishing_iff` — so do all the calls of a run.
-/
import NuSelf.Inbox.Store
import NuSelf.Lib.Json
import NuSelf.Lib.Run

namespace NuSelf.Inbox

open NuSelf.Lib

/-! ## Records -/

/-- A record of `inbox_items`: an item, or a wire value that does not decode. -/
inductive InboxRecord where
  | item (stored : InboxItem)
  | undecodable (wire : Json)
  deriving DecidableEq

/-- `decode_observed_record`. -/
def InboxRecord.decode : InboxRecord → Option InboxItem
  | .item stored => some stored
  | .undecodable _ => none

/-- The records under their ids; an item is stored under its own. -/
structure InboxRecords where
  table : Table String InboxRecord
  keyed : ∀ id item, table.get id = some (.item item) → item.id = id

inductive InboxError where
  /-- `InboxItemNotFound`. -/
  | notFound (item_id : String)
  /-- `from_wire` raises. -/
  | undecodable (wire : Json)

/-- `InboxClearStatus`. -/
inductive ClearStatus where
  | dismissed | resolved | allTerminal
  deriving DecidableEq

def ClearStatus.selected : ClearStatus → List InboxStatus
  | .dismissed => [.dismissed]
  | .resolved => [.resolved]
  | .allTerminal => [.dismissed, .resolved]

namespace InboxRecords

def empty : InboxRecords := ⟨Table.empty, fun _ _ h => nomatch h⟩

/-- The item is stored. -/
def Stores (records : InboxRecords) (item : InboxItem) : Prop :=
  records.table.get item.id = some (.item item)

/-- `self._collection.put(item.id, item.to_wire())`. -/
def put (records : InboxRecords) (item : InboxItem) : InboxRecords where
  table := records.table.set item.id (.item item)
  keyed := by
    intro id other h
    rw [Table.get_set] at h
    split at h
    · rename_i hid
      cases h
      exact hid.symm
    · exact records.keyed id other h

/-- `self._collection.delete(item_id)`. -/
def delete (records : InboxRecords) (item_id : String) : InboxRecords where
  table := records.table.erase item_id
  keyed := by
    intro id other h
    rw [Table.get_erase] at h
    split at h
    · cases h
    · exact records.keyed id other h

/-- `list`: the records that decode. -/
def list (records : InboxRecords) : List InboxItem :=
  records.table.rows.filterMap fun row => row.2.decode

def get (records : InboxRecords) (item_id : String) : Except InboxError InboxItem :=
  match records.table.get item_id with
  | none => .error (.notFound item_id)
  | some (.undecodable wire) => .error (.undecodable wire)
  | some (.item item) => .ok item

/-- The item that `add` looks for. -/
def existing (records : InboxRecords) (idempotency_key : String) : Option InboxItem :=
  records.list.find? fun candidate => candidate.idempotency_key = idempotency_key

/-- `add`: the records afterwards, and the item it returns. -/
def add (records : InboxRecords) (item : InboxItem) : InboxRecords × InboxItem :=
  match records.existing item.idempotency_key with
  | some existing => (records, existing)
  | none => (records.put item, item)

def transition (records : InboxRecords) (item_id : String) (status : InboxStatus) (now : String) :
    Except InboxError (InboxRecords × InboxItem) := do
  let item ← records.get item_id
  let updated := { item with status, updated_at := now }
  return (records.put updated, updated)

/-- The items that `clear` deletes. -/
def selected (records : InboxRecords) (status : ClearStatus) : List InboxItem :=
  records.list.filter fun item => decide (item.status ∈ status.selected)

/-- `clear`: the records afterwards, and how many it has removed. -/
def clear (records : InboxRecords) (status : ClearStatus) : InboxRecords × Nat :=
  ((records.selected status).foldl (fun records item => records.delete item.id) records,
    (records.selected status).length)

/-! ## Calls -/

end InboxRecords

inductive InboxCall where
  | add (item : InboxItem)
  | markRead (item_id : String)
  | dismiss (item_id : String)
  | resolve (item_id : String)
  | clear (status : ClearStatus)

structure InboxInput where
  call : InboxCall
  /-- `utc_now_iso()`. -/
  now : String
  /-- The transaction is rolled back, and the call raises. -/
  fails : Bool

inductive InboxReply where
  | item (answer : InboxItem)
  | removed (count : Nat)
  | raised
  deriving DecidableEq

namespace InboxRecords

/-- The reply of a transition that is tried. -/
def answer (records : InboxRecords) :
    Except InboxError (InboxRecords × InboxItem) → InboxRecords × InboxReply
  | .ok (updated, item) => (updated, .item item)
  | .error _ => (records, .raised)

/-- What a call does when its transaction is committed. -/
def perform (records : InboxRecords) (now : String) : InboxCall → InboxRecords × InboxReply
  | .add item => ((records.add item).1, .item (records.add item).2)
  | .markRead item_id => records.answer (records.transition item_id .read now)
  | .dismiss item_id => records.answer (records.transition item_id .dismissed now)
  | .resolve item_id => records.answer (records.transition item_id .resolved now)
  | .clear status => ((records.clear status).1, .removed (records.clear status).2)

def step (records : InboxRecords) (i : InboxInput) : InboxRecords × InboxReply :=
  if i.fails then (records, .raised) else records.perform i.now i.call

end InboxRecords

/-! ## What is promised -/

namespace InboxRecords

/-- No key twice. -/
def KeysUnique (records : InboxRecords) : Prop :=
  ∀ a b, records.Stores a → records.Stores b → a.idempotency_key = b.idempotency_key → a = b

/-- Publishing is idempotent, and takes nothing away. -/
structure Published (e : Step InboxRecords InboxInput InboxReply) : Prop where
  unique : e.after.KeysUnique
  /-- An item whose key is there already changes nothing. -/
  idempotent : ∀ item stored, e.input.call = .add item → e.before.Stores stored →
    stored.idempotency_key = item.idempotency_key →
      e.after = e.before ∧ (e.input.fails = false → e.output = .item stored)
  /-- Another item, or a record that does not decode, stays as it is. -/
  keeps : ∀ item id record, e.input.call = .add item → e.before.table.get id = some record →
    (∀ stored, record = .item stored → stored.idempotency_key ≠ item.idempotency_key) →
      e.after.table.get id = some record

/-- A new key comes with an id under which nothing is stored. -/
def IdFree (records : InboxRecords) (i : InboxInput) : Prop :=
  ∀ item, i.call = .add item → i.fails = false →
    (∀ stored, records.Stores stored → stored.idempotency_key ≠ item.idempotency_key) →
      records.table.get item.id = none

/-! ## One call -/

variable {records : InboxRecords} {item : InboxItem}

theorem mem_list_iff : item ∈ records.list ↔ records.Stores item := by
  rw [list, List.mem_filterMap]
  constructor
  · rintro ⟨⟨id, record⟩, hrow, hdecode⟩
    cases record with
    | undecodable wire => cases hdecode
    | item stored =>
      cases hdecode
      have hget := records.table.mem_rows_iff.mp hrow
      have hid := records.keyed id _ hget
      subst hid
      exact hget
  · intro h
    exact ⟨(item.id, .item item), records.table.mem_rows_iff.mpr h, rfl⟩

theorem existing_some {key : String} (h : records.existing key = some item) :
    records.Stores item ∧ item.idempotency_key = key := by
  rw [existing] at h
  have hkey := List.find?_some h
  exact ⟨mem_list_iff.mp (List.mem_of_find?_eq_some h), of_decide_eq_true hkey⟩

theorem existing_none_iff {key : String} :
    records.existing key = none ↔ ∀ stored, records.Stores stored → stored.idempotency_key ≠ key := by
  rw [existing, List.find?_eq_none]
  constructor
  · intro h stored hstored hkey
    exact h stored (mem_list_iff.mpr hstored) (decide_eq_true hkey)
  · intro h stored hmem hkey
    exact h stored (mem_list_iff.mp hmem) (of_decide_eq_true hkey)

theorem stores_put {updated : InboxItem} :
    (records.put updated).Stores item ↔
      item = updated ∨ (item.id ≠ updated.id ∧ records.Stores item) := by
  rw [Stores, put, Table.get_set]
  by_cases hid : item.id = updated.id
  · rw [if_pos hid, Option.some.injEq, InboxRecord.item.injEq, eq_comm]
    exact ⟨Or.inl, fun h => h.resolve_right fun hother => hother.1 hid⟩
  · rw [if_neg hid]
    constructor
    · exact fun h => Or.inr ⟨hid, h⟩
    · rintro (rfl | ⟨-, h⟩)
      · exact absurd rfl hid
      · exact h

theorem KeysUnique.of_fewer {records' : InboxRecords} (h : records.KeysUnique)
    (hfewer : ∀ item, records'.Stores item → records.Stores item) : records'.KeysUnique :=
  fun a b ha hb => h a b (hfewer a ha) (hfewer b hb)

theorem KeysUnique.put {updated : InboxItem} (h : records.KeysUnique)
    (hnew : ∀ stored, records.Stores stored → stored.id ≠ updated.id →
      stored.idempotency_key ≠ updated.idempotency_key) : (records.put updated).KeysUnique := by
  intro a b ha hb hkey
  rcases stores_put.mp ha with rfl | ⟨haid, habefore⟩
  · rcases stores_put.mp hb with rfl | ⟨hbid, hbefore⟩
    · rfl
    · exact absurd hkey.symm (hnew b hbefore hbid)
  · rcases stores_put.mp hb with rfl | ⟨-, hbbefore⟩
    · exact absurd hkey (hnew a habefore haid)
    · exact h a b habefore hbbefore hkey

theorem add_keys (h : records.KeysUnique) (item : InboxItem) : (records.add item).1.KeysUnique := by
  rw [add]
  cases hfound : records.existing item.idempotency_key with
  | some stored => exact h
  | none => exact h.put fun stored hstored _ => existing_none_iff.mp hfound stored hstored

theorem get_ok {item_id : String} (h : records.get item_id = .ok item) : records.Stores item := by
  unfold get at h
  split at h
  · cases h
  · cases h
  · rename_i stored hget
    cases h
    have hid := records.keyed item_id _ hget
    rw [Stores, hid]
    exact hget

theorem transition_keys (h : records.KeysUnique) (item_id : String) (status : InboxStatus)
    (now : String) : (records.answer (records.transition item_id status now)).1.KeysUnique := by
  rw [transition]
  cases hget : records.get item_id with
  | error e => exact h
  | ok item =>
    refine h.put fun stored hstored hid hkey => hid ?_
    rw [h stored item hstored (get_ok hget) hkey]

theorem delete_fewer {item_id : String} (h : (records.delete item_id).Stores item) :
    records.Stores item := by
  rw [Stores, delete, Table.get_erase] at h
  split at h
  · cases h
  · exact h

theorem deleteAll_fewer : ∀ (items : List InboxItem) (records : InboxRecords),
    (items.foldl (fun records item => records.delete item.id) records).Stores item →
      records.Stores item
  | [], _, h => h
  | _ :: rest, _, h => delete_fewer (deleteAll_fewer rest _ h)

/-- **No call** stores a key twice. -/
theorem keysUnique_step (h : records.KeysUnique) (i : InboxInput) :
    (records.step i).1.KeysUnique := by
  obtain ⟨call, now, fails⟩ := i
  cases fails with
  | true => exact h
  | false =>
    cases call with
    | add item => exact add_keys h item
    | markRead item_id => exact transition_keys h item_id _ now
    | dismiss item_id => exact transition_keys h item_id _ now
    | resolve item_id => exact transition_keys h item_id _ now
    | clear status => exact h.of_fewer fun item hitem => deleteAll_fewer _ _ hitem

theorem step_add {i : InboxInput} (hcall : i.call = .add item) (hfails : i.fails = false) :
    records.step i = ((records.add item).1, .item (records.add item).2) := by
  rw [step, hfails, hcall]
  rfl

theorem step_fails {i : InboxInput} (hfails : i.fails = true) :
    records.step i = (records, .raised) := by
  rw [step, hfails]
  rfl

theorem add_existing {stored : InboxItem} (hunique : records.KeysUnique)
    (hstored : records.Stores stored) (hkey : stored.idempotency_key = item.idempotency_key) :
    records.add item = (records, stored) := by
  rw [add]
  cases hfound : records.existing item.idempotency_key with
  | none => exact absurd hkey (existing_none_iff.mp hfound stored hstored)
  | some found =>
    obtain ⟨hfoundstored, hfoundkey⟩ := existing_some hfound
    rw [hunique found stored hfoundstored hstored (hfoundkey.trans hkey.symm)]

theorem add_new (hnew : ∀ stored, records.Stores stored →
    stored.idempotency_key ≠ item.idempotency_key) : records.add item = (records.put item, item) := by
  rw [add, existing_none_iff.mpr hnew]

/-- **One call** takes nothing away exactly when the id of a new item is free. -/
theorem published_step_iff {e : Step InboxRecords InboxInput InboxReply} (hof : e.Of step)
    (hunique : e.before.KeysUnique) : Published e ↔ IdFree e.before e.input := by
  obtain ⟨before, i, output, after⟩ := e
  obtain rfl : (before.step i).1 = after := hof.after_eq
  obtain rfl : (before.step i).2 = output := hof.output_eq
  constructor
  · -- what was under the id is not the item, and the item is there now
    intro h item hcall hfails hnew
    by_contra hsome
    obtain ⟨record, hrecord⟩ := Option.ne_none_iff_exists'.mp hsome
    have hother : ∀ stored, record = .item stored →
        stored.idempotency_key ≠ item.idempotency_key := by
      rintro stored rfl
      have hid := before.keyed item.id stored hrecord
      exact hnew stored (by rw [Stores, hid]; exact hrecord)
    have hkept := h.keeps item item.id record hcall hrecord hother
    have hput : (before.step i).1.table.get item.id = some (.item item) := by
      rw [step_add hcall hfails, add_new hnew]
      exact before.table.get_set_self _ _
    obtain rfl : InboxRecord.item item = record := Option.some.inj (hput.symm.trans hkept)
    exact hother item rfl rfl
  · intro hfree
    refine ⟨keysUnique_step hunique i, ?_, ?_⟩
    · intro item stored hcall hstored hkey
      cases hfails : i.fails with
      | true =>
        rw [step_fails hfails]
        refine ⟨rfl, fun hcommits => ?_⟩
        cases hcommits
      | false =>
        rw [step_add hcall hfails, add_existing hunique hstored hkey]
        exact ⟨rfl, fun _ => rfl⟩
    · intro item id record hcall hrecord hother
      cases hfails : i.fails with
      | true =>
        rw [step_fails hfails]
        exact hrecord
      | false =>
        show (before.step i).1.table.get id = some record
        rw [step_add hcall hfails]
        cases hfound : before.existing item.idempotency_key with
        | some stored =>
          obtain ⟨hstored, hkey⟩ := existing_some hfound
          rw [add_existing hunique hstored hkey]
          exact hrecord
        | none =>
          have hnew := existing_none_iff.mp hfound
          have hne : id ≠ item.id := by
            rintro rfl
            rw [hfree item hcall hfails hnew] at hrecord
            cases hrecord
          rw [add_new hnew]
          exact (before.table.get_set_ne _ hne).trans hrecord

end InboxRecords

open InboxRecords

/-- **Publishing**: for all records with no key twice and every sequence of calls, by any threads,
    every call keeps the keys unique, is idempotent and takes nothing away, exactly when every item
    with a new key comes with an id under which nothing is stored. -/
theorem publishing_iff (records : InboxRecords) (hunique : records.KeysUnique)
    (calls : List InboxInput) :
    (∀ e ∈ run InboxRecords.step records calls, Published e) ↔
      ∀ e ∈ run InboxRecords.step records calls, IdFree e.before e.input := by
  refine @run_forall_iff _ _ _ _ KeysUnique _ _ (fun s i hs _ => keysUnique_step hs i) ?_ _ _ hunique
  intro e hof hs
  exact published_step_iff hof hs

/-- An item with this id and this key. -/
def noteItem (id idempotency_key : String) (hid : id ≠ "") (hkey : idempotency_key ≠ "") :
    InboxItem where
  id
  kind := "system"
  source_id := "system"
  title := "A note"
  body := ""
  idempotency_key
  created_at := "2026-01-01T12:00:00+00:00"
  updated_at := "2026-01-01T12:00:00+00:00"
  named := ⟨hid, by decide, by decide, by decide, hkey⟩

/-- The item is added at noon. -/
def addAtNoon (item : InboxItem) : InboxInput := ⟨.add item, "2026-01-01T12:00:00+00:00", false⟩

theorem keysUnique_empty : InboxRecords.empty.KeysUnique := fun _ _ ha => nomatch ha

/-- One item, added twice and read in between. -/
theorem added_twice_published :
    InboxRecords.empty.KeysUnique ∧
    ∀ e ∈ run InboxRecords.step InboxRecords.empty
        [addAtNoon (noteItem "a" "key-a" (by decide) (by decide)),
          ⟨.markRead "a", "2026-01-01T12:00:00+00:00", false⟩,
          addAtNoon (noteItem "b" "key-a" (by decide) (by decide))],
      Published e := by
  refine ⟨keysUnique_empty, (publishing_iff InboxRecords.empty keysUnique_empty _).mpr ?_⟩
  simp only [run, List.forall_mem_cons]
  refine ⟨?_, ?_, ?_, fun e he => (List.not_mem_nil he).elim⟩
  · intro item _ _ _
    rfl
  · intro item hcall
    cases hcall
  · -- the key is there, on the item that has been read
    intro item hcall _ hnew
    cases hcall
    have hread := hnew { noteItem "a" "key-a" (by decide) (by decide) with status := .read }
      (by unfold Stores; decide)
    exact absurd rfl hread

/-- **Overwritten**: an item with another key takes the place of one with the same id. -/
theorem same_id_overwritten :
    ¬ ∀ e ∈ run InboxRecords.step InboxRecords.empty
        [addAtNoon (noteItem "a" "key-a" (by decide) (by decide)),
          addAtNoon (noteItem "a" "key-b" (by decide) (by decide))],
      Published e := by
  intro h
  have hsecond := h _ (List.mem_cons_of_mem _ List.mem_cons_self)
  have hkept := hsecond.keeps (noteItem "a" "key-b" (by decide) (by decide)) "a"
    (.item (noteItem "a" "key-a" (by decide) (by decide))) rfl (by decide) ?_
  · exact absurd hkept (by decide)
  · rintro stored hstored
    cases hstored
    decide

end NuSelf.Inbox
