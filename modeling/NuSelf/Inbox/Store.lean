/-
  The inbox: durable items that ask for the user's attention.

  An item carries an idempotency key.  `add` runs in one transaction: it looks for an item with the
  key and stores the new one only where there is none.  So the number of items with a key is never
  raised above one by `add` (`add_keysUnique`); an item that is stored stays, provided the new one
  does not take its id under another key (`Fits`).
-/
import NuSelf.Lib.Shelf

namespace NuSelf.Inbox

open NuSelf.Lib

inductive InboxStatus where
  | pending | read | dismissed | resolved
  deriving DecidableEq

/-- `InboxItem`; what its constructor checks is a field. -/
structure InboxItem where
  id : String
  kind : String
  source_id : String
  title : String
  body : String
  status : InboxStatus := .pending
  idempotency_key : String
  deep_link : Option String := none
  created_at : String
  updated_at : String
  named : id ≠ "" ∧ kind ≠ "" ∧ source_id ≠ "" ∧ title ≠ "" ∧ idempotency_key ≠ ""
  deriving DecidableEq

abbrev InboxItems := Shelf InboxItem.id fun _ => true

namespace InboxItems

/-- The item that `add` looks for. -/
def withKey (items : InboxItems) (idempotency_key : String) : Option InboxItem :=
  items.records.find? fun candidate => candidate.idempotency_key = idempotency_key

/-- `InboxService.add`: the items afterwards, and the item it returns. -/
def add (items : InboxItems) (item : InboxItem) : InboxItems × InboxItem :=
  match items.withKey item.idempotency_key with
  | some existing => (items, existing)
  | none => (items.put item rfl, item)

theorem withKey_some {items : InboxItems} {key : String} {item : InboxItem}
    (h : items.withKey key = some item) :
    items.get item.id = some item ∧ item.idempotency_key = key := by
  have hmem := List.mem_of_find?_eq_some h
  have hkey := List.find?_some h
  rw [decide_eq_true_eq] at hkey
  exact ⟨items.mem_records_iff.mp hmem, hkey⟩

theorem withKey_none_iff {items : InboxItems} {key : String} :
    items.withKey key = none ↔ ∀ id item, items.get id = some item → item.idempotency_key ≠ key := by
  rw [withKey, List.find?_eq_none]
  constructor
  · intro h id item hget hkey
    have hid := items.key_of_get hget
    subst hid
    exact h item (items.mem_records_iff.mpr hget) (decide_eq_true hkey)
  · intro h item hmem hkey
    rw [decide_eq_true_eq] at hkey
    exact h item.id item (items.mem_records_iff.mp hmem) hkey

/-! ## One item for each key -/

/-- Some item has the key. -/
def Holds (items : InboxItems) (key : String) : Prop :=
  ∃ id item, items.get id = some item ∧ item.idempotency_key = key

/-- Exactly one item has the key. -/
def HoldsOne (items : InboxItems) (key : String) : Prop :=
  ∃! item : InboxItem, items.get item.id = some item ∧ item.idempotency_key = key

/-- No key twice. -/
def KeysUnique (items : InboxItems) : Prop :=
  ∀ a b : InboxItem, items.get a.id = some a → items.get b.id = some b →
    a.idempotency_key = b.idempotency_key → a = b

theorem holdsOne_iff {items : InboxItems} {key : String} (h : items.KeysUnique) :
    items.HoldsOne key ↔ items.Holds key := by
  constructor
  · rintro ⟨item, hitem, -⟩
    exact ⟨item.id, item, hitem⟩
  · rintro ⟨id, item, hget, hkey⟩
    have hid := items.key_of_get hget
    subst hid
    refine ⟨item, ⟨hget, hkey⟩, ?_⟩
    rintro other ⟨hother, hotherkey⟩
    exact h other item hother hget (hotherkey.trans hkey.symm)

theorem keysUnique_empty : KeysUnique Shelf.empty := by
  intro a b ha
  cases ha

/-- An item stored under the id of this one has its key. -/
def Fits (items : InboxItems) (item : InboxItem) : Prop :=
  ∀ other, items.get item.id = some other → other.idempotency_key = item.idempotency_key

section Add

variable {items : InboxItems} {item : InboxItem}

theorem add_of_holds (h : items.Holds item.idempotency_key) : (items.add item).1 = items := by
  rw [add]
  cases hwith : items.withKey item.idempotency_key with
  | some existing => rfl
  | none =>
    obtain ⟨id, found, hget, hkey⟩ := h
    exact absurd hkey (withKey_none_iff.mp hwith id found hget)

theorem add_of_not_holds (h : ¬ items.Holds item.idempotency_key) :
    (items.add item).1 = items.put item rfl := by
  rw [add]
  cases hwith : items.withKey item.idempotency_key with
  | some existing =>
    obtain ⟨hget, hkey⟩ := withKey_some hwith
    exact absurd ⟨_, existing, hget, hkey⟩ h
  | none => rfl

theorem add_get (hfits : items.Fits item) {id : String} {found : InboxItem}
    (hget : items.get id = some found) : (items.add item).1.get id = some found := by
  by_cases h : items.Holds item.idempotency_key
  · rw [add_of_holds h]
    exact hget
  · rw [add_of_not_holds h, Shelf.get_put, if_neg]
    · exact hget
    · rintro rfl
      exact h ⟨_, found, hget, hfits found hget⟩

/-- **The keys after `add`**: those before, and that of the item. -/
theorem add_holds_iff (hfits : items.Fits item) (key : String) :
    (items.add item).1.Holds key ↔ items.Holds key ∨ key = item.idempotency_key := by
  constructor
  · rintro ⟨id, found, hget, hkey⟩
    by_cases h : items.Holds item.idempotency_key
    · rw [add_of_holds h] at hget
      exact Or.inl ⟨id, found, hget, hkey⟩
    · rw [add_of_not_holds h, Shelf.get_put] at hget
      split at hget
      · cases hget
        exact Or.inr hkey.symm
      · exact Or.inl ⟨id, found, hget, hkey⟩
  · rintro (⟨id, found, hget, hkey⟩ | rfl)
    · exact ⟨id, found, add_get hfits hget, hkey⟩
    · by_cases h : items.Holds item.idempotency_key
      · rw [add_of_holds h]
        exact h
      · rw [add_of_not_holds h]
        exact ⟨item.id, item, by rw [Shelf.get_put, if_pos rfl], rfl⟩

/-- **No key twice** after `add` either. -/
theorem add_keysUnique (hunique : items.KeysUnique) : (items.add item).1.KeysUnique := by
  by_cases h : items.Holds item.idempotency_key
  · rw [add_of_holds h]
    exact hunique
  · rw [add_of_not_holds h]
    have hother : ∀ a : InboxItem, (items.put item rfl).get a.id = some a → a ≠ item →
        items.get a.id = some a := by
      intro a ha hne
      rw [Shelf.get_put] at ha
      split at ha
      · cases ha
        exact absurd rfl hne
      · exact ha
    have hnew : ∀ a : InboxItem, (items.put item rfl).get a.id = some a →
        a.idempotency_key = item.idempotency_key → a = item := by
      intro a ha hkey
      by_contra hne
      exact h ⟨a.id, a, hother a ha hne, hkey⟩
    intro a b ha hb hkey
    by_cases hai : a = item
    · subst hai
      exact (hnew b hb hkey.symm).symm
    · by_cases hbi : b = item
      · subst hbi
        exact hnew a ha hkey
      · exact hunique a b (hother a ha hai) (hother b hb hbi) hkey

end Add

end InboxItems
end NuSelf.Inbox
