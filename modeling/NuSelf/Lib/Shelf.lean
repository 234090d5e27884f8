/-
  Shelves: tables of records that carry their own key.

  A record knows the key it is stored under (`key`) and passes a check (`valid`) before it is
  written.  A `Shelf` carries both facts as a field, so a row under a foreign key, or an invalid
  one, cannot be built.

  1. `get_put`, `get_remove` — what a write changes;
  2. `putAll_get` — writing a batch under distinct keys: each record is there, the rest unchanged;
  3. `length_putAll_iff` — a batch adds as many rows as it has records exactly when its keys are
     distinct and new.
-/
import NuSelf.Lib.Table

namespace NuSelf.Lib

structure Shelf {α : Type} (key : α → String) (valid : α → Bool) where
  table : Table String α
  keyed : ∀ k a, table.get k = some a → key a = k ∧ valid a = true

namespace Shelf

variable {α : Type} {key : α → String} {valid : α → Bool}

def empty : Shelf key valid := ⟨Table.empty, fun _ _ h => nomatch h⟩

/-- The record under a key. -/
def get (shelf : Shelf key valid) (k : String) : Option α := shelf.table.get k

/-- The records in row order. -/
def records (shelf : Shelf key valid) : List α := shelf.table.rows.map Prod.snd

/-- Write a record under its key. -/
def put (shelf : Shelf key valid) (a : α) (h : valid a = true) : Shelf key valid where
  table := shelf.table.set (key a) a
  keyed := by
    intro k b hb
    rw [Table.get_set] at hb
    split at hb
    · rename_i hk
      cases hb
      exact ⟨hk.symm, h⟩
    · exact shelf.keyed k b hb

def remove (shelf : Shelf key valid) (k : String) : Shelf key valid where
  table := shelf.table.erase k
  keyed := by
    intro q b hb
    rw [Table.get_erase] at hb
    split at hb
    · cases hb
    · exact shelf.keyed q b hb

variable (shelf : Shelf key valid)

@[simp]
theorem get_put (a : α) (h : valid a = true) (k : String) :
    (shelf.put a h).get k = if k = key a then some a else shelf.get k :=
  Table.get_set shelf.table _ _ _

@[simp]
theorem get_remove (k q : String) :
    (shelf.remove k).get q = if q = k then none else shelf.get q :=
  Table.get_erase shelf.table _ _

theorem key_of_get {k : String} {a : α} (h : shelf.get k = some a) : key a = k :=
  (shelf.keyed k a h).1

theorem valid_of_get {k : String} {a : α} (h : shelf.get k = some a) : valid a = true :=
  (shelf.keyed k a h).2

theorem mem_records_iff {a : α} : a ∈ shelf.records ↔ shelf.get (key a) = some a := by
  rw [records, List.mem_map]
  constructor
  · rintro ⟨⟨k, b⟩, hrow, rfl⟩
    have hget : shelf.get k = some b := (shelf.table.mem_rows_iff).mp hrow
    have hkey := shelf.key_of_get hget
    subst hkey
    exact hget
  · intro hget
    exact ⟨(key a, a), (shelf.table.mem_rows_iff).mpr hget, rfl⟩

theorem nodup_keys : (shelf.records.map key).Nodup := by
  have hkeys : shelf.records.map key = shelf.table.rows.map Prod.fst := by
    rw [records, List.map_map]
    refine List.map_congr_left fun row hrow => ?_
    exact shelf.key_of_get (shelf.table.mem_rows_iff.mp hrow)
  rw [hkeys]
  exact shelf.table.nodup

/-! ## Batches -/

/-- Write the records of a batch, one after the other. -/
def putAll (shelf : Shelf key valid) : List {a : α // valid a = true} → Shelf key valid
  | [] => shelf
  | a :: rest => (shelf.put a.1 a.2).putAll rest

/-- The keys of a batch. -/
def batchKeys (key : α → String) (batch : List {a : α // valid a = true}) : List String :=
  batch.map fun a => key a.1

theorem putAll_get_of_not_mem : ∀ (batch : List {a : α // valid a = true})
    (shelf : Shelf key valid) {k : String}, k ∉ batchKeys key batch →
    (shelf.putAll batch).get k = shelf.get k
  | [], _, _, _ => rfl
  | a :: rest, shelf, k, hk => by
    have hne : k ≠ key a.1 := fun he => hk (he ▸ List.mem_cons_self)
    have hrest : k ∉ batchKeys key rest := fun hm => hk (List.mem_cons_of_mem _ hm)
    show ((shelf.put a.1 a.2).putAll rest).get k = _
    rw [putAll_get_of_not_mem rest _ hrest, get_put, if_neg hne]

/-- **A batch under distinct keys is there.** -/
theorem putAll_get : ∀ (batch : List {a : α // valid a = true}) (shelf : Shelf key valid),
    (batchKeys key batch).Nodup → ∀ a ∈ batch, (shelf.putAll batch).get (key a.1) = some a.1
  | [], _, _, _, ha => nomatch ha
  | b :: rest, shelf, hnodup, a, ha => by
    obtain ⟨hb, hrest⟩ := List.nodup_cons.mp hnodup
    show ((shelf.put b.1 b.2).putAll rest).get (key a.1) = _
    rcases List.mem_cons.mp ha with rfl | ha
    · rw [putAll_get_of_not_mem rest _ hb, get_put, if_pos rfl]
    · exact putAll_get rest _ hrest a ha

theorem length_put (a : α) (h : valid a = true) :
    (shelf.put a h).table.rows.length =
      if (shelf.get (key a)).isSome = true then shelf.table.rows.length
      else shelf.table.rows.length + 1 := by
  have hkeys := congrArg List.length (keys_upsert (key a) a shelf.table.rows)
  rw [List.length_map] at hkeys
  show (upsert (key a) a shelf.table.rows).length = _
  rw [hkeys]
  have hmem : key a ∈ shelf.table.rows.map Prod.fst ↔ (shelf.get (key a)).isSome = true :=
    shelf.table.contains_iff.symm
  by_cases h : (shelf.get (key a)).isSome = true
  · rw [if_pos (hmem.mpr h), if_pos h, List.length_map]
  · rw [if_neg fun hm => h (hmem.mp hm), if_neg h, List.length_append, List.length_map]
    rfl

theorem length_putAll_le : ∀ (batch : List {a : α // valid a = true}) (shelf : Shelf key valid),
    (shelf.putAll batch).table.rows.length ≤ shelf.table.rows.length + batch.length
  | [], _ => Nat.le_refl _
  | a :: rest, shelf => by
    have hrest := length_putAll_le rest (shelf.put a.1 a.2)
    have hput := shelf.length_put a.1 a.2
    show ((shelf.put a.1 a.2).putAll rest).table.rows.length ≤ _
    rw [List.length_cons]
    split at hput <;> omega

/-- **A batch adds a row for each record exactly when its keys are distinct and new.** -/
theorem length_putAll_iff : ∀ (batch : List {a : α // valid a = true}) (shelf : Shelf key valid),
    (shelf.putAll batch).table.rows.length = shelf.table.rows.length + batch.length ↔
      (batchKeys key batch).Nodup ∧ ∀ k ∈ batchKeys key batch, shelf.get k = none
  | [], _ => by simp [putAll, batchKeys]
  | a :: rest, shelf => by
    have ih := length_putAll_iff rest (shelf.put a.1 a.2)
    have hle := length_putAll_le rest (shelf.put a.1 a.2)
    have hput := shelf.length_put a.1 a.2
    show ((shelf.put a.1 a.2).putAll rest).table.rows.length = _ + (rest.length + 1) ↔
      (key a.1 :: batchKeys key rest).Nodup ∧
        ∀ k ∈ key a.1 :: batchKeys key rest, shelf.get k = none
    rw [List.nodup_cons, List.forall_mem_cons]
    cases hget : shelf.get (key a.1) with
    | some b =>
      -- the first record replaces another one, and the others cannot make up for it
      rw [hget, if_pos (by simp)] at hput
      constructor
      · intro h
        omega
      · rintro ⟨-, h, -⟩
        cases h
    | none =>
      rw [hget, if_neg (by simp)] at hput
      have hlength : ((shelf.put a.1 a.2).putAll rest).table.rows.length =
          shelf.table.rows.length + (rest.length + 1) ↔
          ((shelf.put a.1 a.2).putAll rest).table.rows.length =
          (shelf.put a.1 a.2).table.rows.length + rest.length := by
        omega
      rw [hlength, ih]
      constructor
      · rintro ⟨hnodup, hnew⟩
        have hfresh : key a.1 ∉ batchKeys key rest := by
          intro hm
          have hsome := hnew _ hm
          rw [get_put, if_pos rfl] at hsome
          cases hsome
        refine ⟨⟨hfresh, hnodup⟩, rfl, fun k hk => ?_⟩
        have hnone := hnew k hk
        have hne : k ≠ key a.1 := fun he => hfresh (he ▸ hk)
        rw [get_put, if_neg hne] at hnone
        exact hnone
      · rintro ⟨⟨hfresh, hnodup⟩, -, hnew⟩
        refine ⟨hnodup, fun k hk => ?_⟩
        have hne : k ≠ key a.1 := fun he => hfresh (he ▸ hk)
        rw [get_put, if_neg hne]
        exact hnew k hk

end Shelf
end NuSelf.Lib
