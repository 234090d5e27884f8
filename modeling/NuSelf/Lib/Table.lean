/-
  Keyed tables: finite maps that remember the order of their rows.

  A `Table κ ν` is a list of rows with at most one row per key.  It is the common shape of a
  dictionary (insertion ordered, `d[k] = v` keeps the place of an existing key), of a database
  table with a primary key, and of a registry.  The order matters to a reader that scans the rows
  and to a writer that encodes them; two tables with the same rows in another order are `Same`.

  Layers of this file:
  1. the list operations (`upsert`, `tryMap`) and what they do to the key list;
  2. `Table` with its operations (`get`, `set`, `erase`, `keep`, `mapRows`, `rekey`, `tryMap`);
  3. one `get_*` equation per operation, tagged for `simp`, through which everything else goes.
-/
import Mathlib.Data.List.Nodup
import Mathlib.Data.List.Basic

namespace NuSelf.Lib

variable {κ ν ν' ε : Type} [DecidableEq κ]

/-! ## Rows as lists -/

/-- Overwrite the row of `k` in place, or append one. -/
def upsert (k : κ) (v : ν) : List (κ × ν) → List (κ × ν)
  | [] => [(k, v)]
  | (k', v') :: rest => if k' = k then (k, v) :: rest else (k', v') :: upsert k v rest

theorem lookup_row (q : κ) (r : κ × ν) (rest : List (κ × ν)) :
    (r :: rest).lookup q = if q = r.1 then some r.2 else rest.lookup q := by
  by_cases h : q = r.1
  · obtain ⟨k, v⟩ := r
    subst h
    simp
  · have hb : (q == r.1) = false := by simpa using h
    rw [if_neg h, List.lookup_cons, hb]

theorem lookup_eq_none_of_not_mem {rows : List (κ × ν)} {k : κ} (h : k ∉ rows.map Prod.fst) :
    rows.lookup k = none := by
  rw [List.lookup_eq_none_iff]
  intro row hrow
  rw [bne_iff_ne]
  rintro rfl
  exact h (List.mem_map_of_mem hrow)

omit [DecidableEq κ] in
theorem mem_iff_lookup [BEq κ] [LawfulBEq κ] {rows : List (κ × ν)}
    (h : (rows.map Prod.fst).Nodup) {k : κ} {v : ν} : (k, v) ∈ rows ↔ rows.lookup k = some v := by
  rw [List.lookup_eq_some_iff]
  constructor
  · intro hmem
    obtain ⟨front, behind, rfl⟩ := List.append_of_mem hmem
    refine ⟨front, behind, rfl, fun row hrow => bne_iff_ne.mpr ?_⟩
    rintro rfl
    rw [List.map_append, List.nodup_append] at h
    exact h.2.2 _ (List.mem_map_of_mem hrow) _ List.mem_cons_self rfl
  · rintro ⟨front, behind, rfl, -⟩
    exact List.mem_append_right _ List.mem_cons_self

omit [DecidableEq κ] in
theorem perm_of_lookup [BEq κ] [LawfulBEq κ] {rows rows' : List (κ × ν)}
    (h : (rows.map Prod.fst).Nodup) (h' : (rows'.map Prod.fst).Nodup)
    (hlookup : ∀ k, rows.lookup k = rows'.lookup k) : rows.Perm rows' := by
  refine (List.perm_ext_iff_of_nodup h.of_map h'.of_map).mpr fun row => ?_
  obtain ⟨k, v⟩ := row
  rw [mem_iff_lookup h, mem_iff_lookup h', hlookup k]

theorem lookup_upsert (k : κ) (v : ν) (rows : List (κ × ν)) (q : κ) :
    (upsert k v rows).lookup q = if q = k then some v else rows.lookup q := by
  induction rows with
  | nil => simp only [upsert, lookup_row, List.lookup_nil]
  | cons r rest ih =>
    obtain ⟨k', v'⟩ := r
    by_cases hk : k' = k
    · subst hk
      rw [upsert, if_pos rfl, lookup_row, lookup_row]
      by_cases hq : q = k'
      · rw [if_pos hq, if_pos hq]
      · simp only [if_neg hq]
    · rw [upsert, if_neg hk, lookup_row, lookup_row, ih]
      by_cases hq : q = k'
      · have hqk : ¬ q = k := fun h => hk (hq.symm.trans h)
        rw [if_pos hq, if_neg hqk, if_pos hq]
      · simp only [if_neg hq]

theorem upsert_new {k : κ} {v : ν} : ∀ {rows : List (κ × ν)},
    k ∉ rows.map Prod.fst → upsert k v rows = rows ++ [(k, v)]
  | [], _ => rfl
  | (k', v') :: rest, h => by
    obtain ⟨hne, hrest⟩ := not_or.mp (List.mem_cons.not.mp h)
    rw [upsert, if_neg (Ne.symm hne), upsert_new hrest, List.cons_append]

theorem foldl_upsert : ∀ (rest rows : List (κ × ν)), ((rows ++ rest).map Prod.fst).Nodup →
    rest.foldl (fun rows row => upsert row.1 row.2 rows) rows = rows ++ rest
  | [], rows, _ => (List.append_nil rows).symm
  | row :: rest, rows, hnodup => by
    have hnew : row.1 ∉ rows.map Prod.fst := by
      rw [List.map_append, List.nodup_append] at hnodup
      exact fun hmem => hnodup.2.2 _ hmem _ List.mem_cons_self rfl
    rw [List.append_cons] at hnodup
    rw [List.foldl_cons, upsert_new hnew, foldl_upsert rest _ hnodup, List.append_assoc]
    rfl

theorem keys_upsert (k : κ) (v : ν) (rows : List (κ × ν)) :
    (upsert k v rows).map Prod.fst =
      if k ∈ rows.map Prod.fst then rows.map Prod.fst else rows.map Prod.fst ++ [k] := by
  induction rows with
  | nil => simp [upsert]
  | cons r rest ih =>
    obtain ⟨k', v'⟩ := r
    by_cases hk : k' = k
    · subst hk
      simp [upsert]
    · have hk' : ¬ k = k' := fun h => hk h.symm
      simp only [upsert, if_neg hk, List.map_cons, ih, List.mem_cons, hk', false_or]
      by_cases hm : k ∈ rest.map Prod.fst
      · rw [if_pos hm, if_pos hm]
      · rw [if_neg hm, if_neg hm, List.cons_append]

theorem nodup_upsert {k : κ} {v : ν} {rows : List (κ × ν)} (h : (rows.map Prod.fst).Nodup) :
    ((upsert k v rows).map Prod.fst).Nodup := by
  rw [keys_upsert]
  split
  · exact h
  · rename_i hk
    exact List.nodup_append'.mpr ⟨h, List.nodup_singleton k,
      fun x hx hx' => hk (List.mem_singleton.mp hx' ▸ hx)⟩

/-- Rewrite every value with a function that may fail; the first failure fails the whole. -/
def tryMapRows (f : κ → ν → Except ε ν') : List (κ × ν) → Except ε (List (κ × ν'))
  | [] => .ok []
  | (k, v) :: rest =>
    match f k v with
    | .error e => .error e
    | .ok v' =>
      match tryMapRows f rest with
      | .error e => .error e
      | .ok rest' => .ok ((k, v') :: rest')

omit [DecidableEq κ] in
theorem tryMapRows_cons_ok {f : κ → ν → Except ε ν'} {k : κ} {v : ν} {rest : List (κ × ν)}
    {rows' : List (κ × ν')} (h : tryMapRows f ((k, v) :: rest) = .ok rows') :
    ∃ v' rest', f k v = .ok v' ∧ tryMapRows f rest = .ok rest' ∧ rows' = (k, v') :: rest' := by
  simp only [tryMapRows] at h
  cases hv : f k v with
  | error e => simp [hv] at h
  | ok v' =>
    cases hr : tryMapRows f rest with
    | error e => simp [hv, hr] at h
    | ok rest' =>
      simp only [hv, hr, Except.ok.injEq] at h
      exact ⟨v', rest', rfl, rfl, h.symm⟩

omit [DecidableEq κ] in
theorem keys_tryMapRows {f : κ → ν → Except ε ν'} :
    ∀ {rows : List (κ × ν)} {rows' : List (κ × ν')}, tryMapRows f rows = .ok rows' →
      rows'.map Prod.fst = rows.map Prod.fst := by
  intro rows
  induction rows with
  | nil => intro rows' h; cases h; rfl
  | cons r rest ih =>
    intro rows' h
    obtain ⟨v', rest', -, hrest, rfl⟩ := tryMapRows_cons_ok h
    simp [ih hrest]

theorem lookup_tryMapRows {f : κ → ν → Except ε ν'} {k : κ} :
    ∀ {rows : List (κ × ν)} {rows' : List (κ × ν')}, tryMapRows f rows = .ok rows' →
      rows'.lookup k = (rows.lookup k).bind fun v => (f k v).toOption := by
  intro rows
  induction rows with
  | nil => intro rows' h; cases h; rfl
  | cons r rest ih =>
    intro rows' h
    obtain ⟨v', rest', hv, hrest, rfl⟩ := tryMapRows_cons_ok h
    rw [lookup_row, lookup_row, ih hrest]
    by_cases hk : k = r.1
    · subst hk
      simp [hv, Except.toOption]
    · simp only [if_neg hk]

omit [DecidableEq κ] in
theorem tryMapRows_isOk_iff {f : κ → ν → Except ε ν'} :
    ∀ {rows : List (κ × ν)}, (∃ rows', tryMapRows f rows = .ok rows') ↔
      ∀ k v, (k, v) ∈ rows → ∃ v', f k v = .ok v' := by
  intro rows
  induction rows with
  | nil => simp [tryMapRows]
  | cons r rest ih =>
    obtain ⟨k, v⟩ := r
    constructor
    · rintro ⟨rows', h⟩ k₁ v₁ hm
      obtain ⟨v', rest', hv, hrest, -⟩ := tryMapRows_cons_ok h
      rcases List.mem_cons.mp hm with heq | hm
      · cases heq; exact ⟨v', hv⟩
      · exact ih.mp ⟨rest', hrest⟩ k₁ v₁ hm
    · intro h
      obtain ⟨v', hv⟩ := h k v List.mem_cons_self
      obtain ⟨rest', hrest⟩ := ih.mpr fun k₁ v₁ hm => h k₁ v₁ (List.mem_cons_of_mem _ hm)
      exact ⟨(k, v') :: rest', by simp [tryMapRows, hv, hrest]⟩

/-! ## Tables -/

/-- A finite map from keys to values with the order of its rows. -/
structure Table (κ ν : Type) where
  rows : List (κ × ν)
  nodup : (rows.map Prod.fst).Nodup
  deriving DecidableEq

namespace Table

variable (t : Table κ ν)

@[ext]
theorem ext {κ ν : Type} {t u : Table κ ν} (h : t.rows = u.rows) : t = u := by
  cases t; cases u; cases h; rfl

/-- The table without rows. -/
def empty : Table κ ν := ⟨[], List.nodup_nil⟩

instance : Inhabited (Table κ ν) := ⟨empty⟩

/-- The value under a key. -/
def get (k : κ) : Option ν := t.rows.lookup k

/-- The keys in row order. -/
def keys : List κ := t.rows.map Prod.fst

/-- Whether a key has a row. -/
def contains (k : κ) : Bool := (t.get k).isSome

/-- Write one row: in place when the key exists, at the end otherwise. -/
def set (k : κ) (v : ν) : Table κ ν := ⟨upsert k v t.rows, nodup_upsert t.nodup⟩

omit [DecidableEq κ] in
theorem nodup_filter (p : κ × ν → Bool) : ((t.rows.filter p).map Prod.fst).Nodup :=
  t.nodup.sublist (List.filter_sublist.map _)

/-- Keep the rows whose key satisfies `p`. -/
def keep (p : κ → Bool) : Table κ ν := ⟨t.rows.filter fun r => p r.1, t.nodup_filter _⟩

/-- Keep the rows that satisfy `p`. -/
def filterRows (p : κ → ν → Bool) : Table κ ν :=
  ⟨t.rows.filter fun r => p r.1 r.2, t.nodup_filter _⟩

/-- Remove one row. -/
def erase (k : κ) : Table κ ν := t.keep fun q => decide (q ≠ k)

/-- Rewrite every value, keys and order unchanged. -/
def mapRows (f : κ → ν → ν') : Table κ ν' :=
  ⟨t.rows.map fun r => (r.1, f r.1 r.2), by simpa [Function.comp_def] using t.nodup⟩

/-- Rewrite every value with a function that may fail. -/
def tryMap (f : κ → ν → Except ε ν') : Except ε (Table κ ν') :=
  match h : tryMapRows f t.rows with
  | .error e => .error e
  | .ok rows => .ok ⟨rows, by rw [keys_tryMapRows h]; exact t.nodup⟩

/-- Rename the keys; `none` when two rows would share a key. -/
def rekey (f : κ → κ) : Option (Table κ ν) :=
  if h : ((t.rows.map fun r => (f r.1, r.2)).map Prod.fst).Nodup then some ⟨_, h⟩ else none

/-- Two tables with the same rows up to their order. -/
def Same (t u : Table κ ν) : Prop := ∀ k, t.get k = u.get k

/-! ### `get` of every operation -/

@[simp]
theorem get_empty (k : κ) : (empty : Table κ ν).get k = none := rfl

@[simp]
theorem get_set (k : κ) (v : ν) (q : κ) :
    (t.set k v).get q = if q = k then some v else t.get q :=
  lookup_upsert k v t.rows q

theorem get_set_self (k : κ) (v : ν) : (t.set k v).get k = some v := by simp

theorem get_set_ne {k q : κ} (v : ν) (h : q ≠ k) : (t.set k v).get q = t.get q := by simp [h]

@[simp]
theorem get_keep (p : κ → Bool) (q : κ) :
    (t.keep p).get q = if p q = true then t.get q else none := by
  show (t.rows.filter fun r => p r.1).lookup q = if p q = true then t.rows.lookup q else none
  induction t.rows with
  | nil => simp
  | cons r rest ih =>
    obtain ⟨k', v'⟩ := r
    by_cases hp : p k' = true
    · rw [List.filter_cons_of_pos (by exact hp), lookup_row, lookup_row, ih]
      by_cases hq : q = k'
      · subst hq
        rw [if_pos rfl, if_pos rfl, if_pos hp]
      · rw [if_neg hq, if_neg hq]
    · rw [List.filter_cons_of_neg (by exact hp), lookup_row, ih]
      by_cases hq : q = k'
      · subst hq
        rw [if_neg hp, if_neg hp]
      · rw [if_neg hq]

@[simp]
theorem get_erase (k q : κ) : (t.erase k).get q = if q = k then none else t.get q := by
  by_cases h : q = k <;> simp [erase, h]

@[simp]
theorem get_mapRows (f : κ → ν → ν') (q : κ) :
    (t.mapRows f).get q = (t.get q).map (f q) := by
  show (t.rows.map fun r => (r.1, f r.1 r.2)).lookup q = (t.rows.lookup q).map (f q)
  induction t.rows with
  | nil => rfl
  | cons r rest ih =>
    rw [List.map_cons, lookup_row, lookup_row, ih]
    by_cases hq : q = r.1
    · subst hq
      rw [if_pos rfl, if_pos rfl]
      rfl
    · rw [if_neg hq, if_neg hq]

/-- The rows are exactly what `get` finds: the bridge between scanning and looking up. -/
theorem mem_rows_iff {k : κ} {v : ν} : (k, v) ∈ t.rows ↔ t.get k = some v :=
  mem_iff_lookup t.nodup

theorem filter_key (k : κ) :
    t.rows.filter (fun r => decide (r.1 = k)) = ((t.get k).map (k, ·)).toList := by
  obtain ⟨rows, hnd⟩ := t
  show rows.filter _ = ((rows.lookup k).map (k, ·)).toList
  induction rows with
  | nil => rfl
  | cons r rest ih =>
    obtain ⟨k', v⟩ := r
    obtain ⟨hk', hnd'⟩ := List.nodup_cons.mp hnd
    rw [lookup_row]
    by_cases hk : k = k'
    · subst hk
      have hrest : rest.filter (fun r => decide (r.1 = k)) = [] := by
        refine List.filter_eq_nil_iff.mpr fun r hr => ?_
        rw [decide_eq_true_eq]
        rintro rfl
        have hmem := List.mem_map_of_mem (f := Prod.fst) hr
        exact hk' hmem
      rw [List.filter_cons_of_pos (by simp), hrest, if_pos rfl]
      rfl
    · rw [List.filter_cons_of_neg (by simpa using Ne.symm hk), if_neg hk, ih hnd']

theorem filter_set_ne (k : κ) (v : ν) :
    (t.set k v).rows.filter (fun r => decide (r.1 ≠ k)) =
      t.rows.filter fun r => decide (r.1 ≠ k) := by
  show (upsert k v t.rows).filter _ = _
  induction t.rows with
  | nil => simp [upsert]
  | cons r rest ih =>
    obtain ⟨k', v'⟩ := r
    rw [upsert]
    split
    · rename_i hk
      subst hk
      simp
    · rename_i hk
      rw [List.filter_cons_of_pos (by simpa using hk), List.filter_cons_of_pos (by simpa using hk),
        ih]

theorem mem_keys_iff {k : κ} : k ∈ t.keys ↔ ∃ v, t.get k = some v := by
  simp only [keys, List.mem_map, Prod.exists, mem_rows_iff]
  constructor
  · rintro ⟨k', v, h, rfl⟩; exact ⟨v, h⟩
  · rintro ⟨v, h⟩; exact ⟨k, v, h, rfl⟩

theorem get_eq_none_iff {k : κ} : t.get k = none ↔ k ∉ t.keys := by
  rw [mem_keys_iff, Option.eq_none_iff_forall_ne_some, not_exists]

theorem erase_of_none {k : κ} (h : t.get k = none) : t.erase k = t := by
  refine Table.ext (List.filter_eq_self.mpr fun r hr => decide_eq_true ?_)
  rintro rfl
  exact absurd (List.mem_map_of_mem hr) (t.get_eq_none_iff.mp h)

theorem contains_iff {k : κ} : t.contains k = true ↔ k ∈ t.keys := by
  rw [contains, Option.isSome_iff_exists, mem_keys_iff]

theorem rows_foldl_set {rows : List (κ × ν)} {t : Table κ ν}
    (h : ((t.rows ++ rows).map Prod.fst).Nodup) :
    (rows.foldl (fun t row => t.set row.1 row.2) t).rows = t.rows ++ rows := by
  have hstep : ∀ (t : Table κ ν) (row : κ × ν),
      upsert row.1 row.2 t.rows = (t.set row.1 row.2).rows := fun _ _ => rfl
  rw [← foldl_upsert rows t.rows h]
  exact (List.foldl_hom Table.rows hstep).symm

theorem foldl_set_rows (t : Table κ ν) :
    t.rows.foldl (fun t row => t.set row.1 row.2) Table.empty = t :=
  Table.ext (@rows_foldl_set _ _ _ t.rows Table.empty t.nodup)

@[simp]
theorem get_filterRows (p : κ → ν → Bool) (q : κ) :
    (t.filterRows p).get q = (t.get q).filter (p q) := by
  refine Option.ext fun v => ?_
  rw [Option.filter_eq_some_iff, ← mem_rows_iff, ← mem_rows_iff]
  exact List.mem_filter

variable {t}

theorem get_tryMap {f : κ → ν → Except ε ν'} {u : Table κ ν'} (h : t.tryMap f = .ok u) (q : κ) :
    u.get q = (t.get q).bind fun v => (f q v).toOption := by
  unfold tryMap at h
  split at h
  · cases h
  · rename_i rows hrows
    cases h
    exact lookup_tryMapRows hrows

theorem tryMap_isOk_iff {f : κ → ν → Except ε ν'} :
    (∃ u, t.tryMap f = .ok u) ↔ ∀ k v, t.get k = some v → ∃ v', f k v = .ok v' := by
  have key : (∃ rows', tryMapRows f t.rows = .ok rows') ↔
      ∀ k v, (k, v) ∈ t.rows → ∃ v', f k v = .ok v' := tryMapRows_isOk_iff
  simp only [mem_rows_iff] at key
  rw [← key]
  unfold tryMap
  constructor
  · rintro ⟨u, h⟩
    split at h
    · cases h
    · rename_i rows hrows; exact ⟨rows, hrows⟩
  · rintro ⟨rows, hrows⟩
    split
    · rename_i e he; rw [hrows] at he; cases he
    · exact ⟨_, rfl⟩

/-- Where the rewriting succeeded, the row is there with the rewritten value. -/
theorem tryMap_row {f : κ → ν → Except ε ν'} {u : Table κ ν'} (h : t.tryMap f = .ok u) {k : κ}
    {v : ν} (hv : t.get k = some v) : ∃ v', f k v = .ok v' ∧ u.get k = some v' := by
  obtain ⟨v', hv'⟩ := tryMap_isOk_iff.mp ⟨u, h⟩ k v hv
  exact ⟨v', hv', by rw [get_tryMap h, hv]; simp [hv', Except.toOption]⟩

theorem tryMap_none {f : κ → ν → Except ε ν'} {u : Table κ ν'} (h : t.tryMap f = .ok u) {k : κ}
    (hv : t.get k = none) : u.get k = none := by
  rw [get_tryMap h, hv]; rfl

/-- Renaming the keys by a function that is injective on them keeps every row. -/
theorem rekey_of_injOn {f : κ → κ} (hf : ∀ k ∈ t.keys, ∀ q ∈ t.keys, f k = f q → k = q) :
    ∃ u, t.rekey f = some u ∧ ∀ k ∈ t.keys, u.get (f k) = t.get k := by
  have hkeys : (t.rows.map fun r => (f r.1, r.2)).map Prod.fst = t.keys.map f := by
    simp [keys, Function.comp_def]
  have hnd : ((t.rows.map fun r => (f r.1, r.2)).map Prod.fst).Nodup := by
    rw [hkeys]
    exact List.Nodup.map_on hf t.nodup
  refine ⟨⟨_, hnd⟩, by simp only [rekey, dif_pos hnd], fun k hk => ?_⟩
  obtain ⟨v, hv⟩ := t.mem_keys_iff.mp hk
  rw [hv, ← mem_rows_iff]
  exact List.mem_map.mpr ⟨(k, v), t.mem_rows_iff.mpr hv, rfl⟩

theorem rekey_get {f : κ → κ} {u : Table κ ν} (h : t.rekey f = some u) {q : κ} {v : ν} :
    u.get q = some v ↔ ∃ k, t.get k = some v ∧ f k = q := by
  unfold rekey at h
  split at h
  · cases h
    rw [← mem_rows_iff]
    simp only [List.mem_map, Prod.exists, Prod.mk.injEq, mem_rows_iff]
    constructor
    · rintro ⟨k, v', hk, hq, rfl⟩; exact ⟨k, hk, hq⟩
    · rintro ⟨k, hk, hq⟩; exact ⟨k, v, hk, hq, rfl⟩
  · cases h

theorem Same.refl (t : Table κ ν) : Same t t := fun _ => rfl

end Table
end NuSelf.Lib
