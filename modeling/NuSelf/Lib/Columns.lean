/-
  Tables whose columns come and go.

  Every table has a text column `id` as its primary key; a row is kept under its id as the table of
  its cells that are not NULL.  The names of columns are compared without the case of ASCII
  letters, may not hold the null character, and there are at most `columnLimit` of them.  Rows whose
  id is no text are kept apart: nothing can address them.

  A table is known by four things: its columns, the ids of its rows, the cells (`cell`), and the
  rows without an id.  Every operation says what it does to the four.
-/
import NuSelf.Lib.Sequence
import NuSelf.Lib.Table

namespace NuSelf.Lib

/-- The name of a column up to the case of ASCII letters. -/
def foldName (name : String) : String := String.ofList (name.toList.map Char.toLower)

def columnLimit : Nat := 2000

inductive ColumnError where
  | nullCharacter
  | duplicateColumn (name : String)
  | tooManyColumns
  | noColumn (name : String)
  | uniqueId (id : String)
  deriving DecidableEq

structure ColumnTable (ν : Type) where
  columns : List String
  rows : Table String (Table String ν)
  /-- The rows whose id is no text. -/
  nameless : List (Table String ν)
  distinct : (columns.map foldName).Nodup
  id_column : "id" ∈ columns
  cells : ∀ id r, rows.get id = some r → ∀ k ∈ r.keys, k ∈ columns ∧ k ≠ "id"
  deriving DecidableEq

namespace ColumnTable

variable {ν : Type}

/-- A cell that is not NULL. -/
def cell (t : ColumnTable ν) (id column : String) : Option ν :=
  (t.rows.get id).bind fun r => r.get column

theorem cell_eq_some {t : ColumnTable ν} {id column : String} {v : ν}
    (h : t.cell id column = some v) : column ∈ t.columns ∧ column ≠ "id" := by
  obtain ⟨r, hr, hv⟩ := Option.bind_eq_some_iff.mp h
  exact t.cells id r hr column (r.mem_keys_iff.mpr ⟨v, hv⟩)

theorem cell_eq_none {t : ColumnTable ν} {id : String} (h : id ∉ t.rows.keys) (column : String) :
    t.cell id column = none := by
  rw [cell, t.rows.get_eq_none_iff.mpr h]
  rfl

/-! ## New tables and columns -/

/-- `CREATE TABLE ... (id TEXT PRIMARY KEY)`. -/
def new (ν : Type) : ColumnTable ν where
  columns := ["id"]
  rows := Table.empty
  nameless := []
  distinct := by simp
  id_column := by simp
  cells := fun _ _ hr => nomatch hr

/-- `ALTER TABLE ... ADD COLUMN name TEXT`. -/
def addColumn (t : ColumnTable ν) (name : String) : Except ColumnError (ColumnTable ν) :=
  if name.toList.any (fun c => c.toNat == 0) = true then .error .nullCharacter
  else if h : foldName name ∈ t.columns.map foldName then .error (.duplicateColumn name)
  else if columnLimit ≤ t.columns.length then .error .tooManyColumns
  else
    .ok { t with
      columns := t.columns ++ [name]
      distinct := by
        rw [List.map_append, List.map_singleton, List.nodup_append_comm]
        exact List.nodup_cons.mpr ⟨h, t.distinct⟩
      id_column := List.mem_append_left _ t.id_column
      cells := fun id r hr k hk =>
        ⟨List.mem_append_left _ (t.cells id r hr k hk).1, (t.cells id r hr k hk).2⟩ }

/-- Column after column. -/
def addColumns : List String → ColumnTable ν → Except ColumnError (ColumnTable ν)
  | [], t => .ok t
  | name :: rest, t =>
    match t.addColumn name with
    | .error e => .error e
    | .ok t => addColumns rest t

/-- What SQL text can name. -/
def Nameable (name : String) : Prop := name.toList.any (fun c => c.toNat == 0) = false

instance (name : String) : Decidable (Nameable name) :=
  inferInstanceAs (Decidable (_ = false))

theorem addColumn_isOk_iff {t : ColumnTable ν} {name : String} :
    (∃ t', t.addColumn name = .ok t') ↔ Nameable name ∧
      foldName name ∉ t.columns.map foldName ∧ t.columns.length < columnLimit := by
  unfold addColumn Nameable
  split
  · rename_i hnull
    exact ⟨fun ⟨_, h⟩ => (nomatch h), fun h => absurd (h.1.symm.trans hnull) (by simp)⟩
  · rename_i hnull
    split
    · rename_i hdup
      exact ⟨fun ⟨_, h⟩ => (nomatch h), fun h => absurd hdup h.2.1⟩
    · rename_i hdup
      split
      · rename_i hmany
        exact ⟨fun ⟨_, h⟩ => (nomatch h), fun h => absurd hmany (by omega)⟩
      · rename_i hmany
        exact ⟨fun _ => ⟨by simpa using hnull, hdup, by omega⟩, fun _ => ⟨_, rfl⟩⟩

theorem addColumn_ok {t t' : ColumnTable ν} {name : String} (h : t.addColumn name = .ok t') :
    t'.columns = t.columns ++ [name] ∧ t'.rows = t.rows ∧ t'.nameless = t.nameless := by
  unfold addColumn at h
  split at h
  · cases h
  · split at h
    · cases h
    · split at h
      · cases h
      · cases h
        exact ⟨rfl, rfl, rfl⟩

theorem addColumns_ok : ∀ {names : List String} {t t' : ColumnTable ν},
    addColumns names t = .ok t' →
    t'.columns = t.columns ++ names ∧ t'.rows = t.rows ∧ t'.nameless = t.nameless
  | [], t, t', h => by
    cases h
    exact ⟨(List.append_nil _).symm, rfl, rfl⟩
  | name :: rest, t, t', h => by
    rw [addColumns] at h
    split at h
    · cases h
    · rename_i t₁ hfirst
      obtain ⟨hcolumns, hrows, hnameless⟩ := addColumn_ok hfirst
      obtain ⟨hcolumns', hrows', hnameless'⟩ := addColumns_ok h
      exact ⟨by rw [hcolumns', hcolumns, List.append_assoc]; rfl, hrows'.trans hrows,
        hnameless'.trans hnameless⟩

/-- **Columns can be added** exactly when they can be named, are distinct from each other and from
    those that are there, and are not too many. -/
theorem addColumns_isOk_iff : ∀ {names : List String} {t : ColumnTable ν},
    (∃ t', addColumns names t = .ok t') ↔ (∀ name ∈ names, Nameable name) ∧
      ((t.columns ++ names).map foldName).Nodup ∧
      (names = [] ∨ t.columns.length + names.length ≤ columnLimit)
  | [], t => by
    refine ⟨fun _ => ⟨fun _ h => (nomatch h), ?_, Or.inl rfl⟩, fun _ => ⟨t, rfl⟩⟩
    rw [List.append_nil]
    exact t.distinct
  | name :: rest, t => by
    rw [addColumns]
    constructor
    · rintro ⟨t', h⟩
      split at h
      · cases h
      · rename_i t₁ hfirst
        obtain ⟨hname, hnew, hfew⟩ := addColumn_isOk_iff.mp ⟨t₁, hfirst⟩
        obtain ⟨hcolumns, -, -⟩ := addColumn_ok hfirst
        obtain ⟨hnames, hdistinct, hcount⟩ := addColumns_isOk_iff.mp ⟨t', h⟩
        rw [hcolumns, List.append_assoc] at hdistinct
        rw [hcolumns, List.length_append, List.length_singleton] at hcount
        refine ⟨List.forall_mem_cons.mpr ⟨hname, hnames⟩, hdistinct, Or.inr ?_⟩
        rw [List.length_cons]
        rcases hcount with hnil | hcount
        · rw [hnil, List.length_nil]
          omega
        · omega
    · rintro ⟨hnames, hdistinct, hcount⟩
      obtain ⟨hname, hnames⟩ := List.forall_mem_cons.mp hnames
      have hcount' : t.columns.length + (rest.length + 1) ≤ columnLimit := by
        rcases hcount with hnil | hcount
        · cases hnil
        · exact hcount
      have hnew : foldName name ∉ t.columns.map foldName := by
        intro hmem
        rw [List.map_append, List.map_cons] at hdistinct
        exact (List.nodup_append.mp hdistinct).2.2 _ hmem _ List.mem_cons_self rfl
      obtain ⟨t₁, hfirst⟩ := addColumn_isOk_iff.mpr ⟨hname, hnew, by omega⟩
      obtain ⟨hcolumns, -, -⟩ := addColumn_ok hfirst
      have hrest : ∃ t', addColumns rest t₁ = .ok t' := by
        refine addColumns_isOk_iff.mpr ⟨hnames, ?_, Or.inr ?_⟩
        · rw [hcolumns, List.append_assoc]
          exact hdistinct
        · rw [hcolumns, List.length_append, List.length_singleton]
          omega
      obtain ⟨t', ht'⟩ := hrest
      exact ⟨t', by rw [hfirst]; exact ht'⟩

/-! ## Rows and cells -/

/-- `INSERT INTO ...` of a row with these cells. -/
def insertRow (t : ColumnTable ν) (id : String) (cells : Table String ν) :
    Except ColumnError (ColumnTable ν) :=
  if h : ∀ k ∈ cells.keys, k ∈ t.columns ∧ k ≠ "id" then
    if t.rows.contains id = true then .error (.uniqueId id)
    else
      .ok { t with
        rows := t.rows.set id cells
        cells := by
          intro q r hr
          rw [Table.get_set] at hr
          split at hr
          · cases hr
            exact h
          · exact t.cells q r hr }
  else .error (.noColumn "")

theorem insertRow_isOk_iff {t : ColumnTable ν} {id : String} {cells : Table String ν} :
    (∃ t', t.insertRow id cells = .ok t') ↔
      (∀ k ∈ cells.keys, k ∈ t.columns ∧ k ≠ "id") ∧ id ∉ t.rows.keys := by
  unfold insertRow
  by_cases h : ∀ k ∈ cells.keys, k ∈ t.columns ∧ k ≠ "id"
  · rw [dif_pos h]
    by_cases hid : t.rows.contains id = true
    · rw [if_pos hid]
      exact ⟨fun ⟨_, hok⟩ => (nomatch hok), fun hnot => absurd (t.rows.contains_iff.mp hid) hnot.2⟩
    · rw [if_neg hid]
      exact ⟨fun _ => ⟨h, fun hmem => hid (t.rows.contains_iff.mpr hmem)⟩, fun _ => ⟨_, rfl⟩⟩
  · rw [dif_neg h]
    exact ⟨fun ⟨_, hok⟩ => (nomatch hok), fun hnot => absurd hnot.1 h⟩

theorem insertRow_ok {t t' : ColumnTable ν} {id : String} {cells : Table String ν}
    (h : t.insertRow id cells = .ok t') :
    t'.columns = t.columns ∧ t'.rows = t.rows.set id cells ∧ t'.nameless = t.nameless := by
  unfold insertRow at h
  split at h
  · split at h
    · cases h
    · cases h
      exact ⟨rfl, rfl, rfl⟩
  · cases h

/-- `UPDATE ... SET column = v WHERE id = id`. -/
def setCell (t : ColumnTable ν) (column id : String) (v : ν) :
    Except ColumnError (ColumnTable ν) :=
  if h : column ∈ t.columns ∧ column ≠ "id" then
    .ok { t with
      rows := t.rows.mapRows fun q r => if q = id then r.set column v else r
      cells := by
        intro q r hr k hk
        rw [Table.get_mapRows, Option.map_eq_some_iff] at hr
        obtain ⟨r₀, hr₀, rfl⟩ := hr
        split at hk
        · by_cases hcolumn : k = column
          · rw [hcolumn]
            exact h
          · rw [Table.mem_keys_iff] at hk
            obtain ⟨w, hw⟩ := hk
            rw [Table.get_set_ne _ _ hcolumn] at hw
            exact t.cells q r₀ hr₀ k (Table.mem_keys_iff _ |>.mpr ⟨w, hw⟩)
        · exact t.cells q r₀ hr₀ k hk }
  else .error (.noColumn column)

theorem keys_mapRows {κ : Type} [DecidableEq κ] {ν ν' : Type} (t : Table κ ν) (f : κ → ν → ν') :
    (t.mapRows f).keys = t.keys := by
  simp [Table.keys, Table.mapRows, Function.comp_def]

theorem setCell_isOk_iff {t : ColumnTable ν} {column id : String} {v : ν} :
    (∃ t', t.setCell column id v = .ok t') ↔ column ∈ t.columns ∧ column ≠ "id" := by
  unfold setCell
  split
  · rename_i h
    exact ⟨fun _ => h, fun _ => ⟨_, rfl⟩⟩
  · rename_i h
    exact ⟨fun ⟨_, hok⟩ => (nomatch hok), fun hnot => absurd hnot h⟩

theorem setCell_ok {t t' : ColumnTable ν} {column id : String} {v : ν}
    (h : t.setCell column id v = .ok t') :
    t'.columns = t.columns ∧ t'.rows.keys = t.rows.keys ∧ t'.nameless = t.nameless ∧
      ∀ q k, t'.cell q k = if q = id ∧ k = column ∧ id ∈ t.rows.keys then some v
        else t.cell q k := by
  unfold setCell at h
  split at h
  · cases h
    refine ⟨rfl, keys_mapRows _ _, rfl, fun q k => ?_⟩
    simp only [cell, Table.get_mapRows]
    cases hq : t.rows.get q with
    | none =>
      have hnot : ¬ (q = id ∧ k = column ∧ id ∈ t.rows.keys) := by
        rintro ⟨rfl, -, hmem⟩
        exact t.rows.get_eq_none_iff.mp hq hmem
      rw [if_neg hnot]
      rfl
    | some r =>
      have hmem : q ∈ t.rows.keys := t.rows.mem_keys_iff.mpr ⟨r, hq⟩
      by_cases hid : q = id
      · subst hid
        by_cases hk : k = column
        · subst hk
          simp [hmem]
        · simp [hk]
      · simp [hid]
  · cases h

/-- `ALTER TABLE ... DROP COLUMN name`. -/
def dropColumn (t : ColumnTable ν) (name : String) : Except ColumnError (ColumnTable ν) :=
  if h : name ∈ t.columns ∧ name ≠ "id" then
    .ok {
      columns := t.columns.filter fun column => decide (column ≠ name)
      rows := t.rows.mapRows fun _ r => r.erase name
      nameless := t.nameless.map fun r => r.erase name
      distinct := t.distinct.sublist (List.filter_sublist.map _)
      id_column := List.mem_filter.mpr ⟨t.id_column, decide_eq_true (Ne.symm h.2)⟩
      cells := by
        intro q r hr k hk
        rw [Table.get_mapRows, Option.map_eq_some_iff] at hr
        obtain ⟨r₀, hr₀, rfl⟩ := hr
        rw [Table.mem_keys_iff] at hk
        obtain ⟨w, hw⟩ := hk
        rw [Table.get_erase] at hw
        split at hw
        · cases hw
        · rename_i hne
          obtain ⟨hcolumn, hid⟩ := t.cells q r₀ hr₀ k (Table.mem_keys_iff _ |>.mpr ⟨w, hw⟩)
          exact ⟨List.mem_filter.mpr ⟨hcolumn, decide_eq_true hne⟩, hid⟩ }
  else .error (.noColumn name)

theorem dropColumn_isOk_iff {t : ColumnTable ν} {name : String} :
    (∃ t', t.dropColumn name = .ok t') ↔ name ∈ t.columns ∧ name ≠ "id" := by
  unfold dropColumn
  split
  · rename_i h
    exact ⟨fun _ => h, fun _ => ⟨_, rfl⟩⟩
  · rename_i h
    exact ⟨fun ⟨_, hok⟩ => (nomatch hok), fun hnot => absurd hnot h⟩

theorem dropColumn_ok {t t' : ColumnTable ν} {name : String} (h : t.dropColumn name = .ok t') :
    t'.columns = t.columns.filter (fun column => decide (column ≠ name)) ∧
      t'.rows.keys = t.rows.keys ∧ t'.nameless = t.nameless.map (fun r => r.erase name) ∧
      ∀ q k, t'.cell q k = if k = name then none else t.cell q k := by
  unfold dropColumn at h
  split at h
  · cases h
    refine ⟨rfl, keys_mapRows _ _, rfl, fun q k => ?_⟩
    simp only [cell, Table.get_mapRows]
    cases t.rows.get q with
    | none => simp
    | some r => simp
  · cases h

end ColumnTable
end NuSelf.Lib
