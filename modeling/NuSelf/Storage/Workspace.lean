/-
  Private workspaces: one table of entries shared by all scopes.

  A scope is a tuple of names; the table stores it as the names joined by `/`.  Writing and reading
  one entry compare the whole text.  Searching and listing ask SQLite for the texts `LIKE` the
  scope's own text with `%` behind it, which is neither the tuple order nor case sensitive, and
  takes `_` and `%` in a name for wildcards.

  1. **The table** — `WorkspaceEntries`.  Each entry remembers the tuple it was put under (the code
     stores only the text), and the text in its key is that tuple's (`named`).
  2. **The store** — `put`, `get`, `delete`, `doSearch`, `doListNamespaces`.
  3. **The scopes** — `ScopedWorkspace` and `WorkspaceCollection`.
  4. **What belongs to a scope** is never missed by the pattern (`like_scope`), so the only question
     is what else the pattern finds.
  5. `workspace_isolated_iff` — every search and listing of a scope and of its collections shows exactly what
     lies in it, if and only if the pattern finds nothing else (`Separated`).

  A filter compares fields by `json_extract`, which is a parameter.  A field name goes into the SQL
  text as it is, so only names without a quote are names.
-/
import Mathlib.Data.List.Dedup
import Mathlib.Data.List.Sort
import Mathlib.Data.String.Basic
import NuSelf.Lib.Like
import NuSelf.Lib.Text
import NuSelf.Storage.Records

namespace NuSelf.Storage

open NuSelf.Lib

/-! ## Namespaces as text -/

/-- `_ns_key`: the names of a tuple, joined by `/`. -/
def nsKey (ns : List String) : String :=
  String.ofList (['/'].intercalate (ns.map String.toList))

/-- `tuple(text.split("/")) if text else ()`. -/
def splitKey (text : String) : List String :=
  if text = "" then [] else (text.toList.splitOn '/').map String.ofList

theorem nsKey_splitKey (text : String) : nsKey (splitKey text) = text := by
  rw [nsKey, splitKey]
  split
  · rename_i h
    rw [h]
    rfl
  · have hlists : ((text.toList.splitOn '/').map String.ofList).map String.toList =
        text.toList.splitOn '/' := by
      rw [List.map_map]
      have hid : String.toList ∘ String.ofList = id := funext fun cs => String.toList_ofList
      rw [hid, List.map_id]
    rw [hlists, List.intercalate_splitOn, String.ofList_toList]

theorem nsKey_append (p r : List String) :
    ∃ rest, (nsKey (p ++ r)).toList = (nsKey p).toList ++ rest := by
  rw [nsKey, nsKey, String.toList_ofList, String.toList_ofList, List.map_append]
  induction p with
  | nil => exact ⟨_, rfl⟩
  | cons a p ih =>
    obtain ⟨rest, hrest⟩ := ih
    cases p with
    | nil =>
      cases r with
      | nil => exact ⟨[], by simp⟩
      | cons b r =>
        refine ⟨'/' :: ['/'].intercalate ((b :: r).map String.toList), ?_⟩
        simp [List.intercalate_cons_cons]
    | cons b p =>
      refine ⟨rest, ?_⟩
      simp only [List.map_cons, List.cons_append, List.intercalate_cons_cons] at hrest ⊢
      rw [hrest]
      simp only [List.append_assoc]

/-! ## The table -/

/-- One row of `workspace_entries`, with the tuple it was put under. -/
structure Entry where
  tuple : List String
  value : Record
  createdAt : Nat
  updatedAt : Nat
  deriving DecidableEq

structure WorkspaceEntries where
  /-- By namespace text and key. -/
  rows : Table (String × String) Entry
  named : ∀ k e, rows.get k = some e → k.1 = nsKey e.tuple

abbrev Row := (String × String) × Entry

/-- A name that stays inside its place in the SQL text. -/
abbrev FieldName := { name : String // '\'' ∉ name.toList }

/-- `json_extract(value, '$.name') = ?` for every item of the filter. -/
abbrev Filter (φ : Type) := List (FieldName × φ)

inductive WorkspaceError where
  /-- A tuple the store interface refuses. -/
  | invalidNamespace
  /-- A value that JSON cannot hold. -/
  | notFinite
  deriving DecidableEq

namespace WorkspaceEntries

/-- A table without entries. -/
def empty : WorkspaceEntries := ⟨.empty, fun _ _ h => nomatch h⟩

/-- The row that `_do_put` writes: an existing entry keeps its time of creation. -/
def written (w : WorkspaceEntries) (ns : List String) (key : String) (value : Record)
    (now : Nat) : Entry :=
  match w.rows.get (nsKey ns, key) with
  | some e => { e with tuple := ns, value := value, updatedAt := now }
  | none => ⟨ns, value, now, now⟩

theorem written_tuple (w : WorkspaceEntries) (ns : List String) (key : String) (value : Record)
    (now : Nat) : (w.written ns key value now).tuple = ns := by
  unfold written
  split <;> rfl

/-- `_do_put` with a value. -/
def doPut (w : WorkspaceEntries) (ns : List String) (key : String) (value : Record) (now : Nat) :
    WorkspaceEntries where
  rows := w.rows.set (nsKey ns, key) (w.written ns key value now)
  named := by
    intro k e h
    rw [Table.get_set] at h
    split at h
    · rename_i hk
      cases h
      rw [hk, written_tuple]
    · exact w.named k e h

/-- `BaseStore.put`: `accepts` is the check of the tuple. -/
def put (accepts : List String → Bool) (w : WorkspaceEntries) (ns : List String) (key : String)
    (value : Record) (now : Nat) : Except WorkspaceError WorkspaceEntries :=
  if accepts ns = false then .error .invalidNamespace
  else if value.finite = false then .error .notFinite
  else .ok (w.doPut ns key value now)

/-- `_do_put` without a value. -/
def delete (w : WorkspaceEntries) (ns : List String) (key : String) : WorkspaceEntries where
  rows := w.rows.erase (nsKey ns, key)
  named := by
    intro k e h
    rw [Table.get_erase] at h
    split at h
    · cases h
    · exact w.named k e h

/-- `_do_get`. -/
def get (w : WorkspaceEntries) (ns : List String) (key : String) : Option Record :=
  (w.rows.get (nsKey ns, key)).map Entry.value

/-! ## Searching and listing -/

/-- The rows by time of creation; rows of one instant stay in the order of the table. -/
def byCreation (w : WorkspaceEntries) : List Row :=
  w.rows.rows.insertionSort fun a b => a.2.createdAt ≤ b.2.createdAt

/-- The pattern of `_do_search`. -/
def searchPattern (ns : List String) : List Char :=
  if nsKey ns = "" then ['%'] else (nsKey ns).toList ++ ['%']

variable {φ : Type} (extracts : String → φ → Record → Bool)

def passes (filter : Filter φ) (e : Entry) : Bool :=
  filter.all fun f => extracts f.1.1 f.2 e.value

/-- The rows of the `WHERE` clause of `_do_search`, in its order. -/
def matching (w : WorkspaceEntries) (ns : List String) (filter : Filter φ) : List Row :=
  w.byCreation.filter fun row =>
    like (searchPattern ns) row.1.1.toList && passes extracts filter row.2

def searchRows (w : WorkspaceEntries) (ns : List String) (filter : Filter φ)
    (limit offset : Int) : List Row :=
  queryWindow (w.matching extracts ns filter) limit offset

end WorkspaceEntries

structure SearchItem where
  value : Record
  key : String
  tuple : List String
  createdAt : Nat
  updatedAt : Nat
  deriving DecidableEq

namespace WorkspaceEntries

def doSearch {φ : Type} (extracts : String → φ → Record → Bool) (w : WorkspaceEntries)
    (ns : List String) (filter : Filter φ) (limit offset : Int) : List SearchItem :=
  (w.searchRows extracts ns filter limit offset).map fun row =>
    ⟨row.2.value, row.1.2, splitKey row.1.1, row.2.createdAt, row.2.updatedAt⟩

/-- The namespace texts that begin like `ns`, in order. -/
def matchingTexts (w : WorkspaceEntries) (ns : List String) : List String :=
  ((w.rows.rows.map fun row => row.1.1).dedup.filter
    fun text => like ((nsKey ns).toList ++ ['%']) text.toList).insertionSort (· ≤ ·)

/-- `parts[:max_depth]` where there are more parts. -/
def cutDepth (maxDepth : Option Int) (parts : List String) : List String :=
  match maxDepth with
  | none => parts
  | some d => if d < parts.length then slice parts 0 d else parts

/-- `_do_list_namespaces` with one match condition, of a beginning. -/
def doListNamespaces (w : WorkspaceEntries) (ns : List String) (maxDepth : Option Int)
    (limit offset : Int) : List (List String) :=
  (queryWindow (w.matchingTexts ns) limit offset).map fun text => cutDepth maxDepth (splitKey text)

end WorkspaceEntries

/-! ## Scopes -/

structure ScopedWorkspace where
  namespacePrefix : List String

/-- `(sub,) if sub else ()`. -/
def subPath : Option String → List String
  | none => []
  | some sub => if sub = "" then [] else [sub]

namespace ScopedWorkspace

variable (s : ScopedWorkspace) {φ : Type} (extracts : String → φ → Record → Bool)

/-- The tuple of every operation, with its `sub`. -/
def scope (sub : Option String) : List String := s.namespacePrefix ++ subPath sub

def put (accepts : List String → Bool) (w : WorkspaceEntries) (key : String) (value : Record)
    (sub : Option String) (now : Nat) : Except WorkspaceError WorkspaceEntries :=
  w.put accepts (s.scope sub) key value now

def get (w : WorkspaceEntries) (key : String) (sub : Option String) : Option Record :=
  w.get (s.scope sub) key

def delete (w : WorkspaceEntries) (key : String) (sub : Option String) : WorkspaceEntries :=
  w.delete (s.scope sub) key

def search (w : WorkspaceEntries) (filter : Filter φ) (limit offset : Int)
    (sub : Option String) : List Record :=
  (w.doSearch extracts (s.scope sub) filter limit offset).map SearchItem.value

def listNamespaces (w : WorkspaceEntries) (maxDepth : Option Int) (limit offset : Int) :
    List (List String) :=
  w.doListNamespaces s.namespacePrefix maxDepth limit offset

end ScopedWorkspace

structure WorkspaceCollection where
  workspace : ScopedWorkspace
  name : String
  name_ne : name ≠ ""

namespace WorkspaceCollection

variable (c : WorkspaceCollection) {φ : Type} (extracts : String → φ → Record → Bool)

def scope : List String := c.workspace.scope (some c.name)

def find (w : WorkspaceEntries) (filters : Filter φ) : List Record :=
  c.workspace.search extracts w filters 10000 0 (some c.name)

def list (w : WorkspaceEntries) : List Record :=
  c.workspace.search extracts w [] 10000 0 (some c.name)

end WorkspaceCollection

/-! ## What belongs to a scope -/

/-- A tuple extends another one, component by component. -/
def extendsBy (p ns : List String) : Bool := p.isPrefixOf ns

theorem extendsBy_iff {p ns : List String} : extendsBy p ns = true ↔ ∃ r, ns = p ++ r := by
  rw [extendsBy, List.isPrefixOf_iff_prefix]
  constructor
  · rintro ⟨r, h⟩
    exact ⟨r, h.symm⟩
  · rintro ⟨r, h⟩
    exact ⟨r, h.symm⟩

namespace WorkspaceEntries

variable {w : WorkspaceEntries} {φ : Type} {extracts : String → φ → Record → Bool}

/-- The entries whose tuple has a property, in the order of a search. -/
def within (w : WorkspaceEntries) (extracts : String → φ → Record → Bool)
    (belongs : List String → Bool) (filter : Filter φ) : List Row :=
  w.byCreation.filter fun row => belongs row.2.tuple && passes extracts filter row.2

/-- The tuples that extend `p`, in the order of a listing. -/
def tuplesWithin (w : WorkspaceEntries) (p : List String) : List (List String) :=
  ((w.rows.rows.map fun row => row.2.tuple).dedup.filter fun ns => extendsBy p ns).insertionSort
    fun a b => nsKey a ≤ nsKey b

theorem row_named {row : Row} (h : row ∈ w.rows.rows) : row.1.1 = nsKey row.2.tuple :=
  w.named row.1 row.2 (w.rows.mem_rows_iff.mp h)

theorem mem_byCreation {row : Row} : row ∈ w.byCreation ↔ row ∈ w.rows.rows :=
  List.mem_insertionSort _

theorem byCreation_nodup : w.byCreation.Nodup := by
  have hrows : w.rows.rows.Nodup := List.Nodup.of_map _ w.rows.nodup
  exact (List.perm_insertionSort _ _).nodup_iff.mpr hrows

/-- **Nothing of a scope is missed**: an entry whose tuple extends `p` matches the pattern. -/
theorem like_scope {p ns : List String} (h : extendsBy p ns = true) :
    like (searchPattern p) (nsKey ns).toList = true := by
  obtain ⟨r, rfl⟩ := extendsBy_iff.mp h
  obtain ⟨rest, hrest⟩ := nsKey_append p r
  rw [searchPattern, hrest]
  split
  · exact like_prefix [] _
  · exact like_prefix _ rest

/-- Where the property implies the pattern, what belongs is the matching rows, filtered. -/
theorem within_eq_filter {belongs : List String → Bool} {p : List String}
    (h : ∀ ns, belongs ns = true → extendsBy p ns = true) (filter : Filter φ) :
    w.within extracts belongs filter =
      (w.matching extracts p filter).filter fun row => belongs row.2.tuple := by
  rw [within, matching, List.filter_filter]
  apply List.filter_congr
  intro row hrow
  cases hb : belongs row.2.tuple with
  | false => rw [Bool.false_and, Bool.false_and]
  | true =>
    have hlike := like_scope (h _ hb)
    rw [row_named (mem_byCreation.mp hrow), hlike, Bool.true_and, Bool.true_and]

/-- **One search**: it shows what belongs exactly when the rows it walks through belong. -/
theorem searchRows_iff {belongs : List String → Bool} {p : List String}
    (h : ∀ ns, belongs ns = true → extendsBy p ns = true) (filter : Filter φ)
    (limit offset : Int) :
    w.searchRows extracts p filter limit offset =
        queryWindow (w.within extracts belongs filter) limit offset ↔
      queryEmpty (w.matching extracts p filter) limit offset ∨
        ∀ row ∈ queryReach (w.matching extracts p filter) limit offset,
          belongs row.2.tuple = true := by
  have hnodup : (w.matching extracts p filter).Nodup := byCreation_nodup.filter _
  rw [within_eq_filter h, searchRows, eq_comm]
  exact queryWindow_filter_iff hnodup limit offset

theorem mem_matching {p : List String} {filter : Filter φ} {row : Row} :
    row ∈ w.matching extracts p filter ↔ row ∈ w.rows.rows ∧
      like (searchPattern p) row.1.1.toList = true ∧ passes extracts filter row.2 = true := by
  rw [matching, List.mem_filter, mem_byCreation, Bool.and_eq_true]

theorem searchPattern_eq (p : List String) : searchPattern p = (nsKey p).toList ++ ['%'] := by
  rw [searchPattern]
  split
  · rename_i h
    rw [h]
    rfl
  · rfl

theorem mem_matchingTexts {p : List String} {text : String} :
    text ∈ w.matchingTexts p ↔
      (∃ row ∈ w.rows.rows, row.1.1 = text) ∧ like (searchPattern p) text.toList = true := by
  rw [matchingTexts, List.mem_insertionSort, List.mem_filter, List.mem_dedup, List.mem_map,
    searchPattern_eq]

theorem mem_tuplesWithin {p ns : List String} :
    ns ∈ w.tuplesWithin p ↔
      (∃ row ∈ w.rows.rows, row.2.tuple = ns) ∧ extendsBy p ns = true := by
  rw [tuplesWithin, List.mem_insertionSort, List.mem_filter, List.mem_dedup, List.mem_map]

end WorkspaceEntries

/-! ## Isolation -/

variable {φ : Type} (extracts : String → φ → Record → Bool)

/-- What a scope is shown is what lies in it: the descendants for a search or a listing, the tuple
    itself for a collection. -/
structure Isolated (w : WorkspaceEntries) (s : ScopedWorkspace) : Prop where
  search : ∀ (sub : Option String) (filter : Filter φ) (limit offset : Int),
    w.searchRows extracts (s.scope sub) filter limit offset =
      queryWindow (w.within extracts (extendsBy (s.scope sub)) filter) limit offset
  listing : ∀ (maxDepth : Option Int) (limit offset : Int),
    s.listNamespaces w maxDepth limit offset =
      (queryWindow (w.tuplesWithin s.namespacePrefix) limit offset).map
        (WorkspaceEntries.cutDepth maxDepth)
  collection : ∀ c : WorkspaceCollection, c.workspace = s → ∀ filters : Filter φ,
    w.searchRows extracts c.scope filters 10000 0 =
      queryWindow (w.within extracts (fun ns => decide (ns = c.scope)) filters) 10000 0

/-- The pattern of a scope finds nothing that lies outside. -/
structure Separated (w : WorkspaceEntries) (s : ScopedWorkspace) : Prop where
  /-- A stored text that matches belongs to a tuple of the scope. -/
  search : ∀ sub, ∀ row ∈ w.rows.rows,
    like (WorkspaceEntries.searchPattern (s.scope sub)) row.1.1.toList = true →
      extendsBy (s.scope sub) row.2.tuple = true
  /-- And it splits into that tuple again. -/
  listing : ∀ row ∈ w.rows.rows,
    like (WorkspaceEntries.searchPattern s.namespacePrefix) row.1.1.toList = true →
      splitKey row.1.1 = row.2.tuple
  /-- The first entries that match the pattern of a collection are stored under its own tuple. -/
  collection : ∀ c : WorkspaceCollection, c.workspace = s → ∀ filters : Filter φ,
    ∀ row ∈ (w.matching extracts c.scope filters).take 10000, row.2.tuple = c.scope

namespace WorkspaceEntries

variable {w : WorkspaceEntries} {p : List String}

/-- Where matching texts split into tuples of the scope, the texts are the tuples. -/
theorem matchingTexts_map_splitKey
    (hown : ∀ row ∈ w.rows.rows, like (searchPattern p) row.1.1.toList = true →
      extendsBy p row.2.tuple = true)
    (hsplit : ∀ row ∈ w.rows.rows, like (searchPattern p) row.1.1.toList = true →
      splitKey row.1.1 = row.2.tuple) :
    (w.matchingTexts p).map splitKey = w.tuplesWithin p := by
  have hback : ∀ ns ∈ w.tuplesWithin p, splitKey (nsKey ns) = ns := by
    intro ns hns
    obtain ⟨⟨row, hrow, rfl⟩, hext⟩ := mem_tuplesWithin.mp hns
    have hlike := like_scope hext
    rw [← row_named hrow] at hlike ⊢
    exact hsplit row hrow hlike
  refine @List.Perm.eq_of_pairwise _ (fun a b => nsKey a ≤ nsKey b) _ _ ?_ ?_ ?_ ?_
  · intro a b ha hb hab hba
    obtain ⟨text, -, rfl⟩ := List.mem_map.mp ha
    have hkeys : nsKey (splitKey text) = nsKey b := le_antisymm hab hba
    rw [nsKey_splitKey] at hkeys
    rw [hkeys, hback b hb]
  · rw [List.pairwise_map]
    have hsorted : (w.matchingTexts p).Pairwise (· ≤ ·) := List.pairwise_insertionSort _ _
    exact hsorted.imp fun hab => by rw [nsKey_splitKey, nsKey_splitKey]; exact hab
  · have htotal : Std.Total fun a b : List String => nsKey a ≤ nsKey b :=
      ⟨fun a b => le_total (nsKey a) (nsKey b)⟩
    have htrans : IsTrans (List String) fun a b => nsKey a ≤ nsKey b :=
      ⟨fun _ _ _ => le_trans⟩
    exact List.pairwise_insertionSort _ _
  · apply (List.perm_ext_iff_of_nodup ?_ ?_).mpr
    · intro ns
      rw [List.mem_map, mem_tuplesWithin]
      constructor
      · rintro ⟨text, htext, rfl⟩
        obtain ⟨⟨row, hrow, rfl⟩, hlike⟩ := mem_matchingTexts.mp htext
        rw [hsplit row hrow hlike]
        exact ⟨⟨row, hrow, rfl⟩, hown row hrow hlike⟩
      · intro hns
        have hmem := mem_tuplesWithin.mpr hns
        obtain ⟨⟨row, hrow, rfl⟩, hext⟩ := hns
        refine ⟨nsKey row.2.tuple, mem_matchingTexts.mpr ⟨⟨row, hrow, row_named hrow⟩, ?_⟩,
          hback _ hmem⟩
        exact like_scope hext
    · apply List.Nodup.map
      · intro a b hab
        have hkeys := congrArg nsKey hab
        rwa [nsKey_splitKey, nsKey_splitKey] at hkeys
      · exact (List.perm_insertionSort _ _).nodup_iff.mpr ((List.nodup_dedup _).filter _)
    · exact (List.perm_insertionSort _ _).nodup_iff.mpr ((List.nodup_dedup _).filter _)

end WorkspaceEntries

theorem extendsBy_self (ns : List String) : extendsBy ns ns = true :=
  extendsBy_iff.mpr ⟨[], (List.append_nil ns).symm⟩

theorem ScopedWorkspace.scope_none (s : ScopedWorkspace) : s.scope none = s.namespacePrefix :=
  List.append_nil _

/-- A search without filter that asks for every matching row shows them all. -/
theorem Isolated.separates_search {w : WorkspaceEntries} {s : ScopedWorkspace}
    (h : Isolated extracts w s) (sub : Option String) : ∀ row ∈ w.rows.rows,
      like (WorkspaceEntries.searchPattern (s.scope sub)) row.1.1.toList = true →
        extendsBy (s.scope sub) row.2.tuple = true := by
  intro row hrow hlike
  let rows := w.matching extracts (s.scope sub) []
  have hmem : row ∈ rows := WorkspaceEntries.mem_matching.mpr ⟨hrow, hlike, rfl⟩
  have hpos : 0 < rows.length := List.length_pos_of_mem hmem
  rcases (WorkspaceEntries.searchRows_iff (fun _ hns => hns) [] rows.length 0).mp
    (h.search sub [] rows.length 0) with hempty | hall
  · have hnot : ¬ queryEmpty rows rows.length 0 := by
      rintro (h0 | hle)
      · omega
      · rw [Int.toNat_zero] at hle
        omega
    exact absurd hempty hnot
  · apply hall row
    have hlimit : ¬ ((rows.length : Nat) : Int) < 0 := by omega
    rw [queryReach, if_neg hlimit, Int.toNat_zero, Nat.zero_add, Int.toNat_natCast,
      List.take_length]
    exact hmem

/-- The tuple of a row that matches is listed, and only as the parts of a text. -/
theorem Isolated.separates_listing {w : WorkspaceEntries} {s : ScopedWorkspace}
    (h : Isolated extracts w s) : ∀ row ∈ w.rows.rows,
      like (WorkspaceEntries.searchPattern s.namespacePrefix) row.1.1.toList = true →
        splitKey row.1.1 = row.2.tuple := by
  intro row hrow hlike
  have hext := Isolated.separates_search extracts h none row hrow
  rw [s.scope_none] at hext
  have hmem : row.2.tuple ∈ w.tuplesWithin s.namespacePrefix :=
    WorkspaceEntries.mem_tuplesWithin.mpr ⟨⟨row, hrow, rfl⟩, hext hlike⟩
  have hlisted := h.listing none (-1) 0
  have hall : ∀ {α : Type} (xs : List α), queryWindow xs (-1) 0 = xs := fun xs => rfl
  rw [ScopedWorkspace.listNamespaces, WorkspaceEntries.doListNamespaces, hall, hall] at hlisted
  have hid : (w.tuplesWithin s.namespacePrefix).map (WorkspaceEntries.cutDepth none) =
      w.tuplesWithin s.namespacePrefix := List.map_id _
  rw [hid] at hlisted
  rw [← hlisted] at hmem
  obtain ⟨text, -, htext⟩ := List.mem_map.mp hmem
  have hsplit : splitKey text = row.2.tuple := htext
  rw [WorkspaceEntries.row_named hrow, ← hsplit, nsKey_splitKey]

/-- **Isolation**: a scope and its collections are shown exactly what lies in them if and only if
    the scope's pattern finds nothing that lies outside. -/
theorem workspace_isolated_iff (w : WorkspaceEntries) (s : ScopedWorkspace) :
    Isolated extracts w s ↔ Separated extracts w s := by
  have hscope := s.scope_none
  have hbelongs : ∀ (c : WorkspaceCollection) (ns : List String),
      decide (ns = c.scope) = true → extendsBy c.scope ns = true :=
    fun c ns hns => (of_decide_eq_true hns) ▸ extendsBy_self c.scope
  constructor
  · intro h
    refine ⟨h.separates_search, h.separates_listing, ?_⟩
    intro c hc filters row hrow
    rcases (WorkspaceEntries.searchRows_iff (hbelongs c) filters 10000 0).mp
      (h.collection c hc filters) with hempty | hall
    · rcases hempty with h0 | hle
      · cases h0
      · have hpos := List.length_pos_of_mem (List.mem_of_mem_take hrow)
        rw [Int.toNat_zero] at hle
        omega
    · exact of_decide_eq_true (hall row hrow)
  · intro h
    refine ⟨fun sub filter limit offset => ?_, fun maxDepth limit offset => ?_,
      fun c hc filters => ?_⟩
    · apply (WorkspaceEntries.searchRows_iff (fun _ hns => hns) filter limit offset).mpr
      right
      intro row hrow
      have hmem : row ∈ w.matching extracts (s.scope sub) filter := by
        unfold queryReach at hrow
        split at hrow
        · exact hrow
        · exact List.mem_of_mem_take hrow
      obtain ⟨hrows, hlike, -⟩ := WorkspaceEntries.mem_matching.mp hmem
      exact h.search sub row hrows hlike
    · have htexts := WorkspaceEntries.matchingTexts_map_splitKey
        (fun row hrow hlike => hscope ▸ h.search none row hrow (hscope.symm ▸ hlike)) h.listing
      rw [ScopedWorkspace.listNamespaces, WorkspaceEntries.doListNamespaces, ← htexts]
      rw [queryWindow_map, List.map_map]
      rfl
    · apply (WorkspaceEntries.searchRows_iff (hbelongs c) filters 10000 0).mpr
      right
      intro row hrow
      exact decide_eq_true (h.collection c hc filters row hrow)

/-- The thread `t1` is shown what the thread `t10` has put. -/
theorem sibling_found :
    let accepts (ns : List String) : Bool :=
      !ns.isEmpty && ns.all fun name => !(name.isEmpty || name.toList.elem '.')
    let extracts (name : String) (expected : Json) (value : Record) : Bool :=
      decide (value.get name = some expected)
    ∃ w, ScopedWorkspace.put ⟨["workspace", "reason", "t10"]⟩ accepts .empty "note" .empty none 0 =
        .ok w ∧
      ¬ Isolated extracts w ⟨["workspace", "reason", "t1"]⟩ := by
  intro accepts extracts
  refine ⟨_, rfl, fun h => ?_⟩
  have hsearch := h.search none [] 10 0
  revert hsearch
  decide +kernel

end NuSelf.Storage
