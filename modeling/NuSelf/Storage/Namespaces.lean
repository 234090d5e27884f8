/-
  Listing the namespaces of a store, page by page.

  `_do_list_namespaces` asks SQLite for the different texts that the patterns of its conditions
  find, in order, and for a window of them; the tuples that these texts split into are cut
  afterwards.  So two texts on a page may be cut to one tuple, and a page may end before all tuples
  are there.

  1. `doListNamespaces_eq` — the listing of a scope is one with its prefix for the only condition.
  2. `listing_right_iff` — when every page is right.
-/
import Mathlib.Data.List.Perm.Subperm
import NuSelf.Storage.Workspace

namespace NuSelf.Storage

open NuSelf.Lib

/-! ## Listing -/

inductive MatchCondition where
  | ofPrefix (path : List String)
  | ofSuffix (path : List String)

namespace MatchCondition

/-- `namespace LIKE ?`. -/
def finds : MatchCondition → String → Bool
  | ofPrefix path, text => like ((nsKey path).toList ++ ['%']) text.toList
  | ofSuffix path, text => like ('%' :: (nsKey path).toList) text.toList

/-- The tuple begins, or ends, with these components. -/
def holds : MatchCondition → List String → Bool
  | ofPrefix path, ns => path.isPrefixOf ns
  | ofSuffix path, ns => path.isSuffixOf ns

end MatchCondition

structure ListNamespacesOp where
  match_conditions : List MatchCondition
  max_depth : Option Int
  limit : Int
  offset : Int

namespace WorkspaceEntries

variable (w : WorkspaceEntries) (match_conditions : List MatchCondition) (max_depth : Option Int)

/-- `SELECT DISTINCT namespace`, with the conditions, in order. -/
def listTexts : List String :=
  ((w.rows.rows.map fun row => row.1.1).dedup.filter
    fun text => match_conditions.all (·.finds text)).insertionSort (· ≤ ·)

/-- `_do_list_namespaces`. -/
def listPage (op : ListNamespacesOp) : List (List String) :=
  (queryWindow (w.listTexts op.match_conditions) op.limit op.offset).map fun text =>
    cutDepth op.max_depth (splitKey text)

/-- **A scope** lists with its prefix. -/
theorem doListNamespaces_eq (ns : List String) (limit offset : Int) :
    w.doListNamespaces ns max_depth limit offset =
      w.listPage ⟨[.ofPrefix ns], max_depth, limit, offset⟩ := by
  have htexts : w.listTexts [.ofPrefix ns] = w.matchingTexts ns := by
    refine congrArg (List.insertionSort _) (List.filter_congr fun text _ => ?_)
    exact Bool.and_true _
  rw [doListNamespaces, listPage, htexts]

/-! ## What a listing is to return -/

/-- The truncations of the stored namespaces that meet the conditions, each of them once. -/
def truncations : List (List String) :=
  (((w.rows.rows.map fun row => row.2.tuple).filter
    fun ns => match_conditions.all (·.holds ns)).map (cutDepth max_depth)).dedup

structure RightPage (op : ListNamespacesOp) (page : List (List String)) : Prop where
  distinct : page.Nodup
  truncated : ∀ ns ∈ page, ns ∈ w.truncations op.match_conditions op.max_depth
  /-- As many as there are behind the offset, up to the limit. -/
  full : page.length =
    (queryWindow (w.truncations op.match_conditions op.max_depth) op.limit op.offset).length

/-- The row is found by the patterns. -/
def Found (row : Row) : Prop :=
  row ∈ w.rows.rows ∧ ∀ mc ∈ match_conditions, mc.finds row.1.1 = true

/-- The row is stored under a tuple that meets the conditions. -/
def Meets (row : Row) : Prop :=
  row ∈ w.rows.rows ∧ ∀ mc ∈ match_conditions, mc.holds row.2.tuple = true

/-- What the patterns find, and what meets the conditions, is the same when it has been cut, and
    what they find is told apart by the parts that are left. -/
structure CutsApart : Prop where
  apart : ∀ row row', w.Found match_conditions row → w.Found match_conditions row' →
    cutDepth max_depth (splitKey row.1.1) = cutDepth max_depth (splitKey row'.1.1) →
      row.1.1 = row'.1.1
  sound : ∀ row, w.Found match_conditions row → ∃ row', w.Meets match_conditions row' ∧
    cutDepth max_depth row'.2.tuple = cutDepth max_depth (splitKey row.1.1)
  complete : ∀ row, w.Meets match_conditions row → ∃ row', w.Found match_conditions row' ∧
    cutDepth max_depth (splitKey row'.1.1) = cutDepth max_depth row.2.tuple

variable {w match_conditions max_depth}

theorem mem_listTexts {text : String} : text ∈ w.listTexts match_conditions ↔
    ∃ row, w.Found match_conditions row ∧ row.1.1 = text := by
  rw [listTexts, List.mem_insertionSort, List.mem_filter, List.mem_dedup, List.mem_map,
    List.all_eq_true]
  constructor
  · rintro ⟨⟨row, hrow, rfl⟩, hfinds⟩
    exact ⟨row, ⟨hrow, hfinds⟩, rfl⟩
  · rintro ⟨row, ⟨hrow, hfinds⟩, rfl⟩
    exact ⟨⟨row, hrow, rfl⟩, hfinds⟩

theorem listTexts_nodup : (w.listTexts match_conditions).Nodup :=
  (List.perm_insertionSort _ _).nodup_iff.mpr ((List.nodup_dedup _).filter _)

theorem mem_truncations {ns : List String} : ns ∈ w.truncations match_conditions max_depth ↔
    ∃ row, w.Meets match_conditions row ∧ cutDepth max_depth row.2.tuple = ns := by
  rw [truncations, List.mem_dedup, List.mem_map]
  constructor
  · rintro ⟨_, hmem, rfl⟩
    obtain ⟨hstored, hholds⟩ := List.mem_filter.mp hmem
    obtain ⟨row, hrow, rfl⟩ := List.mem_map.mp hstored
    exact ⟨row, ⟨hrow, List.all_eq_true.mp hholds⟩, rfl⟩
  · rintro ⟨row, ⟨hrow, hholds⟩, rfl⟩
    refine ⟨row.2.tuple, List.mem_filter.mpr ⟨List.mem_map_of_mem hrow, ?_⟩, rfl⟩
    exact List.all_eq_true.mpr hholds

/-- The whole listing, on one page. -/
def cutTexts (w : WorkspaceEntries) (match_conditions : List MatchCondition)
    (max_depth : Option Int) : List (List String) :=
  (w.listTexts match_conditions).map fun text => cutDepth max_depth (splitKey text)

/-- **The texts are the truncations** where they are cut apart, and only there. -/
theorem cutTexts_perm_iff :
    (w.cutTexts match_conditions max_depth).Perm (w.truncations match_conditions max_depth) ↔
      w.CutsApart match_conditions max_depth := by
  have htruncations : (w.truncations match_conditions max_depth).Nodup := List.nodup_dedup _
  have hmem : ∀ {ns}, ns ∈ w.cutTexts match_conditions max_depth ↔
      ∃ row, w.Found match_conditions row ∧ cutDepth max_depth (splitKey row.1.1) = ns := by
    intro ns
    rw [cutTexts, List.mem_map]
    constructor
    · rintro ⟨text, htext, rfl⟩
      obtain ⟨row, hrow, rfl⟩ := mem_listTexts.mp htext
      exact ⟨row, hrow, rfl⟩
    · rintro ⟨row, hrow, rfl⟩
      exact ⟨row.1.1, mem_listTexts.mpr ⟨row, hrow, rfl⟩, rfl⟩
  constructor
  · intro hperm
    have hnodup := hperm.nodup_iff.mpr htruncations
    refine ⟨fun row row' hrow hrow' hcut => ?_, fun row hrow => ?_, fun row hrow => ?_⟩
    · exact List.inj_on_of_nodup_map hnodup (mem_listTexts.mpr ⟨row, hrow, rfl⟩)
        (mem_listTexts.mpr ⟨row', hrow', rfl⟩) hcut
    · exact mem_truncations.mp (hperm.mem_iff.mp (hmem.mpr ⟨row, hrow, rfl⟩))
    · exact hmem.mp (hperm.mem_iff.mpr (mem_truncations.mpr ⟨row, hrow, rfl⟩))
  · rintro ⟨hapart, hsound, hcomplete⟩
    have hnodup : (w.cutTexts match_conditions max_depth).Nodup := by
      refine List.Nodup.map_on (fun text htext text' htext' hcut => ?_) listTexts_nodup
      obtain ⟨row, hrow, rfl⟩ := mem_listTexts.mp htext
      obtain ⟨row', hrow', rfl⟩ := mem_listTexts.mp htext'
      exact hapart row row' hrow hrow' hcut
    refine (List.perm_ext_iff_of_nodup hnodup htruncations).mpr fun ns => ?_
    rw [hmem, mem_truncations]
    constructor
    · rintro ⟨row, hrow, rfl⟩
      exact hsound row hrow
    · rintro ⟨row, hrow, rfl⟩
      exact hcomplete row hrow

theorem listPage_eq (limit offset : Int) :
    w.listPage ⟨match_conditions, max_depth, limit, offset⟩ =
      queryWindow (w.cutTexts match_conditions max_depth) limit offset :=
  (queryWindow_map _ _ limit offset).symm

end WorkspaceEntries

open WorkspaceEntries

/-- **Every page is right**, whatever its limit and offset, exactly where what the patterns find is
    cut apart. -/
theorem listing_right_iff (w : WorkspaceEntries) (match_conditions : List MatchCondition)
    (max_depth : Option Int) :
    (∀ limit offset, w.RightPage ⟨match_conditions, max_depth, limit, offset⟩
      (w.listPage ⟨match_conditions, max_depth, limit, offset⟩)) ↔
      w.CutsApart match_conditions max_depth := by
  rw [← cutTexts_perm_iff]
  constructor
  · intro h
    obtain ⟨hdistinct, htruncated, hfull⟩ := h (-1) 0
    rw [listPage_eq] at hdistinct htruncated hfull
    -- without a limit the page is the whole listing
    exact (List.subperm_of_subset hdistinct htruncated).perm_of_length_le (Nat.le_of_eq hfull.symm)
  · intro hperm limit offset
    have hnodup := hperm.nodup_iff.mpr (List.nodup_dedup _)
    have hpage := queryWindow_sublist (w.cutTexts match_conditions max_depth) limit offset
    rw [listPage_eq]
    refine ⟨hnodup.sublist hpage, fun ns hns => hperm.mem_iff.mp (hpage.subset hns), ?_⟩
    exact queryWindow_length hperm.length_eq limit offset

/-- Two branches under one root. -/
def twoBranches : WorkspaceEntries :=
  (WorkspaceEntries.empty.doPut ["a", "b"] "note" .empty 0).doPut ["a", "c"] "note" .empty 1

/-- **Listed twice**: a namespace that two others are cut to. -/
theorem branches_listed_twice :
    ¬ twoBranches.RightPage ⟨[], some 1, 100, 0⟩
      (twoBranches.listPage ⟨[], some 1, 100, 0⟩) := by
  intro h
  have hlisted : twoBranches.listPage ⟨[], some 1, 100, 0⟩ = [["a"], ["a"]] := by decide +kernel
  have hdistinct := h.distinct
  rw [hlisted] at hdistinct
  exact absurd hdistinct (by decide)

end NuSelf.Storage
