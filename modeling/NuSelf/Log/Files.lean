/-
  The log files of one component: the active file and its numbered backups.

  A reader goes through them from the oldest backup to the active file (`componentLogPaths`), so to
  it the log is one list of files (`liveFiles`).  A rotation is a row of file operations, and any of
  them may be the last that goes through.

  1. `liveFiles_eq` — with backups numbered up to `n` only, the list is read off the numbers.
  2. `rotate_liveFiles` — wherever a rotation stops, the list has lost at most its oldest file: a
     rename needs the number above to be free, and the operation before it has just freed it.
-/
import Mathlib.Data.List.Sort
import NuSelf.Lib.Table

namespace NuSelf.Log

open NuSelf.Lib

abbrev Bytes := List UInt8

/-! ## The directory -/

/-- `path`, and `_rotated_log_path(path, index)`. -/
inductive LogName where
  | active
  | backup (index : Nat)
  deriving DecidableEq

/-- A file; the number of its creation tells it from the others, the inode may be used again. -/
structure LogFile where
  birth : Nat
  inode : Nat
  content : Bytes
  deriving DecidableEq

structure LogDir where
  files : Table LogName LogFile
  /-- How many files have been created. -/
  born : Nat

/-- No file yet. -/
def LogDir.fresh : LogDir := ⟨.empty, 0⟩

def LogName.backupIndex : LogName → Option Nat
  | .active => none
  | .backup index => some index

/-- `component_log_paths`: the numbered files, highest number first, and the active one. -/
def componentLogPaths (dir : LogDir) : List LogName :=
  ((dir.files.keys.filterMap LogName.backupIndex).insertionSort (· ≥ ·)).map .backup ++ [.active]

/-- The files in the order of their paths; a path without a file is passed over. -/
def liveFiles (dir : LogDir) : List LogFile := (componentLogPaths dir).filterMap dir.files.get

/-! ## File operations -/

structure LogRetentionPolicy where
  max_bytes : Nat
  backup_count : Nat
  max_bytes_pos : 1 ≤ max_bytes
  backup_count_pos : 1 ≤ backup_count

inductive FileOp where
  /-- `unlink(missing_ok=True)`. -/
  | unlink (name : LogName)
  /-- `replace`, when the source exists. -/
  | replace (source target : LogName)

def LogDir.apply (dir : LogDir) : FileOp → LogDir
  | .unlink name => { dir with files := dir.files.erase name }
  | .replace source target =>
    match dir.files.get source with
    | none => dir
    | some file => { dir with files := (dir.files.erase source).set target file }

/-- The backups from `index` down to the first, each to the next number. -/
def shifts : Nat → List FileOp
  | 0 => []
  | index + 1 => .replace (.backup (index + 1)) (.backup (index + 2)) :: shifts index

/-- The file operations of one rotation. -/
def rotation (backup_count : Nat) : List FileOp :=
  .unlink (.backup backup_count) :: (shifts (backup_count - 1) ++ [.replace .active (.backup 1)])

/-- So many operations of a rotation, one after the other. -/
def rotate (backup_count steps : Nat) (dir : LogDir) : LogDir :=
  ((rotation backup_count).take steps).foldl LogDir.apply dir

/-- `_rotate_log_if_needed`, of whose file operations `steps` go through. -/
def rotateLogIfNeeded (policy : LogRetentionPolicy) (incoming_bytes steps : Nat) (dir : LogDir) :
    LogDir :=
  match dir.files.get .active with
  | none => dir
  | some file =>
    let current_size := file.content.length
    if current_size = 0 ∨ current_size + incoming_bytes ≤ policy.max_bytes then dir
    else rotate policy.backup_count steps dir

/-! ## The files as a list -/

/-- No backup has a number past `n`. -/
def Bounded (n : Nat) (dir : LogDir) : Prop :=
  ∀ i file, dir.files.get (.backup i) = some file → 1 ≤ i ∧ i ≤ n

/-- The files numbered `n` to 1. -/
def backups (dir : LogDir) : Nat → List LogFile
  | 0 => []
  | n + 1 => (dir.files.get (.backup (n + 1))).toList ++ backups dir n

/-- The numbers `n` to 1 that are taken. -/
def taken (dir : LogDir) : Nat → List Nat
  | 0 => []
  | n + 1 => if dir.files.contains (.backup (n + 1)) then (n + 1) :: taken dir n else taken dir n

theorem mem_taken {dir : LogDir} {i : Nat} : ∀ {n : Nat},
    i ∈ taken dir n ↔ (1 ≤ i ∧ i ≤ n) ∧ dir.files.contains (.backup i) = true
  | 0 => by
    simp only [taken, List.not_mem_nil, false_iff, not_and]
    omega
  | n + 1 => by
    rw [taken]
    split
    · rename_i hn
      rw [List.mem_cons, mem_taken]
      constructor
      · rintro (rfl | ⟨hi, hc⟩)
        · exact ⟨by omega, hn⟩
        · exact ⟨by omega, hc⟩
      · rintro ⟨hi, hc⟩
        by_cases h : i = n + 1
        · exact .inl h
        · exact .inr ⟨by omega, hc⟩
    · rename_i hn
      rw [mem_taken]
      constructor
      · rintro ⟨hi, hc⟩
        exact ⟨by omega, hc⟩
      · rintro ⟨hi, hc⟩
        have h : i ≠ n + 1 := by
          rintro rfl
          exact hn hc
        exact ⟨by omega, hc⟩

theorem taken_descending (dir : LogDir) : ∀ n : Nat, (taken dir n).Pairwise (· > ·)
  | 0 => List.Pairwise.nil
  | n + 1 => by
    rw [taken]
    split
    · refine List.pairwise_cons.mpr ⟨fun i hi => ?_, taken_descending dir n⟩
      have := (mem_taken.mp hi).1
      omega
    · exact taken_descending dir n

theorem files_taken (dir : LogDir) : ∀ n : Nat,
    (taken dir n).filterMap (fun i => dir.files.get (.backup i)) = backups dir n
  | 0 => rfl
  | n + 1 => by
    rw [taken, backups, Table.contains]
    cases hget : dir.files.get (.backup (n + 1)) with
    | none => exact files_taken dir n
    | some file =>
      rw [if_pos (Option.isSome_some), List.filterMap_cons, hget]
      exact congrArg (file :: ·) (files_taken dir n)

theorem sorted_indexes {n : Nat} {dir : LogDir} (h : Bounded n dir) :
    (dir.files.keys.filterMap LogName.backupIndex).insertionSort (· ≥ ·) = taken dir n := by
  have hmem : ∀ i, i ∈ dir.files.keys.filterMap LogName.backupIndex ↔ i ∈ taken dir n := by
    intro i
    rw [mem_taken, List.mem_filterMap, Table.contains_iff]
    constructor
    · rintro ⟨name, hname, hi⟩
      cases name with
      | active => cases hi
      | backup index =>
        cases hi
        obtain ⟨file, hfile⟩ := dir.files.mem_keys_iff.mp hname
        exact ⟨h i file hfile, hname⟩
    · rintro ⟨-, hkey⟩
      exact ⟨_, hkey, rfl⟩
  have hnodup : (dir.files.keys.filterMap LogName.backupIndex).Nodup := by
    refine List.Nodup.filterMap (fun name name' i hi hi' => ?_) dir.files.nodup
    cases name with
    | active => cases hi
    | backup index =>
      cases name' with
      | active => cases hi'
      | backup index' =>
        cases hi
        cases hi'
        rfl
  have htaken : (taken dir n).Nodup := (taken_descending dir n).imp fun hgt => Nat.ne_of_gt hgt
  have hdescending : (taken dir n).Pairwise (· ≥ ·) := (taken_descending dir n).imp Nat.le_of_lt
  refine List.Perm.eq_of_pairwise (fun i j _ _ hij hji => Nat.le_antisymm hji hij)
    (List.pairwise_insertionSort _ _) hdescending ?_
  exact (List.perm_insertionSort _ _).trans ((List.perm_ext_iff_of_nodup hnodup htaken).mpr hmem)

/-- **The files by their numbers.** -/
theorem liveFiles_eq {n : Nat} {dir : LogDir} (h : Bounded n dir) :
    liveFiles dir = backups dir n ++ (dir.files.get .active).toList := by
  rw [liveFiles, componentLogPaths, sorted_indexes h, List.filterMap_append, List.filterMap_map,
    ← files_taken]
  congr 1

/-! ## Rotations -/

section

variable {dir dir' : LogDir} {n : Nat}

theorem backups_congr : ∀ {n : Nat}, (∀ i, 1 ≤ i → i ≤ n →
    dir'.files.get (.backup i) = dir.files.get (.backup i)) → backups dir' n = backups dir n
  | 0, _ => rfl
  | n + 1, h => by
    rw [backups, backups, h (n + 1) (by omega) (Nat.le_refl _),
      backups_congr fun i hi hin => h i hi (by omega)]

theorem backups_shift {i : Nat} (hi : 1 ≤ i)
    (hfree : dir.files.get (.backup (i + 1)) = none)
    (hmoved : dir'.files.get (.backup (i + 1)) = dir.files.get (.backup i))
    (hleft : dir'.files.get (.backup i) = none)
    (hother : ∀ j, j ≠ i → j ≠ i + 1 → dir'.files.get (.backup j) = dir.files.get (.backup j)) :
    ∀ {n : Nat}, i + 1 ≤ n → backups dir' n = backups dir n
  | n + 1, hn => by
    by_cases hlast : n = i
    · -- the two numbers are the highest two
      subst hlast
      obtain ⟨m, rfl⟩ : ∃ m, n = m + 1 := ⟨n - 1, by omega⟩
      have hrest : backups dir' m = backups dir m :=
        backups_congr fun j _ hj => hother j (by omega) (by omega)
      simp only [backups, hmoved, hleft, hfree, hrest, Option.toList_none, List.nil_append]
    · rw [backups, backups, hother (n + 1) (by omega) (by omega),
        backups_shift hi hfree hmoved hleft hother (by omega)]

theorem get_replace {source target name : LogName} {file : LogFile}
    (h : dir.files.get source = some file) :
    (dir.apply (.replace source target)).files.get name =
      if name = target then some file else if name = source then none
      else dir.files.get name := by
  simp only [LogDir.apply, h, Table.get_set, Table.get_erase]

theorem apply_replace_none {source target : LogName} (h : dir.files.get source = none) :
    dir.apply (.replace source target) = dir := by
  simp only [LogDir.apply, h]

/-- One shift: the list of files stays, and the number that was left is free. -/
theorem shift_step {i : Nat} (hi : 1 ≤ i) (hin : i + 1 ≤ n) (hbounded : Bounded n dir)
    (hfree : dir.files.get (.backup (i + 1)) = none) :
    let next := dir.apply (.replace (.backup i) (.backup (i + 1)))
    Bounded n next ∧ next.files.get (.backup i) = none ∧ liveFiles next = liveFiles dir := by
  intro next
  cases hsource : dir.files.get (.backup i) with
  | none =>
    have hsame : next = dir := apply_replace_none hsource
    rw [hsame]
    exact ⟨hbounded, hsource, rfl⟩
  | some file =>
    have hget : ∀ name, next.files.get name = if name = .backup (i + 1) then some file
        else if name = .backup i then none else dir.files.get name := fun _ => get_replace hsource
    have hbounded' : Bounded n next := by
      intro j file' hj
      rw [hget] at hj
      split at hj
      · rename_i heq
        cases heq
        omega
      · split at hj
        · cases hj
        · exact hbounded j file' hj
    have hleft : next.files.get (.backup i) = none := by
      rw [hget, if_neg (by simp), if_pos rfl]
    refine ⟨hbounded', hleft, ?_⟩
    rw [liveFiles_eq hbounded', liveFiles_eq hbounded, hget .active, if_neg (by simp),
      if_neg (by simp)]
    congr 1
    refine backups_shift hi hfree (by rw [hget, if_pos rfl, hsource]) hleft (fun j hj hj' => ?_) hin
    rw [hget, if_neg (by simp [hj']), if_neg (by simp [hj])]

theorem publish_step (hn : 1 ≤ n) (hbounded : Bounded n dir)
    (hfree : dir.files.get (.backup 1) = none) :
    let next := dir.apply (.replace .active (.backup 1))
    Bounded n next ∧ liveFiles next = liveFiles dir := by
  intro next
  cases hsource : dir.files.get .active with
  | none =>
    have hsame : next = dir := apply_replace_none hsource
    rw [hsame]
    exact ⟨hbounded, rfl⟩
  | some file =>
    have hget : ∀ name, next.files.get name = if name = .backup 1 then some file
        else if name = .active then none else dir.files.get name := fun _ => get_replace hsource
    have hbounded' : Bounded n next := by
      intro j file' hj
      rw [hget] at hj
      split at hj
      · rename_i heq
        cases heq
        omega
      · rw [if_neg (by simp)] at hj
        exact hbounded j file' hj
    refine ⟨hbounded', ?_⟩
    rw [liveFiles_eq hbounded', liveFiles_eq hbounded, hget .active, if_neg (by simp), if_pos rfl,
      hsource]
    have hone : ∀ m, 1 ≤ m → backups next m = backups dir m ++ [file] := by
      intro m hm
      induction m with
      | zero => omega
      | succ m ih =>
        rw [backups, backups, hget]
        by_cases hm0 : m = 0
        · subst hm0
          simp [backups, hfree]
        · rw [if_neg (by simp [hm0]), if_neg (by simp), ih (by omega), List.append_assoc]
    rw [hone n hn, Option.toList_none, List.append_nil, Option.toList_some]

/-- What is left of a rotation once number `i + 1` is free, and stops anywhere. -/
theorem shifts_liveFiles : ∀ (i steps : Nat) {dir : LogDir}, i + 1 ≤ n → Bounded n dir →
    dir.files.get (.backup (i + 1)) = none →
    let next := ((shifts i ++ [FileOp.replace .active (.backup 1)]).take steps).foldl LogDir.apply dir
    Bounded n next ∧ liveFiles next = liveFiles dir
  | _, 0, _, _, hbounded, _ => ⟨hbounded, rfl⟩
  | 0, steps + 1, dir, hn, hbounded, hfree => by
    simp only [shifts, List.nil_append, List.take_succ_cons, List.take_nil, List.foldl_cons,
      List.foldl_nil]
    exact publish_step hn hbounded hfree
  | i + 1, steps + 1, dir, hn, hbounded, hfree => by
    obtain ⟨hbounded', hfree', hsame⟩ := shift_step (Nat.succ_pos i) hn hbounded hfree
    obtain ⟨hbounded'', hrest⟩ := shifts_liveFiles i steps (by omega) hbounded' hfree'
    exact ⟨hbounded'', hrest.trans hsame⟩

/-- **Wherever it stops, a rotation loses at most the oldest file**, and nothing is reordered. -/
theorem rotate_liveFiles (hn : 1 ≤ n) (hbounded : Bounded n dir) (steps : Nat) :
    Bounded n (rotate n steps dir) ∧
      ∃ dropped, liveFiles dir = dropped ++ liveFiles (rotate n steps dir) := by
  cases steps with
  | zero => exact ⟨hbounded, [], rfl⟩
  | succ steps =>
    obtain ⟨m, rfl⟩ : ∃ m, n = m + 1 := ⟨n - 1, by omega⟩
    let removed := dir.apply (.unlink (.backup (m + 1)))
    have hget : ∀ name, removed.files.get name =
        if name = .backup (m + 1) then none else dir.files.get name := fun name =>
      Table.get_erase _ _ _
    have hbounded' : Bounded (m + 1) removed := by
      intro j file hj
      rw [hget] at hj
      split at hj
      · cases hj
      · exact hbounded j file hj
    have hfree : removed.files.get (.backup (m + 1)) = none := by rw [hget, if_pos rfl]
    obtain ⟨hfinal, hsame⟩ := shifts_liveFiles m steps (Nat.le_refl _) hbounded' hfree
    refine ⟨hfinal, (dir.files.get (.backup (m + 1))).toList, ?_⟩
    have hrest : backups removed m = backups dir m := by
      refine backups_congr fun i _ hi => ?_
      rw [hget, if_neg (by simp; omega)]
    have hremoved : liveFiles removed = backups dir m ++ (dir.files.get .active).toList := by
      rw [liveFiles_eq hbounded', backups, hfree, hrest, hget, if_neg (by simp)]
      rfl
    show liveFiles dir = _ ++ liveFiles (((shifts m ++ _).take steps).foldl LogDir.apply removed)
    rw [hsame, hremoved, liveFiles_eq hbounded, backups, List.append_assoc]

end

end NuSelf.Log
