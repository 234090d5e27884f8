/-
  Appending to a log that is rotated under a fixed policy.

  One append holds the lock of its log from the look at the size to the last byte, so appends come
  one after the other.  Each may stop anywhere: the rotation before it after any of its file
  operations, with an error that is reported or with the call, and the write with nothing, with all
  or with a part of the line left behind.

  1. **The code** — `openActive`, `writeActive`, `appendEncodedLogLine`, `appendLogEvent`.
  2. **The invariant** (`Keeps`) — the files, in the order they are read, hold whole entries, and
     these are a suffix of everything that the appends have left.
  3. `rotation_keeps_suffix` — so the text of the log is that suffix, after any appends.
  4. `log_bounded` — and it is no longer than the policy and the longest line allow.
-/
import NuSelf.Log.Files
import Mathlib.Algebra.Order.BigOperators.Group.List
import Mathlib.Algebra.Order.Group.Nat

namespace NuSelf.Log

open NuSelf.Lib

/-! ## Appends -/

/-- How far the rotation of an append gets. -/
inductive RotationFate where
  | completes
  /-- An `OSError` after so many file operations; the append goes on. -/
  | fails (steps : Nat)
  /-- The call, or the process, ends after so many file operations. -/
  | interrupted (steps : Nat)
  deriving DecidableEq

/-- What becomes of the line. -/
inductive WriteFate where
  /-- The file cannot be had. -/
  | unopened
  | persisted
  /-- The write fails and the file is cut back. -/
  | rolledBack
  /-- The file is not cut back: so many bytes of the line stay. -/
  | uncertain (count : Nat)
  deriving DecidableEq

structure Append where
  line : Bytes
  /-- The inode of the active file, if the append has to create it. -/
  inode : Nat
  rotation : RotationFate
  write : WriteFate

/-- `ensure_private_file` on the active path. -/
def openActive (inode : Nat) (dir : LogDir) : LogDir :=
  match dir.files.get .active with
  | some _ => dir
  | none => ⟨dir.files.set .active ⟨dir.born, inode, []⟩, dir.born + 1⟩

/-- Bytes at the end of the active file. -/
def writeActive (bytes : Bytes) (dir : LogDir) : LogDir :=
  match dir.files.get .active with
  | none => dir
  | some file => { dir with
      files := dir.files.set .active { file with content := file.content ++ bytes } }

def appendEncodedLogLine (a : Append) (dir : LogDir) : LogDir :=
  match a.write with
  | .unopened => dir
  | .persisted => writeActive a.line (openActive a.inode dir)
  | .rolledBack => openActive a.inode dir
  | .uncertain count => writeActive (a.line.take count) (openActive a.inode dir)

/-- `_append_log_event` under its lock. -/
def appendLogEvent (policy : LogRetentionPolicy) (dir : LogDir) (a : Append) : LogDir :=
  let rotated := fun steps : Nat => rotateLogIfNeeded policy a.line.length steps dir
  match a.rotation with
  | .completes => appendEncodedLogLine a (rotated (rotation policy.backup_count).length)
  | .fails steps => appendEncodedLogLine a (rotated steps)
  | .interrupted steps => rotated steps

/-- The log after some appends. -/
def logAfter (policy : LogRetentionPolicy) (appends : List Append) : LogDir :=
  appends.foldl (appendLogEvent policy) .fresh

/-- What an append leaves in the log: its line, or the part of it that could not be cut off. -/
def Append.left (a : Append) : List Bytes :=
  match a.rotation, a.write with
  | .interrupted _, _ => []
  | _, .persisted => [a.line]
  | _, .uncertain count => [a.line.take count]
  | _, _ => []

/-- The files one after the other, in the order of `component_log_paths`. -/
def logText (dir : LogDir) : Bytes :=
  (componentLogPaths dir).flatMap fun name =>
    match dir.files.get name with
    | none => []
    | some file => file.content

theorem logText_eq (dir : LogDir) : logText dir = (liveFiles dir).flatMap LogFile.content := by
  rw [logText, liveFiles]
  induction componentLogPaths dir with
  | nil => rfl
  | cons name names ih =>
    rw [List.flatMap_cons, List.filterMap_cons, ih]
    cases dir.files.get name with
    | none => rfl
    | some file => rfl

/-! ## What opening and writing do to the files -/

section

variable {n : Nat} {dir : LogDir}

theorem set_active (hbounded : Bounded n dir) (file : LogFile) (born : Nat) :
    Bounded n ⟨dir.files.set .active file, born⟩ ∧
      liveFiles ⟨dir.files.set .active file, born⟩ = backups dir n ++ [file] := by
  have hother : ∀ i, (dir.files.set .active file).get (.backup i) = dir.files.get (.backup i) :=
    fun i => Table.get_set_ne _ _ (by simp)
  have hbounded' : Bounded n ⟨dir.files.set .active file, born⟩ := by
    intro i file' hi
    exact hbounded i file' ((hother i).symm.trans hi)
  refine ⟨hbounded', ?_⟩
  rw [liveFiles_eq hbounded', backups_congr fun i _ _ => hother i, Table.get_set_self]
  rfl

theorem openActive_liveFiles (hbounded : Bounded n dir) (inode : Nat) :
    Bounded n (openActive inode dir) ∧ ∃ file,
      (openActive inode dir).files.get .active = some file ∧
      liveFiles (openActive inode dir) = backups (openActive inode dir) n ++ [file] ∧
      (liveFiles (openActive inode dir) = liveFiles dir ∨
        (liveFiles (openActive inode dir) = liveFiles dir ++ [file] ∧ file.content = [])) := by
  unfold openActive
  cases hactive : dir.files.get .active with
  | some file =>
    refine ⟨hbounded, file, hactive, ?_, .inl rfl⟩
    rw [liveFiles_eq hbounded, hactive]
    rfl
  | none =>
    obtain ⟨hbounded', hlive⟩ := set_active hbounded ⟨dir.born, inode, []⟩ (dir.born + 1)
    refine ⟨hbounded', _, Table.get_set_self _ _ _, ?_, .inr ⟨?_, rfl⟩⟩
    · rw [liveFiles_eq hbounded', Table.get_set_self]
      rfl
    · rw [hlive, liveFiles_eq hbounded, hactive, Option.toList_none, List.append_nil]

end

/-! ## The invariant -/

/-- The files hold whole entries, and these are a suffix of all that were left. -/
structure Keeps (backup_count : Nat) (entries : List Bytes) (dir : LogDir) : Prop where
  bounded : Bounded backup_count dir
  suffix : ∃ parts : List (List Bytes),
    (liveFiles dir).map LogFile.content = parts.map List.flatten ∧ parts.flatten <:+ entries

namespace Keeps

variable {backup_count : Nat} {entries : List Bytes} {dir : LogDir}

theorem fresh (backup_count : Nat) : Keeps backup_count [] .fresh := by
  refine ⟨fun i file hi => ?_, [], rfl, List.suffix_refl _⟩
  cases hi

theorem rotate (h : Keeps backup_count entries dir) (hcount : 1 ≤ backup_count) (steps : Nat) :
    Keeps backup_count entries (rotate backup_count steps dir) := by
  obtain ⟨hbounded, dropped, hfiles⟩ := rotate_liveFiles hcount h.bounded steps
  obtain ⟨parts, hparts, hsuffix⟩ := h.suffix
  refine ⟨hbounded, parts.drop dropped.length, ?_, ?_⟩
  · rw [List.map_drop, ← hparts, hfiles, List.map_append, List.drop_append_of_le_length
      (Nat.le_of_eq (List.length_map _).symm), List.drop_of_length_le
      (Nat.le_of_eq (List.length_map _)), List.nil_append]
  · have hflatten : (parts.drop dropped.length).flatten <:+ parts.flatten := by
      refine ⟨(parts.take dropped.length).flatten, ?_⟩
      rw [← List.flatten_append, List.take_append_drop]
    exact hflatten.trans hsuffix

theorem rotateLogIfNeeded {policy : LogRetentionPolicy}
    (h : Keeps policy.backup_count entries dir) (incoming_bytes steps : Nat) :
    Keeps policy.backup_count entries (rotateLogIfNeeded policy incoming_bytes steps dir) := by
  unfold Log.rotateLogIfNeeded
  cases dir.files.get .active with
  | none => exact h
  | some file =>
    dsimp only
    split
    · exact h
    · exact h.rotate policy.backup_count_pos steps

theorem openActive (h : Keeps backup_count entries dir) (inode : Nat) :
    Keeps backup_count entries (openActive inode dir) := by
  obtain ⟨hbounded, file, -, -, hsame | ⟨hnew, hempty⟩⟩ := openActive_liveFiles h.bounded inode
  · exact ⟨hbounded, hsame ▸ h.suffix⟩
  · obtain ⟨parts, hparts, hsuffix⟩ := h.suffix
    refine ⟨hbounded, parts ++ [[]], ?_, ?_⟩
    · rw [hnew, List.map_append, hparts, List.map_append, List.map_singleton, hempty]
      rfl
    · rw [List.flatten_append, List.flatten_singleton, List.append_nil]
      exact hsuffix

theorem write (h : Keeps backup_count entries dir) (inode : Nat) (bytes : Bytes) :
    Keeps backup_count (entries ++ [bytes]) (writeActive bytes (Log.openActive inode dir)) := by
  obtain ⟨hbounded, file, hactive, hlast, -⟩ := openActive_liveFiles h.bounded inode
  obtain ⟨parts, hparts, hsuffix⟩ := (h.openActive inode).suffix
  obtain ⟨hbounded', hlive⟩ := set_active hbounded { file with content := file.content ++ bytes }
    (Log.openActive inode dir).born
  rw [hlast, List.map_append] at hparts
  obtain ⟨before, last, rfl, hbefore, hmap⟩ := List.append_eq_map_iff.mp hparts
  obtain ⟨part, rfl, hpart⟩ : ∃ part, last = [part] ∧ part.flatten = file.content := by
    obtain ⟨part, rfl, hpart⟩ := List.map_eq_singleton_iff.mp hmap
    exact ⟨part, rfl, hpart⟩
  have hwrite : writeActive bytes (Log.openActive inode dir) =
      ⟨(Log.openActive inode dir).files.set .active
        { file with content := file.content ++ bytes }, (Log.openActive inode dir).born⟩ := by
    rw [writeActive, hactive]
  rw [hwrite]
  refine ⟨hbounded', before ++ [part ++ [bytes]], ?_, ?_⟩
  · rw [hlive, List.map_append, ← hbefore, List.map_append, List.map_singleton, List.map_singleton,
      List.flatten_append, hpart, List.flatten_singleton]
  · rw [List.flatten_append, List.flatten_singleton, ← List.append_assoc]
    rw [List.flatten_append, List.flatten_singleton] at hsuffix
    obtain ⟨gone, hgone⟩ := hsuffix
    exact ⟨gone, by rw [← List.append_assoc, hgone]⟩

theorem appendEncodedLogLine (h : Keeps backup_count entries dir) (a : Append)
    (hreached : ∀ steps, a.rotation ≠ .interrupted steps) :
    Keeps backup_count (entries ++ a.left) (appendEncodedLogLine a dir) := by
  have hleft : a.left = match a.write with
      | .persisted => [a.line]
      | .uncertain count => [a.line.take count]
      | _ => [] := by
    obtain ⟨line, inode, rotation, write⟩ := a
    cases rotation with
    | interrupted steps => exact absurd rfl (hreached steps)
    | completes => cases write <;> rfl
    | fails steps => cases write <;> rfl
  rw [hleft, Log.appendEncodedLogLine]
  cases a.write with
  | unopened => exact (List.append_nil entries).symm ▸ h
  | persisted => exact h.write a.inode a.line
  | rolledBack => exact (List.append_nil entries).symm ▸ h.openActive a.inode
  | uncertain count => exact h.write a.inode (a.line.take count)

/-- **One append keeps the invariant**, however far it gets. -/
theorem append {policy : LogRetentionPolicy} (h : Keeps policy.backup_count entries dir)
    (a : Append) : Keeps policy.backup_count (entries ++ a.left) (appendLogEvent policy dir a) := by
  unfold appendLogEvent
  cases hrotation : a.rotation with
  | completes =>
    exact (h.rotateLogIfNeeded _ _).appendEncodedLogLine a fun _ => by rw [hrotation]; nofun
  | fails steps =>
    exact (h.rotateLogIfNeeded _ _).appendEncodedLogLine a fun _ => by rw [hrotation]; nofun
  | interrupted steps =>
    have hleft : a.left = [] := by rw [Append.left, hrotation]
    rw [hleft, List.append_nil]
    exact h.rotateLogIfNeeded _ _

end Keeps

theorem keeps_foldl (policy : LogRetentionPolicy) : ∀ (appends : List Append) {entries : List Bytes}
    {dir : LogDir}, Keeps policy.backup_count entries dir →
    Keeps policy.backup_count (entries ++ appends.flatMap Append.left)
      (appends.foldl (appendLogEvent policy) dir)
  | [], entries, _, h => (List.append_nil entries).symm ▸ h
  | a :: appends, entries, dir, h => by
    rw [List.flatMap_cons, ← List.append_assoc, List.foldl_cons]
    exact keeps_foldl policy appends (h.append a)

/-- **The log is a suffix of what was appended.**  After any appends, with rotations that stop
    anywhere, the files read from the oldest backup to the active one are the last of the entries,
    whole, in order and once each. -/
theorem rotation_keeps_suffix (policy : LogRetentionPolicy) (appends : List Append) :
    ∃ kept, kept <:+ appends.flatMap Append.left ∧
      logText (logAfter policy appends) = kept.flatten := by
  have h := keeps_foldl policy appends (Keeps.fresh policy.backup_count)
  obtain ⟨parts, hparts, hsuffix⟩ := h.suffix
  refine ⟨parts.flatten, hsuffix, ?_⟩
  rw [logText_eq, List.flatMap_def]
  show ((liveFiles (appends.foldl (appendLogEvent policy) .fresh)).map LogFile.content).flatten = _
  rw [hparts, List.flatten_flatten]

/-! ## The size of a log -/

/-- No file is longer than `bound`. -/
def Small (bound : Nat) (dir : LogDir) : Prop :=
  ∀ name file, dir.files.get name = some file → file.content.length ≤ bound

namespace Small

variable {bound : Nat} {dir : LogDir}

theorem set (h : Small bound dir) {name : LogName} {file : LogFile}
    (hfile : file.content.length ≤ bound) (born : Nat) :
    Small bound ⟨dir.files.set name file, born⟩ := by
  intro other file' hget
  rw [Table.get_set] at hget
  split at hget
  · cases hget
    exact hfile
  · exact h other file' hget

theorem erase (h : Small bound dir) (name : LogName) :
    Small bound { dir with files := dir.files.erase name } := by
  intro other file hget
  rw [Table.get_erase] at hget
  split at hget
  · cases hget
  · exact h other file hget

theorem apply (h : Small bound dir) (op : FileOp) : Small bound (dir.apply op) := by
  cases op with
  | unlink name => exact h.erase name
  | replace source target =>
    unfold LogDir.apply
    dsimp only
    split
    · exact h
    · rename_i file hsource
      exact (h.erase source).set (h source file hsource) _

theorem rotate (h : Small bound dir) (n steps : Nat) : Small bound (rotate n steps dir) :=
  List.foldlRecOn _ _ h fun _ hdir op _ => hdir.apply op

/-- The line fits behind what the active file has. -/
theorem appendEncodedLogLine (h : Small bound dir) (a : Append) (hline : a.line.length ≤ bound)
    (hroom : ∀ file, dir.files.get .active = some file →
      file.content.length + a.line.length ≤ bound) : Small bound (appendEncodedLogLine a dir) := by
  have hopen : Small bound (openActive a.inode dir) := by
    unfold openActive
    split
    · exact h
    · exact h.set (Nat.zero_le _) _
  have hwrite : ∀ count, Small bound (writeActive (a.line.take count) (openActive a.inode dir)) := by
    intro count
    have htake : (a.line.take count).length ≤ a.line.length := List.length_take_le' _ _
    unfold writeActive
    split
    · exact hopen
    · rename_i file hactive
      refine hopen.set ?_ _
      rw [List.length_append]
      unfold openActive at hactive
      split at hactive
      · have hfile := hroom file hactive
        omega
      · rw [Table.get_set_self] at hactive
        cases hactive
        exact (Nat.zero_add _).trans_le (htake.trans hline)
  unfold Log.appendEncodedLogLine
  split
  · exact h
  · exact a.line.take_length ▸ hwrite a.line.length
  · exact hopen
  · exact hwrite _

end Small

/-- A rotation that goes through leaves no active file. -/
theorem rotated_active (n : Nat) (dir : LogDir) :
    (rotate n (rotation n).length dir).files.get .active = none := by
  rw [rotate, List.take_length, rotation, List.foldl_cons, List.foldl_append, List.foldl_cons,
    List.foldl_nil]
  generalize (shifts (n - 1)).foldl LogDir.apply _ = shifted
  unfold LogDir.apply
  dsimp only
  split
  · assumption
  · rw [Table.get_set_ne _ _ (by simp), Table.get_erase, if_pos rfl]

/-- **An append keeps every file within the bound**, unless its rotation fails midway and it goes
    on. -/
theorem small_append {policy : LogRetentionPolicy} {bound : Nat} {dir : LogDir} {a : Append}
    (h : Small bound dir) (hmax : policy.max_bytes ≤ bound) (hline : a.line.length ≤ bound)
    (hrotation : ∀ steps, a.rotation ≠ .fails steps) : Small bound (appendLogEvent policy dir a) := by
  have hrotated : ∀ steps, Small bound (rotateLogIfNeeded policy a.line.length steps dir) := by
    intro steps
    unfold rotateLogIfNeeded
    split
    · exact h
    · dsimp only
      split
      · exact h
      · exact h.rotate _ _
  unfold appendLogEvent
  split
  · refine (hrotated _).appendEncodedLogLine a hline fun file hfile => ?_
    unfold rotateLogIfNeeded at hfile
    split at hfile
    · rename_i hnone
      rw [hnone] at hfile
      cases hfile
    · rename_i active hactive
      dsimp only at hfile
      split at hfile
      · rename_i hfits
        rw [hactive] at hfile
        cases hfile
        omega
      · rw [rotated_active] at hfile
        cases hfile
  · rename_i steps hfails
    exact absurd hfails (hrotation steps)
  · exact hrotated _

theorem length_backups (dir : LogDir) : ∀ n : Nat, (backups dir n).length ≤ n
  | 0 => Nat.le_refl 0
  | n + 1 => by
    have hrest := length_backups dir n
    have hone := Option.length_toList_le (o := dir.files.get (.backup (n + 1)))
    rw [backups, List.length_append]
    omega

/-- **The log stays small**: after any appends of which no rotation fails midway it has room in
    `backup_count + 1` files, none longer than the policy and the longest line allow. -/
theorem log_bounded (policy : LogRetentionPolicy) (longest : Nat) (appends : List Append)
    (hlines : ∀ a ∈ appends, a.line.length ≤ longest)
    (hrotations : ∀ a ∈ appends, ∀ steps, a.rotation ≠ .fails steps) :
    (logText (logAfter policy appends)).length ≤
      (policy.backup_count + 1) * max policy.max_bytes longest := by
  have hbounded : Bounded policy.backup_count (logAfter policy appends) :=
    (keeps_foldl policy appends (Keeps.fresh policy.backup_count)).bounded
  have hsmall : Small (max policy.max_bytes longest) (logAfter policy appends) := by
    refine List.foldlRecOn _ _ (fun name file hget => ?_) fun dir hdir a ha => ?_
    · cases hget
    · exact small_append hdir (le_max_left _ _) ((hlines a ha).trans (le_max_right _ _))
        (hrotations a ha)
  have hfiles : (liveFiles (logAfter policy appends)).length ≤ policy.backup_count + 1 := by
    rw [liveFiles_eq hbounded, List.length_append]
    exact Nat.add_le_add (length_backups _ _) Option.length_toList_le
  rw [logText_eq, List.length_flatMap]
  refine (List.sum_le_card_nsmul _ (max policy.max_bytes longest) ?_).trans ?_
  · intro size hsize
    obtain ⟨file, hfile, rfl⟩ := List.mem_map.mp hsize
    obtain ⟨name, -, hget⟩ := List.mem_filterMap.mp hfile
    exact hsmall name file hget
  · rw [List.length_map]
    exact Nat.mul_le_mul_right _ hfiles

/-- Three lines of three bytes in files of four, one backup: the first line is gone. -/
theorem log_bounded_three :
    (logText (logAfter ⟨4, 1, by decide, by decide⟩
      ([1, 2, 3].map fun inode => ⟨[1, 2, 3], inode, .completes, .persisted⟩))).length ≤ 8 :=
  log_bounded _ 3 _ (by decide) (by simp)

end NuSelf.Log
