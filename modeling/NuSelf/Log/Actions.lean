/-
  What writers do to the log files of a component, one file operation at a time.

  1. `FileAction` — a rotation that stops anywhere, a new active file, bytes at its end, and a cut
     after a write that failed.  An append is a row of these (`appendLogEvent_actions`).
  2. `Sound` — files lie in the order of their creation, and no two share an inode; every action
     keeps it (`Sound.run`).
  3. `rotate_active` — a rotation leaves the active file alone, or takes it away at the very end.
-/
import NuSelf.Log.Rotation

namespace NuSelf.Log

open NuSelf.Lib

/-! ## Actions -/

/-- What a writer does to the files of a component. -/
inductive FileAction where
  | rotate (steps : Nat)
  | create (inode : Nat)
  | write (bytes : Bytes)
  /-- `truncate`, after a write that failed. -/
  | cutBack (size : Nat)

/-- `truncate` on the active file. -/
def cutBackActive (size : Nat) (dir : LogDir) : LogDir :=
  match dir.files.get .active with
  | none => dir
  | some file => { dir with
      files := dir.files.set .active { file with content := file.content.take size } }

/-- The inode of a new file is none that is in use. -/
def FileAction.run (backup_count : Nat) : FileAction → LogDir → LogDir
  | .rotate steps, dir => Log.rotate backup_count steps dir
  | .create inode, dir =>
    if inode ∈ (liveFiles dir).map LogFile.inode then dir else openActive inode dir
  | .write bytes, dir => writeActive bytes dir
  | .cutBack size, dir => cutBackActive size dir

/-! ## Appends are made of these steps -/

def runActions (backup_count : Nat) (actions : List FileAction) (dir : LogDir) : LogDir :=
  actions.foldl (fun dir action => action.run backup_count dir) dir

theorem runActions_append (n : Nat) (actions actions' : List FileAction) (dir : LogDir) :
    runActions n (actions ++ actions') dir = runActions n actions' (runActions n actions dir) :=
  List.foldl_append

theorem rotateLogIfNeeded_actions (policy : LogRetentionPolicy) (incoming_bytes steps : Nat)
    (dir : LogDir) : ∃ actions, rotateLogIfNeeded policy incoming_bytes steps dir =
      runActions policy.backup_count actions dir := by
  unfold rotateLogIfNeeded
  cases dir.files.get .active with
  | none => exact ⟨[], rfl⟩
  | some file =>
    dsimp only
    split
    · exact ⟨[], rfl⟩
    · exact ⟨[.rotate steps], rfl⟩

/-- A file that is created has an inode of its own. -/
def InodeFree (inode : Nat) (dir : LogDir) : Prop :=
  dir.files.get .active = none → inode ∉ (liveFiles dir).map LogFile.inode

theorem run_create {inode : Nat} {dir : LogDir} (h : InodeFree inode dir) (n : Nat) :
    (FileAction.create inode).run n dir = openActive inode dir := by
  rw [FileAction.run]
  split
  · rename_i hused
    unfold openActive
    cases hactive : dir.files.get .active with
    | none => exact absurd hused (h hactive)
    | some file => rfl
  · rfl

theorem appendEncodedLogLine_actions (n : Nat) (a : Append) {dir : LogDir}
    (h : InodeFree a.inode dir) :
    ∃ actions, appendEncodedLogLine a dir = runActions n actions dir := by
  have hcreate := run_create h n
  unfold appendEncodedLogLine
  cases a.write with
  | unopened => exact ⟨[], rfl⟩
  | persisted =>
    refine ⟨[.create a.inode, .write a.line], ?_⟩
    show _ = (FileAction.write a.line).run n ((FileAction.create a.inode).run n dir)
    rw [hcreate]
    rfl
  | rolledBack => exact ⟨[.create a.inode], hcreate.symm⟩
  | uncertain count =>
    refine ⟨[.create a.inode, .write (a.line.take count)], ?_⟩
    show _ = (FileAction.write (a.line.take count)).run n ((FileAction.create a.inode).run n dir)
    rw [hcreate]
    rfl

/-- **An append is a row of these steps**, however far it gets. -/
theorem appendLogEvent_actions (policy : LogRetentionPolicy) (dir : LogDir) (a : Append)
    (h : ∀ steps, InodeFree a.inode (rotateLogIfNeeded policy a.line.length steps dir)) :
    ∃ actions, appendLogEvent policy dir a = runActions policy.backup_count actions dir := by
  have hrotated : ∀ steps, ∃ actions,
      appendEncodedLogLine a (rotateLogIfNeeded policy a.line.length steps dir) =
        runActions policy.backup_count actions dir := by
    intro steps
    obtain ⟨rotating, hrotating⟩ := rotateLogIfNeeded_actions policy a.line.length steps dir
    obtain ⟨writing, hwriting⟩ := appendEncodedLogLine_actions policy.backup_count a (h steps)
    exact ⟨rotating ++ writing, by rw [runActions_append, ← hrotating, hwriting]⟩
  unfold appendLogEvent
  cases a.rotation with
  | completes => exact hrotated _
  | fails steps => exact hrotated steps
  | interrupted steps => exact rotateLogIfNeeded_actions policy a.line.length steps dir

/-! ## The files of a component -/

/-- What holds of the files of every component. -/
structure Sound (n : Nat) (dir : LogDir) : Prop where
  bounded : Bounded n dir
  births : ((liveFiles dir).map LogFile.birth).Pairwise (· < ·)
  born : ∀ file ∈ liveFiles dir, file.birth < dir.born
  inodes : ((liveFiles dir).map LogFile.inode).Nodup

namespace Sound

variable {n : Nat} {dir : LogDir} {f g : LogFile}

theorem fresh (n : Nat) : Sound n .fresh where
  bounded := fun _ _ h => nomatch h
  births := List.Pairwise.nil
  born := fun _ h => nomatch h
  inodes := List.nodup_nil

theorem eq_of_birth (h : Sound n dir) (hf : f ∈ liveFiles dir) (hg : g ∈ liveFiles dir)
    (hbirth : f.birth = g.birth) : f = g := by
  have hnodup : ((liveFiles dir).map LogFile.birth).Nodup := h.births.imp fun hlt => Nat.ne_of_lt hlt
  exact List.inj_on_of_nodup_map hnodup hf hg hbirth

theorem eq_of_inode (h : Sound n dir) (hf : f ∈ liveFiles dir) (hg : g ∈ liveFiles dir)
    (hinode : f.inode = g.inode) : f = g :=
  List.inj_on_of_nodup_map h.inodes hf hg hinode

theorem mem_liveFiles (h : Sound n dir) :
    f ∈ liveFiles dir ↔ f ∈ backups dir n ∨ dir.files.get .active = some f := by
  rw [liveFiles_eq h.bounded, List.mem_append, Option.mem_toList]

theorem active_mem (h : Sound n dir) (hf : dir.files.get .active = some f) : f ∈ liveFiles dir :=
  h.mem_liveFiles.mpr (.inr hf)

theorem birth_lt_active (h : Sound n dir) (hf : f ∈ backups dir n)
    (hg : dir.files.get .active = some g) : f.birth < g.birth := by
  have hbirths := h.births
  rw [liveFiles_eq h.bounded, hg, List.map_append] at hbirths
  exact (List.pairwise_append.mp hbirths).2.2 _ (List.mem_map_of_mem hf) _
    (List.mem_map_of_mem (Option.mem_toList.mpr rfl))

theorem birth_le_active (h : Sound n dir) (hf : f ∈ liveFiles dir)
    (hg : dir.files.get .active = some g) : f.birth ≤ g.birth := by
  rcases h.mem_liveFiles.mp hf with hf | hf
  · exact Nat.le_of_lt (h.birth_lt_active hf hg)
  · rw [hf] at hg
    cases hg
    exact Nat.le_refl _

theorem backup_ne_active (h : Sound n dir) (hf : f ∈ backups dir n)
    (hg : dir.files.get .active = some g) : f ≠ g := by
  rintro rfl
  exact Nat.lt_irrefl _ (h.birth_lt_active hf hg)

end Sound

/-! ## What the actions do to the directory -/

section

variable {n : Nat} {dir : LogDir}

theorem apply_born (dir : LogDir) (op : FileOp) : (dir.apply op).born = dir.born := by
  cases op with
  | unlink name => rfl
  | replace source target =>
    simp only [LogDir.apply]
    cases dir.files.get source <;> rfl

theorem rotate_born (n steps : Nat) (dir : LogDir) : (rotate n steps dir).born = dir.born := by
  unfold rotate
  induction (rotation n).take steps generalizing dir with
  | nil => rfl
  | cons op ops ih => exact (ih (dir.apply op)).trans (apply_born dir op)

/-- An operation on backups alone. -/
def FileOp.onBackups : FileOp → Prop
  | .unlink name => name ≠ .active
  | .replace source target => source ≠ .active ∧ target ≠ .active

theorem apply_active {op : FileOp} (h : op.onBackups) (dir : LogDir) :
    (dir.apply op).files.get .active = dir.files.get .active := by
  cases op with
  | unlink name => exact (Table.get_erase _ _ _).trans (if_neg (Ne.symm h))
  | replace source target =>
    cases hsource : dir.files.get source with
    | none => rw [apply_replace_none hsource]
    | some file => rw [get_replace hsource, if_neg (Ne.symm h.2), if_neg (Ne.symm h.1)]

theorem foldl_active : ∀ {ops : List FileOp}, (∀ op ∈ ops, op.onBackups) → ∀ dir : LogDir,
    (ops.foldl LogDir.apply dir).files.get .active = dir.files.get .active
  | [], _, _ => rfl
  | op :: ops, h, dir => by
    have hrest : ∀ op ∈ ops, op.onBackups := fun op hop => h op (List.mem_cons_of_mem _ hop)
    exact (foldl_active hrest (dir.apply op)).trans (apply_active (h op List.mem_cons_self) dir)

theorem shifts_onBackups : ∀ (i : Nat), (shifts i).length = i ∧ ∀ op ∈ shifts i, op.onBackups
  | 0 => ⟨rfl, fun _ h => nomatch h⟩
  | i + 1 => by
    obtain ⟨hlength, hbackups⟩ := shifts_onBackups i
    refine ⟨congrArg (· + 1) hlength, fun op hop => ?_⟩
    rcases List.mem_cons.mp hop with rfl | hop
    · exact ⟨by simp, by simp⟩
    · exact hbackups op hop

theorem rotate_active (hn : 1 ≤ n) (steps : Nat) (dir : LogDir) :
    (rotate n steps dir).files.get .active = dir.files.get .active ∨
      (n < steps ∧ (rotate n steps dir).files.get .active = none) := by
  obtain ⟨hlength, hshifts⟩ := shifts_onBackups (n - 1)
  let first := FileOp.unlink (.backup n) :: shifts (n - 1)
  have hfirst : ∀ op ∈ first, op.onBackups := by
    intro op hop
    rcases List.mem_cons.mp hop with rfl | hop
    · show LogName.backup n ≠ .active
      simp
    · exact hshifts op hop
  have hlen : first.length = n := by
    rw [List.length_cons, hlength]
    omega
  have hrotation : rotation n = first ++ [.replace .active (.backup 1)] := rfl
  rw [rotate, hrotation]
  by_cases hsteps : steps ≤ n
  · rw [List.take_append_of_le_length (hlen ▸ hsteps)]
    exact .inl (foldl_active (fun op hop => hfirst op (List.mem_of_mem_take hop)) dir)
  · rw [List.take_of_length_le (by rw [List.length_append, hlen]; simp; omega),
      List.foldl_append, List.foldl_cons, List.foldl_nil]
    have hkept := foldl_active hfirst dir
    cases hactive : (first.foldl LogDir.apply dir).files.get .active with
    | none =>
      rw [apply_replace_none hactive]
      exact .inl hkept
    | some file =>
      refine .inr ⟨by omega, ?_⟩
      rw [get_replace hactive, if_neg (by simp), if_pos rfl]

end

namespace Sound

variable {n : Nat} {dir : LogDir}

theorem rotate (h : Sound n dir) (hn : 1 ≤ n) (steps : Nat) : Sound n (rotate n steps dir) := by
  obtain ⟨hbounded, dropped, hfiles⟩ := rotate_liveFiles hn h.bounded steps
  have hsub : (liveFiles (Log.rotate n steps dir)).Sublist (liveFiles dir) := by
    rw [hfiles]
    exact List.sublist_append_right _ _
  exact {
    bounded := hbounded
    births := h.births.sublist (hsub.map _)
    born := fun file hfile => by
      rw [rotate_born]
      exact h.born file (hsub.subset hfile)
    inodes := h.inodes.sublist (hsub.map _) }

theorem create (h : Sound n dir) (hactive : dir.files.get .active = none) {inode : Nat}
    (hinode : inode ∉ (liveFiles dir).map LogFile.inode) :
    let file : LogFile := ⟨dir.born, inode, []⟩
    let next : LogDir := ⟨dir.files.set .active file, dir.born + 1⟩
    Sound n next ∧ liveFiles next = liveFiles dir ++ [file] := by
  intro file next
  obtain ⟨hbounded, hlive⟩ := set_active h.bounded file (dir.born + 1)
  have hlive' : liveFiles next = liveFiles dir ++ [file] := by
    show liveFiles ⟨dir.files.set .active file, dir.born + 1⟩ = _
    rw [hlive, liveFiles_eq h.bounded, hactive, Option.toList_none, List.append_nil]
  refine ⟨⟨hbounded, ?_, ?_, ?_⟩, hlive'⟩
  · rw [hlive', List.map_append, List.pairwise_append]
    refine ⟨h.births, List.pairwise_singleton _ _, fun b hb b' hb' => ?_⟩
    obtain ⟨f, hf, rfl⟩ := List.mem_map.mp hb
    rw [List.mem_singleton.mp hb']
    exact h.born f hf
  · intro f hf
    rw [hlive', List.mem_append, List.mem_singleton] at hf
    rcases hf with hf | rfl
    · exact Nat.lt_succ_of_lt (h.born f hf)
    · exact Nat.lt_succ_self _
  · rw [hlive', List.map_append, List.nodup_append']
    refine ⟨h.inodes, List.nodup_singleton _, fun i hi hi' => hinode ?_⟩
    rw [List.mem_singleton.mp hi'] at hi
    exact hi

theorem setContent (h : Sound n dir) {file : LogFile} (hactive : dir.files.get .active = some file)
    (content : Bytes) :
    let next : LogDir := { dir with files := dir.files.set .active { file with content := content } }
    Sound n next ∧ backups next n = backups dir n := by
  intro next
  obtain ⟨hbounded, hlive⟩ := set_active h.bounded { file with content := content } dir.born
  have hbackups : backups next n = backups dir n :=
    backups_congr fun i _ _ => Table.get_set_ne _ _ (by simp)
  have hbefore : liveFiles dir = backups dir n ++ [file] := by
    rw [liveFiles_eq h.bounded, hactive]
    rfl
  have hsame : ∀ {β : Type} (field : LogFile → β), field { file with content := content } = field file →
      (liveFiles next).map field = (liveFiles dir).map field := by
    intro β field hfield
    rw [hlive, hbefore, List.map_append, List.map_append, List.map_singleton, hfield,
      List.map_singleton]
  refine ⟨⟨hbounded, ?_, ?_, ?_⟩, hbackups⟩
  · rw [hsame LogFile.birth rfl]
    exact h.births
  · intro f hf
    have hbirth : f.birth ∈ (liveFiles dir).map LogFile.birth := by
      rw [← hsame LogFile.birth rfl]
      exact List.mem_map_of_mem hf
    obtain ⟨g, hg, heq⟩ := List.mem_map.mp hbirth
    rw [← heq]
    exact h.born g hg
  · rw [hsame LogFile.inode rfl]
    exact h.inodes

theorem run (h : Sound n dir) (hn : 1 ≤ n) (action : FileAction) : Sound n (action.run n dir) := by
  cases action with
  | rotate steps => exact h.rotate hn steps
  | create inode =>
    rw [FileAction.run]
    split
    · exact h
    · rename_i hfree
      unfold openActive
      cases hactive : dir.files.get .active with
      | some file => exact h
      | none => exact (h.create hactive hfree).1
  | write bytes =>
    rw [FileAction.run, writeActive]
    cases hactive : dir.files.get .active with
    | none => exact h
    | some file => exact (h.setContent hactive _).1
  | cutBack size =>
    rw [FileAction.run, cutBackActive]
    cases hactive : dir.files.get .active with
    | none => exact h
    | some file => exact (h.setContent hactive _).1

end Sound

end NuSelf.Log
