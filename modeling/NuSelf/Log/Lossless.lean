/-
  What the cursor reads, against what was appended since it was created.

  A line is known by its file and its number there (`Tag`), counted from the size the file had when
  the cursor was created.  `unreturned` are the complete lines on disk that no poll has returned yet.

  1. **The condition** (`Orderly`) — between two polls an active file is rotated away only if the
     cursor was on it, a poll finds an active file again after a rotation, a new file does not get
     the inode the cursor remembers, and nothing is cut off that a poll has read.
  2. **The invariant** (`Follows`) — everything complete was returned, except what is behind the
     offset in the file the cursor is on, and what is in a newer active file.
  3. **One poll** (`Follows.poll`) — it reads exactly the lines not returned yet.
  4. `cursor_returns_each_line_once` — in every orderly run.
-/
import NuSelf.Lib.Run
import NuSelf.Log.Cursor

namespace NuSelf.Log

open NuSelf.Lib

/-! ## Lines on disk -/

/-- The file by its birth, and the number of the line. -/
abbrev Tag := Nat × Nat

/-- The order of appending: files in the order of their creation, lines in their order. -/
def tagLt (t u : Tag) : Prop := t.1 < u.1 ∨ (t.1 = u.1 ∧ t.2 < u.2)

instance : DecidableRel tagLt := fun _ _ => inferInstanceAs (Decidable (_ ∨ _))

/-- Lines under their numbers, from `i` on. -/
def tagFrom (birth i : Nat) : List Bytes → List (Tag × Bytes)
  | [] => []
  | line :: lines => ((birth, i), line) :: tagFrom birth (i + 1) lines

/-- How large the file was when the cursor was created. -/
def sizeAt (dir : LogDir) (birth : Nat) : Nat :=
  match (liveFiles dir).find? fun file => decide (file.birth = birth) with
  | some file => file.content.length
  | none => 0

section

variable (since : Nat → Nat) (told : List Tag)

/-- The complete lines that were appended to a file since the cursor was created. -/
def linesOf (file : LogFile) : List Bytes := completeLines (file.content.drop (since file.birth))

def tagged (file : LogFile) : List (Tag × Bytes) := tagFrom file.birth 0 (linesOf since file)

/-- The complete lines on disk that are not in `told`. -/
def unreturned (dir : LogDir) : List (Tag × Bytes) :=
  ((liveFiles dir).flatMap (tagged since)).filter fun line => decide (line.1 ∉ told)

end

/-! ## Tags -/

section

variable {birth : Nat}

theorem mem_tagFrom : ∀ {lines : List Bytes} {i : Nat} {t : Tag},
    t ∈ (tagFrom birth i lines).map Prod.fst ↔ t.1 = birth ∧ i ≤ t.2 ∧ t.2 < i + lines.length
  | [], i, t => by
    simp only [tagFrom, List.map_nil, List.not_mem_nil, List.length_nil, false_iff]
    omega
  | line :: lines, i, (b, j) => by
    rw [tagFrom, List.map_cons, List.mem_cons, mem_tagFrom, List.length_cons, Prod.mk.injEq]
    omega

theorem tagFrom_pairwise : ∀ (lines : List Bytes) (i : Nat),
    ((tagFrom birth i lines).map Prod.fst).Pairwise tagLt
  | [], _ => List.Pairwise.nil
  | line :: lines, i => by
    rw [tagFrom, List.map_cons, List.pairwise_cons]
    refine ⟨fun t ht => ?_, tagFrom_pairwise lines (i + 1)⟩
    obtain ⟨hbirth, hi, -⟩ := mem_tagFrom.mp ht
    exact .inr ⟨hbirth.symm, hi⟩

theorem tagFrom_texts : ∀ (lines : List Bytes) (i : Nat),
    (tagFrom birth i lines).map Prod.snd = lines
  | [], _ => rfl
  | line :: lines, i => congrArg (line :: ·) (tagFrom_texts lines (i + 1))

/-- Only the lines with the first `k` numbers are known: the others are what is left. -/
theorem filter_tagFrom (known : Tag → Bool) {k : Nat} :
    ∀ {lines : List Bytes} {i : Nat}, (∀ j, known (birth, i + j) = decide (j < k)) →
      ((tagFrom birth i lines).filter fun line => !known line.1) =
        (tagFrom birth i lines).drop k
  | [], i, _ => by simp [tagFrom]
  | line :: lines, i, h => by
    rw [tagFrom]
    cases k with
    | zero =>
      rw [List.drop_zero, List.filter_eq_self]
      intro entry hentry
      have htag : entry.1 ∈ (tagFrom birth i (line :: lines)).map Prod.fst :=
        List.mem_map_of_mem hentry
      obtain ⟨hbirth, hi, -⟩ := mem_tagFrom.mp htag
      have hknown := h (entry.1.2 - i)
      have hsame : (birth, i + (entry.1.2 - i)) = entry.1 := by
        rw [← hbirth, Nat.add_sub_cancel' hi]
      rw [hsame] at hknown
      simp [hknown]
    | succ k =>
      have hfirst : known (birth, i) = true := by simpa using h 0
      rw [List.filter_cons_of_neg (by simp [hfirst]), List.drop_succ_cons]
      refine filter_tagFrom known fun j => ?_
      have hj := h (j + 1)
      rw [show i + (j + 1) = i + 1 + j by omega] at hj
      rw [hj]
      simp

end

theorem created_sound {n : Nat} (hn : 1 ≤ n) (before : List (LogComponent × FileAction))
    (c : LogComponent) : Sound n ((created n before).dirs c) := by
  have hall : ∀ (before : List (LogComponent × FileAction)) (dirs : LogComponent → LogDir),
      (∀ c, Sound n (dirs c)) → ∀ c, Sound n (before.foldl (fun dirs entry =>
        Function.update dirs entry.1 (entry.2.run n (dirs entry.1))) dirs c) := by
    intro before
    induction before with
    | nil => exact fun _ h => h
    | cons entry before ih =>
      intro dirs h
      refine ih _ fun c => ?_
      show Sound n (Function.update dirs entry.1 (entry.2.run n (dirs entry.1)) c)
      rw [Function.update_apply]
      split
      · exact (h entry.1).run hn entry.2
      · exact h c
  exact hall before _ (fun _ => Sound.fresh n) c

/-! ## The invariant -/

/-- The lines of a file that were returned are the first `k`. -/
def Heard (told : List Tag) (file : LogFile) (k : Nat) : Prop :=
  ∀ i, (file.birth, i) ∈ told ↔ i < k

/-- The cursor is on the file, behind whole lines, and these were returned. -/
structure ReadTo (since : Nat → Nat) (told : List Tag) (offset : Nat) (file : LogFile)
    (read rest : Bytes) : Prop where
  whole : Whole read
  appended : file.content.drop (since file.birth) = read ++ rest
  began : since file.birth ≤ file.content.length
  offset : offset = since file.birth + read.length
  heard : Heard told file (splitLines read).length
  newest : ∀ t ∈ told, t.1 ≤ file.birth

structure Follows (n : Nat) (since : Nat → Nat) (told : List Tag) (position : Position)
    (dir : LogDir) : Prop where
  sound : Sound n dir
  ordered : told.Pairwise tagLt
  born : ∀ t ∈ told, t.1 < dir.born
  since_new : ∀ birth, dir.born ≤ birth → since birth = 0
  start : position.identity = none → position.offset = 0
  older : ∀ f ∈ backups dir n, position.identity ≠ some f.inode →
    Heard told f (linesOf since f).length
  current : ∀ f ∈ liveFiles dir, position.identity = some f.inode →
    ∃ read rest, ReadTo since told position.offset f read rest
  newer : ∀ f, dir.files.get .active = some f → position.identity ≠ some f.inode →
    since f.birth = 0 ∧ ∀ t ∈ told, t.1 < f.birth

/-! ## What is left to read of one file -/

section

variable {since : Nat → Nat} {told : List Tag} {offset k : Nat} {file : LogFile}
  {read rest : Bytes}

/-- The lines of a file that are not in `told`. -/
def left (since : Nat → Nat) (told : List Tag) (file : LogFile) : List (Tag × Bytes) :=
  (tagged since file).filter fun line => decide (line.1 ∉ told)

theorem left_eq (h : Heard told file k) : left since told file = (tagged since file).drop k := by
  have hfilter : (fun line : Tag × Bytes => decide (line.1 ∉ told)) =
      fun line => !decide (line.1 ∈ told) := by
    funext line
    exact decide_not
  rw [left, hfilter]
  refine filter_tagFrom (fun t => decide (t ∈ told)) fun j => ?_
  rw [Nat.zero_add]
  exact decide_eq_decide.mpr (h j)

theorem left_texts (h : Heard told file k) :
    (left since told file).map Prod.snd = (linesOf since file).drop k := by
  rw [left_eq h, List.map_drop, tagged, tagFrom_texts]

theorem left_nil (h : Heard told file (linesOf since file).length) : left since told file = [] := by
  have htexts : (left since told file).map Prod.snd = _ := left_texts h
  rw [List.drop_of_length_le (Nat.le_refl _)] at htexts
  exact List.map_eq_nil_iff.mp htexts

theorem heard_of_newer (h : ∀ t ∈ told, t.1 < file.birth) : Heard told file 0 := by
  intro i
  refine ⟨fun hmem => ?_, fun hi => absurd hi (Nat.not_lt_zero i)⟩
  exact absurd (h _ hmem) (Nat.lt_irrefl _)

namespace ReadTo

theorem linesOf_eq (h : ReadTo since told offset file read rest) :
    linesOf since file = splitLines read ++ completeLines rest := by
  rw [linesOf, h.appended, completeLines_append h.whole]

theorem heard_le (h : ReadTo since told offset file read rest) :
    (splitLines read).length ≤ (linesOf since file).length := by
  rw [h.linesOf_eq, List.length_append]
  exact Nat.le_add_right _ _

theorem length_eq (h : ReadTo since told offset file read rest) :
    file.content.length = offset + rest.length := by
  have hlength := congrArg List.length h.appended
  rw [List.length_drop, List.length_append] at hlength
  have := h.began
  have := h.offset
  omega

theorem drop_eq (h : ReadTo since told offset file read rest) : file.content.drop offset = rest := by
  rw [h.offset, ← List.drop_drop, h.appended, List.drop_left]

theorem left_texts (h : ReadTo since told offset file read rest) :
    (left since told file).map Prod.snd = (readLogPath file offset).1 := by
  rw [Log.left_texts h.heard, h.linesOf_eq, List.drop_left, readLogPath, h.drop_eq]

theorem next (h : ReadTo since told offset file read rest) {told' : List Tag}
    (hheard : Heard told' file (linesOf since file).length) (hnewest : ∀ t ∈ told', t.1 ≤ file.birth) :
    ∃ read' rest', ReadTo since told' (readLogPath file offset).2 file read' rest' := by
  refine ⟨read ++ rest.take (completeLength rest), rest.drop (completeLength rest), ?_, ?_, h.began,
    ?_, ?_, hnewest⟩
  · exact h.whole.append (Whole.take rest)
  · rw [List.append_assoc, List.take_append_drop]
    exact h.appended
  · show offset + completeLength (file.content.drop offset) = _
    rw [h.drop_eq, List.length_append, List.length_take,
      Nat.min_eq_left (completeLength_le rest), ← Nat.add_assoc, ← h.offset]
  · have hlines : splitLines (read ++ rest.take (completeLength rest)) = linesOf since file := by
      rw [splitLines_append h.whole, h.linesOf_eq]
      rfl
    rw [hlines]
    exact hheard

theorem setContent (h : ReadTo since told offset file read rest) {content rest' : Bytes}
    (hcontent : content.drop (since file.birth) = read ++ rest')
    (hbegan : since file.birth ≤ content.length) :
    ReadTo since told offset { file with content := content } read rest' :=
  ⟨h.whole, hcontent, hbegan, h.offset, h.heard, h.newest⟩

end ReadTo

theorem readTo_start (hsince : since file.birth = 0) (h : ∀ t ∈ told, t.1 < file.birth) :
    ReadTo since told 0 file [] file.content where
  whole := Whole.nil
  appended := by
    rw [hsince]
    rfl
  began := by
    rw [hsince]
    exact Nat.zero_le _
  offset := by
    rw [hsince]
    rfl
  heard := heard_of_newer h
  newest := fun t ht => Nat.le_of_lt (h t ht)

end

/-! ## What is left to read of all files -/

section

variable {n : Nat} {since : Nat → Nat} {told : List Tag} {position : Position} {dir : LogDir}

theorem unreturned_eq (since : Nat → Nat) (told : List Tag) (dir : LogDir) :
    unreturned since told dir = (liveFiles dir).flatMap (left since told) :=
  List.filter_flatMap

theorem mem_unreturned {t : Tag} : t ∈ (unreturned since told dir).map Prod.fst ↔
    t ∉ told ∧ ∃ f ∈ liveFiles dir, t.1 = f.birth ∧ t.2 < (linesOf since f).length := by
  have htag : ∀ f : LogFile, t ∈ (tagged since f).map Prod.fst ↔
      t.1 = f.birth ∧ t.2 < (linesOf since f).length := by
    intro f
    rw [tagged, mem_tagFrom]
    omega
  simp only [← htag, unreturned, List.mem_map, List.mem_filter, List.mem_flatMap, decide_eq_true_eq]
  constructor
  · rintro ⟨line, ⟨⟨f, hf, hline⟩, hnot⟩, rfl⟩
    exact ⟨hnot, f, hf, line, hline, rfl⟩
  · rintro ⟨hnot, f, hf, line, hline, rfl⟩
    exact ⟨line, ⟨⟨f, hf, hline⟩, hnot⟩, rfl⟩

theorem unreturned_ordered (h : Sound n dir) :
    ((unreturned since told dir).map Prod.fst).Pairwise tagLt := by
  have hall : (((liveFiles dir).flatMap (tagged since)).map Prod.fst).Pairwise tagLt := by
    rw [List.map_flatMap, List.pairwise_flatMap]
    refine ⟨fun f _ => tagFrom_pairwise _ 0, ?_⟩
    refine (List.pairwise_map.mp h.births).imp fun {f g} hlt t ht u hu => ?_
    have hbirth : t.1 = f.birth := (mem_tagFrom.mp ht).1
    have hbirth' : u.1 = g.birth := (mem_tagFrom.mp hu).1
    exact .inl (by rw [hbirth, hbirth']; exact hlt)
  exact hall.sublist (List.filter_sublist.map _)

theorem findLogWithIdentity_eq (h : Bounded n dir) (identity : Nat) :
    findLogWithIdentity dir identity =
      (backups dir n).find? fun file => decide (file.inode = identity) := by
  have htaken : ∀ m, ((taken dir m).map LogName.backup).findSome? (fun candidate =>
      if candidate = LogName.active then none
      else (dir.files.get candidate).filter fun file => decide (file.inode = identity)) =
      (backups dir m).find? fun file => decide (file.inode = identity) := by
    intro m
    induction m with
    | zero => rfl
    | succ m ih =>
      rw [taken, backups, Table.contains]
      cases hget : dir.files.get (.backup (m + 1)) with
      | none =>
        rw [if_neg (by simp)]
        exact ih
      | some file =>
        rw [if_pos Option.isSome_some, List.map_cons, List.findSome?_cons, hget, if_neg (by simp),
          Option.toList_some, List.singleton_append, List.find?_cons, Option.filter_some]
        cases decide (file.inode = identity) with
        | false => exact ih
        | true => rfl
  rw [findLogWithIdentity, componentLogPaths, sorted_indexes h, List.findSome?_append, htaken]
  exact Option.or_none

theorem flatMap_of_unique {α β : Type} {g : α → List β} {x : α} : ∀ {l : List α}, l.Nodup → x ∈ l →
    (∀ y ∈ l, y ≠ x → g y = []) → l.flatMap g = g x
  | y :: l, hnodup, hx, h => by
    obtain ⟨hy, hnodup⟩ := List.nodup_cons.mp hnodup
    rw [List.flatMap_cons]
    rcases List.mem_cons.mp hx with rfl | hx
    · have hrest : l.flatMap g = [] := List.flatMap_eq_nil_iff.mpr fun z hz =>
        h z (List.mem_cons_of_mem _ hz) (by rintro rfl; exact hy hz)
      rw [hrest, List.append_nil]
    · have hne : y ≠ x := by
        rintro rfl
        exact hy hx
      rw [h y List.mem_cons_self hne, List.nil_append]
      exact flatMap_of_unique hnodup hx fun z hz => h z (List.mem_cons_of_mem _ hz)

namespace Follows

theorem heard (h : Follows n since told position dir) {f : LogFile} (hf : f ∈ liveFiles dir) :
    ∃ k ≤ (linesOf since f).length, Heard told f k := by
  by_cases hat : position.identity = some f.inode
  · obtain ⟨read, rest, hread⟩ := h.current f hf hat
    exact ⟨_, hread.heard_le, hread.heard⟩
  · rcases h.sound.mem_liveFiles.mp hf with hbackup | hactive
    · exact ⟨_, Nat.le_refl _, h.older f hbackup hat⟩
    · exact ⟨0, Nat.zero_le _, heard_of_newer (h.newer f hactive hat).2⟩

theorem heard_all (h : Follows n since told position dir) {f : LogFile} (hf : f ∈ liveFiles dir) :
    Heard (told ++ (unreturned since told dir).map Prod.fst) f (linesOf since f).length := by
  obtain ⟨k, hk, hheard⟩ := h.heard hf
  intro i
  rw [List.mem_append, mem_unreturned, hheard i]
  constructor
  · rintro (hi | ⟨-, g, hg, hbirth, hi⟩)
    · omega
    · obtain rfl := h.sound.eq_of_birth hf hg hbirth
      exact hi
  · intro hi
    by_cases hik : i < k
    · exact .inl hik
    · exact .inr ⟨hik, f, hf, rfl, hi⟩

theorem ordered_all (h : Follows n since told position dir) :
    (told ++ (unreturned since told dir).map Prod.fst).Pairwise tagLt := by
  refine List.pairwise_append.mpr ⟨h.ordered, unreturned_ordered h.sound, fun t ht u hu => ?_⟩
  obtain ⟨hnot, f, hf, hbirth, hlt⟩ := mem_unreturned.mp hu
  by_cases hat : position.identity = some f.inode
  · obtain ⟨read, rest, hread⟩ := h.current f hf hat
    rcases Nat.lt_or_eq_of_le (hread.newest t ht) with hless | heq
    · exact .inl (by rw [hbirth]; exact hless)
    · -- a line of the same file: the returned ones are the first
      have htlt : t.2 < (splitLines read).length := (hread.heard t.2).mp (by rw [← heq]; exact ht)
      have hule : ¬ u.2 < (splitLines read).length := fun hult =>
        hnot (by have := (hread.heard u.2).mpr hult; rwa [← hbirth] at this)
      exact .inr ⟨by rw [hbirth, heq], by omega⟩
  · rcases h.sound.mem_liveFiles.mp hf with hbackup | hactive
    · have hule := (h.older f hbackup hat u.2).mpr hlt
      exact absurd (by rw [← hbirth] at hule; exact hule) hnot
    · exact .inl (by rw [hbirth]; exact (h.newer f hactive hat).2 t ht)

theorem born_all (h : Follows n since told position dir) :
    ∀ t ∈ told ++ (unreturned since told dir).map Prod.fst, t.1 < dir.born := by
  intro t ht
  rcases List.mem_append.mp ht with ht | ht
  · exact h.born t ht
  · obtain ⟨-, f, hf, hbirth, -⟩ := mem_unreturned.mp ht
    rw [hbirth]
    exact h.sound.born f hf

theorem backups_read (h : Follows n since told position dir) :
    (position.identity.bind (findLogWithIdentity dir)).elim []
        (fun file => (readLogPath file position.offset).1) =
      ((backups dir n).flatMap (left since told)).map Prod.snd := by
  have hlive : ∀ f ∈ backups dir n, f ∈ liveFiles dir := fun f hf =>
    h.sound.mem_liveFiles.mpr (.inl hf)
  have hnil : (∀ f ∈ backups dir n, position.identity ≠ some f.inode) →
      (backups dir n).flatMap (left since told) = [] := fun hnone =>
    List.flatMap_eq_nil_iff.mpr fun f hf => left_nil (h.older f hf (hnone f hf))
  cases hidentity : position.identity with
  | none => rw [hnil fun f _ => by rw [hidentity]; nofun]; rfl
  | some identity =>
    rw [Option.bind_some, findLogWithIdentity_eq h.sound.bounded]
    cases hfind : (backups dir n).find? fun file => decide (file.inode = identity) with
    | none =>
      rw [hnil]
      · rfl
      · intro f hf heq
        rw [hidentity] at heq
        cases heq
        exact List.find?_eq_none.mp hfind f hf (decide_eq_true rfl)
    | some file =>
      have hfile : file ∈ backups dir n := List.mem_of_find?_eq_some hfind
      have hfound := List.find?_some hfind
      have hinode : file.inode = identity := of_decide_eq_true hfound
      obtain ⟨read, rest, hread⟩ := h.current file (hlive file hfile) (by rw [hidentity, hinode])
      have hnodup : (backups dir n).Nodup := by
        have hbirths := h.sound.births
        rw [liveFiles_eq h.sound.bounded, List.map_append] at hbirths
        have hbefore : ((backups dir n).map LogFile.birth).Nodup :=
          (List.pairwise_append.mp hbirths).1.imp fun hlt => Nat.ne_of_lt hlt
        exact hbefore.of_map
      rw [flatMap_of_unique hnodup hfile fun f hf hne => left_nil (h.older f hf fun heq => ?_)]
      · exact hread.left_texts.symm
      · rw [hidentity, Option.some.injEq, ← hinode] at heq
        exact hne (h.sound.eq_of_inode (hlive f hf) (hlive file hfile) heq.symm)

theorem readComponent_active (h : Follows n since told position dir) {active : LogFile}
    (hactive : dir.files.get .active = some active) :
    ∃ offset read rest, ReadTo since told offset active read rest ∧
      readComponent dir position =
        (((backups dir n).flatMap (left since told)).map Prod.snd ++ (readLogPath active offset).1,
          ⟨(readLogPath active offset).2, some active.inode⟩) := by
  rw [← h.backups_read, readComponent, hactive]
  by_cases hat : position.identity = some active.inode
  · obtain ⟨read, rest, hread⟩ := h.current active (h.sound.active_mem hactive) hat
    have hlength := hread.length_eq
    refine ⟨position.offset, read, rest, hread, ?_⟩
    -- the file is not among the backups too
    have hfind : findLogWithIdentity dir active.inode = none := by
      rw [findLogWithIdentity_eq h.sound.bounded, List.find?_eq_none]
      intro f hf hinode
      refine h.sound.backup_ne_active hf hactive ?_
      exact h.sound.eq_of_inode (h.sound.mem_liveFiles.mpr (.inl hf)) (h.sound.active_mem hactive)
        (of_decide_eq_true hinode)
    simp only [hat, Option.bind_some, hfind, Option.elim_none, List.nil_append]
    rw [if_neg fun hboth => hboth.2 rfl, if_neg (by omega)]
  · obtain ⟨hsince, hnewer⟩ := h.newer active hactive hat
    refine ⟨0, [], active.content, readTo_start hsince hnewer, ?_⟩
    by_cases hnone : position.identity = none
    · simp only [hnone, h.start hnone, Option.bind_none, Option.elim_none, List.nil_append]
      rw [if_neg fun hboth => hboth.1 rfl, if_neg (Nat.not_lt_zero _)]
    · dsimp only
      rw [if_pos ⟨hnone, hat⟩]

/-- **One poll** reads the complete lines that were not returned yet, in the order of appending. -/
theorem poll (h : Follows n since told position dir)
    (hpoll : dir.files.get .active ≠ none ∨ ∀ f ∈ liveFiles dir, position.identity ≠ some f.inode) :
    (readComponent dir position).1 = (unreturned since told dir).map Prod.snd ∧
      Follows n since (told ++ (unreturned since told dir).map Prod.fst)
        (readComponent dir position).2 dir := by
  cases hactive : dir.files.get .active with
  | none =>
    have hgone : ∀ f ∈ liveFiles dir, position.identity ≠ some f.inode := by
      rcases hpoll with hsome | hgone
      · exact absurd hactive hsome
      · exact hgone
    have hread : readComponent dir position = ([], ⟨0, none⟩) := by rw [readComponent, hactive]
    have hnil : unreturned since told dir = [] := by
      rw [unreturned_eq, List.flatMap_eq_nil_iff]
      intro f hf
      rcases h.sound.mem_liveFiles.mp hf with hbackup | hf'
      · exact left_nil (h.older f hbackup (hgone f hf))
      · rw [hactive] at hf'
        cases hf'
    rw [hread, hnil, List.map_nil, List.map_nil, List.append_nil]
    refine ⟨rfl, ⟨h.sound, h.ordered, h.born, h.since_new, fun _ => rfl, fun f hf _ => ?_,
      fun f _ heq => (nomatch heq), fun f hf => ?_⟩⟩
    · exact h.older f hf (hgone f (h.sound.mem_liveFiles.mpr (.inl hf)))
    · rw [hactive] at hf
      cases hf
  | some active =>
    obtain ⟨offset, read, rest, hread, hresult⟩ := h.readComponent_active hactive
    rw [hresult]
    refine ⟨?_, ⟨h.sound, h.ordered_all, h.born_all, h.since_new, fun heq => (nomatch heq),
      fun f hf _ => h.heard_all (h.sound.mem_liveFiles.mpr (.inl hf)), fun f hf heq => ?_,
      fun f hf hne => ?_⟩⟩
    · rw [unreturned_eq, liveFiles_eq h.sound.bounded, hactive, Option.toList_some,
        List.flatMap_append, List.map_append, List.flatMap_singleton, hread.left_texts]
    · cases h.sound.eq_of_inode hf (h.sound.active_mem hactive) (Option.some.inj heq).symm
      refine hread.next (h.heard_all hf) fun t ht => ?_
      rcases List.mem_append.mp ht with ht | ht
      · exact hread.newest t ht
      · obtain ⟨-, g, hg, hbirth, -⟩ := mem_unreturned.mp ht
        rw [hbirth]
        exact h.sound.birth_le_active hg hactive
    · rw [hactive] at hf
      cases hf
      exact absurd rfl hne

end Follows

end

/-! ## The writers' actions -/

/-- When an action of a writer leaves the cursor on the track. -/
def ActionOrderly (n : Nat) (position : Position) (dir : LogDir) : FileAction → Prop
  | .rotate steps => ∀ file ∈ dir.files.get .active, n < steps →
      position.identity = some file.inode
  | .create inode => dir.files.get .active = none → position.identity ≠ some inode
  | .write _ => True
  | .cutBack size => ∀ file ∈ dir.files.get .active, position.identity = some file.inode →
      position.offset ≤ size

namespace Follows

variable {n : Nat} {since : Nat → Nat} {told : List Tag} {position : Position} {dir : LogDir}

theorem rotate (h : Follows n since told position dir) (hn : 1 ≤ n) {steps : Nat}
    (hok : ActionOrderly n position dir (.rotate steps)) :
    Follows n since told position (rotate n steps dir) := by
  have hsound := h.sound.rotate hn steps
  obtain ⟨-, dropped, hfiles⟩ := rotate_liveFiles hn h.sound.bounded steps
  have hlive : ∀ f ∈ liveFiles (Log.rotate n steps dir), f ∈ liveFiles dir := by
    intro f hf
    rw [hfiles]
    exact List.mem_append_right _ hf
  have hactive := rotate_active hn steps dir
  refine ⟨hsound, h.ordered, ?_, ?_, h.start, fun f hf hat => ?_,
    fun f hf => h.current f (hlive f hf), fun f hf hat => ?_⟩
  · rw [rotate_born]
    exact h.born
  · rw [rotate_born]
    exact h.since_new
  · rcases h.sound.mem_liveFiles.mp (hlive f (hsound.mem_liveFiles.mpr (.inl hf))) with hf' | hf'
    · exact h.older f hf' hat
    · -- the active file has become a backup: the cursor was on it
      rcases hactive with hkept | ⟨hsteps, -⟩
      · exact absurd rfl (hsound.backup_ne_active hf (hkept.trans hf'))
      · exact absurd (hok f hf' hsteps) hat
  · rcases hactive with hkept | ⟨-, hgone⟩
    · exact h.newer f (hkept.symm.trans hf) hat
    · rw [hgone] at hf
      cases hf

theorem create (h : Follows n since told position dir) {inode : Nat}
    (hok : ActionOrderly n position dir (.create inode)) :
    Follows n since told position ((FileAction.create inode).run n dir) := by
  rw [FileAction.run]
  split
  · exact h
  · rename_i hfree
    unfold openActive
    cases hactive : dir.files.get .active with
    | some file => exact h
    | none =>
      obtain ⟨hsound, hlive⟩ := h.sound.create hactive hfree
      have hne : position.identity ≠ some inode := hok hactive
      have hold : ∀ f, f ∈ liveFiles dir ++ [(⟨dir.born, inode, []⟩ : LogFile)] →
          position.identity = some f.inode → f ∈ liveFiles dir := by
        intro f hf hat
        rcases List.mem_append.mp hf with hf | hf
        · exact hf
        · rw [List.mem_singleton.mp hf] at hat
          exact absurd hat hne
      refine ⟨hsound, h.ordered, fun t ht => Nat.lt_succ_of_lt (h.born t ht), ?_, h.start, ?_, ?_, ?_⟩
      · exact fun birth hbirth => h.since_new birth (Nat.le_of_succ_le hbirth)
      · intro f hf hat
        have hbackups : backups ⟨dir.files.set .active ⟨dir.born, inode, []⟩, dir.born + 1⟩ n =
            backups dir n := backups_congr fun i _ _ => Table.get_set_ne _ _ (by simp)
        rw [hbackups] at hf
        exact h.older f hf hat
      · intro f hf hat
        rw [hlive] at hf
        exact h.current f (hold f hf hat) hat
      · intro f hf _
        rw [Table.get_set_self] at hf
        cases hf
        exact ⟨h.since_new dir.born (Nat.le_refl _), h.born⟩

theorem setContent (h : Follows n since told position dir) {file : LogFile}
    (hactive : dir.files.get .active = some file) {content : Bytes}
    (hcontent : ∀ read rest, ReadTo since told position.offset file read rest →
      position.identity = some file.inode →
      since file.birth ≤ content.length ∧
        ∃ rest', content.drop (since file.birth) = read ++ rest') :
    Follows n since told position
      { dir with files := dir.files.set .active { file with content := content } } := by
  obtain ⟨hsound, hbackups⟩ := h.sound.setContent hactive content
  refine ⟨hsound, h.ordered, h.born, h.since_new, h.start, ?_, ?_, ?_⟩
  · rw [hbackups]
    exact h.older
  · intro f hf hat
    rcases hsound.mem_liveFiles.mp hf with hf | hf
    · rw [hbackups] at hf
      exact h.current f (h.sound.mem_liveFiles.mpr (.inl hf)) hat
    · rw [Table.get_set_self] at hf
      cases hf
      obtain ⟨read, rest, hread⟩ := h.current file (h.sound.active_mem hactive) hat
      obtain ⟨hbegan, rest', hrest⟩ := hcontent read rest hread hat
      exact ⟨read, rest', hread.setContent hrest hbegan⟩
  · intro f hf hat
    rw [Table.get_set_self] at hf
    cases hf
    exact h.newer file hactive hat

/-- **One action of a writer.** -/
theorem action (h : Follows n since told position dir) (hn : 1 ≤ n) (action : FileAction)
    (hok : ActionOrderly n position dir action) :
    Follows n since told position (action.run n dir) := by
  cases action with
  | rotate steps => exact h.rotate hn hok
  | create inode => exact h.create hok
  | write bytes =>
    rw [FileAction.run, writeActive]
    cases hactive : dir.files.get .active with
    | none => exact h
    | some file =>
      refine h.setContent hactive fun read rest hread _ => ⟨?_, rest ++ bytes, ?_⟩
      · rw [List.length_append]
        exact Nat.le_add_right_of_le hread.began
      · rw [List.drop_append_of_le_length hread.began, hread.appended, List.append_assoc]
  | cutBack size =>
    rw [FileAction.run, cutBackActive]
    cases hactive : dir.files.get .active with
    | none => exact h
    | some file =>
      refine h.setContent hactive fun read rest hread hat => ?_
      have hkept : position.offset ≤ size := hok file hactive hat
      have hoffset := hread.offset
      have hlength := hread.length_eq
      refine ⟨by rw [List.length_take]; omega, rest.take (size - position.offset), ?_⟩
      rw [List.drop_take, hread.appended, List.take_append,
        List.take_of_length_le (by omega)]
      congr 2
      omega

end Follows

/-! ## Runs -/

/-- The condition on one step, on the state before it. -/
def Orderly (n : Nat) (s : Logs) : Input → Prop
  | .log c action => ActionOrderly n (s.cursor.positions c) (s.dirs c) action
  | .poll => ∀ c ∈ logComponents, (s.dirs c).files.get .active ≠ none ∨
      ∀ f ∈ liveFiles (s.dirs c), (s.cursor.positions c).identity ≠ some f.inode

instance (n : Nat) (position : Position) (dir : LogDir) :
    ∀ action, Decidable (ActionOrderly n position dir action)
  | .rotate steps => inferInstanceAs (Decidable (∀ file ∈ dir.files.get .active, n < steps →
      position.identity = some file.inode))
  | .create _ => inferInstanceAs (Decidable (_ → _))
  | .write _ => inferInstanceAs (Decidable True)
  | .cutBack size => inferInstanceAs (Decidable (∀ file ∈ dir.files.get .active,
      position.identity = some file.inode → position.offset ≤ size))

instance (n : Nat) (s : Logs) : ∀ i, Decidable (Orderly n s i)
  | .log _ _ => inferInstanceAs (Decidable (ActionOrderly _ _ _ _))
  | .poll => inferInstanceAs (Decidable (∀ c ∈ logComponents, (s.dirs c).files.get .active ≠ none ∨
      ∀ f ∈ liveFiles (s.dirs c), (s.cursor.positions c).identity ≠ some f.inode))

/-- What an observer knows: the lines that polls have returned, and the events. -/
structure Observed where
  told : LogComponent → List Tag
  returned : List LogEvent

/-- Nothing yet. -/
def Observed.none : Observed := ⟨fun _ => [], []⟩

/-- The observer counts a line as returned at the first poll that finds it on disk. -/
def observe (since : LogComponent → Nat → Nat) (seen : Observed)
    (e : Step Logs Input (List LogEvent)) : Observed :=
  match e.input with
  | .log _ _ => seen
  | .poll =>
    ⟨fun c => seen.told c ++ (unreturned (since c) (seen.told c) (e.before.dirs c)).map Prod.fst,
      seen.returned ++ e.output⟩

/-- The sizes of the files when the cursor was created. -/
def sinceCreation (s : Logs) (c : LogComponent) : Nat → Nat := sizeAt (s.dirs c)

theorem follows_created {n : Nat} {dir : LogDir} (h : Sound n dir) :
    Follows n (sizeAt dir) [] (positionAt dir) dir := by
  have hsize : ∀ f ∈ liveFiles dir, sizeAt dir f.birth = f.content.length := by
    intro f hf
    obtain ⟨g, hg⟩ : ∃ g, (liveFiles dir).find? (fun file => decide (file.birth = f.birth)) =
        some g := by
      rw [← Option.isSome_iff_exists, List.find?_isSome]
      exact ⟨f, hf, decide_eq_true rfl⟩
    have hbirth := List.find?_some hg
    rw [sizeAt, hg, h.eq_of_birth (List.mem_of_find?_eq_some hg) hf (of_decide_eq_true hbirth)]
  have hlines : ∀ f ∈ liveFiles dir, linesOf (sizeAt dir) f = [] := by
    intro f hf
    rw [linesOf, hsize f hf, List.drop_length]
    rfl
  have hheard : ∀ f, Heard [] f 0 := fun f => heard_of_newer fun _ ht => nomatch ht
  refine ⟨h, List.Pairwise.nil, fun _ ht => (nomatch ht), ?_, ?_, ?_, ?_, ?_⟩
  · intro birth hbirth
    have hnone : (liveFiles dir).find? (fun file => decide (file.birth = birth)) = none := by
      rw [List.find?_eq_none]
      intro f hf heq
      have := h.born f hf
      rw [of_decide_eq_true heq] at this
      omega
    rw [sizeAt, hnone]
  · unfold positionAt
    cases dir.files.get .active with
    | none => exact fun _ => rfl
    | some file => exact fun hnone => nomatch hnone
  · intro f hf _
    rw [hlines f (h.mem_liveFiles.mpr (.inl hf))]
    exact hheard f
  · intro f hf hat
    unfold positionAt at hat ⊢
    cases hactive : dir.files.get .active with
    | none =>
      rw [hactive] at hat
      cases hat
    | some file =>
      rw [hactive] at hat
      cases h.eq_of_inode hf (h.active_mem hactive) (Option.some.inj hat).symm
      refine ⟨[], [], Whole.nil, ?_, ?_, ?_, hheard f, fun _ ht => nomatch ht⟩
      · rw [hsize f hf, List.drop_length]
        rfl
      · rw [hsize f hf]
      · rw [hsize f hf]
        rfl
  · intro f hf hne
    rw [positionAt, hf] at hne
    exact absurd rfl hne

section

variable (parse : LogComponent → Bytes → Option LogEvent) (policy : LogRetentionPolicy)
  (before : List (LogComponent × FileAction))

/-- A run from the creation of the cursor, with the observer. -/
def cursorRun (inputs : List Input) : List (Step (Logs × Observed) Input (List LogEvent)) :=
  run (watched (step parse policy.backup_count)
    (observe (sinceCreation (created policy.backup_count before))))
    (created policy.backup_count before, Observed.none) inputs

/-- The lines of a component that a step finds on disk and no poll has returned. -/
def toReturn (e : Step (Logs × Observed) Input (List LogEvent)) (c : LogComponent) : List Bytes :=
  (unreturned (sinceCreation (created policy.backup_count before) c) (e.before.2.told c)
    (e.before.1.dirs c)).map Prod.snd

/-- The invariant of such a run. -/
def Tracked (s : Logs × Observed) : Prop :=
  (∀ c, Follows policy.backup_count (sinceCreation (created policy.backup_count before) c)
    (s.2.told c) (s.1.cursor.positions c) (s.1.dirs c)) ∧
  s.1.cursor.seen_event_keys = s.2.returned.map LogEvent.identity

variable {policy before}

theorem tracked_start : Tracked policy before (created policy.backup_count before, Observed.none) :=
  ⟨fun c => follows_created (created_sound policy.backup_count_pos before c), rfl⟩

theorem tracked_step (s : Logs × Observed) (i : Input) (h : Tracked policy before s)
    (hok : Orderly policy.backup_count s.1 i) :
    Tracked policy before (watched (step parse policy.backup_count)
      (observe (sinceCreation (created policy.backup_count before))) s i).1 := by
  obtain ⟨hfollows, hseen⟩ := h
  cases i with
  | log c action =>
    refine ⟨fun c' => ?_, hseen⟩
    show Follows _ _ (s.2.told c') (s.1.cursor.positions c')
      (Function.update s.1.dirs c (action.run policy.backup_count (s.1.dirs c)) c')
    by_cases hc : c' = c
    · subst hc
      rw [Function.update_self]
      exact (hfollows c').action policy.backup_count_pos action hok
    · rw [Function.update_of_ne hc]
      exact hfollows c'
  | poll =>
    refine ⟨fun c => ((hfollows c).poll (hok c (mem_logComponents c))).2, ?_⟩
    have hkeys := (readNewEvents_delivers parse s.1.dirs s.1.cursor).2
    rw [hseen, ← List.map_append] at hkeys
    exact hkeys

/-- **Each line is returned by one poll.**  In every run whose steps are orderly, a poll returns the
    events of the complete lines that were appended since the cursor was created, are on disk, and
    were not returned by a poll before, ordered by their time, unless an event of the same identity
    was returned; and over all polls the lines of a component come in the order of appending. -/
theorem cursor_returns_each_line_once (inputs : List Input)
    (h : ∀ e ∈ cursorRun parse policy before inputs,
      Orderly policy.backup_count e.before.1 e.input) :
    ∀ e ∈ cursorRun parse policy before inputs, e.input = .poll →
      Delivers (e.before.2.returned.map LogEvent.identity)
        (eventsRead parse (toReturn policy before e)) e.output ∧
      ∀ c, (e.after.2.told c).Pairwise tagLt := by
  intro e he hpoll
  have hkeep : ∀ s i, Tracked policy before s → Orderly policy.backup_count s.1 i →
      Tracked policy before _ := tracked_step parse
  have hinv := run_induct hkeep _ inputs tracked_start h e he
  have hstep := run_of _ _ _ e he
  obtain ⟨⟨hfollows, hseen⟩, hafter, -⟩ := hinv
  have hok := h e he
  rw [hpoll] at hok
  refine ⟨?_, fun c => (hafter c).ordered⟩
  have hlines : toReturn policy before e = fun c =>
      (readComponent (e.before.1.dirs c) (e.before.1.cursor.positions c)).1 := by
    funext c
    exact (((hfollows c).poll (hok c (mem_logComponents c))).1).symm
  have houtput : e.output = (readNewEvents parse e.before.1.dirs e.before.1.cursor).2 := by
    rw [← hstep.output_eq, hpoll]
    rfl
  rw [hlines, houtput, ← hseen]
  exact (readNewEvents_delivers parse e.before.1.dirs e.before.1.cursor).1

end

/-! ## Runs with two events -/

def asciiBytes (text : String) : Bytes := text.toList.map fun c => UInt8.ofNat c.toNat

/-- The record of a `worker_tick` of the daemon, and its line without the newline. -/
def tickRecord (second : String) : String :=
  "\x7b\"component\": \"daemon\", \"event\": \"worker_tick\", \"level\": \"info\", " ++
    "\"message\": \"tick\", \"time\": \"2026-01-01T12:00:0" ++ second ++ "+00:00\"\x7d"

def tickLine (second : String) : Bytes :=
  asciiBytes "\x7b\"component\": \"daemon\", \"event\": \"worker_tick\", \"event_id\": \"tick-" ++
    asciiBytes second ++
    asciiBytes "\", \"level\": \"info\", \"message\": \"tick\", \"schema_version\": 1, " ++
    asciiBytes "\"time\": \"2026-01-01T12:00:0" ++ asciiBytes second ++ asciiBytes "+00:00\"\x7d"

/-- The event of such a line. -/
def tickEvent (second : String) (instant : Int) : LogEvent :=
  ⟨some instant, some ("tick-" ++ second), tickRecord second⟩

/-- What is read of the lines of the first three ticks. -/
def parseTick (_ : LogComponent) (line : Bytes) : Option LogEvent :=
  if line = tickLine "1" then some (tickEvent "1" 1767268801)
  else if line = tickLine "2" then some (tickEvent "2" 1767268802)
  else if line = tickLine "3" then some (tickEvent "3" 1767268803)
  else none

def twoBackups : LogRetentionPolicy := ⟨1, 2, Nat.le_refl 1, by decide⟩

/-- A whole line of the daemon. -/
def ticks (second : String) : Input := .log .daemon (.write (tickLine second ++ [10]))

/-- A rotation of the daemon's log that goes through, and the new active file. -/
def rotates (inode : Nat) : List Input := [.log .daemon (.rotate 3), .log .daemon (.create inode)]

/-- Three ticks, of which the last is behind a rotation. -/
def rotatedTicks : List Input :=
  [ticks "1", .poll, ticks "2"] ++ rotates 2 ++ [ticks "3", .poll]

theorem cursor_returns_each_line_once_rotated :
    (cursorRun parseTick twoBackups [(.daemon, .create 1)] rotatedTicks).length = 7 ∧
      ∀ e ∈ cursorRun parseTick twoBackups [(.daemon, .create 1)] rotatedTicks, e.input = .poll →
        Delivers (e.before.2.returned.map LogEvent.identity)
          (eventsRead parseTick (toReturn twoBackups [(.daemon, .create 1)] e)) e.output ∧
        ∀ c, (e.after.2.told c).Pairwise tagLt :=
  ⟨by decide +kernel, cursor_returns_each_line_once parseTick _ (by decide +kernel)⟩

/-- The events that a poll is to return, in the order in which the lines were appended. -/
def InAppendOrder (parse : LogComponent → Bytes → Option LogEvent) (policy : LogRetentionPolicy)
    (before : List (LogComponent × FileAction)) (inputs : List Input) : Prop :=
  ∀ e ∈ cursorRun parse policy before inputs, e.input = .poll →
    e.output = eventsRead parse (toReturn policy before e)

/-- Two events that are logged in the other order than they came about: a poll puts them by their
    time. -/
theorem poll_orders_by_time :
    ¬ InAppendOrder parseTick twoBackups [(.daemon, .create 1)] [ticks "2", ticks "1", .poll] := by
  intro h
  have hlast := h _ (List.mem_of_getLast? (by rfl)) rfl
  revert hlast
  decide +kernel

/-- Two rotations between two polls: the file between the one the cursor was on and the active one
    is passed over, though its line is on disk. -/
theorem two_rotations_skip :
    let inputs := [ticks "1"] ++ rotates 2 ++ [ticks "2"] ++ rotates 3 ++ [ticks "3", .poll]
    let e := (cursorRun parseTick twoBackups [(.daemon, .create 1)] inputs).getLast?
    e.map Step.output = some [tickEvent "1" 1767268801, tickEvent "3" 1767268803] ∧
      e.map (fun e => toReturn twoBackups [(.daemon, .create 1)] e .daemon) =
        some [tickLine "1", tickLine "2", tickLine "3"] := by
  decide +kernel

end NuSelf.Log
