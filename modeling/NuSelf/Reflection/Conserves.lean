/-
  One organizer pass over the pending reflections, with nobody else at work.

  The groups of the pass are a partition of the pending entries, whatever is similar to what.  Of
  each group the best entry stays pending and takes in a note for every other one, which is
  archived; an entry that is alone in its group is not written.

  1. `similarGroups_perm` — every pending entry is in exactly one group;
  2. `less_primary` — the primary entry of a group is better than any other member;
  3. `saveEach_spec` — saves under different ids: each of them is there, the rest unchanged;
  4. `organize_alone` — the pass is what an organizer does that nobody disturbs;
  5. `organize_conserves` — the pass as a whole;
  6. `note_cut_short` — a note has less than 180 characters of a body with more.
-/
import Mathlib.Data.List.Pairwise
import Mathlib.Data.Prod.Lex
import Mathlib.Data.String.Basic
import NuSelf.Reflection.Review

namespace NuSelf.Reflection

open NuSelf.Lib

section

variable (casefold : String → String)

/-! ## The pass -/

/-- The saves of a pass from the `n`-th on; `clock n` is the reading of `with_status` at that one.
    `none` where a save raises. -/
def saveEach (clock : Nat → String) :
    Nat → ReflectionEntries → List OrganizerWrite → Option ReflectionEntries
  | _, entries, [] => some entries
  | n, entries, write :: writes =>
    (entries.save (write.saved (clock n))).bind fun entries => saveEach clock (n + 1) entries writes

def organizePending (clock : Nat → String) (entries : ReflectionEntries) :
    Option (ReflectionEntries × Nat × Nat) :=
  let pending := entries.list (some .pending)
  (saveEach clock 0 entries (organizerWrites casefold pending)).map fun entries =>
    (entries, organizationResult casefold pending)

/-! ## What the pass is to do -/

/-- The value is the greatest of the members'. -/
def Greatest (field : ReflectionEntry → Double) (members : List ReflectionEntry) (value : Double) :
    Prop :=
  (∃ entry ∈ members, field entry = value) ∧ ∀ entry ∈ members, (field entry).le value = true

def Least (field : ReflectionEntry → Double) (members : List ReflectionEntry) (value : Double) :
    Prop :=
  (∃ entry ∈ members, field entry = value) ∧ ∀ entry ∈ members, value.le (field entry) = true

/-- What becomes of the primary entry of a group. -/
structure Kept (group : SimilarGroup) (kept : ReflectionEntry) : Prop where
  status : kept.status = .pending
  /-- Its body, and one note for each of the others. -/
  body : ∃ notes : List String, notes.Perm ((duplicatesOf group).map mergedNote) ∧
    kept.body =
      if notes = [] then (primaryEntry group).body
      else (primaryEntry group).body ++ "\n\nMerged similar reflection notes:\n" ++
        "\n".intercalate notes
  confidence : Greatest (·.confidence) group.entries kept.confidence
  novelty : Greatest (·.novelty) group.entries kept.novelty
  urgency : Greatest (·.urgency) group.entries kept.urgency
  interruption_cost : Least (·.interruption_cost) group.entries kept.interruption_cost
  composite_score : Greatest (·.composite_score) group.entries kept.composite_score
  /-- Everything else is as it was. -/
  others : kept =
    { primaryEntry group with
      body := kept.body, confidence := kept.confidence, novelty := kept.novelty,
      urgency := kept.urgency, interruption_cost := kept.interruption_cost,
      composite_score := kept.composite_score, status := kept.status,
      reviewed_at := kept.reviewed_at }

/-- What becomes of a group. -/
structure Organized (group : SimilarGroup) (after : ReflectionEntries) : Prop where
  /-- The primary entry is the best. -/
  best : primaryEntry group ∈ group.entries ∧ ∀ entry ∈ group.entries,
    entry.id ≠ (primaryEntry group).id → primaryLess entry (primaryEntry group) = true
  kept : ∃ kept, after.get (primaryEntry group).id = some kept ∧ Kept group kept
  archived : ∀ entry ∈ group.entries, entry.id ≠ (primaryEntry group).id →
    ∃ now, after.get entry.id = some (entry.withStatus .archived now)

/-! ## The groups are a partition -/

variable {casefold}

theorem takenIn_eq {leader : ReflectionEntry} : ∀ {entries : List ReflectionEntry}
    {assigned : List String}, (entries.map (·.id)).Nodup →
    takenIn casefold leader entries assigned = entries.filter fun other =>
      decide (other.id ∉ assigned) && similar casefold leader other
  | [], _, _ => rfl
  | other :: rest, assigned, hnodup => by
    obtain ⟨hnew, hnodup⟩ := List.nodup_cons.mp hnodup
    rw [takenIn, List.filter_cons]
    by_cases hassigned : other.id ∈ assigned
    · rw [if_pos hassigned, takenIn_eq hnodup, if_neg]
      simp [hassigned]
    · rw [if_neg hassigned]
      by_cases hsimilar : similar casefold leader other = true
      · rw [if_pos hsimilar, takenIn_eq hnodup, if_pos (by simp [hassigned, hsimilar])]
        -- the id that is assigned now is not that of a later entry
        congr 1
        refine List.filter_congr fun entry hentry => ?_
        have hne : entry.id ≠ other.id := fun he =>
          hnew (List.mem_map.mpr ⟨entry, hentry, he⟩)
        simp [hne]
      · rw [if_neg hsimilar, takenIn_eq hnodup, if_neg (by simp [hsimilar])]

theorem group_perm {entries : List ReflectionEntry} (hnodup : (entries.map (·.id)).Nodup)
    {entry : ReflectionEntry} (hentry : entry ∈ entries) {assigned : List String}
    (hfree : entry.id ∉ assigned) :
    let group : SimilarGroup := ⟨entry, takenIn casefold entry entries (entry.id :: assigned)⟩
    (group.entries ++ entries.filter fun other =>
      decide (other.id ∉ group.entries.map (·.id) ++ assigned)).Perm
        (entries.filter fun other => decide (other.id ∉ assigned)) := by
  intro group
  have hids : ∀ a ∈ entries, ∀ b ∈ entries, a.id = b.id → a = b :=
    fun a ha b hb h => List.inj_on_of_nodup_map hnodup ha hb h
  have hgroup : ∀ a ∈ group.entries, a ∈ entries ∧ a.id ∉ assigned := by
    refine List.forall_mem_cons.mpr ⟨⟨hentry, hfree⟩, fun a ha => ?_⟩
    obtain ⟨hmem, hnew, -⟩ := mem_takenIn ha
    exact ⟨hmem, fun h => hnew (List.mem_cons_of_mem _ h)⟩
  have hleft : group.entries.Nodup := by
    refine List.nodup_cons.mpr ⟨fun h => ?_, ?_⟩
    · exact (mem_takenIn h).2.1 List.mem_cons_self
    · show (takenIn casefold entry entries (entry.id :: assigned)).Nodup
      rw [takenIn_eq hnodup]
      exact hnodup.of_map.filter _
  refine (List.perm_ext_iff_of_nodup ?_ (hnodup.of_map.filter _)).mpr fun a => ?_
  · refine List.nodup_append.mpr ⟨hleft, hnodup.of_map.filter _, fun a ha b hb he => ?_⟩
    subst he
    have hnew := of_decide_eq_true (List.mem_filter.mp hb).2
    exact hnew (List.mem_append_left _ (List.mem_map_of_mem ha))
  · rw [List.mem_append, List.mem_filter, List.mem_filter, decide_eq_true_eq, decide_eq_true_eq,
      List.mem_append]
    constructor
    · rintro (ha | ⟨ha, hnew⟩)
      · exact hgroup a ha
      · exact ⟨ha, fun h => hnew (Or.inr h)⟩
    · rintro ⟨ha, hnew⟩
      by_cases hid : a.id ∈ group.entries.map (·.id)
      · obtain ⟨b, hb, he⟩ := List.mem_map.mp hid
        obtain rfl := hids b (hgroup b hb).1 a ha he
        exact Or.inl hb
      · exact Or.inr ⟨ha, fun h => h.elim hid hnew⟩

/-- **What is left is grouped**: every free entry once. -/
theorem similarGroupsFrom_perm {entries : List ReflectionEntry}
    (hnodup : (entries.map (·.id)).Nodup) : ∀ {rest : List ReflectionEntry}
    {assigned : List String}, (∀ entry ∈ rest, entry ∈ entries) →
      (∀ entry ∈ entries, entry.id ∈ assigned ∨ entry ∈ rest) →
      ((similarGroupsFrom casefold entries rest assigned).flatMap SimilarGroup.entries).Perm
        (entries.filter fun entry => decide (entry.id ∉ assigned))
  | [], assigned, _, hleft => by
    have hnone : entries.filter (fun entry => decide (entry.id ∉ assigned)) = [] := by
      refine List.filter_eq_nil_iff.mpr fun entry hentry => ?_
      rcases hleft entry hentry with h | h
      · simp [h]
      · cases h
    rw [hnone]
    exact List.Perm.nil
  | entry :: rest, assigned, hrest, hleft => by
    obtain ⟨hentry, hrest⟩ := List.forall_mem_cons.mp hrest
    rw [similarGroupsFrom]
    by_cases hassigned : entry.id ∈ assigned
    · rw [if_pos hassigned]
      refine similarGroupsFrom_perm hnodup hrest fun other hother => ?_
      rcases hleft other hother with h | h
      · exact Or.inl h
      · rcases List.mem_cons.mp h with rfl | h
        · exact Or.inl hassigned
        · exact Or.inr h
    · rw [if_neg hassigned]
      refine List.Perm.trans ?_
        (@group_perm casefold entries hnodup entry hentry assigned hassigned)
      rw [List.flatMap_cons]
      refine List.Perm.append_left _ (similarGroupsFrom_perm hnodup hrest fun other hother => ?_)
      rcases hleft other hother with h | h
      · exact Or.inl (List.mem_append_right _ h)
      · rcases List.mem_cons.mp h with rfl | h
        · exact Or.inl (List.mem_append_left _ (List.mem_map_of_mem List.mem_cons_self))
        · exact Or.inr h

/-- **The groups are a partition**, for any similarity. -/
theorem similarGroups_perm {entries : List ReflectionEntry}
    (hnodup : (entries.map (·.id)).Nodup) :
    ((similarGroups casefold entries).flatMap SimilarGroup.entries).Perm entries := by
  have hall := @similarGroupsFrom_perm casefold entries hnodup entries [] (fun _ h => h)
    fun _ h => Or.inr h
  have hfilter : entries.filter (fun entry => decide (entry.id ∉ ([] : List String))) = entries :=
    List.filter_eq_self.mpr fun entry _ => by simp
  rw [hfilter] at hall
  exact hall

/-! ## The primary entry -/

/-- What `_primary_entry` compares, in the order of tuples. -/
def primaryKey (entry : ReflectionEntry) : Int ×ₗ Int ×ₗ String ×ₗ String :=
  toLex (entry.composite_score.signed,
    toLex (entry.confidence.signed, toLex (entry.created_at, entry.id)))

theorem primaryLess_iff {a b : ReflectionEntry} (ha : a.finite = true) (hb : b.finite = true) :
    primaryLess a b = true ↔ primaryKey a < primaryKey b := by
  simp only [ReflectionEntry.finite, Bool.and_eq_true] at ha hb
  have hcomposite := Double.eq_iff ha.2 hb.2
  have hconfidence := Double.eq_iff ha.1.1.1.1 hb.1.1.1.1
  simp only [primaryKey, Prod.Lex.toLex_lt_toLex]
  rw [primaryLess]
  by_cases hc : a.composite_score.signed = b.composite_score.signed
  · rw [hcomposite.mpr hc, if_neg (by simp)]
    by_cases hd : a.confidence.signed = b.confidence.signed
    · rw [hconfidence.mpr hd, if_neg (by simp)]
      by_cases ht : a.created_at = b.created_at
      · rw [if_neg (not_not.mpr ht), decide_eq_true_eq]
        simp [hc, hd, ht]
      · rw [if_pos ht, decide_eq_true_eq]
        simp [hc, hd, ht]
    · rw [Bool.eq_false_iff.mpr fun h => hd (hconfidence.mp h), if_pos Bool.not_false,
        Double.lt_iff ha.1.1.1.1 hb.1.1.1.1]
      simp [hc, hd]
  · rw [Bool.eq_false_iff.mpr fun h => hc (hcomposite.mp h), if_pos Bool.not_false,
      Double.lt_iff ha.2 hb.2]
    simp [hc]

/-- **The primary entry is better than any other member.** -/
theorem less_primary {group : SimilarGroup} (hfinite : ∀ entry ∈ group.entries, entry.finite = true)
    {entry : ReflectionEntry} (hentry : entry ∈ group.entries)
    (hne : entry.id ≠ (primaryEntry group).id) : primaryLess entry (primaryEntry group) = true := by
  rw [primaryLess_iff (hfinite entry hentry) (hfinite _ (primaryEntry_mem group))]
  have hle : primaryKey entry ≤ primaryKey (primaryEntry group) :=
    le_best primaryLess primaryKey
      (fun a ha b hb => primaryLess_iff (hfinite a ha) (hfinite b hb)) entry hentry
  refine lt_of_le_of_ne hle fun heq => hne ?_
  simp only [primaryKey, EmbeddingLike.apply_eq_iff_eq, Prod.mk.injEq] at heq
  exact heq.2.2.2

/-! ## The saves -/

theorem OrganizerWrite.saved_id (write : OrganizerWrite) (now : String) :
    (write.saved now).id = write.id := by
  cases write <;> rfl

/-- **Saves under different ids**: each of them is there, and the rest is as it was. -/
theorem saveEach_spec {clock : Nat → String} : ∀ {writes : List OrganizerWrite} {n : Nat}
    {entries : ReflectionEntries}, (∀ write ∈ writes, ∀ now, (write.saved now).finite = true) →
    (writes.map (·.id)).Nodup →
    ∃ after, saveEach clock n entries writes = some after ∧
      (∀ write ∈ writes, ∃ now, after.get write.id = some (write.saved now)) ∧
      ∀ id, id ∉ writes.map (·.id) → after.get id = entries.get id
  | [], _, entries, _, _ => ⟨entries, rfl, fun _ h => (nomatch h), fun _ _ => rfl⟩
  | write :: writes, n, entries, hfinite, hnodup => by
    obtain ⟨hwrite, hfinite⟩ := List.forall_mem_cons.mp hfinite
    obtain ⟨hnew, hnodup⟩ := List.nodup_cons.mp hnodup
    have hsave : entries.save (write.saved (clock n)) =
        some (entries.put (write.saved (clock n)) (hwrite (clock n))) :=
      dif_pos (hwrite (clock n))
    obtain ⟨after, heq, hthere, hrest⟩ := @saveEach_spec clock writes (n + 1)
      (entries.put (write.saved (clock n)) (hwrite (clock n))) hfinite hnodup
    refine ⟨after, ?_, List.forall_mem_cons.mpr ⟨⟨clock n, ?_⟩, hthere⟩, fun id hid => ?_⟩
    · rw [saveEach, hsave]
      exact heq
    · rw [hrest write.id hnew, Shelf.get_put, write.saved_id, if_pos rfl]
    · have hne : id ≠ (write.saved (clock n)).id := by
        rw [write.saved_id]
        exact fun he => hid (he ▸ List.mem_cons_self)
      rw [hrest id fun h => hid (List.mem_cons_of_mem _ h), Shelf.get_put, if_neg hne]

/-! ## The pass among other callers -/

section

variable {ω : Type} [DecidableEq ω] {index : String → Option Nat}

theorem final_saves {clock : Nat → String} {caller : ω} (pending : List ReflectionEntry) :
    ∀ {writes : List OrganizerWrite} {n : Nat} {s : ReviewSystem ω} {after : ReflectionEntries},
      s.callers caller = some (.organizing pending writes) →
      saveEach clock n s.entries writes = some after →
      (final (ReviewSystem.step casefold index) s
        ((List.range' n writes.length).map fun k => .save caller (clock k))).entries = after
  | [], _, _, _, _, hsaved => Option.some.inj hsaved
  | write :: writes, n, s, after, hcaller, hsaved => by
    obtain ⟨entries, hsave, hrest⟩ := Option.bind_eq_some_iff.mp hsaved
    have hstep : (s.step casefold index (.save caller (clock n))).1 =
        { s with entries }.setCaller caller (some (.organizing pending writes)) := by
      rw [ReviewSystem.step, hcaller]
      dsimp only
      rw [ReviewSystem.saveAs, hsave]
    rw [List.length_cons, List.range'_succ, List.map_cons, final, hstep]
    refine final_saves pending ?_ hrest
    show Function.update s.callers caller _ caller = _
    rw [Function.update_self]

/-- **The pass is what an organizer does that nobody disturbs.** -/
theorem organize_alone {clock : Nat → String} (caller : ω) {entries after : ReflectionEntries}
    {result : Nat × Nat} (h : organizePending casefold clock entries = some (after, result)) :
    (final (ReviewSystem.step casefold index) { entries } (.organize caller ::
      (List.range' 0 (organizerWrites casefold (entries.list (some .pending))).length).map
        fun k => .save caller (clock k))).entries = after := by
  obtain ⟨saved, hsaved, heq⟩ := Option.map_eq_some_iff.mp h
  cases heq
  rw [final]
  refine final_saves (entries.list (some .pending)) ?_ hsaved
  show Function.update _ caller _ caller = _
  rw [Function.update_self]

end

/-! ## Which ids are written -/

theorem mem_duplicatesOf {group : SimilarGroup} {entry : ReflectionEntry} :
    entry ∈ duplicatesOf group ↔
      entry ∈ group.entries ∧ entry.id ≠ (primaryEntry group).id := by
  rw [duplicatesOf, List.mem_filter, decide_eq_true_eq]

/-- A group writes its own entries, each once, and only if it has two or more. -/
theorem groupWrites_ids {group : SimilarGroup} (hnodup : (group.entries.map (·.id)).Nodup) :
    ((groupWrites group).map (·.id)).Nodup ∧
      ∀ id ∈ (groupWrites group).map (·.id),
        2 ≤ group.entries.length ∧ id ∈ group.entries.map (·.id) := by
  have hprimary := primaryEntry_mem group
  have hmap : (duplicatesOf group).map (OrganizerWrite.id ∘ OrganizerWrite.duplicate) =
      (duplicatesOf group).map (·.id) := rfl
  rw [groupWrites]
  by_cases hnone : duplicatesOf group = []
  · rw [if_pos hnone]
    exact ⟨List.nodup_nil, List.forall_mem_nil _⟩
  · rw [if_neg hnone, List.map_cons, List.map_map, hmap]
    have hlength : 2 ≤ group.entries.length := by
      have hothers := List.length_pos_iff.mpr (others_ne_nil hnone)
      show 2 ≤ group.others.length + 1
      omega
    constructor
    · refine List.nodup_cons.mpr ⟨fun h => ?_, ?_⟩
      · obtain ⟨entry, hentry, he⟩ := List.mem_map.mp h
        exact (mem_duplicatesOf.mp hentry).2 he
      · exact hnodup.sublist (List.filter_sublist.map _)
    · refine List.forall_mem_cons.mpr ⟨⟨hlength, List.mem_map.mpr ⟨_, hprimary, rfl⟩⟩,
        fun id hid => ?_⟩
      obtain ⟨entry, hentry, rfl⟩ := List.mem_map.mp hid
      exact ⟨hlength, List.mem_map_of_mem (mem_duplicatesOf.mp hentry).1⟩

theorem groups_nodup {entries : List ReflectionEntry} (hnodup : (entries.map (·.id)).Nodup) :
    (∀ group ∈ similarGroups casefold entries, (group.entries.map (·.id)).Nodup) ∧
      (similarGroups casefold entries).Pairwise fun a b =>
        (a.entries.map (·.id)).Disjoint (b.entries.map (·.id)) := by
  have hperm := (@similarGroups_perm casefold entries hnodup).map (·.id)
  rw [List.map_flatMap] at hperm
  exact List.nodup_flatMap.mp (hperm.nodup_iff.mpr hnodup)

/-- **No id is written twice.** -/
theorem organizerWrites_nodup {entries : List ReflectionEntry}
    (hnodup : (entries.map (·.id)).Nodup) :
    ((organizerWrites casefold entries).map (·.id)).Nodup := by
  obtain ⟨heach, hdisjoint⟩ := @groups_nodup casefold entries hnodup
  rw [organizerWrites, List.map_flatMap]
  refine List.nodup_flatMap.mpr ⟨fun group hgroup => (groupWrites_ids (heach group hgroup)).1, ?_⟩
  refine hdisjoint.imp_of_mem fun ha hb hab => ?_
  intro id hida hidb
  exact hab ((groupWrites_ids (heach _ ha)).2 id hida).2 ((groupWrites_ids (heach _ hb)).2 id hidb).2

/-! ## The entry that is kept -/

theorem mem_entries_iff {group : SimilarGroup} (hnodup : (group.entries.map (·.id)).Nodup)
    {entry : ReflectionEntry} :
    entry ∈ group.entries ↔ entry ∈ primaryEntry group :: duplicatesOf group := by
  rw [List.mem_cons, mem_duplicatesOf]
  constructor
  · intro h
    by_cases hid : entry.id = (primaryEntry group).id
    · exact Or.inl (List.inj_on_of_nodup_map hnodup h (primaryEntry_mem group) hid)
    · exact Or.inr ⟨h, hid⟩
  · rintro (rfl | h)
    · exact primaryEntry_mem group
    · exact h.1

section

variable {group : SimilarGroup} (hnodup : (group.entries.map (·.id)).Nodup)
  {field : ReflectionEntry → Double} (hfield : ∀ entry ∈ group.entries, (field entry).isFinite = true)

include hnodup

theorem mem_values {x : Double} :
    x ∈ field (primaryEntry group) :: (duplicatesOf group).map field ↔
      ∃ entry ∈ group.entries, field entry = x := by
  rw [← List.map_cons, List.mem_map]
  simp only [mem_entries_iff hnodup]

include hfield

theorem greatest_maxOf : Greatest field group.entries
    ((field (primaryEntry group)).maxOf ((duplicatesOf group).map field)) := by
  refine ⟨(mem_values hnodup).mp (Double.maxOf_mem _ _), fun entry hentry => ?_⟩
  refine Double.le_maxOf (fun y hy => ?_) ((mem_values hnodup).mpr ⟨entry, hentry, rfl⟩)
  obtain ⟨other, hother, rfl⟩ := (mem_values hnodup).mp hy
  exact hfield other hother

theorem least_minOf : Least field group.entries
    ((field (primaryEntry group)).minOf ((duplicatesOf group).map field)) := by
  refine ⟨(mem_values hnodup).mp (Double.minOf_mem _ _), fun entry hentry => ?_⟩
  refine Double.minOf_le (fun y hy => ?_) ((mem_values hnodup).mpr ⟨entry, hentry, rfl⟩)
  obtain ⟨other, hother, rfl⟩ := (mem_values hnodup).mp hy
  exact hfield other hother

end

/-- **The merged entry** is what the primary one is to become. -/
theorem kept_merged {group : SimilarGroup} (hnodup : (group.entries.map (·.id)).Nodup)
    (hfinite : ∀ entry ∈ group.entries, entry.finite = true) :
    Kept group (mergeEntries (primaryEntry group) (duplicatesOf group)) := by
  simp only [ReflectionEntry.finite, Bool.and_eq_true] at hfinite
  refine ⟨rfl, ⟨_, (List.mergeSort_perm _ noteOrder).map mergedNote, rfl⟩, ?_, ?_, ?_, ?_, ?_, rfl⟩
  · exact greatest_maxOf hnodup fun entry hentry => (hfinite entry hentry).1.1.1.1
  · exact greatest_maxOf hnodup fun entry hentry => (hfinite entry hentry).1.1.1.2
  · exact greatest_maxOf hnodup fun entry hentry => (hfinite entry hentry).1.1.2
  · exact least_minOf hnodup fun entry hentry => (hfinite entry hentry).1.2
  · exact greatest_maxOf hnodup fun entry hentry => (hfinite entry hentry).2

theorem kept_alone {group : SimilarGroup} (hnodup : (group.entries.map (·.id)).Nodup)
    (hfinite : ∀ entry ∈ group.entries, entry.finite = true) (hnone : duplicatesOf group = [])
    (hpending : (primaryEntry group).status = .pending) : Kept group (primaryEntry group) := by
  have hmerged := kept_merged hnodup hfinite
  have hsame : mergeEntries (primaryEntry group) (duplicatesOf group) =
      { primaryEntry group with reviewed_at := none } := by
    rw [hnone, mergeEntries, List.mergeSort_nil, ← hpending]
    rfl
  rw [hsame] at hmerged
  exact ⟨hpending, hmerged.body, hmerged.confidence, hmerged.novelty, hmerged.urgency,
    hmerged.interruption_cost, hmerged.composite_score, rfl⟩

/-! ## The whole pass -/

theorem list_nodup (entries : ReflectionEntries) (status : Option ReflectionStatus) :
    ((entries.list status).map (·.id)).Nodup := by
  have hperm := List.perm_insertionSort (fun a b => b.created_at ≤ a.created_at)
    (entries.records.filter fun entry => decide (status = none ∨ status = some entry.status))
  refine (hperm.map (·.id)).nodup_iff.mpr ?_
  exact entries.nodup_keys.sublist (List.filter_sublist.map _)

theorem organized_of_saved {group : SimilarGroup} {entries after : ReflectionEntries}
    (hnodup : (group.entries.map (·.id)).Nodup)
    (hlisted : ∀ entry ∈ group.entries, entry ∈ entries.list (some .pending))
    (hthere : ∀ write ∈ groupWrites group, ∃ now, after.get write.id = some (write.saved now))
    (halone : duplicatesOf group = [] →
      after.get (primaryEntry group).id = entries.get (primaryEntry group).id) :
    Organized group after := by
  have hstored : ∀ entry ∈ group.entries, entries.get entry.id = some entry ∧
      entry.status = .pending := by
    intro entry hentry
    obtain ⟨hget, hstatus⟩ := ReflectionEntries.mem_list_iff.mp (hlisted entry hentry)
    rcases hstatus with h | h
    · cases h
    · exact ⟨hget, (Option.some.inj h).symm⟩
  have hfinite : ∀ entry ∈ group.entries, entry.finite = true :=
    fun entry hentry => entries.valid_of_get (hstored entry hentry).1
  have hprimary := primaryEntry_mem group
  refine ⟨⟨hprimary, fun entry hentry hne => less_primary hfinite hentry hne⟩, ?_,
    fun entry hentry hne => ?_⟩
  · by_cases hnone : duplicatesOf group = []
    · refine ⟨primaryEntry group, ?_, kept_alone hnodup hfinite hnone (hstored _ hprimary).2⟩
      rw [halone hnone]
      exact (hstored _ hprimary).1
    · refine ⟨_, ?_, kept_merged hnodup hfinite⟩
      obtain ⟨_, hget⟩ := hthere (.merged (mergeEntries (primaryEntry group) (duplicatesOf group)))
        (by rw [groupWrites, if_neg hnone]; exact List.mem_cons_self)
      exact hget
  · have hduplicate := mem_duplicatesOf.mpr ⟨hentry, hne⟩
    refine hthere (.duplicate entry) ?_
    rw [groupWrites, if_neg (List.ne_nil_of_mem hduplicate)]
    exact List.mem_cons_of_mem _ (List.mem_map_of_mem hduplicate)

variable (casefold)

/-- **A pass conserves the content** of every repository.  It ends well.  Its groups are a
    partition of the pending entries; in each of them the best entry stays pending with the notes
    and the extreme values, and the others are archived; what is not in a group of two or more is
    not written. -/
theorem organize_conserves (clock : Nat → String) (entries : ReflectionEntries) :
    let pending := entries.list (some .pending)
    let groups := similarGroups casefold pending
    ∃ after, organizePending casefold clock entries =
        some (after, organizationResult casefold pending) ∧
      (groups.flatMap SimilarGroup.entries).Perm pending ∧
      (∀ group ∈ groups, Organized group after) ∧
      (∀ write ∈ organizerWrites casefold pending, ∃ group ∈ groups,
        2 ≤ group.entries.length ∧ write.id ∈ group.entries.map (·.id)) ∧
      ∀ id, (∀ group ∈ groups, 2 ≤ group.entries.length → id ∉ group.entries.map (·.id)) →
        after.get id = entries.get id := by
  intro pending groups
  have hids : (pending.map (·.id)).Nodup := list_nodup entries (some .pending)
  have hperm := @similarGroups_perm casefold pending hids
  obtain ⟨heach, hdisjoint⟩ := @groups_nodup casefold pending hids
  have hfinite : ∀ entry ∈ pending, entry.finite = true := fun entry hentry =>
    entries.valid_of_get (ReflectionEntries.mem_list_iff.mp hentry).1
  obtain ⟨after, hsaved, hthere, hrest⟩ := @saveEach_spec clock (organizerWrites casefold pending) 0
    entries (fun write hwrite => (mem_organizerWrites hfinite hwrite).finite)
    (organizerWrites_nodup hids)
  have hwritten : ∀ write ∈ organizerWrites casefold pending, ∃ group ∈ groups,
      2 ≤ group.entries.length ∧ write.id ∈ group.entries.map (·.id) := by
    intro write hwrite
    obtain ⟨group, hgroup, hmem⟩ := List.mem_flatMap.mp hwrite
    exact ⟨group, hgroup, (groupWrites_ids (heach group hgroup)).2 _ (List.mem_map_of_mem hmem)⟩
  have huntouched : ∀ id,
      (∀ group ∈ groups, 2 ≤ group.entries.length → id ∉ group.entries.map (·.id)) →
        after.get id = entries.get id := by
    intro id hid
    refine hrest id fun hmem => ?_
    obtain ⟨write, hwrite, rfl⟩ := List.mem_map.mp hmem
    obtain ⟨group, hgroup, hlength, hof⟩ := hwritten write hwrite
    exact hid group hgroup hlength hof
  refine ⟨after, ?_, hperm, fun group hgroup => ?_, hwritten, huntouched⟩
  · rw [organizePending, hsaved]
    rfl
  · refine organized_of_saved (heach group hgroup) (mem_similarGroups hgroup).mem
      (fun write hwrite => hthere write (List.mem_flatMap.mpr ⟨group, hgroup, hwrite⟩))
      fun hnone => hrest _ fun hmem => ?_
    -- the id would be written by another group, which shares none with this one
    obtain ⟨write, hwrite, hid⟩ := List.mem_map.mp hmem
    obtain ⟨other, hother, hwrite⟩ := List.mem_flatMap.mp hwrite
    have hne : other ≠ group := by
      rintro rfl
      rw [groupWrites, if_pos hnone] at hwrite
      cases hwrite
    have hshared := ((groupWrites_ids (heach other hother)).2 _ (List.mem_map_of_mem hwrite)).2
    rw [hid] at hshared
    have hsymm : Std.Symm fun a b : SimilarGroup =>
        (a.entries.map (·.id)).Disjoint (b.entries.map (·.id)) := ⟨fun _ _ h => h.symm⟩
    exact hdisjoint.forall hother hgroup hne hshared (List.mem_map_of_mem (primaryEntry_mem group))

end

/-! ### A long note -/

def walkIdea (id body : String) (composite_score : Double) : ReflectionEntry where
  id := id
  title := "walk more every morning"
  body := body
  candidate_type := .action
  confidence := 0x3fe0000000000000#64
  novelty := 0x3fe0000000000000#64
  urgency := 0x3fe0000000000000#64
  interruption_cost := 0x3fc0000000000000#64
  composite_score := composite_score
  status := .pending
  discussion_approved := none
  discussion_trace := []
  deep_link := ""
  created_at := "2026-01-01T12:00:00+00:00"
  reviewed_at := none

def shortIdea : ReflectionEntry := walkIdea "a" "" 0x3fe8000000000000#64

/-- One letter, ninety-one times. -/
def longText : List Char := (List.replicate 90 ['z', ' ']).flatten ++ ['z']

def longIdea : ReflectionEntry := walkIdea "b" (String.ofList longText) 0x3fe0000000000000#64

def walkIdeas : ReflectionEntries := (Shelf.empty.put shortIdea rfl).put longIdea rfl

theorem toList_snippet : (" ".intercalate (words longIdea.body)).toList = longText := by
  have hchars : words longIdea.body = wordsAux longText [] :=
    congrArg (wordsAux · []) String.toList_ofList
  have hwords : wordsAux longText [] = List.replicate 91 "z" := by decide +kernel
  rw [hchars, hwords, String.toList_intercalate]
  decide +kernel

theorem similar_ideas : similar id shortIdea longIdea = true := by
  have hchars : (longIdea.title ++ " " ++ longIdea.body).toList =
      "walk more every morning ".toList ++ longText := by
    rw [String.toList_append]
    exact congrArg ("walk more every morning ".toList ++ ·) String.toList_ofList
  have htokens : tokens id (longIdea.title ++ " " ++ longIdea.body) =
      tokens id (shortIdea.title ++ " " ++ shortIdea.body) := by
    have hruns : tokenRuns ("walk more every morning ".toList ++ longText) [] =
        ["walk", "more", "every", "morning"] ++ List.replicate 91 "z" := by decide +kernel
    rw [tokens, id, hchars, hruns]
    decide +kernel
  rw [similar, htokens]
  decide +kernel

theorem toList_mergedNote : (mergedNote longIdea).toList =
    "- walk more every morning: ".toList ++ (longText.take 177 ++ "...".toList) := by
  have hlong : 180 < (" ".intercalate (words longIdea.body)).length := by
    rw [← String.length_toList, toList_snippet]
    decide +kernel
  have hstripped : (rstrip (String.ofList (longText.take 177))).toList = longText.take 177 := by
    rw [rstrip, String.toList_ofList, String.toList_ofList]
    decide +kernel
  have hshown : (rstrip (String.ofList (longText.take 177)) ++ "...").toList =
      longText.take 177 ++ "...".toList := by
    rw [String.toList_append, hstripped]
  rw [mergedNote, if_pos hlong, toList_snippet, String.toList_append, hshown]
  rfl

theorem toList_mergedBody : (mergeEntries shortIdea [longIdea]).body.toList =
    "\n\nMerged similar reflection notes:\n".toList ++ (mergedNote longIdea).toList := by
  rw [mergeEntries, List.mergeSort_singleton, List.map_singleton]
  dsimp only
  rw [if_neg (List.cons_ne_nil _ _), String.intercalate_singleton, String.toList_append]
  rfl

/-- **The note is cut before the 180th character**: three of them are dots. -/
theorem note_cut_short : ∃ after kept,
    organizePending id (fun _ => "2026-01-01T13:00:00+00:00") walkIdeas = some (after, 1, 1) ∧
      after.get "a" = some kept ∧ (after.get "b").map (·.status) = some .archived ∧
      ¬ (" ".intercalate (words longIdea.body)).toList.take 180 <:+: kept.body.toList := by
  have hpending : walkIdeas.list (some .pending) = [shortIdea, longIdea] := rfl
  have hgroups : similarGroups id [shortIdea, longIdea] = [⟨shortIdea, [longIdea]⟩] := by
    have hne : longIdea.id ≠ shortIdea.id := by decide
    simp [similarGroups, similarGroupsFrom, takenIn, similar_ideas, hne, SimilarGroup.entries]
  have hprimary : primaryEntry ⟨shortIdea, [longIdea]⟩ = shortIdea := rfl
  have hduplicates : duplicatesOf ⟨shortIdea, [longIdea]⟩ = [longIdea] := rfl
  have hresult : organizationResult id [shortIdea, longIdea] = (1, 1) := by
    rw [organizationResult, hgroups]
    rfl
  have hwrites : organizerWrites id [shortIdea, longIdea] =
      [.merged (mergeEntries shortIdea [longIdea]), .duplicate longIdea] := by
    rw [organizerWrites, hgroups, List.flatMap_singleton, groupWrites, hprimary, hduplicates]
    rfl
  obtain ⟨after, hsaved, hthere, -⟩ := @saveEach_spec (fun _ => "2026-01-01T13:00:00+00:00")
    [.merged (mergeEntries shortIdea [longIdea]), .duplicate longIdea] 0 walkIdeas
    (List.forall_mem_cons.mpr ⟨fun _ => mergeEntries_finite rfl (List.forall_mem_singleton.mpr rfl),
      List.forall_mem_singleton.mpr fun _ => ReflectionEntry.withStatus_finite longIdea _ _⟩)
    (by decide)
  obtain ⟨⟨_, hkept⟩, hrest⟩ := List.forall_mem_cons.mp hthere
  obtain ⟨_, harchived⟩ := List.forall_mem_singleton.mp hrest
  refine ⟨after, _, ?_, hkept, ?_, ?_⟩
  · rw [organizePending, hpending, hwrites, hsaved, hresult]
    rfl
  · rw [show after.get "b" = _ from harchived]
    rfl
  · show ¬ _ <:+: (mergeEntries shortIdea [longIdea]).body.toList
    rw [toList_snippet, toList_mergedBody, toList_mergedNote]
    intro hinside
    -- ninety letters do not fit into a note with eighty-nine
    exact absurd (hinside.sublist.count_le 'z') (by decide +kernel)

end NuSelf.Reflection
