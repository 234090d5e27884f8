/-
  Cutting the body of a source document into chunks.

  The body is cut at blank lines; what is left of the pieces without their margins, where anything
  is left, are the paragraphs.  The accumulator takes one paragraph after the other as long as the
  text stays within the target, and is given out when the next one does not fit.

  1. `paragraphs_joined` — paragraphs joined with blank lines are the paragraphs of the result;
  2. `pack_eq` — the texts given out are those of groups of paragraphs;
  3. `flatten_groups`, `groups_oversized`, `groups_greedy` — the groups;
  4. `chunks_lose_nothing` — the chunks of a body.
-/
import Mathlib.Data.List.Chain
import Mathlib.Data.List.Nodup
import NuSelf.Lib.Lines
import NuSelf.Lib.Split
import NuSelf.Source.Record

namespace NuSelf.Source

open NuSelf.Lib

def chunkTargetChars : Nat := 1200

def blankLine : String := "\n\n"

/-- `part.strip() for part in body.split("\n\n") if part.strip()`. -/
def paragraphs (body : String) : List String :=
  (((splitSep blankLine.toList body.toList).map String.ofList).map strip).filter fun part =>
    part ≠ ""

/-- The loop: the texts that are given out, with what has been taken so far. -/
def pack (current : String) : List String → List String
  | [] => if current ≠ "" then [current] else []
  | paragraph :: rest =>
    if current ≠ "" ∧ chunkTargetChars < current.length + paragraph.length + 2 then
      current :: pack paragraph rest
    else pack (if current = "" then paragraph else current ++ blankLine ++ paragraph) rest

/-- `_chunks`; `now` is what the clock says when each of them is made. -/
def chunks (document : SourceDocument) (body : String) (now : Nat → String) : List SourceChunk :=
  (pack "" (paragraphs body)).mapIdx fun index value =>
    { id := chunkIdFor document.id index
      source_id := document.id
      source_ref := "source:" ++ document.id ++ ":" ++ toString index
      index := index
      text := value
      title := document.title
      path := document.path
      created_at := now index }

/-- `"\n\n".join`. -/
def joined (texts : List String) : String := blankLine.intercalate texts

/-! ## Paragraphs -/

/-- A piece of text without blank lines, and without margins. -/
structure IsParagraph (p : String) : Prop where
  shown : p ≠ ""
  stripped : strip p = p
  unbroken : ¬ blankLine.toList <:+: p.toList

theorem stripChars_inside (l : List Char) : stripChars l <:+: l :=
  (List.rdropWhile_prefix isSpace _).isInfix.trans (List.dropWhile_suffix isSpace).isInfix

theorem blankLine_ne_nil : blankLine.toList ≠ [] := by decide

theorem isParagraph_of_mem {body p : String} (h : p ∈ paragraphs body) : IsParagraph p := by
  obtain ⟨hmem, hshown⟩ := List.mem_filter.mp h
  rw [List.map_map] at hmem
  obtain ⟨piece, hpiece, rfl⟩ := List.mem_map.mp hmem
  refine ⟨of_decide_eq_true hshown, strip_strip _, fun hinside => ?_⟩
  rw [Function.comp_apply, toList_strip, String.toList_ofList] at hinside
  exact not_infix_of_mem_splitSep blankLine_ne_nil hpiece (hinside.trans (stripChars_inside piece))

theorem IsParagraph.getLast?_ne {p : String} (h : IsParagraph p) :
    p.toList.getLast? ≠ some '\n' := by
  rw [← h.stripped, toList_strip]
  exact getLast?_rdropWhile_ne (by decide) _

theorem IsParagraph.not_at_front {p : String} (h : IsParagraph p) (t rest : List Char)
    (ht : t <:+ p.toList) (hne : t ≠ []) :
    ¬ blankLine.toList <+: t ++ (blankLine.toList ++ rest) := by
  intro hbreak
  have hbreak : ['\n', '\n'] <+: t ++ (blankLine.toList ++ rest) := hbreak
  match t, hne with
  | [c], _ =>
    have hc : '\n' = c := (List.cons_prefix_cons.mp hbreak).1
    subst hc
    obtain ⟨front, hfront⟩ := ht
    exact h.getLast?_ne (by rw [← hfront, List.getLast?_append]; rfl)
  | c :: d :: t, _ =>
    obtain ⟨rfl, hrest⟩ := List.cons_prefix_cons.mp hbreak
    obtain ⟨rfl, -⟩ := List.cons_prefix_cons.mp hrest
    exact h.unbroken ((List.prefix_append ['\n', '\n'] t).isInfix.trans ht.isInfix)

/-- **Paragraphs that have been joined** are read back. -/
theorem paragraphs_joined {ps : List String} (h : ∀ p ∈ ps, IsParagraph p) :
    paragraphs (joined ps) = ps := by
  have hkeep : ps.filter (fun part => part ≠ "") = ps :=
    List.filter_eq_self.mpr fun p hp => decide_eq_true (h p hp).shown
  cases ps with
  | nil => decide +kernel
  | cons p rest =>
    have hsplit : splitSep blankLine.toList (joined (p :: rest)).toList =
        (p :: rest).map String.toList := by
      rw [joined, String.toList_intercalate]
      refine splitSep_intercalate blankLine_ne_nil (by simp) fun piece hpiece => ?_
      obtain ⟨q, hq, rfl⟩ := List.mem_map.mp hpiece
      exact ⟨(h q hq).unbroken, fun t behind => (h q hq).not_at_front t behind⟩
    have hstrip : ((p :: rest).map String.toList).map String.ofList = p :: rest := by
      rw [List.map_map]
      exact List.map_id'' (fun q => String.ofList_toList) _
    rw [paragraphs, hsplit, hstrip, List.map_congr_left fun q hq => (h q hq).stripped,
      List.map_id', hkeep]

/-! ## Groups -/

/-- The loop with the paragraphs kept apart. -/
def groups (group : List String) : List String → List (List String)
  | [] => if group ≠ [] then [group] else []
  | paragraph :: rest =>
    if group ≠ [] ∧ chunkTargetChars < (joined group).length + paragraph.length + 2 then
      group :: groups [paragraph] rest
    else groups (group ++ [paragraph]) rest

theorem joined_append {ps qs : List String} (hp : ps ≠ []) (hq : qs ≠ []) :
    joined (ps ++ qs) = joined ps ++ blankLine ++ joined qs :=
  String.intercalate_append_of_ne_nil hp hq

theorem joined_eq_empty_iff {ps : List String} (h : ∀ p ∈ ps, p ≠ "") :
    joined ps = "" ↔ ps = [] := by
  constructor
  · intro hempty
    cases ps with
    | nil => rfl
    | cons p rest =>
      -- what begins with a text is not empty
      have hp := h p List.mem_cons_self
      cases rest with
      | nil => exact absurd (String.intercalate_singleton.symm.trans hempty) hp
      | cons q others =>
        have hcons : joined (p :: q :: others) = p ++ blankLine ++ joined (q :: others) :=
          String.intercalate_cons_cons
        rw [hempty] at hcons
        have hlist := congrArg String.toList hcons
        rw [String.toList_append, String.toList_append] at hlist
        have hnil := (List.append_eq_nil_iff.mp hlist.symm).1
        exact absurd (List.append_eq_nil_iff.mp hnil).2 blankLine_ne_nil
  · rintro rfl
    rfl

/-- **The texts are those of the groups.** -/
theorem pack_eq : ∀ (rest group : List String), (∀ p ∈ group, p ≠ "") → (∀ p ∈ rest, p ≠ "") →
    pack (joined group) rest = (groups group rest).map joined
  | [], group, hgroup, _ => by
    have hempty := not_congr (joined_eq_empty_iff hgroup)
    rw [pack, groups]
    by_cases hnil : group = []
    · rw [if_neg (not_not.mpr ((joined_eq_empty_iff hgroup).mpr hnil)), if_neg (not_not.mpr hnil)]
      rfl
    · rw [if_pos (hempty.mpr hnil), if_pos hnil]
      rfl
  | paragraph :: rest, group, hgroup, hrest => by
    have hempty := joined_eq_empty_iff hgroup
    obtain ⟨hparagraph, hlater⟩ := List.forall_mem_cons.mp hrest
    have hone : joined [paragraph] = paragraph := String.intercalate_singleton
    have hcond : (joined group ≠ "" ∧
        chunkTargetChars < (joined group).length + paragraph.length + 2) ↔
        (group ≠ [] ∧ chunkTargetChars < (joined group).length + paragraph.length + 2) :=
      and_congr_left' (not_congr hempty)
    rw [pack, groups]
    by_cases hfull : group ≠ [] ∧
        chunkTargetChars < (joined group).length + paragraph.length + 2
    · have hstart := pack_eq rest [paragraph] (List.forall_mem_singleton.mpr hparagraph) hlater
      rw [hone] at hstart
      rw [if_pos (hcond.mpr hfull), if_pos hfull, hstart]
      rfl
    · have hmore := pack_eq rest (group ++ [paragraph])
        (List.forall_mem_append.mpr ⟨hgroup, List.forall_mem_singleton.mpr hparagraph⟩) hlater
      rw [if_neg (mt hcond.mp hfull), if_neg hfull, ← hmore]
      by_cases hnil : group = []
      · subst hnil
        rw [if_pos (hempty.mpr rfl), List.nil_append, hone]
      · rw [if_neg (mt hempty.mp hnil), joined_append hnil (List.cons_ne_nil _ _), hone]

theorem flatten_groups : ∀ (rest group : List String),
    (groups group rest).flatten = group ++ rest
  | [], group => by
    rw [groups]
    by_cases hnil : group = []
    · rw [if_neg (not_not.mpr hnil), hnil]
      rfl
    · rw [if_pos hnil, List.flatten_singleton, List.append_nil]
  | paragraph :: rest, group => by
    rw [groups]
    split
    · rw [List.flatten_cons, flatten_groups rest]
      rfl
    · rw [flatten_groups rest, List.append_assoc]
      rfl

/-- A group that exceeds the target has one paragraph. -/
def Fitting (group : List String) : Prop :=
  chunkTargetChars < (joined group).length → group.length ≤ 1

theorem length_joined_append {group : List String} (hne : group ≠ []) (paragraph : String) :
    (joined (group ++ [paragraph])).length = (joined group).length + paragraph.length + 2 := by
  have hone : joined [paragraph] = paragraph := String.intercalate_singleton
  have htwo : blankLine.length = 2 := by decide +kernel
  rw [joined_append hne (List.cons_ne_nil _ _), hone, String.length_append, String.length_append,
    htwo]
  omega

theorem groups_oversized : ∀ (rest group : List String), Fitting group →
    ∀ g ∈ groups group rest, g ≠ [] ∧ Fitting g
  | [], group, hfits => by
    rw [groups]
    intro g hg
    by_cases hnil : group = []
    · rw [if_neg (not_not.mpr hnil)] at hg
      exact nomatch hg
    · rw [if_pos hnil, List.mem_singleton] at hg
      exact hg ▸ ⟨hnil, hfits⟩
  | paragraph :: rest, group, hfits => by
    have hone : Fitting [paragraph] := fun _ => Nat.le_refl 1
    rw [groups]
    intro g hg
    by_cases hfull : group ≠ [] ∧
        chunkTargetChars < (joined group).length + paragraph.length + 2
    · rw [if_pos hfull] at hg
      rcases List.mem_cons.mp hg with rfl | hlater
      · exact ⟨hfull.1, hfits⟩
      · exact groups_oversized rest [paragraph] hone g hlater
    · rw [if_neg hfull] at hg
      refine groups_oversized rest (group ++ [paragraph]) (fun hlong => ?_) g hg
      by_cases hnil : group = []
      · rw [hnil]
        exact Nat.le_refl 1
      · rw [length_joined_append hnil] at hlong
        exact absurd ⟨hnil, hlong⟩ hfull

/-- The first paragraph of the second group does not fit into the first one. -/
def NoRoom (g h : List String) : Prop :=
  ∀ p ∈ h.head?, chunkTargetChars < (joined (g ++ [p])).length

theorem head_groups : ∀ (rest group : List String), group ≠ [] →
    ∃ first others, groups group rest = first :: others ∧ first.head? = group.head?
  | [], group, hne => ⟨group, [], by rw [groups, if_pos hne], rfl⟩
  | paragraph :: rest, group, hne => by
    rw [groups]
    split
    · exact ⟨group, _, rfl, rfl⟩
    · obtain ⟨first, others, heq, hhead⟩ := head_groups rest (group ++ [paragraph]) (by simp)
      refine ⟨first, others, heq, ?_⟩
      rw [hhead, List.head?_append_of_ne_nil _ hne]

/-- **The packing is greedy.** -/
theorem groups_greedy : ∀ (rest group : List String), (groups group rest).IsChain NoRoom
  | [], group => by
    rw [groups]
    split
    · exact List.isChain_singleton group
    · exact List.isChain_nil
  | paragraph :: rest, group => by
    rw [groups]
    by_cases hfull : group ≠ [] ∧
        chunkTargetChars < (joined group).length + paragraph.length + 2
    · rw [if_pos hfull]
      obtain ⟨first, others, heq, hhead⟩ := head_groups rest [paragraph] (List.cons_ne_nil _ _)
      have hlater := groups_greedy rest [paragraph]
      rw [heq] at hlater ⊢
      refine List.isChain_cons_cons.mpr ⟨fun p hp => ?_, hlater⟩
      rw [hhead] at hp
      obtain rfl : paragraph = p := Option.some.inj hp
      rw [length_joined_append hfull.1]
      exact hfull.2
    · rw [if_neg hfull]
      exact groups_greedy rest (group ++ [paragraph])

/-! ## The chunks of a body -/

/-- What the chunks should be. -/
structure LosesNothing (document : SourceDocument) (body : String) (cs : List SourceChunk) :
    Prop where
  rejoined : joined (cs.map SourceChunk.text) = joined (paragraphs body)
  regrouped : (cs.map fun c => paragraphs c.text).flatten = paragraphs body
  shown : ∀ c ∈ cs, c.text ≠ ""
  numbered : cs.map SourceChunk.index = List.range cs.length
  named : ∀ c ∈ cs, c.id = chunkIdFor document.id c.index ∧ c.source_id = document.id
  distinct : (cs.map SourceChunk.id).Nodup
  oversized : ∀ c ∈ cs, chunkTargetChars < c.text.length → paragraphs c.text = [c.text]
  greedy : cs.IsChain fun c d => ∀ p ∈ (paragraphs d.text).head?,
    chunkTargetChars < (c.text ++ blankLine ++ p).length

theorem joined_map_joined : ∀ {gs : List (List String)}, (∀ g ∈ gs, g ≠ []) →
    joined (gs.map joined) = joined gs.flatten
  | [], _ => rfl
  | [g], _ => by
    rw [List.map_singleton, List.flatten_singleton]
    exact String.intercalate_singleton
  | g :: next :: others, h => by
    obtain ⟨hg, hrest⟩ := List.forall_mem_cons.mp h
    have hnext : (next :: others).flatten ≠ [] := by
      rw [List.flatten_cons]
      exact List.append_ne_nil_of_left_ne_nil (List.forall_mem_cons.mp hrest).1 _
    have hone : joined [joined g] = joined g := String.intercalate_singleton
    have hlater := joined_map_joined hrest
    calc joined ((g :: next :: others).map joined)
        = joined ([joined g] ++ (next :: others).map joined) := rfl
      _ = joined g ++ blankLine ++ joined (next :: others).flatten := by
          rw [joined_append (List.cons_ne_nil _ _) (by simp), hone, hlater]
      _ = joined (g ++ (next :: others).flatten) := (joined_append hg hnext).symm

theorem map_mapIdx {α β γ : Type} (f : Nat → α → β) (g : β → γ) (l : List α) :
    (l.mapIdx f).map g = l.mapIdx fun i a => g (f i a) := by
  refine List.ext_getElem? fun i => ?_
  rw [List.getElem?_map, List.getElem?_mapIdx, List.getElem?_mapIdx, Option.map_map]
  rfl

variable (document : SourceDocument) (body : String) (now : Nat → String)

theorem texts_chunks : (chunks document body now).map SourceChunk.text =
    (groups [] (paragraphs body)).map joined := by
  have hpack : pack (joined []) (paragraphs body) = (groups [] (paragraphs body)).map joined :=
    pack_eq _ [] (List.forall_mem_nil _) fun p hp => (isParagraph_of_mem hp).shown
  rw [← hpack, chunks, map_mapIdx]
  refine List.ext_getElem? fun i => ?_
  rw [List.getElem?_mapIdx, Option.map_id']
  rfl

theorem mem_chunks {c : SourceChunk} (h : c ∈ chunks document body now) :
    c.id = chunkIdFor document.id c.index ∧ c.source_id = document.id := by
  obtain ⟨i, hi, rfl⟩ := List.mem_mapIdx.mp h
  exact ⟨rfl, rfl⟩

theorem numbered_chunks : (chunks document body now).map SourceChunk.index =
    List.range (chunks document body now).length := by
  rw [chunks, map_mapIdx, List.length_mapIdx]
  refine List.ext_getElem? fun i => ?_
  rw [List.getElem?_mapIdx]
  by_cases hi : i < (pack "" (paragraphs body)).length
  · rw [List.getElem?_eq_getElem hi, List.getElem?_range hi]
    rfl
  · rw [List.getElem?_eq_none (Nat.le_of_not_lt hi), List.getElem?_eq_none (by simpa using hi)]
    rfl

theorem nodup_ids_chunks : ((chunks document body now).map SourceChunk.id).Nodup := by
  have hids : (chunks document body now).map SourceChunk.id =
      ((chunks document body now).map SourceChunk.index).map (chunkIdFor document.id) := by
    rw [List.map_map]
    exact List.map_congr_left fun c hc => (mem_chunks document body now hc).1
  rw [hids, numbered_chunks]
  exact List.Nodup.map (fun i j h => (chunkIdFor_inj.mp h).2) List.nodup_range

/-- **Chunking loses nothing**, for every body. -/
theorem chunks_lose_nothing :
    LosesNothing document body (chunks document body now) := by
  have htexts := texts_chunks document body now
  have hflatten : (groups [] (paragraphs body)).flatten = paragraphs body := flatten_groups _ []
  have hgroups := groups_oversized (paragraphs body) [] fun _ => Nat.zero_le 1
  have hread : ∀ g ∈ groups [] (paragraphs body), paragraphs (joined g) = g := by
    intro g hg
    refine paragraphs_joined fun p hp => ?_
    have hmem : p ∈ paragraphs body := hflatten ▸ List.mem_flatten.mpr ⟨g, hg, hp⟩
    exact isParagraph_of_mem hmem
  have hchunk : ∀ c ∈ chunks document body now, ∃ g ∈ groups [] (paragraphs body),
      joined g = c.text := by
    intro c hc
    have hmem : c.text ∈ (chunks document body now).map SourceChunk.text := List.mem_map_of_mem hc
    rw [htexts] at hmem
    exact List.mem_map.mp hmem
  refine ⟨?_, ?_, fun c hc => ?_, numbered_chunks document body now,
    fun c hc => mem_chunks document body now hc, nodup_ids_chunks document body now,
    fun c hc hlong => ?_, ?_⟩
  · rw [htexts, joined_map_joined fun g hg => (hgroups g hg).1, hflatten]
  · have hmap : (chunks document body now).map (fun c => paragraphs c.text) =
        ((chunks document body now).map SourceChunk.text).map paragraphs := by
      rw [List.map_map]
      rfl
    have hsame : ∀ g ∈ groups [] (paragraphs body), (paragraphs ∘ joined) g = id g := hread
    rw [hmap, htexts, List.map_map, List.map_congr_left hsame, List.map_id, hflatten]
  · obtain ⟨g, hg, heq⟩ := hchunk c hc
    intro hempty
    have hnil : g = [] := by rw [← hread g hg, heq, hempty]; decide +kernel
    exact (hgroups g hg).1 hnil
  · obtain ⟨g, hg, heq⟩ := hchunk c hc
    obtain ⟨hne, hfits⟩ := hgroups g hg
    rw [← heq] at hlong ⊢
    obtain ⟨p, rfl⟩ : ∃ p, g = [p] := by
      cases g with
      | nil => exact absurd rfl hne
      | cons p others =>
        have hone := hfits hlong
        rw [List.length_cons] at hone
        obtain rfl := List.eq_nil_of_length_eq_zero (by omega : others.length = 0)
        exact ⟨p, rfl⟩
    rw [hread _ hg]
    exact congrArg (fun q => [q]) String.intercalate_singleton.symm
  · have hchain := List.IsChain.iff_mem.mp (groups_greedy (paragraphs body) [])
    have htext : ((chunks document body now).map SourceChunk.text).IsChain fun s t =>
        ∀ p ∈ (paragraphs t).head?, chunkTargetChars < (s ++ blankLine ++ p).length := by
      rw [htexts, List.isChain_map]
      refine hchain.imp ?_
      rintro g h ⟨hg, hh, hfull⟩ p hp
      have hone : joined [p] = p := String.intercalate_singleton
      rw [hread h hh] at hp
      have hlong := hfull p hp
      rwa [joined_append (hgroups g hg).1 (List.cons_ne_nil _ _), hone] at hlong
    exact (List.isChain_map _).mp htext

end NuSelf.Source
