/-
  The document of a chunk: written under the heading of its section, read back without it.

  `_render_chunk_document` puts the title of the section and the body into one text, and
  `_combine_chunks` takes everything behind the first line of the file for the body.  Between the
  two stands a text file, which gives every line end back as a line feed.

  1. `chunkBody_render` — what is read back from a document: the rest of the title behind its first
     line end, an empty line, and the body, stripped and with its line ends rewritten.
  2. `chunk_round_trip_iff` — the bodies come back exactly when the titles have one line and the
     stripped bodies have no carriage return.
  3. `chunk_title_leaks` — the second line of a title becomes part of the text.
-/
import NuSelf.Lib.Lines
import NuSelf.Reason.Planner

namespace NuSelf.Reason

open NuSelf.Lib

/-- The first character of a line end. -/
def isLineEnd (c : Char) : Bool := decide (c = '\n') || decide (c = '\r')

/-- What stands in a title from its first line end on. -/
def titleRest (title : String) : List Char := title.toList.dropWhile fun c => !isLineEnd c

/-- Nothing but white space follows the first line of the title. -/
def oneLine (title : String) : Bool := (titleRest title).all isSpace

/-- A body in which `read_text` rewrites no line end, margins apart. -/
def plainLineEnds (body : String) : Bool := !(strip body).toList.contains '\r'

theorem plainLineEnds_iff {body : String} :
    plainLineEnds body = true ↔ '\r' ∉ stripChars body.toList := by
  rw [plainLineEnds, toList_strip, Bool.not_eq_true', List.contains_eq_mem, decide_eq_false_iff_not]

/-- A document behind its first line. -/
def documentRest (title body : String) : List Char :=
  titleRest title ++ ['\n', '\n'] ++ (rstrip body).toList

theorem documentRest_read (title body : String) :
    ∃ rest, universalNewlines (documentRest title body) = '\n' :: rest := by
  rw [documentRest]
  cases hrest : titleRest title with
  | nil => exact ⟨_, universalNewlines_cons (by decide) _⟩
  | cons c tail =>
    have hend : isLineEnd c = true := by
      have hhead := List.head?_dropWhile_not (fun c => !isLineEnd c) title.toList
      rw [show title.toList.dropWhile (fun c => !isLineEnd c) = c :: tail from hrest] at hhead
      simpa using hhead
    rcases Bool.or_eq_true_iff.mp hend with hc | hc
    · rw [of_decide_eq_true hc]
      exact ⟨_, universalNewlines_cons (by decide) _⟩
    · rw [of_decide_eq_true hc, List.append_assoc, List.cons_append]
      -- a carriage return, alone or with the line feed that follows it
      cases hafter : tail ++ (['\n', '\n'] ++ (rstrip body).toList) with
      | nil => exact ⟨_, rfl⟩
      | cons d after =>
        by_cases hd : d = '\n'
        · rw [hd]
          exact ⟨_, rfl⟩
        · refine ⟨universalNewlines (d :: after), ?_⟩
          rw [universalNewlines]
          rintro rest heq
          exact hd (List.cons.inj heq).1

theorem toList_render (sec : ReasonOutputSection) (body : String) :
    (renderChunkDocument sec body).toList =
      (('#' :: ' ' :: sec.title.toList.takeWhile fun c => !isLineEnd c) ++
        documentRest sec.title body).rdropWhile isSpace ++ ['\n'] := by
  have hjoin : joinLines ["# " ++ sec.title, "", rstrip body] =
      "# " ++ sec.title ++ "\n" ++ "" ++ "\n" ++ rstrip body := rfl
  have htitle : sec.title.toList = (sec.title.toList.takeWhile fun c => !isLineEnd c) ++
      titleRest sec.title := List.takeWhile_append_dropWhile.symm
  rw [renderChunkDocument, String.toList_append, toList_rstrip, hjoin, documentRest]
  simp only [String.toList_append]
  conv_lhs => rw [htitle]
  simp only [List.append_assoc]
  rfl

theorem chunkBody_of_heading {raw : String} {line rest : List Char}
    (h : universalNewlines raw.toList = '#' :: (line ++ '\n' :: rest)) (hline : '\n' ∉ line) :
    (chunkBody raw).toList = stripChars rest := by
  have hkeep : ∀ c ∈ '#' :: line, decide (c ≠ '\n') = true := by
    refine List.forall_mem_cons.mpr ⟨rfl, fun c hc => decide_eq_true ?_⟩
    rintro rfl
    exact hline hc
  have hdrop : (universalNewlines raw.toList).dropWhile (fun c => decide (c ≠ '\n')) =
      '\n' :: rest := by
    rw [h, ← List.cons_append, List.dropWhile_append_of_pos hkeep]
    rfl
  have hhead : ((universalNewlines raw.toList).takeWhile fun c => decide (c ≠ '\n')).head? =
      some '#' := by
    rw [h]
    rfl
  rw [chunkBody]
  simp only [hdrop]
  rw [if_pos hhead, toList_strip, String.toList_ofList]

/-- **What is read back.** -/
theorem chunkBody_render (sec : ReasonOutputSection) (body : String) :
    (chunkBody (renderChunkDocument sec body)).toList =
      universalNewlines (stripChars (documentRest sec.title body)) := by
  obtain ⟨rest, hrest⟩ := documentRest_read sec.title body
  rw [← stripChars_universalNewlines, hrest]
  generalize hline : (' ' :: sec.title.toList.takeWhile fun c => !isLineEnd c) = line
  have hends : ∀ c ∈ line, isLineEnd c = false := by
    rw [← hline]
    refine List.forall_mem_cons.mpr ⟨rfl, fun c hc => ?_⟩
    simpa using List.mem_takeWhile_imp hc
  have hnone : ∀ {c}, isLineEnd c = true → c ∉ line := by
    intro c hc hmem
    rw [hends c hmem] at hc
    cases hc
  have hreturn : '\r' ∉ '#' :: line := fun h =>
    (List.mem_cons.mp h).elim (by decide) (hnone (by decide))
  have hread : universalNewlines (renderChunkDocument sec body).toList =
      (('#' :: line) ++ '\n' :: rest).rdropWhile isSpace ++ ['\n'] := by
    rw [toList_render, hline, universalNewlines_append (getLast?_rdropWhile_ne (by decide) _),
      ← rdropWhile_universalNewlines, universalNewlines_append_left hreturn, hrest]
    rfl
  by_cases hblank : ('\n' :: rest).rdropWhile isSpace = []
  · -- nothing visible behind the first line, which may itself lose its margin
    rw [rdropWhile_append_of_blank hblank, rdropWhile_cons, if_neg fun h => absurd h.2 (by decide)]
      at hread
    have hshort : '\n' ∉ line.rdropWhile isSpace := fun h =>
      hnone (by decide) ((List.rdropWhile_prefix isSpace line).subset h)
    rw [chunkBody_of_heading hread hshort,
      stripChars_eq_nil_iff.mpr (List.rdropWhile_eq_nil_iff.mp hblank)]
    rfl
  · rw [rdropWhile_append_of_visible hblank, rdropWhile_cons, if_neg ?hvisible, List.append_assoc,
      List.cons_append] at hread
    case hvisible =>
      intro h
      rw [rdropWhile_cons, if_pos h] at hblank
      exact hblank rfl
    have hfeed : ∀ c ∈ ['\n'], isSpace c = true := List.forall_mem_singleton.mpr (by decide)
    rw [chunkBody_of_heading hread (hnone (by decide))]
    exact ((stripChars_append_right hfeed _).trans (stripChars_rdropWhile rest)).trans
      (stripChars_append_left hfeed rest).symm

/-- One body comes back exactly when its title has one line and it has no carriage return.  With
    more of the title in the way there are more visible characters than the body has. -/
theorem chunkBody_render_eq_iff (sec : ReasonOutputSection) (body : String) :
    chunkBody (renderChunkDocument sec body) = strip body ↔
      oneLine sec.title = true ∧ plainLineEnds body = true := by
  rw [← String.toList_inj, chunkBody_render, toList_strip, plainLineEnds_iff, oneLine,
    List.all_eq_true]
  by_cases hrest : ∀ c ∈ titleRest sec.title, isSpace c = true
  · have hlead : ∀ c ∈ titleRest sec.title ++ ['\n', '\n'], isSpace c = true := by
      intro c hc
      rcases List.mem_append.mp hc with hc | hc
      · exact hrest c hc
      · simp only [List.mem_cons, List.not_mem_nil, or_false, or_self] at hc
        rw [hc]
        decide
    rw [documentRest, stripChars_append_left hlead, toList_rstrip, stripChars_rdropWhile,
      universalNewlines_eq_self_iff]
    exact ⟨fun h => ⟨hrest, h⟩, fun h => h.2⟩
  · refine ⟨fun h => absurd ?_ hrest, fun h => absurd h.1 hrest⟩
    have hcount := congrArg visible h
    rw [visible_universalNewlines, visible_stripChars, visible_stripChars, documentRest,
      visible_append, visible_append, toList_rstrip, visible_rdropWhile] at hcount
    exact visible_eq_zero_iff.mp (by omega)

/-- **Which chunk documents come back.**  The bodies read back are the stripped bodies exactly when
    no title goes on after its first line end and no stripped body holds a carriage return. -/
theorem chunk_round_trip_iff (chunks : List (ReasonOutputSection × String)) :
    (chunks.map fun c => chunkBody (renderChunkDocument c.1 c.2)) = chunks.map (fun c => strip c.2) ↔
      ∀ c ∈ chunks, oneLine c.1.title = true ∧ plainLineEnds c.2 = true := by
  rw [List.map_inj_left]
  exact forall₂_congr fun c _ => chunkBody_render_eq_iff c.1 c.2

/-- A plan of one section whose title has two lines. -/
def twoLineResponse : Json :=
  .obj [("sections", .arr [.obj [("title", .str "Arrival\nand departure"), ("focus", .str "Both."),
    ("step_start", .int 0), ("step_end", .int 0)]])]

/-- **A title leaks**: the planner takes the plan, and the second line of the title is read back as
    a part of the body. -/
theorem chunk_title_leaks :
    ∃ sec, planner ⟨"workspaces", id⟩ (sectionAnswer strip (.other "invalid") twoLineResponse)
        ⟨"r-1", "Travel"⟩ [⟨"s-1", "a step"⟩] .narrative "2026-01-01T00:00:00+00:00" = .ok [sec] ∧
      chunkBody (renderChunkDocument sec "Text.") = "and departure\n\nText." ∧
      chunkBody (renderChunkDocument sec "Text.") ≠ strip "Text." :=
  ⟨plannedSection [⟨"s-1", "a step"⟩] "2026-01-01T00:00:00+00:00" 0
      { title := "Arrival\nand departure", focus := "Both.", step_start := 0, step_end := 0
        title_nonempty := by decide, focus_nonempty := by decide
        range_is_ordered := Nat.le_refl 0 },
    by decide +kernel, by decide +kernel, by decide +kernel⟩

end NuSelf.Reason
