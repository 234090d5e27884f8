/-
  Whether a persona that the user has disabled stays out of reach.

  An update of a persona should change its prompt and its update time.  The crafting tools also
  put its flag back, so the paths agree only on personas that are not disabled; and one call of a
  tool makes a disabled persona answer again, which nobody has enabled.

  1. `pathsAgree_iff` — the three update paths agree exactly on personas that are not disabled;
  2. `suspended_step_iff` — a step that does not enable a persona leaves it disabled, or deletes
     it, exactly when it does not craft it;
  3. `Suspended.unavailable` — a disabled persona is not consulted;
  4. `disabled_until_enabled_iff` — the paths, and whole runs;
  5. `crafting_enables` — a tutor that is disabled, crafted, and consulted.
-/
import NuSelf.Lib.Run
import NuSelf.Persona.Prompts

namespace NuSelf.Persona

open NuSelf.Lib PersonaPrompts

/-! ## One update by three paths -/

/-- The same record, up to the update time. -/
def SameUpdate (p q : PersonaPrompt) : Prop := { p with updated_at := q.updated_at } = q

/-- What an update is to leave: everything but the prompt and the update time. -/
def Updates (existing : PersonaPrompt) (prompt : String) (p : PersonaPrompt) : Prop :=
  SameUpdate { existing with prompt := prompt } p

/-- The three paths update `existing` alike: the two tools with the texts as the model sends them,
    the service with the texts that the tools take from these. -/
def PathsAgree (prompts : PersonaPrompts) (existing : PersonaPrompt)
    (name prompt name' prompt' : String) : Prop :=
  ∀ draw₁ draw₂ draw₃, ∃ a b c,
    (personaCraft prompts name prompt draw₁).1.get existing.id = some a ∧
    (reasonCraft prompts name prompt draw₂).1.get existing.id = some b ∧
    (prompts.createOrReplace name' prompt' draw₃).1.get existing.id = some c ∧
    SameUpdate a c ∧ SameUpdate b c ∧ Updates existing prompt' c

variable {prompts : PersonaPrompts} {existing : PersonaPrompt} {name prompt name' prompt' : String}

theorem get_craft_existing {answer : PersonaPrompt → String} {draw : Draw}
    (htext : craftText name prompt = .ok (name', prompt'))
    (hname : prompts.getByName name' = some existing) :
    (craft answer prompts name prompt draw).1.get existing.id =
      some { existing with prompt := prompt', updated_at := draw.now, disabled := false } := by
  rw [get_craft htext, hname]
  exact if_pos rfl

theorem get_createOrReplace_existing {draw : Draw}
    (hname : prompts.getByName name' = some existing) :
    (prompts.createOrReplace name' prompt' draw).1.get existing.id =
      some { existing with prompt := prompt', updated_at := draw.now } := by
  rw [get_createOrReplace, hname]
  exact if_pos rfl

/-- **The paths agree exactly on personas that are not disabled.** -/
theorem pathsAgree_iff (htext : craftText name prompt = .ok (name', prompt'))
    (hname : prompts.getByName name' = some existing) :
    PathsAgree prompts existing name prompt name' prompt' ↔ existing.disabled = false := by
  constructor
  · intro h
    obtain ⟨a, b, c, ha, -, hc, hsame, -⟩ := h ⟨"", ""⟩ ⟨"", ""⟩ ⟨"", ""⟩
    have hcrafted := (get_craft_existing htext hname).symm.trans ha
    have hreplaced := (get_createOrReplace_existing hname).symm.trans hc
    obtain rfl := Option.some.inj hcrafted
    obtain rfl := Option.some.inj hreplaced
    exact (congrArg PersonaPrompt.disabled hsame).symm
  · intro hflag draw₁ draw₂ draw₃
    have hsame : ∀ draw : Draw,
        SameUpdate { existing with prompt := prompt', updated_at := draw.now, disabled := false }
          { existing with prompt := prompt', updated_at := draw₃.now } := by
      intro draw
      rw [SameUpdate, hflag]
    exact ⟨_, _, _, get_craft_existing htext hname, get_craft_existing htext hname,
      get_createOrReplace_existing hname, hsame draw₁, hsame draw₂, rfl⟩

/-! ## Runs -/

/-- The global personas, and those of each reason thread. -/
structure Personas where
  prompts : PersonaPrompts
  threads : String → PersonaPrompts

/-- What the agents do by their tools, and the user by the command line. -/
inductive Act where
  | craft (name prompt : String) (draw : Draw)
  | reasonCraft (thread name prompt : String) (draw : Draw)
  | createOrReplace (name prompt_text : String) (draw : Draw)
  | disable (persona now : String)
  | enable (persona now : String)
  | reasonDisable (persona now : String)
  | reasonEnable (persona now : String)
  | setDisabled (prompt_id : String) (disabled : Bool) (now : String)
  | delete (prompt_id : String)

/-- A tool call on the global personas: the personas afterwards, and the answer. -/
def Personas.called (s : Personas) (result : PersonaPrompts × String) :
    Personas × Option String :=
  ({ s with prompts := result.1 }, some result.2)

def step (s : Personas) : Act → Personas × Option String
  | .craft name prompt draw => s.called (personaCraft s.prompts name prompt draw)
  | .reasonCraft thread name prompt draw =>
    let (prompts, answer) := reasonCraft (s.threads thread) name prompt draw
    ({ s with threads := fun t => if t = thread then prompts else s.threads t }, some answer)
  | .createOrReplace name prompt_text draw =>
    ({ s with prompts := (s.prompts.createOrReplace name prompt_text draw).1 }, none)
  | .disable persona now => s.called (personaDisable s.prompts persona now)
  | .enable persona now => s.called (personaEnable s.prompts persona now)
  | .reasonDisable persona now => s.called (reasonDisable s.prompts persona now)
  | .reasonEnable persona now => s.called (reasonEnable s.prompts persona now)
  | .setDisabled prompt_id disabled now =>
    ({ s with prompts := s.prompts.setDisabled prompt_id disabled now }, none)
  | .delete prompt_id => ({ s with prompts := s.prompts.delete prompt_id }, none)

/-- The persona is disabled, or has been deleted. -/
def Suspended (i : String) (s : Personas) : Prop :=
  ∀ p, s.prompts.get i = some p → p.disabled = true

/-- No agent gets an answer from it: a thread consults what it finds under the id in its own
    store, but not this persona. -/
def Unavailable (i : String) (s : Personas) : Prop :=
  (∀ persona question p q, choice s.prompts persona question = .ok (p, q) → p.id ≠ i) ∧
    ∀ thread persona question scope p q,
      reasonChoice (s.threads thread) s.prompts persona question scope = .ok (p, q) → p.id = i →
        (s.threads thread).get i = some p

/-- The step enables the persona explicitly. -/
def Enables (i : String) (s : Personas) : Act → Prop
  | .enable persona _ | .reasonEnable persona _ =>
    ∃ p, strip persona ≠ "" ∧ s.prompts.resolve (strip persona) = some p ∧ p.id = i
  | .setDisabled prompt_id false _ => prompt_id = i
  | _ => False

/-- The id that the step would give a new global persona. -/
def Act.drawn : Act → Option String
  | .craft _ _ draw | .createOrReplace _ _ draw => some (generateId draw.hex)
  | _ => none

/-- The step crafts the persona anew while it is disabled. -/
def Recrafts (i : String) (s : Personas) : Act → Prop
  | .craft name prompt _ => ∃ name' prompt' p, craftText name prompt = .ok (name', prompt') ∧
    s.prompts.getByName name' = some p ∧ p.id = i ∧ p.disabled = true
  | _ => False

variable {i : String} {s : Personas}

/-- **A disabled persona is not consulted.** -/
theorem Suspended.unavailable (h : Suspended i s) : Unavailable i s := by
  constructor
  · rintro persona question p q hchoice rfl
    obtain ⟨hget, hflag⟩ := choice_enabled hchoice
    exact absurd (h p hget) (Bool.eq_false_iff.mp hflag)
  · rintro thread persona question scope p q hchoice rfl
    rcases reasonChoice_enabled hchoice with hown | ⟨hget, hflag⟩
    · exact hown
    · exact absurd (h p hget) (Bool.eq_false_iff.mp hflag)

theorem Suspended.of_get_eq {s' : Personas} (h : Suspended i s)
    (hget : s'.prompts.get i = s.prompts.get i) : Suspended i s' :=
  fun p hp => h p (hget ▸ hp)

/-- The tools that set the flag, unless they clear it on the persona itself. -/
theorem Suspended.switch (h : Suspended i s) {missing : String → String} {disabled : Bool}
    {already done persona now : String}
    (hflag : disabled = false →
      ¬ ∃ p, strip persona ≠ "" ∧ s.prompts.resolve (strip persona) = some p ∧ p.id = i) :
    Suspended i
      (s.called (Persona.switch missing disabled already done s.prompts persona now)).1 := by
  rcases @get_switch s.prompts missing disabled already done persona now i with
    hget | ⟨p, hpersona, hfound, hid, hget⟩
  · exact h.of_get_eq hget
  · intro p' hp'
    obtain ⟨p₀, -, rfl⟩ := Option.map_eq_some_iff.mp (hget.symm.trans hp')
    cases disabled with
    | true => rfl
    | false => exact absurd ⟨p, hpersona, hfound, hid⟩ (hflag rfl)

theorem suspended_craft_iff (h : Suspended i s) {name prompt : String} {draw : Draw}
    (hdraw : generateId draw.hex ≠ i) :
    Suspended i (s.called (personaCraft s.prompts name prompt draw)).1 ↔
      ¬ Recrafts i s (.craft name prompt draw) := by
  cases htext : craftText name prompt with
  | error message =>
    have hsame : (personaCraft s.prompts name prompt draw).1 = s.prompts :=
      congrArg Prod.fst (craft_refused htext)
    constructor
    · rintro - ⟨name', prompt', p, hok, -⟩
      rw [htext] at hok
      cases hok
    · intro _
      exact h.of_get_eq (congrArg (fun prompts => prompts.get i) hsame)
  | ok text =>
    obtain ⟨name', prompt'⟩ := text
    have hget : (personaCraft s.prompts name prompt draw).1.get i = _ := get_craft htext i
    cases hname : s.prompts.getByName name' with
    | none =>
      rw [hname] at hget
      constructor
      · rintro - ⟨n, t, p, hok, hfound, -⟩
        obtain ⟨rfl, rfl⟩ := Prod.mk.inj (Except.ok.inj (htext.symm.trans hok))
        rw [hname] at hfound
        cases hfound
      · intro _
        exact h.of_get_eq (hget.trans (if_neg fun hi => hdraw hi.symm))
    | some existing =>
      rw [hname] at hget
      have hstored := (getByName_some hname).1
      by_cases hid : existing.id = i
      · -- the persona itself: crafted, it is enabled
        have hflag := h existing (hid ▸ hstored)
        constructor
        · intro hafter _
          exact Bool.false_ne_true (hafter _ (hget.trans (if_pos hid.symm)))
        · intro hspared
          exact absurd ⟨name', prompt', existing, htext, hname, hid, hflag⟩ hspared
      · constructor
        · rintro - ⟨n, t, p, hok, hfound, hp, -⟩
          obtain ⟨rfl, rfl⟩ := Prod.mk.inj (Except.ok.inj (htext.symm.trans hok))
          rw [hname] at hfound
          cases hfound
          exact hid hp
        · intro _
          exact h.of_get_eq (hget.trans (if_neg fun hi => hid hi.symm))

theorem Suspended.createOrReplace (h : Suspended i s) {name prompt_text : String} {draw : Draw}
    (hdraw : generateId draw.hex ≠ i) :
    Suspended i { s with prompts := (s.prompts.createOrReplace name prompt_text draw).1 } := by
  intro p hp
  have hget := hp.symm.trans (get_createOrReplace i)
  cases hname : s.prompts.getByName name with
  | none =>
    rw [hname] at hget
    dsimp only at hget
    rw [if_neg fun hi => hdraw hi.symm] at hget
    exact h p hget.symm
  | some existing =>
    rw [hname] at hget
    dsimp only at hget
    split at hget
    · rename_i hid
      obtain rfl := Option.some.inj hget
      exact h existing (hid ▸ (getByName_some hname).1)
    · exact h p hget.symm

/-- **One step**: where nobody enables the persona, it stays disabled exactly when it is not
    crafted. -/
theorem suspended_step_iff (h : Suspended i s) (a : Act) (henables : ¬ Enables i s a)
    (hdrawn : a.drawn ≠ some i) : Suspended i (step s a).1 ↔ ¬ Recrafts i s a := by
  cases a with
  | craft name prompt draw => exact suspended_craft_iff h fun hi => hdrawn (congrArg some hi)
  | reasonCraft thread name prompt draw => exact iff_of_true (h.of_get_eq rfl) not_false
  | createOrReplace name prompt_text draw =>
    exact iff_of_true (h.createOrReplace fun hi => hdrawn (congrArg some hi)) not_false
  | disable persona now => exact iff_of_true (h.switch fun ht => nomatch ht) not_false
  | enable persona now => exact iff_of_true (h.switch fun _ => henables) not_false
  | reasonDisable persona now => exact iff_of_true (h.switch fun ht => nomatch ht) not_false
  | reasonEnable persona now => exact iff_of_true (h.switch fun _ => henables) not_false
  | setDisabled prompt_id disabled now =>
    refine iff_of_true (fun p hp => ?_) not_false
    have hget := hp.symm.trans (get_setDisabled prompt_id i disabled now)
    split at hget
    · rename_i hid
      obtain ⟨p₀, -, rfl⟩ := Option.map_eq_some_iff.mp hget.symm
      cases disabled with
      | true => rfl
      | false => exact absurd hid.symm henables
    · exact h p hget.symm
  | delete prompt_id =>
    refine iff_of_true (fun p hp => ?_) not_false
    have hget := hp.symm.trans (get_delete prompt_id i)
    split at hget
    · cases hget
    · exact h p hget.symm

/-! ## Until it is enabled -/

/-- **Runs in which nobody enables the persona**: it stays disabled throughout exactly when no
    step crafts it. -/
theorem suspended_run_iff (h : Suspended i s) (acts : List Act)
    (hquiet : ∀ e ∈ run step s acts, ¬ Enables i e.before e.input ∧ e.input.drawn ≠ some i) :
    (∀ e ∈ run step s acts, Suspended i e.after) ↔
      ∀ e ∈ run step s acts, ¬ Recrafts i e.before e.input := by
  have hkeep : ∀ s a, Suspended i s →
      (¬ Enables i s a ∧ a.drawn ≠ some i) ∧ ¬ Recrafts i s a → Suspended i (step s a).1 :=
    fun s a hs hok => (suspended_step_iff hs a hok.1.1 hok.1.2).mpr hok.2
  have hone : ∀ e : Step Personas Act (Option String), e.Of step → Suspended i e.before →
      ((¬ Enables i e.before e.input ∧ e.input.drawn ≠ some i) ∧ Suspended i e.after ↔
        (¬ Enables i e.before e.input ∧ e.input.drawn ≠ some i) ∧
          ¬ Recrafts i e.before e.input) := by
    intro e he hs
    refine and_congr_right fun hq => ?_
    rw [← he.after_eq]
    exact suspended_step_iff hs e.input hq.1 hq.2
  have hiff := run_forall_iff hkeep hone s acts h
  constructor
  · intro hafter e he
    exact (hiff.mp (fun e he => ⟨hquiet e he, hafter e he⟩) e he).2
  · intro hspared e he
    exact (hiff.mpr (fun e he => ⟨hquiet e he, hspared e he⟩) e he).2

/-- **The update paths, and what follows for whole runs.**  The paths agree exactly on personas
    that are not disabled.  Where nobody enables a disabled persona, and no new one is given its
    id, it stays disabled exactly when no step crafts it; and then nobody consults it. -/
theorem disabled_until_enabled_iff (i : String) :
    (∀ (prompts : PersonaPrompts) (existing : PersonaPrompt) (name prompt name' prompt' : String),
      craftText name prompt = .ok (name', prompt') → prompts.getByName name' = some existing →
      (PathsAgree prompts existing name prompt name' prompt' ↔ existing.disabled = false)) ∧
    ∀ (s : Personas) (acts : List Act), Suspended i s →
      (∀ e ∈ run step s acts, ¬ Enables i e.before e.input ∧ e.input.drawn ≠ some i) →
      ((∀ e ∈ run step s acts, Suspended i e.after) ↔
        ∀ e ∈ run step s acts, ¬ Recrafts i e.before e.input) ∧
      ((∀ e ∈ run step s acts, ¬ Recrafts i e.before e.input) →
        ∀ e ∈ run step s acts, Unavailable i e.after) := by
  refine ⟨fun _ _ _ _ _ _ => pathsAgree_iff, fun s acts h hquiet => ?_⟩
  have hiff := suspended_run_iff h acts hquiet
  exact ⟨hiff, fun hspared e he => (hiff.mpr hspared e he).unavailable⟩

/-! ## A tutor -/

def tutor : PersonaPrompt where
  id := "pp_1"
  name := "socratic-tutor"
  prompt := "Question assumptions."
  created_at := "09:00"
  updated_at := "10:00"
  disabled := true

/-- A store with one persona. -/
def onlyTutor : Personas := ⟨Shelf.empty.put tutor rfl, fun _ => Shelf.empty⟩

theorem onlyTutor_getByName : onlyTutor.prompts.getByName "socratic-tutor" = some tutor := by
  have hlist : onlyTutor.prompts.list = [tutor] := List.mergeSort_singleton tutor
  rw [getByName, hlist]
  rfl

theorem onlyTutor_suspended : Suspended "pp_1" onlyTutor := by
  intro p hp
  obtain rfl : tutor = p := Option.some.inj hp
  rfl

/-- The user replaces the prompt and deletes another persona: the tutor stays disabled. -/
theorem tutor_stays_disabled :
    (¬ PathsAgree onlyTutor.prompts tutor " socratic-tutor" "Ask back." "socratic-tutor"
      "Ask back.") ∧
    ∀ e ∈ run step onlyTutor [.createOrReplace "socratic-tutor" "Ask back." ⟨"2", "11:00"⟩,
      .delete "pp_7"], Unavailable "pp_1" e.after := by
  obtain ⟨hall, hruns⟩ := disabled_until_enabled_iff "pp_1"
  have hpaths := hall onlyTutor.prompts tutor " socratic-tutor" "Ask back." "socratic-tutor"
    "Ask back." (by decide +kernel) onlyTutor_getByName
  have hrun := hruns onlyTutor
    [.createOrReplace "socratic-tutor" "Ask back." ⟨"2", "11:00"⟩, .delete "pp_7"]
    onlyTutor_suspended (by
      intro e he
      simp only [run, List.mem_cons, List.not_mem_nil, or_false] at he
      rcases he with rfl | rfl
      · exact ⟨not_false, by decide +kernel⟩
      · exact ⟨not_false, by decide +kernel⟩)
  refine ⟨fun h => absurd (hpaths.mp h) (by decide), hrun.2 fun e he => ?_⟩
  simp only [run, List.mem_cons, List.not_mem_nil, or_false] at he
  rcases he with rfl | rfl
  · exact not_false
  · exact not_false

/-- **Crafting enables**: the tutor is disabled and refuses; the chat crafts it, and it answers.
    Replacing it instead would have left it disabled. -/
theorem crafting_enables :
    choice onlyTutor.prompts "pp_1" "Why?" = .error (disabledText tutor) ∧
    (∃ p, choice (step onlyTutor (.craft "socratic-tutor" "Ask back." ⟨"2", "11:00"⟩)).1.prompts
      "pp_1" "Why?" = .ok (p, "Why?") ∧ p.id = tutor.id) ∧
    ¬ PathsAgree onlyTutor.prompts tutor "socratic-tutor" "Ask back." "socratic-tutor"
      "Ask back." := by
  have htext : craftText "socratic-tutor" "Ask back." = .ok ("socratic-tutor", "Ask back.") := by
    decide +kernel
  have hthink : thinkText "pp_1" "Why?" = .ok ("pp_1", "Why?") := by decide +kernel
  have hcrafted : (personaCraft onlyTutor.prompts "socratic-tutor" "Ask back."
      ⟨"2", "11:00"⟩).1.get tutor.id =
      some { tutor with prompt := "Ask back.", updated_at := "11:00", disabled := false } :=
    get_craft_existing htext onlyTutor_getByName
  refine ⟨?_, ⟨{ tutor with prompt := "Ask back.", updated_at := "11:00", disabled := false },
    ?_, rfl⟩, fun h => ?_⟩
  · rw [choice, hthink]
    rfl
  · show choice (personaCraft onlyTutor.prompts _ _ _).1 tutor.id "Why?" = _
    rw [choice, show thinkText tutor.id "Why?" = _ from hthink]
    dsimp only
    rw [resolve, show "pp_1" = tutor.id from rfl, hcrafted]
    rfl
  · exact absurd ((pathsAgree_iff htext onlyTutor_getByName).mp h) (by decide)

end NuSelf.Persona
