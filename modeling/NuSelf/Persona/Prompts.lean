/-
  Dynamic thinking personas: the stored prompts, and the tools that write and consult them.

  A stored persona carries a flag, `disabled`, that takes it out of `persona_think`.  Three paths
  update a persona of a given name, each of them by building the record again: the chat tool, the
  tool of a reason thread (on the thread's own store) and `create_or_replace` of the service.  The
  service copies the flag; the two tools leave it out, and it falls back to its default.

  1. `get_createOrReplace`, `get_craft` — what an update changes;
  2. `get_switch` — what setting the flag changes;
  3. `choice_enabled`, `reasonChoice_enabled` — who is consulted is not disabled, unless a reason
     thread keeps it itself.
-/
import NuSelf.Lib.Lines
import NuSelf.Lib.Shelf

namespace NuSelf.Persona

open NuSelf.Lib

structure PersonaPrompt where
  id : String
  name : String
  prompt : String
  created_at : String
  updated_at : String
  disabled : Bool := false
  deriving DecidableEq

/-- What a call takes from outside: `uuid4().hex` and the clock. -/
structure Draw where
  hex : String
  now : String

def generateId (hex : String) : String := "pp_" ++ hex

def createPersonaPrompt (name prompt_text : String) (draw : Draw) : PersonaPrompt where
  id := generateId draw.hex
  name := name
  prompt := prompt_text
  created_at := draw.now
  updated_at := draw.now

def PersonaPrompt.withUpdates (persona : PersonaPrompt) (disabled : Option Bool) (now : String) :
    PersonaPrompt :=
  { persona with updated_at := now, disabled := disabled.getD persona.disabled }

/-! ## The repository -/

abbrev PersonaPrompts := Shelf PersonaPrompt.id fun _ => true

namespace PersonaPrompts

variable (prompts : PersonaPrompts)

def save (prompt : PersonaPrompt) : PersonaPrompts := prompts.put prompt rfl

/-- By name, in a stable sort. -/
def list : List PersonaPrompt :=
  prompts.records.mergeSort fun p q => decide (p.name ≤ q.name)

def getByName (name : String) : Option PersonaPrompt :=
  prompts.list.find? fun p => p.name = name

def resolve (name_or_id : String) : Option PersonaPrompt :=
  match prompts.get name_or_id with
  | some prompt => some prompt
  | none => prompts.getByName name_or_id

def delete (prompt_id : String) : PersonaPrompts := prompts.remove prompt_id

def setDisabled (prompt_id : String) (disabled : Bool) (now : String) : PersonaPrompts :=
  match prompts.get prompt_id with
  | none => prompts
  | some prompt => prompts.save (prompt.withUpdates (some disabled) now)

/-- `PersonaService.create_or_replace`: the prompts afterwards, and the one it returns. -/
def createOrReplace (name prompt_text : String) (draw : Draw) : PersonaPrompts × PersonaPrompt :=
  let proposed := createPersonaPrompt name prompt_text draw
  match prompts.getByName name with
  | none => (prompts.save proposed, proposed)
  | some existing =>
    let proposed :=
      { id := existing.id, name := name, prompt := prompt_text, disabled := existing.disabled,
        created_at := existing.created_at, updated_at := proposed.updated_at }
    (prompts.save proposed, proposed)

variable {prompts}

@[simp]
theorem get_save (prompt : PersonaPrompt) (id : String) :
    (prompts.save prompt).get id = if id = prompt.id then some prompt else prompts.get id :=
  prompts.get_put prompt rfl id

@[simp]
theorem get_delete (prompt_id id : String) :
    (prompts.delete prompt_id).get id = if id = prompt_id then none else prompts.get id :=
  prompts.get_remove prompt_id id

theorem getByName_some {name : String} {p : PersonaPrompt} (h : prompts.getByName name = some p) :
    prompts.get p.id = some p ∧ p.name = name := by
  have hmem : p ∈ prompts.list := List.mem_of_find?_eq_some h
  have hname := List.find?_some h
  rw [list, List.mem_mergeSort] at hmem
  exact ⟨prompts.mem_records_iff.mp hmem, of_decide_eq_true hname⟩

theorem resolve_some {name_or_id : String} {p : PersonaPrompt}
    (h : prompts.resolve name_or_id = some p) : prompts.get p.id = some p := by
  unfold resolve at h
  cases hget : prompts.get name_or_id with
  | some q =>
    rw [hget] at h
    cases h
    have hid := prompts.key_of_get hget
    rwa [hid]
  | none =>
    rw [hget] at h
    exact (getByName_some h).1

theorem get_setDisabled (prompt_id id : String) (disabled : Bool) (now : String) :
    (prompts.setDisabled prompt_id disabled now).get id =
      if id = prompt_id then (prompts.get id).map fun p => p.withUpdates (some disabled) now
      else prompts.get id := by
  unfold setDisabled
  cases hget : prompts.get prompt_id with
  | none =>
    by_cases hid : id = prompt_id
    · rw [if_pos hid, hid]
      dsimp only
      rw [hget, Option.map_none]
    · rw [if_neg hid]
  | some p =>
    have hkey : p.id = prompt_id := prompts.key_of_get hget
    dsimp only
    rw [get_save]
    show (if id = p.id then _ else _) = _
    rw [hkey]
    by_cases hid : id = prompt_id
    · rw [if_pos hid, if_pos hid, hid, hget, Option.map_some]
    · rw [if_neg hid, if_neg hid]

/-- **Replacing keeps the flag**: a persona that is there keeps id, creation time and flag. -/
theorem get_createOrReplace {name prompt_text : String} {draw : Draw} (id : String) :
    (prompts.createOrReplace name prompt_text draw).1.get id =
      match prompts.getByName name with
      | none =>
        if id = generateId draw.hex then some (createPersonaPrompt name prompt_text draw)
        else prompts.get id
      | some existing =>
        if id = existing.id then
          some { existing with prompt := prompt_text, updated_at := draw.now }
        else prompts.get id := by
  unfold createOrReplace
  cases hname : prompts.getByName name with
  | none => exact get_save _ id
  | some existing =>
    obtain ⟨-, rfl⟩ := getByName_some hname
    exact get_save _ id

end PersonaPrompts

open PersonaPrompts

/-! ## The tools -/

/-- What the crafting tools make of their arguments, or the error that they answer. -/
def craftText (name prompt : String) : Except String (String × String) :=
  if strip name = "" then .error "Error: name must be a non-empty string"
  else if strip prompt = "" then .error "Error: prompt must be a non-empty string"
  else if 40 < (strip name).length then .error "Error: name must be 40 characters or fewer"
  else .ok (strip name, strip prompt)

/-- The record that the crafting tools save: an update has no `disabled`. -/
def crafted (prompts : PersonaPrompts) (name prompt : String) (draw : Draw) : PersonaPrompt :=
  let persona := createPersonaPrompt name prompt draw
  match prompts.getByName name with
  | none => persona
  | some existing =>
    { id := existing.id, name := name, prompt := prompt, created_at := existing.created_at,
      updated_at := persona.updated_at }

/-- The body of both crafting tools, which differ in what they answer. -/
def craft (answer : PersonaPrompt → String) (prompts : PersonaPrompts) (name prompt : String)
    (draw : Draw) : PersonaPrompts × String :=
  match craftText name prompt with
  | .error message => (prompts, message)
  | .ok (name, prompt) =>
    let persona := crafted prompts name prompt draw
    (prompts.save persona, answer persona)

/-- `persona_craft` of the chat. -/
def personaCraft (prompts : PersonaPrompts) (name prompt : String) (draw : Draw) :
    PersonaPrompts × String :=
  craft (fun persona => "Created thinking persona '" ++ persona.name ++ "' (id=" ++ persona.id ++
    "). Use persona_think to consult it.") prompts name prompt draw

/-- `persona_craft` of a reason thread, `_craft`; the prompts are those of the thread. -/
def reasonCraft (prompts : PersonaPrompts) (name prompt : String) (draw : Draw) :
    PersonaPrompts × String :=
  craft (fun persona => "Created thinking persona '" ++ persona.name ++ "' (id=" ++ persona.id ++
    ", scoped to this reason thread).") prompts name prompt draw

/-- The arguments of `persona_think`, stripped, or the error that it answers. -/
def thinkText (persona question : String) : Except String (String × String) :=
  if strip persona = "" then .error "Error: persona must be a non-empty string (name or id)"
  else if strip question = "" then .error "Error: question must be a non-empty string"
  else .ok (strip persona, strip question)

def noPersonaFound (persona : String) (names : List String) : String :=
  if names = [] then
    "No persona found for '" ++ persona ++ "'. Use persona_craft to create one first."
  else "No persona found for '" ++ persona ++ "'. Available: " ++ ", ".intercalate names

def disabledText (prompt : PersonaPrompt) : String :=
  "Persona '" ++ prompt.name ++ "' is disabled. Use persona_enable tool or CLI to reactivate it."

/-- Whom `persona_think` consults, and about what. -/
def choice (prompts : PersonaPrompts) (persona question : String) :
    Except String (PersonaPrompt × String) :=
  match thinkText persona question with
  | .error message => .error message
  | .ok (persona, question) =>
    match prompts.resolve persona with
    | none => .error (noPersonaFound persona (prompts.list.map PersonaPrompt.name))
    | some prompt => if prompt.disabled then .error (disabledText prompt) else .ok (prompt, question)

/-- Whom `persona_think` of a reason thread, `_think`, finds: the thread goes first. -/
def reasonResolve (thread prompts : PersonaPrompts) (persona scope : String) :
    Option PersonaPrompt :=
  match if scope = "" ∨ scope = "local" then thread.resolve persona else none with
  | some prompt => some prompt
  | none => if scope = "" ∨ scope = "global" then prompts.resolve persona else none

/-- Whom it consults.  The flag is looked at in the scopes that reach the global prompts. -/
def reasonChoice (thread prompts : PersonaPrompts) (persona question scope : String) :
    Except String (PersonaPrompt × String) :=
  match thinkText persona question with
  | .error message => .error message
  | .ok (persona, question) =>
    match reasonResolve thread prompts persona scope with
    | none =>
      .error (noPersonaFound persona
        (prompts.list.map PersonaPrompt.name ++ thread.list.map PersonaPrompt.name))
    | some prompt =>
      if prompt.disabled ∧ (scope = "" ∨ scope = "global") then .error (disabledText prompt)
      else .ok (prompt, question)

/-- `persona_think`; `invoke` is the agent with its system and its human message. -/
def personaThink (invoke : String → String → Except String String) (prompts : PersonaPrompts)
    (persona question : String) : String :=
  match choice prompts persona question with
  | .error message => message
  | .ok (prompt, question) =>
    match invoke prompt.prompt question with
    | .error exc => "Error consulting persona '" ++ prompt.name ++ "': " ++ exc
    | .ok response => response

/-- `_think`. -/
def reasonThink (invoke : String → String → Except String String)
    (thread prompts : PersonaPrompts) (persona question scope : String) : String :=
  match reasonChoice thread prompts persona question scope with
  | .error message => message
  | .ok (prompt, question) =>
    match invoke prompt.prompt question with
    | .error exc => "persona_think failed: " ++ exc
    | .ok response => response

/-- The body of the tools that set the flag; `missing` is what they say of an unknown persona. -/
def switch (missing : String → String) (disabled : Bool) (already done : String)
    (prompts : PersonaPrompts) (persona now : String) : PersonaPrompts × String :=
  if strip persona = "" then
    (prompts, "Error: persona must be a non-empty string (name or id)")
  else
    match prompts.resolve (strip persona) with
    | none => (prompts, missing (strip persona))
    | some prompt =>
      if prompt.disabled = disabled then
        (prompts, "Persona '" ++ prompt.name ++ "' is already " ++ already ++ ".")
      else (prompts.setDisabled prompt.id disabled now, done ++ " persona: " ++ prompt.name)

def personaDisable (prompts : PersonaPrompts) (persona now : String) : PersonaPrompts × String :=
  switch (fun persona => "No persona found for '" ++ persona ++ "'.") true "disabled" "Disabled"
    prompts persona now

def personaEnable (prompts : PersonaPrompts) (persona now : String) : PersonaPrompts × String :=
  switch (fun persona => "No persona found for '" ++ persona ++ "'.") false "enabled" "Enabled"
    prompts persona now

/-- `_disable` of a reason thread, on the global prompts. -/
def reasonDisable (prompts : PersonaPrompts) (persona now : String) : PersonaPrompts × String :=
  switch (fun persona => "No global persona found for '" ++ persona ++ "'.") true "disabled"
    "Disabled" prompts persona now

/-- `_enable` of a reason thread, on the global prompts. -/
def reasonEnable (prompts : PersonaPrompts) (persona now : String) : PersonaPrompts × String :=
  switch (fun persona => "No global persona found for '" ++ persona ++ "'.") false "enabled"
    "Enabled" prompts persona now

/-! ## What the tools do -/

variable {prompts thread : PersonaPrompts}

/-- **Crafting enables**: a persona that is there keeps id and creation time, and is enabled. -/
theorem get_craft {answer : PersonaPrompt → String} {name prompt name' prompt' : String}
    {draw : Draw} (htext : craftText name prompt = .ok (name', prompt')) (id : String) :
    (craft answer prompts name prompt draw).1.get id =
      match prompts.getByName name' with
      | none =>
        if id = generateId draw.hex then some (createPersonaPrompt name' prompt' draw)
        else prompts.get id
      | some existing =>
        if id = existing.id then
          some { existing with prompt := prompt', updated_at := draw.now, disabled := false }
        else prompts.get id := by
  have hsaved : (craft answer prompts name prompt draw).1 =
      prompts.save (crafted prompts name' prompt' draw) := by
    unfold craft
    rw [htext]
  rw [hsaved, get_save, crafted]
  cases hname : prompts.getByName name' with
  | none => rfl
  | some existing =>
    obtain ⟨-, rfl⟩ := getByName_some hname
    rfl

theorem craft_refused {answer : PersonaPrompt → String} {name prompt message : String}
    {draw : Draw} (htext : craftText name prompt = .error message) :
    craft answer prompts name prompt draw = (prompts, message) := by
  unfold craft
  rw [htext]

theorem get_switch {missing : String → String} {disabled : Bool} {already done : String}
    (persona now id : String) :
    (switch missing disabled already done prompts persona now).1.get id = prompts.get id ∨
      ∃ p, strip persona ≠ "" ∧ prompts.resolve (strip persona) = some p ∧ p.id = id ∧
        (switch missing disabled already done prompts persona now).1.get id =
          (prompts.get id).map fun p => p.withUpdates (some disabled) now := by
  unfold switch
  by_cases hpersona : strip persona = ""
  · rw [if_pos hpersona]
    exact .inl rfl
  rw [if_neg hpersona]
  cases hfound : prompts.resolve (strip persona) with
  | none => exact .inl rfl
  | some p =>
    dsimp only
    by_cases hflag : p.disabled = disabled
    · rw [if_pos hflag]
      exact .inl rfl
    rw [if_neg hflag]
    by_cases hid : p.id = id
    · refine .inr ⟨p, hpersona, rfl, hid, ?_⟩
      rw [get_setDisabled, if_pos hid.symm]
    · rw [get_setDisabled, if_neg fun h => hid h.symm]
      exact .inl rfl

/-- **The chat consults no disabled persona.** -/
theorem choice_enabled {persona question : String} {p : PersonaPrompt} {q : String}
    (h : choice prompts persona question = .ok (p, q)) :
    prompts.get p.id = some p ∧ p.disabled = false := by
  unfold choice at h
  cases htext : thinkText persona question with
  | error message => rw [htext] at h; cases h
  | ok text =>
    rw [htext] at h
    dsimp only at h
    cases hfound : prompts.resolve text.1 with
    | none => rw [hfound] at h; cases h
    | some found =>
      rw [hfound] at h
      dsimp only at h
      cases hdisabled : found.disabled with
      | true => rw [hdisabled, if_pos rfl] at h; cases h
      | false =>
        rw [hdisabled, if_neg Bool.false_ne_true] at h
        obtain ⟨rfl, -⟩ := Prod.mk.inj (Except.ok.inj h)
        exact ⟨resolve_some hfound, hdisabled⟩

/-- **A reason thread consults its own personas, and global ones that are not disabled.** -/
theorem reasonChoice_enabled {persona question scope : String} {p : PersonaPrompt} {q : String}
    (h : reasonChoice thread prompts persona question scope = .ok (p, q)) :
    thread.get p.id = some p ∨ (prompts.get p.id = some p ∧ p.disabled = false) := by
  unfold reasonChoice at h
  cases htext : thinkText persona question with
  | error message => rw [htext] at h; cases h
  | ok text =>
    rw [htext] at h
    dsimp only at h
    cases hfound : reasonResolve thread prompts text.1 scope with
    | none => rw [hfound] at h; cases h
    | some found =>
      rw [hfound] at h
      dsimp only at h
      by_cases hrefused : found.disabled = true ∧ (scope = "" ∨ scope = "global")
      · rw [if_pos hrefused] at h; cases h
      rw [if_neg hrefused] at h
      obtain ⟨rfl, -⟩ := Prod.mk.inj (Except.ok.inj h)
      unfold reasonResolve at hfound
      split at hfound
      · rename_i own hown
        cases hfound
        split at hown
        · exact .inl (resolve_some hown)
        · cases hown
      · by_cases hglobal : scope = "" ∨ scope = "global"
        · rw [if_pos hglobal] at hfound
          have hflag : found.disabled ≠ true := fun hd => hrefused ⟨hd, hglobal⟩
          exact .inr ⟨resolve_some hfound, Bool.eq_false_iff.mpr hflag⟩
        · rw [if_neg hglobal] at hfound
          cases hfound

end NuSelf.Persona
