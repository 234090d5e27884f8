/-
  Parallel tool calls within one invocation.

  The framework runs the tool calls of one message on several threads.  Each call looks its key up
  under the lock, hands the request to its handler without it, and records the text under the lock
  again, so other calls may come between any two of these steps.  A call owns its key from the
  lookup that found nothing until its handler fails, or for good once it has succeeded.

  1. `capture_sequential` — a call that nobody interrupts is `wrapToolCall`;
  2. `owned_step` — what a step preserves unless a call looks its key up while an identical one is
     on its way: a key has one owner, the cache has what its owners have recorded, and what is
     answered is in the cache;
  3. `captured_once` — in every such run a tool succeeds at most once for a name and arguments, and
     every identical call ends with the text of that success;
  4. `captured_twice` — two calls that both look up first.
-/
import NuSelf.Agent.Middleware
import NuSelf.Lib.Run

namespace NuSelf.Agent.Capture

open NuSelf.Lib NuSelf.Feature

/-- Where a call is. -/
inductive Phase where
  /-- Before the lookup. -/
  | looking
  /-- The cache had nothing; the handler is at work. -/
  | handling
  /-- The handler has returned, and its text is to be recorded. -/
  | returned (text : String)
  /-- The success is to be captured. -/
  | recorded (text : String)
  /-- The failure is to be captured. -/
  | failed (e : AgentException)
  | finished (result : Except AgentException String)

structure Call where
  request : ToolCallRequest
  phase : Phase := .looking
  /-- The text of the handler, if it has succeeded. -/
  succeeded : Option String := none

def Call.name (call : Call) : String := call.request.name.getD "unknown"

structure Threads where
  tools : ToolState := {}
  calls : List Call := []

/-- What a call does next. -/
inductive Action where
  | lookup
  /-- The handler ends. -/
  | handle (outcome : HandlerOutcome)
  | record
  | capture

inductive Event where
  /-- A thread begins a call. -/
  | start (request : ToolCallRequest)
  | act (call : Nat) (action : Action)

section

variable (dumps : List (String × Json) → String)

/-- `_tool_cache_key` of a call. -/
def Call.key (call : Call) : Option String := toolCacheKey dumps call.name call.request.args

/-- The lookup under the lock. -/
def lookupStep (s : Threads) (i : Nat) (call : Call) : Threads :=
  match (call.key dumps).bind s.tools.cache.get with
  | some cached => { s with calls := s.calls.set i { call with phase := .finished (.ok cached) } }
  | none => { s with calls := s.calls.set i { call with phase := .handling } }

/-- What the handler does, and the branches behind it. -/
def handleStep (s : Threads) (i : Nat) (call : Call) : HandlerOutcome → Threads
  | .raised e =>
    if e.effect.isSome then
      { s with calls := s.calls.set i { call with phase := .finished (.error e) } }
    else
      { tools := s.tools.run call.request
        calls := s.calls.set i { call with phase := .failed e } }
  | .returned text =>
    { tools := s.tools.run call.request
      calls := s.calls.set i { call with phase := .returned text, succeeded := some text } }

/-- The text is recorded under the lock. -/
def recordStep (s : Threads) (i : Nat) (call : Call) (text : String) : Threads where
  tools := { s.tools with
    cache := (call.key dumps).elim s.tools.cache fun key => s.tools.cache.set key text }
  calls := s.calls.set i { call with phase := .recorded text }

/-- `_capture`, and the end of the call. -/
def captureStep (s : Threads) (i : Nat) (call : Call) (succeeded : Bool)
    (result : Except AgentException String) : Threads :=
  let noted := note s.tools ⟨call.name, toolExecution call.request, succeeded⟩ result
  { tools := noted.2
    calls := s.calls.set i { call with phase := .finished noted.1 } }

/-- The next step of a call, where it is due. -/
def callStep (s : Threads) (i : Nat) (call : Call) : Action → Phase → Threads
  | .lookup, .looking => lookupStep dumps s i call
  | .handle outcome, .handling => handleStep s i call outcome
  | .record, .returned text => recordStep dumps s i call text
  | .capture, .recorded text => captureStep s i call true (.ok text)
  | .capture, .failed e => captureStep s i call false (.error e)
  | _, _ => s

def step (s : Threads) : Event → Threads × Unit
  | .start request => ({ s with calls := s.calls ++ [{ request }] }, ())
  | .act i action =>
    match s.calls[i]? with
    | none => (s, ())
    | some call => (callStep dumps s i call action call.phase, ())

variable {dumps}

/-- The call at an index. -/
def At (s : Threads) (i : Nat) (call : Call) : Prop := s.calls[i]? = some call

/-- What the text of a success says about where the call is. -/
def Call.Shaped (call : Call) : Prop :=
  match call.phase with
  | .looking | .handling | .failed _ => call.succeeded = none
  | .returned text | .recorded text => call.succeeded = some text
  | .finished _ => True

/-- The call has its key to itself. -/
def Call.Owns (call : Call) : Prop := call.phase = .handling ∨ call.succeeded.isSome = true

/-- The text of the call is in the cache. -/
def Call.Stored (call : Call) (text : String) : Prop :=
  call.succeeded = some text ∧ ∀ t, call.phase ≠ .returned t

variable (dumps)

/-- The invariant. -/
structure Owned (s : Threads) : Prop where
  shaped : ∀ i call, At s i call → call.Shaped
  single : ∀ i j ci cj k, At s i ci → At s j cj → ci.key dumps = some k → cj.key dumps = some k →
    ci.Owns → cj.Owns → i = j
  cached : ∀ k text, s.tools.cache.get k = some text ↔
    ∃ i call, At s i call ∧ call.key dumps = some k ∧ call.Stored text
  served : ∀ i call text, At s i call → call.phase = .finished (.ok text) →
    ∃ k, call.key dumps = some k ∧ s.tools.cache.get k = some text
  keyed : ∀ i call, At s i call → call.phase ≠ .looking → (call.key dumps).isSome = true

/-- The condition on a step: a key is looked up, and no identical call is on its way between its
    lookup and its record; arguments without a canonical text have no key. -/
def Undisturbed (s : Threads) : Event → Prop
  | .act i .lookup => ∀ call, At s i call → call.phase = .looking →
      ∃ k, call.key dumps = some k ∧
        ∀ j other, At s j other → other.key dumps = some k →
          other.phase ≠ .handling ∧ ∀ text, other.phase ≠ .returned text
  | _ => True

variable {dumps}

/-! ## What a step preserves -/

theorem at_set {s : Threads} {i j : Nat} {call call' c : Call} (tools : ToolState)
    (hat : At s i call) :
    At { tools, calls := s.calls.set i call' } j c ↔
      (j = i ∧ c = call') ∨ (j ≠ i ∧ At s j c) := by
  have hlength : i < s.calls.length := (List.getElem?_eq_some_iff.mp hat).choose
  unfold At
  dsimp only
  by_cases hj : j = i
  · subst hj
    rw [List.getElem?_set_self hlength]
    constructor
    · intro h
      exact Or.inl ⟨rfl, (Option.some.inj h).symm⟩
    · rintro (⟨-, rfl⟩ | ⟨hne, -⟩)
      · rfl
      · exact absurd rfl hne
  · rw [List.getElem?_set_ne (Ne.symm hj)]
    constructor
    · exact fun h => Or.inr ⟨hj, h⟩
    · rintro (⟨rfl, -⟩ | ⟨-, h⟩)
      · exact absurd rfl hj
      · exact h

theorem key_eq {call call' : Call} (h : call'.request = call.request) :
    call'.key dumps = call.key dumps := by
  rw [Call.key, Call.key, Call.name, Call.name, h]

/-- **One call takes a step**: what it has to say about itself for the invariant to hold again. -/
theorem Owned.replace {s : Threads} {i : Nat} {call call' : Call} {tools : ToolState}
    (h : Owned dumps s) (hat : At s i call) (hrequest : call'.request = call.request)
    (hshaped : call'.Shaped) (hkeyed : (call.key dumps).isSome = true)
    (howns : call'.Owns → call.Owns ∨ ∀ j other k, j ≠ i → At s j other →
      call.key dumps = some k → other.key dumps = some k → ¬ other.Owns)
    (hcache : ∀ k text, tools.cache.get k = some text ↔
      s.tools.cache.get k = some text ∨ (call.key dumps = some k ∧ call'.Stored text))
    (hstored : ∀ text, call.Stored text → call'.Stored text)
    (hserved : ∀ text, call'.phase = .finished (.ok text) →
      ∃ k, call.key dumps = some k ∧ tools.cache.get k = some text) :
    Owned dumps { tools, calls := s.calls.set i call' } := by
  have hkey : call'.key dumps = call.key dumps := key_eq hrequest
  -- two owners of a key, one of them the call that takes the step
  have hown : ∀ j other k, j ≠ i → At s j other → call.key dumps = some k →
      other.key dumps = some k → call'.Owns → ¬ other.Owns := by
    intro j other k hj hother hk hk' hnew hold
    rcases howns hnew with hbefore | hfree
    · exact hj (h.single j i other call k hother hat hk' hk hold hbefore)
    · exact hfree j other k hj hother hk hk' hold
  constructor
  case shaped =>
    intro j c hc
    rcases (at_set tools hat).mp hc with ⟨-, rfl⟩ | ⟨-, hc⟩
    · exact hshaped
    · exact h.shaped j c hc
  case single =>
    intro j l cj cl k hcj hcl hkj hkl hoj hol
    rcases (at_set tools hat).mp hcj with ⟨rfl, rfl⟩ | ⟨hj, hold⟩
    · rcases (at_set tools hat).mp hcl with ⟨rfl, -⟩ | ⟨hl, hcl⟩
      · rfl
      · rw [hkey] at hkj
        exact absurd hol (hown l cl k hl hcl hkj hkl hoj)
    · rcases (at_set tools hat).mp hcl with ⟨rfl, rfl⟩ | ⟨hl, hcl⟩
      · rw [hkey] at hkl
        exact absurd hoj (hown j cj k hj hold hkl hkj hol)
      · exact h.single j l cj cl k hold hcl hkj hkl hoj hol
  case cached =>
    intro k text
    rw [hcache, h.cached]
    constructor
    · rintro (⟨j, c, hc, hk, htext⟩ | ⟨hk, htext⟩)
      · by_cases hj : j = i
        · subst hj
          obtain rfl : c = call := Option.some.inj (hc.symm.trans hat)
          exact ⟨j, call', (at_set tools hat).mpr (Or.inl ⟨rfl, rfl⟩), hkey.trans hk,
            hstored text htext⟩
        · exact ⟨j, c, (at_set tools hat).mpr (Or.inr ⟨hj, hc⟩), hk, htext⟩
      · exact ⟨i, call', (at_set tools hat).mpr (Or.inl ⟨rfl, rfl⟩), hkey.trans hk, htext⟩
    · rintro ⟨j, c, hc, hk, htext⟩
      rcases (at_set tools hat).mp hc with ⟨-, rfl⟩ | ⟨-, hc⟩
      · exact Or.inr ⟨hkey.symm.trans hk, htext⟩
      · exact Or.inl ⟨j, c, hc, hk, htext⟩
  case served =>
    intro j c text hc hphase
    rcases (at_set tools hat).mp hc with ⟨-, rfl⟩ | ⟨-, hc⟩
    · rw [hkey]
      exact hserved text hphase
    · obtain ⟨k, hk, hget⟩ := h.served j c text hc hphase
      exact ⟨k, hk, (hcache k text).mpr (Or.inl hget)⟩
  case keyed =>
    intro j c hc hphase
    rcases (at_set tools hat).mp hc with ⟨-, rfl⟩ | ⟨-, hc⟩
    · rw [hkey]
      exact hkeyed
    · exact h.keyed j c hc hphase

theorem at_append {s : Threads} {j : Nat} {new c : Call} :
    At { s with calls := s.calls ++ [new] } j c ↔
      At s j c ∨ (j = s.calls.length ∧ c = new) := by
  unfold At
  dsimp only
  rw [List.getElem?_append]
  by_cases hj : j < s.calls.length
  · rw [if_pos hj]
    exact (or_iff_left fun h => absurd h.1 (Nat.ne_of_lt hj)).symm
  · rw [if_neg hj, List.getElem?_eq_none (Nat.le_of_not_lt hj)]
    constructor
    · intro h
      obtain ⟨hlength, hnew⟩ := List.getElem?_eq_some_iff.mp h
      rw [List.length_singleton] at hlength
      exact Or.inr ⟨by omega, by simpa using hnew.symm⟩
    · rintro (h | ⟨rfl, rfl⟩)
      · cases h
      · rw [Nat.sub_self]
        rfl

theorem owned_start {s : Threads} (h : Owned dumps s) (request : ToolCallRequest) :
    Owned dumps { s with calls := s.calls ++ [{ request }] } := by
  have hnew : ¬ ({ request } : Call).Owns := by
    rintro (hphase | hsucceeded)
    · cases hphase
    · cases hsucceeded
  constructor
  case shaped =>
    intro i call hcall
    rcases at_append.mp hcall with hcall | ⟨-, rfl⟩
    · exact h.shaped i call hcall
    · rfl
  case single =>
    intro i j ci cj k hci hcj hki hkj hoi hoj
    rcases at_append.mp hci with hci | ⟨-, rfl⟩
    · rcases at_append.mp hcj with hcj | ⟨-, rfl⟩
      · exact h.single i j ci cj k hci hcj hki hkj hoi hoj
      · exact absurd hoj hnew
    · exact absurd hoi hnew
  case cached =>
    intro k text
    refine (h.cached k text).trans ⟨?_, ?_⟩
    · rintro ⟨i, call, hcall, hk, htext⟩
      exact ⟨i, call, at_append.mpr (Or.inl hcall), hk, htext⟩
    · rintro ⟨i, call, hcall, hk, htext⟩
      rcases at_append.mp hcall with hcall | ⟨-, rfl⟩
      · exact ⟨i, call, hcall, hk, htext⟩
      · cases htext.1
  case served =>
    intro i call text hcall hphase
    rcases at_append.mp hcall with hcall | ⟨-, rfl⟩
    · exact h.served i call text hcall hphase
    · cases hphase
  case keyed =>
    intro i call hcall hphase
    rcases at_append.mp hcall with hcall | ⟨-, rfl⟩
    · exact h.keyed i call hcall hphase
    · exact absurd rfl hphase

theorem run_cache (tools : ToolState) (request : ToolCallRequest) :
    (tools.run request).cache = tools.cache := by
  rw [ToolState.run]
  split <;> rfl

theorem note_cache (tools : ToolState) (executed : ExecutedTool)
    (result : Except AgentException String) : (note tools executed result).2.cache = tools.cache := by
  rw [note, capture]
  by_cases hblank : blank executed.name = true
  · rw [if_pos hblank]
  · rw [if_neg hblank]

theorem note_ok {tools : ToolState} {executed : ExecutedTool}
    {result : Except AgentException String} {text : String}
    (h : (note tools executed result).1 = .ok text) : result = .ok text := by
  rw [note, capture] at h
  by_cases hblank : blank executed.name = true
  · rw [if_pos hblank] at h
    cases h
  · rw [if_neg hblank] at h
    exact h

theorem owned_lookup {s : Threads} {i : Nat} {call : Call} (h : Owned dumps s) (hat : At s i call)
    (hphase : call.phase = .looking) (halone : Undisturbed dumps s (.act i .lookup)) :
    Owned dumps (lookupStep dumps s i call) := by
  obtain ⟨k, hk, hothers⟩ := halone call hat hphase
  have hnone : call.succeeded = none := by
    have hshaped := h.shaped i call hat
    rw [Call.Shaped, hphase] at hshaped
    exact hshaped
  have hunstored : ∀ (c : Call) (text : String), c.succeeded = none → ¬ c.Stored text := by
    rintro c text hc ⟨htext, -⟩
    rw [hc] at htext
    cases htext
  unfold lookupStep
  rw [hk, Option.bind_some]
  cases hget : s.tools.cache.get k with
  | some cached =>
    refine h.replace hat rfl trivial (by rw [hk]; rfl) ?_ (fun q text => ?_) ?_ ?_
    · rintro (hhandling | hsucceeded)
      · cases hhandling
      · rw [hnone] at hsucceeded
        cases hsucceeded
    · exact (or_iff_left fun hnew => hunstored _ text (by exact hnone) hnew.2).symm
    · exact fun text hold => absurd hold (hunstored _ text hnone)
    · intro text htext
      cases htext
      exact ⟨k, hk, hget⟩
  | none =>
    refine h.replace hat rfl hnone (by rw [hk]; rfl) ?_ (fun q text => ?_) ?_ ?_
    · refine fun _ => Or.inr fun j other q _ hother hq hq' hown => ?_
      obtain rfl : k = q := Option.some.inj (hk.symm.trans hq)
      obtain ⟨hidle, hrecorded⟩ := hothers j other hother hq'
      rcases hown with hhandling | hsucceeded
      · exact hidle hhandling
      · -- what has succeeded and is not to be recorded is in the cache
        obtain ⟨text, htext⟩ := Option.isSome_iff_exists.mp hsucceeded
        have hin := (h.cached k text).mpr ⟨j, other, hother, hq', htext, hrecorded⟩
        rw [hget] at hin
        cases hin
    · exact (or_iff_left fun hnew => hunstored _ text (by exact hnone) hnew.2).symm
    · exact fun text hold => absurd hold (hunstored _ text hnone)
    · exact fun text htext => nomatch htext

theorem owned_handle {s : Threads} {i : Nat} {call : Call} (h : Owned dumps s) (hat : At s i call)
    (hphase : call.phase = .handling) (outcome : HandlerOutcome) :
    Owned dumps (handleStep s i call outcome) := by
  have hnone : call.succeeded = none := by
    have hshaped := h.shaped i call hat
    rw [Call.Shaped, hphase] at hshaped
    exact hshaped
  have hkeyed := h.keyed i call hat (by rw [hphase]; exact fun heq => nomatch heq)
  have hunstored : ∀ text, ¬ call.Stored text := by
    rintro text ⟨htext, -⟩
    rw [hnone] at htext
    cases htext
  cases outcome with
  | raised e =>
    unfold handleStep
    dsimp only
    by_cases heffect : e.effect.isSome = true
    · rw [if_pos heffect]
      refine h.replace hat rfl trivial hkeyed ?_ (fun q text => ?_) ?_ fun text htext => nomatch htext
      · exact fun _ => Or.inl (Or.inl hphase)
      · refine (or_iff_left ?_).symm
        rintro ⟨-, htext, -⟩
        rw [hnone] at htext
        cases htext
      · exact fun text hold => absurd hold (hunstored text)
    · rw [if_neg heffect]
      refine h.replace hat rfl hnone hkeyed ?_ (fun q text => ?_) ?_ fun text htext => nomatch htext
      · exact fun _ => Or.inl (Or.inl hphase)
      · rw [run_cache]
        refine (or_iff_left ?_).symm
        rintro ⟨-, htext, -⟩
        rw [hnone] at htext
        cases htext
      · exact fun text hold => absurd hold (hunstored text)
  | returned text =>
    refine h.replace hat rfl rfl hkeyed ?_ (fun q text' => ?_) ?_ fun text htext => nomatch htext
    · exact fun _ => Or.inl (Or.inl hphase)
    · rw [run_cache]
      refine (or_iff_left ?_).symm
      rintro ⟨-, -, hrecorded⟩
      exact hrecorded text rfl
    · exact fun text hold => absurd hold (hunstored text)

theorem owned_record {s : Threads} {i : Nat} {call : Call} {text : String} (h : Owned dumps s)
    (hat : At s i call) (hphase : call.phase = .returned text) :
    Owned dumps (recordStep dumps s i call text) := by
  have hsucceeded : call.succeeded = some text := by
    have hshaped := h.shaped i call hat
    rw [Call.Shaped, hphase] at hshaped
    exact hshaped
  have hkeyed := h.keyed i call hat (by rw [hphase]; exact fun heq => nomatch heq)
  obtain ⟨k, hk⟩ := Option.isSome_iff_exists.mp hkeyed
  have howns : call.Owns := Or.inr (by rw [hsucceeded]; rfl)
  -- nobody else has recorded a text for the key
  have hfree : s.tools.cache.get k = none := by
    cases hget : s.tools.cache.get k with
    | none => rfl
    | some other =>
      obtain ⟨j, c, hc, hkc, hstored⟩ := (h.cached k other).mp hget
      have hj := h.single j i c call k hc hat hkc hk (Or.inr (by rw [hstored.1]; rfl)) howns
      subst hj
      obtain rfl : c = call := Option.some.inj (hc.symm.trans hat)
      exact absurd hphase (hstored.2 text)
  refine h.replace hat rfl hsucceeded hkeyed (fun _ => Or.inl howns) (fun q text' => ?_) ?_
    fun text htext => nomatch htext
  · rw [hk]
    dsimp only [Option.elim]
    rw [Table.get_set]
    by_cases hq : q = k
    · subst hq
      rw [if_pos rfl, hfree]
      constructor
      · intro heq
        obtain rfl : text = text' := Option.some.inj heq
        exact Or.inr ⟨rfl, hsucceeded, fun t hreturned => nomatch hreturned⟩
      · rintro (hnone | ⟨-, htext, -⟩)
        · cases hnone
        · exact hsucceeded.symm.trans htext
    · rw [if_neg hq]
      exact (or_iff_left fun hnew => hq (Option.some.inj hnew.1).symm).symm
  · exact fun text' hold => absurd hphase (hold.2 text)

theorem owned_capture {s : Threads} {i : Nat} {call : Call} {succeeded : Bool}
    {result : Except AgentException String} (h : Owned dumps s) (hat : At s i call)
    (hrecorded : ∀ t, call.phase ≠ .returned t) (hlooked : call.phase ≠ .looking)
    (hresult : ∀ text, result = .ok text → call.succeeded = some text) :
    Owned dumps (captureStep s i call succeeded result) := by
  have hkeyed := h.keyed i call hat hlooked
  obtain ⟨k, hk⟩ := Option.isSome_iff_exists.mp hkeyed
  refine h.replace hat rfl trivial hkeyed ?_ (fun q text => ?_) ?_ fun text htext => ?_
  · rintro (hhandling | hsucceeded)
    · cases hhandling
    · exact Or.inl (Or.inr hsucceeded)
  · rw [note_cache]
    refine (or_iff_left_of_imp ?_).symm
    rintro ⟨hq, htext, -⟩
    exact (h.cached q text).mpr ⟨i, call, hat, hq, htext, hrecorded⟩
  · exact fun text hold => ⟨hold.1, fun t heq => nomatch heq⟩
  · rw [note_cache]
    have hok := hresult text (note_ok (Phase.finished.inj htext))
    exact ⟨k, hk, (h.cached k text).mpr ⟨i, call, hat, hk, hok, hrecorded⟩⟩

/-- **A step keeps the invariant** unless a call looks its key up while an identical one is on its
    way. -/
theorem owned_step {s : Threads} {event : Event} (h : Owned dumps s)
    (halone : Undisturbed dumps s event) : Owned dumps (step dumps s event).1 := by
  cases event with
  | start request => exact owned_start h request
  | act i action =>
    unfold step
    dsimp only
    cases hat : s.calls[i]? with
    | none => exact h
    | some call =>
      dsimp only
      cases hphase : call.phase with
      | looking =>
        cases action with
        | lookup => exact owned_lookup h hat hphase halone
        | handle | record | capture => exact h
      | handling =>
        cases action with
        | handle outcome => exact owned_handle h hat hphase outcome
        | lookup | record | capture => exact h
      | returned text =>
        cases action with
        | record => exact owned_record h hat hphase
        | lookup | handle | capture => exact h
      | recorded text =>
        cases action with
        | capture =>
          have hsucceeded : call.succeeded = some text := by
            have hshaped := h.shaped i call hat
            rw [Call.Shaped, hphase] at hshaped
            exact hshaped
          refine owned_capture h hat (fun t heq => ?_) (fun heq => ?_) ?_
          · rw [hphase] at heq
            cases heq
          · rw [hphase] at heq
            cases heq
          · intro text' htext
            cases htext
            exact hsucceeded
        | lookup | handle | record => exact h
      | failed e =>
        cases action with
        | capture =>
          refine owned_capture h hat (fun t heq => ?_) (fun heq => ?_) fun text htext => nomatch htext
          · rw [hphase] at heq
            cases heq
          · rw [hphase] at heq
            cases heq
        | lookup | handle | record => exact h
      | finished result =>
        cases action with
        | lookup | handle | record | capture => exact h

/-! ## Every run -/

theorem owned_nothing : Owned dumps {} := by
  have hnone : ∀ {i : Nat} {call : Call}, ¬ At {} i call := fun h => nomatch h
  refine ⟨fun i call h => (hnone h).elim, fun i j ci cj k h => (hnone h).elim, fun k text => ?_,
    fun i call text h => (hnone h).elim, fun i call h => (hnone h).elim⟩
  constructor
  · exact fun h => nomatch h
  · exact fun h => (hnone h.choose_spec.choose_spec.1).elim

/-- Calls of one tool with equal arguments have the same key, if they have one. -/
theorem key_of_identical {ci cj : Call} {k : String} (hname : ci.name = cj.name)
    (hargs : dumps ci.request.args = dumps cj.request.args) (hi : ci.key dumps = some k)
    (hj : (cj.key dumps).isSome = true) : cj.key dumps = some k := by
  obtain ⟨q, hq⟩ := Option.isSome_iff_exists.mp hj
  rw [Call.key, toolCacheKey] at hi hq ⊢
  split_ifs at hi hq ⊢
  rw [← hname, ← hargs]
  exact hi

variable (dumps)

/-- **Of identical calls one succeeds, and the others get its text.**  `dumps` is the canonical text
    of the arguments.  In every run in which no call looks its key up while an identical one is on
    its way, of two calls of one tool with equal arguments at most one has executed the tool
    successfully; what the other has ended well with is the text of it; and a call that comes after
    the text was recorded gets it. -/
theorem captured_once (events : List Event)
    (halone : ∀ e ∈ run (step dumps) {} events, Undisturbed dumps e.before e.input) :
    let s := final (step dumps) {} events
    ∀ i j ci cj, At s i ci → At s j cj → ci.name = cj.name →
      dumps ci.request.args = dumps cj.request.args →
      (ci.succeeded.isSome = true → cj.succeeded.isSome = true → i = j) ∧
        (∀ text text', ci.succeeded = some text → cj.phase = .finished (.ok text') →
          text' = text) ∧
        ∀ text, ci.Stored text → cj.phase = .looking → (cj.key dumps).isSome = true →
          At (step dumps s (.act j .lookup)).1 j { cj with phase := .finished (.ok text) } := by
  have howned : Owned dumps (final (step dumps) {} events) :=
    final_induct_of (fun _ _ => owned_step) ({} : Threads) events owned_nothing halone
  intro s i j ci cj hi hj hname hargs
  -- a call that has succeeded is not at its lookup any more
  have hkeyed : ∀ {n : Nat} {c : Call}, At s n c → c.succeeded.isSome = true →
      (c.key dumps).isSome = true := by
    intro n c hc hsucceeded
    refine howned.keyed n c hc fun hlooking => ?_
    have hshaped := howned.shaped n c hc
    rw [Call.Shaped, hlooking] at hshaped
    rw [show c.succeeded = none from hshaped] at hsucceeded
    cases hsucceeded
  refine ⟨fun hsi hsj => ?_, fun text text' hsi hphase => ?_, fun text hstored hphase hkey => ?_⟩
  · obtain ⟨k, hk⟩ := Option.isSome_iff_exists.mp (hkeyed hi hsi)
    have hk' := key_of_identical hname hargs hk (hkeyed hj hsj)
    exact howned.single i j ci cj k hi hj hk hk' (Or.inr hsi) (Or.inr hsj)
  · have hsome : ci.succeeded.isSome = true := by rw [hsi]; rfl
    obtain ⟨k, hk⟩ := Option.isSome_iff_exists.mp (hkeyed hi hsome)
    obtain ⟨k', hk', hget⟩ := howned.served j cj text' hj hphase
    have hsame := key_of_identical hname hargs hk (by rw [hk']; rfl)
    obtain rfl : k' = k := Option.some.inj (hk'.symm.trans hsame)
    -- the text in the cache is that of the owner of the key
    obtain ⟨n, c, hc, hkc, hstored⟩ := (howned.cached k' text').mp hget
    have hn := howned.single n i c ci k' hc hi hkc hk (Or.inr (by rw [hstored.1]; rfl))
      (Or.inr hsome)
    subst hn
    obtain rfl : c = ci := Option.some.inj (hc.symm.trans hi)
    exact Option.some.inj (hstored.1.symm.trans hsi)
  · have hsome : ci.succeeded.isSome = true := by rw [hstored.1]; rfl
    obtain ⟨k, hk⟩ := Option.isSome_iff_exists.mp (hkeyed hi hsome)
    have hsame := key_of_identical hname hargs hk hkey
    have hget := (howned.cached k text).mpr ⟨i, ci, hi, hk, hstored⟩
    have hlookup : (step dumps s (.act j .lookup)).1 =
        { s with calls := s.calls.set j { cj with phase := .finished (.ok text) } } := by
      unfold step
      dsimp only
      rw [show s.calls[j]? = some cj from hj]
      dsimp only
      rw [hphase]
      show lookupStep dumps s j cj = _
      rw [lookupStep, hsame, Option.bind_some, hget]
    rw [hlookup]
    exact (at_set s.tools hj).mpr (Or.inl ⟨rfl, rfl⟩)

end

/-! ### Two identical calls -/

def noArguments (args : List (String × Json)) : String := if args = [] then "\x7b\x7d" else "other"

def clockRequest : ToolCallRequest where
  name := some "clock"
  args := []
  tool := none
  tool_named := nofun

/-- The second call begins while the first one is at work, and looks up when it has recorded. -/
def patientCalls : List Event :=
  [.start clockRequest, .act 0 .lookup, .start clockRequest, .act 0 (.handle (.returned "noon")),
    .act 0 .record, .act 1 .lookup, .act 0 .capture]

theorem patient_captured_once :
    (final (step noArguments) {} patientCalls).calls.map (fun call => call.succeeded) =
        [some "noon", none] ∧
      ∀ text, At (final (step noArguments) {} patientCalls) 1
        { request := clockRequest, phase := .finished (.ok text) } → text = "noon" := by
  have hkey : ∀ {call : Call}, call.request = clockRequest →
      call.key noArguments = some "clock:\x7b\x7d" := by
    intro call hcall
    rw [Call.key, Call.name, hcall]
    decide +kernel
  have halone : ∀ e ∈ run (step noArguments) {} patientCalls,
      Undisturbed noArguments e.before e.input := by
    simp only [patientCalls, run, List.forall_mem_cons]
    refine ⟨trivial, ?_, trivial, trivial, trivial, ?_, trivial, ?_⟩
    rotate_left 2
    · exact fun e he => absurd he List.not_mem_nil
    · intro call hat _
      obtain rfl : call = { request := clockRequest } := Option.some.inj hat.symm
      refine ⟨_, hkey rfl, fun j other hother _ => ?_⟩
      obtain rfl := List.mem_singleton.mp (List.mem_of_getElem? hother)
      exact ⟨by rintro ⟨⟩, fun _ => by rintro ⟨⟩⟩
    · intro call hat _
      obtain rfl : call = { request := clockRequest } := Option.some.inj hat.symm
      refine ⟨_, hkey rfl, fun j other hother _ => ?_⟩
      have hmem : other ∈
          [({ request := clockRequest, phase := .recorded "noon", succeeded := some "noon" } : Call),
            { request := clockRequest }] :=
        List.mem_of_getElem? hother
      rcases List.mem_cons.mp hmem with rfl | hmem
      · exact ⟨by rintro ⟨⟩, fun _ => by rintro ⟨⟩⟩
      · obtain rfl := List.mem_singleton.mp hmem
        exact ⟨by rintro ⟨⟩, fun _ => by rintro ⟨⟩⟩
  refine ⟨by decide +kernel, fun text htext => ?_⟩
  have hfirst : At (final (step noArguments) {} patientCalls) 0
      { request := clockRequest, phase := .finished (.ok "noon"), succeeded := some "noon" } := rfl
  exact (captured_once noArguments patientCalls halone 0 1 _ _ hfirst htext rfl rfl).2.1 "noon" text
    rfl rfl

/-- Both calls look up before either has recorded: the tool runs twice. -/
theorem captured_twice :
    (final (step noArguments) {} [.start clockRequest, .start clockRequest, .act 0 .lookup,
      .act 1 .lookup, .act 0 (.handle (.returned "noon")), .act 1 (.handle (.returned "later")),
      .act 0 .record, .act 1 .record, .act 0 .capture, .act 1 .capture]).calls.map
        (fun call => (call.name, call.succeeded)) =
      [("clock", some "noon"), ("clock", some "later")] := by
  decide +kernel

end NuSelf.Agent.Capture
