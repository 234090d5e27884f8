/-
  Runs of a deterministic machine, step by step.

  A machine is a function `step : σ → ι → σ × ο` from a state and an input to the next state and
  an output; whatever the environment decides (a clock, a model's reply, a failure) is part of the
  input, so a run is determined by its start and its inputs.  `run step s is` lists the steps of
  that run, each with the state it started from.

  1. `run_induct` — the run rule: an invariant that every step keeps holds before and after each
     step, and a fact that follows from the invariant holds of each step.  The rule asks for
     preservation only at steps that meet a side condition `ok`, so it covers "in every run whose
     steps all meet the condition".
  2. `run_forall_iff` — where each step is good exactly when it meets the condition, all steps of a
     run are good exactly when all meet the condition; the invariant may need the condition too.
  3. `watched` — the same machine with an observer that sees every step, for properties that speak
     about the past.
-/
import Mathlib.Data.List.Basic

namespace NuSelf.Lib

variable {σ ι ο : Type}

/-- One step of a run. -/
structure Step (σ ι ο : Type) where
  before : σ
  input : ι
  output : ο
  after : σ

/-- The steps of a run from `s` over the inputs, oldest first. -/
def run (step : σ → ι → σ × ο) (s : σ) : List ι → List (Step σ ι ο)
  | [] => []
  | i :: is => ⟨s, i, (step s i).2, (step s i).1⟩ :: run step (step s i).1 is

/-- The state a run ends in. -/
def final (step : σ → ι → σ × ο) (s : σ) : List ι → σ
  | [] => s
  | i :: is => final step (step s i).1 is

/-- A step that `step` really makes. -/
def Step.Of (step : σ → ι → σ × ο) (e : Step σ ι ο) : Prop :=
  step e.before e.input = (e.after, e.output)

theorem Step.Of.after_eq {step : σ → ι → σ × ο} {e : Step σ ι ο} (h : e.Of step) :
    (step e.before e.input).1 = e.after :=
  congrArg Prod.fst h

theorem Step.Of.output_eq {step : σ → ι → σ × ο} {e : Step σ ι ο} (h : e.Of step) :
    (step e.before e.input).2 = e.output :=
  congrArg Prod.snd h

theorem run_of (step : σ → ι → σ × ο) : ∀ (s : σ) (is : List ι), ∀ e ∈ run step s is, e.Of step
  | _, [], _, he => nomatch he
  | s, i :: is, e, he => by
    rcases List.mem_cons.mp he with rfl | he
    · rfl
    · exact run_of step _ is e he

theorem input_mem (step : σ → ι → σ × ο) :
    ∀ (s : σ) (is : List ι), ∀ e ∈ run step s is, e.input ∈ is
  | _, [], _, he => nomatch he
  | s, i :: is, e, he => by
    rcases List.mem_cons.mp he with rfl | he
    · exact List.mem_cons_self
    · exact List.mem_cons_of_mem _ (input_mem step _ is e he)

/-- **The run rule.**  If the invariant holds at the start and every step that meets `ok` keeps
    it, then in a run whose steps all meet `ok` it holds before and after every step. -/
theorem run_induct {step : σ → ι → σ × ο} {Inv : σ → Prop} {ok : σ → ι → Prop}
    (hstep : ∀ s i, Inv s → ok s i → Inv (step s i).1) :
    ∀ (s : σ) (is : List ι), Inv s → (∀ e ∈ run step s is, ok e.before e.input) →
      ∀ e ∈ run step s is, Inv e.before ∧ Inv e.after := by
  intro s is
  induction is generalizing s with
  | nil => intro _ _ e he; exact nomatch he
  | cons i is ih =>
    intro hs hok e he
    have hi : Inv (step s i).1 := hstep s i hs (hok _ List.mem_cons_self)
    rcases List.mem_cons.mp he with rfl | he
    · exact ⟨hs, hi⟩
    · exact ih _ hi (fun e he => hok e (List.mem_cons_of_mem _ he)) e he

theorem final_induct {step : σ → ι → σ × ο} {Inv : σ → Prop}
    (hstep : ∀ s i, Inv s → Inv (step s i).1) :
    ∀ (s : σ) (is : List ι), Inv s → Inv (final step s is)
  | _, [], hs => hs
  | s, i :: is, hs => final_induct hstep _ is (hstep s i hs)

theorem final_induct_of {step : σ → ι → σ × ο} {Inv : σ → Prop} {ok : σ → ι → Prop}
    (hstep : ∀ s i, Inv s → ok s i → Inv (step s i).1) :
    ∀ (s : σ) (is : List ι), Inv s → (∀ e ∈ run step s is, ok e.before e.input) →
      Inv (final step s is)
  | _, [], hs, _ => hs
  | s, i :: is, hs, hok => by
    obtain ⟨hfirst, hrest⟩ := List.forall_mem_cons.mp hok
    exact final_induct_of hstep _ is (hstep s i hs hfirst) hrest

theorem run_invariant {step : σ → ι → σ × ο} {Inv : σ → Prop}
    (hstep : ∀ s i, Inv s → Inv (step s i).1) {s : σ} (hs : Inv s) (is : List ι) :
    ∀ e ∈ run step s is, Inv e.before ∧ Inv e.after := by
  have hkeep : ∀ s i, Inv s → True → Inv (step s i).1 := fun s i h _ => hstep s i h
  exact run_induct hkeep s is hs fun _ _ => trivial

/-- **Equivalences lift to runs**: where the property of a step is equivalent to the condition
    on its state and input, and the condition keeps the invariant, whole runs have the property
    exactly when they meet the condition.  The induction is on the inputs: the first step decides
    whether the invariant holds for the rest. -/
theorem run_forall_iff {step : σ → ι → σ × ο} {Inv : σ → Prop} {good : Step σ ι ο → Prop}
    {ok : σ → ι → Prop} (hstep : ∀ s i, Inv s → ok s i → Inv (step s i).1)
    (hiff : ∀ e : Step σ ι ο, e.Of step → Inv e.before → (good e ↔ ok e.before e.input)) :
    ∀ (s : σ) (is : List ι), Inv s →
      ((∀ e ∈ run step s is, good e) ↔ ∀ e ∈ run step s is, ok e.before e.input) := by
  intro s is
  induction is generalizing s with
  | nil =>
    intro _
    constructor
    · intro _ e he; exact nomatch he
    · intro _ e he; exact nomatch he
  | cons i is ih =>
    intro hs
    have hfirst := hiff ⟨s, i, (step s i).2, (step s i).1⟩ rfl hs
    simp only [run, List.forall_mem_cons]
    constructor
    · rintro ⟨hgood, hrest⟩
      have hok := hfirst.mp hgood
      exact ⟨hok, (ih _ (hstep s i hs hok)).mp hrest⟩
    · rintro ⟨hok, hrest⟩
      exact ⟨hfirst.mpr hok, (ih _ (hstep s i hs hok)).mpr hrest⟩

/-- The machine with an observer: `see` updates what the observer knows by each step. -/
def watched {γ : Type} (step : σ → ι → σ × ο) (see : γ → Step σ ι ο → γ) (s : σ × γ) (i : ι) :
    (σ × γ) × ο :=
  (((step s.1 i).1, see s.2 ⟨s.1, i, (step s.1 i).2, (step s.1 i).1⟩), (step s.1 i).2)

end NuSelf.Lib
