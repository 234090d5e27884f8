/-
  Scripts that may be stopped anywhere.

  A script is a list of actions on a state.  An action makes its change and may raise; the
  environment makes the choices that it leaves open.  A script may also be stopped before an action
  or behind one, by whatever an action does not raise itself.

  `Safe` says what holds wherever a script is stopped, what each of its actions guarantees to the
  others, and what holds once it is done.  A `Triple` is the same of one action, between two
  assertions; `Triple.safe` puts triples together, from the last action to the first.
-/
import Mathlib.Data.Option.Basic

namespace NuSelf.Lib.Script

variable {σ α χ ε : Type}

section

-- what an action makes of a state, and whether it raises
variable (perform : α → χ → σ → σ × Option ε)
-- what holds where a script is stopped; what each action guarantees; what holds at the end
variable (stop : σ → Prop) (guar : σ → σ → Prop) (done : σ → Prop)

/-- The script may be stopped anywhere. -/
def Safe : List α → σ → Prop
  | [], s => done s
  | a :: rest, s => stop s ∧ ∀ choice,
    guar s (perform a choice s).1 ∧ stop (perform a choice s).1 ∧
      ((perform a choice s).2 = none → Safe rest (perform a choice s).1)

/-- An action from one assertion to another. -/
structure Triple (P : σ → Prop) (a : α) (Q : σ → Prop) : Prop where
  stops : ∀ s, P s → stop s
  acts : ∀ s choice, P s → guar s (perform a choice s).1 ∧ stop (perform a choice s).1 ∧
    ((perform a choice s).2 = none → Q (perform a choice s).1)

end

variable {perform : α → χ → σ → σ × Option ε} {stop : σ → Prop} {guar : σ → σ → Prop}
  {done : σ → Prop} {P Q : σ → Prop} {a : α} {rest : List α} {s : σ}

theorem Safe.stopped (h : Safe perform stop guar done (a :: rest) s) : stop s := h.1

theorem Safe.guaranteed (h : Safe perform stop guar done (a :: rest) s) (choice : χ) :
    guar s (perform a choice s).1 := (h.2 choice).1

theorem Safe.stopped_after (h : Safe perform stop guar done (a :: rest) s) (choice : χ) :
    stop (perform a choice s).1 := (h.2 choice).2.1

theorem Safe.next (h : Safe perform stop guar done (a :: rest) s) {choice : χ}
    (hok : (perform a choice s).2 = none) :
    Safe perform stop guar done rest (perform a choice s).1 := (h.2 choice).2.2 hok

/-- **One action before a script.** -/
theorem Triple.safe (h : Triple perform stop guar P a Q)
    (hrest : ∀ s, Q s → Safe perform stop guar done rest s) :
    ∀ s, P s → Safe perform stop guar done (a :: rest) s := by
  intro s hP
  refine ⟨h.stops s hP, fun choice => ?_⟩
  obtain ⟨hguar, hstop, hnext⟩ := h.acts s choice hP
  exact ⟨hguar, hstop, fun hok => hrest _ (hnext hok)⟩

theorem Triple.last (h : Triple perform stop guar P a done) :
    ∀ s, P s → Safe perform stop guar done [a] s :=
  h.safe fun _ hs => hs

theorem Safe.imp {done' : σ → Prop} (himp : ∀ s, done s → done' s) :
    ∀ {script : List α} {s : σ}, Safe perform stop guar done script s →
      Safe perform stop guar done' script s
  | [], _, h => himp _ h
  | _ :: _, _, h => by
    refine ⟨h.1, fun choice => ?_⟩
    obtain ⟨hguar, hstop, hnext⟩ := h.2 choice
    exact ⟨hguar, hstop, fun hok => (hnext hok).imp himp⟩

/-- **One script behind another.** -/
theorem Safe.append {mid : σ → Prop} {more : List α}
    (hmore : ∀ s, mid s → Safe perform stop guar done more s) :
    ∀ {script : List α} {s : σ}, Safe perform stop guar mid script s →
      Safe perform stop guar done (script ++ more) s
  | [], _, h => hmore _ h
  | _ :: _, _, h => by
    refine ⟨h.1, fun choice => ?_⟩
    obtain ⟨hguar, hstop, hnext⟩ := h.2 choice
    exact ⟨hguar, hstop, fun hok => (hnext hok).append hmore⟩

end NuSelf.Lib.Script
