/-
  Computations that may be interrupted.

  A computation reads and changes a state, and ends in one of three ways: it returns a value, it
  raises an error that a handler may catch, or the process stops in it, which nothing catches.
  Whatever it has changed by then stays changed; there is no rollback.

  1. The monad: `returned_bind` and its two companions evaluate a step, `bind_returned_iff` peels
     one off a computation that returned.
  2. `Preserves I x` — the invariant `I` holds after `x` however it ends.  Rules for each way to
     build one; with `I` an equation this is the frame rule.  `Leads P Q x` goes from one to
     another.
  3. `write` — putting a file in place, where the answer of the file system may be that it is
     there, that it is not, or that it is there and the call has failed all the same.
-/
import Mathlib.Data.List.Basic

namespace NuSelf.Lib

/-- How a computation ended. -/
inductive Outcome (ε α : Type) where
  | returned (value : α)
  | raised (error : ε)
  /-- The process stopped. -/
  | stopped
  deriving DecidableEq, Repr

/-- A computation on `σ` that may raise `ε`. -/
def Interruptible (σ ε α : Type) : Type := σ → Outcome ε α × σ

/-- What the file system makes of an atomic replacement. -/
inductive WriteAnswer (ε : Type) where
  | written
  /-- The call fails; the old file is still there. -/
  | refused (error : ε)
  /-- The new file is there, and the call fails afterwards (its directory could not be synced). -/
  | unsynced (error : ε)
  /-- The process stops before the new file is there. -/
  | stopped
  deriving DecidableEq, Repr

/-- Whether the new file is there afterwards. -/
def WriteAnswer.lands {ε : Type} : WriteAnswer ε → Bool
  | .written | .unsynced _ => true
  | .refused _ | .stopped => false

/-- How the call ends. -/
def WriteAnswer.outcome {ε : Type} : WriteAnswer ε → Outcome ε Unit
  | .written => .returned ()
  | .refused e | .unsynced e => .raised e
  | .stopped => .stopped

theorem WriteAnswer.outcome_returned_iff {ε : Type} {answer : WriteAnswer ε} {u : Unit} :
    answer.outcome = .returned u ↔ answer = .written := by
  cases answer <;> simp [WriteAnswer.outcome]

namespace Interruptible

variable {σ ε α β : Type}

/-! ## The monad -/

def bind (x : Interruptible σ ε α) (f : α → Interruptible σ ε β) : Interruptible σ ε β :=
  fun s =>
    match x s with
    | (.returned a, s') => f a s'
    | (.raised e, s') => (.raised e, s')
    | (.stopped, s') => (.stopped, s')

instance : Monad (Interruptible σ ε) where
  pure a := fun s => (.returned a, s)
  bind := bind

/-- Read the state. -/
def get : Interruptible σ ε σ := fun s => (.returned s, s)

def modify (f : σ → σ) : Interruptible σ ε Unit := fun s => (.returned (), f s)

/-- Do nothing to the state and end so. -/
def ends (o : Outcome ε α) : Interruptible σ ε α := fun s => (o, s)

def raise (e : ε) : Interruptible σ ε α := ends (.raised e)

def ofExcept : Except ε α → Interruptible σ ε α
  | .ok a => ends (.returned a)
  | .error e => raise e

/-- `try: x  except Exception as e: handle(e)`. -/
def catching (x : Interruptible σ ε α) (handle : ε → Interruptible σ ε α) :
    Interruptible σ ε α := fun s =>
  match x s with
  | (.raised e, s') => handle e s'
  | ended => ended

@[simp] theorem pure_run (a : α) (s : σ) :
    (pure a : Interruptible σ ε α) s = (.returned a, s) := rfl

@[simp] theorem get_run (s : σ) : (get : Interruptible σ ε σ) s = (.returned s, s) := rfl

@[simp] theorem ends_run (o : Outcome ε α) (s : σ) :
    (ends o : Interruptible σ ε α) s = (o, s) := rfl

@[simp] theorem raise_run (e : ε) (s : σ) :
    (raise e : Interruptible σ ε α) s = (.raised e, s) := rfl

theorem bind_run (x : Interruptible σ ε α) (f : α → Interruptible σ ε β) (s : σ) :
    (x >>= f) s = match x s with
      | (.returned a, s') => f a s'
      | (.raised e, s') => (.raised e, s')
      | (.stopped, s') => (.stopped, s') := rfl

theorem bind_pure_id (x : Interruptible σ ε α) : id <$> x = x := by
  funext s
  show bind x _ s = x s
  rw [bind]
  rcases x s with ⟨o, s'⟩
  cases o <;> rfl

theorem bind_then {γ : Type} (x : Interruptible σ ε α) (f : α → Interruptible σ ε β)
    (g : β → Interruptible σ ε γ) : (x >>= f) >>= g = x >>= fun a => f a >>= g := by
  funext s
  show bind (bind x f) g s = bind x (fun a => bind (f a) g) s
  rw [bind, bind, bind]
  rcases x s with ⟨o, s'⟩
  cases o <;> rfl

instance : LawfulMonad (Interruptible σ ε) :=
  LawfulMonad.mk' _ bind_pure_id (fun _ _ => rfl) fun x f g => bind_then x f g

section Step

variable {x : Interruptible σ ε α} {f : α → Interruptible σ ε β} {s s' : σ}

theorem returned_bind {a : α} (h : x s = (.returned a, s')) : (x >>= f) s = f a s' := by
  rw [bind_run, h]

theorem raised_bind {e : ε} (h : x s = (.raised e, s')) : (x >>= f) s = (.raised e, s') := by
  rw [bind_run, h]

theorem stopped_bind (h : x s = (.stopped, s')) : (x >>= f) s = (.stopped, s') := by
  rw [bind_run, h]

theorem ended_bind {o : Outcome ε α} (h : x s = (o, s')) (ho : ∀ a, o ≠ .returned a) :
    ((x >>= f) s).2 = s' := by
  rw [bind_run, h]
  cases o with
  | returned a => exact absurd rfl (ho a)
  | raised e => rfl
  | stopped => rfl

/-- **Peeling a step off**: a computation that returned has returned at every step. -/
theorem bind_returned_iff {b : β} {s'' : σ} : (x >>= f) s = (.returned b, s'') ↔
    ∃ a s', x s = (.returned a, s') ∧ f a s' = (.returned b, s'') := by
  rw [bind_run]
  constructor
  · intro h
    cases hx : x s with
    | mk o s' =>
      rw [hx] at h
      cases o with
      | returned a => exact ⟨a, s', rfl, h⟩
      | raised e => cases h
      | stopped => cases h
  · rintro ⟨a, s', hx, hf⟩
    rw [hx]
    exact hf

end Step

theorem ofExcept_returned_iff {x : Except ε α} {a : α} {s s' : σ} :
    (ofExcept x : Interruptible σ ε α) s = (.returned a, s') ↔ x = .ok a ∧ s = s' := by
  cases x with
  | ok b => simp [ofExcept]
  | error e => simp [ofExcept]

theorem ofExcept_ok {x : Except ε α} {a : α} (h : x = .ok a) (s : σ) :
    (ofExcept x : Interruptible σ ε α) s = (.returned a, s) :=
  ofExcept_returned_iff.mpr ⟨h, rfl⟩

@[simp] theorem get_bind (f : σ → Interruptible σ ε β) (s : σ) : (get >>= f) s = f s s := rfl

@[simp] theorem pure_bind_run (a : α) (f : α → Interruptible σ ε β) (s : σ) :
    (pure a >>= f) s = f a s := rfl

@[simp] theorem modify_bind (g : σ → σ) (f : Unit → Interruptible σ ε β) (s : σ) :
    (modify g >>= f) s = f () (g s) := rfl

theorem catching_returned {x : Interruptible σ ε α} {handle : ε → Interruptible σ ε α}
    {s s' : σ} {a : α}
    (h : x s = (.returned a, s')) : catching x handle s = (.returned a, s') := by
  rw [catching, h]

theorem catching_raised {x : Interruptible σ ε α} {handle : ε → Interruptible σ ε α}
    {s s' : σ} {e : ε}
    (h : x s = (.raised e, s')) : catching x handle s = handle e s' := by
  rw [catching, h]

/-- Where the handler raises in its turn, nothing but the body returns. -/
theorem catching_returned_iff {x : Interruptible σ ε α} {handle : ε → Interruptible σ ε α}
    (hraises : ∀ e s, ∃ e' s', handle e s = (.raised e', s')) {a : α} {s s' : σ} :
    catching x handle s = (.returned a, s') ↔ x s = (.returned a, s') := by
  rcases hrun : x s with ⟨_ | e | _, s₁⟩
  · simp only [catching, hrun]
  · obtain ⟨e', s₂, he⟩ := hraises e s₁
    rw [catching_raised hrun, he]
    constructor <;> (intro h; cases h)
  · simp only [catching, hrun]

/-! ## What holds however it ends -/

/-- The invariant survives the computation, returned or not. -/
def Preserves (I : σ → Prop) (x : Interruptible σ ε α) : Prop := ∀ s, I s → I (x s).2

variable {I : σ → Prop}

theorem preserves_ends (o : Outcome ε α) :
    Preserves I (ends o : Interruptible σ ε α) := fun _ h => h

theorem preserves_pure (a : α) : Preserves I (pure a : Interruptible σ ε α) := fun _ h => h

theorem preserves_get : Preserves I (get : Interruptible σ ε σ) := fun _ h => h

theorem preserves_raise (e : ε) : Preserves I (raise e : Interruptible σ ε α) := fun _ h => h

theorem preserves_ofExcept (x : Except ε α) :
    Preserves I (ofExcept x : Interruptible σ ε α) := by
  intro s h
  cases x <;> exact h

theorem preserves_modify {f : σ → σ} (h : ∀ s, I s → I (f s)) :
    Preserves I (modify f : Interruptible σ ε Unit) := h

theorem Preserves.bind {x : Interruptible σ ε α} {f : α → Interruptible σ ε β}
    (hx : Preserves I x) (hf : ∀ a, Preserves I (f a)) : Preserves I (x >>= f) := by
  intro s hs
  have hafter := hx s hs
  rw [bind_run]
  cases hrun : x s with
  | mk o s' =>
    rw [hrun] at hafter
    cases o with
    | returned a => exact hf a s' hafter
    | raised e => exact hafter
    | stopped => exact hafter

theorem Preserves.get_bind {f : σ → Interruptible σ ε β} (hf : ∀ s, I s → I (f s s).2) :
    Preserves I (get >>= f) := hf

theorem Preserves.catching {x : Interruptible σ ε α} {handle : ε → Interruptible σ ε α}
    (hx : Preserves I x) (hhandle : ∀ e, Preserves I (handle e)) : Preserves I (catching x handle) := by
  intro s hs
  have hafter := hx s hs
  unfold Interruptible.catching
  split
  · rename_i e s' hrun
    rw [hrun] at hafter
    exact hhandle e s' hafter
  · exact hafter

/-- However the computation ends: from `P` it goes to `Q`. -/
def Leads (P Q : σ → Prop) (x : Interruptible σ ε α) : Prop := ∀ s, P s → Q (x s).2

theorem Leads.bind {P Q R : σ → Prop} {x : Interruptible σ ε α} {f : α → Interruptible σ ε β}
    (hx : Leads P Q x) (hends : ∀ s, Q s → R s) (hf : ∀ a, Leads Q R (f a)) :
    Leads P R (x >>= f) := by
  intro s hs
  have hafter := hx s hs
  rw [bind_run]
  cases hrun : x s with
  | mk o s' =>
    rw [hrun] at hafter
    cases o with
    | returned a => exact hf a s' hafter
    | raised e => exact hends s' hafter
    | stopped => exact hends s' hafter

theorem leads_pure {P Q : σ → Prop} (h : ∀ s, P s → Q s) (a : α) :
    Leads P Q (pure a : Interruptible σ ε α) := h

/-! ## Writing a file -/

/-- Put a file in place, by the answer of the file system. -/
def write (answer : WriteAnswer ε) (put : σ → σ) : Interruptible σ ε Unit := fun s =>
  (answer.outcome, if answer.lands then put s else s)

@[simp] theorem write_written (put : σ → σ) (s : σ) :
    (write .written put : Interruptible σ ε Unit) s = (.returned (), put s) := rfl

@[simp] theorem write_refused (e : ε) (put : σ → σ) (s : σ) :
    write (.refused e) put s = (.raised e, s) := rfl

@[simp] theorem write_unsynced (e : ε) (put : σ → σ) (s : σ) :
    write (.unsynced e) put s = (.raised e, put s) := rfl

@[simp] theorem write_stopped (put : σ → σ) (s : σ) :
    (write .stopped put : Interruptible σ ε Unit) s = (.stopped, s) := rfl

theorem write_returned_iff {answer : WriteAnswer ε} {put : σ → σ} {s s' : σ} :
    write answer put s = (.returned (), s') ↔ answer = .written ∧ put s = s' := by
  cases answer with
  | written => simp
  | refused e => simp
  | unsynced e => simp
  | stopped => simp

theorem preserves_write {answer : WriteAnswer ε} {put : σ → σ} (h : ∀ s, I s → I (put s)) :
    Preserves I (write answer put) := by
  intro s hs
  rw [write]
  split
  · exact h s hs
  · exact hs

end Interruptible
end NuSelf.Lib
