/-
  What holds at each exit of a computation.

  `Exits P x Q E` says that from `P` the computation returns with `Q` or raises with `E`, and is not
  stopped.  There is a rule for each way to build one; a handler turns the errors of what it guards
  into exits of its own.

  A call of the operating system (`call`) returns, or raises with nothing done, or raises with its
  work done: `CallEnd` says which.
-/
import NuSelf.Lib.Interruptible

namespace NuSelf.Lib

/-- How a call of the operating system ends. -/
inductive CallEnd (ε : Type) where
  | returned
  /-- It raises, and has done nothing. -/
  | refused (error : ε)
  /-- It has done its work when it raises, or when an interruption comes. -/
  | late (error : ε)
  deriving DecidableEq, Repr

/-- The work of the call is done. -/
def CallEnd.acts {ε : Type} : CallEnd ε → Bool
  | .returned | .late _ => true
  | .refused _ => false

/-- What the call raises. -/
def CallEnd.error {ε : Type} : CallEnd ε → Option ε
  | .returned => none
  | .refused e | .late e => some e

theorem CallEnd.error_eq_none_iff {ε : Type} {ends : CallEnd ε} :
    ends.error = none ↔ ends = .returned := by
  cases ends <;> simp [CallEnd.error]

namespace Interruptible

variable {σ ε ε' α β : Type} {P P' : σ → Prop} {Q Q' : α → σ → Prop} {R : β → σ → Prop}
  {E E' : ε → σ → Prop}

/-- From `P`, it returns with `Q` or raises with `E`. -/
def Exits (P : σ → Prop) (x : Interruptible σ ε α) (Q : α → σ → Prop) (E : ε → σ → Prop) : Prop :=
  ∀ s, P s →
    match x s with
    | (.returned a, s') => Q a s'
    | (.raised e, s') => E e s'
    | (.stopped, _) => False

theorem Exits.imp {x : Interruptible σ ε α} (h : Exits P x Q E) (hP : ∀ s, P' s → P s)
    (hQ : ∀ a s, Q a s → Q' a s) (hE : ∀ e s, E e s → E' e s) : Exits P' x Q' E' := by
  intro s hs
  have hx := h s (hP s hs)
  cases hrun : x s with
  | mk o s' =>
    rw [hrun] at hx
    cases o with
    | returned a => exact hQ a s' hx
    | raised e => exact hE e s' hx
    | stopped => exact hx

theorem exits_raise (e : ε) (h : ∀ s, P s → E e s) : Exits P (raise e) Q E := h

theorem exits_modify {Q : Unit → σ → Prop} {f : σ → σ} (h : ∀ s, P s → Q () (f s)) :
    Exits P (modify f) Q E := h

theorem Exits.bind {x : Interruptible σ ε α} {f : α → Interruptible σ ε β} (hx : Exits P x Q E)
    (hf : ∀ a, Exits (Q a) (f a) R E) : Exits P (x >>= f) R E := by
  intro s hs
  have hfirst := hx s hs
  rw [bind_run]
  cases hrun : x s with
  | mk o s' =>
    rw [hrun] at hfirst
    cases o with
    | returned a => exact hf a s' hfirst
    | raised e => exact hfirst
    | stopped => exact hfirst

theorem Exits.catching {x : Interruptible σ ε α} {handle : ε → Interruptible σ ε α}
    (hx : Exits P x Q E) (hhandle : ∀ e, Exits (E e) (handle e) Q E') :
    Exits P (catching x handle) Q E' := by
  intro s hs
  have hguarded := hx s hs
  rw [Interruptible.catching]
  cases hrun : x s with
  | mk o s' =>
    rw [hrun] at hguarded
    cases o with
    | returned a => exact hguarded
    | raised e => exact hhandle e s' hguarded
    | stopped => exact hguarded

theorem exits_get {f : σ → Interruptible σ ε α} (h : ∀ s, P s → Exits (· = s) (f s) Q E) :
    Exits P (get >>= f) Q E := fun s hs => h s hs s rfl

/-- A call of the operating system. -/
def call (raises : ε' → ε) (ends : CallEnd ε') (act : σ → σ) : Interruptible σ ε Unit := fun s =>
  (match ends.error with
    | none => .returned ()
    | some e => .raised (raises e),
    if ends.acts then act s else s)

variable {raises : ε' → ε} {ends : CallEnd ε'} {act : σ → σ}

/-- **A call**: its work is done where it returns, and done or not where it raises. -/
theorem exits_call {Q : Unit → σ → Prop} (hreturned : ∀ s, P s → Q () (act s))
    (hrefused : ∀ e s, P s → E (raises e) s) (hlate : ∀ e s, P s → E (raises e) (act s)) :
    Exits P (call raises ends act) Q E := by
  intro s hs
  cases ends with
  | returned => exact hreturned s hs
  | refused e => exact hrefused e s hs
  | late e => exact hlate e s hs

end Interruptible
end NuSelf.Lib
