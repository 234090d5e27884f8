/-
  Texts of exceptions, and the walk over exceptions linked by `__cause__` and `__context__`.

  Exceptions are the places of a finite graph.  `diagnostic_exception_chain` follows the links that
  a traceback shows, and keeps no record of where it has been.  The loop is run with a bound on its
  rounds; it terminates if some bound is not used up.

  1. `chainLoop_some_iff` — the loop comes to an end exactly along a path, with the messages of it.
  2. `chain_listed_iff` — so it does exactly if the displayed chain does not come back to itself.
-/
import NuSelf.Daemon.Protocol
import NuSelf.Lib.Chain

namespace NuSelf.Runtime

open NuSelf.Lib NuSelf.Daemon

/-- What the walks read of the exceptions. -/
structure Exceptions (E : Type) where
  cause : E → Option E
  context : E → Option E
  suppress_context : E → Bool
  class_name : E → String
  /-- `str(exc)`, which may raise. -/
  text : E → Option PyText

namespace Exceptions

variable {E : Type} (exceptions : Exceptions E)

/-! ## The displayed chain -/

/-- `safe_exception_message`. -/
def safeMessage (exc : E) : PyText :=
  match exceptions.text exc with
  | none => pyText (exceptions.class_name exc)
  | some text => safeExceptionMessage (exceptions.class_name exc) text

/-- The exception that a traceback shows behind this one. -/
def displayed (exc : E) : Option E :=
  match exceptions.cause exc with
  | some cause => some cause
  | none => if exceptions.suppress_context exc then none else exceptions.context exc

/-- The loop of `diagnostic_exception_chain`; nothing if there are not enough rounds. -/
def chainLoop : Nat → List PyText → Option E → Option (List PyText)
  | _, messages, none => some messages
  | 0, _, some _ => none
  | rounds + 1, messages, some current =>
    chainLoop rounds (addNew messages (exceptions.safeMessage current))
      (exceptions.displayed current)

/-- `" <- ".join`. -/
def joinMessages : List PyText → PyText
  | [] => []
  | [message] => message
  | message :: rest => message ++ pyText " <- " ++ joinMessages rest

def diagnosticExceptionChain (redact_sensitive_text : PyText → PyText) (rounds : Nat) (exc : E) :
    Option PyText :=
  (exceptions.chainLoop rounds [] (some exc)).map fun messages =>
    redact_sensitive_text (joinMessages messages)

/-- **The loop comes to an end** along a path, and has added its messages. -/
theorem chainLoop_some_iff (rounds : Nat) : ∀ (messages : List PyText) (current : Option E)
    (listed : List PyText), exceptions.chainLoop rounds messages current = some listed ↔
      ∃ path, EndsAlong exceptions.displayed current path ∧ path.length ≤ rounds ∧
        listed = (path.map exceptions.safeMessage).foldl addNew messages := by
  induction rounds with
  | zero =>
    intro messages current listed
    cases current with
    | none =>
      constructor
      · intro h
        cases h
        exact ⟨[], .done, Nat.le_refl 0, rfl⟩
      · rintro ⟨path, hpath, -, rfl⟩
        cases hpath
        rfl
    | some exc =>
      refine iff_of_false nofun ?_
      rintro ⟨path, hpath, hlength, -⟩
      cases hpath with
      | step hrest => exact Nat.not_succ_le_zero _ hlength
  | succ rounds ih =>
    intro messages current listed
    cases current with
    | none =>
      constructor
      · intro h
        cases h
        exact ⟨[], .done, Nat.zero_le _, rfl⟩
      · rintro ⟨path, hpath, -, rfl⟩
        cases hpath
        rfl
    | some exc =>
      rw [chainLoop, ih]
      constructor
      · rintro ⟨path, hpath, hlength, rfl⟩
        exact ⟨exc :: path, .step hpath, Nat.succ_le_succ hlength, rfl⟩
      · rintro ⟨path, hpath, hlength, rfl⟩
        cases hpath with
        | step hrest => exact ⟨_, hrest, Nat.le_of_succ_le_succ hlength, rfl⟩

/-- The messages of the exceptions on a path. -/
structure Lists (path : List E) (messages : List PyText) : Prop where
  /-- Each exception is listed once. -/
  once : ∀ exc ∈ path, messages.count (exceptions.safeMessage exc) = 1
  /-- Nothing else is. -/
  only : ∀ message ∈ messages, ∃ exc ∈ path, exceptions.safeMessage exc = message
  /-- Behind the messages of the exceptions in front of it, and no others. -/
  order : ∀ before exc behind, path = before ++ exc :: behind →
    exceptions.safeMessage exc ∉ before.map exceptions.safeMessage →
      ∃ front rest, messages = front ++ exceptions.safeMessage exc :: rest ∧
        ∀ message, message ∈ front ↔ message ∈ before.map exceptions.safeMessage

theorem lists_firsts (path : List E) :
    exceptions.Lists path (firsts (path.map exceptions.safeMessage)) where
  once exc hexc := List.count_eq_one_of_mem (nodup_firsts _)
    (mem_firsts.mpr (List.mem_map_of_mem hexc))
  only message hmessage := List.mem_map.mp (mem_firsts.mp hmessage)
  order before exc behind hpath hnew := by
    have hspec : ∃ rest, firsts (before.map exceptions.safeMessage ++
        exceptions.safeMessage exc :: behind.map exceptions.safeMessage) = _ := firsts_spec hnew
    obtain ⟨rest, hrest⟩ := hspec
    refine ⟨_, rest, ?_, fun message => mem_firsts⟩
    rw [hpath, List.map_append, List.map_cons, hrest]

/-- The walk terminates, with the exceptions along the displayed chain. -/
def ChainListed (redact_sensitive_text : PyText → PyText) (exc : E) : Prop :=
  ∃ rounds text path messages,
    exceptions.diagnosticExceptionChain redact_sensitive_text rounds exc = some text ∧
      EndsAlong exceptions.displayed (some exc) path ∧ exceptions.Lists path messages ∧
      text = redact_sensitive_text (joinMessages messages)

/-- **When the chain is listed**: when it does not come back to an exception that it has shown. -/
theorem chain_listed_iff {E : Type} [Finite E] (exceptions : Exceptions E)
    (redact_sensitive_text : PyText → PyText) (exc : E) :
    exceptions.ChainListed redact_sensitive_text exc ↔ ¬ Returns exceptions.displayed exc := by
  constructor
  · rintro ⟨rounds, text, path, messages, -, hpath, -⟩
    exact hpath.not_returns
  · intro hreturns
    obtain ⟨path, hpath⟩ := exists_endsAlong hreturns
    have hloop := (exceptions.chainLoop_some_iff path.length [] (some exc) _).mpr
      ⟨path, hpath, Nat.le_refl _, rfl⟩
    refine ⟨path.length, _, path, _, ?_, hpath, exceptions.lists_firsts path, rfl⟩
    rw [diagnosticExceptionChain, hloop]
    rfl

end Exceptions

/-- One exception, raised from itself. -/
def selfCaused : Exceptions Unit where
  cause _ := some ()
  context _ := none
  suppress_context _ := true
  class_name _ := "RuntimeError"
  text _ := some (pyText "failed")

/-- However many rounds the walk has, it has not come to an end. -/
theorem selfCaused_unending : ¬ selfCaused.ChainListed id () ∧
    ∀ rounds, selfCaused.diagnosticExceptionChain id rounds () = none := by
  have hnone : ∀ (rounds : Nat) (messages : List PyText),
      selfCaused.chainLoop rounds messages (some ()) = none := by
    intro rounds
    induction rounds with
    | zero => exact fun _ => rfl
    | succ rounds ih => exact fun _ => ih _
  have hchain : ∀ rounds, selfCaused.diagnosticExceptionChain id rounds () = none := by
    intro rounds
    rw [Exceptions.diagnosticExceptionChain, hnone rounds []]
    rfl
  refine ⟨?_, hchain⟩
  rintro ⟨rounds, text, path, messages, hsome, -⟩
  rw [hchain] at hsome
  cases hsome

/-- Two exceptions with one text, the second raised from the first. -/
def causedOnce : Exceptions Bool where
  cause exc := if exc then some false else none
  context _ := none
  suppress_context exc := exc
  class_name _ := "RuntimeError"
  text _ := some (pyText "failed")

theorem causedOnce_listed : causedOnce.ChainListed id true ∧
    causedOnce.diagnosticExceptionChain id 2 true = some (pyText "failed") := by
  have hpath : EndsAlong causedOnce.displayed (some true) [true, false] :=
    .step (.step .done)
  exact ⟨(Exceptions.chain_listed_iff causedOnce id true).mpr hpath.not_returns, by decide +kernel⟩

end NuSelf.Runtime
