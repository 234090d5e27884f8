/-
  Bounded retry on one endpoint, and failover to the next one in order.

  `failover` asks the endpoints of a list, each at most `attempts` times.  An attempt is an
  operation on a state.  After one that has failed, `retryIf` says whether the same endpoint is
  asked again, and `failoverIf` whether the next one is; both may look at the state.  Every attempt
  is kept in the trace.

  1. `failover_lawful` — each attempt but the last is followed by the one that the rules ask for
     (`Next`), and the last one decides how the whole ends.
  2. `Lawful.last_of_stuck` — an attempt that no other may follow is the last.
  3. `Lawful.inOrder` — the endpoints come in their order, the attempts on each counted up.
-/
import Mathlib.Data.List.Chain

namespace NuSelf.Lib

/-- An attempt: on which endpoint of the list, the how-manieth on it, and what it did. -/
structure Try (α σ ε ρ : Type) where
  position : Nat
  attempt : Nat
  endpoint : α
  before : σ
  result : Except ε ρ
  after : σ

/-- An earlier endpoint of the list, or an earlier attempt on the same. -/
def Try.Before {α σ ε ρ : Type} (a b : Try α σ ε ρ) : Prop :=
  a.position < b.position ∨ (a.position = b.position ∧ a.attempt < b.attempt)

instance {α σ ε ρ : Type} : Trans (@Try.Before α σ ε ρ) (@Try.Before α σ ε ρ)
    (@Try.Before α σ ε ρ) where
  trans h₁ h₂ := by
    unfold Try.Before at h₁ h₂ ⊢
    omega

inductive FailoverEnd (ε ρ : Type) where
  | returned (value : ρ)
  | raised (error : ε)
  /-- The last endpoint has failed, and there is no other. -/
  | exhausted (error : ε)

structure FailoverRun (α σ ε ρ : Type) where
  tries : List (Try α σ ε ρ)
  ended : FailoverEnd ε ρ
  state : σ

variable {α σ ε ρ : Type}

def FailoverRun.prepend (run : FailoverRun α σ ε ρ) (tries : List (Try α σ ε ρ)) :
    FailoverRun α σ ε ρ :=
  { run with tries := tries ++ run.tries }

section

variable (operation : α → σ → Except ε ρ × σ) (retryIf failoverIf : ε → σ → Bool)
  (attempts : Nat)

/-- The attempts on one endpoint; `more` of them are left after this one. -/
def tryEndpoint (position : Nat) (endpoint : α) : Nat → Nat → σ → FailoverRun α σ ε ρ
  | more, attempt, s =>
    let (result, s') := operation endpoint s
    let tried : Try α σ ε ρ := ⟨position, attempt, endpoint, s, result, s'⟩
    match result, more with
    | .ok value, _ => ⟨[tried], .returned value, s'⟩
    | .error e, more + 1 =>
      if retryIf e s' then (tryEndpoint position endpoint more (attempt + 1) s').prepend [tried]
      else if failoverIf e s' then ⟨[tried], .exhausted e, s'⟩
      else ⟨[tried], .raised e, s'⟩
    | .error e, 0 =>
      if failoverIf e s' then ⟨[tried], .exhausted e, s'⟩ else ⟨[tried], .raised e, s'⟩

/-- The endpoints from one on. -/
def failoverFrom : Nat → α → List α → σ → FailoverRun α σ ε ρ
  | position, endpoint, [], s =>
    tryEndpoint operation retryIf failoverIf position endpoint (attempts - 1) 0 s
  | position, endpoint, next :: rest, s =>
    let first := tryEndpoint operation retryIf failoverIf position endpoint (attempts - 1) 0 s
    match first.ended with
    | .exhausted _ => (failoverFrom (position + 1) next rest first.state).prepend first.tries
    | _ => first

/-! ## The law -/

/-- The same endpoint is asked again. -/
def Retried (t : Try α σ ε ρ) (e : ε) : Prop :=
  t.attempt + 1 < attempts ∧ retryIf e t.after = true

/-- One attempt after another, by the rules. -/
def Next (a b : Try α σ ε ρ) : Prop :=
  b.before = a.after ∧ ∃ e, a.result = .error e ∧
    ((Retried retryIf attempts a e ∧ b.position = a.position ∧ b.attempt = a.attempt + 1) ∨
      (¬ Retried retryIf attempts a e ∧ failoverIf e a.after = true ∧
        b.position = a.position + 1 ∧ b.attempt = 0))

/-- How the whole ends after this last attempt. -/
def Ends (t : Try α σ ε ρ) : FailoverEnd ε ρ → Prop
  | .returned value => t.result = .ok value
  | .raised e => t.result = .error e ∧ ¬ Retried retryIf attempts t e ∧ failoverIf e t.after = false
  | .exhausted e =>
    t.result = .error e ∧ ¬ Retried retryIf attempts t e ∧ failoverIf e t.after = true

/-- Attempts by the rules, from the given one in the given state. -/
structure Chained (endpoints : List α) (position attempt : Nat) (s : σ)
    (tries : List (Try α σ ε ρ)) : Prop where
  nonempty : tries ≠ []
  head : ∀ t ∈ tries.head?, t.position = position ∧ t.attempt = attempt ∧ t.before = s
  chain : tries.IsChain (Next retryIf failoverIf attempts)
  each : ∀ t ∈ tries, endpoints[t.position]? = some t.endpoint ∧ t.attempt < attempts ∧
    operation t.endpoint t.before = (t.result, t.after)

/-- A run: the attempts, and the end that the last one brings. -/
structure Lawful (endpoints : List α) (position attempt : Nat) (s : σ)
    (run : FailoverRun α σ ε ρ) : Prop where
  chained : Chained operation retryIf failoverIf attempts endpoints position attempt s run.tries
  last : ∀ t ∈ run.tries.getLast?, t.after = run.state ∧
    Ends retryIf failoverIf attempts t run.ended

variable {operation retryIf failoverIf attempts} {endpoints : List α}

theorem Chained.single {t : Try α σ ε ρ} (hendpoint : endpoints[t.position]? = some t.endpoint)
    (hattempt : t.attempt < attempts)
    (hresult : operation t.endpoint t.before = (t.result, t.after)) :
    Chained operation retryIf failoverIf attempts endpoints t.position t.attempt t.before [t] where
  nonempty := List.cons_ne_nil _ _
  head := by
    intro t' ht'
    cases ht'
    exact ⟨rfl, rfl, rfl⟩
  chain := List.isChain_singleton _
  each := by
    intro t' ht'
    rw [List.mem_singleton.mp ht']
    exact ⟨hendpoint, hattempt, hresult⟩

theorem Chained.append {p k p' k' : Nat} {s s' : σ} {l₁ l₂ : List (Try α σ ε ρ)}
    (h₁ : Chained operation retryIf failoverIf attempts endpoints p k s l₁)
    (h₂ : Chained operation retryIf failoverIf attempts endpoints p' k' s' l₂)
    (hlink : ∀ a ∈ l₁.getLast?, ∀ b : Try α σ ε ρ, b.position = p' → b.attempt = k' →
      b.before = s' → Next retryIf failoverIf attempts a b) :
    Chained operation retryIf failoverIf attempts endpoints p k s (l₁ ++ l₂) where
  nonempty := List.append_ne_nil_of_left_ne_nil h₁.nonempty _
  head := by
    intro t ht
    rw [List.head?_append_of_ne_nil _ h₁.nonempty] at ht
    exact h₁.head t ht
  chain := by
    refine List.isChain_append.mpr ⟨h₁.chain, h₂.chain, fun a ha b hb => ?_⟩
    obtain ⟨hposition, hattempt, hbefore⟩ := h₂.head b hb
    exact hlink a ha b hposition hattempt hbefore
  each := List.forall_mem_append.mpr ⟨h₁.each, h₂.each⟩

theorem Lawful.single {t : Try α σ ε ρ} {ended : FailoverEnd ε ρ}
    (hendpoint : endpoints[t.position]? = some t.endpoint) (hattempt : t.attempt < attempts)
    (hresult : operation t.endpoint t.before = (t.result, t.after))
    (hends : Ends retryIf failoverIf attempts t ended) :
    Lawful operation retryIf failoverIf attempts endpoints t.position t.attempt t.before
      ⟨[t], ended, t.after⟩ where
  chained := Chained.single hendpoint hattempt hresult
  last := by
    intro t' ht'
    cases ht'
    exact ⟨rfl, hends⟩

theorem Lawful.prepend {p k p' k' : Nat} {s : σ} {tries : List (Try α σ ε ρ)}
    {run : FailoverRun α σ ε ρ} {s' : σ}
    (htries : Chained operation retryIf failoverIf attempts endpoints p k s tries)
    (hrun : Lawful operation retryIf failoverIf attempts endpoints p' k' s' run)
    (hlink : ∀ a ∈ tries.getLast?, ∀ b : Try α σ ε ρ, b.position = p' → b.attempt = k' →
      b.before = s' → Next retryIf failoverIf attempts a b) :
    Lawful operation retryIf failoverIf attempts endpoints p k s (run.prepend tries) where
  chained := htries.append hrun.chained hlink
  last := by
    intro t ht
    refine hrun.last t ?_
    rw [← List.getLast?_append_of_ne_nil tries hrun.chained.nonempty]
    exact ht

/-- **The attempts on one endpoint.** -/
theorem tryEndpoint_lawful {position : Nat} {endpoint : α}
    (hendpoint : endpoints[position]? = some endpoint) : ∀ (more attempt : Nat) (s : σ),
    attempt + more + 1 = attempts →
      Lawful operation retryIf failoverIf attempts endpoints position attempt s
        (tryEndpoint operation retryIf failoverIf position endpoint more attempt s) := by
  intro more
  induction more with
  | zero =>
    intro attempt s hcount
    obtain ⟨result, s', hresult⟩ : ∃ result s', operation endpoint s = (result, s') := ⟨_, _, rfl⟩
    let t : Try α σ ε ρ := ⟨position, attempt, endpoint, s, result, s'⟩
    have hattempt : t.attempt < attempts := by show attempt < attempts; omega
    have hspent : ∀ e, ¬ Retried retryIf attempts t e := by
      rintro e ⟨hmore, -⟩
      have hmore : attempt + 1 < attempts := hmore
      omega
    rw [tryEndpoint, hresult]
    cases result with
    | ok value => exact Lawful.single (t := t) hendpoint hattempt hresult rfl
    | error e =>
      simp only
      split
      · rename_i hfailover
        exact Lawful.single (t := t) hendpoint hattempt hresult ⟨rfl, hspent e, hfailover⟩
      · rename_i hfailover
        exact Lawful.single (t := t) hendpoint hattempt hresult
          ⟨rfl, hspent e, Bool.eq_false_iff.mpr hfailover⟩
  | succ more ih =>
    intro attempt s hcount
    obtain ⟨result, s', hresult⟩ : ∃ result s', operation endpoint s = (result, s') := ⟨_, _, rfl⟩
    let t : Try α σ ε ρ := ⟨position, attempt, endpoint, s, result, s'⟩
    have hattempt : t.attempt < attempts := by show attempt < attempts; omega
    rw [tryEndpoint, hresult]
    cases result with
    | ok value => exact Lawful.single (t := t) hendpoint hattempt hresult rfl
    | error e =>
      simp only
      split
      · rename_i hretry
        refine Lawful.prepend (Chained.single (t := t) hendpoint hattempt hresult)
          (ih (attempt + 1) s' (by omega)) ?_
        intro a ha b hposition hnext hbefore
        cases ha
        have hretried : Retried retryIf attempts t e :=
          ⟨by show attempt + 1 < attempts; omega, hretry⟩
        exact ⟨hbefore, e, rfl, Or.inl ⟨hretried, hposition, hnext⟩⟩
      · rename_i hretry
        have hnot : ¬ Retried retryIf attempts t e := fun hretried => hretry hretried.2
        split
        · rename_i hfailover
          exact Lawful.single (t := t) hendpoint hattempt hresult ⟨rfl, hnot, hfailover⟩
        · rename_i hfailover
          exact Lawful.single (t := t) hendpoint hattempt hresult
            ⟨rfl, hnot, Bool.eq_false_iff.mpr hfailover⟩

theorem tryEndpoint_position {position : Nat} {endpoint : α} : ∀ (more attempt : Nat) (s : σ),
    ∀ t ∈ (tryEndpoint operation retryIf failoverIf position endpoint more attempt s).tries,
      t.position = position := by
  intro more
  induction more with
  | zero =>
    intro attempt s t ht
    rcases hresult : operation endpoint s with ⟨result, s'⟩
    rw [tryEndpoint, hresult] at ht
    cases result with
    | ok value => rw [List.mem_singleton.mp ht]
    | error e =>
      simp only at ht
      split at ht <;> rw [List.mem_singleton.mp ht]
  | succ more ih =>
    intro attempt s t ht
    rcases hresult : operation endpoint s with ⟨result, s'⟩
    rw [tryEndpoint, hresult] at ht
    cases result with
    | ok value => rw [List.mem_singleton.mp ht]
    | error e =>
      simp only at ht
      split at ht
      · rcases List.mem_append.mp ht with ht | ht
        · rw [List.mem_singleton.mp ht]
        · exact ih _ _ t ht
      · split at ht <;> rw [List.mem_singleton.mp ht]

/-- **The law of failover**, from an endpoint of the list on.  A run that is exhausted has ended on
    the last endpoint. -/
theorem failoverFrom_lawful (hattempts : 0 < attempts) : ∀ (rest : List α) (endpoint : α)
    (position : Nat) (s : σ), endpoints.drop position = endpoint :: rest →
      Lawful operation retryIf failoverIf attempts endpoints position 0 s
          (failoverFrom operation retryIf failoverIf attempts position endpoint rest s) ∧
        ∀ e, (failoverFrom operation retryIf failoverIf attempts position endpoint rest s).ended =
          .exhausted e → ∀ t ∈ (failoverFrom operation retryIf failoverIf attempts position endpoint
            rest s).tries.getLast?, t.position + 1 = endpoints.length := by
  intro rest
  induction rest with
  | nil =>
    intro endpoint position s hdrop
    have hendpoint : endpoints[position]? = some endpoint := by
      rw [← List.head?_drop, hdrop, List.head?_cons]
    have hlength := congrArg List.length hdrop
    rw [List.length_drop, List.length_singleton] at hlength
    refine ⟨tryEndpoint_lawful hendpoint _ _ _ (by omega), fun e _ t ht => ?_⟩
    rw [tryEndpoint_position _ _ _ t (List.mem_of_getLast? ht)]
    omega
  | cons next rest ih =>
    intro endpoint position s hdrop
    have hendpoint : endpoints[position]? = some endpoint := by
      rw [← List.head?_drop, hdrop, List.head?_cons]
    have hnext : endpoints.drop (position + 1) = next :: rest := by
      rw [← List.drop_drop, hdrop, List.drop_one, List.tail_cons]
    let first := tryEndpoint operation retryIf failoverIf position endpoint (attempts - 1) 0 s
    have hfirst : Lawful operation retryIf failoverIf attempts endpoints position 0 s first :=
      tryEndpoint_lawful hendpoint _ _ _ (by omega)
    obtain ⟨hrest, hlast⟩ := ih next (position + 1) first.state hnext
    rw [failoverFrom]
    split
    · rename_i e hended
      refine ⟨hrest.prepend hfirst.chained ?_, fun e' he' t ht => ?_⟩
      · intro a ha b hposition hattempt hbefore
        obtain ⟨hafter, hends⟩ := hfirst.last a ha
        rw [show first.ended = .exhausted e from hended] at hends
        obtain ⟨herror, hnot, hfailover⟩ := hends
        have hpos := tryEndpoint_position _ _ _ a (List.mem_of_getLast? ha)
        exact ⟨hbefore.trans hafter.symm, e, herror,
          Or.inr ⟨hnot, hfailover, by rw [hposition, hpos], hattempt⟩⟩
      · refine hlast e' he' t ?_
        rw [← List.getLast?_append_of_ne_nil first.tries hrest.chained.nonempty]
        exact ht
    · rename_i hnot
      exact ⟨hfirst, fun e he => absurd he (hnot e)⟩

/-! ## What follows -/

theorem Chained.last_of_stuck {p k : Nat} {s : σ} {tries : List (Try α σ ε ρ)}
    (h : Chained operation retryIf failoverIf attempts endpoints p k s tries)
    {pre post : List (Try α σ ε ρ)} {t : Try α σ ε ρ} (htries : tries = pre ++ t :: post)
    (hstuck : ∀ b, ¬ Next retryIf failoverIf attempts t b) : post = [] := by
  cases post with
  | nil => rfl
  | cons b post =>
    have hchain := h.chain
    rw [htries, List.isChain_append_cons_cons] at hchain
    exact absurd hchain.2.1 (hstuck b)

/-- What holds of the start, and of the state behind every attempt that is followed, holds before
    every attempt. -/
theorem Chained.forall_before {p k : Nat} {s : σ} {tries : List (Try α σ ε ρ)} {P : σ → Prop}
    (h : Chained operation retryIf failoverIf attempts endpoints p k s tries) (hstart : P s)
    (hnext : ∀ a b : Try α σ ε ρ, Next retryIf failoverIf attempts a b → P b.before) :
    ∀ t ∈ tries, P t.before := by
  intro t ht
  obtain ⟨pre, post, rfl⟩ := List.append_of_mem ht
  cases hpre : pre.getLast? with
  | none =>
    rw [List.getLast?_eq_none_iff] at hpre
    subst hpre
    rw [(h.head t rfl).2.2]
    exact hstart
  | some a => exact hnext a t ((List.isChain_append.mp h.chain).2.2 a hpre t rfl)

/-- **In order**: the endpoints as they are listed, and the attempts on each counted up. -/
theorem Chained.inOrder {p k : Nat} {s : σ} {tries : List (Try α σ ε ρ)}
    (h : Chained operation retryIf failoverIf attempts endpoints p k s tries) :
    tries.Pairwise Try.Before := by
  refine List.IsChain.pairwise (h.chain.imp fun a b hnext => ?_)
  obtain ⟨-, e, -, ⟨-, hposition, hattempt⟩ | ⟨-, -, hposition, -⟩⟩ := hnext
  · exact Or.inr ⟨hposition.symm, by omega⟩
  · exact Or.inl (by omega)

end

end NuSelf.Lib
