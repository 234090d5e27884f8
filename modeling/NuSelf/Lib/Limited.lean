/-
  Walks that stop where they may not go deeper.

  A walk that has more room does what it does with less of it, unless it stops for want of room
  (`Continues`).  So two walks that do not stop come to the same end, however much room each has
  (`Continues.agree`).

  `scanValue_continues` — the scanner of JSON is such a walk.
-/
import NuSelf.Lib.JsonScan

namespace NuSelf.Lib

/-- The second computation does what the first one does, unless that stops. -/
def Continues {ε α : Type} (stop : ε) (r r' : Except ε α) : Prop := r = .error stop ∨ r' = r

namespace Continues

variable {ε α β : Type} {stop : ε} {r r' : Except ε α}

theorem refl (r : Except ε α) : Continues stop r r := .inr rfl

theorem stopped (r' : Except ε α) : Continues stop (.error stop) r' := .inl rfl

theorem bind {f f' : α → Except ε β} (h : Continues stop r r')
    (hf : ∀ a, r = .ok a → Continues stop (f a) (f' a)) : Continues stop (r >>= f) (r' >>= f') := by
  rcases h with h | h
  · rw [h]
    exact .inl rfl
  · rw [h]
    cases r with
    | error e => exact .inr rfl
    | ok a => exact hf a rfl

theorem map (f : α → β) (h : Continues stop r r') : Continues stop (r.map f) (r'.map f) := by
  rcases h with h | h
  · rw [h]
    exact .inl rfl
  · rw [h]
    exact .inr rfl

/-- **Two that go on** come to the same end. -/
theorem agree (h : Continues stop r r' ∨ Continues stop r' r) (hgoes : r ≠ .error stop)
    (hgoes' : r' ≠ .error stop) : r = r' := by
  rcases h with h | h
  · exact (h.resolve_left hgoes).symm
  · exact h.resolve_left hgoes'

end Continues

/-! ## The scanner -/

section

variable {ε φ : Type} {floats : FloatFormat φ} {hooks : ScanHooks ε φ}

theorem scanSeparated_continues {α : Type} {scan scan' : Scanner ε α} {close : Char}
    (hscan : ∀ text, Continues .recursion (scan text) (scan' text)) :
    ∀ (fuel : Nat) (text : List Char), Continues .recursion (scanSeparated scan close fuel text)
      (scanSeparated scan' close fuel text)
  | 0, _ => .refl _
  | fuel + 1, text => by
    refine (hscan text).bind fun read _ => ?_
    obtain ⟨v, rest⟩ := read
    dsimp only
    split
    · exact .refl _
    · split
      · exact .refl _
      · split
        · exact (scanSeparated_continues hscan fuel _).bind fun _ _ => .refl _
        · exact .refl _

variable {scan scan' : Scanner ε (JsonValue φ)}

theorem scanField_continues (hscan : ∀ text, Continues .recursion (scan text) (scan' text))
    (text : List Char) : Continues .recursion (scanField scan text) (scanField scan' text) := by
  rw [scanField.eq_def, scanField.eq_def]
  split
  · refine (Continues.refl _).bind fun read _ => ?_
    obtain ⟨key, rest⟩ := read
    dsimp only
    split
    · exact (hscan _).bind fun _ _ => .refl _
    · exact .refl _
  · exact .refl _

theorem scanArray_continues (hscan : ∀ text, Continues .recursion (scan text) (scan' text))
    (text : List Char) : Continues .recursion (scanArray scan text) (scanArray scan' text) := by
  rw [scanArray, scanArray]
  split
  · exact .refl _
  · exact (scanSeparated_continues hscan _ _).bind fun _ _ => .refl _

theorem scanObject_continues (hscan : ∀ text, Continues .recursion (scan text) (scan' text))
    (text : List Char) :
    Continues .recursion (scanObject hooks scan text) (scanObject hooks scan' text) := by
  rw [scanObject, scanObject]
  split
  · exact .refl _
  · exact (scanSeparated_continues (scanField_continues hscan) _ _).bind fun _ _ => .refl _

/-- **More levels**: the scanner goes on where it stopped, and changes nothing else. -/
theorem scanValue_continues {limit : Nat} : ∀ {limit' : Nat}, limit ≤ limit' → ∀ text : List Char,
    Continues .recursion (scanValue floats hooks limit text)
      (scanValue floats hooks limit' text) := by
  induction limit using Nat.strongRecOn with
  | ind limit ih =>
    intro limit' hle text
    fun_cases scanValue floats hooks limit text with
    | case1 =>
      rw [scanValue]
      exact .refl _
    | case2 => exact .stopped _
    | case3 => exact .stopped _
    | case4 limit text =>
      obtain ⟨more, rfl⟩ : ∃ more, limit' = more + 1 := ⟨limit' - 1, by omega⟩
      exact scanArray_continues (ih limit (Nat.lt_succ_self _) (Nat.le_of_succ_le_succ hle)) text
    | case5 limit text =>
      obtain ⟨more, rfl⟩ : ∃ more, limit' = more + 1 := ⟨limit' - 1, by omega⟩
      exact scanObject_continues (ih limit (Nat.lt_succ_self _) (Nat.le_of_succ_le_succ hle)) text
    | case6 _ _ hquote hflat hflat' harray hobject =>
      rw [scanValue_atom]
      · exact .refl _
      · intro c hc
        cases text with
        | nil => cases hc
        | cons d rest =>
          obtain rfl : d = c := Option.some.inj hc
          refine ⟨?_, ?_, ?_⟩
          · rintro rfl
            exact hquote rest rfl
          · rintro rfl
            cases limit with
            | zero => exact hflat rest rfl rfl
            | succ limit => exact harray limit rest rfl rfl
          · rintro rfl
            cases limit with
            | zero => exact hflat' rest rfl rfl
            | succ limit => exact hobject limit rest rfl rfl

theorem loads_continues {limit limit' : Nat} (hle : limit ≤ limit') (text : List Char) :
    Continues .recursion (loads floats hooks limit text) (loads floats hooks limit' text) :=
  (scanValue_continues hle _).bind fun _ _ => .refl _

theorem loads_agree {limit limit' : Nat} {text : List Char}
    (hgoes : loads floats hooks limit text ≠ .error .recursion)
    (hgoes' : loads floats hooks limit' text ≠ .error .recursion) :
    loads floats hooks limit text = loads floats hooks limit' text :=
  Continues.agree ((Nat.le_total limit limit').imp (loads_continues · text) (loads_continues · text))
    hgoes hgoes'

end

end NuSelf.Lib
