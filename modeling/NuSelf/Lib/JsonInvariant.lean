/-
  What holds of every value that `json.loads` reads.

  A property that holds of the words, numbers and texts, and that arrays and objects take over from
  their items and fields, holds of whatever is read (`loads_invariant`).  The same walk compares two
  sets of hooks: where the second accepts what the first accepts, so does the whole scanner.
-/
import NuSelf.Lib.JsonScan
import Mathlib.Data.List.Forall2

namespace NuSelf.Lib

section

variable {ε α : Type} {scan scan' : Scanner ε α} {close : Char} {P : α → Prop}

/-- The second scanner reads what the first reads, and the property holds of it. -/
def Refines (scan scan' : Scanner ε α) (P : α → Prop) : Prop :=
  ∀ text v rest, scan text = .ok (v, rest) → scan' text = .ok (v, rest) ∧ P v

theorem Refines.separated (h : Refines scan scan' P) : ∀ fuel : Nat,
    Refines (scanSeparated scan close fuel) (scanSeparated scan' close fuel)
      fun items => ∀ v ∈ items, P v := by
  intro fuel
  induction fuel with
  | zero => exact nofun
  | succ fuel ih =>
    intro text items rest hscan
    rw [scanSeparated] at hscan ⊢
    cases hfirst : scan text with
    | error e => rw [hfirst] at hscan; cases hscan
    | ok read =>
      obtain ⟨v, next⟩ := read
      obtain ⟨hfirst', hv⟩ := h text v next hfirst
      rw [hfirst] at hscan
      rw [hfirst']
      simp only [Bind.bind, Except.bind] at hscan ⊢
      cases hbehind : skipSpace next with
      | nil => rw [hbehind] at hscan; cases hscan
      | cons c behind =>
        rw [hbehind] at hscan
        simp only at hscan ⊢
        by_cases hclose : c = close
        · rw [if_pos hclose] at hscan ⊢
          cases hscan
          exact ⟨rfl, List.forall_mem_singleton.mpr hv⟩
        · rw [if_neg hclose] at hscan ⊢
          by_cases hcomma : c = ','
          · rw [if_pos hcomma] at hscan ⊢
            cases hmore : scanSeparated scan close fuel (skipSpace behind) with
            | error e => rw [hmore] at hscan; cases hscan
            | ok read =>
              obtain ⟨more, last⟩ := read
              obtain ⟨hmore', hitems⟩ := ih _ more last hmore
              rw [hmore] at hscan
              rw [hmore']
              cases hscan
              exact ⟨rfl, List.forall_mem_cons.mpr ⟨hv, hitems⟩⟩
          · rw [if_neg hcomma] at hscan
            cases hscan

end

section

variable {ε φ : Type} {floats : FloatFormat φ} {hooks hooks' : ScanHooks ε φ}
  {P : JsonValue φ → Prop}

theorem Refines.field {scan scan' : Scanner ε (JsonValue φ)} (h : Refines scan scan' P) :
    Refines (scanField scan) (scanField scan') fun field => Joined field.1 ∧ P field.2 := by
  intro text field rest hscan
  rw [scanField.eq_def] at hscan
  split at hscan
  · rename_i text
    rw [scanField]
    cases hkey : @scanString ε text with
    | error e => rw [hkey] at hscan; cases hscan
    | ok read =>
      obtain ⟨key, next⟩ := read
      have hjoined := (scanString_spec text key next hkey).1
      rw [hkey] at hscan
      simp only [Bind.bind, Except.bind] at hscan ⊢
      split at hscan
      · rename_i behind hcolon
        cases hvalue : scan (skipSpace behind) with
        | error e => rw [hvalue] at hscan; cases hscan
        | ok read =>
          obtain ⟨v, last⟩ := read
          obtain ⟨hvalue', hv⟩ := h _ v last hvalue
          rw [hvalue] at hscan
          rw [hvalue']
          cases hscan
          exact ⟨rfl, hjoined, hv⟩
      · cases hscan
  · cases hscan

theorem scanNumber_whole {text rest : List Char} {lit : NumberLiteral}
    (h : scanNumber text = some (lit, rest)) : ∀ c ∈ lit.whole, c.isDigit = true := by
  have hwhole : ∀ {text whole rest : List Char}, scanWhole text = some (whole, rest) →
      ∀ c ∈ whole, c.isDigit = true := by
    intro text whole rest hscan
    rw [scanWhole.eq_def] at hscan
    split at hscan
    · cases hscan
      exact List.forall_mem_singleton.mpr rfl
    · split at hscan
      · cases hscan
      · rename_i hspan
        have hdigits : whole = text.takeWhile Char.isDigit :=
          congrArg Prod.fst (Option.some.inj hscan).symm
        rw [hdigits]
        exact fun c hc => List.mem_takeWhile_imp hc
  rw [scanNumber] at h
  simp only at h
  split at h
  · cases h
  · rename_i whole behind hscan
    cases h
    exact hwhole hscan

/-- What the walk over a value needs. -/
structure ScanInvariant (floats : FloatFormat φ) (hooks hooks' : ScanHooks ε φ)
    (P : JsonValue φ → Prop) : Prop where
  null : P .null
  bool : ∀ b, P (.bool b)
  float : ∀ lit : NumberLiteral, P (.float (floats.parse lit))
  int : ∀ lit : NumberLiteral, (∀ c ∈ lit.whole, c.isDigit = true) →
    lit.whole.length ≤ maxIntDigits → P (.int lit.toInt)
  str : ∀ s, Joined s → P (.str s)
  arr : ∀ items, (∀ v ∈ items, P v) → P (.arr items)
  constant : ∀ name v, hooks.constant name = .ok v → hooks'.constant name = .ok v ∧ P v
  pairs : ∀ fields v, (∀ field ∈ fields, Joined field.1 ∧ P field.2) →
    hooks.pairs fields = .ok v → hooks'.pairs fields = .ok v ∧ P v

namespace ScanInvariant

variable (h : ScanInvariant floats hooks hooks' P)

theorem map_ok {read : Except (ScanError ε) (JsonValue φ)} {v : JsonValue φ}
    {behind rest : List Char} (h : read.map (·, behind) = .ok (v, rest)) :
    read = .ok v ∧ behind = rest := by
  cases read with
  | error e => cases h
  | ok w =>
    cases h
    exact ⟨rfl, rfl⟩

include h

theorem constant_ok {name : String} {v : JsonValue φ}
    (hv : constantValue hooks name = .ok v) : constantValue hooks' name = .ok v ∧ P v := by
  rw [constantValue] at hv ⊢
  cases hconstant : hooks.constant name with
  | error e => rw [hconstant] at hv; cases hv
  | ok w =>
    obtain ⟨hconstant', hw⟩ := h.constant name w hconstant
    rw [hconstant] at hv
    rw [hconstant']
    cases hv
    exact ⟨rfl, hw⟩

theorem object_ok {fields : List (PyText × JsonValue φ)} {v : JsonValue φ}
    (hfields : ∀ field ∈ fields, Joined field.1 ∧ P field.2)
    (hv : objectValue hooks fields = .ok v) : objectValue hooks' fields = .ok v ∧ P v := by
  rw [objectValue] at hv ⊢
  cases hpairs : hooks.pairs fields with
  | error e => rw [hpairs] at hv; cases hv
  | ok w =>
    obtain ⟨hpairs', hw⟩ := h.pairs fields w hfields hpairs
    rw [hpairs] at hv
    rw [hpairs']
    cases hv
    exact ⟨rfl, hw⟩

omit h in
theorem cutWords {entries entries' : List (String × Except (ScanError ε) (JsonValue φ))}
    (hentries : List.Forall₂ (fun entry entry' => entry.1 = entry'.1 ∧
      ∀ v, entry.2 = .ok v → entry'.2 = .ok v ∧ P v) entries entries') (text : List Char) :
    let cut := fun (entries : List (String × Except (ScanError ε) (JsonValue φ))) =>
      entries.findSome? fun (word, v) => (cutWord word text).map (v, ·)
    (cut entries = none → cut entries' = none) ∧ ∀ v rest, cut entries = some (.ok v, rest) →
      cut entries' = some (.ok v, rest) ∧ P v := by
  intro cut
  induction hentries with
  | nil => exact ⟨id, nofun⟩
  | @cons entry entry' entries entries' hentry _ ih =>
    obtain ⟨word, read⟩ := entry
    obtain ⟨word', read'⟩ := entry'
    obtain ⟨rfl, hread⟩ := hentry
    simp only [cut, List.findSome?_cons] at ih ⊢
    cases cutWord word text with
    | none => exact ih
    | some behind =>
      refine ⟨nofun, fun v rest hcut => ?_⟩
      obtain ⟨hv, rfl⟩ := Prod.mk.inj (Option.some.inj hcut)
      obtain ⟨hv', hp⟩ := hread v hv
      exact ⟨congrArg (fun read => some (read, behind)) hv', hp⟩

theorem words : List.Forall₂ (fun entry entry' => entry.1 = entry'.1 ∧
    ∀ v, entry.2 = .ok v → entry'.2 = .ok v ∧ P v) (scanWords hooks) (scanWords hooks') := by
  have hword : ∀ (name : String) {v : JsonValue φ}, P v →
      name = name ∧ ∀ w, (.ok v : Except (ScanError ε) (JsonValue φ)) = .ok w →
        (.ok v : Except (ScanError ε) (JsonValue φ)) = .ok w ∧ P w := by
    intro name v hv
    refine ⟨rfl, fun w hw => ⟨hw, ?_⟩⟩
    cases hw
    exact hv
  have hconstant : ∀ name : String, name = name ∧
      ∀ w, constantValue hooks name = .ok w → constantValue hooks' name = .ok w ∧ P w :=
    fun name => ⟨rfl, fun w hw => h.constant_ok hw⟩
  exact .cons (hword _ h.null) (.cons (hword _ (h.bool true)) (.cons (hword _ (h.bool false))
    (.cons (hconstant _) (.cons (hconstant _) (.cons (hconstant _) .nil)))))

theorem number {lit : NumberLiteral} (hlit : ∀ c ∈ lit.whole, c.isDigit = true) {v : JsonValue φ}
    (hv : (numberValue floats lit : Except (ScanError ε) (JsonValue φ)) = .ok v) : P v := by
  rw [numberValue] at hv
  split at hv
  · cases hv
    exact h.float lit
  · split at hv
    · rename_i hshort
      cases hv
      exact h.int lit hlit hshort
    · cases hv

theorem atom : Refines (scanAtom floats hooks) (scanAtom floats hooks') P := by
  intro text v rest hscan
  obtain ⟨hnone, hsome⟩ := cutWords h.words text
  rw [scanAtom] at hscan ⊢
  split at hscan
  · rename_i read behind hcut
    obtain ⟨rfl, rfl⟩ := map_ok hscan
    obtain ⟨hcut', hv⟩ := hsome v behind hcut
    simp only [hcut']
    exact ⟨rfl, hv⟩
  · rename_i hcut
    simp only [hnone hcut]
    split at hscan
    · rename_i lit behind hnumber
      obtain ⟨hread, rfl⟩ := map_ok hscan
      simp only [hread]
      exact ⟨rfl, h.number (scanNumber_whole hnumber) hread⟩
    · cases hscan

theorem array {scan scan' : Scanner ε (JsonValue φ)} (hscan : Refines scan scan' P) :
    Refines (scanArray scan) (scanArray scan') P := by
  intro text v rest hread
  rw [scanArray] at hread ⊢
  split at hread
  · cases hread
    exact ⟨rfl, h.arr [] fun _ hmem => absurd hmem List.not_mem_nil⟩
  · cases hitems : scanSeparated scan ']' (skipSpace text).length (skipSpace text) with
    | error e => rw [hitems] at hread; cases hread
    | ok read =>
      obtain ⟨items, last⟩ := read
      obtain ⟨hitems', hp⟩ := hscan.separated _ _ items last hitems
      rw [hitems] at hread
      cases hread
      rw [hitems']
      exact ⟨rfl, h.arr items hp⟩

theorem object {scan scan' : Scanner ε (JsonValue φ)} (hscan : Refines scan scan' P) :
    Refines (scanObject hooks scan) (scanObject hooks' scan') P := by
  intro text v rest hread
  rw [scanObject] at hread ⊢
  split at hread
  · obtain ⟨hv, rfl⟩ := map_ok hread
    obtain ⟨hv', hp⟩ := h.object_ok (fun _ hmem => absurd hmem List.not_mem_nil) hv
    rw [hv']
    exact ⟨rfl, hp⟩
  · cases hfields : scanSeparated (scanField scan) '}' (skipSpace text).length (skipSpace text) with
    | error e => rw [hfields] at hread; cases hread
    | ok read =>
      obtain ⟨fields, last⟩ := read
      obtain ⟨hfields', hp⟩ := hscan.field.separated _ _ fields last hfields
      rw [hfields] at hread
      obtain ⟨hv, rfl⟩ := map_ok hread
      obtain ⟨hv', hpv⟩ := h.object_ok hp hv
      rw [hfields']
      exact ⟨congrArg (Except.map (·, last)) hv', hpv⟩

/-- **Every value** that is read. -/
theorem value (limit : Nat) :
    Refines (scanValue floats hooks limit) (scanValue floats hooks' limit) P := by
  induction limit using Nat.strongRecOn with
  | ind limit ih =>
    intro text v rest
    fun_cases scanValue floats hooks limit text with
    | case1 =>
      rename_i text
      intro hread
      cases hstring : @scanString ε text with
      | error e => rw [hstring] at hread; cases hread
      | ok read =>
        obtain ⟨s, behind⟩ := read
        rw [hstring] at hread
        cases hread
        rw [scanValue, hstring]
        exact ⟨rfl, h.str s (scanString_spec text s _ hstring).1⟩
    | case2 => exact nofun
    | case3 => exact nofun
    | case4 limit text => exact h.array (ih limit (Nat.lt_succ_self _)) text v rest
    | case5 limit text => exact h.object (ih limit (Nat.lt_succ_self _)) text v rest
    | case6 hquote hzero hzero' harray hobject =>
      intro hread
      rw [scanValue.eq_def]
      split
      all_goals simp_all
      exact h.atom _ v rest hread

/-- **Every text** that is read. -/
theorem loads {limit : Nat} {text : List Char} {v : JsonValue φ}
    (hread : loads floats hooks limit text = .ok v) :
    loads floats hooks' limit text = .ok v ∧ P v := by
  rw [Lib.loads] at hread ⊢
  cases hscan : scanValue floats hooks limit (skipSpace text) with
  | error e => rw [hscan] at hread; cases hread
  | ok read =>
    obtain ⟨w, rest⟩ := read
    obtain ⟨hscan', hw⟩ := h.value limit _ w rest hscan
    rw [hscan] at hread
    rw [hscan']
    simp only [Bind.bind, Except.bind] at hread ⊢
    split at hread
    · rename_i hblank
      cases hread
      rw [if_pos hblank]
      exact ⟨rfl, hw⟩
    · cases hread

end ScanInvariant

end

end NuSelf.Lib
