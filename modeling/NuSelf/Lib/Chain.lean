/-
  Chains of links that may come back to where they have been.

  `next` gives the place behind a place, if there is one.  A chain that is followed to its end has a
  path (`EndsAlong`).

  1. `EndsAlong.not_returns` — nothing on such a path comes back to itself.
  2. `exists_endsAlong` — among finitely many places, nothing that comes back is all that a path needs.
  3. `firsts_spec` — the different values along a path, each in the place of its first.
-/
import Mathlib.Data.Fintype.Card
import Mathlib.Logic.Relation
import Mathlib.Order.WellFounded
import Mathlib.Data.Finite.Defs
import Mathlib.Order.RelClasses

namespace NuSelf.Lib

section

variable {α : Type} (next : α → Option α)

/-- One link. -/
def Linked (a b : α) : Prop := next a = some b

/-- The places from one on, up to the last. -/
inductive EndsAlong : Option α → List α → Prop where
  | done : EndsAlong none []
  | step {a : α} {path : List α} : EndsAlong (next a) path → EndsAlong (some a) (a :: path)

/-- The chain from `a` comes back to a place that it has left. -/
def Returns (a : α) : Prop :=
  ∃ b, Relation.ReflTransGen (Linked next) a b ∧ Relation.TransGen (Linked next) b b

variable {next}

theorem EndsAlong.unique {a : Option α} {path path' : List α} (h : EndsAlong next a path)
    (h' : EndsAlong next a path') : path = path' := by
  induction h generalizing path' with
  | done =>
    cases h'
    rfl
  | step hrest ih =>
    cases h' with
    | step hrest' => rw [ih hrest']

theorem EndsAlong.linked {a b : α} {path : List α} (h : EndsAlong next (some a) path)
    (hlink : Linked next a b) : ∃ rest, path = a :: rest ∧ EndsAlong next (some b) rest := by
  cases h with
  | step hrest =>
    have hlink : next a = some b := hlink
    rw [hlink] at hrest
    exact ⟨_, rfl, hrest⟩

theorem EndsAlong.trans {a b : α} {path : List α} (h : EndsAlong next (some a) path)
    (hlinks : Relation.TransGen (Linked next) a b) :
    ∃ rest, rest.length < path.length ∧ EndsAlong next (some b) rest := by
  induction hlinks with
  | single hlink =>
    obtain ⟨rest, rfl, hrest⟩ := h.linked hlink
    exact ⟨rest, Nat.lt_succ_self _, hrest⟩
  | tail _ hlink ih =>
    obtain ⟨middle, hshort, hmiddle⟩ := ih
    obtain ⟨rest, rfl, hrest⟩ := hmiddle.linked hlink
    exact ⟨rest, Nat.lt_of_succ_lt hshort, hrest⟩

/-- **A path** comes back to nothing. -/
theorem EndsAlong.not_returns {a : α} {path : List α} (h : EndsAlong next (some a) path) :
    ¬ Returns next a := by
  rintro ⟨b, hreach, hback⟩
  have hb : ∃ rest, EndsAlong next (some b) rest := by
    rcases Relation.reflTransGen_iff_eq_or_transGen.mp hreach with rfl | hlinks
    · exact ⟨path, h⟩
    · obtain ⟨rest, -, hrest⟩ := h.trans hlinks
      exact ⟨rest, hrest⟩
  obtain ⟨rest, hrest⟩ := hb
  obtain ⟨rest', hshort, hrest'⟩ := hrest.trans hback
  rw [hrest.unique hrest'] at hshort
  exact Nat.lt_irrefl _ hshort

/-- **Among finitely many places** a chain that does not come back has an end. -/
theorem exists_endsAlong [Finite α] {a : α} (h : ¬ Returns next a) :
    ∃ path, EndsAlong next (some a) path := by
  -- the places behind, as seen from `a`, are a strict order
  let behind : α → α → Prop := fun c b =>
    Relation.ReflTransGen (Linked next) a b ∧ Relation.TransGen (Linked next) b c
  have htrans : IsTrans α behind :=
    ⟨fun d c b hdc hcb => ⟨hcb.1, hcb.2.trans hdc.2⟩⟩
  have hirrefl : Std.Irrefl behind := ⟨fun b hb => h ⟨b, hb⟩⟩
  have hwf : WellFounded behind := Finite.wellFounded_of_trans_of_irrefl behind
  have hall : ∀ b, Relation.ReflTransGen (Linked next) a b →
      ∃ path, EndsAlong next (some b) path := by
    intro b
    induction b using hwf.induction with
    | h b ih =>
      intro hreach
      cases hnext : next b with
      | none =>
        have hend : EndsAlong next (next b) [] := by
          rw [hnext]
          exact .done
        exact ⟨[b], .step hend⟩
      | some c =>
        have hlink : Linked next b c := hnext
        obtain ⟨path, hpath⟩ := ih c ⟨hreach, .single hlink⟩ (hreach.tail hlink)
        rw [← hnext] at hpath
        exact ⟨b :: path, .step hpath⟩
  exact hall a .refl

end

/-! ## Different values -/

section

variable {α β : Type} [DecidableEq β]

/-- A value behind the others, unless it is there. -/
def addNew (values : List β) (v : β) : List β := if v ∈ values then values else values ++ [v]

/-- The different values, each in the place of its first. -/
def firsts (values : List β) : List β := values.foldl addNew []

theorem mem_addNew {values : List β} {v w : β} : w ∈ addNew values v ↔ w ∈ values ∨ w = v := by
  rw [addNew]
  split
  · rename_i hmem
    constructor
    · exact Or.inl
    · rintro (hw | rfl)
      · exact hw
      · exact hmem
  · rw [List.mem_append, List.mem_singleton]

theorem nodup_addNew {values : List β} (h : values.Nodup) (v : β) : (addNew values v).Nodup := by
  rw [addNew]
  split
  · exact h
  · rename_i hmem
    rw [List.nodup_append']
    refine ⟨h, List.nodup_singleton v, fun w hw hw' => hmem ?_⟩
    rw [← List.mem_singleton.mp hw']
    exact hw

theorem firsts_concat (values : List β) (v : β) :
    firsts (values ++ [v]) = addNew (firsts values) v := by
  rw [firsts, List.foldl_append]
  rfl

theorem mem_firsts {values : List β} {v : β} : v ∈ firsts values ↔ v ∈ values := by
  induction values using List.reverseRecOn with
  | nil => exact iff_of_false List.not_mem_nil List.not_mem_nil
  | append_singleton values w ih =>
    rw [firsts_concat, mem_addNew, ih, List.mem_append, List.mem_singleton]

theorem nodup_firsts (values : List β) : (firsts values).Nodup := by
  induction values using List.reverseRecOn with
  | nil => exact List.nodup_nil
  | append_singleton values w ih =>
    rw [firsts_concat]
    exact nodup_addNew ih w

theorem firsts_prefix (values more : List β) : firsts values <+: firsts (values ++ more) := by
  induction more using List.reverseRecOn with
  | nil => rw [List.append_nil]
  | append_singleton more w ih =>
    rw [← List.append_assoc, firsts_concat, addNew]
    split
    · exact ih
    · exact ih.trans (List.prefix_append _ _)

/-- **The place of a value**: behind the values that come before its first, and no others. -/
theorem firsts_spec {before behind : List β} {v : β} (h : v ∉ before) :
    ∃ rest, firsts (before ++ v :: behind) = firsts before ++ v :: rest := by
  have hfirst : firsts (before ++ [v]) = firsts before ++ [v] := by
    rw [firsts_concat, addNew, if_neg fun hmem => h (mem_firsts.mp hmem)]
  obtain ⟨rest, hrest⟩ := firsts_prefix (before ++ [v]) behind
  refine ⟨rest, ?_⟩
  rw [hfirst, List.append_assoc, List.append_assoc] at hrest
  exact hrest.symm

end

end NuSelf.Lib
