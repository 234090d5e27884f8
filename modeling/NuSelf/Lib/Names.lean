/-
  Numbers as texts, some of them under names of their own.

  A codec that is known on a few numbers only is extended to all of them: the known ones have their
  names, the others are written as rows of signs.  As every name has the digit nought in it, none is
  taken for such a row (`readNamed_namedText`).
-/
import Mathlib.Data.List.Nodup

namespace NuSelf.Lib

/-- A number as a row of signs. -/
def tally (t : Int) : String :=
  String.ofList (List.replicate t.toNat '+' ++ List.replicate (-t).toNat '-')

def readTally (s : String) : Int := s.toList.count '+' - s.toList.count '-'

theorem readTally_tally (t : Int) : readTally (tally t) = t := by
  have hcounts : ((tally t).toList.count '+' : Int) = t.toNat ∧
      ((tally t).toList.count '-' : Int) = (-t).toNat := by
    simp [tally, List.count_replicate]
  rw [readTally, hcounts.1, hcounts.2]
  omega

/-- Some times under their names, the others as tallies. -/
def namedText (names : List (Int × String)) (t : Int) : String := (names.lookup t).getD (tally t)

def readNamed (names : List (Int × String)) (s : String) : Option Int :=
  match names.find? fun row => decide (row.2 = s) with
  | some row => some row.1
  | none => some (readTally s)

theorem readNamed_namedText {names : List (Int × String)}
    (hdigit : ∀ row ∈ names, '0' ∈ row.2.toList) (hnodup : (names.map Prod.snd).Nodup) (t : Int) :
    readNamed names (namedText names t) = some t := by
  cases hlookup : names.lookup t with
  | none =>
    have hfind : names.find? (fun row => decide (row.2 = tally t)) = none := by
      rw [List.find?_eq_none]
      intro row hrow heq
      have hmem := hdigit row hrow
      rw [of_decide_eq_true heq] at hmem
      simp [tally] at hmem
    rw [readNamed, namedText, hlookup, Option.getD_none, hfind, readTally_tally]
  | some s =>
    have hmem : (t, s) ∈ names := by
      obtain ⟨l₁, l₂, rfl, -⟩ := List.lookup_eq_some_iff.mp hlookup
      exact List.mem_append_right _ List.mem_cons_self
    obtain ⟨row, hfind⟩ : ∃ row, names.find? (fun row => decide (row.2 = s)) = some row := by
      rw [← Option.isSome_iff_exists, List.find?_isSome]
      exact ⟨_, hmem, decide_eq_true rfl⟩
    have hname := List.find?_some hfind
    rw [decide_eq_true_eq] at hname
    have hrow : row = (t, s) :=
      List.inj_on_of_nodup_map hnodup (List.mem_of_find?_eq_some hfind) hmem hname
    rw [readNamed, namedText, hlookup, Option.getD_some, hfind, hrow]

end NuSelf.Lib
