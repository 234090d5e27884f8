/-
  Writing a row of data piece by piece.

  A call of `write` takes some of the data it is given, from the front, and says how much; or it
  raises, perhaps after it has taken some.  The loop offers what is left until nothing is, and gives
  up on a call that takes nothing.

  1. `writeAll_prefix` — whatever the calls do, what is written is the data up to some point.
  2. `writeAll_complete` — where the loop comes to its end, that is all of the data.
  3. `writeAll_progress` — it does where every call takes something.
-/
import Mathlib.Data.List.Basic

namespace NuSelf.Lib

/-- What a call makes of the data that is offered. -/
inductive WriteCall (ε : Type) where
  /-- It takes so much, or all there is. -/
  | took (count : Nat)
  /-- It has taken so much when it raises. -/
  | raised (count : Nat) (error : ε)

/-- How the loop ends. -/
inductive WriteEnd (ε : Type) where
  | complete
  /-- A call has taken nothing. -/
  | stuck
  | raised (error : ε)

variable {ε β : Type}

/-- What is written, and how the loop ends.  Behind the last of the calls everything is taken. -/
def writeAll : List (WriteCall ε) → List β → List β × WriteEnd ε
  | _, [] => ([], .complete)
  | [], data => (data, .complete)
  | .took 0 :: _, _ => ([], .stuck)
  | .took (count + 1) :: calls, data =>
    let (written, ended) := writeAll calls (data.drop (count + 1))
    (data.take (count + 1) ++ written, ended)
  | .raised count error :: _, data => (data.take count, .raised error)

/-- **What is written** is the data up to some point. -/
theorem writeAll_prefix (calls : List (WriteCall ε)) (data : List β) :
    (writeAll calls data).1 <+: data := by
  fun_induction writeAll calls data with
  | case1 => exact List.nil_prefix
  | case2 => exact List.prefix_rfl
  | case3 => exact List.nil_prefix
  | case4 count calls data hne written ended hrest ih =>
    rw [hrest] at ih
    show data.take (count + 1) ++ written <+: data
    obtain ⟨behind, heq⟩ := ih
    refine ⟨behind, ?_⟩
    rw [List.append_assoc]
    have heq : written ++ behind = data.drop (count + 1) := heq
    rw [heq, List.take_append_drop]
  | case5 => exact List.take_prefix _ _

/-- **At the end of the loop** that is all of it. -/
theorem writeAll_complete (calls : List (WriteCall ε)) (data : List β) :
    (writeAll calls data).2 = .complete → (writeAll calls data).1 = data := by
  fun_induction writeAll calls data with
  | case1 => exact fun _ => rfl
  | case2 => exact fun _ => rfl
  | case3 => exact nofun
  | case4 count calls data hne written ended hrest ih =>
    rw [hrest] at ih
    intro hended
    have hwritten : written = data.drop (count + 1) := ih hended
    show data.take (count + 1) ++ written = data
    rw [hwritten, List.take_append_drop]
  | case5 => exact nofun

/-- A call that takes something, and returns. -/
def WriteCall.progresses : WriteCall ε → Bool
  | .took count => decide (0 < count)
  | .raised _ _ => false

/-- **Every pattern of partial writes** comes to the end. -/
theorem writeAll_progress (calls : List (WriteCall ε)) (data : List β) :
    (∀ call ∈ calls, call.progresses = true) → (writeAll calls data).2 = .complete := by
  fun_induction writeAll calls data with
  | case1 => exact fun _ => rfl
  | case2 => exact fun _ => rfl
  | case3 => exact fun hcalls => nomatch hcalls _ List.mem_cons_self
  | case4 count calls data hne written ended hrest ih =>
    rw [hrest] at ih
    intro hcalls
    exact ih fun call hcall => hcalls call (List.mem_cons_of_mem _ hcall)
  | case5 => exact fun hcalls => nomatch hcalls _ List.mem_cons_self

end NuSelf.Lib
