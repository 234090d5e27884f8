/-
  One append on an open data file, call by call.

  A line is written at the end, piece by piece, and synchronized; if that fails, the file is cut
  back to where the line began, and synchronized.  Then the file is closed.  Every call may raise,
  and a call that raises may have had its effect all the same.  `appendLine` is the content that is
  left, and what the caller is told.

  1. `attempt_cases` — the three ways in which the part before the close can end.
  2. `append_outcome_truthful` — what the caller is told is true of the file.
  3. `append_fate` — so it is one of the outcomes that the history of a log is made of.
-/
import NuSelf.Lib.PartialWrites
import NuSelf.Log.Rotation

namespace NuSelf.Log

open NuSelf.Lib

inductive LogPersistenceOutcome where
  | not_persisted
  | persisted
  | uncertain
  deriving DecidableEq

/-- How `truncate` ends; where it raises, the file is cut or not. -/
inductive TruncateCall (ε : Type) where
  | done
  | raised (cut : Bool) (error : ε)

/-- How the calls on the file end, one after the other. -/
structure AppendCalls (ε : Type) where
  seek : Except ε Unit
  writes : List (WriteCall ε)
  /-- What is raised where a write takes nothing. -/
  no_progress : ε
  fsync : Except ε Unit
  truncate : TruncateCall ε
  rollback_fsync : Except ε Unit
  close : Except ε Unit

/-- What the caller sees. -/
inductive AppendReport (ε : Type) where
  | returned
  /-- The primary error, as it was raised. -/
  | raised (error : ε)
  /-- `LogAppendLifecycleError`. -/
  | lifecycle (primary_error rollback_error close_error : Option ε)
      (persistence_outcome : LogPersistenceOutcome)

/-- What the caller is told of the line.  An append that returns has persisted it, and an error that
    is no lifecycle error has been rolled back. -/
def AppendReport.outcome {ε : Type} : AppendReport ε → LogPersistenceOutcome
  | .returned => .persisted
  | .raised _ => .not_persisted
  | .lifecycle _ _ _ persistence_outcome => persistence_outcome

/-- The variables of `_append_encoded_log_line` before the close, and the content of the file. -/
structure AppendAttempt (ε : Type) where
  content : Bytes
  primary_error : Option ε := none
  rollback_error : Option ε := none
  persistence_outcome : LogPersistenceOutcome

section

variable {ε : Type}

def errorOf : Except ε Unit → Option ε
  | .ok _ => none
  | .error e => some e

/-- `_rollback_failed_log_append`; its warning raises nothing. -/
def rollbackFailedLogAppend (calls : AppendCalls ε) (record_boundary : Nat) (content : Bytes) :
    Bytes × Option ε :=
  match calls.truncate with
  | .raised cut error => (if cut then content.take record_boundary else content, some error)
  | .done => (content.take record_boundary, errorOf calls.rollback_fsync)

/-- The handler of an error behind the seek. -/
def rolledBack (calls : AppendCalls ε) (record_boundary : Nat) (content : Bytes) (error : ε) :
    AppendAttempt ε :=
  let (content, rollback_error) := rollbackFailedLogAppend calls record_boundary content
  { content, primary_error := some error, rollback_error
    persistence_outcome := if rollback_error.isSome then .uncertain else .not_persisted }

/-- `_append_encoded_log_line` up to the close. -/
def attempt (calls : AppendCalls ε) (encoded_line content : Bytes) : AppendAttempt ε :=
  match calls.seek with
  | .error error =>
    { content, primary_error := some error, persistence_outcome := .not_persisted }
  | .ok _ =>
    let record_boundary := content.length
    match writeAll calls.writes encoded_line with
    | (written, .stuck) => rolledBack calls record_boundary (content ++ written) calls.no_progress
    | (written, .raised error) => rolledBack calls record_boundary (content ++ written) error
    | (written, .complete) =>
      match calls.fsync with
      | .error error => rolledBack calls record_boundary (content ++ written) error
      | .ok _ => { content := content ++ written, persistence_outcome := .persisted }

/-- `_append_encoded_log_line`: the content of the file afterwards, and what the caller sees. -/
def appendLine (calls : AppendCalls ε) (encoded_line content : Bytes) : Bytes × AppendReport ε :=
  let a := attempt calls encoded_line content
  let close_error := errorOf calls.close
  if a.rollback_error.isSome || close_error.isSome then
    (a.content, .lifecycle a.primary_error a.rollback_error close_error a.persistence_outcome)
  else
    match a.primary_error with
    | some error => (a.content, .raised error)
    | none => (a.content, .returned)

/-! ## The three ends -/

/-- Before the close: nothing was changed, the line is there, or a part of it may be. -/
inductive AttemptEnd (encoded_line content : Bytes) (a : AppendAttempt ε) : Prop where
  | unchanged (hcontent : a.content = content) (hprimary : a.primary_error.isSome = true)
      (hrollback : a.rollback_error = none) (houtcome : a.persistence_outcome = .not_persisted)
  | written (hcontent : a.content = content ++ encoded_line) (hprimary : a.primary_error = none)
      (hrollback : a.rollback_error = none) (houtcome : a.persistence_outcome = .persisted)
  | unknown (count : Nat) (hcontent : a.content = content ++ encoded_line.take count)
      (hrollback : a.rollback_error.isSome = true) (houtcome : a.persistence_outcome = .uncertain)

/-- A rollback takes back what is behind the boundary, or says that it has not. -/
theorem rolledBack_cases (calls : AppendCalls ε) (encoded_line content : Bytes) {written : Bytes}
    (hwritten : written <+: encoded_line) (error : ε) :
    AttemptEnd encoded_line content (rolledBack calls content.length (content ++ written) error) := by
  have hcut : (content ++ written).take content.length = content := List.take_left
  have htake : written = encoded_line.take written.length := List.prefix_iff_eq_take.mp hwritten
  rw [rolledBack, rollbackFailedLogAppend]
  cases calls.truncate with
  | raised cut truncate_error =>
    cases cut with
    | true => exact .unknown 0 (by simp [hcut]) rfl rfl
    | false => exact .unknown written.length (congrArg (content ++ ·) htake) rfl rfl
  | done =>
    cases calls.rollback_fsync with
    | error fsync_error => exact .unknown 0 (by simp [hcut]) rfl rfl
    | ok u => exact .unchanged hcut rfl rfl rfl

/-- **Before the close**, one of the three. -/
theorem attempt_cases (calls : AppendCalls ε) (encoded_line content : Bytes) :
    AttemptEnd encoded_line content (attempt calls encoded_line content) := by
  have hprefix := writeAll_prefix calls.writes encoded_line
  have hcomplete := writeAll_complete calls.writes encoded_line
  rw [attempt]
  cases calls.seek with
  | error error => exact .unchanged rfl rfl rfl rfl
  | ok u =>
    cases hwrite : writeAll calls.writes encoded_line with
    | mk written ended =>
      rw [hwrite] at hprefix hcomplete
      cases ended with
      | stuck => exact rolledBack_cases calls encoded_line content hprefix _
      | raised error => exact rolledBack_cases calls encoded_line content hprefix _
      | complete =>
        obtain rfl : written = encoded_line := hcomplete rfl
        cases calls.fsync with
        | error error => exact rolledBack_cases calls written content hprefix _
        | ok u => exact .written rfl rfl rfl rfl

theorem appendLine_attempt (calls : AppendCalls ε) (encoded_line content : Bytes) :
    (appendLine calls encoded_line content).1 = (attempt calls encoded_line content).content ∧
      (appendLine calls encoded_line content).2.outcome =
        (attempt calls encoded_line content).persistence_outcome := by
  rw [appendLine]
  split
  · exact ⟨rfl, rfl⟩
  · rename_i hno
    rw [Bool.or_eq_true, not_or] at hno
    cases attempt_cases calls encoded_line content with
    | unchanged hcontent hprimary hrollback houtcome =>
      obtain ⟨error, herror⟩ := Option.isSome_iff_exists.mp hprimary
      rw [herror]
      exact ⟨rfl, houtcome.symm⟩
    | written hcontent hprimary hrollback houtcome =>
      rw [hprimary]
      exact ⟨rfl, houtcome.symm⟩
    | unknown count hcontent hrollback houtcome => exact absurd hrollback hno.1

/-! ## Telling the truth -/

/-- What is said of the file after an append is so. -/
structure Truthful (encoded_line before after : Bytes) (outcome : LogPersistenceOutcome) : Prop where
  not_persisted : outcome = .not_persisted → after = before
  persisted : outcome = .persisted → after = before ++ encoded_line
  /-- Anything else is not passed off as one of the two. -/
  other : after ≠ before → after ≠ before ++ encoded_line → outcome = .uncertain

/-- **The outcome is truthful**, whichever calls fail. -/
theorem append_outcome_truthful {ε : Type} (calls : AppendCalls ε) (encoded_line content : Bytes) :
    Truthful encoded_line content (appendLine calls encoded_line content).1
      (appendLine calls encoded_line content).2.outcome := by
  obtain ⟨hcontent, houtcome⟩ := appendLine_attempt calls encoded_line content
  rw [hcontent, houtcome]
  cases attempt_cases calls encoded_line content with
  | unchanged hcontent hprimary hrollback houtcome =>
    rw [houtcome]
    exact ⟨fun _ => hcontent, nofun, fun hne => absurd hcontent hne⟩
  | written hcontent hprimary hrollback houtcome =>
    rw [houtcome]
    exact ⟨nofun, fun _ => hcontent, fun _ hne => absurd hcontent hne⟩
  | unknown count hcontent hrollback houtcome =>
    rw [houtcome]
    exact ⟨nofun, nofun, fun _ _ => rfl⟩

/-- A close that fails behind a good write, and a rollback that fails behind a bad one. -/
example :
    let calls : AppendCalls Unit :=
      { seek := .ok (), writes := [.took 2], no_progress := (), fsync := .ok ()
        truncate := .done, rollback_fsync := .ok (), close := .error () }
    (appendLine calls [1, 2, 10] [9, 10]).1 = [9, 10, 1, 2, 10] ∧
      (appendLine calls [1, 2, 10] [9, 10]).2.outcome = .persisted ∧
      (appendLine { calls with writes := [.took 2, .took 0], truncate := .raised false () }
        [1, 2, 10] [9, 10]).1 = [9, 10, 1, 2] ∧
      (appendLine { calls with writes := [.took 2, .took 0], truncate := .raised false () }
        [1, 2, 10] [9, 10]).2.outcome = .uncertain := by
  decide

/-! ## In the history of a log -/

/-- The outcomes, as they are told apart there. -/
def LogPersistenceOutcome.Tells : LogPersistenceOutcome → WriteFate → Prop
  | .not_persisted, .rolledBack => True
  | .persisted, .persisted => True
  | .uncertain, .uncertain _ => True
  | _, _ => False

/-- **An append on the active file** leaves what its outcome leaves in the history of the log. -/
theorem append_fate (calls : AppendCalls ε) (encoded_line : Bytes) {dir : LogDir} {file : LogFile}
    (hfile : dir.files.get .active = some file) (inode : Nat) (rotation : RotationFate) :
    ∃ fate : WriteFate,
      (appendLine calls encoded_line file.content).2.outcome.Tells fate ∧
        ((appendEncodedLogLine ⟨encoded_line, inode, rotation, fate⟩ dir).files.get .active).map
          LogFile.content = some (appendLine calls encoded_line file.content).1 := by
  have hopen : openActive inode dir = dir := by
    rw [openActive, hfile]
  have hwrite : ∀ bytes : Bytes, ((writeActive bytes dir).files.get .active).map LogFile.content =
      some (file.content ++ bytes) := by
    intro bytes
    rw [writeActive, hfile]
    simp only [Table.get_set, if_true, Option.map_some]
  obtain ⟨hcontent, houtcome⟩ := appendLine_attempt calls encoded_line file.content
  rw [hcontent, houtcome]
  cases attempt_cases calls encoded_line file.content with
  | unchanged hcontent hprimary hrollback houtcome =>
    refine ⟨.rolledBack, by rw [houtcome]; trivial, ?_⟩
    rw [appendEncodedLogLine, hcontent]
    simp only [hopen, hfile, Option.map_some]
  | written hcontent hprimary hrollback houtcome =>
    refine ⟨.persisted, by rw [houtcome]; trivial, ?_⟩
    rw [appendEncodedLogLine, hcontent]
    simp only [hopen, hwrite]
  | unknown count hcontent hrollback houtcome =>
    refine ⟨.uncertain count, by rw [houtcome]; trivial, ?_⟩
    rw [appendEncodedLogLine, hcontent]
    simp only [hopen, hwrite]

end

/-- A write that gets stuck, and is not cut back. -/
theorem append_fate_stuck :
    let calls : AppendCalls Unit := ⟨.ok (), [.took 2, .took 0], (), .ok (), .raised false (),
      .ok (), .ok ()⟩
    let file : LogFile := ⟨0, 1, [9, 10]⟩
    ∃ fate : WriteFate, (appendLine calls [1, 2, 10] file.content).2.outcome.Tells fate ∧
      ((appendEncodedLogLine ⟨[1, 2, 10], 1, .completes, fate⟩
        ⟨Table.empty.set .active file, 1⟩).files.get .active).map LogFile.content =
          some (appendLine calls [1, 2, 10] file.content).1 :=
  append_fate _ [1, 2, 10] rfl 1 .completes

end NuSelf.Log
