/-
  The shared atomic file writer.

  A text goes into a new file beside the destination, which then takes the place of the destination.
  Every call of the operating system may fail, with its work done or not; where one does, a cleanup
  removes the temporary file, if the writer knows that it has created one.  It learns so when
  `create_private_file` returns, and that is later than the file is there.

  1. `WroteAtomically` — the destination is the old one or the complete new one, nothing else has
     changed, and no temporary file is left unless the cleanup itself has failed.
  2. `body_exits`, `cleanup_exits` — what the attempt and the cleanup leave at each exit.
  3. `write_text_atomic_iff` — all of it holds exactly when the creation of the temporary file is
     not cut short after the file is there.
-/
import NuSelf.Lib.Exits
import NuSelf.Lib.Percent
import NuSelf.Lib.Table

namespace NuSelf.Storage.Atomic

open NuSelf.Lib NuSelf.Lib.Interruptible

/-! ## The writer -/

/-- A directory: its files, by their names. -/
abbrev Files := Table String (List UInt8)

inductive FileError (ε : Type) where
  | file_exists
  | file_not_found
  /-- `UnicodeEncodeError`. -/
  | not_encodable
  /-- Any other, or an interruption. -/
  | other (error : ε)
  deriving DecidableEq

inductive WriteError (ε : Type) where
  | file (error : FileError ε)
  /-- `AtomicWriteDurabilityError`. -/
  | durability (sync_error : WriteError ε)
  /-- `AtomicWriteCleanupError`. -/
  | cleanup (primary_error cleanup_error : WriteError ε)

/-- How the calls of the operating system end. -/
structure FileCalls (ε : Type) where
  ensure_directory : CallEnd ε
  /-- The same, in `create_private_file`. -/
  ensure_again : CallEnd ε
  touch_open : CallEnd ε
  touch_close : CallEnd ε
  chmod : CallEnd ε
  write_open : CallEnd ε
  /-- So many bytes are in the file when writing or closing it fails. -/
  write : Option (Nat × ε)
  sync_open : CallEnd ε
  sync_fsync : CallEnd ε
  sync_close : CallEnd ε
  replace : CallEnd ε
  directory_open : CallEnd ε
  directory_fsync : CallEnd ε
  directory_close : CallEnd ε
  unlink : CallEnd ε

structure WriteState where
  files : Files
  temporary_created : Bool := false

section

variable {ε : Type}

/-- A computation of the writer. -/
abbrev Writing (ε : Type) := Interruptible WriteState (WriteError ε)

def fileError (e : ε) : WriteError ε := .file (.other e)

/-- A call that changes the files. -/
def fileCall (ends : CallEnd ε) (act : Files → Files) : Writing ε Unit :=
  call fileError ends fun s => { s with files := act s.files }

/-- `path.touch(exist_ok=False)`: the exclusive creation, and the closing of the descriptor. -/
def touch (calls : FileCalls ε) (path : String) : Writing ε Unit := do
  let s ← get
  if (s.files.get path).isSome then raise (.file .file_exists)
  else do
    fileCall calls.touch_open fun files => files.set path []
    fileCall calls.touch_close id

def createPrivateFile (calls : FileCalls ε) (path : String) : Writing ε Unit := do
  fileCall calls.ensure_again id
  touch calls path
  fileCall calls.chmod id

/-- `path.write_text`: opening truncates the file. -/
def writeText (calls : FileCalls ε) (path : String) (text : PyText) : Writing ε Unit := do
  fileCall calls.write_open fun files => files.set path []
  match characters text with
  | none => raise (.file .not_encodable)
  | some content =>
    match calls.write with
    | none => modify fun s => { s with files := s.files.set path (utf8 content) }
    | some (count, e) => do
      modify fun s => { s with files := s.files.set path ((utf8 content).take count) }
      raise (fileError e)

/-- `sync_path`; the descriptor is closed in any case. -/
def syncPath (opens fsync closes : CallEnd ε) : Writing ε Unit := do
  fileCall opens id
  catching (fileCall fsync id) fun e => do
    fileCall closes id
    raise e
  fileCall closes id

/-- `tmp_path.replace(path)`. -/
def replaceFile (calls : FileCalls ε) (tmp_path path : String) : Writing ε Unit := do
  let s ← get
  match s.files.get tmp_path with
  | none => raise (.file .file_not_found)
  | some content =>
    fileCall calls.replace fun files => (files.set path content).erase tmp_path

/-- `tmp_path.unlink()`. -/
def unlink (calls : FileCalls ε) (tmp_path : String) : Writing ε Unit := do
  let s ← get
  match s.files.get tmp_path with
  | none => raise (.file .file_not_found)
  | some _ => fileCall calls.unlink fun files => files.erase tmp_path

/-- The flag of the writer. -/
def setCreated (temporary_created : Bool) : Writing ε Unit :=
  modify fun s => { s with temporary_created }

/-- What is tried. -/
def body (calls : FileCalls ε) (tmp_path path : String) (text : PyText) : Writing ε Unit := do
  createPrivateFile calls tmp_path
  setCreated true
  writeText calls tmp_path text
  syncPath calls.sync_open calls.sync_fsync calls.sync_close
  replaceFile calls tmp_path path
  setCreated false
  catching (syncPath calls.directory_open calls.directory_fsync calls.directory_close) fun e =>
    raise (.durability e)

/-- The handler. -/
def cleanup (calls : FileCalls ε) (tmp_path : String) (primary_error : WriteError ε) :
    Writing ε Unit := do
  let s ← get
  if s.temporary_created then
    catching (unlink calls tmp_path) fun
      | .file .file_not_found => pure ()
      | cleanup_error => raise (.cleanup primary_error cleanup_error)
  raise primary_error

/-- The name of the temporary file; `hex` is `uuid4().hex`. -/
def tmpName (name hex : String) : String := name ++ "." ++ hex ++ ".tmp"

def writeTextAtomic (calls : FileCalls ε) (path hex : String) (text : PyText) : Writing ε Unit := do
  fileCall calls.ensure_directory id
  catching (body calls (tmpName path hex) path text) (cleanup calls (tmpName path hex))

end

/-! ## What is promised -/

/-- The destination is the old one or the complete new one, and no temporary file is left, unless
    the cleanup has failed.  What was at its name before is there after: nothing, as the name is
    a new one. -/
structure WroteAtomically {ε : Type} (path tmp_path : String) (text : PyText)
    (before after : Files) (outcome : Outcome (WriteError ε) Unit) : Prop where
  destination : after.get path = before.get path ∨
    ∃ content, characters text = some content ∧ after.get path = some (utf8 content)
  temporary : after.get tmp_path = before.get tmp_path ∨
    ∃ primary_error cleanup_error, outcome = .raised (.cleanup primary_error cleanup_error)
  others : ∀ name, name ≠ path → name ≠ tmp_path → after.get name = before.get name

/-- The creation of a file is cut short when it is there: the exclusive creation has done its work,
    and it, the closing of the descriptor, or the `chmod` raises. -/
def CutShort {ε : Type} (calls : FileCalls ε) (files : Files) (path : String) : Prop :=
  calls.ensure_again = .returned ∧ files.get path = none ∧ calls.touch_open.acts = true ∧
    (calls.touch_open.error ≠ none ∨ calls.touch_close.error ≠ none ∨ calls.chmod.error ≠ none)

section

variable {ε : Type} {calls : FileCalls ε}

/-! ## The creation -/

/-- A call returns with its work done, or raises with its work done or not. -/
theorem fileCall_cases (ends : CallEnd ε) (act : Files → Files) (s : WriteState) :
    (ends.acts = true ∧ ends.error = none ∧
        fileCall ends act s = (.returned (), { s with files := act s.files })) ∨
      (ends.acts = false ∧ ∃ e, ends.error = some e ∧
        fileCall ends act s = (.raised (fileError e), s)) ∨
      (ends.acts = true ∧ ∃ e, ends.error = some e ∧
        fileCall ends act s = (.raised (fileError e), { s with files := act s.files })) := by
  cases ends with
  | returned => exact Or.inl ⟨rfl, rfl, rfl⟩
  | refused e => exact Or.inr (Or.inl ⟨rfl, e, rfl, rfl⟩)
  | late e => exact Or.inr (Or.inr ⟨rfl, e, rfl, rfl⟩)

theorem fileCall_id (ends : CallEnd ε) (s : WriteState) :
    (ends.error = none ∧ fileCall ends id s = (.returned (), s)) ∨
      ∃ e, ends.error = some e ∧ fileCall ends id s = (.raised (fileError e), s) := by
  cases ends with
  | returned => exact Or.inl ⟨rfl, rfl⟩
  | refused e => exact Or.inr ⟨e, rfl, rfl⟩
  | late e => exact Or.inr ⟨e, rfl, rfl⟩

theorem touch_new {path : String} {s : WriteState} (h : s.files.get path = none) :
    touch calls path s = (do
      fileCall calls.touch_open fun files => files.set path []
      fileCall calls.touch_close id : Writing ε Unit) s := by
  rw [touch, get_bind, h]
  rfl

theorem touch_existing {path : String} {s : WriteState} (h : (s.files.get path).isSome = true) :
    touch calls path s = (.raised (.file .file_exists), s) := by
  rw [touch, get_bind, if_pos h]
  rfl

/-- **The creation** changes nothing when it raises, or the file is there and it returns, or it is
    cut short. -/
theorem createPrivateFile_cases (calls : FileCalls ε) (path : String) (s : WriteState) :
    (¬ CutShort calls s.files path ∧
        ∃ e, createPrivateFile calls path s = (.raised e, s)) ∨
      (¬ CutShort calls s.files path ∧ s.files.get path = none ∧
        createPrivateFile calls path s =
          (.returned (), { s with files := s.files.set path [] })) ∨
      (CutShort calls s.files path ∧ ∃ e, createPrivateFile calls path s =
          (.raised (fileError e), { s with files := s.files.set path [] })) := by
  rw [createPrivateFile]
  rcases fileCall_id calls.ensure_again s with ⟨hagain, hrun⟩ | ⟨e, hagain, hrun⟩
  · rw [returned_bind hrun]
    have hreturned := CallEnd.error_eq_none_iff.mp hagain
    by_cases hfile : s.files.get path = none
    · have htouch := @touch_new _ calls path s hfile
      rcases fileCall_cases calls.touch_open (fun files => files.set path []) s with
        ⟨hacts, hopen, hrun⟩ | ⟨hacts, e, hopen, hrun⟩ | ⟨hacts, e, hopen, hrun⟩
      · rw [returned_bind hrun] at htouch
        rcases fileCall_id calls.touch_close { s with files := s.files.set path [] } with
          ⟨hclose, hrun⟩ | ⟨e, hclose, hrun⟩
        · rw [hrun] at htouch
          rw [returned_bind htouch]
          rcases fileCall_id calls.chmod { s with files := s.files.set path [] } with
            ⟨hchmod, hrun⟩ | ⟨e, hchmod, hrun⟩
          · refine Or.inr (Or.inl ⟨?_, hfile, hrun⟩)
            rintro ⟨-, -, -, h | h | h⟩
            · exact h hopen
            · exact h hclose
            · exact h hchmod
          · refine Or.inr (Or.inr ⟨⟨hreturned, hfile, hacts, Or.inr (Or.inr ?_)⟩, _, hrun⟩)
            rw [hchmod]
            exact Option.some_ne_none e
        · rw [hrun] at htouch
          refine Or.inr (Or.inr ⟨⟨hreturned, hfile, hacts, Or.inr (Or.inl ?_)⟩, _,
            raised_bind htouch⟩)
          rw [hclose]
          exact Option.some_ne_none e
      · rw [raised_bind hrun] at htouch
        refine Or.inl ⟨fun h => ?_, _, raised_bind htouch⟩
        exact absurd (hacts.symm.trans h.2.2.1) Bool.false_ne_true
      · rw [raised_bind hrun] at htouch
        refine Or.inr (Or.inr ⟨⟨hreturned, hfile, hacts, Or.inl ?_⟩, _, raised_bind htouch⟩)
        rw [hopen]
        exact Option.some_ne_none e
    · have hsome : (s.files.get path).isSome = true := Option.isSome_iff_ne_none.mpr hfile
      exact Or.inl ⟨fun h => hfile h.2.1, _, raised_bind (touch_existing hsome)⟩
  · refine Or.inl ⟨fun h => ?_, _, raised_bind hrun⟩
    rw [h.1] at hagain
    cases hagain

/-! ## The stages of an attempt -/

section

variable (before : Files) (path tmp_path : String) (text : PyText)

/-- Nothing has changed. -/
structure Untouched (s : WriteState) : Prop where
  flag : s.temporary_created = false
  same : s.files = before

/-- The temporary file is there, and nothing else has changed. -/
structure Created (temporary_created : Bool) (s : WriteState) : Prop where
  flag : s.temporary_created = temporary_created
  new : before.get tmp_path = none
  exists_temporary : ∃ content, s.files.get tmp_path = some content
  same : ∀ name, name ≠ tmp_path → s.files.get name = before.get name

/-- The temporary file is complete. -/
structure Written (s : WriteState) : Prop extends Created before tmp_path true s where
  complete : ∃ content, characters text = some content ∧ s.files.get tmp_path = some (utf8 content)

/-- The temporary file has taken the place of the destination. -/
structure Replaced (temporary_created : Bool) (s : WriteState) : Prop where
  flag : s.temporary_created = temporary_created
  new : before.get tmp_path = none
  no_temporary : s.files.get tmp_path = none
  complete : ∃ content, characters text = some content ∧ s.files.get path = some (utf8 content)
  same : ∀ name, name ≠ path → name ≠ tmp_path → s.files.get name = before.get name

/-- Where an attempt that has not been cut short may be given up. -/
def GivenUp (s : WriteState) : Prop :=
  Untouched before s ∨ Created before tmp_path true s ∨
    ∃ temporary_created, Replaced before path tmp_path text temporary_created s

end

variable {before : Files} {path tmp_path : String} {text : PyText}

theorem Created.set {temporary_created : Bool} {s : WriteState}
    (h : Created before tmp_path temporary_created s) (content : List UInt8) :
    Created before tmp_path temporary_created
      { s with files := s.files.set tmp_path content } where
  flag := h.flag
  new := h.new
  exists_temporary := ⟨content, s.files.get_set_self tmp_path content⟩
  same := fun name hname => (s.files.get_set_ne content hname).trans (h.same name hname)

theorem writeText_exits : Exits (Created before tmp_path true) (writeText calls tmp_path text)
    (fun _ => Written before tmp_path text) (fun _ => Created before tmp_path true) := by
  have hopen : Exits (Created before tmp_path true)
      (fileCall calls.write_open fun files => files.set tmp_path [] : Writing ε Unit)
      (fun _ => Created before tmp_path true) (fun _ => Created before tmp_path true) :=
    exits_call (fun s hs => hs.set []) (fun e s hs => hs) (fun e s hs => hs.set [])
  refine hopen.bind fun _ => ?_
  cases hcontent : characters text with
  | none => exact exits_raise _ fun s hs => hs
  | some content =>
    cases calls.write with
    | none =>
      refine exits_modify fun s hs => ⟨hs.set _, content, hcontent, ?_⟩
      exact s.files.get_set_self tmp_path (utf8 content)
    | some failure =>
      obtain ⟨count, e⟩ := failure
      have hpart : Exits (Created before tmp_path true)
          (modify fun s : WriteState =>
            { s with files := s.files.set tmp_path ((utf8 content).take count) })
          (fun _ => Created before tmp_path true)
          (fun _ : WriteError ε => Created before tmp_path true) :=
        exits_modify fun s hs => hs.set _
      exact hpart.bind fun _ => exits_raise _ fun s hs => hs

theorem syncPath_exits (P : WriteState → Prop) (opens fsync closes : CallEnd ε) :
    Exits P (syncPath opens fsync closes) (fun _ => P) (fun _ => P) := by
  have hcall : ∀ ends : CallEnd ε,
      Exits P (fileCall ends id) (fun _ => P) (fun _ => P) := fun ends =>
    exits_call (fun s hs => hs) (fun e s hs => hs) (fun e s hs => hs)
  refine (hcall opens).bind fun _ => ?_
  refine (Exits.catching (hcall fsync) fun e => ?_).bind fun _ => hcall closes
  exact (hcall closes).bind fun _ => exits_raise e fun s hs => hs

theorem Written.replaced {s : WriteState} (hs : Written before tmp_path text s)
    (hne : tmp_path ≠ path) {content : List Char} (hcontent : characters text = some content) :
    Replaced before path tmp_path text true
      { s with files := (s.files.set path (utf8 content)).erase tmp_path } where
  flag := hs.flag
  new := hs.new
  no_temporary := by rw [Table.get_erase, if_pos rfl]
  complete := by
    refine ⟨content, hcontent, ?_⟩
    rw [Table.get_erase, if_neg hne.symm, Table.get_set_self]
  same := by
    intro name hpath htmp
    rw [Table.get_erase, if_neg htmp, Table.get_set_ne _ _ hpath]
    exact hs.same name htmp

theorem replaceFile_exits (hne : tmp_path ≠ path) :
    Exits (Written before tmp_path text) (replaceFile calls tmp_path path)
      (fun _ => Replaced before path tmp_path text true)
      (fun _ => GivenUp before path tmp_path text) := by
  refine exits_get fun s hs => ?_
  obtain ⟨content, hcontent, hget⟩ := hs.complete
  have hreplaced := hs.replaced hne hcontent
  rw [hget]
  refine exits_call ?_ ?_ ?_
  · rintro _ rfl
    exact hreplaced
  · rintro e _ rfl
    exact Or.inr (Or.inl hs.toCreated)
  · rintro e _ rfl
    exact Or.inr (Or.inr ⟨true, hreplaced⟩)

/-- **What is tried**, when the creation is not cut short. -/
theorem body_exits (hne : tmp_path ≠ path) (hshort : ¬ CutShort calls before tmp_path) :
    Exits (Untouched before) (body calls tmp_path path text)
      (fun _ => Replaced before path tmp_path text false)
      (fun _ => GivenUp before path tmp_path text) := by
  have hcreate : Exits (Untouched before) (createPrivateFile calls tmp_path)
      (fun _ => Created before tmp_path false) (fun _ => GivenUp before path tmp_path text) := by
    rintro s ⟨hflag, rfl⟩
    rcases createPrivateFile_cases calls tmp_path s with
      ⟨-, e, hrun⟩ | ⟨-, hnew, hrun⟩ | ⟨hcut, -⟩
    · rw [hrun]
      exact Or.inl ⟨hflag, rfl⟩
    · rw [hrun]
      exact ⟨hflag, hnew, ⟨[], s.files.get_set_self _ _⟩, fun name h => s.files.get_set_ne _ h⟩
    · exact absurd hcut hshort
  refine hcreate.bind fun _ => ?_
  have hcreated : Exits (Created before tmp_path false) (setCreated true)
      (fun _ => Created before tmp_path true)
      (fun _ : WriteError ε => GivenUp before path tmp_path text) :=
    exits_modify fun s hs => ⟨rfl, hs.new, hs.exists_temporary, hs.same⟩
  refine hcreated.bind fun _ => ?_
  have hgiven : ∀ (e : WriteError ε) s, Created before tmp_path true s →
      GivenUp before path tmp_path text s := fun e s hs => Or.inr (Or.inl hs)
  have hkeep : ∀ (a : Unit) s, Written before tmp_path text s → Written before tmp_path text s :=
    fun _ _ hs => hs
  refine (writeText_exits.imp (fun s hs => hs) hkeep hgiven).bind fun _ => ?_
  have hsync := syncPath_exits (Written before tmp_path text) calls.sync_open calls.sync_fsync
    calls.sync_close
  refine (hsync.imp (fun s hs => hs) hkeep fun e s hs => hgiven e s hs.toCreated).bind fun _ => ?_
  refine (replaceFile_exits hne).bind fun _ => ?_
  have hflag : Exits (Replaced before path tmp_path text true) (setCreated false)
      (fun _ => Replaced before path tmp_path text false)
      (fun _ : WriteError ε => GivenUp before path tmp_path text) :=
    exits_modify fun s hs => ⟨rfl, hs.new, hs.no_temporary, hs.complete, hs.same⟩
  refine hflag.bind fun _ => ?_
  have hdirectory := syncPath_exits (Replaced before path tmp_path text false)
    calls.directory_open calls.directory_fsync calls.directory_close
  exact Exits.catching hdirectory fun e =>
    exits_raise _ fun s hs => Or.inr (Or.inr ⟨false, hs⟩)

/-! ## The cleanup -/

theorem Untouched.wrote {s : WriteState} (h : Untouched before s)
    (outcome : Outcome (WriteError ε) Unit) :
    WroteAtomically path tmp_path text before s.files outcome := by
  rw [h.same]
  exact ⟨Or.inl rfl, Or.inl rfl, fun _ _ _ => rfl⟩

theorem Replaced.wrote {temporary_created : Bool} {s : WriteState}
    (h : Replaced before path tmp_path text temporary_created s)
    (outcome : Outcome (WriteError ε) Unit) :
    WroteAtomically path tmp_path text before s.files outcome where
  destination := Or.inr h.complete
  temporary := Or.inl (h.no_temporary.trans h.new.symm)
  others := h.same

/-- The temporary file has been removed, or there is an error of the cleanup. -/
theorem Created.wrote_erase {s : WriteState} (h : Created before tmp_path true s)
    (hne : tmp_path ≠ path) (outcome : Outcome (WriteError ε) Unit) :
    WroteAtomically path tmp_path text before (s.files.erase tmp_path) outcome where
  destination := by
    rw [Table.get_erase, if_neg hne.symm]
    exact Or.inl (h.same path hne.symm)
  temporary := by
    rw [Table.get_erase, if_pos rfl]
    exact Or.inl h.new.symm
  others := by
    intro name _ htmp
    rw [Table.get_erase, if_neg htmp]
    exact h.same name htmp

theorem Created.wrote_cleanup {s : WriteState} (h : Created before tmp_path true s)
    (hne : tmp_path ≠ path) (primary_error cleanup_error : WriteError ε) :
    WroteAtomically path tmp_path text before s.files
      (.raised (.cleanup primary_error cleanup_error)) where
  destination := Or.inl (h.same path hne.symm)
  temporary := Or.inr ⟨primary_error, cleanup_error, rfl⟩
  others := fun name _ htmp => h.same name htmp

/-- **The cleanup** raises, with what is promised. -/
theorem cleanup_exits (hne : tmp_path ≠ path) (primary_error : WriteError ε) :
    Exits (GivenUp before path tmp_path text) (cleanup calls tmp_path primary_error)
      (fun _ _ => False)
      (fun e s => WroteAtomically path tmp_path text before s.files (.raised e)) := by
  intro s hs
  have hlook : cleanup calls tmp_path primary_error s =
      (if s.temporary_created then
        catching (unlink calls tmp_path) (fun
          | .file .file_not_found => pure ()
          | cleanup_error => raise (.cleanup primary_error cleanup_error)) >>=
            fun _ => raise primary_error
      else raise primary_error : Writing ε Unit) s := by
    rw [cleanup, get_bind]
  rw [hlook]
  rcases hs with hs | hs | ⟨created, hs⟩
  · rw [hs.flag]
    exact hs.wrote _
  · obtain ⟨content, hcontent⟩ := hs.exists_temporary
    have hunlink : unlink calls tmp_path s =
        fileCall calls.unlink (fun files => files.erase tmp_path) s := by
      rw [unlink, get_bind, hcontent]
    rw [hs.flag, if_pos rfl]
    rcases fileCall_cases calls.unlink (fun files => files.erase tmp_path) s with
      ⟨-, -, hrun⟩ | ⟨-, e, -, hrun⟩ | ⟨-, e, -, hrun⟩
    · rw [hrun] at hunlink
      rw [returned_bind (catching_returned hunlink)]
      exact hs.wrote_erase hne _
    · rw [hrun] at hunlink
      rw [raised_bind (catching_raised hunlink)]
      exact hs.wrote_cleanup hne primary_error (fileError e)
    · rw [hrun] at hunlink
      rw [raised_bind (catching_raised hunlink)]
      exact hs.wrote_erase hne _
  · cases created with
    | false =>
      rw [hs.flag]
      exact hs.wrote _
    | true =>
      have hunlink : unlink calls tmp_path s = (.raised (.file .file_not_found), s) := by
        rw [unlink, get_bind, hs.no_temporary]
        rfl
      rw [hs.flag, if_pos rfl, returned_bind (catching_raised hunlink)]
      exact hs.wrote _

/-! ## The whole call -/

theorem tmpName_ne (name hex : String) : tmpName name hex ≠ name := by
  intro h
  have hlength := congrArg String.length h
  have htail : (".tmp" : String).length = 4 := rfl
  simp only [tmpName, String.length_append, htail] at hlength
  omega

/-- **The exits of the call**, when the creation is not cut short. -/
theorem writeTextAtomic_exits (path hex : String)
    (hshort : ¬ CutShort calls before (tmpName path hex)) :
    Exits (Untouched before) (writeTextAtomic calls path hex text)
      (fun _ => Replaced before path (tmpName path hex) text false)
      (fun e s => WroteAtomically path (tmpName path hex) text before s.files (.raised e)) := by
  have hensure : Exits (Untouched before) (fileCall calls.ensure_directory id : Writing ε Unit)
      (fun _ => Untouched before)
      (fun e s => WroteAtomically path (tmpName path hex) text before s.files (.raised e)) :=
    exits_call (fun s hs => hs) (fun e s hs => hs.wrote _) (fun e s hs => hs.wrote _)
  have hne := tmpName_ne path hex
  refine hensure.bind fun _ => (body_exits hne hshort).catching fun primary_error => ?_
  exact (cleanup_exits hne primary_error).imp (fun s hs => hs) (fun _ _ h => h.elim)
    (fun e s hs => hs)

/-- The call, on a directory. -/
def runWriteTextAtomic (calls : FileCalls ε) (path hex : String) (text : PyText) (before : Files) :
    Outcome (WriteError ε) Unit × Files :=
  let (outcome, s) := writeTextAtomic calls path hex text ⟨before, false⟩
  (outcome, s.files)

/-- A creation that is cut short leaves its file: the writer does not know of it. -/
theorem left_behind (path hex : String) (hensure : calls.ensure_directory = .returned)
    (hcut : CutShort calls before (tmpName path hex)) :
    ∃ e, writeTextAtomic calls path hex text ⟨before, false⟩ =
      (.raised (fileError e), ⟨before.set (tmpName path hex) [], false⟩) := by
  have hdirectory : fileCall calls.ensure_directory id ⟨before, false⟩ =
      ((.returned (), ⟨before, false⟩) : Outcome (WriteError ε) Unit × WriteState) := by
    rw [hensure]
    rfl
  rcases createPrivateFile_cases calls (tmpName path hex) ⟨before, false⟩ with
    ⟨hnot, -⟩ | ⟨hnot, -⟩ | ⟨-, e, hrun⟩
  · exact absurd hcut hnot
  · exact absurd hcut hnot
  · have hbody : body calls (tmpName path hex) path text ⟨before, false⟩ =
        (.raised (fileError e), ⟨before.set (tmpName path hex) [], false⟩) := raised_bind hrun
    refine ⟨e, ?_⟩
    rw [writeTextAtomic, returned_bind hdirectory, catching_raised hbody]
    rfl

end

/-- **Atomic replacement**: for every way in which the calls of the operating system end, every
    text and every directory, the promise holds exactly when the creation of the temporary file is
    not cut short. -/
theorem write_text_atomic_iff {ε : Type} (calls : FileCalls ε) (path hex : String) (text : PyText)
    (before : Files) :
    WroteAtomically path (tmpName path hex) text before
        (runWriteTextAtomic calls path hex text before).2
        (runWriteTextAtomic calls path hex text before).1 ↔
      ¬ (calls.ensure_directory = .returned ∧ CutShort calls before (tmpName path hex)) := by
  have hrun : runWriteTextAtomic calls path hex text before =
      ((writeTextAtomic calls path hex text ⟨before, false⟩).1,
        (writeTextAtomic calls path hex text ⟨before, false⟩).2.files) := rfl
  rw [hrun]
  constructor
  · -- the file that was created stays, and the error is not one of the cleanup
    rintro hwrote ⟨hensure, hcut⟩
    obtain ⟨e, hleft⟩ := @left_behind _ _ before text path hex hensure hcut
    rw [hleft] at hwrote
    rcases hwrote.temporary with h | ⟨primary_error, cleanup_error, h⟩
    · have hfile : (before.set (tmpName path hex) []).get (tmpName path hex) = some [] :=
        before.get_set_self _ _
      rw [hfile, hcut.2.1] at h
      cases h
    · cases h
  · intro hnot
    rcases fileCall_id calls.ensure_directory ⟨before, false⟩ with
      ⟨hensure, -⟩ | ⟨e, -, hraised⟩
    · have hshort : ¬ CutShort calls before (tmpName path hex) := by
        refine fun hcut => hnot ⟨?_, hcut⟩
        cases h : calls.ensure_directory with
        | returned => rfl
        | refused e => rw [h] at hensure; cases hensure
        | late e => rw [h] at hensure; cases hensure
      have hexits := @writeTextAtomic_exits _ _ before text path hex hshort ⟨before, false⟩
        ⟨rfl, rfl⟩
      cases hcall : writeTextAtomic calls path hex text ⟨before, false⟩ with
      | mk outcome s =>
        rw [hcall] at hexits
        cases outcome with
        | returned u => exact Replaced.wrote hexits _
        | raised e => exact hexits
        | stopped => exact hexits.elim
    · have hcall : writeTextAtomic calls path hex text ⟨before, false⟩ =
          (.raised (fileError e), ⟨before, false⟩) := raised_bind hraised
      rw [hcall]
      have huntouched : Untouched before ⟨before, false⟩ := ⟨rfl, rfl⟩
      exact huntouched.wrote _

/-- Every call returns. -/
def allReturn : FileCalls String where
  ensure_directory := .returned
  ensure_again := .returned
  touch_open := .returned
  touch_close := .returned
  chmod := .returned
  write_open := .returned
  write := none
  sync_open := .returned
  sync_fsync := .returned
  sync_close := .returned
  replace := .returned
  directory_open := .returned
  directory_fsync := .returned
  directory_close := .returned
  unlink := .returned

/-- **Left behind**: the mode of the new file cannot be set, and the file stays. -/
theorem temporary_left_behind :
    ¬ WroteAtomically "state.json" (tmpName "state.json" "00") (pyText "\x7b\x7d") Table.empty
      (runWriteTextAtomic { allReturn with chmod := .refused "EPERM" } "state.json" "00"
        (pyText "\x7b\x7d") Table.empty).2
      (runWriteTextAtomic { allReturn with chmod := .refused "EPERM" } "state.json" "00"
        (pyText "\x7b\x7d") Table.empty).1 := by
  intro h
  rcases h.temporary with h | ⟨primary_error, cleanup_error, h⟩
  · exact absurd h (by decide)
  · cases h

end NuSelf.Storage.Atomic
