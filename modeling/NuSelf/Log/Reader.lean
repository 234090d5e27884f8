/-
  The two readers of the logs.

  `read_log_events` decodes a file and takes the lines of the text, a cursor takes the lines of the
  bytes and decodes each.  Bytes that are no UTF-8 stop the first and are replaced by the second, and
  a line of the bytes may be several lines of the text.  Both raise where the JSON parser raises what
  is no `JSONDecodeError`.

  1. `readLines_eq` — what is read of some lines is what is read of their texts without margins.
  2. `fileLines_eq` — the lines of the bytes, each taken apart, are the lines of the text.
  3. `parseStripped_iff`, `parseStripped_agree` — when a line is read, and that it does not matter
     by whom.
  4. `fileAgrees_iff` — when both read the same of a file.
  5. `viewLogs_ok_iff` — from what is read of the files to what is returned.
  6. `readers_agree_iff` — when the two readers agree.
-/
import NuSelf.Lib.TextLines
import NuSelf.Log.Record

namespace NuSelf.Log.Record

open NuSelf.Lib NuSelf.Lib.JsonValue NuSelf.Runtime NuSelf.Daemon

/-! ## Lines -/

/-- What escapes from a reader. -/
inductive ReadError where
  | unicode_decode_error
  | value_error
  | recursion_error

/-- What is made of one line. -/
inductive ParsedLine (φ : Type) where
  | blank
  | event (e : LogEvent φ)
  | corrupt (error : RecordError)

/-- How deep the walks go at the place where a reader runs; there is room to write a flat record. -/
structure ReadRoom where
  limits : JsonLimits
  encode_room : 1 ≤ limits.encode

section

variable {φ : Type}

/-- `json.loads` as it stands: `NaN` and its like are floats, objects are dictionaries. -/
def stockHooks (constant : String → φ) : ScanHooks Empty φ where
  constant name := .ok (.float (constant name))
  pairs fields := .ok (.obj (dictOf fields))

/-- The event of a plain line. -/
def legacyEvent (component : LogComponent) (stripped : List Char) : LogEvent φ where
  time := []
  level := .info
  component
  event := pyText "legacy"
  message := stripped.map .char

/-- What is read of a file: the two lists that the loop over its lines fills. -/
structure FileRead (φ : Type) where
  events : List (LogEvent φ)
  corruptions : List RecordError

def ParsedLine.toEvent : ParsedLine φ → Option (LogEvent φ)
  | .event e => some e
  | _ => none

def ParsedLine.toCorruption : ParsedLine φ → Option RecordError
  | .corrupt error => some error
  | _ => none

def FileRead.ofParsed (parsed : List (ParsedLine φ)) : FileRead φ where
  events := parsed.filterMap ParsedLine.toEvent
  corruptions := parsed.filterMap ParsedLine.toCorruption

variable (fromisoformat : PyText → Option (Option Int)) (floats : FloatFormat φ)
  (constant : String → φ) (room : ReadRoom)

/-- `_parse_log_line` behind the check for a blank line. -/
def parseStripped (component : LogComponent) (stripped : List Char) :
    Except ReadError (ParsedLine φ) :=
  match loads floats (stockHooks constant) room.limits.scan stripped with
  | .error .decode => .ok (.event (legacyEvent component stripped))
  | .error (.digits _) => .error .value_error
  | .error .recursion => .error .recursion_error
  | .ok (.obj record) =>
    match fromRecord fromisoformat floats room.limits record with
    | .ok e => .ok (.event e)
    | .error .recursion_error => .error .recursion_error
    | .error error => .ok (.corrupt error)
  | .ok _ => .ok (.corrupt (.value_error "structured log record must be a JSON object"))

def parseLogLine (component : LogComponent) (line : List Char) : Except ReadError (ParsedLine φ) :=
  let stripped := stripChars line
  if stripped = [] then .ok .blank
  else parseStripped fromisoformat floats constant room component stripped

/-- The loop over the lines of a file. -/
def readLines (component : LogComponent) (lines : List (List Char)) :
    Except ReadError (FileRead φ) :=
  (tryAll (parseLogLine fromisoformat floats constant room component) lines).map .ofParsed

/-- A file in `read_log_events`: `read_text`, which leaves one kind of line end, and `splitlines`. -/
def readText (component : LogComponent) (content : Bytes) : Except ReadError (FileRead φ) :=
  match decodeUtf8 content with
  | none => .error .unicode_decode_error
  | some text =>
    readLines fromisoformat floats constant room component (strLines (universalNewlines text))

/-- The lines of a file in `_read_log_path`. -/
def readBytes (component : LogComponent) (lines : List Bytes) : Except ReadError (FileRead φ) :=
  readLines fromisoformat floats constant room component (lines.map decodeReplace)

/-! ## All files -/

/-- What `read_log_events` reads of the files of a component, one path after the other. -/
def textReads (dirs : LogComponent → LogDir) (component : LogComponent) :
    Except ReadError (List (LogName × FileRead φ)) :=
  tryAll (fun entry => (readText fromisoformat floats constant room component
      (LogFile.content entry.2)).map (entry.1, ·))
    ((componentLogPaths (dirs component)).filterMap fun name =>
      ((dirs component).files.get name).map (name, ·))

/-- What a fresh cursor reads of the active file of a component. -/
def byteReads (dirs : LogComponent → LogDir) (component : LogComponent) :
    Except ReadError (List (LogName × FileRead φ)) :=
  match (dirs component).files.get .active with
  | none => .ok []
  | some _ =>
    (readBytes fromisoformat floats constant room component
      (readComponent (dirs component) ⟨0, none⟩).1).map fun read => [(.active, read)]

/-- `_report_log_read_corruptions`. -/
structure CorruptRecords where
  component : LogComponent
  file : LogName
  count : Nat
  first_error : RecordError

def reportLogReadCorruptions (component : LogComponent) (file : LogName) :
    List RecordError → List CorruptRecords
  | [] => []
  | first :: rest => [⟨component, file, rest.length + 1, first⟩]

/-- `_report_log_identity_conflicts`. -/
structure IdentityConflicts where
  count : Nat
  first_component : LogComponent
  first_event : PyText

def reportLogIdentityConflicts : List (LogEvent φ) → Option IdentityConflicts
  | [] => none
  | first :: rest => some ⟨rest.length + 1, first.component, first.event⟩

/-- `chronological_key`: events without a time come first, and are all equal. -/
def LogEvent.chronologicalKey (e : LogEvent φ) : Nat × Int :=
  match e.instant with
  | none => (0, 0)
  | some instant => (1, instant)

/-- The order of the keys, as tuples. -/
def notAfter (e e' : LogEvent φ) : Prop :=
  e.chronologicalKey.1 < e'.chronologicalKey.1 ∨
    (e.chronologicalKey.1 = e'.chronologicalKey.1 ∧
      e.chronologicalKey.2 ≤ e'.chronologicalKey.2)

instance : DecidableRel (notAfter (φ := φ)) := fun _ _ => inferInstanceAs (Decidable (_ ∨ _))

/-- `seen_event_keys` and `seen_event_fingerprints`. -/
structure Seen where
  event_keys : List PyText := []
  event_fingerprints : List (PyText × List Char) := []

/-- The loop of `_reconcile_log_event_identities` over events with their keys and fingerprints: the
    canonical events, and those that contradict them. -/
def reconcileKeyed (seen : Seen) : List (LogEvent φ × PyText × List Char) →
    List (LogEvent φ) × List (LogEvent φ)
  | [] => ([], [])
  | (e, key, fingerprint) :: rest =>
    if key ∉ seen.event_keys then
      let (canonical, conflicts) := reconcileKeyed
        ⟨seen.event_keys ++ [key], upsert key fingerprint seen.event_fingerprints⟩ rest
      (e :: canonical, conflicts)
    else
      match seen.event_fingerprints.lookup key with
      | none =>
        reconcileKeyed ⟨seen.event_keys, upsert key fingerprint seen.event_fingerprints⟩ rest
      | some existing =>
        let (canonical, conflicts) := reconcileKeyed seen rest
        (canonical, if existing ≠ fingerprint then e :: conflicts else conflicts)

/-- What a reader returns, and what it warns of. -/
structure LogView (φ : Type) where
  events : List (LogEvent φ)
  corrupt_records : List CorruptRecords
  identity_conflicts : Option IdentityConflicts

/-- The part that the readers have in common: what is read of the components is sorted and
    reconciled. -/
def viewLogs (reads : LogComponent → Except ReadError (List (LogName × FileRead φ))) :
    Except ReadError (LogView φ) := do
  let components ← tryAll (fun c => (reads c).map (c, ·)) logComponents
  let events := components.flatMap fun entry => entry.2.flatMap fun file => file.2.events
  let keyed ← (tryAll (fun e => (e.written floats room.limits).map (e, ·))
    (events.insertionSort notAfter)).mapError fun
      | .recursion_error => ReadError.recursion_error
      | _ => ReadError.value_error
  let (canonical, conflicts) := reconcileKeyed {} keyed
  return { events := canonical
           corrupt_records := components.flatMap fun entry => entry.2.flatMap fun file =>
             reportLogReadCorruptions entry.1 file.1 file.2.corruptions
           identity_conflicts := reportLogIdentityConflicts conflicts }

/-- `read_log_events` without a component; with `tail` only the last events are returned. -/
def readLogEvents (tail : Option Int) (dirs : LogComponent → LogDir) :
    Except ReadError (LogView φ) :=
  (viewLogs floats room (textReads fromisoformat floats constant room dirs)).map fun view =>
    match tail with
    | none => view
    | some tail =>
      if 0 < tail then
        { view with events := view.events.drop (view.events.length - tail.toNat) }
      else view

/-- `read_new_events` of a fresh cursor. -/
def freshCursorEvents (dirs : LogComponent → LogDir) : Except ReadError (LogView φ) :=
  viewLogs floats room (byteReads fromisoformat floats constant room dirs)

end

/-! ## What is read of some lines -/

section

variable {φ : Type} {fromisoformat : PyText → Option (Option Int)} {floats : FloatFormat φ}
  {constant : String → φ} {room room' : ReadRoom} {component : LogComponent}

theorem parseLogLine_eq (line : List Char) :
    parseLogLine fromisoformat floats constant room component line = (said line).elim (.ok .blank)
      (parseStripped fromisoformat floats constant room component) := by
  rw [parseLogLine, said]
  split
  · rfl
  · rfl

/-- One more line in front of what is read. -/
def FileRead.add (parsed : ParsedLine φ) (read : FileRead φ) : FileRead φ where
  events := parsed.toEvent.toList ++ read.events
  corruptions := parsed.toCorruption.toList ++ read.corruptions

theorem tryAll_ofParsed_cons {α : Type} (parse : α → Except ReadError (ParsedLine φ)) (line : α)
    (rest : List α) : (tryAll parse (line :: rest)).map FileRead.ofParsed =
      parse line >>= fun parsed => ((tryAll parse rest).map .ofParsed).map (FileRead.add parsed) := by
  rw [tryAll]
  cases parse line with
  | error e => rfl
  | ok parsed =>
    cases tryAll parse rest with
    | error e => rfl
    | ok more =>
      cases parsed with
      | blank => rfl
      | event e => rfl
      | corrupt error => rfl

/-- **Only what lines say** counts. -/
theorem readLines_eq (lines : List (List Char)) :
    readLines fromisoformat floats constant room component lines =
      (tryAll (parseStripped fromisoformat floats constant room component)
        (lines.filterMap said)).map .ofParsed := by
  rw [readLines]
  induction lines with
  | nil => rfl
  | cons line rest ih =>
    rw [tryAll_ofParsed_cons, ih, parseLogLine_eq, List.filterMap_cons]
    cases said line with
    | none =>
      show Except.map (FileRead.add .blank) _ = _
      cases tryAll (parseStripped fromisoformat floats constant room component)
        (rest.filterMap said) <;> rfl
    | some stripped =>
      dsimp only [Option.elim]
      rw [tryAll_ofParsed_cons]

theorem parseStripped_ne_blank (stripped : List Char) :
    parseStripped fromisoformat floats constant room component stripped ≠ .ok .blank := by
  rw [parseStripped]
  split
  · exact nofun
  · exact nofun
  · exact nofun
  · split <;> exact nofun
  · exact nofun

theorem ofParsed_length {parsed : List (ParsedLine φ)} (h : ParsedLine.blank ∉ parsed) :
    (FileRead.ofParsed parsed).events.length + (FileRead.ofParsed parsed).corruptions.length =
      parsed.length := by
  induction parsed with
  | nil => rfl
  | cons line rest ih =>
    rw [List.mem_cons, not_or] at h
    have hrest := ih h.2
    simp only [FileRead.ofParsed, List.filterMap_cons, List.length_cons] at hrest ⊢
    cases line with
    | blank => exact absurd rfl h.1
    | event e =>
      simp only [ParsedLine.toEvent, ParsedLine.toCorruption, List.length_cons]
      omega
    | corrupt error =>
      simp only [ParsedLine.toEvent, ParsedLine.toCorruption, List.length_cons]
      omega

theorem readLines_length {lines : List (List Char)} {read : FileRead φ}
    (h : readLines fromisoformat floats constant room component lines = .ok read) :
    read.events.length + read.corruptions.length = (lines.filterMap said).length := by
  rw [readLines_eq] at h
  cases hparsed : tryAll (parseStripped fromisoformat floats constant room component)
      (lines.filterMap said) with
  | error e =>
    rw [hparsed] at h
    cases h
  | ok parsed =>
    rw [hparsed] at h
    obtain rfl : FileRead.ofParsed parsed = read := Except.ok.inj h
    rw [ofParsed_length, tryAll_length hparsed]
    intro hblank
    obtain ⟨stripped, -, hstripped⟩ := (mem_tryAll hparsed).mp hblank
    exact parseStripped_ne_blank stripped hstripped

/-! ## What a line can be read as -/

/-- Neither the JSON parser nor the record codec raises anything that the readers do not catch, and
    what is read can be written, to be told from others. -/
def Readable (fromisoformat : PyText → Option (Option Int)) (floats : FloatFormat φ)
    (constant : String → φ) (room : ReadRoom) (stripped : List Char) : Prop :=
  match loads floats (stockHooks constant) room.limits.scan stripped with
  | .error e => e = .decode
  | .ok (.obj record) =>
    match fromRecord fromisoformat floats room.limits record with
    | .error e => e ≠ .recursion_error
    | .ok e => ∃ w, e.written floats room.limits = .ok w
  | .ok _ => True

/-- **A line is read**, and its event told from others, exactly if it is readable. -/
theorem parseStripped_iff (component : LogComponent) {stripped : List Char} :
    (∃ parsed, parseStripped fromisoformat floats constant room component stripped = .ok parsed ∧
      ∀ e, parsed = .event e → ∃ w, e.written floats room.limits = .ok w) ↔
        Readable fromisoformat floats constant room stripped := by
  rw [parseStripped, Readable]
  cases loads floats (stockHooks constant) room.limits.scan stripped with
  | error e =>
    cases e with
    | decode =>
      refine iff_of_true ⟨_, rfl, fun e heq => ?_⟩ rfl
      cases heq
      exact written_flat rfl rfl room.encode_room
    | digits count => exact iff_of_false (fun h => nomatch h.choose_spec.1) nofun
    | hook e => exact e.elim
    | recursion => exact iff_of_false (fun h => nomatch h.choose_spec.1) nofun
  | ok v =>
    cases v with
    | obj record =>
      dsimp only
      cases fromRecord fromisoformat floats room.limits record with
      | ok e =>
        constructor
        · rintro ⟨_, heq, hwritten⟩
          exact hwritten e (Except.ok.inj heq).symm
        · intro hwritten
          refine ⟨_, rfl, fun e' heq => ?_⟩
          cases heq
          exact hwritten
      | error error =>
        cases error with
        | recursion_error =>
          exact iff_of_false (fun h => nomatch h.choose_spec.1) fun h => h rfl
        | type_error text => exact iff_of_true ⟨.corrupt _, rfl, fun e heq => nomatch heq⟩ nofun
        | value_error text => exact iff_of_true ⟨.corrupt _, rfl, fun e heq => nomatch heq⟩ nofun
    | _ => exact iff_of_true ⟨.corrupt _, rfl, fun e heq => nomatch heq⟩ trivial

/-- **Two readers** that read a text read it as the same. -/
theorem parseStripped_agree {stripped : List Char} {parsed parsed' : ParsedLine φ}
    (h : parseStripped fromisoformat floats constant room component stripped = .ok parsed)
    (h' : parseStripped fromisoformat floats constant room' component stripped = .ok parsed') :
    parsed = parsed' := by
  have hloads : loads floats (stockHooks constant) room.limits.scan stripped =
      loads floats (stockHooks constant) room'.limits.scan stripped := by
    refine loads_agree (fun hstop => ?_) fun hstop => ?_
    · rw [parseStripped, hstop] at h
      cases h
    · rw [parseStripped, hstop] at h'
      cases h'
  rw [parseStripped, hloads] at h
  rw [parseStripped] at h'
  cases hread : loads floats (stockHooks constant) room'.limits.scan stripped with
  | error e =>
    rw [hread] at h h'
    cases e with
    | decode => exact (Except.ok.inj h).symm.trans (Except.ok.inj h')
    | digits count => cases h
    | hook e => exact e.elim
    | recursion => cases h
  | ok v =>
    rw [hread] at h h'
    cases v with
    | obj record =>
      have hrecord : fromRecord fromisoformat floats room.limits record =
          fromRecord fromisoformat floats room'.limits record := by
        refine fromRecord_agree (fun hstop => ?_) fun hstop => ?_
        · simp only [hstop] at h
          cases h
        · simp only [hstop] at h'
          cases h'
      dsimp only at h h'
      rw [hrecord] at h
      exact Except.ok.inj (h.symm.trans h')
    | _ => exact (Except.ok.inj h).symm.trans (Except.ok.inj h')

/-! ## A file -/

/-- The lines of the bytes of a text, decoded. -/
def fileLines (text : List Char) : List (List Char) :=
  linesFrom (· == '\n') [] (universalNewlines text)

/-- **The lines of the bytes**, and of the text: each of the former taken apart. -/
theorem fileLines_eq {content : Bytes} {text : List Char} (hwhole : Whole content)
    (htext : decodeUtf8 content = some text) :
    (completeLines content).map decodeReplace = fileLines text ∧
      strLines (universalNewlines text) =
        (fileLines text).flatMap fun line => line.splitOnP isLineBoundary := by
  obtain rfl : content = utf8 text := decodeUtf8_eq_some_iff.mp htext
  constructor
  · have hlines := splitLinesFrom_utf8 text []
    rw [completeLines, hwhole, List.take_length, fileLines, splitLines]
    rw [utf8_nil] at hlines
    rw [hlines, List.map_map]
    exact List.map_id'' decodeReplace_utf8 _
  · rw [strLines_flatMap, universalNewlines_idem, fileLines]
    intro hne
    refine getLast?_universalNewlines _ (getLast?_of_whole hwhole ?_)
    rintro rfl
    exact hne rfl

/-- A line that both readers read as the same. -/
structure LineFits (fromisoformat : PyText → Option (Option Int)) (floats : FloatFormat φ)
    (constant : String → φ) (room room' : ReadRoom) (line : List Char) : Prop where
  unbroken : ∀ c ∈ stripChars line, isLineBoundary c = false
  reader : ∀ stripped, said line = some stripped →
    Readable fromisoformat floats constant room stripped
  cursor : ∀ stripped, said line = some stripped →
    Readable fromisoformat floats constant room' stripped

/-- Text, of whose lines every one is read as the same. -/
def FileFits (fromisoformat : PyText → Option (Option Int)) (floats : FloatFormat φ)
    (constant : String → φ) (room room' : ReadRoom) (content : Bytes) : Prop :=
  ∃ text, decodeUtf8 content = some text ∧
    ∀ line ∈ fileLines text, LineFits fromisoformat floats constant room room' line

/-- What both read of a file, and can tell the events of from others. -/
structure FileAgrees (fromisoformat : PyText → Option (Option Int)) (floats : FloatFormat φ)
    (constant : String → φ) (room room' : ReadRoom) (component : LogComponent) (content : Bytes)
    (read : FileRead φ) : Prop where
  reader : readText fromisoformat floats constant room component content = .ok read
  cursor : readBytes fromisoformat floats constant room' component (completeLines content) =
    .ok read
  reader_written : ∀ e ∈ read.events, ∃ w, e.written floats room.limits = .ok w
  cursor_written : ∀ e ∈ read.events, ∃ w, e.written floats room'.limits = .ok w

theorem mem_ofParsed_events {parsed : List (ParsedLine φ)} {e : LogEvent φ} :
    e ∈ (FileRead.ofParsed parsed).events ↔ .event e ∈ parsed := by
  rw [FileRead.ofParsed, List.mem_filterMap]
  constructor
  · rintro ⟨line, hline, heq⟩
    cases line with
    | event e' =>
      cases heq
      exact hline
    | blank => cases heq
    | corrupt error => cases heq
  · intro he
    exact ⟨_, he, rfl⟩

theorem readTexts_iff (component : LogComponent) {texts : List (List Char)} :
    (∃ parsed, tryAll (parseStripped fromisoformat floats constant room component) texts =
        .ok parsed ∧ ∀ e ∈ (FileRead.ofParsed parsed).events,
          ∃ w, e.written floats room.limits = .ok w) ↔
      ∀ stripped ∈ texts, Readable fromisoformat floats constant room stripped := by
  constructor
  · rintro ⟨parsed, hparsed, hwritten⟩ stripped hstripped
    obtain ⟨line, hline⟩ := tryAll_isOk_iff.mp ⟨parsed, hparsed⟩ stripped hstripped
    refine (parseStripped_iff component).mp ⟨line, hline, ?_⟩
    rintro e rfl
    exact hwritten e (mem_ofParsed_events.mpr
      ((mem_tryAll hparsed).mpr ⟨stripped, hstripped, hline⟩))
  · intro h
    have hread := fun stripped hstripped =>
      (parseStripped_iff component).mpr (h stripped hstripped)
    obtain ⟨parsed, hparsed⟩ := tryAll_isOk_iff.mpr fun stripped hstripped =>
      (hread stripped hstripped).imp fun _ h => h.1
    refine ⟨parsed, hparsed, fun e he => ?_⟩
    obtain ⟨stripped, hstripped, hline⟩ := (mem_tryAll hparsed).mp (mem_ofParsed_events.mp he)
    obtain ⟨line, hline', hwritten⟩ := hread stripped hstripped
    exact hwritten e (Except.ok.inj (hline'.symm.trans hline))

/-- **When both read the same of a file.** -/
theorem fileAgrees_iff {content : Bytes} (hwhole : Whole content) (component : LogComponent) :
    (∃ read, FileAgrees fromisoformat floats constant room room' component content read) ↔
      FileFits fromisoformat floats constant room room' content := by
  constructor
  · rintro ⟨read, h⟩
    obtain ⟨text, htext⟩ : ∃ text, decodeUtf8 content = some text := by
      have hreader := h.reader
      rw [readText] at hreader
      cases hdecode : decodeUtf8 content with
      | none =>
        rw [hdecode] at hreader
        cases hreader
      | some text => exact ⟨text, rfl⟩
    obtain ⟨hbytes, hlines⟩ := fileLines_eq hwhole htext
    have hreader := h.reader
    have hcursor := h.cursor
    rw [readText, htext] at hreader
    dsimp only at hreader
    rw [hlines] at hreader
    rw [readBytes, hbytes] at hcursor
    have hunbroken := unbroken_of_length isSpace_of_isLineBoundary
      ((readLines_length hreader).symm.trans (readLines_length hcursor))
    rw [readLines_eq, said_flatMap isSpace_of_isLineBoundary hunbroken] at hreader
    rw [readLines_eq] at hcursor
    obtain ⟨parsed, hparsed, rfl⟩ := map_ok_iff.mp hreader
    obtain ⟨parsed', hparsed', hread⟩ := map_ok_iff.mp hcursor
    have hreadable := (readTexts_iff component).mp ⟨parsed, hparsed, h.reader_written⟩
    have hreadable' := (readTexts_iff component).mp ⟨parsed', hparsed', hread ▸ h.cursor_written⟩
    refine ⟨text, htext, fun line hline => ⟨hunbroken line hline, ?_, ?_⟩⟩
    · exact fun stripped hsaid => hreadable stripped (List.mem_filterMap.mpr ⟨line, hline, hsaid⟩)
    · exact fun stripped hsaid => hreadable' stripped (List.mem_filterMap.mpr ⟨line, hline, hsaid⟩)
  · rintro ⟨text, htext, hfits⟩
    obtain ⟨hbytes, hlines⟩ := fileLines_eq hwhole htext
    have hunbroken := fun line hline => (hfits line hline).unbroken
    have htexts : ∀ room'' : ReadRoom, (∀ line ∈ fileLines text, ∀ stripped,
        said line = some stripped → Readable fromisoformat floats constant room'' stripped) →
          ∀ stripped ∈ (fileLines text).filterMap said,
            Readable fromisoformat floats constant room'' stripped := by
      intro room'' h stripped hstripped
      obtain ⟨line, hline, hsaid⟩ := List.mem_filterMap.mp hstripped
      exact h line hline stripped hsaid
    obtain ⟨parsed, hparsed, hwritten⟩ := (readTexts_iff component).mpr
      (htexts room fun line hline => (hfits line hline).reader)
    obtain ⟨parsed', hparsed', hwritten'⟩ := (readTexts_iff component).mpr
      (htexts room' fun line hline => (hfits line hline).cursor)
    obtain rfl : parsed = parsed' := tryAll_agree
      (fun _ _ _ _ => parseStripped_agree) hparsed hparsed'
    refine ⟨.ofParsed parsed, ?_, ?_, hwritten, hwritten'⟩
    · rw [readText, htext]
      dsimp only
      rw [hlines, readLines_eq, said_flatMap isSpace_of_isLineBoundary hunbroken, hparsed]
      rfl
    · rw [readBytes, hbytes, readLines_eq, hparsed']
      rfl

/-! ## All files -/

/-- The events of all files, in the order in which they are read. -/
def eventsOf (files : LogComponent → List (LogName × FileRead φ)) : List (LogEvent φ) :=
  logComponents.flatMap fun c => (files c).flatMap fun file => file.2.events

theorem mem_eventsOf {files : LogComponent → List (LogName × FileRead φ)} {e : LogEvent φ} :
    e ∈ eventsOf files ↔ ∃ c, ∃ file ∈ files c, e ∈ file.2.events := by
  simp only [eventsOf, List.mem_flatMap]
  constructor
  · rintro ⟨c, -, file, hfile, he⟩
    exact ⟨c, file, hfile, he⟩
  · rintro ⟨c, file, hfile, he⟩
    exact ⟨c, mem_logComponents c, file, hfile, he⟩

/-- The events with what tells them from others, by their time. -/
def keyedEvents (floats : FloatFormat φ) (limits : JsonLimits) (events : List (LogEvent φ)) :
    Except JsonError (List (LogEvent φ × PyText × List Char)) :=
  tryAll (fun e => (e.written floats limits).map (e, ·)) (events.insertionSort notAfter)

theorem keyedEvents_isOk_iff {limits : JsonLimits} {events : List (LogEvent φ)} :
    (∃ keyed, keyedEvents floats limits events = .ok keyed) ↔
      ∀ e ∈ events, ∃ w, e.written floats limits = .ok w := by
  have hmap : ∀ e : LogEvent φ, (∃ keyed, (e.written floats limits).map (e, ·) = .ok keyed) ↔
      ∃ w, e.written floats limits = .ok w := by
    intro e
    cases e.written floats limits with
    | error error => exact iff_of_false (fun h => nomatch h.choose_spec) fun h => nomatch h.choose_spec
    | ok w => exact iff_of_true ⟨_, rfl⟩ ⟨_, rfl⟩
  rw [keyedEvents, tryAll_isOk_iff]
  simp only [List.mem_insertionSort, hmap]

theorem keyedEvents_agree {limits limits' : JsonLimits} {events : List (LogEvent φ)}
    {keyed keyed' : List (LogEvent φ × PyText × List Char)}
    (h : keyedEvents floats limits events = .ok keyed)
    (h' : keyedEvents floats limits' events = .ok keyed') : keyed = keyed' := by
  refine tryAll_agree (fun e _ y z hy hz => ?_) h h'
  cases hw : e.written floats limits with
  | error error =>
    rw [hw] at hy
    cases hy
  | ok w =>
    cases hw' : e.written floats limits' with
    | error error =>
      rw [hw'] at hz
      cases hz
    | ok w' =>
      rw [hw] at hy
      rw [hw'] at hz
      rw [← Except.ok.inj hy, ← Except.ok.inj hz, written_agree hw hw']

/-- What a reader returns of files that it has read. -/
def viewOf (files : LogComponent → List (LogName × FileRead φ))
    (keyed : List (LogEvent φ × PyText × List Char)) : LogView φ where
  events := (reconcileKeyed {} keyed).1
  corrupt_records := logComponents.flatMap fun c => (files c).flatMap fun file =>
    reportLogReadCorruptions c file.1 file.2.corruptions
  identity_conflicts := reportLogIdentityConflicts (reconcileKeyed {} keyed).2

/-- **From the files to the view**: all events have to be told from others. -/
theorem viewLogs_ok_iff {reads : LogComponent → Except ReadError (List (LogName × FileRead φ))}
    {files : LogComponent → List (LogName × FileRead φ)} (h : ∀ c, reads c = .ok (files c))
    {view : LogView φ} : viewLogs floats room reads = .ok view ↔
      ∃ keyed, keyedEvents floats room.limits (eventsOf files) = .ok keyed ∧
        view = viewOf files keyed := by
  have hcomponents : ∀ cs : List LogComponent, tryAll (fun c => (reads c).map (c, ·)) cs =
      .ok (cs.map fun c => (c, files c)) := by
    intro cs
    induction cs with
    | nil => rfl
    | cons c cs ih => exact tryAll_cons_ok.mpr ⟨_, _, by rw [h c]; rfl, ih, rfl⟩
  rw [viewLogs, hcomponents, ok_bind, List.flatMap_map, List.flatMap_map]
  show Except.bind (Except.mapError _ (keyedEvents floats room.limits (eventsOf files))) _ = _ ↔ _
  cases keyedEvents floats room.limits (eventsOf files) with
  | error error => exact iff_of_false nofun fun h => nomatch h.choose_spec.1
  | ok keyed =>
    constructor
    · intro h
      exact ⟨keyed, rfl, (Except.ok.inj h).symm⟩
    · rintro ⟨_, h, rfl⟩
      cases h
      rfl

theorem active_path {dir : LogDir} (h : ∀ index, dir.files.get (.backup index) = none) :
    ((componentLogPaths dir).filterMap fun name => (dir.files.get name).map (name, ·)) =
      ((dir.files.get .active).map (LogName.active, ·)).toList := by
  rw [componentLogPaths, List.filterMap_append]
  have hbackups : ∀ indexes : List Nat, ((indexes.map LogName.backup).filterMap fun name =>
      (dir.files.get name).map (name, ·)) = [] := by
    intro indexes
    rw [List.filterMap_eq_nil_iff]
    intro name hname
    obtain ⟨index, -, rfl⟩ := List.mem_map.mp hname
    rw [h index]
    rfl
  rw [hbackups, List.nil_append, List.filterMap_cons, List.filterMap_nil]
  cases dir.files.get .active <;> rfl

variable {dirs : LogComponent → LogDir}

theorem textReads_eq (hbackups : ∀ index, (dirs component).files.get (.backup index) = none) :
    textReads fromisoformat floats constant room dirs component =
      match (dirs component).files.get .active with
      | none => .ok []
      | some file => (readText fromisoformat floats constant room component file.content).map
          fun read => [(.active, read)] := by
  rw [textReads, active_path hbackups]
  cases (dirs component).files.get .active with
  | none => rfl
  | some file =>
    dsimp only [Option.map_some, Option.toList_some]
    rw [tryAll]
    cases readText fromisoformat floats constant room component file.content <;> rfl

theorem byteReads_eq : byteReads fromisoformat floats constant room dirs component =
    match (dirs component).files.get .active with
    | none => .ok []
    | some file => (readBytes fromisoformat floats constant room component
        (completeLines file.content)).map fun read => [(.active, read)] := by
  rw [byteReads, readComponent]
  cases (dirs component).files.get .active with
  | none => rfl
  | some file =>
    dsimp only
    rw [if_neg fun h => h.1 rfl, if_neg (Nat.not_lt_zero _)]
    rfl

/-- The two readers read the same lines as the same, with the same invalid lines, and return the
    same. -/
structure ReadersAgree (fromisoformat : PyText → Option (Option Int)) (floats : FloatFormat φ)
    (constant : String → φ) (room room' : ReadRoom) (dirs : LogComponent → LogDir) : Prop where
  files : ∀ c, ∃ files, textReads fromisoformat floats constant room dirs c = .ok files ∧
    byteReads fromisoformat floats constant room' dirs c = .ok files
  view : ∃ view, readLogEvents fromisoformat floats constant room none dirs = .ok view ∧
    freshCursorEvents fromisoformat floats constant room' dirs = .ok view

theorem readLogEvents_none : readLogEvents fromisoformat floats constant room none dirs =
    viewLogs floats room (textReads fromisoformat floats constant room dirs) := by
  rw [readLogEvents]
  cases viewLogs floats room (textReads fromisoformat floats constant room dirs) <;> rfl

/-- What both read of the files of a component, and can tell the events of from others. -/
def ComponentAgrees (fromisoformat : PyText → Option (Option Int)) (floats : FloatFormat φ)
    (constant : String → φ) (room room' : ReadRoom) (dirs : LogComponent → LogDir)
    (c : LogComponent) (files : List (LogName × FileRead φ)) : Prop :=
  (textReads fromisoformat floats constant room dirs c = .ok files ∧
    byteReads fromisoformat floats constant room' dirs c = .ok files) ∧
      ∀ file ∈ files, ∀ e ∈ file.2.events,
        (∃ w, e.written floats room.limits = .ok w) ∧ ∃ w, e.written floats room'.limits = .ok w

theorem componentAgrees_iff
    (hbackups : ∀ index, (dirs component).files.get (.backup index) = none)
    (hwhole : ∀ file, (dirs component).files.get .active = some file → Whole file.content) :
    (∃ files, ComponentAgrees fromisoformat floats constant room room' dirs component files) ↔
      ∀ file, (dirs component).files.get .active = some file →
        FileFits fromisoformat floats constant room room' file.content := by
  simp only [ComponentAgrees, textReads_eq hbackups, byteReads_eq]
  cases hactive : (dirs component).files.get .active with
  | none => exact iff_of_true ⟨[], ⟨rfl, rfl⟩, nofun⟩ nofun
  | some file =>
    constructor
    · rintro ⟨files, ⟨hreader, hcursor⟩, hwritten⟩ file' heq
      obtain rfl : file = file' := Option.some.inj heq
      obtain ⟨read, hread, rfl⟩ := map_ok_iff.mp hreader
      obtain ⟨read', hread', hsame⟩ := map_ok_iff.mp hcursor
      obtain rfl : read' = read := congrArg Prod.snd (List.cons.inj hsame).1
      have hevents := hwritten _ (List.mem_singleton.mpr rfl)
      exact (fileAgrees_iff (hwhole file hactive) component).mp
        ⟨read', hread, hread', fun e he => (hevents e he).1, fun e he => (hevents e he).2⟩
    · intro h
      obtain ⟨read, hread⟩ := (fileAgrees_iff (hwhole file hactive) component).mpr (h file rfl)
      refine ⟨[(.active, read)], ⟨map_ok_iff.mpr ⟨read, hread.reader, rfl⟩,
        map_ok_iff.mpr ⟨read, hread.cursor, rfl⟩⟩, ?_⟩
      exact List.forall_mem_singleton.mpr fun e he =>
        ⟨hread.reader_written e he, hread.cursor_written e he⟩

/-- **The two readers agree** on logs that end in newlines, exactly if every log is text that both
    read line by line as the same. -/
theorem readers_agree_iff (fromisoformat : PyText → Option (Option Int)) (floats : FloatFormat φ)
    (constant : String → φ) (room room' : ReadRoom) (dirs : LogComponent → LogDir)
    (hbackups : ∀ c index, (dirs c).files.get (.backup index) = none)
    (hwhole : ∀ c file, (dirs c).files.get .active = some file → Whole file.content) :
    ReadersAgree fromisoformat floats constant room room' dirs ↔
      ∀ c file, (dirs c).files.get .active = some file →
        FileFits fromisoformat floats constant room room' file.content := by
  have hcomponents : (∀ c, ∃ files,
      ComponentAgrees fromisoformat floats constant room room' dirs c files) ↔ _ :=
    forall_congr' fun c => componentAgrees_iff (hbackups c) (hwhole c)
  rw [← hcomponents]
  constructor
  · intro h
    choose files hfiles using h.files
    obtain ⟨view, hreader, hcursor⟩ := h.view
    rw [readLogEvents_none, viewLogs_ok_iff fun c => (hfiles c).1] at hreader
    rw [freshCursorEvents, viewLogs_ok_iff fun c => (hfiles c).2] at hcursor
    obtain ⟨keyed, hkeyed, -⟩ := hreader
    obtain ⟨keyed', hkeyed', -⟩ := hcursor
    have hwritten := keyedEvents_isOk_iff.mp ⟨keyed, hkeyed⟩
    have hwritten' := keyedEvents_isOk_iff.mp ⟨keyed', hkeyed'⟩
    refine fun c => ⟨files c, hfiles c, fun file hfile e he => ?_⟩
    have hmem : e ∈ eventsOf files := mem_eventsOf.mpr ⟨c, file, hfile, he⟩
    exact ⟨hwritten e hmem, hwritten' e hmem⟩
  · intro h
    choose files hfiles hwritten using h
    have hevents : ∀ e ∈ eventsOf files, (∃ w, e.written floats room.limits = .ok w) ∧
        ∃ w, e.written floats room'.limits = .ok w := by
      intro e he
      obtain ⟨c, file, hfile, he⟩ := mem_eventsOf.mp he
      exact hwritten c file hfile e he
    obtain ⟨keyed, hkeyed⟩ := keyedEvents_isOk_iff.mpr fun e he => (hevents e he).1
    obtain ⟨keyed', hkeyed'⟩ := keyedEvents_isOk_iff.mpr fun e he => (hevents e he).2
    obtain rfl := keyedEvents_agree hkeyed hkeyed'
    refine ⟨fun c => ⟨files c, hfiles c⟩, viewOf files keyed, ?_, ?_⟩
    · rw [readLogEvents_none, viewLogs_ok_iff fun c => (hfiles c).1]
      exact ⟨keyed, hkeyed, rfl⟩
    · rw [freshCursorEvents, viewLogs_ok_iff fun c => (hfiles c).2]
      exact ⟨keyed, hkeyed', rfl⟩

end

/-! ## Runs -/

/-- A log of one component, and no others. -/
def logsOf (content : Bytes) : LogComponent → LogDir
  | .chat => ⟨Table.empty.set .active ⟨0, 1, content⟩, 1⟩
  | _ => .fresh

def stockRoom : ReadRoom := ⟨stockLimits, by decide⟩

/-- A plain line is the same to both. -/
theorem readers_agree_plain :
    ReadersAgree (fun _ => none) overflowFormat (fun _ => false) stockRoom stockRoom
      (logsOf [0x6f, 0x6b, 0x0a]) := by
  refine (readers_agree_iff (fun _ => none) overflowFormat (fun _ => false) stockRoom stockRoom
    (logsOf [0x6f, 0x6b, 0x0a]) (fun c index => by cases c <;> rfl) (fun c file h => ?_)).mpr
    fun c file h => ?_
  · cases c <;> cases h
    exact rfl
  · cases c <;> cases h
    have hreadable : Readable (fun _ => none) overflowFormat (fun _ => false) stockRoom
        ['o', 'k'] := by
      have hloads : loads overflowFormat (stockHooks fun _ => false) stockRoom.limits.scan
          ['o', 'k'] = .error .decode := rfl
      rw [Readable, hloads]
    refine ⟨['o', 'k', '\n'], rfl, List.forall_mem_singleton.mpr ⟨?_, ?_, ?_⟩⟩
    · exact List.forall_mem_cons.mpr ⟨rfl, List.forall_mem_singleton.mpr rfl⟩
    · intro stripped hsaid
      exact Option.some.inj hsaid ▸ hreadable
    · intro stripped hsaid
      exact Option.some.inj hsaid ▸ hreadable

/-- What a cursor reads of a byte that is no text. -/
def replacedFiles : LogComponent → List (LogName × FileRead Bool)
  | .chat => [(.active, ⟨[legacyEvent .chat ['\ufffd']], []⟩)]
  | _ => []

/-- A byte that is no text stops one reader and not the other; a plain line with a separator of lines
    in it is two events for the one and one event for the other. -/
theorem readers_disagree :
    readLogEvents (fun _ => none) overflowFormat (fun _ => false) stockRoom none
        (logsOf [0xff, 0x0a]) = .error .unicode_decode_error ∧
      (∃ view, freshCursorEvents (fun _ => none) overflowFormat (fun _ => false) stockRoom
        (logsOf [0xff, 0x0a]) = .ok view) ∧
      ((textReads (fun _ => none) overflowFormat (fun _ => false) stockRoom
        (logsOf [0x61, 0xe2, 0x80, 0xa8, 0x62, 0x0a]) .chat).toOption.map fun files =>
          files.map fun file => file.2.events.length) = some [2] ∧
      ((byteReads (fun _ => none) overflowFormat (fun _ => false) stockRoom
        (logsOf [0x61, 0xe2, 0x80, 0xa8, 0x62, 0x0a]) .chat).toOption.map fun files =>
          files.map fun file => file.2.events.length) = some [1] := by
  refine ⟨rfl, ?_, rfl, rfl⟩
  have hfiles : ∀ c, byteReads (fun _ => none) overflowFormat (fun _ => false) stockRoom
      (logsOf [0xff, 0x0a]) c = .ok (replacedFiles c) := by
    intro c
    cases c <;> rfl
  obtain ⟨keyed, hkeyed⟩ : ∃ keyed,
      keyedEvents overflowFormat stockRoom.limits (eventsOf replacedFiles) = .ok keyed := by
    refine keyedEvents_isOk_iff.mpr fun e he => ?_
    obtain rfl : e = legacyEvent .chat ['\ufffd'] := List.mem_singleton.mp he
    exact written_flat rfl rfl stockRoom.encode_room
  exact ⟨_, (viewLogs_ok_iff hfiles).mpr ⟨keyed, hkeyed, rfl⟩⟩

end NuSelf.Log.Record
