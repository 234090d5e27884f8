/-
  The request handler of the daemon socket: one frame in, one frame out.

  A connection is what `recv` gives, call by call (`Recv`), the end of the stream behind the last.
  The handler of the request is an input: what it returns carries the id of the request, as every
  response in the request handlers does.  Audits are left out; they never raise.

  What leaves `handle` as an exception leaves the client without a response.  That is so when a
  `RecursionError` comes out of the codec, which catches `ProtocolError` only, and when the
  fallback, which repeats the id of the request, is itself too long for a frame.

  1. `readSocketFrame_line` — a line that is received at once.
  2. `answer_iff` — when a response that was decided is answered.
  3. `oneResponse_iff` — when a frame is.
-/
import NuSelf.Daemon.Codec

namespace NuSelf.Daemon

open NuSelf.Lib NuSelf.Lib.JsonValue

/-! ## Receiving -/

/-- What a call of `recv` gives: bytes, none at the end of the stream, or an `OSError` with its
    `diagnostic_exception_chain`. -/
inductive Recv where
  | chunk (bytes : Bytes)
  | failed (chain : PyText)

inductive ReadError where
  | protocol (e : ProtocolError)
  | os (chain : PyText)

/-- The end of the stream. -/
def endOfStream (buffer : Bytes) : Except ReadError Bytes :=
  if buffer = [] then .error (.protocol peerDisconnected) else .error (.protocol incompleteFrame)

def readSocketFrame (buffer : Bytes) : List Recv → Except ReadError Bytes
  | [] => endOfStream buffer
  | .failed chain :: _ => .error (.os chain)
  | .chunk [] :: _ => endOfStream buffer
  | .chunk chunk :: rest =>
    match chunk.dropWhile (· != 10) with
    | newline :: behind =>
      let buffer := buffer ++ (chunk.takeWhile (· != 10) ++ [newline])
      if maxDaemonFrameBytes < buffer.length then .error (.protocol frameTooLarge)
      else if behind ≠ [] then .error (.protocol extraFrameData)
      else .ok buffer
    | [] =>
      let buffer := buffer ++ chunk
      if maxDaemonFrameBytes ≤ buffer.length then .error (.protocol frameTooLarge)
      else readSocketFrame buffer rest

/-- **A line** that is received at once. -/
theorem readSocketFrame_line {body : Bytes} (hbody : 10 ∉ body)
    (hlength : body.length < maxDaemonFrameBytes) :
    readSocketFrame [] [.chunk (body ++ [10])] = .ok (body ++ [10]) := by
  have hplain : ∀ b ∈ body, (b != 10) = true := by
    intro b hb
    rw [bne_iff_ne]
    rintro rfl
    exact hbody hb
  have htake : (body ++ [10]).takeWhile (· != 10) = body := by
    rw [List.takeWhile_append_of_pos hplain]
    exact List.append_nil body
  have hdrop : (body ++ [10]).dropWhile (· != 10) = [10] := by
    rw [List.dropWhile_append_of_pos hplain]
    rfl
  rw [readSocketFrame.eq_def]
  split
  · rename_i heq
    cases heq
  · rename_i heq
    cases heq
  · rename_i heq
    cases body <;> cases heq
  · rename_i heq
    cases heq
    rw [hdrop, htake]
    simp only [List.nil_append]
    rw [if_neg, if_neg]
    · exact fun hne => hne rfl
    · rw [List.length_append, List.length_singleton]
      omega

/-! ## The handler -/

/-- What the handler does with a request; an `Exception` by its `diagnostic_exception_chain`. -/
inductive HandlerOutcome {φ : Type} (request : DaemonRequest φ) where
  | returned (response : DaemonResponse φ) (echoes : response.request_id = request.request_id)
  | raised (chain : PyText)

section

variable {φ : Type}

/-- The response to a request that was decoded. -/
def HandlerOutcome.response {request : DaemonRequest φ} :
    HandlerOutcome request → DaemonResponse φ
  | .returned response _ => response
  | .raised chain => .fail request.request_id chain

def ProtocolErrorClass.name : ProtocolErrorClass → String
  | .protocolError => "ProtocolError"
  | .peerDisconnected => "DaemonPeerDisconnected"
  | .frameTooLarge => "DaemonFrameTooLarge"
  | .incompleteFrame => "DaemonIncompleteFrame"
  | .extraFrameData => "DaemonExtraFrameData"

variable (floats : FloatFormat φ) (diagnostics : Diagnostics) (server : Interpreter)

/-- The response to a request that was not decoded. -/
def undecoded (e : ProtocolError) : DaemonResponse φ :=
  .fail (pyText "unknown") (diagnostics.message e.cls.name e.text)

/-- `request_id or "unknown"`. -/
def orUnknown : Option PyText → PyText
  | some (p :: rest) => p :: rest
  | _ => pyText "unknown"

/-- The frames that are written for a response that was decided. -/
def answer (request_id : Option PyText) (response : DaemonResponse φ) : List Bytes :=
  match response.toJsonLine floats server with
  | .ok frame => [frame]
  | .error (.protocol _) =>
    match (DaemonResponse.fail (orUnknown request_id) encodingFailed).toJsonLine floats server with
    | .ok frame => [frame]
    | .error _ => []
  | .error _ => []

/-- `RequestHandler.handle`: the frames that are written. -/
def handle (handler : (request : DaemonRequest φ) → HandlerOutcome request) (recv : List Recv) :
    List Bytes :=
  match readSocketFrame [] recv with
  | .error (.protocol e) =>
    if e.cls = .peerDisconnected then [] else answer floats server none (undecoded diagnostics e)
  | .error (.os chain) => answer floats server none (.fail (pyText "unknown") chain)
  | .ok raw_line =>
    match DaemonRequest.fromJsonLine floats diagnostics server raw_line with
    | .error (.protocol e) => answer floats server none (undecoded diagnostics e)
    | .error _ => []
    | .ok request => answer floats server (some request.request_id) (handler request).response

/-! ## One response -/

variable (client : Interpreter) (client_diagnostics : Diagnostics)

/-- One frame, short enough, that the client decodes to a response with this id. -/
def AnsweredAs (frames : List Bytes) (request_id : PyText) : Prop :=
  ∃ frame response, frames = [frame] ∧ frame.length ≤ maxDaemonFrameBytes ∧
    DaemonResponse.fromJsonLine floats client_diagnostics client frame = .ok response ∧
    response.request_id = request_id

/-- The frame is answered: with the id of the request, if there is one. -/
def OneResponse (handler : (request : DaemonRequest φ) → HandlerOutcome request)
    (recv : List Recv) : Prop :=
  ∃ request_id, AnsweredAs floats client client_diagnostics
      (handle floats diagnostics server handler recv) request_id ∧
    ∀ raw_line request, readSocketFrame [] recv = .ok raw_line →
      DaemonRequest.fromJsonLine floats diagnostics server raw_line = .ok request →
        request_id = request.request_id

/-- A response with this id has a line that the client can read; or it is refused with a
    `ProtocolError`, and the fallback fits. -/
structure Deliverable (request_id : PyText) (response : DaemonResponse φ) : Prop where
  refused : ∀ e, response.toJsonLine floats server = .error e →
    e.isProtocol = true ∧ FallbackFits request_id
  readable : ∀ frame, response.toJsonLine floats server = .ok frame → Readable client response

/-- The frame does not nest too deep for the server; and the response to its request, if it is
    one, can be delivered. -/
structure Answerable (handler : (request : DaemonRequest φ) → HandlerOutcome request)
    (recv : List Recv) : Prop where
  decodes : ∀ raw_line e, readSocketFrame [] recv = .ok raw_line →
    DaemonRequest.fromJsonLine floats diagnostics server raw_line = .error e → e.isProtocol = true
  delivers : ∀ raw_line request, readSocketFrame [] recv = .ok raw_line →
    DaemonRequest.fromJsonLine floats diagnostics server raw_line = .ok request →
      Deliverable floats server client request.request_id (handler request).response

variable {floats diagnostics server client client_diagnostics}

theorem HandlerOutcome.response_id {request : DaemonRequest φ} (outcome : HandlerOutcome request) :
    outcome.response.request_id = request.request_id := by
  cases outcome with
  | returned response echoes => exact echoes
  | raised chain => rfl

theorem answeredAs_line {response : DaemonResponse φ} {frame : Bytes}
    (hline : response.toJsonLine floats server = .ok frame) (hjoined : Joined response.request_id) :
    AnsweredAs floats client client_diagnostics [frame] response.request_id ↔
      Readable client response := by
  have hlineOf := toJsonLine_ok hline
  constructor
  · rintro ⟨frame', r, hframe, -, hdecode, -⟩
    cases hframe
    exact ((fromJsonLine_line hlineOf r).mp hdecode).1
  · intro hreadable
    exact ⟨frame, response.joined, rfl, hlineOf.fits,
      (fromJsonLine_line hlineOf _).mpr ⟨hreadable, rfl⟩, hjoined⟩

theorem answeredAs_fallback {request_id : PyText} (hblank : blankText request_id = false)
    (hjoined : Joined request_id) :
    AnsweredAs floats client client_diagnostics
        (match (DaemonResponse.fail request_id encodingFailed).toJsonLine floats server with
        | .ok frame => [frame]
        | .error _ => []) request_id ↔
      FallbackFits request_id := by
  have hline : (DaemonResponse.fail request_id encodingFailed).toJsonLine floats server = _ :=
    fail_toJsonLine hblank encodingFailed
  rw [fallback_length] at hline
  cases hfail : (DaemonResponse.fail request_id encodingFailed).toJsonLine floats server with
  | ok frame =>
    rw [hfail] at hline
    refine iff_of_true ((answeredAs_line hfail hjoined).mpr (fail_readable client _ _)) ?_
    split at hline
    · cases hline
    · exact Nat.not_lt.mp (by assumption)
  | error e =>
    rw [hfail] at hline
    refine iff_of_false (fun ⟨frame, r, hframe, _⟩ => nomatch hframe) fun hfits => ?_
    rw [if_neg (Nat.not_lt.mpr hfits)] at hline
    cases hline

/-- **A response that was decided** is answered exactly if it can be delivered. -/
theorem answer_iff {request_id : Option PyText} {response : DaemonResponse φ}
    (hid : orUnknown request_id = response.request_id)
    (hblank : blankText response.request_id = false) (hjoined : Joined response.request_id) :
    AnsweredAs floats client client_diagnostics (answer floats server request_id response)
        response.request_id ↔
      Deliverable floats server client response.request_id response := by
  rw [answer]
  cases hline : response.toJsonLine floats server with
  | ok frame =>
    simp only
    rw [answeredAs_line hline hjoined]
    exact ⟨fun hreadable => ⟨fun e he => (nomatch hline.symm.trans he), fun _ _ => hreadable⟩,
      fun hdeliverable => hdeliverable.readable frame hline⟩
  | error e =>
    cases e with
    | protocol e =>
      simp only
      rw [hid, answeredAs_fallback hblank hjoined]
      constructor
      · intro hfits
        refine ⟨fun e' he' => ?_, fun frame hframe => nomatch hline.symm.trans hframe⟩
        cases hline.symm.trans he'
        exact ⟨rfl, hfits⟩
      · exact fun hdeliverable => (hdeliverable.refused _ hline).2
    | valueError | recursionError =>
      refine iff_of_false (fun ⟨frame, r, hframe, _⟩ => nomatch hframe) fun hdeliverable => ?_
      cases (hdeliverable.refused _ hline).1

theorem fail_deliverable {request_id : PyText} (hblank : blankText request_id = false)
    (hfits : FallbackFits request_id) (error : PyText) :
    Deliverable floats server client request_id (DaemonResponse.fail request_id error) where
  refused e he := by
    rw [fail_toJsonLine hblank] at he
    split at he
    · cases he
      exact ⟨rfl, hfits⟩
    · cases he
  readable _ _ := fail_readable client request_id error

theorem unknown_fits : FallbackFits (pyText "unknown") := by
  unfold FallbackFits maxDaemonFrameBytes
  decide

theorem answer_unknown (error : PyText) :
    AnsweredAs floats client client_diagnostics
      (answer floats server none (DaemonResponse.fail (pyText "unknown") error))
      (pyText "unknown") := by
  let response : DaemonResponse φ := .fail (pyText "unknown") error
  have hjoined : Joined response.request_id := join_pyText "unknown"
  have hdeliverable : Deliverable floats server client response.request_id response :=
    fail_deliverable rfl unknown_fits error
  exact (answer_iff rfl rfl hjoined).mpr hdeliverable

/-- **The response to a request** is answered under its id exactly if it can be delivered. -/
theorem answer_request_iff {raw_line : Bytes} {request : DaemonRequest φ}
    (hdecode : DaemonRequest.fromJsonLine floats diagnostics server raw_line = .ok request)
    (outcome : HandlerOutcome request) :
    AnsweredAs floats client client_diagnostics
        (answer floats server (some request.request_id) outcome.response) request.request_id ↔
      Deliverable floats server client request.request_id outcome.response := by
  obtain ⟨hblank, hjoined⟩ := request_id_spec hdecode
  have hid : orUnknown (some request.request_id) = request.request_id := by
    cases hempty : request.request_id with
    | nil =>
      rw [hempty] at hblank
      cases hblank
    | cons p rest => rfl
  have hecho := outcome.response_id
  rw [← hecho] at hblank hjoined hid ⊢
  exact answer_iff (hecho ▸ hid) hblank hjoined

/-- **A frame is answered** exactly if it is answerable. -/
theorem oneResponse_iff (floats : FloatFormat φ) (diagnostics : Diagnostics) (server : Interpreter)
    (client : Interpreter) (client_diagnostics : Diagnostics)
    (handler : (request : DaemonRequest φ) → HandlerOutcome request) (recv : List Recv)
    (hreceived : ∀ e, readSocketFrame [] recv = .error (.protocol e) → e.cls ≠ .peerDisconnected) :
    OneResponse floats diagnostics server client client_diagnostics handler recv ↔
      Answerable floats diagnostics server client handler recv := by
  rw [OneResponse, handle]
  cases hread : readSocketFrame [] recv with
  | error e =>
    have hanswerable : Answerable floats diagnostics server client handler recv :=
      ⟨fun raw_line e hok => (nomatch hread.symm.trans hok),
        fun raw_line request hok => (nomatch hread.symm.trans hok)⟩
    refine iff_of_true ⟨pyText "unknown", ?_, fun raw_line request hok => nomatch hok⟩ hanswerable
    cases e with
    | protocol e =>
      simp only
      rw [if_neg (hreceived e hread)]
      exact answer_unknown _
    | os chain => exact answer_unknown chain
  | ok raw_line =>
    simp only
    cases hdecode : DaemonRequest.fromJsonLine floats diagnostics server raw_line with
    | error e =>
      have hdelivers : ∀ raw_line' request, readSocketFrame [] recv = .ok raw_line' →
          DaemonRequest.fromJsonLine floats diagnostics server raw_line' = .ok request →
            Deliverable floats server client request.request_id (handler request).response := by
        intro raw_line' request hok hrequest
        cases hread.symm.trans hok
        cases hdecode.symm.trans hrequest
      cases e with
      | protocol e =>
        have hanswerable : Answerable floats diagnostics server client handler recv := by
          refine ⟨fun raw_line' e' hok herror => ?_, hdelivers⟩
          cases hread.symm.trans hok
          cases hdecode.symm.trans herror
          rfl
        refine iff_of_true ⟨pyText "unknown", answer_unknown _, ?_⟩ hanswerable
        intro raw_line' request hok hrequest
        cases hok
        cases hdecode.symm.trans hrequest
      | valueError | recursionError =>
        refine iff_of_false (fun ⟨request_id, ⟨frame, r, hframe, _⟩, _⟩ => nomatch hframe) ?_
        intro hanswerable
        cases hanswerable.decodes raw_line _ hread hdecode
    | ok request =>
      have hanswer : AnsweredAs floats client client_diagnostics _ request.request_id ↔ _ :=
        answer_request_iff hdecode (handler request)
      simp only
      constructor
      · rintro ⟨request_id, hanswered, hsame⟩
        obtain rfl : request_id = request.request_id := hsame raw_line request rfl hdecode
        refine ⟨fun raw_line' e hok herror => ?_, fun raw_line' request' hok hrequest => ?_⟩
        · cases hread.symm.trans hok
          cases hdecode.symm.trans herror
        · cases hread.symm.trans hok
          cases hdecode.symm.trans hrequest
          exact hanswer.mp hanswered
      · intro hanswerable
        refine ⟨_, hanswer.mpr (hanswerable.delivers raw_line request hread hdecode), ?_⟩
        intro raw_line' request' hok hrequest
        cases hok
        cases hdecode.symm.trans hrequest
        rfl

end

/-! ## Frames that are answered, and frames that are not -/

/-- Room for a thousand levels. -/
def stockInterpreter : Interpreter where
  scan := 1000
  encode := 1000
  validate := 1000
  scan_room := by decide
  encode_room := by decide
  validate_room := by decide

/-- A number type with nothing but zero. -/
def zeroFormat : FloatFormat Unit where
  parse _ := ()
  repr _ := { whole := ['0'], fraction := ['0'] }
  isFinite _ := true
  repr_wellFormed _ _ :=
    { whole_digits := List.all_eq_true.mp rfl, no_leading_zero := Or.inl rfl
      fraction_digits := List.all_eq_true.mp rfl, exponent_digits := nofun }
  repr_isFloat _ _ := rfl
  parse_repr _ _ := rfl

def plainDiagnostics : Diagnostics where
  redact text := text
  json_decode_error _ := pyText "Expecting value: line 1 column 1 (char 0)"

/-- A handler that has nothing to say. -/
def emptyHandler (request : DaemonRequest Unit) : HandlerOutcome request :=
  .returned { request_id := request.request_id, status := .ok } rfl

/-- An empty line is answered. -/
theorem empty_line_answered :
    OneResponse zeroFormat plainDiagnostics stockInterpreter stockInterpreter plainDiagnostics
      emptyHandler [.chunk [10]] := by
  have hread : readSocketFrame [] [.chunk [10]] = .ok [10] := rfl
  have hdecode : DaemonRequest.fromJsonLine zeroFormat plainDiagnostics stockInterpreter [10] =
      .error (scanFailure plainDiagnostics ['\n'] .decode) := by
    have hutf8 : decodeUtf8 [10] = some ['\n'] := decodeUtf8_encodeUtf8 ['\n']
    have hframe : validateJsonLineFrame [10] = .ok () := rfl
    rw [DaemonRequest.fromJsonLine, decodeJsonObject, hframe]
    simp only [Except.mapError, Bind.bind, Except.bind, hutf8]
    rfl
  refine (oneResponse_iff _ _ _ _ _ _ _ fun e he => by cases hread.symm.trans he).mpr ⟨?_, ?_⟩
  · intro raw_line e hok herror
    cases hread.symm.trans hok
    cases hdecode.symm.trans herror
    rfl
  · intro raw_line request hok hrequest
    cases hread.symm.trans hok
    cases hdecode.symm.trans hrequest

section

variable {φ : Type} {floats : FloatFormat φ} {diagnostics : Diagnostics} {server : Interpreter}

/-- Lists in each other, one more than the limit. -/
def deepLine (limit : Nat) : List Char :=
  List.replicate (limit + 1) '[' ++ List.replicate (limit + 1) ']'

theorem deepLine_printable (limit : Nat) : ∀ c ∈ deepLine limit, Printable c := by
  rw [deepLine, List.forall_mem_append]
  constructor
  · intro c hc
    rw [List.eq_of_mem_replicate hc]
    decide
  · intro c hc
    rw [List.eq_of_mem_replicate hc]
    decide

theorem deepLine_length (limit : Nat) : (encodeUtf8 (deepLine limit)).length = 2 * limit + 2 := by
  rw [(encodeUtf8_printable (deepLine_printable limit)).1, deepLine, List.length_append,
    List.length_replicate, List.length_replicate]
  omega

theorem loads_deepLine (limit : Nat) :
    loads floats (frameHooks : ScanHooks HookError φ) limit (deepLine limit ++ ['\n']) =
      .error .recursion := by
  have hopens : Opens (List.replicate (limit + 1) '[' ++
      (List.replicate (limit + 1) ']' ++ ['\n'])) := ⟨'[', _, rfl, rfl, by decide⟩
  rw [loads, deepLine, List.append_assoc, hopens.skipSpace, scanValue_brackets]
  rfl

/-- **Too many lists in each other** leave the server without an answer. -/
theorem handle_deepLine (handler : (request : DaemonRequest φ) → HandlerOutcome request)
    (hfits : 2 * server.scan + 2 < maxDaemonFrameBytes) :
    handle floats diagnostics server handler
      [.chunk (encodeUtf8 (deepLine server.scan ++ ['\n']))] = [] := by
  have hprintable := deepLine_printable server.scan
  have hlength := deepLine_length server.scan
  have hnewline := (encodeUtf8_printable hprintable).2
  have hread : readSocketFrame [] [.chunk (encodeUtf8 (deepLine server.scan ++ ['\n']))] =
      .ok (encodeUtf8 (deepLine server.scan ++ ['\n'])) := by
    rw [encodeUtf8_newline]
    exact readSocketFrame_line hnewline (by omega)
  have hframe := validateJsonLineFrame_ok hprintable (by
    rw [encodeUtf8_newline, List.length_append, hlength]
    exact hfits)
  have hdecode : DaemonRequest.fromJsonLine floats diagnostics server
      (encodeUtf8 (deepLine server.scan ++ ['\n'])) = .error .recursionError := by
    rw [DaemonRequest.fromJsonLine, decodeJsonObject, hframe]
    simp only [Except.mapError, Bind.bind, Except.bind, decodeUtf8_encodeUtf8, loads_deepLine]
    rfl
  rw [handle, hread]
  simp only
  rw [hdecode]

end

/-- Two kilobytes of brackets, to a server with room for a thousand levels. -/
theorem deep_line_unanswered :
    (encodeUtf8 (deepLine stockInterpreter.scan)).length = 2002 ∧
      ¬ OneResponse zeroFormat plainDiagnostics stockInterpreter stockInterpreter plainDiagnostics
        emptyHandler [.chunk (encodeUtf8 (deepLine stockInterpreter.scan ++ ['\n']))] := by
  refine ⟨deepLine_length _, ?_⟩
  rintro ⟨request_id, ⟨frame, response, hframe, -⟩, -⟩
  have hsilent : handle zeroFormat plainDiagnostics stockInterpreter emptyHandler
      [.chunk (encodeUtf8 (deepLine stockInterpreter.scan ++ ['\n']))] = [] :=
    handle_deepLine _ (by decide)
  rw [hsilent] at hframe
  cases hframe

end NuSelf.Daemon
