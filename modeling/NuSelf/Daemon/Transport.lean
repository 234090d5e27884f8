/-
  The two directions of the transport: one bounded frame is received, one frame is written.

  `receiveFrame` is `read_socket_frame` with its retries.  A timeout that is retried leaves the
  buffer alone, so the loop comes to what it comes to without the timeouts (`receiveFrame_eq`), and
  the rest is about `readSocketFrame`.

  1. `readSocketFrame_pieces` — the crux: whatever the cuts, a frame that is short enough comes out
     whole, and any other is refused.  The loop keeps its buffer below the limit and free of
     newlines, so the length is decided by the last piece or before.
  2. `readSocketFrame_frame` — what comes out is one frame within the limit.
  3. `writeStreamFrame_prefix` — what is written is the frame, or its beginning and an exception.
-/
import NuSelf.Daemon.SocketServer
import NuSelf.Lib.PartialWrites

namespace NuSelf.Daemon

open NuSelf.Lib

/-! ## Receiving, with retries -/

/-- What a call of `recv` comes to; for a `TimeoutError`, what `retry_timeout` then says. -/
inductive RecvCall where
  | received (bytes : Bytes)
  | timedOut (chain : PyText) (retry_timeout : Bool)
  | failed (chain : PyText)

/-- `read_socket_frame`. -/
def receiveFrame (buffer : Bytes) : List RecvCall → Except ReadError Bytes
  | [] => endOfStream buffer
  | .timedOut chain retry_timeout :: rest =>
    if retry_timeout then receiveFrame buffer rest else .error (.os chain)
  | .failed chain :: _ => .error (.os chain)
  | .received [] :: _ => endOfStream buffer
  | .received chunk :: rest =>
    match chunk.dropWhile (· != 10) with
    | newline :: behind =>
      let buffer := buffer ++ (chunk.takeWhile (· != 10) ++ [newline])
      if maxDaemonFrameBytes < buffer.length then .error (.protocol frameTooLarge)
      else if behind ≠ [] then .error (.protocol extraFrameData)
      else .ok buffer
    | [] =>
      let buffer := buffer ++ chunk
      if maxDaemonFrameBytes ≤ buffer.length then .error (.protocol frameTooLarge)
      else receiveFrame buffer rest

/-- A call, unless it is made again. -/
def RecvCall.settled : RecvCall → Option Recv
  | .received bytes => some (.chunk bytes)
  | .timedOut chain retry_timeout => if retry_timeout then none else some (.failed chain)
  | .failed chain => some (.failed chain)

/-- **Retries leave no trace.** -/
theorem receiveFrame_eq (calls : List RecvCall) : ∀ buffer : Bytes,
    receiveFrame buffer calls = readSocketFrame buffer (calls.filterMap RecvCall.settled) := by
  induction calls with
  | nil => exact fun _ => rfl
  | cons call rest ih =>
    intro buffer
    cases call with
    | failed chain => rfl
    | timedOut chain retry_timeout =>
      cases retry_timeout with
      | false => rfl
      | true => exact ih buffer
    | received bytes =>
      cases bytes with
      | nil => rfl
      | cons b bytes =>
        rw [List.filterMap_cons]
        simp only [RecvCall.settled, receiveFrame, readSocketFrame]
        cases (b :: bytes).dropWhile (· != 10) with
        | cons newline behind => rfl
        | nil =>
          simp only
          rw [ih]

/-! ## One frame, in pieces -/

theorem not_newline {bytes : Bytes} (h : 10 ∉ bytes) : ∀ b ∈ bytes, (b != 10) = true := by
  intro b hb
  rw [bne_iff_ne]
  rintro rfl
  exact h hb

theorem readSocketFrame_nil (buffer : Bytes) (rest : List Recv) :
    readSocketFrame buffer (.chunk [] :: rest) = endOfStream buffer := by
  rw [readSocketFrame]

/-- A piece without a newline is kept, as long as there is room for one byte more. -/
theorem readSocketFrame_more {chunk : Bytes} (hne : chunk ≠ []) (hchunk : 10 ∉ chunk)
    (buffer : Bytes) (rest : List Recv) :
    readSocketFrame buffer (.chunk chunk :: rest) =
      if maxDaemonFrameBytes ≤ (buffer ++ chunk).length then .error (.protocol frameTooLarge)
      else readSocketFrame (buffer ++ chunk) rest := by
  have hdrop : chunk.dropWhile (· != 10) = [] :=
    List.dropWhile_eq_nil_iff.mpr (not_newline hchunk)
  cases chunk with
  | nil => exact absurd rfl hne
  | cons b bytes =>
    rw [readSocketFrame]
    · rw [hdrop]
    · exact nofun

theorem readSocketFrame_newline {body : Bytes} (hbody : 10 ∉ body) (buffer behind : Bytes)
    (rest : List Recv) :
    readSocketFrame buffer (.chunk (body ++ 10 :: behind) :: rest) =
      if maxDaemonFrameBytes < (buffer ++ (body ++ [10])).length then
        .error (.protocol frameTooLarge)
      else if behind ≠ [] then .error (.protocol extraFrameData)
      else .ok (buffer ++ (body ++ [10])) := by
  have hplain := not_newline hbody
  have htake : (body ++ 10 :: behind).takeWhile (· != 10) = body := by
    rw [List.takeWhile_append_of_pos hplain]
    exact List.append_nil body
  have hdrop : (body ++ 10 :: behind).dropWhile (· != 10) = 10 :: behind := by
    rw [List.dropWhile_append_of_pos hplain]
    rfl
  obtain ⟨b, bytes, hcons⟩ : ∃ b bytes, body ++ 10 :: behind = b :: bytes := by
    cases body with
    | nil => exact ⟨_, _, rfl⟩
    | cons b body => exact ⟨_, _, rfl⟩
  rw [hcons] at htake hdrop ⊢
  rw [readSocketFrame]
  · rw [hdrop, htake]
  · exact nofun

/-- **The crux.**  What is in the buffer and what is still to come make one frame. -/
theorem readSocketFrame_pieces (behind : List Recv) (chunks : List Bytes) :
    ∀ buffer rest : Bytes, 10 ∉ rest → buffer.length < maxDaemonFrameBytes →
      (∀ chunk ∈ chunks, chunk ≠ []) → chunks.flatten = rest ++ [10] →
        readSocketFrame buffer (chunks.map .chunk ++ behind) =
          if (buffer ++ (rest ++ [10])).length ≤ maxDaemonFrameBytes then
            .ok (buffer ++ (rest ++ [10]))
          else .error (.protocol frameTooLarge) := by
  induction chunks with
  | nil =>
    intro buffer rest _ _ _ hflat
    exact absurd hflat.symm (List.append_ne_nil_of_right_ne_nil _ (List.cons_ne_nil _ _))
  | cons chunk chunks ih =>
    intro buffer rest hrest hbuffer hne hflat
    obtain ⟨hchunk, hchunks⟩ := List.forall_mem_cons.mp hne
    rw [List.flatten_cons] at hflat
    rw [List.map_cons, List.cons_append]
    rcases List.append_eq_append_iff.mp hflat with ⟨more, hmore, hlast⟩ | ⟨more, hmore, hlast⟩
    · -- the piece ends within the frame
      have hplain : 10 ∉ chunk := by
        intro hmem
        exact hrest (hmore ▸ List.mem_append_left _ hmem)
      rw [readSocketFrame_more hchunk hplain, hmore]
      split
      · rename_i hfull
        rw [if_neg]
        simp only [List.length_append, List.length_singleton] at hfull ⊢
        omega
      · rename_i hroom
        rw [ih (buffer ++ chunk) more (fun hmem => hrest (hmore ▸ List.mem_append_right _ hmem))
          (Nat.not_le.mp hroom) hchunks hlast]
        simp only [List.append_assoc]
    · -- the piece goes up to the newline, or it is the last but for the newline
      cases more with
      | nil =>
        have hplain : 10 ∉ chunk := by
          rw [hmore, List.append_nil]
          exact hrest
        have hflat : chunks.flatten = [] ++ [10] := hlast.symm
        rw [List.append_nil] at hmore
        rw [readSocketFrame_more hchunk hplain, hmore]
        split
        · rename_i hfull
          rw [if_neg]
          simp only [List.length_append, List.length_singleton] at hfull ⊢
          omega
        · rename_i hroom
          rw [ih (buffer ++ rest) [] List.not_mem_nil (Nat.not_le.mp hroom) hchunks hflat]
          simp only [List.append_assoc, List.nil_append]
      | cons b more =>
        obtain ⟨rfl, hnil⟩ := List.cons.inj hlast
        obtain ⟨rfl, -⟩ := List.append_eq_nil_iff.mp hnil.symm
        rw [hmore, readSocketFrame_newline hrest]
        split
        · rename_i hlong
          rw [if_neg (Nat.not_le.mpr hlong)]
        · rename_i hshort
          rw [if_neg (fun hne => hne rfl), if_pos (Nat.not_lt.mp hshort)]

/-- **What comes out** is one frame within the limit. -/
theorem readSocketFrame_frame (recv : List Recv) : ∀ (buffer frame : Bytes), 10 ∉ buffer →
    readSocketFrame buffer recv = .ok frame →
      ∃ body, frame = body ++ [10] ∧ 10 ∉ body ∧ frame.length ≤ maxDaemonFrameBytes := by
  have hend : ∀ {buffer frame : Bytes}, endOfStream buffer ≠ .ok frame := by
    intro buffer frame
    rw [endOfStream]
    split <;> exact nofun
  induction recv with
  | nil => exact fun _ _ _ h => absurd h hend
  | cons call rest ih =>
    intro buffer frame hbuffer h
    cases call with
    | failed chain => cases h
    | chunk bytes =>
      by_cases hnewline : 10 ∈ bytes
      · obtain ⟨body, behind, rfl, hbody⟩ := List.eq_append_cons_of_mem hnewline
        rw [readSocketFrame_newline hbody] at h
        split at h
        · cases h
        · rename_i hshort
          split at h
          · cases h
          · cases h
            refine ⟨buffer ++ body, ?_, ?_, Nat.not_lt.mp hshort⟩
            · rw [List.append_assoc]
            · rw [List.mem_append, not_or]
              exact ⟨hbuffer, hbody⟩
      · by_cases hne : bytes = []
        · rw [hne, readSocketFrame_nil] at h
          exact absurd h hend
        · rw [readSocketFrame_more hne hnewline] at h
          split at h
          · cases h
          · refine ih _ frame ?_ h
            rw [List.mem_append, not_or]
            exact ⟨hbuffer, hnewline⟩

theorem validateJsonLineFrame_frame {body : Bytes} (hbody : 10 ∉ body)
    (hlength : (body ++ [10]).length ≤ maxDaemonFrameBytes) :
    validateJsonLineFrame (body ++ [10]) = .ok () := by
  rw [validateJsonLineFrame, if_neg, if_neg (Nat.not_lt.mpr hlength), if_neg, if_neg]
  · rw [List.dropLast_concat]
    exact hbody
  · rw [List.getLast?_concat]
    exact fun hne => hne rfl
  · exact List.append_ne_nil_of_right_ne_nil _ (List.cons_ne_nil _ _)

/-! ## Writing -/

inductive StreamError where
  /-- A call of `write` has returned `None` or nothing positive. -/
  | noProgress
  | os (chain : PyText)

/-- What has been done to the stream, and how the call ended. -/
structure StreamWrite where
  sent : Bytes
  flushes : Nat
  result : Except StreamError Unit

def writeStreamFrame (calls : List (WriteCall PyText)) (flush : Except PyText Unit)
    (frame : Bytes) : StreamWrite :=
  match writeAll calls frame with
  | (sent, .complete) => { sent, flushes := 1, result := flush.mapError .os }
  | (sent, .stuck) => { sent, flushes := 0, result := .error .noProgress }
  | (sent, .raised chain) => { sent, flushes := 0, result := .error (.os chain) }

/-- **Where every call makes progress**, the frame is written and the stream flushed. -/
theorem writeStreamFrame_progress {calls : List (WriteCall PyText)}
    (hcalls : ∀ call ∈ calls, call.progresses = true) (flush : Except PyText Unit) (frame : Bytes) :
    writeStreamFrame calls flush frame =
      { sent := frame, flushes := 1, result := flush.mapError .os } := by
  have hcomplete := writeAll_progress calls frame hcalls
  have hsent := writeAll_complete calls frame hcomplete
  rw [writeStreamFrame]
  cases hwrite : writeAll calls frame with
  | mk sent ended =>
    rw [hwrite] at hcomplete hsent
    obtain rfl : ended = .complete := hcomplete
    obtain rfl : sent = frame := hsent
    rfl

/-- **What is written** is the frame up to some point; all of it, if the call returns. -/
theorem writeStreamFrame_prefix (calls : List (WriteCall PyText)) (flush : Except PyText Unit)
    (frame : Bytes) :
    (writeStreamFrame calls flush frame).sent <+: frame ∧
      ((writeStreamFrame calls flush frame).result = .ok () →
        (writeStreamFrame calls flush frame).sent = frame ∧
          (writeStreamFrame calls flush frame).flushes = 1) := by
  have hsent := writeAll_prefix calls frame
  have hcomplete := writeAll_complete calls frame
  rw [writeStreamFrame]
  cases hwrite : writeAll calls frame with
  | mk sent ended =>
    rw [hwrite] at hsent hcomplete
    cases ended with
    | complete => exact ⟨hsent, fun _ => ⟨hcomplete rfl, rfl⟩⟩
    | stuck => exact ⟨hsent, nofun⟩
    | raised chain => exact ⟨hsent, nofun⟩

/-! ## Framing -/

/-- Calls that bring these bytes: pieces that are not empty, and timeouts that are retried. -/
structure Brings (calls : List RecvCall) (bytes : Bytes) : Prop where
  chunks : ∃ chunks : List Bytes, calls.filterMap RecvCall.settled = chunks.map .chunk ∧
    (∀ chunk ∈ chunks, chunk ≠ []) ∧ chunks.flatten = bytes

/-- **Frames are kept by the transport**: in one direction however they are cut, in the other
    however they are taken. -/
theorem frames_kept :
    (∀ (body : Bytes) (calls behind : List RecvCall), 10 ∉ body → Brings calls (body ++ [10]) →
      receiveFrame [] (calls ++ behind) =
        if (body ++ [10]).length ≤ maxDaemonFrameBytes then .ok (body ++ [10])
        else .error (.protocol frameTooLarge)) ∧
    (∀ (calls : List RecvCall) (frame : Bytes), receiveFrame [] calls = .ok frame →
      frame.length ≤ maxDaemonFrameBytes ∧ (∃ body, frame = body ++ [10] ∧ 10 ∉ body) ∧
        validateJsonLineFrame frame = .ok ()) ∧
    (∀ (calls : List (WriteCall PyText)) (flush : Except PyText Unit) (frame : Bytes),
      (∀ call ∈ calls, call.progresses = true) →
        writeStreamFrame calls flush frame =
          { sent := frame, flushes := 1, result := flush.mapError .os }) ∧
    (∀ (calls : List (WriteCall PyText)) (flush : Except PyText Unit) (frame : Bytes),
      (writeStreamFrame calls flush frame).sent <+: frame ∧
        ((writeStreamFrame calls flush frame).result = .ok () →
          (writeStreamFrame calls flush frame).sent = frame ∧
            (writeStreamFrame calls flush frame).flushes = 1)) := by
  refine ⟨?_, ?_, fun calls flush frame hcalls => writeStreamFrame_progress hcalls flush frame,
    writeStreamFrame_prefix⟩
  · intro body calls behind hbody hbrings
    obtain ⟨chunks, hsettled, hne, hflat⟩ := hbrings.chunks
    rw [receiveFrame_eq, List.filterMap_append, hsettled]
    exact readSocketFrame_pieces _ chunks [] body hbody (by decide) hne hflat
  · intro calls frame h
    rw [receiveFrame_eq] at h
    obtain ⟨body, rfl, hbody, hlength⟩ := readSocketFrame_frame _ [] frame List.not_mem_nil h
    exact ⟨hlength, ⟨body, rfl, hbody⟩, validateJsonLineFrame_frame hbody hlength⟩

/-- Two pieces with a timeout between them, and a frame that is taken two bytes at a time. -/
theorem frames_kept_pieces :
    receiveFrame [] [.received [123], .timedOut (pyText "poll") true, .received [125, 10]] =
        .ok [123, 125, 10] ∧
      writeStreamFrame [.took 2, .took 2] (.ok ()) [123, 125, 10] =
        { sent := [123, 125, 10], flushes := 1, result := .ok () } := by
  have hbrings : Brings [.received [123], .timedOut (pyText "poll") true, .received [125, 10]]
      ([123, 125] ++ [10]) :=
    ⟨[[123], [125, 10]], rfl, by decide, rfl⟩
  have hframe := frames_kept.1 [123, 125] _ [] (by decide) hbrings
  exact ⟨hframe, frames_kept.2.2.1 [.took 2, .took 2] (.ok ()) _ (by
    simp [WriteCall.progresses])⟩

end NuSelf.Daemon
