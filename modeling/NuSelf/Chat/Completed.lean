/-
  Where completed turns stand in their conversation.

  A completed turn carries the absolute range of its messages, and memory names its observation
  after that range.  While a conversation lives, a range is given out once: every commit puts its
  turn behind the last one, although it may drop the reply that stands last when that one reports
  a missing model (`TailOnly`: no other stored message does).  A turn that is read back off the
  store has the texts that were committed under its range (`Shows`).

  1. `TailOnly` and `Shows` — kept by commits and compressions;
  2. `shows_committed`, `shows_read` — true of each turn a call gives;
  3. `Shows.ends_before` — a new turn ends behind every earlier one;
  4. `Shows.reads_same` — a turn read under the range of an earlier one has its texts.
-/
import Mathlib.Data.List.TakeDrop
import NuSelf.Chat.History

namespace NuSelf.Chat

open NuSelf.Lib NuSelf.Conversation

variable {v w : LogView ConversationMessage} {turn : CompletedTurn} {c : RespondCall}
  {answer : String}

/-! ## The last message -/

/-- Only the last stored message may be a reply that reports a missing model. -/
def TailOnly (v : LogView ConversationMessage) : Prop :=
  ∀ m ∈ v.items.dropLast, saysNotConfigured m = false

/-- A view after a committed reply. -/
def afterCommit (v : LogView ConversationMessage) (c : RespondCall) (answer : String) :
    LogView ConversationMessage :=
  ⟨v.start, promptMessages v.items ++ turnMessages c answer⟩

/-- **A prompt keeps all messages, or drops the last one**, which is a reply. -/
theorem TailOnly.promptMessages (h : TailOnly v) :
    promptMessages v.items = v.items ∨
      ∃ m, v.items = Chat.promptMessages v.items ++ [m] ∧ m.role = .assistant := by
  rcases List.eq_nil_or_concat v.items with hnil | ⟨init, m, hitems⟩
  · rw [hnil]
    exact Or.inl rfl
  · have hkept : ∀ x ∈ init, saysNotConfigured x = false := by
      intro x hx
      refine h x ?_
      rw [hitems, List.concat_eq_append, List.dropLast_concat]
      exact hx
    rw [hitems, List.concat_eq_append]
    have hsplit : Chat.promptMessages (init ++ [m]) = init ++ Chat.promptMessages [m] := by
      show (init ++ [m]).filter _ = _
      rw [List.filter_append]
      show Chat.promptMessages init ++ _ = _
      rw [promptMessages_eq_self.mpr hkept]
      rfl
    cases hm : saysNotConfigured m with
    | false =>
      refine Or.inl (promptMessages_eq_self.mpr fun x hx => ?_)
      rcases List.mem_append.mp hx with hx | hx
      · exact hkept x hx
      · rw [List.mem_singleton.mp hx]
        exact hm
    | true =>
      have hdropped : Chat.promptMessages [m] = [] := by
        show List.filter (fun x => !saysNotConfigured x) [m] = []
        rw [List.filter_cons_of_neg (by simp [hm]), List.filter_nil]
      rw [hdropped, List.append_nil] at hsplit
      refine Or.inr ⟨m, by rw [hsplit], ?_⟩
      have hrole := (Bool.and_eq_true _ _).mp hm
      exact of_decide_eq_true hrole.1

theorem tailOnly_nil (start : Nat) : TailOnly ⟨start, []⟩ := fun _ hm => nomatch hm

theorem tailOnly_commit (v : LogView ConversationMessage) (c : RespondCall) (answer : String) :
    TailOnly (afterCommit v c answer) := by
  intro m hm
  have hlast : (afterCommit v c answer).items.dropLast =
      promptMessages v.items ++ [{ role := .user, content := c.message, turn_id := c.turn_id }] := by
    show (promptMessages v.items ++ [_, _]).dropLast = _
    rw [List.dropLast_append_of_ne_nil (by simp)]
    rfl
  rw [hlast] at hm
  rcases List.mem_append.mp hm with hm | hm
  · have hfilter := (List.mem_filter.mp hm).2
    exact Bool.not_eq_true' _ |>.mp hfilter
  · rw [List.mem_singleton.mp hm]
    rfl

theorem TailOnly.drop (h : TailOnly v) (start n : Nat) : TailOnly ⟨start, v.items.drop n⟩ := by
  intro m hm
  replace hm : m ∈ (v.items.drop n).dropLast := hm
  rw [List.dropLast_drop_eq_drop_dropLast] at hm
  exact h m (List.mem_of_mem_drop hm)

theorem TailOnly.take (h : TailOnly v) (start n : Nat) : TailOnly ⟨start, v.items.take n⟩ := by
  intro m hm
  replace hm : m ∈ (v.items.take n).dropLast := hm
  rw [List.dropLast_take_eq_take_dropLast] at hm
  exact h m (List.mem_of_mem_take hm)

/-! ## The range of a turn -/

/-- **What a view shows of a turn** of its conversation: the range lies in the log, the question
    stands at its start, and the reply at its end unless another question stands there. -/
structure Shows (v : LogView ConversationMessage) (turn : CompletedTurn) : Prop where
  started : turn.start_index < v.next
  ended : turn.end_index ≤ v.next
  question : ∀ m, v.at? turn.start_index = some m → m.role = .user ∧ m.content = turn.user_content
  reply : ∀ m, v.at? (turn.end_index - 1) = some m →
    m.role = .user ∨ m.role = .assistant ∧ m.content = turn.assistant_content

theorem shows_nil_false {start : Nat} (hstart : start = 0)
    (h : Shows ⟨start, []⟩ turn) : False := by
  have hlt := h.started
  have hnext : (⟨start, []⟩ : LogView ConversationMessage).next = start := rfl
  omega

theorem Shows.follows (h : Shows v turn) (hw : v.Follows w) : Shows w turn := by
  have hle := hw.next_le
  have hstarted := h.started
  have hended := h.ended
  refine ⟨by omega, by omega, fun m hm => ?_, fun m hm => ?_⟩
  · exact h.question m (hw.at?_of_lt hm hstarted)
  · exact h.reply m (hw.at?_of_lt hm (by omega))

/-- **A commit keeps what is shown of earlier turns**: where it drops the last reply, a question
    takes its place. -/
theorem Shows.commit (h : Shows v turn) (htail : TailOnly v) (c : RespondCall) (answer : String) :
    Shows (afterCommit v c answer) turn := by
  rcases htail.promptMessages with hkept | ⟨last, hitems, hrole⟩
  · have hcommit : afterCommit v c answer = { v with items := v.items ++ turnMessages c answer } := by
      rw [afterCommit, hkept]
    rw [hcommit]
    exact h.follows (LogView.Follows.extend _ _)
  · obtain ⟨kept, hkept⟩ : ∃ kept, promptMessages v.items = kept := ⟨_, rfl⟩
    rw [hkept] at hitems
    have hstarted := h.started
    have hended := h.ended
    -- the messages that stay, seen on their own
    let u : LogView ConversationMessage := ⟨v.start, kept⟩
    have hv : v = ⟨v.start, kept ++ [last]⟩ := by rw [← hitems]
    have hw : afterCommit v c answer = ⟨v.start, kept ++ turnMessages c answer⟩ := by
      rw [afterCommit, hkept]
    have hvnext : v.next = u.next + 1 := by
      show v.start + v.items.length = v.start + kept.length + 1
      rw [hitems, List.length_append, List.length_singleton]
      omega
    have hwnext : (afterCommit v c answer).next = u.next + 2 := by
      rw [hw]
      show v.start + (kept ++ turnMessages c answer).length = v.start + kept.length + 2
      rw [List.length_append]
      rfl
    have hold : ∀ {i m}, i < u.next → (afterCommit v c answer).at? i = some m →
        v.at? i = some m := by
      intro i m hi hm
      rw [hw] at hm
      have hu : u.at? i = some m := (LogView.Follows.extend u _).at?_of_lt hm hi
      rw [hv]
      exact LogView.at?_append hu [last]
    have hlast : v.at? u.next = some last := by
      rw [hv]
      exact u.at?_next last []
    -- the dropped message is no question
    have hne : turn.start_index ≠ u.next := by
      intro he
      rw [← he] at hlast
      have hquestion := (h.question last hlast).1
      rw [hrole] at hquestion
      cases hquestion
    refine ⟨by omega, by omega, fun m hm => ?_, fun m hm => ?_⟩
    · exact h.question m (hold (by omega) hm)
    · rcases Nat.lt_or_ge (turn.end_index - 1) u.next with hlt | hge
      · exact h.reply m (hold hlt hm)
      · have hindex : turn.end_index - 1 = u.next := by omega
        have hquestion : (afterCommit v c answer).at? u.next =
            some { role := .user, content := c.message, turn_id := c.turn_id } := by
          rw [hw]
          exact u.at?_next _ _
        rw [hindex, hquestion] at hm
        rw [← Option.some.inj hm]
        exact Or.inl rfl

/-! ## The turns that a call gives -/

theorem shows_committed (v : LogView ConversationMessage) (c : RespondCall) (answer : String) :
    Shows (afterCommit v c answer) (committedTurn v c answer) := by
  let u : LogView ConversationMessage := ⟨v.start, promptMessages v.items⟩
  have hnext : (afterCommit v c answer).next = u.next + 2 := by
    show v.start + (promptMessages v.items ++ turnMessages c answer).length =
      v.start + (promptMessages v.items).length + 2
    rw [List.length_append]
    rfl
  have hstart : (committedTurn v c answer).start_index = u.next := rfl
  have hend : (committedTurn v c answer).end_index = u.next + 2 := rfl
  have hquestion : (afterCommit v c answer).at? u.next =
      some { role := .user, content := c.message, turn_id := c.turn_id } := u.at?_next _ _
  have hreply : (afterCommit v c answer).at? (u.next + 1) =
      some { role := .assistant, content := answer, turn_id := c.turn_id } := by
    let asked : LogView ConversationMessage := ⟨v.start, promptMessages v.items ++
      [{ role := .user, content := c.message, turn_id := c.turn_id }]⟩
    have hasked : asked.next = u.next + 1 := by
      show v.start + (promptMessages v.items ++ [_]).length = _
      rw [List.length_append]
      rfl
    have hafter : afterCommit v c answer = ⟨asked.start, asked.items ++
        [{ role := .assistant, content := answer, turn_id := c.turn_id }]⟩ := by
      show (⟨v.start, promptMessages v.items ++ [_, _]⟩ : LogView _) =
        ⟨v.start, (promptMessages v.items ++ [_]) ++ [_]⟩
      rw [List.append_assoc]
      rfl
    rw [hafter, ← hasked]
    exact asked.at?_next _ []
  refine ⟨by omega, by omega, fun m hm => ?_, fun m hm => ?_⟩
  · rw [hstart, hquestion] at hm
    rw [← Option.some.inj hm]
    exact ⟨rfl, rfl⟩
  · rw [hend, show u.next + 2 - 1 = u.next + 1 from rfl, hreply] at hm
    rw [← Option.some.inj hm]
    exact Or.inr ⟨rfl, rfl⟩

theorem shows_read (h : Reads v turn) : Shows v turn := by
  obtain ⟨i, question, hstart, hi, hqrole, hqcontent⟩ := h.question
  obtain ⟨j, reply, hend, hj, hrrole, hrcontent⟩ := h.reply
  have hilt : i < v.items.length := (List.getElem?_eq_some_iff.mp hi).1
  have hjlt : j < v.items.length := (List.getElem?_eq_some_iff.mp hj).1
  have hnext : v.next = v.start + v.items.length := rfl
  refine ⟨by omega, by omega, fun m hm => ?_, fun m hm => ?_⟩
  · rw [hstart, LogView.at?_start, hi] at hm
    rw [← Option.some.inj hm]
    exact ⟨hqrole, hqcontent⟩
  · rw [hend, Nat.add_sub_cancel, LogView.at?_start, hj] at hm
    rw [← Option.some.inj hm]
    exact Or.inr ⟨hrrole, hrcontent⟩

/-- **A committed turn ends behind every turn that its conversation has shown.** -/
theorem Shows.ends_before (h : Shows v turn) (htail : TailOnly v) :
    turn.end_index < (committedTurn v c answer).end_index := by
  have hended := h.ended
  have hlength : v.items.length ≤ (promptMessages v.items).length + 1 := by
    rcases htail.promptMessages with hkept | ⟨last, hitems, -⟩
    · rw [hkept]
      omega
    · have hlengths := congrArg List.length hitems
      rw [List.length_append, List.length_singleton] at hlengths
      omega
  have hnext : v.next = v.start + v.items.length := rfl
  have hend : (committedTurn v c answer).end_index =
    v.start + (promptMessages v.items).length + 2 := rfl
  omega

/-- **A turn that is read under the range of an earlier one has its texts.** -/
theorem Shows.reads_same {later : CompletedTurn} (h : Shows v turn) (hreads : Reads v later)
    (hstart : later.start_index = turn.start_index) (hend : later.end_index = turn.end_index) :
    later.user_content = turn.user_content ∧
      later.assistant_content = turn.assistant_content := by
  obtain ⟨i, question, hi, hquestion, -, hqcontent⟩ := hreads.question
  obtain ⟨j, reply, hj, hreply, hrrole, hrcontent⟩ := hreads.reply
  have hatq : v.at? turn.start_index = some question := by
    rw [← hstart, hi, LogView.at?_start, hquestion]
  have hatr : v.at? (turn.end_index - 1) = some reply := by
    rw [← hend, hj, Nat.add_sub_cancel, LogView.at?_start, hreply]
  refine ⟨hqcontent.symm.trans (h.question question hatq).2, ?_⟩
  rcases h.reply reply hatr with hrole | ⟨-, hcontent⟩
  · rw [hrrole] at hrole
    cases hrole
  · exact hrcontent.symm.trans hcontent

end NuSelf.Chat
