/-
  No update of a conversation is lost.

  The record of an update is as the update last saw it, for as long as the update holds the lock:
  whoever commits meanwhile holds other locks, and keeps to their conversations.  So the commit
  finds the record that the callback was given.  The check before the commit is a second guard, for
  writers that take no lock.

  1. **The invariant** (`Inv`) — the locks and the open transaction are where the program points
     say, and each call's place is sound (`Phase.Sound`).
  2. `inv_step` — every step keeps it; `reaches_*` are the places that a call goes on to.
  3. `update_loses_nothing` — in every run of any number of calls.
-/
import NuSelf.Conversation.Concurrent

namespace NuSelf.Conversation.Wire.Concurrent

open NuSelf.Lib NuSelf.Storage

/-! ## What an update has seen -/

/-- The callback is given what the record holds: its state, or the state that was just written with
    the mark of the turn. -/
def Snapshot (conversation_id : String) (raw : Option Record) (given : ConversationState) : Prop :=
  match raw with
  | none => given = .empty conversation_id
  | some r => decodeRaw r = .ok given ∨ ConversationState.SameFields r given.toWire

/-- The one state is the other, but for the mark of the turn. -/
def Marked (before after : ConversationState) (turn_id : String) : Prop :=
  after = before ∨ ∃ p h, p.turn_id = turn_id ∧ after = before.mark p h

theorem Marked.conversation_id {before after : ConversationState} {turn_id : String}
    (h : Marked before after turn_id) : after.conversation_id = before.conversation_id := by
  rcases h with rfl | ⟨p, h, -, rfl⟩
  · rfl
  · rfl

theorem beginTurnAttempt_marked {sha : Sha256} {state marked : ConversationState}
    {turn_id message : String} {resume : Bool}
    (h : beginTurnAttempt sha state turn_id message resume = .ok marked) :
    Marked state marked turn_id := by
  unfold beginTurnAttempt at h
  dsimp only at h
  split at h
  · split at h
    · cases h
    · split at h
      · cases h
        exact .inl rfl
      · cases h
  · rename_i hnone
    cases h
    exact .inr ⟨_, hnone, rfl, rfl⟩

/-- A call has changed nothing yet, or it has marked a turn. -/
def Marks (changes : List Work) : Prop :=
  changes = [] ∨ ∃ args turn_id state, changes = [.mark args turn_id state]

/-- A transaction before its body: the record of an update is as it was last seen. -/
def Work.Ready (db : Records) (changes : List Work) : Work → Prop
  | .mark args turn_id state => changes = [] ∧
    ∃ raw before, readRaw db args.conversation_id = .ok raw ∧
      stateOfRaw args.conversation_id raw = .ok before ∧ Marked before state turn_id
  | .commit args original given updated => Marks changes ∧
    readRaw db args.conversation_id = .ok original ∧
      Snapshot args.conversation_id original given ∧
        updated.conversation_id = args.conversation_id
  | .locked _ => changes = []

/-- A call that ends with an error has changed nothing but for a mark, unless its commit was
    behind it. -/
def Ends (changes : List Work) (outcome : Outcome) : Prop :=
  ∀ e, outcome = .raised e → e ≠ .observer → Marks changes

/-- What holds of the store, and of the changes of the call, at each of its places. -/
def Phase.Sound (sha : Sha256) (db : Records) (changes : List Work) : Phase → Prop
  | .idle | .reading _ => changes = []
  | .acquiring request held rest => changes = [] ∧ held.reverse ++ rest = lockOrder request.ids
  | .transacting work stage => work.Ready db changes ∧
    ∀ db', stage = .written db' → work.run sha db = .ok db'
  | .rereading args state => Marks changes ∧ RowOf db args.conversation_id state
  | .calling args original given => Marks changes ∧
    readRaw db args.conversation_id = .ok original ∧ Snapshot args.conversation_id original given
  | .leaving held outcome => held.Nodup ∧ Ends changes outcome
  | .done outcome => Ends changes outcome
  | .observing _ | .dead => True

theorem mem_lockOrder {id : String} {ids : List String} : id ∈ lockOrder ids ↔ id ∈ ids := by
  rw [lockOrder, ConversationStore.sortedIds, List.mem_insertionSort, List.mem_dedup]

theorem nodup_lockOrder (ids : List String) : (lockOrder ids).Nodup :=
  (List.perm_insertionSort _ _).nodup_iff.mpr (List.nodup_dedup ids)

theorem Work.nodup_locks (work : Work) : work.locks.reverse.Nodup := by
  rw [List.nodup_reverse]
  cases work with
  | mark args turn_id state => exact List.nodup_singleton _
  | commit args original given updated => exact List.nodup_singleton _
  | locked op => exact nodup_lockOrder op.ids

section

variable {sha : Sha256} {db db' : Records} {changes : List Work} {work : Work} {p : Phase}

theorem Work.Ready.congr (h : work.Ready db changes)
    (hsame : ∀ id ∈ work.locks, db'.get ("conversations", id) = db.get ("conversations", id)) :
    work.Ready db' changes := by
  cases work with
  | mark args turn_id state =>
    have hread : readRaw db' args.conversation_id = readRaw db args.conversation_id :=
      readRaw_congr (hsame _ List.mem_cons_self)
    simpa only [Work.Ready, hread] using h
  | commit args original given updated =>
    have hread : readRaw db' args.conversation_id = readRaw db args.conversation_id :=
      readRaw_congr (hsame _ List.mem_cons_self)
    simpa only [Work.Ready, hread] using h
  | locked op => exact h

theorem Phase.Sound.congr (h : p.Sound sha db changes) (hwriting : p.writing = false)
    (hsame : ∀ id ∈ p.held, db'.get ("conversations", id) = db.get ("conversations", id)) :
    p.Sound sha db' changes := by
  cases p with
  | transacting work stage =>
    cases stage with
    | waiting => exact ⟨h.1.congr hsame, nofun⟩
    | opened => cases hwriting
    | written db₁ => cases hwriting
  | rereading args state =>
    obtain ⟨hmarks, q, hget, hq⟩ := h
    exact ⟨hmarks, q, (hsame _ List.mem_cons_self).trans hget, hq⟩
  | calling args original given =>
    have hread : readRaw db' args.conversation_id = readRaw db args.conversation_id :=
      readRaw_congr (hsame _ List.mem_cons_self)
    simpa only [Phase.Sound, hread] using h
  | idle => exact h
  | acquiring request held rest => exact h
  | reading args => exact h
  | observing args => exact h
  | leaving held outcome => exact h
  | done outcome => exact h
  | dead => exact h

theorem fromRecords_map_ok {x : Except RecordsError (Records × Effect)}
    (h : (fromRecords x).map Prod.fst = .ok db') : ∃ effect, x = .ok (db', effect) := by
  cases x with
  | error e => cases h
  | ok r =>
    obtain ⟨db₁, effect⟩ := r
    cases h
    exact ⟨effect, rfl⟩

theorem commit_run {args : UpdateArgs} {original : Option Record}
    {given updated : ConversationState}
    (h : (Work.commit args original given updated).run sha db = .ok db') :
    ∃ raw effect, readRaw db args.conversation_id = .ok raw ∧ sameRecord raw original = true ∧
      saveUnlocked db (updated.finishTurnAttempt args.turn_id) = .ok (db', effect) := by
  obtain ⟨raw, hread, h⟩ := bind_ok h
  split at h
  · cases h
  · rename_i hsame
    obtain ⟨effect, hsave⟩ := fromRecords_map_ok h
    refine ⟨raw, effect, ?_, by simpa using hsame, hsave⟩
    revert hread
    cases readRaw db args.conversation_id with
    | error e => exact nofun
    | ok raw' => exact fun hread => by cases hread; rfl

theorem finishTurnAttempt_id (state : ConversationState) (turn_id : Option String) :
    (state.finishTurnAttempt turn_id).conversation_id = state.conversation_id := by
  cases turn_id <;> rfl

theorem Work.Ready.mark_id {args : UpdateArgs} {turn_id : String} {state : ConversationState}
    (h : (Work.mark args turn_id state).Ready db changes) (hkeyed : Keyed db) :
    state.conversation_id = args.conversation_id := by
  obtain ⟨-, raw, before, hread, hbefore, hmarked⟩ := h
  rw [hmarked.conversation_id, stateOfRaw_id hkeyed hread hbefore]

/-- **A transaction keeps to the conversations that its call has locked.** -/
theorem Work.run_within (hkeyed : Keyed db) (hready : work.Ready db changes)
    (h : work.run sha db = .ok db') : Within work.locks db db' := by
  cases work with
  | mark args turn_id state =>
    obtain ⟨effect, hsave⟩ := fromRecords_map_ok h
    have hsaved := saveUnlocked_within hkeyed hsave
    rw [hready.mark_id hkeyed] at hsaved
    exact hsaved
  | commit args original given updated =>
    obtain ⟨raw, effect, -, -, hsave⟩ := commit_run h
    have hsaved := saveUnlocked_within hkeyed hsave
    rw [finishTurnAttempt_id, hready.2.2.2] at hsaved
    exact hsaved
  | locked op =>
    obtain ⟨effect, hrun⟩ := fromRecords_map_ok h
    exact (runOp_within hkeyed hrun).mono fun id hid => mem_lockOrder.mpr hid

end

/-! ## The invariant -/

/-- What each call has committed. -/
abbrev Changes := Nat → List Work

/-- The observer notes the transactions that are committed. -/
def note (changes : Changes) (e : Step System Input Unit) : Changes :=
  match e.input with
  | .advance n =>
    match e.before.phase n with
    | .transacting work (.written _) => Function.update changes n (changes n ++ [work])
    | _ => changes
  | _ => changes

structure Inv (sha : Sha256) (s : System) (changes : Changes) : Prop where
  locks : Agree s.lock fun n => (s.phase n).held
  writer : ∀ n, s.writer = some n ↔ (s.phase n).writing = true
  keyed : Keyed s.db
  sound : ∀ n, (s.phase n).Sound sha s.db (changes n)

theorem inv_start (sha : Sha256) {db : Records} (hkeyed : Keyed db) :
    Inv sha (.start db) fun _ => [] where
  locks := fun _ _ => ⟨nofun, nofun⟩
  writer := fun _ => ⟨nofun, nofun⟩
  keyed := hkeyed
  sound := fun _ => rfl

section

variable {sha : Sha256} {s : System} {changes : Changes} {n : Nat} {p : Phase}

theorem held_other (s : System) (n : Nat) (p : Phase) :
    ∀ m, m ≠ n → (Function.update s.phase n p m).held = (s.phase m).held := by
  intro m hm
  rw [Function.update_of_ne hm]

namespace Inv

theorem update (h : Inv sha s changes) {lock : String → Option Nat} {writer : Option Nat}
    (hlocks : Agree lock fun m => (Function.update s.phase n p m).held)
    (hwriter : ∀ m, writer = some m ↔ (Function.update s.phase n p m).writing = true)
    (hsound : p.Sound sha s.db (changes n)) :
    Inv sha ⟨s.db, lock, writer, Function.update s.phase n p⟩ changes where
  locks := hlocks
  writer := hwriter
  keyed := h.keyed
  sound := by
    intro m
    show (Function.update s.phase n p m).Sound sha s.db (changes m)
    by_cases hm : m = n
    · subst hm
      rw [Function.update_self]
      exact hsound
    · rw [Function.update_of_ne hm]
      exact h.sound m

theorem locks_same (h : Inv sha s changes) (hheld : ∀ id, id ∈ p.held ↔ id ∈ (s.phase n).held) :
    Agree s.lock fun m => (Function.update s.phase n p m).held := by
  refine h.locks.congr fun m id => ?_
  by_cases hm : m = n
  · subst hm
    rw [Function.update_self]
    exact hheld id
  · rw [Function.update_of_ne hm]

theorem writer_same (h : Inv sha s changes) (hwriting : p.writing = (s.phase n).writing) :
    ∀ m, s.writer = some m ↔ (Function.update s.phase n p m).writing = true := by
  intro m
  rw [h.writer m]
  by_cases hm : m = n
  · subst hm
    rw [Function.update_self, hwriting]
  · rw [Function.update_of_ne hm]

theorem writer_end (h : Inv sha s changes) (hwriting : (s.phase n).writing = true)
    (hp : p.writing = false) :
    ∀ m, (none : Option Nat) = some m ↔ (Function.update s.phase n p m).writing = true := by
  intro m
  refine ⟨nofun, fun hm => ?_⟩
  by_cases heq : m = n
  · subst heq
    rw [Function.update_self, hp] at hm
    cases hm
  · rw [Function.update_of_ne heq, ← h.writer m, (h.writer n).mpr hwriting] at hm
    exact absurd (Option.some.inj hm).symm heq

theorem moved (h : Inv sha s changes) (hheld : ∀ id, id ∈ p.held ↔ id ∈ (s.phase n).held)
    (hwriting : p.writing = (s.phase n).writing) (hsound : p.Sound sha s.db (changes n)) :
    Inv sha (s.move n p) changes :=
  h.update (h.locks_same hheld) (h.writer_same hwriting) hsound

theorem take (h : Inv sha s changes) {id : String} (hfree : s.lock id = none)
    (hheld : ∀ j, j ∈ p.held ↔ j = id ∨ j ∈ (s.phase n).held)
    (hwriting : p.writing = (s.phase n).writing) (hsound : p.Sound sha s.db (changes n)) :
    Inv sha ({ s with lock := Function.update s.lock id (some n) }.move n p) changes := by
  refine h.update (h.locks.take hfree (fun j => ?_) (held_other s n p)) (h.writer_same hwriting)
    hsound
  rw [Function.update_self]
  exact hheld j

theorem release (h : Inv sha s changes) {id : String} (hid : id ∈ (s.phase n).held)
    (hheld : ∀ j, j ∈ p.held ↔ j ≠ id ∧ j ∈ (s.phase n).held)
    (hwriting : p.writing = (s.phase n).writing) (hsound : p.Sound sha s.db (changes n)) :
    Inv sha ({ s with lock := Function.update s.lock id none }.move n p) changes := by
  refine h.update (h.locks.release hid (fun j => ?_) (held_other s n p)) (h.writer_same hwriting)
    hsound
  rw [Function.update_self]
  exact hheld j

theorem opens (h : Inv sha s changes) (hnone : s.writer = none)
    (hheld : ∀ id, id ∈ p.held ↔ id ∈ (s.phase n).held) (hp : p.writing = true)
    (hsound : p.Sound sha s.db (changes n)) :
    Inv sha ({ s with writer := some n }.move n p) changes := by
  refine h.update (h.locks_same hheld) (fun m => ?_) hsound
  by_cases hm : m = n
  · subst hm
    rw [Function.update_self]
    exact ⟨fun _ => hp, fun _ => rfl⟩
  · rw [Function.update_of_ne hm, ← h.writer m, hnone]
    exact ⟨fun heq => absurd (Option.some.inj heq).symm hm, nofun⟩

theorem rollsBack (h : Inv sha s changes) (hwriting : (s.phase n).writing = true)
    (hheld : ∀ id, id ∈ p.held ↔ id ∈ (s.phase n).held) (hp : p.writing = false)
    (hsound : p.Sound sha s.db (changes n)) :
    Inv sha ({ s with writer := none }.move n p) changes :=
  h.update (h.locks_same hheld) (h.writer_end hwriting hp) hsound

theorem commits (h : Inv sha s changes) {work : Work} {db : Records}
    (hphase : s.phase n = .transacting work (.written db))
    (hheld : ∀ id, id ∈ p.held ↔ id ∈ work.locks) (hp : p.writing = false)
    (hsound : p.Sound sha db (changes n ++ [work])) :
    Inv sha ({ s with db, writer := none }.move n p)
      (Function.update changes n (changes n ++ [work])) := by
  have hn := h.sound n
  rw [hphase] at hn
  obtain ⟨hready, hrun⟩ := hn
  have hwithin := Work.run_within h.keyed hready (hrun db rfl)
  have hwriting : (s.phase n).writing = true := by rw [hphase]; rfl
  refine ⟨h.locks_same fun id => ?_, h.writer_end hwriting hp, hwithin.keyed, fun m => ?_⟩
  · rw [hphase]
    exact hheld id
  · show (Function.update s.phase n p m).Sound sha db _
    by_cases hm : m = n
    · subst hm
      rw [Function.update_self, Function.update_self]
      exact hsound
    · rw [Function.update_of_ne hm, Function.update_of_ne hm]
      refine (h.sound m).congr ?_ fun id hid => hwithin.row ?_
      · -- the one open transaction is that of the call itself
        have hother : (s.phase m).writing ≠ true := by
          intro hm'
          rw [← h.writer m, (h.writer n).mpr hwriting] at hm'
          exact hm (Option.some.inj hm').symm
        simpa using hother
      · have hnot := h.locks.not_held hid (Ne.symm hm)
        rw [hphase] at hnot
        exact hnot

theorem crash (h : Inv sha s changes) (n : Nat) : Inv sha (s.crash n) changes := by
  refine h.update (h.locks.abandon ?_ (held_other s n .dead)) (fun m => ?_) trivial
  · rw [Function.update_self]
    rfl
  · by_cases hm : m = n
    · subst hm
      rw [Function.update_self]
      refine ⟨fun heq => ?_, nofun⟩
      split at heq
      · cases heq
      · contradiction
    · rw [Function.update_of_ne hm, ← h.writer m]
      split
      · rename_i hn
        rw [hn]
        exact ⟨nofun, fun heq => absurd (Option.some.inj heq).symm hm⟩
      · rfl

end Inv

/-! ## Steps -/

/-- A place of a call that holds these locks, with no transaction open. -/
structure Reaches (sha : Sha256) (db : Records) (changes : List Work) (held : List String)
    (p : Phase) : Prop where
  held : ∀ id, id ∈ p.held ↔ id ∈ held
  writing : p.writing = false
  sound : p.Sound sha db changes

variable {db : Records} {made : List Work}

theorem ends_of_marks (h : Marks made) (outcome : Outcome) : Ends made outcome := fun _ _ _ => h

theorem reaches_fails (args : UpdateArgs) (e : CallError) (h : Marks made) :
    Reaches sha db made [args.conversation_id] (args.fails e) :=
  ⟨fun _ => Iff.rfl, rfl, List.nodup_singleton _, ends_of_marks h _⟩

theorem reaches_leaving (work : Work) (outcome : Outcome) (h : Ends made outcome) :
    Reaches sha db made work.locks (.leaving work.locks.reverse outcome) :=
  ⟨fun _ => List.mem_reverse, rfl, work.nodup_locks, h⟩

theorem reaches_start (request : Request) (h : made = []) :
    Reaches sha db made [] request.start := by
  have hends : ∀ outcome, Ends made outcome := ends_of_marks (.inl h)
  unfold Request.start
  split
  · exact ⟨fun _ => Iff.rfl, rfl, hends _⟩
  · split
    · exact ⟨fun _ => Iff.rfl, rfl, hends _⟩
    · split
      · exact ⟨fun _ => Iff.rfl, rfl, hends _⟩
      · exact ⟨fun _ => Iff.rfl, rfl, h, rfl⟩

theorem reaches_enter (request : Request) (h : made = []) :
    Reaches sha db made request.ids request.enter := by
  cases request with
  | update args => exact ⟨fun _ => Iff.rfl, rfl, h⟩
  | locked op => exact ⟨fun _ => mem_lockOrder, rfl, h, nofun⟩

/-- The first read of an update: the callback is given what was read, or a mark of it is about to
    be written. -/
theorem reaches_afterRead (args : UpdateArgs) (h : made = []) :
    Reaches sha db made [args.conversation_id] (args.afterRead sha db) := by
  have hmarks : Marks made := .inl h
  unfold UpdateArgs.afterRead
  split
  · exact reaches_fails args _ hmarks
  · rename_i original hread
    split
    · exact reaches_fails args _ hmarks
    · rename_i state hstate
      have hsnapshot : Snapshot args.conversation_id original state := by
        cases original with
        | none =>
          cases hstate
          rfl
        | some r => exact .inl hstate
      split
      · exact ⟨fun _ => Iff.rfl, rfl, hmarks, hread, hsnapshot⟩
      · split
        · exact ⟨fun _ => Iff.rfl, rfl, hmarks, hread, hsnapshot⟩
        · split
          · exact reaches_fails args _ hmarks
          · rename_i marked hmarked
            exact ⟨fun _ => Iff.rfl, rfl, ⟨h, original, state, hread, hstate,
              beginTurnAttempt_marked hmarked⟩, nofun⟩

theorem reaches_afterMark (args : UpdateArgs) {state : ConversationState} (h : Marks made)
    (hrow : RowOf db args.conversation_id state) :
    Reaches sha db made [args.conversation_id] (args.afterMark db state) := by
  unfold UpdateArgs.afterMark
  split
  · exact reaches_fails args _ h
  · rename_i original hread
    obtain ⟨r, rfl, hfields⟩ := readRaw_rowOf hrow hread
    exact ⟨fun _ => Iff.rfl, rfl, h, hread, .inr hfields⟩

theorem reaches_afterCallback (args : UpdateArgs) {original : Option Record}
    {given : ConversationState} (result : Option ConversationState) (h : Marks made)
    (hread : readRaw db args.conversation_id = .ok original)
    (hsnapshot : Snapshot args.conversation_id original given) :
    Reaches sha db made [args.conversation_id] (args.afterCallback original given result) := by
  cases result with
  | none => exact reaches_fails args _ h
  | some updated =>
    unfold UpdateArgs.afterCallback
    dsimp only
    split
    · exact reaches_fails args _ h
    · rename_i hid
      exact ⟨fun _ => Iff.rfl, rfl, ⟨h, hread, hsnapshot, not_not.mp hid⟩, nofun⟩

theorem reaches_next {work : Work} {db db' : Records} (hkeyed : Keyed db)
    (hready : work.Ready db made) (hrun : work.run sha db = .ok db') :
    Reaches sha db' (made ++ [work]) work.locks work.next := by
  cases work with
  | mark args turn_id state =>
    obtain ⟨effect, hsave⟩ := fromRecords_map_ok hrun
    have hrow := saveUnlocked_row hsave
    rw [hready.mark_id hkeyed] at hrow
    refine ⟨fun _ => Iff.rfl, rfl, .inr ⟨args, turn_id, state, ?_⟩, hrow⟩
    rw [hready.1]
    rfl
  | commit args original given updated => exact ⟨fun _ => Iff.rfl, rfl, trivial⟩
  | locked op =>
    exact ⟨fun _ => List.mem_reverse, rfl, Work.nodup_locks (.locked op), nofun⟩

theorem Work.Ready.marks {work : Work} (h : work.Ready db made) : Marks made := by
  cases work with
  | mark args turn_id state => exact .inl h.1
  | commit args original given updated => exact h.1
  | locked op => exact .inl h

theorem Inv.reaches (h : Inv sha s changes) {held : List String}
    (hp : Reaches sha s.db (changes n) held p) (hheld : ∀ id, id ∈ (s.phase n).held ↔ id ∈ held)
    (hwriting : (s.phase n).writing = false) : Inv sha (s.move n p) changes :=
  h.moved (fun id => (hp.held id).trans (hheld id).symm) (hp.writing.trans hwriting.symm) hp.sound

/-- A call that raises in its transaction rolls it back and leaves its locks. -/
theorem Inv.raises (h : Inv sha s changes) {work : Work} (e : CallError)
    (hwriting : (s.phase n).writing = true) (hheld : ∀ id, id ∈ (s.phase n).held ↔ id ∈ work.locks)
    (hmarks : Marks (changes n)) :
    Inv sha ({ s with writer := none }.move n (.leaving work.locks.reverse (.raised e)))
      changes := by
  have hleaving : Reaches sha s.db (changes n) work.locks
      (.leaving work.locks.reverse (.raised e)) :=
    reaches_leaving work _ (ends_of_marks hmarks _)
  exact h.rollsBack hwriting (fun id => (hleaving.held id).trans (hheld id).symm) rfl
    hleaving.sound

theorem inv_advance (h : Inv sha s changes) (n : Nat)
    (hcommit : ∀ work db, s.phase n ≠ .transacting work (.written db)) :
    Inv sha (s.advance sha n) changes := by
  have hn := h.sound n
  unfold System.advance
  split
  · rename_i request held hphase
    rw [hphase] at hn
    have hrequest : Reaches sha s.db (changes n) request.ids request.enter :=
      reaches_enter request hn.1
    refine h.reaches hrequest (fun id => ?_) (by rw [hphase]; rfl)
    have hheld : held.reverse = lockOrder request.ids := by
      rw [← hn.2, List.append_nil]
    have hmem : id ∈ held ↔ id ∈ request.ids := by
      rw [← List.mem_reverse, hheld, mem_lockOrder]
    rw [hphase]
    exact hmem
  · rename_i request held id rest hphase
    rw [hphase] at hn
    split
    · rename_i hfree
      refine h.take hfree (fun j => ?_) (by rw [hphase]; rfl) ⟨hn.1, ?_⟩
      · rw [hphase]
        exact List.mem_cons
      · rw [List.reverse_cons, List.append_assoc]
        exact hn.2
    · exact h
  · rename_i args hphase
    rw [hphase] at hn
    exact h.reaches (reaches_afterRead args hn) (fun id => by rw [hphase]; rfl)
      (by rw [hphase]; rfl)
  · rename_i work hphase
    rw [hphase] at hn
    split
    · rename_i hnone
      exact h.opens hnone (fun id => by rw [hphase]; rfl) rfl ⟨hn.1, nofun⟩
    · exact h
  · rename_i work hphase
    rw [hphase] at hn
    split
    · rename_i e hrun
      exact h.raises e (by rw [hphase]; rfl) (fun id => by rw [hphase]; rfl) hn.1.marks
    · rename_i db' hrun
      refine h.moved (fun id => by rw [hphase]; rfl) (by rw [hphase]; rfl)
        ⟨hn.1, fun db₁ heq => ?_⟩
      cases heq
      exact hrun
  · rename_i work db' hphase
    exact absurd hphase (hcommit work db')
  · rename_i args state hphase
    rw [hphase] at hn
    exact h.reaches (reaches_afterMark args hn.1 hn.2) (fun id => by rw [hphase]; rfl)
      (by rw [hphase]; rfl)
  · rename_i outcome hphase
    rw [hphase] at hn
    exact h.moved (fun id => by rw [hphase]; rfl) (by rw [hphase]; rfl) hn.2
  · rename_i id rest outcome hphase
    rw [hphase] at hn
    obtain ⟨hnot, hrest⟩ := List.nodup_cons.mp hn.1
    refine h.release (by rw [hphase]; exact List.mem_cons_self) (fun j => ?_) (by rw [hphase]; rfl)
      ⟨hrest, hn.2⟩
    rw [hphase]
    constructor
    · intro hj
      refine ⟨?_, List.mem_cons_of_mem _ hj⟩
      rintro rfl
      exact hnot hj
    · rintro ⟨hne, hj⟩
      exact (List.mem_cons.mp hj).resolve_left hne
  all_goals exact h

theorem inv_fail (h : Inv sha s changes) (n : Nat) : Inv sha (s.fail n) changes := by
  have hn := h.sound n
  unfold System.fail
  split
  · rename_i request held rest hphase
    rw [hphase] at hn
    refine h.moved (fun id => by rw [hphase]; rfl) (by rw [hphase]; rfl)
      ⟨?_, ends_of_marks (.inl hn.1) _⟩
    have hnodup : (held.reverse ++ rest).Nodup := by
      rw [hn.2]
      exact nodup_lockOrder _
    exact List.nodup_reverse.mp (List.nodup_append'.mp hnodup).1
  · rename_i args hphase
    rw [hphase] at hn
    exact h.reaches (reaches_fails args _ (.inl hn)) (fun id => by rw [hphase]; rfl)
      (by rw [hphase]; rfl)
  · rename_i args state hphase
    rw [hphase] at hn
    exact h.reaches (reaches_fails args _ hn.1) (fun id => by rw [hphase]; rfl)
      (by rw [hphase]; rfl)
  · rename_i work hphase
    rw [hphase] at hn
    exact h.reaches (reaches_leaving work _ (ends_of_marks hn.1.marks _))
      (fun id => by rw [hphase]; rfl) (by rw [hphase]; rfl)
  · rename_i work hphase
    rw [hphase] at hn
    exact h.raises _ (by rw [hphase]; rfl) (fun id => by rw [hphase]; rfl) hn.1.marks
  · rename_i work db' hphase
    rw [hphase] at hn
    exact h.raises _ (by rw [hphase]; rfl) (fun id => by rw [hphase]; rfl) hn.1.marks
  all_goals exact h

theorem note_commit {work : Work} {db : Records} {s' : System}
    (hphase : s.phase n = .transacting work (.written db)) :
    note changes ⟨s, .advance n, (), s'⟩ = Function.update changes n (changes n ++ [work]) := by
  show (match s.phase n with | .transacting work (.written _) => _ | _ => _ : Changes) = _
  rw [hphase]

theorem note_other {s' : System}
    (hcommit : ∀ work db, s.phase n ≠ .transacting work (.written db)) :
    note changes ⟨s, .advance n, (), s'⟩ = changes := by
  show (match s.phase n with | .transacting work (.written _) => _ | _ => _ : Changes) = _
  split
  · rename_i work db' heq
    exact absurd heq (hcommit work db')
  · rfl

theorem advance_commit {work : Work} {db : Records}
    (hphase : s.phase n = .transacting work (.written db)) :
    s.advance sha n = { s with db, writer := none }.move n work.next := by
  rw [System.advance, hphase]

/-- **Every step keeps the invariant.** -/
theorem inv_step (i : Input) (h : Inv sha s changes) :
    Inv sha (step sha s i).1 (note changes ⟨s, i, (step sha s i).2, (step sha s i).1⟩) := by
  have hn := fun n => h.sound n
  cases i with
  | start n request =>
    rw [step]
    split
    · rename_i hphase
      have hn := hn n
      rw [hphase] at hn
      exact h.reaches (reaches_start request hn) (fun id => by rw [hphase]; rfl)
        (by rw [hphase]; rfl)
    · exact h
  | advance n =>
    by_cases hcommit : ∃ work db, s.phase n = .transacting work (.written db)
    · obtain ⟨work, db', hphase⟩ := hcommit
      have hn := hn n
      rw [hphase] at hn
      have hnext := reaches_next h.keyed hn.1 (hn.2 db' rfl)
      rw [note_commit hphase]
      show Inv sha (s.advance sha n) _
      rw [advance_commit hphase]
      exact h.commits hphase hnext.held hnext.writing hnext.sound
    · have hcommit : ∀ work db, s.phase n ≠ .transacting work (.written db) :=
        fun work db heq => hcommit ⟨work, db, heq⟩
      rw [note_other hcommit]
      exact inv_advance h n hcommit
  | callback n result =>
    rw [step]
    split
    · rename_i args original given hphase
      have hn := hn n
      rw [hphase] at hn
      exact h.reaches (reaches_afterCallback args result hn.1 hn.2.1 hn.2.2)
        (fun id => by rw [hphase]; rfl) (by rw [hphase]; rfl)
    · exact h
  | observe n raises =>
    rw [step]
    split
    · rename_i args hphase
      refine h.moved (fun id => by rw [hphase]; rfl) (by rw [hphase]; rfl)
        ⟨List.nodup_singleton _, fun e he hne => ?_⟩
      split at he
      · cases he
        exact absurd rfl hne
      · cases he
    · exact h
  | fail n => exact inv_fail h n
  | crash n => exact h.crash n

end

/-! ## Runs -/

/-- Stored conversations, each under the id that its record names. -/
structure Conversations where
  records : Records
  keyed : Keyed records

/-- A run of any number of calls, with what each has committed. -/
def concurrentRun (sha : Sha256) (db : Conversations) (inputs : List Input) :
    List (Step (System × Changes) Input Unit) :=
  run (watched (step sha) note) (.start db.records, fun _ => []) inputs

/-- A store without conversations. -/
def Conversations.empty : Conversations := ⟨.empty, fun _ _ _ h => nomatch h⟩

/-- What a step of a run does to the conversations. -/
structure LosesNothing (sha : Sha256) (e : Step (System × Changes) Input Unit) : Prop where
  /-- An update commits over the record that its callback was given, and over no other. -/
  commit : ∀ n args original given updated db, e.input = .advance n →
    e.before.1.phase n = .transacting (.commit args original given updated) (.written db) →
    (∃ raw, readRaw e.before.1.db args.conversation_id = .ok raw ∧
      Snapshot args.conversation_id raw given) ∧
    RowOf e.after.1.db args.conversation_id (updated.finishTurnAttempt args.turn_id) ∧
    ∀ k, k ≠ ("conversations", args.conversation_id) → e.after.1.db.get k = e.before.1.db.get k
  /-- Over another it raises, and leaves what is there. -/
  conflict : ∀ n args original given updated raw, e.input = .advance n →
    e.before.1.phase n = .transacting (.commit args original given updated) .opened →
    readRaw e.before.1.db args.conversation_id = .ok raw →
    e.after.1.db = e.before.1.db ∧
      (sameRecord raw original = false →
        (e.after.1.phase n).outcome = some (.raised (.records (.store .changedConcurrently))))
  /-- The mark of a turn is all that changes when it is written. -/
  mark : ∀ n args turn_id state db, e.input = .advance n →
    e.before.1.phase n = .transacting (.mark args turn_id state) (.written db) →
    (∃ raw before, readRaw e.before.1.db args.conversation_id = .ok raw ∧
      stateOfRaw args.conversation_id raw = .ok before ∧ Marked before state turn_id) ∧
    RowOf e.after.1.db args.conversation_id state ∧
    ∀ k, k ≠ ("conversations", args.conversation_id) → e.after.1.db.get k = e.before.1.db.get k
  /-- A call whose callback raises, or that raises otherwise before its commit, has changed nothing
      but for a mark. -/
  raised : ∀ n error, (e.after.1.phase n).outcome = some (.raised error) → error ≠ .observer →
    Marks (e.after.2 n)
  /-- The conversations change by committed transactions only, which are noted. -/
  changed : e.after.1.db ≠ e.before.1.db → ∃ n work db, e.input = .advance n ∧
    e.before.1.phase n = .transacting work (.written db) ∧
    e.after.2 n = e.before.2 n ++ [work]

section

variable {sha : Sha256} {s : System} {changes : Changes} {n : Nat}

theorem advance_db (hcommit : ∀ work db, s.phase n ≠ .transacting work (.written db)) :
    (s.advance sha n).db = s.db := by
  unfold System.advance
  split
  · rfl
  · split <;> rfl
  · rfl
  · split <;> rfl
  · split <;> rfl
  · rename_i work db hphase
    exact absurd hphase (hcommit work db)
  all_goals rfl

theorem fail_db (s : System) (n : Nat) : (s.fail n).db = s.db := by
  unfold System.fail
  split <;> rfl

theorem step_db (i : Input)
    (hcommit : ∀ n work db, i = .advance n → s.phase n ≠ .transacting work (.written db)) :
    (step sha s i).1.db = s.db := by
  cases i with
  | start n request =>
    rw [step]
    split <;> rfl
  | advance n => exact advance_db fun work db => hcommit n work db rfl
  | callback n result =>
    rw [step]
    split <;> rfl
  | observe n raises =>
    rw [step]
    split <;> rfl
  | fail n => exact fail_db s n
  | crash n => rfl

theorem commit_step (h : Inv sha s changes) {work : Work} {db : Records}
    (hphase : s.phase n = .transacting work (.written db)) :
    (s.advance sha n).db = db ∧ work.Ready s.db (changes n) ∧ work.run sha s.db = .ok db ∧
      Within work.locks s.db db := by
  have hn := h.sound n
  rw [hphase] at hn
  have hrun := hn.2 db rfl
  exact ⟨by rw [advance_commit hphase]; rfl, hn.1, hrun, Work.run_within h.keyed hn.1 hrun⟩

theorem Within.of_one {db db' : Records} {id : String} (h : Within [id] db db') :
    ∀ k, k ≠ ("conversations", id) → db'.get k = db.get k := by
  intro k hk
  refine h.other k fun id' hid' => ?_
  rw [List.mem_singleton.mp hid']
  exact hk

theorem commit_conflict {args : UpdateArgs} {original raw : Option Record}
    {given updated : ConversationState}
    (hphase : s.phase n = .transacting (.commit args original given updated) .opened)
    (hread : readRaw s.db args.conversation_id = .ok raw)
    (hsame : sameRecord raw original = false) :
    ((s.advance sha n).phase n).outcome =
      some (.raised (.records (.store .changedConcurrently))) := by
  have hrun : (Work.commit args original given updated).run sha s.db =
      .error (.records (.store .changedConcurrently)) := by
    rw [Work.run, hread]
    show (if sameRecord raw original = false then _ else _) = _
    rw [if_pos hsame]
  rw [System.advance, hphase]
  dsimp only
  rw [hrun]
  show (Function.update s.phase n _ n).outcome = _
  rw [Function.update_self]
  rfl

theorem loses_nothing {e : Step (System × Changes) Input Unit}
    (he : e.Of (watched (step sha) note)) (hbefore : Inv sha e.before.1 e.before.2)
    (hafter : Inv sha e.after.1 e.after.2) :
    LosesNothing sha e := by
  obtain ⟨⟨s, changes⟩, i, output, after⟩ := e
  have hstep : after = (watched (step sha) note (s, changes) i).1 := he.after_eq.symm
  subst hstep
  refine ⟨?_, ?_, ?_, ?_, ?_⟩
  · rintro n args original given updated db rfl hphase
    obtain ⟨hdb, hready, hrun, hwithin⟩ := commit_step hbefore hphase
    obtain ⟨-, effect, -, -, hsave⟩ := commit_run hrun
    have hrow := saveUnlocked_row hsave
    rw [finishTurnAttempt_id, hready.2.2.2] at hrow
    refine ⟨⟨original, hready.2.1, hready.2.2.1⟩, ?_, ?_⟩
    · show RowOf (s.advance sha n).db _ _
      rw [hdb]
      exact hrow
    · show ∀ k, _ → (s.advance sha n).db.get k = _
      rw [hdb]
      exact hwithin.of_one
  · rintro n args original given updated raw rfl hphase hread
    have hopened : ∀ work db, s.phase n ≠ .transacting work (.written db) := by
      intro work db heq
      have hphase' : s.phase n = _ := hphase
      rw [hphase'] at heq
      cases heq
    exact ⟨advance_db hopened, commit_conflict hphase hread⟩
  · rintro n args turn_id state db rfl hphase
    obtain ⟨hdb, hready, hrun, hwithin⟩ := commit_step hbefore hphase
    obtain ⟨effect, hsave⟩ := fromRecords_map_ok hrun
    have hrow := saveUnlocked_row hsave
    rw [hready.mark_id hbefore.keyed] at hrow
    refine ⟨hready.2, ?_, ?_⟩
    · show RowOf (s.advance sha n).db _ _
      rw [hdb]
      exact hrow
    · show ∀ k, _ → (s.advance sha n).db.get k = _
      rw [hdb]
      exact hwithin.of_one
  · intro n error hout hne
    have hsound := hafter.sound n
    revert hout hsound
    cases (watched (step sha) note (s, changes) i).1.1.phase n with
    | leaving held outcome =>
      intro hout hsound
      cases hout
      exact hsound.2 error rfl hne
    | done outcome =>
      intro hout hsound
      cases hout
      exact hsound error rfl hne
    | idle => exact nofun
    | acquiring request held rest => exact nofun
    | reading args => exact nofun
    | transacting work stage => exact nofun
    | rereading args state => exact nofun
    | calling args original given => exact nofun
    | observing args => exact nofun
    | dead => exact nofun
  · intro hchanged
    by_contra hnone
    refine hchanged (step_db i ?_)
    rintro n work db rfl hphase
    refine hnone ⟨n, work, db, rfl, hphase, ?_⟩
    show note changes ⟨s, .advance n, (), _⟩ n = _
    rw [note_commit hphase, Function.update_self]

end

/-- **An update loses nothing.**  In every run of any number of calls on conversations, with storage
    errors and crashes wherever they may come: an update commits only over the record that its
    callback was given; over another it raises and leaves it; and a call that raises, from its
    callback or elsewhere before its commit, has changed nothing but for the mark of its turn. -/
theorem update_loses_nothing (sha : Sha256) (db : Conversations) (inputs : List Input) :
    ∀ e ∈ concurrentRun sha db inputs, LosesNothing sha e := by
  intro e he
  have hkeep : ∀ (s : System × Changes) i, Inv sha s.1 s.2 →
      Inv sha (watched (step sha) note s i).1.1 (watched (step sha) note s i).1.2 :=
    fun _ i h => inv_step i h
  have hinv := run_invariant hkeep (inv_start sha db.keyed) inputs e he
  exact loses_nothing (run_of _ _ _ e he) hinv.1 hinv.2

/-- An update of one turn, and a rename of its conversation that waits for the lock. -/
def updateAndRename : List Input :=
  let args : UpdateArgs := ⟨"c", some "turn-1", some "hello", false⟩
  [.start 0 (.update args), .advance 0, .advance 0, .start 1 (.locked (.rename "c" "d")),
    .advance 1] ++ List.replicate 5 (.advance 0) ++
  .callback 0 (some { ConversationState.empty "c" with summary := "A greeting." }) ::
    List.replicate 3 (.advance 0) ++ [.advance 1, .observe 0 false, .advance 0, .advance 0] ++
  List.replicate 9 (.advance 1)

theorem update_loses_nothing_renamed :
    (concurrentRun helloSha .empty updateAndRename).length = 27 ∧
      ∀ e ∈ concurrentRun helloSha .empty updateAndRename, LosesNothing helloSha e :=
  ⟨by decide +kernel, update_loses_nothing helloSha .empty updateAndRename⟩

/-- Both calls return, and the turn is under the new id. -/
example :
    let s := (final (watched (step helloSha) note)
      (.start Conversations.empty.records, fun _ => []) updateAndRename).1
    (s.phase 0).outcome = some .returned ∧ (s.phase 1).outcome = some .returned ∧
      s.db.keys = [("conversations", "d")] := by decide +kernel

end NuSelf.Conversation.Wire.Concurrent
