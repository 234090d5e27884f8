/-
  Who owns the daemon runtime?

  One advisory file lock says which daemon lifecycle owns the runtime.  A daemon takes it before
  anything else and exits if it is contended.  A status probe answers by taking the very same lock,
  and `start` probes while the daemon it has spawned is trying to take it.

  Processes move one system call at a time: the check that the lock file exists, its creation, the
  non-blocking `flock`, the unlock.  The kernel gives the lock to one handle and takes it back when
  the process dies.

  1. `lockInv_step` — the holder of the lock is an owning daemon, or a probe between its two calls;
  2. `one_daemon` — so no two daemons own the runtime at the same time;
  3. `invisible_step_iff` — a step mistakes nobody for a daemon exactly when no `flock` meets a
     probe that holds the lock;
  4. `invisible_iff` — so does a run.
-/
import NuSelf.Lib.Run

namespace NuSelf.Daemon

open NuSelf.Lib

/-! ## Processes -/

/-- `daemon_instance_owned(path)`, call by call. -/
inductive ProbePoint where
  /-- Before `path.exists()`. -/
  | checking
  /-- Before the creation of the lock file. -/
  | opening
  /-- Before `flock(LOCK_EX | LOCK_NB)`. -/
  | locking
  /-- Before `flock(LOCK_UN)`. -/
  | holding
  deriving DecidableEq

/-- `run_daemon()`. -/
inductive DaemonPoint where
  | opening
  | locking
  /-- Holds the lock; a serving daemon answers pings. -/
  | owning (serving : Bool)
  | exited (code : Int)
  deriving DecidableEq

inductive DaemonPhase where
  | stopped | ownedUnready | ready | inconsistent
  deriving DecidableEq, Repr

/-- The phase that `status` derives from a ping and a probe. -/
def DaemonPhase.of (running owned : Bool) : DaemonPhase :=
  if running = true then (if owned = true then .ready else .inconsistent)
  else (if owned = true then .ownedUnready else .stopped)

/-- How a `start` ends. -/
inductive StartOutcome where
  | alreadyReady | started | statusFailed | ownerUnready | timeout
  | processExited (code : Int)
  deriving DecidableEq

/-- `start()`. -/
inductive StartPoint where
  | pinging
  | probing (running : Bool) (probe : ProbePoint)
  | spawning
  /-- Before `process.poll()`. -/
  | polling
  | finished (outcome : StartOutcome)
  deriving DecidableEq

inductive Process where
  | idle
  | daemon (point : DaemonPoint)
  | probe (point : ProbePoint)
  | answered (owned : Bool)
  /-- A `start` with the daemon that it has spawned. -/
  | start (child : Option Nat) (point : StartPoint)
  deriving DecidableEq

namespace Process

/-- The probe that a process is in. -/
def asking : Process → Option ProbePoint
  | .probe point => some point
  | .start _ (.probing _ point) => some point
  | _ => none

/-- The process with its probe at another point. -/
def goOn (point : ProbePoint) : Process → Process
  | .start child (.probing running _) => .start child (.probing running point)
  | _ => .probe point

def isOwning : Process → Bool
  | .daemon (.owning _) => true
  | _ => false

/-- A process whose handle has the lock. -/
def holds (p : Process) : Bool := p.isOwning || decide (p.asking = some .holding)

/-- A process whose next call is `flock(LOCK_EX | LOCK_NB)`. -/
def atFlock (p : Process) : Bool :=
  decide (p = .daemon .locking) || decide (p.asking = some .locking)

end Process

/-- What `start` does with the phase it has observed: before it has spawned a daemon, and after. -/
def afterStatus (child : Option Nat) (phase : DaemonPhase) : StartPoint :=
  match child, phase with
  | none, .ready => .finished .alreadyReady
  | none, .ownedUnready => .finished .ownerUnready
  | none, .inconsistent => .finished .statusFailed
  | none, .stopped => .spawning
  | some _, .ready => .finished .started
  | some _, _ => .polling

/-- What is left of a process that is killed. -/
def Process.died : Process → Process
  | .daemon _ => .daemon (.exited (-9))
  | _ => .idle

/-- The process with the answer of its probe. -/
def Process.answer (owned : Bool) : Process → Process
  | .start child (.probing running _) => .start child (afterStatus child (.of running owned))
  | _ => .answered owned

/-! ## The machine -/

structure InstanceState where
  /-- The lock file exists; it is never removed. -/
  lockFile : Bool
  holder : Option Nat
  procs : Nat → Process

def InstanceState.new (lockFile : Bool) : InstanceState := ⟨lockFile, none, fun _ => .idle⟩

def InstanceState.setProc (s : InstanceState) (n : Nat) (p : Process) : InstanceState :=
  { s with procs := fun m => if m = n then p else s.procs m }

/-- What shows of a step. -/
structure InstanceOutput where
  /-- The answer of a probe. -/
  probed : Option Bool := none
  /-- A daemon found the lock contended and exits. -/
  contended : Bool := false
  reported : Option StartOutcome := none
  deriving DecidableEq

inductive InstanceInput where
  | runDaemon (n : Nat)
  | probe (n : Nat)
  | start (n : Nat)
  /-- The next call of a process. -/
  | call (n : Nat)
  /-- A ping of `start`; a serving daemon may fail to answer in time. -/
  | ping (n : Nat) (inTime : Bool)
  /-- `start` spawns its daemon as a new process. -/
  | spawn (n child : Nat)
  | serve (n : Nat)
  /-- The daemon has shut down and gives the lock back. -/
  | release (n : Nat)
  /-- The time of `start` is up. -/
  | expire (n : Nat)
  /-- The process dies. -/
  | crash (n : Nat)

/-- What a `start` reports when it gets to the point. -/
def StartPoint.report : StartPoint → Option StartOutcome
  | .finished outcome => some outcome
  | _ => none

def Process.report : Process → Option StartOutcome
  | .start _ point => point.report
  | _ => none

/-- A probe answers, and a `start` goes on with it. -/
def answerProbe (s : InstanceState) (n : Nat) (owned : Bool) : InstanceState × InstanceOutput :=
  let p := (s.procs n).answer owned
  (s.setProc n p, { probed := some owned, reported := p.report })

/-- The next call of a probe. -/
def probeCall (s : InstanceState) (n : Nat) : ProbePoint → InstanceState × InstanceOutput
  | .checking =>
    if s.lockFile = true then (s.setProc n ((s.procs n).goOn .opening), {})
    else answerProbe s n false
  | .opening => ({ s.setProc n ((s.procs n).goOn .locking) with lockFile := true }, {})
  | .locking =>
    match s.holder with
    | none => ({ s.setProc n ((s.procs n).goOn .holding) with holder := some n }, {})
    | some _ => answerProbe s n true
  | .holding => answerProbe { s with holder := none } n false

/-- The next call of a daemon. -/
def daemonCall (s : InstanceState) (n : Nat) : DaemonPoint → InstanceState × InstanceOutput
  | .opening => ({ s.setProc n (.daemon .locking) with lockFile := true }, {})
  | .locking =>
    match s.holder with
    | none => ({ s.setProc n (.daemon (.owning false)) with holder := some n }, {})
    | some _ => (s.setProc n (.daemon (.exited 1)), { contended := true })
  | .owning _ => (s, {})
  | .exited _ => (s, {})

/-- `process.poll()`: the exit code of the spawned daemon. -/
def InstanceState.exitCode (s : InstanceState) (child : Option Nat) : Option Int :=
  match child.map s.procs with
  | some (.daemon (.exited code)) => some code
  | _ => none

/-- The call of a process that is in no probe. -/
def otherCall (s : InstanceState) (n : Nat) : InstanceState × InstanceOutput :=
  match s.procs n with
  | .daemon point => daemonCall s n point
  | .start child .polling =>
    match s.exitCode child with
    | some code =>
      (s.setProc n (.start child (.finished (.processExited code))),
        { reported := some (.processExited code) })
    | none => (s.setProc n (.start child .pinging), {})
  | _ => (s, {})

/-- A daemon answers pings. -/
def InstanceState.serving (s : InstanceState) : Bool :=
  (s.holder.map s.procs).any fun p => decide (p = .daemon (.owning true))

/-- One step of a process; a step that the process is not up to does nothing. -/
def instanceStep (s : InstanceState) : InstanceInput → InstanceState × InstanceOutput
  | .runDaemon n =>
    if s.procs n = .idle then (s.setProc n (.daemon .opening), {}) else (s, {})
  | .probe n => if s.procs n = .idle then (s.setProc n (.probe .checking), {}) else (s, {})
  | .start n => if s.procs n = .idle then (s.setProc n (.start none .pinging), {}) else (s, {})
  | .call n =>
    match (s.procs n).asking with
    | some point => probeCall s n point
    | none => otherCall s n
  | .ping n inTime =>
    match s.procs n with
    | .start child .pinging =>
      (s.setProc n (.start child (.probing (inTime && s.serving) .checking)), {})
    | _ => (s, {})
  | .spawn n child =>
    if s.procs n = .start none .spawning ∧ s.procs child = .idle then
      ((s.setProc n (.start (some child) .pinging)).setProc child (.daemon .opening), {})
    else (s, {})
  | .serve n =>
    match s.procs n with
    | .daemon (.owning _) => (s.setProc n (.daemon (.owning true)), {})
    | _ => (s, {})
  | .release n =>
    match s.procs n with
    | .daemon (.owning _) =>
      ({ s.setProc n (.daemon (.exited 0)) with holder := none }, {})
    | _ => (s, {})
  | .expire n =>
    match s.procs n with
    | .start (some child) .pinging =>
      (s.setProc n (.start (some child) (.finished .timeout)), { reported := some .timeout })
    | _ => (s, {})
  | .crash n =>
    ({ s.setProc n (s.procs n).died with holder := s.holder.filter fun d => decide (d ≠ n) }, {})

/-! ## The lock -/

/-- The holder of the lock is the process whose handle has it. -/
def LockInv (s : InstanceState) : Prop := ∀ n, s.holder = some n ↔ (s.procs n).holds = true

theorem lockInv_new (lockFile : Bool) : LockInv (.new lockFile) :=
  fun _ => ⟨fun h => (nomatch h), fun h => (nomatch h)⟩

variable {s s' : InstanceState} {n : Nat} {p : Process}

theorem LockInv.setProc (h : LockInv s) (hp : p.holds = (s.procs n).holds) :
    LockInv (s.setProc n p) := by
  intro m
  have hproc : (s.setProc n p).procs m = if m = n then p else s.procs m := rfl
  rw [hproc]
  show s.holder = some m ↔ _
  by_cases hm : m = n
  · rw [if_pos hm, hp, hm]
    exact h n
  · rw [if_neg hm]
    exact h m

theorem LockInv.lockFile (h : LockInv s) (lockFile : Bool) : LockInv { s with lockFile } := h

theorem LockInv.take (h : LockInv s) (hfree : s.holder = none) (hp : p.holds = true) :
    LockInv { s.setProc n p with holder := some n } := by
  intro m
  show some n = some m ↔ ((if m = n then p else s.procs m) : Process).holds = true
  by_cases hm : m = n
  · rw [if_pos hm, hm]
    exact ⟨fun _ => hp, fun _ => rfl⟩
  · rw [if_neg hm]
    have hnobody : ¬ (s.procs m).holds = true := by
      intro hholds
      have hholder := (h m).mpr hholds
      rw [hfree] at hholder
      cases hholder
    exact ⟨fun heq => absurd (Option.some.inj heq).symm hm, fun hholds => absurd hholds hnobody⟩

theorem LockInv.drop (h : LockInv s) (hholds : (s.procs n).holds = true) (hp : p.holds = false) :
    LockInv { s.setProc n p with holder := none } := by
  intro m
  show none = some m ↔ ((if m = n then p else s.procs m) : Process).holds = true
  have hn : s.holder = some n := (h n).mpr hholds
  by_cases hm : m = n
  · rw [if_pos hm, hp]
    exact ⟨fun heq => (nomatch heq), fun heq => (nomatch heq)⟩
  · rw [if_neg hm]
    have hnot : ¬ (s.procs m).holds = true := by
      intro hmholds
      have hsame : some n = some m := hn.symm.trans ((h m).mpr hmholds)
      exact hm (Option.some.inj hsame).symm
    exact ⟨fun heq => (nomatch heq), fun hmholds => absurd hmholds hnot⟩

theorem goOn_holds {point point' : ProbePoint} (hp : p.asking = some point) :
    (p.goOn point').asking = some point' ∧
      (p.goOn point').holds = decide (point' = .holding) ∧
      p.holds = decide (point = .holding) := by
  cases p with
  | idle | daemon | answered => cases hp
  | probe q =>
    obtain rfl := Option.some.inj hp
    refine ⟨rfl, ?_, ?_⟩
    · cases point' <;> rfl
    · cases q <;> rfl
  | start child q =>
    cases q with
    | pinging | spawning | polling | finished => cases hp
    | probing running q =>
      obtain rfl := Option.some.inj hp
      refine ⟨rfl, ?_, ?_⟩
      · cases point' <;> rfl
      · cases q <;> rfl

theorem answer_holds (p : Process) (owned : Bool) : (p.answer owned).holds = false := by
  unfold Process.answer
  split
  · rename_i child running point
    cases hphase : DaemonPhase.of running owned <;> cases child <;> rfl
  · rfl

theorem probeCall_inv {point : ProbePoint} (h : LockInv s) (hp : (s.procs n).asking = some point) :
    LockInv (probeCall s n point).1 := by
  have hholds : (s.procs n).holds = decide (point = .holding) := (@goOn_holds _ point point hp).2.2
  have hmoved : ∀ point', ((s.procs n).goOn point').holds = decide (point' = .holding) :=
    fun point' => (goOn_holds hp).2.1
  unfold probeCall
  cases point with
  | checking =>
    dsimp only
    split
    · exact h.setProc (by rw [hmoved, hholds]; rfl)
    · exact h.setProc (by rw [answer_holds, hholds]; rfl)
  | opening => exact (h.setProc (by rw [hmoved, hholds]; rfl)).lockFile true
  | locking =>
    dsimp only
    split
    · rename_i hfree
      exact h.take hfree (by rw [hmoved]; rfl)
    · exact h.setProc (by rw [answer_holds, hholds]; rfl)
  | holding => exact h.drop hholds (answer_holds _ _)

theorem daemonCall_inv {point : DaemonPoint} (h : LockInv s) (hp : s.procs n = .daemon point) :
    LockInv (daemonCall s n point).1 := by
  unfold daemonCall
  cases point with
  | opening => exact (h.setProc (by rw [hp]; rfl)).lockFile true
  | locking =>
    dsimp only
    split
    · rename_i hfree
      exact h.take hfree rfl
    · exact h.setProc (by rw [hp]; rfl)
  | owning serving => exact h
  | exited code => exact h

/-- **The step lemma**: whatever a process does, the lock is with the one whose handle has it. -/
theorem lockInv_step (s : InstanceState) (i : InstanceInput) (h : LockInv s) :
    LockInv (instanceStep s i).1 := by
  cases i with
  | runDaemon n =>
    simp only [instanceStep]
    split
    · rename_i hp
      exact h.setProc (by rw [hp]; rfl)
    · exact h
  | probe n =>
    simp only [instanceStep]
    split
    · rename_i hp
      exact h.setProc (by rw [hp]; rfl)
    · exact h
  | start n =>
    simp only [instanceStep]
    split
    · rename_i hp
      exact h.setProc (by rw [hp]; rfl)
    · exact h
  | call n =>
    simp only [instanceStep]
    split
    · rename_i point hp
      exact probeCall_inv h hp
    · unfold otherCall
      split
      · rename_i point hp
        exact daemonCall_inv h hp
      · rename_i child hp
        split
        · exact h.setProc (by rw [hp]; rfl)
        · exact h.setProc (by rw [hp]; rfl)
      · exact h
  | ping n inTime =>
    simp only [instanceStep]
    split
    · rename_i child hp
      exact h.setProc (by rw [hp]; rfl)
    · exact h
  | spawn n child =>
    simp only [instanceStep]
    split
    · rename_i hp
      obtain ⟨hn, hchild⟩ := hp
      have hne : child ≠ n := by
        rintro rfl
        rw [hn] at hchild
        cases hchild
      have hchild' : (s.setProc n (.start (some child) .pinging)).procs child = .idle := by
        show (if child = n then _ else s.procs child) = _
        rw [if_neg hne, hchild]
      exact (h.setProc (by rw [hn]; rfl)).setProc (by rw [hchild']; rfl)
    · exact h
  | serve n =>
    simp only [instanceStep]
    split
    · rename_i serving hp
      exact h.setProc (by rw [hp]; rfl)
    · exact h
  | release n =>
    simp only [instanceStep]
    split
    · rename_i serving hp
      exact h.drop (by rw [hp]; rfl) rfl
    · exact h
  | expire n =>
    simp only [instanceStep]
    split
    · rename_i child hp
      exact h.setProc (by rw [hp]; rfl)
    · exact h
  | crash n =>
    have hdied : (s.procs n).died.holds = false := by
      cases s.procs n <;> rfl
    intro m
    show (s.holder.filter fun d => decide (d ≠ n)) = some m ↔
      ((if m = n then (s.procs n).died else s.procs m) : Process).holds = true
    rw [Option.filter_eq_some_iff, decide_eq_true_iff]
    by_cases hm : m = n
    · rw [if_pos hm, hdied]
      exact ⟨fun hboth => absurd hm hboth.2, fun heq => nomatch heq⟩
    · rw [if_neg hm, ← h m]
      exact ⟨fun hboth => hboth.1, fun hholder => ⟨hholder, hm⟩⟩

/-- **One daemon at a time**: whatever daemons, probes, starts and crashes come in whatever order,
    no two processes own the runtime, and the lock is never with a process that has let it go. -/
theorem one_daemon (lockFile : Bool) (inputs : List InstanceInput) :
    let s := final instanceStep (.new lockFile) inputs
    (∀ m n, (s.procs m).isOwning = true → (s.procs n).isOwning = true → m = n) ∧
      ∀ d, s.holder = some d → (s.procs d).holds = true := by
  intro s
  have hinv : LockInv s := final_induct lockInv_step _ inputs (lockInv_new lockFile)
  have hholder : ∀ n, (s.procs n).isOwning = true → s.holder = some n := by
    intro n howning
    exact (hinv n).mpr (by rw [Process.holds, howning, Bool.true_or])
  refine ⟨fun m n hm hn => ?_, fun d => (hinv d).mp⟩
  exact Option.some.inj ((hholder m hm).symm.trans (hholder n hn))

/-! ## Invisible probes -/

/-- A daemon lifecycle holds the lock. -/
def InstanceState.daemonOwns (s : InstanceState) : Prop :=
  ∃ d, s.holder = some d ∧ (s.procs d).isOwning = true

/-- A step that takes no probe for a daemon. -/
structure ProbesInvisible (e : Step InstanceState InstanceInput InstanceOutput) : Prop where
  /-- A probe reports the runtime as owned only if a daemon holds the lock. -/
  probed : e.output.probed = some true → e.before.daemonOwns
  /-- A daemon finds the lock contended only if another one holds it. -/
  contended : e.output.contended = true → ∃ n d, e.input = .call n ∧ d ≠ n ∧
    e.before.holder = some d ∧ (e.before.procs d).isOwning = true
  /-- A `start` reports an owner that is not ready only if there is one. -/
  unready : e.output.reported = some .ownerUnready → e.before.daemonOwns

/-- The condition on a step: a `flock` does not meet a probe that holds the lock. -/
def MeetsNoProbe (s : InstanceState) : InstanceInput → Prop
  | .call n => (s.procs n).atFlock = true →
      ∀ d, s.holder = some d → (s.procs d).asking ≠ some .holding
  | _ => True

theorem isOwning_of_holder (h : LockInv s) {d : Nat} (hd : s.holder = some d)
    (hprobe : (s.procs d).asking ≠ some .holding) : (s.procs d).isOwning = true := by
  have hholds := (h d).mp hd
  rw [Process.holds, Bool.or_eq_true] at hholds
  rcases hholds with howning | hasking
  · exact howning
  · exact absurd (of_decide_eq_true hasking) hprobe

theorem asking_of_isOwning (h : p.isOwning = true) : p.asking = none := by
  cases p with
  | daemon point => rfl
  | idle | probe | answered | start => cases h

theorem silent_of_not_call (i : InstanceInput) (hi : ∀ n, i ≠ .call n) :
    (instanceStep s i).2.probed = none ∧ (instanceStep s i).2.contended = false ∧
      (instanceStep s i).2.reported ≠ some .ownerUnready := by
  cases i with
  | call n => exact absurd rfl (hi n)
  | crash n => exact ⟨rfl, rfl, fun h => nomatch h⟩
  | runDaemon | probe | start | ping | spawn | serve | release | expire =>
    simp only [instanceStep]
    split <;> exact ⟨rfl, rfl, fun h => nomatch h⟩

/-- An answer that is not `owned` makes no `start` report an unready owner. -/
theorem answer_report {owned : Bool} (h : (p.answer owned).report = some .ownerUnready) :
    owned = true := by
  unfold Process.answer at h
  split at h
  · rename_i child running point
    cases owned with
    | true => rfl
    | false => cases running <;> cases child <;> cases h
  · cases h

theorem call_shows (n : Nat) :
    ((instanceStep s (.call n)).2.probed ≠ some true ∧
      (instanceStep s (.call n)).2.contended = false ∧
      (instanceStep s (.call n)).2.reported ≠ some .ownerUnready) ∨
    ((s.procs n).atFlock = true ∧ ∃ d, s.holder = some d) := by
  have hanswer : ∀ t : InstanceState, (answerProbe t n false).2.probed ≠ some true ∧
      (answerProbe t n false).2.contended = false ∧
      (answerProbe t n false).2.reported ≠ some .ownerUnready := by
    intro t
    refine ⟨fun h => (nomatch h), rfl, fun h => ?_⟩
    have howned := answer_report h
    cases howned
  simp only [instanceStep]
  split
  · rename_i point hp
    cases point with
    | checking =>
      refine Or.inl ?_
      unfold probeCall
      dsimp only
      split
      · exact ⟨fun h => (nomatch h), rfl, fun h => nomatch h⟩
      · exact hanswer s
    | opening => exact Or.inl ⟨fun h => (nomatch h), rfl, fun h => nomatch h⟩
    | holding => exact Or.inl (hanswer _)
    | locking =>
      unfold probeCall
      dsimp only
      split
      · exact Or.inl ⟨fun h => (nomatch h), rfl, fun h => nomatch h⟩
      · rename_i d hd
        refine Or.inr ⟨?_, d, hd⟩
        rw [Process.atFlock, hp, Bool.or_eq_true]
        exact Or.inr rfl
  · unfold otherCall
    split
    · rename_i point hp
      cases point with
      | opening | owning | exited => exact Or.inl ⟨fun h => (nomatch h), rfl, fun h => nomatch h⟩
      | locking =>
        unfold daemonCall
        dsimp only
        split
        · exact Or.inl ⟨fun h => (nomatch h), rfl, fun h => nomatch h⟩
        · rename_i d hd
          refine Or.inr ⟨?_, d, hd⟩
          rw [Process.atFlock, hp]
          rfl
    · split <;> exact Or.inl ⟨fun h => (nomatch h), rfl, fun h => nomatch h⟩
    · exact Or.inl ⟨fun h => (nomatch h), rfl, fun h => nomatch h⟩

theorem flock_shows {d : Nat} (hflock : (s.procs n).atFlock = true) (hd : s.holder = some d) :
    (instanceStep s (.call n)).2.probed = some true ∨
      (instanceStep s (.call n)).2.contended = true := by
  rw [Process.atFlock, Bool.or_eq_true] at hflock
  rcases hflock with hdaemon | hasking
  · have hn : s.procs n = .daemon .locking := of_decide_eq_true hdaemon
    refine Or.inr ?_
    simp only [instanceStep, hn, Process.asking, otherCall, daemonCall, hd]
  · have hn : (s.procs n).asking = some .locking := of_decide_eq_true hasking
    refine Or.inl ?_
    simp only [instanceStep, hn, probeCall, hd, answerProbe]

/-- **A step takes no probe for a daemon exactly under the condition.** -/
theorem invisible_step_iff (e : Step InstanceState InstanceInput InstanceOutput)
    (he : e.Of instanceStep) (h : LockInv e.before) :
    ProbesInvisible e ↔ MeetsNoProbe e.before e.input := by
  obtain ⟨s, i, o, s'⟩ := e
  obtain rfl : (instanceStep s i).2 = o := he.output_eq
  by_cases hi : ∀ n, i ≠ .call n
  · obtain ⟨hprobed, hcontended, hreported⟩ := @silent_of_not_call s i hi
    have hok : MeetsNoProbe s i := by
      cases i with
      | call n => exact absurd rfl (hi n)
      | runDaemon | probe | start | ping | spawn | serve | release | expire | crash => trivial
    refine ⟨fun _ => hok, fun _ => ⟨fun hp => ?_, fun hc => ?_, fun hr => absurd hr hreported⟩⟩
    · rw [hprobed] at hp
      cases hp
    · rw [hcontended] at hc
      cases hc
  · push Not at hi
    obtain ⟨n, rfl⟩ := hi
    constructor
    · intro hgood hflock d hd hprobe
      -- the probe is taken for a daemon: the caller finds the lock held
      have howner : s.daemonOwns := by
        rcases flock_shows hflock hd with hshown | hshown
        · exact hgood.probed hshown
        · obtain ⟨n', d', -, -, hd', howning⟩ := hgood.contended hshown
          exact ⟨d', hd', howning⟩
      obtain ⟨d', hd', howning⟩ := howner
      obtain rfl : d = d' := Option.some.inj (hd.symm.trans hd')
      rw [asking_of_isOwning howning] at hprobe
      cases hprobe
    · intro hok
      rcases @call_shows s n with ⟨hprobed, hcontended, hreported⟩ | ⟨hflock, d, hd⟩
      · refine ⟨fun hp => absurd hp hprobed, fun hc => ?_, fun hr => absurd hr hreported⟩
        have hfalse : (instanceStep s (.call n)).2.contended = true := hc
        rw [hcontended] at hfalse
        cases hfalse
      · have howning := isOwning_of_holder h hd (hok hflock d hd)
        have hne : d ≠ n := by
          rintro rfl
          rw [Process.atFlock, Bool.or_eq_true, asking_of_isOwning howning] at hflock
          rcases hflock with hdaemon | hasking
          · rw [of_decide_eq_true hdaemon] at howning
            cases howning
          · exact absurd (of_decide_eq_true hasking) (fun heq => nomatch heq)
        exact ⟨fun _ => ⟨d, hd, howning⟩, fun _ => ⟨n, d, rfl, hne, hd, howning⟩,
          fun _ => ⟨d, hd, howning⟩⟩

/-- **In a run no probe is taken for a daemon exactly when no `flock` meets a probe that holds the
    lock.** -/
theorem invisible_iff (lockFile : Bool) (inputs : List InstanceInput) :
    (∀ e ∈ run instanceStep (.new lockFile) inputs, ProbesInvisible e) ↔
      ∀ e ∈ run instanceStep (.new lockFile) inputs, MeetsNoProbe e.before e.input :=
  @run_forall_iff _ _ _ _ LockInv _ _ (fun s i h _ => lockInv_step s i h) invisible_step_iff _
    inputs (lockInv_new lockFile)

/-- `start` probes while the daemon that it has spawned takes the lock. -/
def probedStart : List InstanceInput :=
  [.start 0, .ping 0 true, .call 0, .spawn 0 1, .call 1, .ping 0 true, .call 0, .call 0, .call 0,
    .call 1]

/-- The daemon exits as contended, and there is no other. -/
theorem start_kills_its_daemon :
    ¬ ∀ (lockFile : Bool) (inputs : List InstanceInput),
      ∀ e ∈ run instanceStep (.new lockFile) inputs, ProbesInvisible e := by
  intro h
  have hlast := h false probedStart _ (List.mem_of_getLast? rfl)
  obtain ⟨n, d, -, -, hd, howning⟩ := hlast.contended (by decide)
  obtain rfl : 0 = d := Option.some.inj hd
  revert howning
  decide

end NuSelf.Daemon
