/-
  The authority that is published is complete, and stays.

  Only the holder of the schema lease acts on the canonical path, so what a call has found there
  when it took the lease is still there when it replaces it.  The actions of a building are safe
  by `program_safe`; a call that waits for the lease has nothing on its desk.

  1. **The invariant** (`Inv`) — one call holds the lease, the canonical file is complete, and each
     call's place is sound (`Phase.Sound`).
  2. `next_step` — every step keeps it, and keeps the canonical file; `Inv.move`, `Inv.act`,
     `Inv.take`, `Inv.release` and `Inv.crash` are the ways to take a step.
  3. `authority_published` — in every run of any number of calls.
-/
import NuSelf.Storage.Authority

namespace NuSelf.Storage.Authority

open NuSelf.Lib NuSelf.Migrations

variable {ρ : Type} {upper : String → String} {noRows : ρ} {n : Nat}

/-! ## Places -/

/-- What holds of the canonical path and of a call's desk, at each of its places. -/
def Phase.Sound (noRows : ρ) (n : Nat) (site : Site ρ) : Phase ρ → Prop
  | .idle | .looking | .preparing | .openingLease | .locking | .lookingAgain =>
    site.2 = .new noRows
  | .initializing rest =>
    Script.Safe (perform noRows n) (Stopped noRows n) Publishes CleanSite rest site
  | .cleaning rest _ => Handled noRows n rest site
  | .releasing errors | .raised errors => .cleanup ∉ errors → site.2.Clean
  | .lookingLast | .opening => site.2.Clean
  | .returned file => Complete file.database
  | .dead => True

theorem Desk.Clean.of_new {d : Desk ρ} (h : d = .new noRows) : d.Clean := by
  rw [h]
  exact ⟨rfl, fun _ => rfl⟩

theorem Phase.Sound.congr {p : Phase ρ} {site : Site ρ} (h : p.Sound noRows n site)
    (hheld : p.held = []) (canonical : Option (File ρ)) :
    p.Sound noRows n (canonical, site.2) := by
  cases p with
  | initializing rest => cases hheld
  | cleaning rest errors => cases hheld
  | idle => exact h
  | looking => exact h
  | preparing => exact h
  | openingLease => exact h
  | locking => exact h
  | lookingAgain => exact h
  | releasing errors => exact h
  | lookingLast => exact h
  | opening => exact h
  | returned file => exact h
  | raised errors => exact h
  | dead => trivial

/-! ## The invariant -/

structure Inv (noRows : ρ) (s : System ρ) : Prop where
  lease : Agree s.lease fun n => (s.phase n).held
  complete : ∀ file, s.canonical = some file → Complete file.database
  sound : ∀ n, (s.phase n).Sound noRows n (s.site n)

theorem inv_start {canonical : Option (File ρ)}
    (h : ∀ file, canonical = some file → Complete file.database) :
    Inv noRows (.start noRows canonical) where
  lease := fun _ _ => ⟨nofun, nofun⟩
  complete := h
  sound := fun _ => rfl

/-- A step keeps the invariant, and the canonical file if there is one. -/
structure Next (noRows : ρ) (s s' : System ρ) : Prop where
  inv : Inv noRows s'
  kept : ∀ file, s.canonical = some file → s'.canonical = some file

section

variable {s : System ρ}

theorem Inv.stay (h : Inv noRows s) : Next noRows s s := ⟨h, fun _ hfile => hfile⟩

theorem sound_update {desk : Nat → Desk ρ} {p : Phase ρ} {canonical : Option (File ρ)}
    (hother : ∀ m, m ≠ n → (s.phase m).Sound noRows m (canonical, desk m))
    (hown : p.Sound noRows n (canonical, desk n)) (m : Nat) :
    (Function.update s.phase n p m).Sound noRows m (canonical, desk m) := by
  by_cases hm : m = n
  · subst hm
    rw [Function.update_self]
    exact hown
  · rw [Function.update_of_ne hm]
    exact hother m hm

theorem Inv.move (h : Inv noRows s) {p : Phase ρ} (hheld : p.held = (s.phase n).held)
    (hsound : p.Sound noRows n (s.site n)) : Next noRows s (s.move n p) := by
  refine ⟨⟨h.lease.congr fun m u => ?_, h.complete, ?_⟩, fun _ hfile => hfile⟩
  · show u ∈ (Function.update s.phase n p m).held ↔ _
    by_cases hm : m = n
    · subst hm
      rw [Function.update_self, hheld]
    · rw [Function.update_of_ne hm]
  · exact sound_update (fun m _ => h.sound m) hsound

theorem Inv.act (h : Inv noRows s) {site : Site ρ} {p : Phase ρ} (hheld : (s.phase n).held = [()])
    (hp : p.held = [()]) (hpublishes : Publishes (s.site n) site)
    (hsound : p.Sound noRows n site) : Next noRows s ((s.put n site).move n p) := by
  have hkept : ∀ file, s.canonical = some file → site.1 = some file := by
    intro file hfile
    obtain hsame | ⟨hnone, -⟩ := hpublishes
    · exact hsame.trans hfile
    · rw [show s.canonical = none from hnone] at hfile
      cases hfile
  refine ⟨⟨h.lease.congr fun m u => ?_, fun file hfile => ?_, ?_⟩, hkept⟩
  · show u ∈ (Function.update s.phase n p m).held ↔ _
    by_cases hm : m = n
    · subst hm
      rw [Function.update_self, hp, hheld]
    · rw [Function.update_of_ne hm]
  · obtain hsame | ⟨-, file', hfile', hcomplete⟩ := hpublishes
    · exact h.complete file (hsame.symm.trans hfile)
    · cases hfile'.symm.trans hfile
      exact hcomplete
  · refine @sound_update ρ noRows n s (Function.update s.desk n site.2) p site.1 (fun m hm => ?_) ?_
    · -- no other call holds the lease
      have hfree : (s.phase m).held = [] := by
        have hmine : () ∈ (s.phase n).held := by rw [hheld]; exact List.mem_cons_self
        have hnot : () ∉ (s.phase m).held := h.lease.not_held hmine hm
        exact List.eq_nil_iff_forall_not_mem.mpr fun _ => hnot
      rw [Function.update_of_ne hm]
      exact (h.sound m).congr hfree site.1
    · rw [Function.update_self]
      exact hsound

theorem Inv.take (h : Inv noRows s) {p : Phase ρ} (hfree : s.lease () = none)
    (hp : p.held = [()]) (hsound : p.Sound noRows n (s.site n)) :
    Next noRows s ({ s with lease := Function.update s.lease () (some n) }.move n p) := by
  refine ⟨⟨h.lease.take hfree (fun _ => ?_) fun m hm => ?_, h.complete, ?_⟩, fun _ hfile => hfile⟩
  · show _ ∈ (Function.update s.phase n p n).held ↔ _
    rw [Function.update_self, hp]
    exact ⟨fun _ => .inl rfl, fun _ => List.mem_cons_self⟩
  · show (Function.update s.phase n p m).held = _
    rw [Function.update_of_ne hm]
  · exact sound_update (fun m _ => h.sound m) hsound

theorem Inv.release (h : Inv noRows s) {p : Phase ρ} (hheld : (s.phase n).held = [()])
    (hp : p.held = []) (hsound : p.Sound noRows n (s.site n)) :
    Next noRows s ({ s with lease := Function.update s.lease () none }.move n p) := by
  have hmine : () ∈ (s.phase n).held := by rw [hheld]; exact List.mem_cons_self
  refine ⟨⟨h.lease.release hmine (fun _ => ?_) fun m hm => ?_, h.complete, ?_⟩,
    fun _ hfile => hfile⟩
  · show _ ∈ (Function.update s.phase n p n).held ↔ _
    rw [Function.update_self, hp]
    exact ⟨nofun, fun hmem => absurd rfl hmem.1⟩
  · show (Function.update s.phase n p m).held = _
    rw [Function.update_of_ne hm]
  · exact sound_update (fun m _ => h.sound m) hsound

/-! ## Steps -/

theorem Inv.raises (h : Inv noRows s) {site : Site ρ} (hheld : (s.phase n).held = [()])
    (hpublishes : Publishes (s.site n) site) (hstopped : Stopped noRows n site)
    (error : AuthorityError) : Next noRows s ((s.put n site).raises n error) := by
  have hdesk : (s.put n site).desk n = site.2 := Function.update_self ..
  rw [System.raises, hdesk]
  exact h.act hheld rfl hpublishes hstopped

theorem Inv.raisesAgain (h : Inv noRows s) {site : Site ρ} {a : Action} {rest : List Action}
    {errors : List AuthorityError} (hheld : (s.phase n).held = [()])
    (hpublishes : Publishes (s.site n) site)
    (hrest : a = .abandonConnection → Handled noRows n rest site) (error : AuthorityError) :
    Next noRows s ((s.put n site).raisesAgain n a rest error errors) := by
  unfold System.raisesAgain
  split
  · exact h.act hheld rfl hpublishes (hrest rfl)
  · exact h.act hheld rfl hpublishes fun hclean => absurd List.mem_cons_self hclean

theorem Inv.crash (h : Inv noRows s) (n : Nat) : Next noRows s (s.crash n) := by
  refine ⟨⟨h.lease.abandon (n := n) ?_ fun m hm => ?_, h.complete, ?_⟩, fun _ hfile => hfile⟩
  · show (Function.update s.phase n .dead n).held = _
    rw [Function.update_self]
    rfl
  · show (Function.update s.phase n .dead m).held = _
    rw [Function.update_of_ne hm]
  · exact sound_update (fun m _ => h.sound m) trivial

theorem sound_openPhase (h : Inv noRows s) (site : Site ρ) (hclean : site.2.Clean) :
    (s.openPhase upper).Sound noRows n site := by
  unfold System.openPhase
  split
  · exact fun _ => hclean
  · rename_i file hfile
    split
    · exact fun _ => hclean
    · split
      · exact h.complete file hfile
      · exact fun _ => hclean

theorem openPhase_held : (s.openPhase upper).held = [] := by
  unfold System.openPhase
  split
  · rfl
  · split
    · rfl
    · split <;> rfl

/-- **A call goes on.** -/
theorem next_advance (h : Inv noRows s) (n : Nat) (choice : Choice) :
    Next noRows s (s.advance upper noRows n choice) := by
  have hsound := h.sound n
  unfold System.advance
  generalize hphase : s.phase n = p at hsound ⊢
  have hheld := congrArg Phase.held hphase
  cases p with
  | looking =>
    refine h.move ?_ ?_
    · rw [hheld]
      split <;> rfl
    · split
      · exact Desk.Clean.of_new hsound
      · exact hsound
  | preparing => exact h.move hheld.symm hsound
  | openingLease => exact h.move hheld.symm hsound
  | locking =>
    dsimp only
    split
    · rename_i hfree
      exact h.take hfree rfl hsound
    · exact h.stay
  | lookingAgain =>
    -- the lease is held until the building is done
    refine h.move ?_ ?_
    · rw [hheld]
      split <;> rfl
    · have hsite : s.site n = (s.canonical, .new noRows) := Prod.ext rfl hsound
      split
      · exact fun _ => Desk.Clean.of_new hsound
      · rw [hsite]
        exact program_safe s.canonical
  | initializing script =>
    cases script with
    | nil => exact h.move hheld.symm fun _ => hsound
    | cons a rest =>
      have hpublishes := hsound.guaranteed choice
      dsimp only
      split
      · rename_i site hperform
        have hnext := hsound.next (congrArg Prod.snd hperform)
        rw [hperform] at hpublishes hnext
        exact h.act hheld rfl hpublishes hnext
      · rename_i site error hperform
        have hstopped := hsound.stopped_after choice
        rw [hperform] at hpublishes hstopped
        exact h.raises hheld hpublishes hstopped error
  | cleaning script errors =>
    cases script with
    | nil => exact h.move hheld.symm fun _ => hsound
    | cons a rest =>
      have hhandled : Handled noRows n (a :: rest) (s.site n) := hsound
      have hpublishes := Script.Safe.guaranteed hhandled choice
      dsimp only
      split
      · rename_i site hperform
        have hnext := Script.Safe.next hhandled (congrArg Prod.snd hperform)
        rw [hperform] at hpublishes hnext
        exact h.act hheld rfl hpublishes hnext
      · rename_i site error hperform
        rw [hperform] at hpublishes
        refine h.raisesAgain hheld hpublishes ?_ error
        rintro rfl
        cases hperform
  | releasing errors =>
    refine h.release hheld ?_ ?_
    · split <;> rfl
    · split
      · rename_i hnil
        subst hnil
        exact hsound nofun
      · exact hsound
  | lookingLast =>
    refine h.move ?_ ?_
    · rw [hheld]
      split <;> rfl
    · split
      · exact hsound
      · exact fun _ => hsound
  | opening => exact h.move (openPhase_held.trans hheld.symm) (sound_openPhase h _ hsound)
  | idle => exact h.stay
  | returned file => exact h.stay
  | raised errors => exact h.stay
  | dead => exact h.stay

/-- Where a connection cannot be closed, the rest of the handlers clears the desk all the same. -/
theorem Handled.unless_abandoned {rest : List Action} {site : Site ρ}
    (h : Handled noRows n (.abandonConnection :: rest) site) : Handled noRows n rest site := by
  -- a choice of SQLite that leaves everything
  let choice : Choice := ⟨site.2.sidecar, false, false⟩
  have hsite : (perform noRows n .abandonConnection choice site).1 = site := by
    show (site.1, Desk.sqlite site.2 choice) = site
    simp [Desk.sqlite, choice]
  have hnext : Handled noRows n rest (perform noRows n .abandonConnection choice site).1 :=
    Script.Safe.next h rfl
  rwa [hsite] at hnext

theorem fail_site (s : System ρ) (a : Action) (choice : Choice) (late : Bool) :
    (if late = true then s.put n (perform noRows n a choice (s.site n)).1 else s) =
      s.put n (if late = true then (perform noRows n a choice (s.site n)).1 else s.site n) := by
  split
  · rfl
  · show s = { s with desk := Function.update s.desk n (s.desk n) }
    rw [Function.update_eq_self]

/-- **A call fails.** -/
theorem next_fail (h : Inv noRows s) (n : Nat) (late : Bool) (choice : Choice) :
    Next noRows s (s.fail noRows n late choice) := by
  have hsound := h.sound n
  unfold System.fail
  generalize hphase : s.phase n = p at hsound ⊢
  have hheld := congrArg Phase.held hphase
  cases p with
  | looking => exact h.move hheld.symm fun _ => Desk.Clean.of_new hsound
  | preparing => exact h.move hheld.symm fun _ => Desk.Clean.of_new hsound
  | openingLease => exact h.move hheld.symm fun _ => Desk.Clean.of_new hsound
  | locking => exact h.move hheld.symm fun _ => Desk.Clean.of_new hsound
  | lookingAgain => exact h.move hheld.symm fun _ => Desk.Clean.of_new hsound
  | initializing script =>
    cases script with
    | nil => exact h.move hheld.symm fun _ => hsound
    | cons a rest =>
      dsimp only
      rw [fail_site]
      refine h.raises hheld ?_ ?_ .other
      · split
        · exact hsound.guaranteed choice
        · exact .inl rfl
      · split
        · exact hsound.stopped_after choice
        · exact hsound.stopped
  | cleaning script errors =>
    cases script with
    | nil => exact h.move hheld.symm fun _ => hsound
    | cons a rest =>
      have hhandled : Handled noRows n (a :: rest) (s.site n) := hsound
      dsimp only
      rw [fail_site]
      refine h.raisesAgain hheld ?_ ?_ .other
      · split
        · exact Script.Safe.guaranteed hhandled choice
        · exact .inl rfl
      · rintro rfl
        split
        · exact Script.Safe.next hhandled rfl
        · exact hhandled.unless_abandoned
  | releasing errors =>
    refine h.release hheld rfl fun hclean => ?_
    exact hsound fun hmem => hclean (List.mem_cons_of_mem _ hmem)
  | lookingLast => exact h.move hheld.symm fun _ => hsound
  | opening => exact h.move hheld.symm fun _ => hsound
  | idle => exact h.stay
  | returned file => exact h.stay
  | raised errors => exact h.stay
  | dead => exact h.stay

/-- **The step lemma.** -/
theorem next_step (h : Inv noRows s) (i : Input) : Next noRows s (step upper noRows s i).1 := by
  cases i with
  | start n =>
    rw [step]
    split
    · rename_i hphase
      have hsound := h.sound n
      rw [hphase] at hsound
      exact h.move (congrArg Phase.held hphase).symm hsound
    · exact h.stay
  | advance n choice => exact next_advance h n choice
  | fail n late choice => exact next_fail h n late choice
  | crash n => exact h.crash n

end

/-! ## Runs -/

/-- What is published at a step of a run. -/
structure Published (e : Lib.Step (System ρ) Input Unit) : Prop where
  complete : ∀ file, e.after.canonical = some file → Complete file.database
  kept : ∀ file, e.before.canonical = some file → e.after.canonical = some file
  backend : ∀ n file, e.after.phase n = .returned file → Complete file.database
  clean : ∀ n errors, e.after.phase n = .raised errors → .cleanup ∉ errors →
    (e.after.desk n).Clean

/-- **The authority is published whole.**  In every run of any number of calls, with exceptions and
    crashes wherever they may come: the canonical file is complete from the moment it is there, and
    is not replaced; no call returns another; and a call that raises leaves no temporary file,
    unless its handlers have failed. -/
theorem authority_published (upper : String → String) (noRows : ρ) (canonical : Option (File ρ))
    (hcanonical : ∀ file, canonical = some file → Complete file.database) (inputs : List Input) :
    ∀ e ∈ run (step upper noRows) (.start noRows canonical) inputs, Published e := by
  intro e he
  have hkeep : ∀ s i, Inv noRows s → Inv noRows (step upper noRows s i).1 :=
    fun _ i h => (next_step h i).inv
  obtain ⟨hbefore, hafter⟩ := run_invariant hkeep (inv_start hcanonical) inputs e he
  have hnext : Next noRows e.before e.after := by
    have hstep := @next_step ρ upper noRows e.before hbefore e.input
    rwa [(run_of _ _ _ e he).after_eq] at hstep
  refine ⟨hafter.complete, hnext.kept, fun n file hphase => ?_, fun n errors hphase => ?_⟩
  · have hsound := hafter.sound n
    rw [hphase] at hsound
    exact hsound
  · have hsound := hafter.sound n
    rw [hphase] at hsound
    exact hsound

/-- SQLite leaves a log and its index. -/
def usualChoice : Choice := ⟨fun x => x = .wal ∨ x = .shm, false, true⟩

/-- Three calls at once: the first dies as it builds, the second builds, the third opens what the
    second has built. -/
def threeCalls : List Input :=
  let on (n k : Nat) : List Input := List.replicate k (.advance n usualChoice)
  [.start 0, .start 1, .start 2] ++ on 1 3 ++ on 2 3 ++ on 0 30 ++ [.crash 0] ++ on 1 40 ++ on 2 4

theorem authority_published_threeCalls :
    (run (step String.toUpper ()) (.start () none) threeCalls).length = 84 ∧
      ∀ e ∈ run (step String.toUpper ()) (.start () none) threeCalls, Published e :=
  ⟨by decide +kernel, authority_published String.toUpper () none nofun threeCalls⟩

/-- The temporary file of the first call is left, and the others open what the second has built. -/
example :
    let s := final (step String.toUpper ()) (.start () none) threeCalls
    s.canonical.map (·.creator) = some (some 1) ∧ (s.desk 0).main.isSome = true ∧
      (s.desk 1).main.isSome = false ∧
      (match s.phase 1, s.phase 2 with
        | .opening, .opening => true
        | _, _ => false) = true := by
  decide +kernel

/-- A call whose file cannot be written on, nor removed. -/
def failedCleanup : List Input :=
  .start 0 :: List.replicate 10 (.advance 0 usualChoice) ++
    [.fail 0 false usualChoice, .fail 0 false usualChoice, .advance 0 usualChoice]

/-- A call that fails without a crash may leave its temporary file: where its handlers fail too. -/
theorem failedCleanup_leaves :
    ¬ ∀ inputs : List Input, ∀ e ∈ run (step String.toUpper ()) (.start () none) inputs,
      ∀ n errors, e.after.phase n = .raised errors → (e.after.desk n).Clean := by
  intro h
  have hlast : 13 < (run (step String.toUpper ()) (.start () none) failedCleanup).length := by
    decide +kernel
  have hclean := h failedCleanup _ (List.getElem_mem hlast) 0 [.cleanup, .other, .other] rfl
  exact nomatch hclean.main

end NuSelf.Storage.Authority
