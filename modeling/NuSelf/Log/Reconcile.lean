/-
  `_reconcile_log_event_identities`: the events that a reader keeps, and those that contradict them.

  The sets of the function outlive a call: a cursor passes the same ones with every poll.

  1. `reconcileKeyed_eq` — the loop, after any events that were reconciled before.
  2. `records_reconciled` — the events that are kept, repeated and contradicted are all events; the
     first with each identity is kept; what is kept is kept again.
-/
import Mathlib.Data.List.Find
import NuSelf.Lib.Chosen
import NuSelf.Log.Identity

namespace NuSelf.Log.Record

open NuSelf.Lib NuSelf.Lib.JsonValue NuSelf.Runtime NuSelf.Daemon

variable {φ : Type}

/-! ## The sets -/

/-- An event with its key and its fingerprint. -/
abbrev Keyed (φ : Type) := LogEvent φ × PyText × List Char

/-- What a round of the loop leaves in the sets. -/
def Seen.add (seen : Seen) (x : Keyed φ) : Seen :=
  if x.2.1 ∉ seen.event_keys then
    ⟨seen.event_keys ++ [x.2.1], upsert x.2.1 x.2.2 seen.event_fingerprints⟩
  else
    match seen.event_fingerprints.lookup x.2.1 with
    | none => ⟨seen.event_keys, upsert x.2.1 x.2.2 seen.event_fingerprints⟩
    | some _ => seen

def seenAfter (earlier : List (Keyed φ)) : Seen := earlier.foldl Seen.add {}

section

variable (floats : FloatFormat φ) (limits : JsonLimits)

def keyedOf (events : List (LogEvent φ)) : Except JsonError (List (Keyed φ)) :=
  tryAll (fun e => (e.written floats limits).map (e, ·)) events

/-- `_reconcile_log_event_identities`. -/
def reconcile (seen : Seen) (events : List (LogEvent φ)) :
    Except JsonError (List (LogEvent φ) × List (LogEvent φ)) :=
  (keyedOf floats limits events).map (reconcileKeyed seen)

end

/-- The sets hold the keys of the events, and the fingerprint of the first with each. -/
structure Holds (seen : Seen) (before : List (Keyed φ)) : Prop where
  keys : ∀ key, key ∈ seen.event_keys ↔ key ∈ before.map fun x => x.2.1
  fingerprints : ∀ key, seen.event_fingerprints.lookup key =
    (before.find? fun x => decide (x.2.1 = key)).map fun x => x.2.2

theorem lookup_text {ν : Type} (k : PyText) (v : ν) (rows : List (PyText × ν)) (q : PyText) :
    (upsert k v rows).lookup q = if q = k then some v else rows.lookup q := by
  rw [lawful_beq_subsingleton List.instBEq (instBEqOfDecidableEq : BEq PyText)]
  exact lookup_upsert k v rows q

theorem holds_add {seen : Seen} {before : List (Keyed φ)} (h : Holds seen before) (x : Keyed φ) :
    Holds (seen.add x) (before ++ [x]) := by
  obtain ⟨e, key, fingerprint⟩ := x
  by_cases hseen : key ∈ seen.event_keys
  · obtain ⟨first, hfirst⟩ : ∃ first,
        before.find? (fun x => decide (x.2.1 = key)) = some first := by
      obtain ⟨x, hx, hkey⟩ := List.mem_map.mp ((h.keys key).mp hseen)
      exact Option.isSome_iff_exists.mp (List.find?_isSome.mpr ⟨x, hx, decide_eq_true hkey⟩)
    have hsame : seen.add (e, key, fingerprint) = seen := by
      rw [Seen.add, if_neg (not_not.mpr hseen), h.fingerprints, hfirst]
      rfl
    rw [hsame]
    constructor
    · intro key'
      rw [List.map_append, List.mem_append, ← h.keys, List.map_singleton, List.mem_singleton]
      exact ⟨Or.inl, fun hor => hor.elim id (· ▸ hseen)⟩
    · intro key'
      rw [h.fingerprints, List.find?_append]
      by_cases hkey : key = key'
      · subst hkey
        rw [hfirst]
        rfl
      · rw [List.find?_singleton, if_neg (by simpa using hkey), Option.or_none]
  · have hnew : seen.add (e, key, fingerprint) =
        ⟨seen.event_keys ++ [key], upsert key fingerprint seen.event_fingerprints⟩ := if_pos hseen
    rw [hnew]
    constructor
    · intro key'
      rw [List.map_append, List.mem_append, List.mem_append, h.keys]
      rfl
    · intro key'
      show (upsert key fingerprint seen.event_fingerprints).lookup key' = _
      rw [lookup_text, h.fingerprints, List.find?_append, List.find?_singleton]
      by_cases hkey : key' = key
      · subst hkey
        have hnone : before.find? (fun x => decide (x.2.1 = key')) = none := by
          refine List.find?_eq_none.mpr fun x hx hx' => ?_
          exact hseen ((h.keys key').mpr (List.mem_map.mpr ⟨x, hx, of_decide_eq_true hx'⟩))
        rw [if_pos rfl, hnone, if_pos (decide_eq_true rfl)]
        rfl
      · rw [if_neg hkey, if_neg (by simpa using Ne.symm hkey), Option.or_none]

theorem holds_after (earlier : List (Keyed φ)) : Holds (seenAfter earlier) earlier := by
  have hfold : ∀ (rest before : List (Keyed φ)) (seen : Seen), Holds seen before →
      Holds (rest.foldl Seen.add seen) (before ++ rest) := by
    intro rest
    induction rest with
    | nil =>
      intro before seen h
      rwa [List.append_nil]
    | cons x rest ih =>
      intro before seen h
      rw [List.append_cons]
      exact ih _ _ (holds_add h x)
  exact hfold earlier [] {} ⟨fun _ => Iff.rfl, fun _ => rfl⟩

theorem reconcileKeyed_cons (seen : Seen) (x : Keyed φ) (rest : List (Keyed φ)) :
    reconcileKeyed seen (x :: rest) =
      if x.2.1 ∉ seen.event_keys then
        (x.1 :: (reconcileKeyed (seen.add x) rest).1, (reconcileKeyed (seen.add x) rest).2)
      else
        ((reconcileKeyed (seen.add x) rest).1,
          if ((seen.event_fingerprints.lookup x.2.1).any fun y => decide (y ≠ x.2.2)) = true then
            x.1 :: (reconcileKeyed (seen.add x) rest).2
          else (reconcileKeyed (seen.add x) rest).2) := by
  obtain ⟨e, key, fingerprint⟩ := x
  rw [reconcileKeyed, Seen.add]
  split
  · rfl
  · split
    · rename_i hlookup
      rw [hlookup]
      rfl
    · rename_i hlookup
      rw [hlookup]
      simp

/-! ## What is kept, repeated and contradicted -/

section

open Classical

/-- The event that this one has the identity of. -/
noncomputable def original (before : List (LogEvent φ)) (e : LogEvent φ) : Option (LogEvent φ) :=
  before.find? fun e' => decide (e'.identified = e.identified)

noncomputable def repeats (before : List (LogEvent φ)) (e : LogEvent φ) : Bool :=
  (original before e).any fun e' => decide (e'.content = e.content)

noncomputable def contradicts (before : List (LogEvent φ)) (e : LogEvent φ) : Bool :=
  (original before e).any fun e' => decide (e'.content ≠ e.content)

/-- What the reader makes of some events, after others that it has seen before. -/
structure Reconciled (earlier events kept conflicts : List (LogEvent φ)) : Prop where
  /-- The first event with each identity, unless it was there before. -/
  firsts : kept = chosen (isNew LogEvent.identified) earlier events
  contradicting : conflicts = chosen contradicts earlier events
  partition : (kept ++ (chosen repeats earlier events ++ conflicts)).Perm events
  in_order : kept.Sublist events ∧ (chosen repeats earlier events).Sublist events ∧
    conflicts.Sublist events
  one_each : (kept.map LogEvent.identified).Nodup
  each : ∀ e ∈ events, ∃ e' ∈ earlier ++ kept, e'.identified = e.identified
  /-- Events without an id have the same identity only if they are the same. -/
  named : ∀ e ∈ conflicts, e.event_id ≠ none

theorem isNew_iff_original {before : List (LogEvent φ)} {e : LogEvent φ} :
    isNew LogEvent.identified before e = true ↔ original before e = none := by
  rw [isNew_iff, original, List.find?_eq_none]
  simp only [decide_eq_true_eq]

/-- **What there is of the events**, in any case. -/
theorem reconciled_chosen (earlier events : List (LogEvent φ)) :
    Reconciled earlier events (chosen (isNew LogEvent.identified) earlier events)
      (chosen contradicts earlier events) := by
  obtain ⟨hnodup, -⟩ := nodup_chosen LogEvent.identified earlier events
  refine ⟨rfl, rfl, ?_, ⟨chosen_sublist _ _, chosen_sublist _ _, chosen_sublist _ _⟩, hnodup, ?_,
    ?_⟩
  · have hold : (chosen repeats earlier events ++ chosen contradicts earlier events).Perm
        (chosen (fun before e => (original before e).isSome) earlier events) := by
      refine chosen_perm (fun before e => ?_) earlier events
      rw [repeats, contradicts]
      cases original before e with
      | none => rfl
      | some e' => by_cases hsame : e'.content = e.content <;> simp [hsame]
    have hall := chosen_perm (p := fun _ _ => true) (q := isNew LogEvent.identified)
      (r := fun before e => (original before e).isSome) (fun before e => ?_) earlier events
    · rw [chosen_true] at hall
      exact (hold.append_left _).trans hall
    · cases horiginal : original before e with
      | none => rw [isNew_iff_original.mpr horiginal]; rfl
      | some e' =>
        have hnew : isNew LogEvent.identified before e = false := by
          rw [Bool.eq_false_iff, Ne, isNew_iff_original, horiginal]
          exact nofun
        rw [hnew]
        rfl
  · intro e he
    rcases key_mem_chosen LogEvent.identified earlier events e he with
      ⟨e', he', hsame⟩ | ⟨e', he', hsame⟩
    · exact ⟨e', List.mem_append_left _ he', hsame⟩
    · exact ⟨e', List.mem_append_right _ he', hsame⟩
  · intro e he hid
    obtain ⟨before, hcontradicts⟩ := of_mem_chosen he
    rw [contradicts] at hcontradicts
    cases horiginal : original before e with
    | none =>
      rw [horiginal] at hcontradicts
      cases hcontradicts
    | some e' =>
      rw [horiginal] at hcontradicts
      have hsame : e'.identified = e.identified := by
        have hfound := List.find?_some horiginal
        exact of_decide_eq_true hfound
      refine of_decide_eq_true hcontradicts ?_
      rw [LogEvent.identified, LogEvent.identified, hid] at hsame
      cases hid' : e'.event_id with
      | none =>
        rw [hid'] at hsame
        exact Sum.inr.inj hsame
      | some event_id =>
        rw [hid'] at hsame
        cases hsame

/-- The texts tell the events from each other. -/
def Agree (xs : List (Keyed φ)) : Prop :=
  ∀ x ∈ xs, ∀ y ∈ xs, (x.2.1 = y.2.1 ↔ x.1.identified = y.1.identified) ∧
    (x.2.2 = y.2.2 ↔ x.1.content = y.1.content)

/-- **The loop**: its induction carries what the sets hold. -/
theorem reconcileKeyed_eq : ∀ {rest before : List (Keyed φ)} {seen : Seen}, Holds seen before →
    Agree (before ++ rest) → reconcileKeyed seen rest =
      (chosen (isNew LogEvent.identified) (before.map Prod.fst) (rest.map Prod.fst),
        chosen contradicts (before.map Prod.fst) (rest.map Prod.fst))
  | [], _, _, _, _ => rfl
  | x :: rest, before, seen, hholds, hagree => by
    have ih := reconcileKeyed_eq (holds_add hholds x) (by rwa [← List.append_cons])
    have hx : x ∈ before ++ x :: rest := List.mem_append_right _ List.mem_cons_self
    have hbefore : ∀ y ∈ before, (y.2.1 = x.2.1 ↔ y.1.identified = x.1.identified) ∧
        (y.2.2 = x.2.2 ↔ y.1.content = x.1.content) :=
      fun y hy => hagree y (List.mem_append_left _ hy) x hx
    have hnew : x.2.1 ∉ seen.event_keys ↔
        isNew LogEvent.identified (before.map Prod.fst) x.1 = true := by
      rw [hholds.keys, isNew_iff, List.forall_mem_map, List.mem_map]
      constructor
      · exact fun h y hy hsame => h ⟨y, hy, (hbefore y hy).1.mpr hsame⟩
      · rintro h ⟨y, hy, hsame⟩
        exact h y hy ((hbefore y hy).1.mp hsame)
    have horiginal : original (before.map Prod.fst) x.1 =
        (before.find? fun y => decide (y.2.1 = x.2.1)).map Prod.fst := by
      rw [original, List.find?_map]
      exact congrArg _ (List.find?_congr fun y hy => decide_eq_decide.mpr (hbefore y hy).1.symm)
    have hcontradicts : ((seen.event_fingerprints.lookup x.2.1).any fun y => decide (y ≠ x.2.2)) =
        contradicts (before.map Prod.fst) x.1 := by
      rw [hholds.fingerprints, contradicts, horiginal]
      cases hfound : before.find? fun y => decide (y.2.1 = x.2.1) with
      | none => rfl
      | some y =>
        exact decide_eq_decide.mpr (not_congr (hbefore y (List.mem_of_find?_eq_some hfound)).2)
    rw [List.map_append, List.map_singleton] at ih
    rw [reconcileKeyed_cons, List.map_cons, chosen, chosen, hcontradicts, ih]
    by_cases hfirst : x.2.1 ∉ seen.event_keys
    · have hfresh := hnew.mp hfirst
      have hnone : contradicts (before.map Prod.fst) x.1 = false := by
        rw [contradicts, isNew_iff_original.mp hfresh]
        rfl
      rw [if_pos hfirst, if_pos hfresh, hnone]
      rfl
    · rw [if_neg hfirst, if_neg fun h => hfirst (hnew.mpr h)]

/-! ## Decoded events -/

section

variable {fromisoformat : PyText → Option (Option Int)} {floats : FloatFormat φ}
  {constant : String → φ} {room : ReadRoom} {limits : JsonLimits}

theorem keyedOf_ok {events : List (LogEvent φ)}
    (h : ∀ e ∈ events, ∃ w, e.written floats limits = .ok w) :
    ∃ keyed, keyedOf floats limits events = .ok keyed ∧ keyed.map Prod.fst = events ∧
      ∀ x ∈ keyed, x.1.written floats limits = .ok x.2 := by
  induction events with
  | nil => exact ⟨[], rfl, rfl, fun _ hx => absurd hx List.not_mem_nil⟩
  | cons e rest ih =>
    obtain ⟨⟨w, hw⟩, hrest⟩ := List.forall_mem_cons.mp h
    obtain ⟨keyed, hkeyed, hevents, hwritten⟩ := ih hrest
    refine ⟨(e, w) :: keyed, ?_, congrArg (e :: ·) hevents, List.forall_mem_cons.mpr ⟨hw, hwritten⟩⟩
    exact tryAll_cons_ok.mpr ⟨(e, w), keyed, by rw [hw]; rfl, hkeyed, rfl⟩

theorem agree_of_decoded {keyed : List (Keyed φ)}
    (hdecoded : ∀ x ∈ keyed, Decoded fromisoformat floats constant room x.1)
    (hwritten : ∀ x ∈ keyed, x.1.written floats limits = .ok x.2) : Agree keyed := by
  intro x hx y hy
  obtain ⟨key, hkey, h⟩ := bind_ok (hwritten x hx)
  obtain ⟨fingerprint, hfingerprint, h⟩ := bind_ok h
  obtain ⟨key', hkey', h'⟩ := bind_ok (hwritten y hy)
  obtain ⟨fingerprint', hfingerprint', h'⟩ := bind_ok h'
  rw [← Except.ok.inj h, ← Except.ok.inj h']
  exact ⟨same_identity_iff (hdecoded x hx) (hdecoded y hy) hkey hkey',
    fingerprint_iff (hdecoded x hx) (hdecoded y hy) hfingerprint hfingerprint'⟩

end

/-- **Reconciling** events that were decoded, after others that were: all are kept, repeated or
    contradicted, the first with each identity is kept, and reconciling what is kept keeps it. -/
theorem records_reconciled (fromisoformat : PyText → Option (Option Int)) (floats : FloatFormat φ)
    (constant : String → φ) (room : ReadRoom) (limits : JsonLimits)
    (earlier events : List (LogEvent φ))
    (hdecoded : ∀ e ∈ earlier ++ events, Decoded fromisoformat floats constant room e)
    (hwritten : ∀ e ∈ earlier ++ events, ∃ w, e.written floats limits = .ok w) :
    ∃ keyed, keyedOf floats limits earlier = .ok keyed ∧ ∃ kept conflicts,
      reconcile floats limits (seenAfter keyed) events = .ok (kept, conflicts) ∧
      Reconciled earlier events kept conflicts ∧
      reconcile floats limits (seenAfter keyed) kept = .ok (kept, []) := by
  obtain ⟨keyed, hkeyed, rfl, hkeyedw⟩ :=
    keyedOf_ok fun e he => hwritten e (List.mem_append_left events he)
  have hreconcile : ∀ later : List (LogEvent φ), (∀ e ∈ later, e ∈ events) →
      reconcile floats limits (seenAfter keyed) later =
        .ok (chosen (isNew LogEvent.identified) (keyed.map Prod.fst) later,
          chosen contradicts (keyed.map Prod.fst) later) := by
    intro later hlater
    obtain ⟨keyed', hkeyed', rfl, hkeyedw'⟩ :=
      keyedOf_ok fun e he => hwritten e (List.mem_append_right _ (hlater e he))
    have hagree : Agree (keyed ++ keyed') := by
      have hwritten' : ∀ x ∈ keyed ++ keyed', x.1.written floats limits = .ok x.2 :=
        fun x hx => (List.mem_append.mp hx).elim (hkeyedw x) (hkeyedw' x)
      refine agree_of_decoded (fun x hx => hdecoded x.1 ?_) hwritten'
      rcases List.mem_append.mp hx with hx | hx
      · exact List.mem_append_left _ (List.mem_map_of_mem hx)
      · exact List.mem_append_right _ (hlater x.1 (List.mem_map_of_mem hx))
    rw [reconcile, hkeyed']
    exact congrArg Except.ok (reconcileKeyed_eq (holds_after keyed) hagree)
  have hreconciled := reconciled_chosen (keyed.map Prod.fst) events
  refine ⟨keyed, hkeyed, _, _, hreconcile events fun _ he => he, hreconciled, ?_⟩
  -- what is kept has distinct identities, and none that was there before
  obtain ⟨hnodup, hapart⟩ := nodup_chosen LogEvent.identified (keyed.map Prod.fst) events
  have hagain := chosen_of_nodup hnodup hapart
  have hpartition := (reconciled_chosen (keyed.map Prod.fst)
    (chosen (isNew LogEvent.identified) (keyed.map Prod.fst) events)).partition.length_eq
  rw [hagain, List.length_append, List.length_append] at hpartition
  rw [hreconcile _ hreconciled.in_order.1.subset, hagain,
    List.length_eq_zero_iff.mp (show (chosen contradicts (keyed.map Prod.fst)
      (chosen (isNew LogEvent.identified) (keyed.map Prod.fst) events)).length = 0 by omega)]

end

/-- The event of a plain line with this character. -/
def plainEvent (c : Char) : LogEvent Bool := legacyEvent .chat [c]

/-- A line that was read before, one that is new, and that one again. -/
theorem plain_lines_reconciled :
    ∃ keyed, keyedOf overflowFormat stockLimits [plainEvent 'a'] = .ok keyed ∧ ∃ kept conflicts,
      reconcile overflowFormat stockLimits (seenAfter keyed)
          [plainEvent 'a', plainEvent 'b', plainEvent 'b'] = .ok (kept, conflicts) ∧
      Reconciled [plainEvent 'a'] [plainEvent 'a', plainEvent 'b', plainEvent 'b'] kept conflicts ∧
      reconcile overflowFormat stockLimits (seenAfter keyed) kept = .ok (kept, []) := by
  refine records_reconciled (fun _ => none) overflowFormat (fun _ => false) stockRoom stockLimits _ _
    (fun e he => ?_) fun e he => ?_
  · have hline : e = plainEvent 'a' ∨ e = plainEvent 'b' := by simpa using he
    rcases hline with rfl | rfl
    · exact ⟨.chat, ['a'], rfl⟩
    · exact ⟨.chat, ['b'], rfl⟩
  · have hline : e = plainEvent 'a' ∨ e = plainEvent 'b' := by simpa using he
    rcases hline with rfl | rfl
    · exact written_flat rfl rfl stockRoom.encode_room
    · exact written_flat rfl rfl stockRoom.encode_room

end NuSelf.Log.Record
