/-
  Who takes part in a competitive discussion of personas.

  The host's agent selects personas from the pool; every turn lets the selected ones speak, and
  from the turn after the moderator has called in an emergent persona also that one.  The
  constructor keeps a minimum and a maximum of participants.  The maximum cuts every turn; the
  minimum is never read, and an id that the agent repeats is selected twice.

  1. `take_selected` — who is selected, by id;
  2. `within_selected_iff`, `within_emergent_iff` — one turn, without an emergent persona and
     with one;
  3. `forall_turnsFrom_iff` — the loop: every emergent persona called in has its turn;
  4. `within_bounds_iff` — exactly when every turn keeps to the bounds;
  5. `analyst_alone` — one selected persona, where three are the minimum.
-/
import NuSelf.Lib.Text
import Mathlib.Data.List.Nodup

namespace NuSelf.Persona

open NuSelf.Lib

structure PersonaDefinition where
  id : String
  description : String
  deriving DecidableEq

def builtinPersonas : List PersonaDefinition := [
  ⟨"analyst_self", "Decomposes a question into concepts, assumptions, and implications."⟩,
  ⟨"skeptic_self", "Challenges assumptions, risks, and missing counter-evidence."⟩,
  ⟨"builder_self", "Turns intent into practical steps, milestones, and execution order."⟩,
  ⟨"historian_self", "Connects prior context and timelines to current decisions."⟩,
  ⟨"care_self", "Highlights emotional impact, support, and sustainable pacing."⟩]

/-- `PersonaSelectionOutput`; what the schema checks is a field. -/
structure PersonaSelectionOutput where
  selected_persona_ids : List String
  reason : String
  counted : 1 ≤ selected_persona_ids.length ∧ selected_persona_ids.length ≤ 5
  shown : ∀ text ∈ reason :: selected_persona_ids, strip text = text ∧ text ≠ ""

inductive EmergentPersona where
  | bridge_self | urgency_self | none
  deriving DecidableEq

structure ModeratorJudgmentOutput where
  converged : Bool
  emergent_persona : EmergentPersona
  reason : String

/-- What the agents answer in one discussion; an agent may fail each time that it is asked. -/
structure PersonaDiscussionAgents where
  selection : Option PersonaSelectionOutput
  moderator : Nat → Option ModeratorJudgmentOutput

/-- The settings of a discussion, as its constructor leaves them. -/
structure ProactivePersonaDiscussion where
  personas : List PersonaDefinition
  min_participants : Nat
  max_participants : Nat
  max_turns : Nat
  agents : Option PersonaDiscussionAgents
  ordered : min_participants ≤ max_participants
  started : 0 < max_turns

/-- `max(1, max_turns or 12)`. -/
def turnLimit (max_turns : Option Int) : Nat :=
  match max_turns with
  | none => 12
  | some n => if n = 0 then 12 else (max 1 n).toNat

theorem turnLimit_pos (max_turns : Option Int) : 0 < turnLimit max_turns := by
  unfold turnLimit
  split
  · decide
  · split <;> omega

def ProactivePersonaDiscussion.init (personas : Option (List PersonaDefinition))
    (min_participants max_participants : Nat) (max_turns : Option Int)
    (agents : Option PersonaDiscussionAgents) : ProactivePersonaDiscussion where
  personas := personas.getD builtinPersonas
  min_participants := min min_participants max_participants
  max_participants := max min_participants max_participants
  max_turns := turnLimit max_turns
  agents := agents
  ordered := by omega
  started := turnLimit_pos max_turns

def createEmergentPersona : EmergentPersona → Option PersonaDefinition
  | .bridge_self => some ⟨"bridge_self",
      "A temporary bridge persona that links competing ideas and finds a shared frame."⟩
  | .urgency_self => some ⟨"urgency_self",
      "A temporary urgency persona that checks whether the candidate needs immediate attention."⟩
  | .none => none

/-- One turn of the discussion. -/
structure DiscussionTurn where
  number : Nat
  participants : List PersonaDefinition
  judgment : ModeratorJudgmentOutput

namespace ProactivePersonaDiscussion

variable (d : ProactivePersonaDiscussion)

/-- The personas that can be selected. -/
def pool : List PersonaDefinition := d.personas.filter fun p => p.id ≠ "synthesizer_self"

/-- `persona_by_id`: of two personas of one id the later one. -/
def personaById (pool : List PersonaDefinition) (pid : String) : Option PersonaDefinition :=
  pool.reverse.find? fun p => p.id = pid

/-- The ids that the agent selects; none where it fails, or there is no agent. -/
def selectedIds : List String :=
  match d.agents with
  | some ⟨some output, _⟩ => output.selected_persona_ids
  | _ => []

def selectPersonas : List PersonaDefinition :=
  let selected := d.selectedIds.filterMap (personaById d.pool)
  if selected = [] then d.pool.take (min d.max_participants d.pool.length) else selected

def participantsForTurn (selected : List PersonaDefinition) (emergent : Option PersonaDefinition) :
    List PersonaDefinition :=
  match emergent with
  | some emergent =>
    (selected.take (d.max_participants - 1) ++ [emergent]).take d.max_participants
  | none => selected.take d.max_participants

/-- The judgment after a turn.  Without agents, and where the agent fails, nothing changes. -/
def moderatorJudgment (turn_number : Nat) : ModeratorJudgmentOutput :=
  match d.agents with
  | none => ⟨false, .none, "no agent"⟩
  | some agents =>
    match agents.moderator turn_number with
    | some judgment => judgment
    | none => ⟨false, .none, "fallback"⟩

/-- The emergent persona after a judgment: the new one, or the one that there was. -/
def emergentAfter (emergent : Option PersonaDefinition) (judgment : ModeratorJudgmentOutput) :
    Option PersonaDefinition :=
  match createEmergentPersona judgment.emergent_persona with
  | some new_emergent => some new_emergent
  | none => emergent

/-- The loop of `discuss`, with `left` turns to go after the turn `turn_number`. -/
def turnsFrom (selected : List PersonaDefinition) :
    Nat → Nat → Option PersonaDefinition → List DiscussionTurn
  | 0, _, _ => []
  | left + 1, turn_number, emergent =>
    let judgment := d.moderatorJudgment (turn_number + 1)
    ⟨turn_number + 1, d.participantsForTurn selected emergent, judgment⟩ ::
      if judgment.converged then []
      else turnsFrom selected left (turn_number + 1) (emergentAfter emergent judgment)

/-- The turns of `discuss`. -/
def discuss : List DiscussionTurn :=
  let selected := d.selectPersonas
  if selected = [] then [] else d.turnsFrom selected d.max_turns 0 none

/-- What a turn should keep to. -/
def WithinBounds (participants : List PersonaDefinition) : Prop :=
  (participants.map PersonaDefinition.id).Nodup ∧
    d.min_participants ≤ participants.length ∧ participants.length ≤ d.max_participants

/-! ## The condition -/

/-- The selected ids that the pool knows. -/
def knownIds : List String :=
  d.selectedIds.filter fun pid => pid ∈ d.pool.map PersonaDefinition.id

/-- The ids to choose from: the known ones or, where there are none, the whole pool. -/
def invitedIds : List String :=
  if d.knownIds = [] then d.pool.map PersonaDefinition.id else d.knownIds

/-- The turn takes place: there are as many, and none before it has converged. -/
def Reached (n : Nat) : Prop :=
  n ≤ d.max_turns ∧ ∀ m, 0 < m → m < n → (d.moderatorJudgment m).converged = false

/-- **The condition**: the agent names enough known personas, or none; the first ones are
    distinct; and who is called in for a further turn is not yet among them. -/
structure Fits : Prop where
  enough : d.knownIds = [] ∨ d.min_participants ≤ d.knownIds.length
  distinct : (d.invitedIds.take d.max_participants).Nodup
  joining : ∀ m emergent, 0 < m → d.Reached (m + 1) →
    createEmergentPersona (d.moderatorJudgment m).emergent_persona = some emergent →
    emergent.id ∉ d.invitedIds.take (d.max_participants - 1)

variable {d}

/-! ## The selection -/

theorem personaById_some {pool : List PersonaDefinition} {pid : String} {p : PersonaDefinition}
    (h : personaById pool pid = some p) : p ∈ pool ∧ p.id = pid := by
  unfold personaById at h
  have hid := List.find?_some h
  exact ⟨List.mem_reverse.mp (List.mem_of_find?_eq_some h), of_decide_eq_true hid⟩

theorem personaById_none {pool : List PersonaDefinition} {pid : String}
    (h : personaById pool pid = none) : pid ∉ pool.map PersonaDefinition.id := by
  intro hmem
  obtain ⟨p, hp, rfl⟩ := List.mem_map.mp hmem
  have hnot := List.find?_eq_none.mp h p (List.mem_reverse.mpr hp)
  exact hnot (decide_eq_true rfl)

theorem map_id_filterMap (pool : List PersonaDefinition) (ids : List String) :
    (ids.filterMap (personaById pool)).map PersonaDefinition.id =
      ids.filter fun pid => pid ∈ pool.map PersonaDefinition.id := by
  induction ids with
  | nil => rfl
  | cons pid rest ih =>
    rw [List.filter_cons]
    cases hfound : personaById pool pid with
    | none =>
      have hunknown := decide_eq_false (personaById_none hfound)
      rw [List.filterMap_cons_none hfound, hunknown, if_neg Bool.false_ne_true, ih]
    | some p =>
      obtain ⟨hp, rfl⟩ := personaById_some hfound
      have hmem : p.id ∈ pool.map PersonaDefinition.id := List.mem_map_of_mem hp
      rw [List.filterMap_cons_some hfound, decide_eq_true hmem, if_pos rfl, List.map_cons, ih]

/-- **The selection**: up to the maximum, the ids of who is selected are the invited ones. -/
theorem take_selected {n : Nat} (hn : n ≤ d.max_participants) :
    (d.selectPersonas.map PersonaDefinition.id).take n = d.invitedIds.take n := by
  have hids : (d.selectedIds.filterMap (personaById d.pool)).map PersonaDefinition.id =
    d.knownIds := map_id_filterMap d.pool d.selectedIds
  unfold selectPersonas invitedIds
  rw [← hids]
  dsimp only
  by_cases hnone : d.selectedIds.filterMap (personaById d.pool) = []
  · rw [if_pos hnone, if_pos (by rw [hnone]; rfl), List.map_take, List.take_take]
    by_cases hlength : n ≤ d.pool.length
    · rw [Nat.min_eq_left (Nat.le_min.mpr ⟨hn, hlength⟩)]
    · have hall : (d.pool.map PersonaDefinition.id).length ≤ n := by
        rw [List.length_map]
        omega
      rw [List.take_of_length_le hall, List.take_of_length_le]
      rw [List.length_map]
      omega
  · rw [if_neg hnone, if_neg fun h => hnone (List.map_eq_nil_iff.mp h)]

/-! ## One turn -/

theorem within_selected_iff (hpool : d.min_participants ≤ d.pool.length) :
    d.WithinBounds (d.participantsForTurn d.selectPersonas none) ↔
      (d.knownIds = [] ∨ d.min_participants ≤ d.knownIds.length) ∧
        (d.invitedIds.take d.max_participants).Nodup := by
  have hids : (d.participantsForTurn d.selectPersonas none).map PersonaDefinition.id =
      d.invitedIds.take d.max_participants := by
    rw [← take_selected (Nat.le_refl _), ← List.map_take]
    rfl
  have hlength : (d.participantsForTurn d.selectPersonas none).length =
      min d.max_participants d.invitedIds.length := by
    rw [← List.length_map PersonaDefinition.id, hids, List.length_take]
  have henough : d.min_participants ≤ d.invitedIds.length ↔
      d.knownIds = [] ∨ d.min_participants ≤ d.knownIds.length := by
    unfold invitedIds
    by_cases hknown : d.knownIds = []
    · rw [if_pos hknown, List.length_map]
      exact iff_of_true hpool (.inl hknown)
    · rw [if_neg hknown]
      exact (or_iff_right hknown).symm
  have hordered := d.ordered
  rw [WithinBounds, hids, hlength, ← henough]
  constructor
  · rintro ⟨hdistinct, hmin, -⟩
    exact ⟨Nat.le_trans hmin (Nat.min_le_right _ _), hdistinct⟩
  · rintro ⟨hmin, hdistinct⟩
    exact ⟨hdistinct, Nat.le_min.mpr ⟨hordered, hmin⟩, Nat.min_le_left _ _⟩

/-- A turn with an emergent persona: one more, or one in place of the last. -/
theorem within_emergent_iff (h : d.WithinBounds (d.participantsForTurn d.selectPersonas none))
    (emergent : PersonaDefinition) :
    d.WithinBounds (d.participantsForTurn d.selectPersonas (some emergent)) ↔
      emergent.id ∉ d.invitedIds.take (d.max_participants - 1) := by
  obtain ⟨hdistinct, hmin, -⟩ := h
  have hids : (d.selectPersonas.take (d.max_participants - 1)).map PersonaDefinition.id =
      d.invitedIds.take (d.max_participants - 1) := by
    rw [List.map_take]
    exact take_selected (Nat.sub_le _ _)
  have hfront : (d.invitedIds.take (d.max_participants - 1)).Nodup := by
    rw [← hids]
    refine hdistinct.sublist (List.Sublist.map _ ?_)
    exact (List.take_prefix_take_left (Nat.sub_le _ _)).sublist
  unfold participantsForTurn at hmin ⊢
  dsimp only at hmin ⊢
  rw [List.length_take] at hmin
  cases hmax : d.max_participants with
  | zero =>
    -- nobody may take part, and nobody does
    rw [List.take_zero]
    refine iff_of_true ⟨List.nodup_nil, ?_, Nat.zero_le _⟩ (List.not_mem_nil)
    rw [hmax, Nat.zero_min] at hmin
    exact hmin
  | succ n =>
    rw [hmax] at hids hfront hmin
    rw [Nat.add_sub_cancel] at hids hfront ⊢
    have hlength := List.length_take_le n d.selectPersonas
    rw [List.take_of_length_le (by rw [List.length_append, List.length_singleton]; omega),
      WithinBounds, List.map_append, hids, List.map_singleton, List.nodup_append_comm,
      List.singleton_append, List.nodup_cons, List.length_append, List.length_singleton,
      List.length_take, hmax]
    exact ⟨fun hall => hall.1.1, fun hnew => ⟨⟨hnew, hfront⟩, by omega, by omega⟩⟩

/-! ## The loop -/

/-- After the turn `n`, with `left` turns to go, the turn `k` takes place. -/
def ReachedFrom (d : ProactivePersonaDiscussion) (n left k : Nat) : Prop :=
  k ≤ n + left ∧ ∀ m, n < m → m < k → (d.moderatorJudgment m).converged = false

theorem reachedFrom_next {n left m : Nat} (hm : n + 1 < m) :
    d.ReachedFrom n (left + 1) m ↔
      (d.moderatorJudgment (n + 1)).converged = false ∧ d.ReachedFrom (n + 1) left m := by
  constructor
  · rintro ⟨hle, hopen⟩
    exact ⟨hopen (n + 1) (Nat.lt_succ_self n) hm, by omega, fun j hj => hopen j (by omega)⟩
  · rintro ⟨hfirst, hle, hopen⟩
    refine ⟨by omega, fun j hj hjm => ?_⟩
    rcases Nat.lt_or_eq_of_le (Nat.succ_le_of_lt hj) with hlater | rfl
    · exact hopen j hlater hjm
    · exact hfirst

theorem emergentAfter_iff {P : Option PersonaDefinition → Prop}
    {emergent : Option PersonaDefinition} (h : P emergent) (judgment : ModeratorJudgmentOutput) :
    P (emergentAfter emergent judgment) ↔
      ∀ e, createEmergentPersona judgment.emergent_persona = some e → P (some e) := by
  unfold emergentAfter
  cases hcreated : createEmergentPersona judgment.emergent_persona with
  | none => exact iff_of_true h (fun e he => nomatch he)
  | some new_emergent =>
    exact ⟨fun hnew e he => Option.some.inj he ▸ hnew, fun hall => hall new_emergent rfl⟩

/-- **The loop**: every turn has `W` exactly when this holds for the personas at hand, where there
    is a turn, and for everyone called in before a turn that takes place.  The induction is on the
    turns to go. -/
theorem forall_turnsFrom_iff {selected : List PersonaDefinition}
    {W : List PersonaDefinition → Prop} :
    ∀ (left n : Nat) (emergent : Option PersonaDefinition),
      (∀ turn ∈ d.turnsFrom selected left n emergent, W turn.participants) ↔
        (0 < left → W (d.participantsForTurn selected emergent)) ∧
        ∀ m e, n < m → d.ReachedFrom n left (m + 1) →
          createEmergentPersona (d.moderatorJudgment m).emergent_persona = some e →
          W (d.participantsForTurn selected (some e))
  | 0, n, emergent => by
    refine iff_of_true (fun turn hturn => nomatch hturn) ⟨(nomatch ·), ?_⟩
    rintro m e hm ⟨hle, -⟩
    omega
  | left + 1, n, emergent => by
    rw [turnsFrom, List.forall_mem_cons, forall_prop_of_true (Nat.succ_pos left)]
    refine and_congr_right fun hfirst => ?_
    cases hconverged : (d.moderatorJudgment (n + 1)).converged with
    | true =>
      rw [if_pos rfl]
      refine iff_of_true (fun turn hturn => nomatch hturn) ?_
      rintro m e hm hreached
      have hopen := hreached.2 (n + 1) (Nat.lt_succ_self n) (by omega)
      rw [hconverged] at hopen
      cases hopen
    | false =>
      have hafter := emergentAfter_iff
        (P := fun emergent => W (d.participantsForTurn selected emergent)) hfirst
        (d.moderatorJudgment (n + 1))
      rw [if_neg Bool.false_ne_true, forall_turnsFrom_iff left (n + 1), hafter]
      constructor
      · -- the next judgment is the first, or one of those after it
        rintro ⟨hnext, hlater⟩ m e hm hreached hcreated
        rcases Nat.lt_or_eq_of_le (Nat.succ_le_of_lt hm) with hm' | rfl
        · exact hlater m e hm' ((reachedFrom_next (by omega)).mp hreached).2 hcreated
        · have hle := hreached.1
          exact hnext (by omega) e hcreated
      · intro hall
        refine ⟨fun hleft e hcreated => ?_, fun m e hm hreached hcreated => ?_⟩
        · have hreached : d.ReachedFrom (n + 1) left (n + 1 + 1) :=
            ⟨by omega, fun j hj hjm => by omega⟩
          exact hall (n + 1) e (Nat.lt_succ_self n)
            ((reachedFrom_next (Nat.lt_succ_self _)).mpr ⟨hconverged, hreached⟩) hcreated
        · exact hall m e (by omega)
            ((reachedFrom_next (by omega)).mpr ⟨hconverged, hreached⟩) hcreated

theorem knownIds_of_nobody (h : d.selectPersonas = []) : d.knownIds = [] := by
  have hids : (d.selectedIds.filterMap (personaById d.pool)).map PersonaDefinition.id =
    d.knownIds := map_id_filterMap d.pool d.selectedIds
  unfold selectPersonas at h
  dsimp only at h
  by_cases hnone : d.selectedIds.filterMap (personaById d.pool) = []
  · rw [← hids, hnone]
    rfl
  · rw [if_neg hnone] at h
    exact absurd h hnone

/-- **Every turn keeps to the bounds exactly when the answers fit.** -/
theorem within_bounds_iff (hpool : d.min_participants ≤ d.pool.length) :
    (∀ turn ∈ d.discuss, d.WithinBounds turn.participants) ↔ d.Fits := by
  unfold discuss
  dsimp only
  by_cases hnobody : d.selectPersonas = []
  · -- no discussion: there is nobody to invite, or nobody may take part
    rw [if_pos hnobody]
    have hempty : ∀ n, n ≤ d.max_participants → d.invitedIds.take n = [] := by
      intro n hn
      rw [← take_selected hn, hnobody]
      exact List.take_nil
    refine iff_of_true (fun turn hturn => nomatch hturn)
      ⟨.inl (knownIds_of_nobody hnobody), ?_, fun m e _ _ _ => ?_⟩
    · rw [hempty _ (Nat.le_refl _)]
      exact List.nodup_nil
    · rw [hempty _ (Nat.sub_le _ _)]
      exact List.not_mem_nil
  rw [if_neg hnobody, forall_turnsFrom_iff, forall_prop_of_true d.started]
  have hreached : ∀ k, d.ReachedFrom 0 d.max_turns k ↔ d.Reached k := by
    intro k
    rw [ReachedFrom, Reached, Nat.zero_add]
  constructor
  · rintro ⟨hfirst, hlater⟩
    obtain ⟨henough, hdistinct⟩ := (within_selected_iff hpool).mp hfirst
    refine ⟨henough, hdistinct, fun m e hm hr hcreated => ?_⟩
    exact (within_emergent_iff hfirst e).mp (hlater m e hm ((hreached _).mpr hr) hcreated)
  · intro hfits
    have hfirst := (within_selected_iff hpool).mpr ⟨hfits.enough, hfits.distinct⟩
    refine ⟨hfirst, fun m e hm hr hcreated => ?_⟩
    exact (within_emergent_iff hfirst e).mpr (hfits.joining m e hm ((hreached _).mp hr) hcreated)

/-! ## Two selections -/

/-- The host's agent names these personas; the moderator calls in the bridge and goes on. -/
def hosted (output : PersonaSelectionOutput) : ProactivePersonaDiscussion :=
  .init none 3 5 (some 2) (some ⟨some output, fun _ => some ⟨false, .bridge_self, "Two camps."⟩⟩)

def threeSelected : PersonaSelectionOutput where
  selected_persona_ids := ["analyst_self", "oracle_self", "care_self", "builder_self"]
  reason := "They disagree."
  counted := by decide
  shown := by decide +kernel

def oneSelected : PersonaSelectionOutput where
  selected_persona_ids := ["analyst_self"]
  reason := "It is an analysis."
  counted := by decide
  shown := by decide +kernel

/-- Three of the four named are known, and the bridge is not among them. -/
theorem three_within_bounds :
    (hosted threeSelected).min_participants = 3 ∧
    ∀ turn ∈ (hosted threeSelected).discuss,
      (hosted threeSelected).WithinBounds turn.participants := by
  refine ⟨rfl, (within_bounds_iff (by decide +kernel)).mpr ⟨.inr (by decide +kernel),
    by decide +kernel, fun m e hm _ hcreated => ?_⟩⟩
  obtain rfl := Option.some.inj hcreated
  decide +kernel

/-- **The analyst alone**: three participants are the minimum, five personas can be selected, and
    the first turn has one. -/
theorem analyst_alone :
    (hosted oneSelected).min_participants = 3 ∧ (hosted oneSelected).pool.length = 5 ∧
    (hosted oneSelected).discuss.map (fun turn => turn.participants.length) = [1, 2] ∧
    ¬ ∀ turn ∈ (hosted oneSelected).discuss,
      (hosted oneSelected).WithinBounds turn.participants := by
  have hlengths : (hosted oneSelected).discuss.map (fun turn => turn.participants.length) =
    [1, 2] := by decide +kernel
  refine ⟨rfl, by decide +kernel, hlengths, fun hall => ?_⟩
  have hmem : 1 ∈ (hosted oneSelected).discuss.map fun turn => turn.participants.length := by
    rw [hlengths]
    exact List.mem_cons_self
  obtain ⟨turn, hturn, hone⟩ := List.mem_map.mp hmem
  have hmin : 3 ≤ turn.participants.length := (hall turn hturn).2.1
  omega

end ProactivePersonaDiscussion

end NuSelf.Persona
