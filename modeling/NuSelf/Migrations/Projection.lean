/-
  The upgrade to v7 projects every unprocessed visible message into a pending observation.

  A conversation's window is cut at the end of its stored plan.  `projected_of_ranges` is the
  arithmetic of the two ranges: each visible message from the first unprocessed one on is in exactly
  one of them, in order.  `Effect` is what a stretch of the upgrade may do to the table: it stores
  its publications, creates no other observation and keeps every row that it does not own.  Effects
  compose, so:

  1. `upgradeConversation_spec` — one conversation;
  2. `upgradeConversations_spec` — the loop; a plan that was moved stays where it was put, because
     a conversation that still has a plan of its own keeps the place of its id taken;
  3. `upgrade_projects` — the whole migration.
-/
import NuSelf.Migrations.V6V7

namespace NuSelf.Migrations.V6V7

open NuSelf.Lib NuSelf.Storage NuSelf.Migrations

variable {uuid5 : String → String} {db₀ db db' : Records} {conversation_id : String}
  {state : Record}

/-! ## Rows -/

/-- A row put is there with its payload, a row that was there stays, no other row changes. -/
theorem putRecord_ok {collection record_id : String} {payload : Record}
    (h : putRecord db collection record_id payload = .ok db') :
    (∃ p, db'.get (collection, record_id) = some p ∧ p.canonical = true ∧
      p.record = payload.erase "id") ∧
    (∀ k p, db.get k = some p → db'.get k = some p) ∧
    ∀ k, k ≠ (collection, record_id) → db'.get k = db.get k := by
  unfold putRecord at h
  dsimp only at h
  split at h
  · rename_i existing hget
    split at h
    · rename_i hsame
      cases h
      exact ⟨⟨existing, hget, hsame.1, hsame.2⟩, fun _ _ hk => hk, fun _ _ => rfl⟩
    · cases h
  · rename_i hget
    split at h
    · cases h
    · rename_i p hp
      cases h
      obtain ⟨hrecord, hcanonical, -⟩ := dumps_ok hp
      refine ⟨⟨p, Table.get_set_self _ _ _, hcanonical, hrecord⟩, fun k q hk => ?_, fun k hk => ?_⟩
      · have hne : k ≠ (collection, record_id) := by
          rintro rfl
          rw [hget] at hk
          cases hk
        rw [Table.get_set_ne _ _ hne]
        exact hk
      · exact Table.get_set_ne _ _ hk

/-! ## The window of a conversation -/

/-- The stored messages of an absolute range. -/
def visibleMessages (state : Record) (visible_start start stop : Int) : List Json :=
  match state.get "messages" with
  | some (.arr messages) => window messages (start - visible_start).toNat (stop - start).toNat
  | _ => []

theorem visibleMessages_append {visible_start a b c : Int} (ha : visible_start ≤ a) (hab : a ≤ b)
    (hbc : b ≤ c) :
    visibleMessages state visible_start a b ++ visibleMessages state visible_start b c =
      visibleMessages state visible_start a c := by
  unfold visibleMessages
  split
  · rename_i messages _
    have hmid : (b - visible_start).toNat = (a - visible_start).toNat + (b - a).toNat := by omega
    have hlen : (c - a).toNat = (b - a).toNat + (c - b).toNat := by omega
    rw [hmid, hlen, window_append]
  · rfl

theorem visibleMessages_empty {visible_start start stop : Int} (h : stop ≤ start) :
    visibleMessages state visible_start start stop = [] := by
  unfold visibleMessages
  split
  · have hlen : (stop - start).toNat = 0 := by omega
    rw [hlen, window_zero]
  · rfl

/-- Inside the window the fragments of a range are its messages, decoded one by one. -/
theorem fragments_eq {visible_start start stop : Int} {texts : List String}
    (hvs : (state.get "message_start_index").getD (.int 0) = .int visible_start)
    (hstart : visible_start ≤ start) (hstop : start ≤ stop)
    (h : fragments state start stop = .ok texts) :
    tryAll fragmentOf (visibleMessages state visible_start start stop) = .ok texts := by
  unfold fragments at h
  rw [hvs] at h
  unfold visibleMessages
  split at h
  · rename_i vs messages hvs' hmessages
    cases hvs'
    rw [hmessages]
    have hlen : stop - visible_start - (start - visible_start) = stop - start := by omega
    rw [slice_eq_window (by omega) (by omega), hlen] at h
    exact h
  · cases h

theorem publishRange_ok {start stop : Int} {r : Option Publication}
    (h : publishRange uuid5 db conversation_id state start stop = .ok (db', r)) :
    (r = none ∧ db' = db ∧ (stop ≤ start ∨ fragments state start stop = .ok [])) ∨
    ∃ o, r = some o ∧ o.conversation_id = conversation_id ∧ o.start_index = start ∧
      o.end_index = stop ∧ start < stop ∧ fragments state start stop = .ok o.fragments ∧
      putRecord db "memory_observations" (o.observation_id uuid5) (o.observation uuid5) =
        .ok db' := by
  unfold publishRange at h
  split at h
  · rename_i hempty
    cases h
    exact Or.inl ⟨rfl, rfl, Or.inl hempty⟩
  · rename_i hlt
    split at h
    · cases h
    · rename_i texts htexts
      split at h
      · rename_i hnil
        cases h
        rw [hnil] at htexts
        exact Or.inl ⟨rfl, rfl, Or.inr htexts⟩
      · rename_i hne
        dsimp only at h
        split at h
        · cases h
        · rename_i put hput
          cases h
          exact Or.inr ⟨⟨conversation_id, start, stop, texts, hne⟩, rfl, rfl, rfl, rfl, by omega,
            htexts, hput⟩

theorem publishRange_texts {visible_start start stop : Int} {r : Option Publication}
    (hvs : (state.get "message_start_index").getD (.int 0) = .int visible_start)
    (hstart : visible_start ≤ start)
    (h : publishRange uuid5 db conversation_id state start stop = .ok (db', r)) :
    tryAll fragmentOf (visibleMessages state visible_start start stop) =
      .ok (r.toList.flatMap Publication.fragments) := by
  rcases publishRange_ok h with ⟨rfl, -, hempty⟩ | ⟨o, rfl, -, -, -, hlt, htexts, -⟩
  · by_cases hle : stop ≤ start
    · rw [visibleMessages_empty hle]
      rfl
    · rcases hempty with hle' | hnil
      · exact absurd hle' hle
      · exact fragments_eq hvs hstart (by omega) hnil
  · have hall := fragments_eq hvs hstart (by omega) htexts
    simpa using hall

/-- The publications of a conversation are its unprocessed visible messages. -/
structure Projected (conversation_id : String) (state : Record) (b : Bounds)
    (published : List Publication) : Prop where
  /-- Each message from the first unprocessed one to the end is there once, in order. -/
  exact : tryAll fragmentOf (visibleMessages state b.visible_start b.start b.visible_end) =
    .ok (published.flatMap Publication.fragments)
  ordered : published.Pairwise fun o o' => o.end_index ≤ o'.start_index
  own : ∀ o ∈ published, o.conversation_id = conversation_id ∧ b.start ≤ o.start_index ∧
    o.start_index < o.end_index ∧ o.end_index ≤ b.visible_end ∧
    fragments state o.start_index o.end_index = .ok o.fragments

/-- **The cut**: the publications of `[start, cut)` and `[cut, end)` are those of the window. -/
theorem projected_of_ranges {b : Bounds} {cut : Int} {db₁ db₂ db₃ : Records}
    {planned rest : Option Publication}
    (hvs : (state.get "message_start_index").getD (.int 0) = .int b.visible_start)
    (hcut : cut ≤ b.visible_end ∨ cut ≤ b.start)
    (hplanned : publishRange uuid5 db conversation_id state b.start cut = .ok (db₁, planned))
    (hrest : publishRange uuid5 db₂ conversation_id state (max b.start cut) b.visible_end =
      .ok (db₃, rest)) :
    Projected conversation_id state b (planned.toList ++ rest.toList) := by
  have hstart : b.visible_start ≤ b.start := Int.le_max_left _ _
  have hfirst := publishRange_texts hvs hstart hplanned
  have hsecond := publishRange_texts hvs (by omega) hrest
  have hjoin : visibleMessages state b.visible_start b.start cut ++
      visibleMessages state b.visible_start (max b.start cut) b.visible_end =
        visibleMessages state b.visible_start b.start b.visible_end := by
    by_cases hle : cut ≤ b.start
    · rw [visibleMessages_empty hle, Int.max_eq_left hle, List.nil_append]
    · rw [Int.max_eq_right (by omega)]
      exact visibleMessages_append hstart (by omega) (by omega)
  have hplannedOwn : ∀ o ∈ planned.toList, o.conversation_id = conversation_id ∧
      o.start_index = b.start ∧ o.end_index = cut ∧ b.start < cut ∧
      fragments state b.start cut = .ok o.fragments := by
    intro o ho
    rcases publishRange_ok hplanned with ⟨rfl, -⟩ | ⟨o', rfl, hid, hs, he, hlt, htexts, -⟩
    · exact nomatch ho
    · cases Option.mem_toList.mp ho
      exact ⟨hid, hs, he, hlt, htexts⟩
  have hrestOwn : ∀ o ∈ rest.toList, o.conversation_id = conversation_id ∧
      o.start_index = max b.start cut ∧ o.end_index = b.visible_end ∧
      max b.start cut < b.visible_end ∧
      fragments state (max b.start cut) b.visible_end = .ok o.fragments := by
    intro o ho
    rcases publishRange_ok hrest with ⟨rfl, -⟩ | ⟨o', rfl, hid, hs, he, hlt, htexts, -⟩
    · exact nomatch ho
    · cases Option.mem_toList.mp ho
      exact ⟨hid, hs, he, hlt, htexts⟩
  constructor
  · rw [← hjoin, List.flatMap_append]
    exact tryAll_append hsecond hfirst
  · rw [List.pairwise_append]
    refine ⟨?_, ?_, fun o ho o' ho' => ?_⟩
    · cases planned <;> simp
    · cases rest <;> simp
    · have h := hplannedOwn o ho
      have h' := hrestOwn o' ho'
      omega
  · intro o ho
    rcases List.mem_append.mp ho with ho | ho
    · obtain ⟨hid, hs, he, hlt, htexts⟩ := hplannedOwn o ho
      rw [hs, he]
      exact ⟨hid, by omega, hlt, by omega, htexts⟩
    · obtain ⟨hid, hs, he, hlt, htexts⟩ := hrestOwn o ho
      rw [hs, he]
      exact ⟨hid, by omega, hlt, by omega, htexts⟩

/-! ## Effects on the table -/

/-- The plan row is the stored plan of a conversation, moved to the observation of its range. -/
def MovedPlan (uuid5 : String → String) (db₀ : Records) (o : Publication) (p : Payload) : Prop :=
  ∃ q plan, db₀.get ("memory_curator_plans", o.conversation_id) = some q ∧
    readPlan q.record = .ok plan ∧ o.end_index = plan.source_end ∧ p.record = plan.moved uuid5 o

/-- What a stretch of the upgrade does: it stores its publications, creates no other observation,
    moves plans to publications only, and keeps every row that is not exempt. -/
structure Effect (uuid5 : String → String) (db₀ : Records) (exempt : String × String → Prop)
    (db db' : Records) (published : List Publication) : Prop where
  stored : ∀ o ∈ published, ∃ p,
    db'.get ("memory_observations", o.observation_id uuid5) = some p ∧
      p.record = (o.observation uuid5).erase "id"
  created : ∀ id p, db.get ("memory_observations", id) = none →
    db'.get ("memory_observations", id) = some p → ∃ o ∈ published, o.observation_id uuid5 = id
  plans : ∀ id p, db'.get ("memory_curator_plans", id) = some p →
    db.get ("memory_curator_plans", id) = some p ∨
      ∃ o ∈ published, o.observation_id uuid5 = id ∧ MovedPlan uuid5 db₀ o p
  kept : ∀ k p, ¬ exempt k → db.get k = some p → db'.get k = some p

/-- The plan of a conversation may move. -/
def PlanOf (db₀ : Records) (conversation_id : String) (k : String × String) : Prop :=
  k = ("memory_curator_plans", conversation_id) ∧ db₀.get k ≠ none

section

variable {exempt exempt' : String × String → Prop} {published published' : List Publication}

theorem Effect.refl (uuid5 : String → String) (db₀ db : Records)
    (exempt : String × String → Prop) : Effect uuid5 db₀ exempt db db [] where
  stored := fun _ ho => nomatch ho
  created := fun _ _ hnone hsome => by rw [hnone] at hsome; cases hsome
  plans := fun _ _ hp => Or.inl hp
  kept := fun _ _ _ hp => hp

theorem Effect.mono (h : Effect uuid5 db₀ exempt db db' published)
    (hexempt : ∀ k, exempt k → exempt' k) : Effect uuid5 db₀ exempt' db db' published where
  stored := h.stored
  created := h.created
  plans := h.plans
  kept := fun k p hk => h.kept k p fun hex => hk (hexempt k hex)

theorem Effect.trans {db₁ : Records} (h : Effect uuid5 db₀ exempt db db₁ published)
    (h' : Effect uuid5 db₀ exempt db₁ db' published')
    (hobs : ∀ id, ¬ exempt ("memory_observations", id)) :
    Effect uuid5 db₀ exempt db db' (published ++ published') where
  stored := by
    intro o ho
    rcases List.mem_append.mp ho with ho | ho
    · obtain ⟨p, hp, hrecord⟩ := h.stored o ho
      exact ⟨p, h'.kept _ p (hobs _) hp, hrecord⟩
    · exact h'.stored o ho
  created := by
    intro id p hnone hsome
    cases hmid : db₁.get ("memory_observations", id) with
    | none =>
      obtain ⟨o, ho, hid⟩ := h'.created id p hmid hsome
      exact ⟨o, List.mem_append_right _ ho, hid⟩
    | some q =>
      obtain ⟨o, ho, hid⟩ := h.created id q hnone hmid
      exact ⟨o, List.mem_append_left _ ho, hid⟩
  plans := by
    intro id p hp
    rcases h'.plans id p hp with hmid | ⟨o, ho, hid, hmoved⟩
    · rcases h.plans id p hmid with hold | ⟨o, ho, hid, hmoved⟩
      · exact Or.inl hold
      · exact Or.inr ⟨o, List.mem_append_left _ ho, hid, hmoved⟩
    · exact Or.inr ⟨o, List.mem_append_right _ ho, hid, hmoved⟩
  kept := fun k p hk hp => h'.kept k p hk (h.kept k p hk hp)

end

theorem publishRange_effect {start stop : Int} {r : Option Publication}
    (exempt : String × String → Prop)
    (h : publishRange uuid5 db conversation_id state start stop = .ok (db', r)) :
    Effect uuid5 db₀ exempt db db' r.toList := by
  rcases publishRange_ok h with ⟨rfl, rfl, -⟩ | ⟨o, rfl, -, -, -, -, -, hput⟩
  · exact Effect.refl uuid5 db₀ db' exempt
  · obtain ⟨⟨p, hp, -, hrecord⟩, hkept, hother⟩ := putRecord_ok hput
    constructor
    · intro o' ho'
      cases Option.mem_toList.mp ho'
      exact ⟨p, hp, hrecord⟩
    · intro id q hnone hsome
      by_cases hid : id = o.observation_id uuid5
      · exact ⟨o, by simp, hid.symm⟩
      · rw [hother _ (by simpa using hid), hnone] at hsome
        cases hsome
    · intro id q hq
      left
      rw [hother _ (by simp)] at hq
      exact hq
    · exact fun k q _ hq => hkept k q hq

theorem movePlan_ok {plan : StoredPlan} {o : Publication}
    (hpresent : db.get ("memory_curator_plans", conversation_id) ≠ none)
    (h : movePlan uuid5 db conversation_id plan o = .ok db') :
    (∃ p, db'.get ("memory_curator_plans", o.observation_id uuid5) = some p ∧
      p.record = plan.moved uuid5 o) ∧
    (o.observation_id uuid5 = conversation_id ∨
      db.get ("memory_curator_plans", o.observation_id uuid5) = none ∧
        db'.get ("memory_curator_plans", conversation_id) = none) ∧
    ∀ k, k ≠ ("memory_curator_plans", conversation_id) →
      k ≠ ("memory_curator_plans", o.observation_id uuid5) → db'.get k = db.get k := by
  have hcontains : db.contains ("memory_curator_plans", conversation_id) = true := by
    rw [Table.contains, Option.isSome_iff_ne_none]
    exact hpresent
  unfold movePlan at h
  dsimp only at h
  rw [if_neg (by simp [hcontains])] at h
  split at h
  · cases h
  · rename_i p hp
    split at h
    · cases h
    · rename_i hfree
      cases h
      refine ⟨⟨p, Table.get_set_self _ _ _, (dumps_ok hp).1⟩, ?_, fun k hk hk' => ?_⟩
      · by_cases hid : o.observation_id uuid5 = conversation_id
        · exact Or.inl hid
        · right
          have hnot : ¬ db.contains ("memory_curator_plans", o.observation_id uuid5) = true :=
            fun hc => hfree ⟨hid, hc⟩
          refine ⟨by simpa [Table.contains] using hnot, ?_⟩
          have hne : ("memory_curator_plans", conversation_id) ≠
              ("memory_curator_plans", o.observation_id uuid5) :=
            fun he => hid (congrArg Prod.snd he).symm
          rw [Table.get_set_ne _ _ hne, Table.get_erase, if_pos rfl]
      · rw [Table.get_set_ne _ _ hk', Table.get_erase, if_neg hk]

theorem planned_effect {db₁ : Records} {plan : StoredPlan} {o : Publication} {q : Payload}
    (hq : db₀.get ("memory_curator_plans", conversation_id) = some q)
    (hplan : readPlan q.record = .ok plan) (hid : o.conversation_id = conversation_id)
    (hend : o.end_index = plan.source_end)
    (hpresent : db.get ("memory_curator_plans", conversation_id) ≠ none)
    (hpublish : Effect uuid5 db₀ (fun _ => False) db db₁ [o])
    (hmove : movePlan uuid5 db₁ conversation_id plan o = .ok db') :
    Effect uuid5 db₀ (PlanOf db₀ conversation_id) db db' [o] := by
  have hkept := hpublish.kept
  have hpresent₁ : db₁.get ("memory_curator_plans", conversation_id) ≠ none := by
    obtain ⟨p, hp⟩ := Option.ne_none_iff_exists'.mp hpresent
    rw [hkept _ p (fun h => h) hp]
    exact Option.some_ne_none p
  obtain ⟨⟨p, hp, hrecord⟩, hplace, hother⟩ := movePlan_ok hpresent₁ hmove
  have hobs : ∀ id, db'.get ("memory_observations", id) = db₁.get ("memory_observations", id) :=
    fun id => hother _ (by simp) (by simp)
  constructor
  · intro o' ho'
    rw [hobs]
    exact hpublish.stored o' ho'
  · intro id p' hnone hsome
    rw [hobs] at hsome
    exact hpublish.created id p' hnone hsome
  · intro id p' hp'
    by_cases hnew : id = o.observation_id uuid5
    · subst hnew
      rw [hp] at hp'
      cases hp'
      exact Or.inr ⟨o, List.mem_singleton_self o, rfl, q, plan, by rw [hid]; exact hq, hplan,
        hend, hrecord⟩
    · by_cases hold : id = conversation_id
      · -- the old place is empty, unless it is the new one
        rcases hplace with hsame | ⟨-, hgone⟩
        · exact absurd (hold.trans hsame.symm) hnew
        · rw [hold, hgone] at hp'
          cases hp'
      · rw [hother _ (by simpa using hold) (by simpa using hnew)] at hp'
        rcases hpublish.plans id p' hp' with h | ⟨o', ho', hid', hmoved⟩
        · exact Or.inl h
        · exact Or.inr ⟨o', ho', hid', hmoved⟩
  · intro k p' hk hp'
    have hkc : k ≠ ("memory_curator_plans", conversation_id) := by
      rintro rfl
      exact hk ⟨rfl, by rw [hq]; exact Option.some_ne_none q⟩
    have hp₁ := hkept k p' (fun h => h) hp'
    by_cases hnew : k = ("memory_curator_plans", o.observation_id uuid5)
    · rcases hplace with hsame | ⟨hfree, -⟩
      · rw [hsame] at hnew
        exact absurd hnew hkc
      · rw [hnew, hfree] at hp₁
        cases hp₁
    · rw [hother k hkc hnew]
      exact hp₁

/-! ## Conversations -/

/-- The plans that the upgrade can be trusted with: each starts at or before the first unprocessed
    visible message of its conversation, and ends inside the visible range. -/
def PlanInside (db₀ : Records) (conversation_id : String) (state : Record) : Prop :=
  ∀ b q plan, readBounds db₀ conversation_id state = .ok b →
    db₀.get ("memory_curator_plans", conversation_id) = some q → readPlan q.record = .ok plan →
    plan.source_start ≤ b.start ∧ plan.source_end ≤ b.visible_end

/-- A plan whose range holds an unprocessed message is at the observation of that range; `place`
    says something of the id it has there. -/
def PlanMoved (uuid5 : String → String) (db₀ db' : Records) (conversation_id : String)
    (state : Record) (b : Bounds) (published : List Publication) (place : String → Prop) : Prop :=
  ∀ q plan, db₀.get ("memory_curator_plans", conversation_id) = some q →
    readPlan q.record = .ok plan →
    visibleMessages state b.visible_start b.start plan.source_end ≠ [] →
    ∃ o ∈ published, o.start_index = b.start ∧ o.end_index = plan.source_end ∧
      place (o.observation_id uuid5) ∧
      ∃ p, db'.get ("memory_curator_plans", o.observation_id uuid5) = some p ∧
        p.record = plan.moved uuid5 o

theorem readBounds_start {b : Bounds} (h : readBounds db₀ conversation_id state = .ok b) :
    (state.get "message_start_index").getD (.int 0) = .int b.visible_start := by
  unfold readBounds at h
  split at h
  · rename_i hvs _ _
    cases h
    exact hvs
  · cases h

theorem tryAll_nil {α β ε : Type} {f : α → Except ε β} {xs : List α} (h : tryAll f xs = .ok []) :
    xs = [] := by
  cases xs with
  | nil => rfl
  | cons x rest =>
    simp only [tryAll] at h
    split at h
    · cases h
    · split at h <;> cases h

/-- **One conversation**: its unprocessed visible messages are published, its plan moves to the
    observation of its range, and nothing else changes. -/
theorem upgradeConversation_spec {published : List Publication}
    (hinside : PlanInside db₀ conversation_id state)
    (hpresent : db₀.get ("memory_curator_plans", conversation_id) ≠ none →
      db.get ("memory_curator_plans", conversation_id) ≠ none)
    (h : upgradeConversation uuid5 db₀ db conversation_id state = .ok (db', published)) :
    ∃ b, readBounds db₀ conversation_id state = .ok b ∧
      Projected conversation_id state b published ∧
      Effect uuid5 db₀ (PlanOf db₀ conversation_id) db db' published ∧
      PlanMoved uuid5 db₀ db' conversation_id state b published fun id =>
        id = conversation_id ∨ db.get ("memory_curator_plans", id) = none := by
  obtain ⟨b, hb, h⟩ := bind_ok h
  have hvs := readBounds_start hb
  have hobs : ∀ id, ¬ PlanOf db₀ conversation_id ("memory_observations", id) := by
    rintro id ⟨hkey, -⟩
    exact absurd (congrArg Prod.fst hkey) (by simp)
  refine ⟨b, hb, ?_⟩
  cases hq : db₀.get ("memory_curator_plans", conversation_id) with
  | none =>
    rw [hq] at h
    obtain ⟨⟨db₁, rest⟩, hrest, h⟩ := bind_ok h
    cases h
    -- the window is one range: the cut is at its start
    have hempty : publishRange uuid5 db conversation_id state b.start b.start = .ok (db, none) :=
      if_pos (Int.le_refl _)
    have hrest' : publishRange uuid5 db conversation_id state (max b.start b.start)
        b.visible_end = .ok (db', rest) := by
      rw [Int.max_self]
      exact hrest
    refine ⟨projected_of_ranges hvs (Or.inr (Int.le_refl b.start)) hempty hrest',
      publishRange_effect _ hrest, fun q plan hq' => ?_⟩
    rw [hq] at hq'
    cases hq'
  | some q =>
    rw [hq] at h
    obtain ⟨plan, hplan, h⟩ := bind_ok h
    obtain ⟨⟨db₁, planned⟩, hplanned, h⟩ := bind_ok h
    obtain ⟨db₂, hmove, h⟩ := bind_ok h
    obtain ⟨⟨db₃, rest⟩, hrest, h⟩ := bind_ok h
    cases h
    obtain ⟨hstart, hend⟩ := hinside b q plan hb hq hplan
    rw [Int.max_eq_left hstart] at hplanned
    have hdb : db.get ("memory_curator_plans", conversation_id) ≠ none :=
      hpresent (by rw [hq]; exact Option.some_ne_none q)
    have hprojected := projected_of_ranges hvs (Or.inl hend) hplanned hrest
    rcases publishRange_ok hplanned with ⟨rfl, rfl, hempty⟩ | ⟨o, rfl, hid, hs, he, hlt, -, -⟩
    · -- nothing to publish for the plan
      cases hmove
      refine ⟨hprojected, publishRange_effect _ hrest, fun q' plan' hq' hplan' hsome => ?_⟩
      rw [hq] at hq'
      cases hq'
      rw [hplan] at hplan'
      cases hplan'
      have htexts := publishRange_texts hvs (Int.le_max_left _ _) hplanned
      exact absurd (tryAll_nil htexts) hsome
    · have hpublish : Effect uuid5 db₀ (fun _ => False) db db₁ [o] :=
        publishRange_effect _ hplanned
      have hfirst := planned_effect hq hplan hid he hdb hpublish hmove
      have hsecond : Effect uuid5 db₀ (PlanOf db₀ conversation_id) db₂ db' rest.toList :=
        publishRange_effect _ hrest
      refine ⟨hprojected, hfirst.trans hsecond hobs, fun q' plan' hq' hplan' _ => ?_⟩
      rw [hq] at hq'
      cases hq'
      rw [hplan] at hplan'
      cases hplan'
      have hdb₁ : db₁.get ("memory_curator_plans", conversation_id) ≠ none := by
        obtain ⟨p, hp⟩ := Option.ne_none_iff_exists'.mp hdb
        rw [hpublish.kept _ p (fun h => h) hp]
        exact Option.some_ne_none p
      obtain ⟨⟨p, hp, hrecord⟩, hplace, -⟩ := movePlan_ok hdb₁ hmove
      have hlast : Effect uuid5 db₀ (fun _ => False) db₂ db' rest.toList :=
        publishRange_effect _ hrest
      refine ⟨o, by simp, hs, he, ?_, p, hlast.kept _ p (fun h => h) hp, hrecord⟩
      · rcases hplace with hsame | ⟨hfree, -⟩
        · exact Or.inl hsame
        · right
          by_contra hsome
          obtain ⟨p', hp'⟩ := Option.ne_none_iff_exists'.mp hsome
          rw [hpublish.kept _ p' (fun h => h) hp'] at hfree
          cases hfree

/-- **The loop**: every conversation is projected, and stays so while the later ones are.  The
    induction is on the conversations that are left; those of them that have a plan still have it
    in its place, so no moved plan can have taken that place. -/
theorem upgradeConversations_spec :
    ∀ {rest : List (String × Record)} {db db' : Records} {log : List (String × List Publication)},
      (rest.map Prod.fst).Nodup →
      (∀ r ∈ rest, PlanInside db₀ r.1 r.2) →
      (∀ r ∈ rest, db₀.get ("memory_curator_plans", r.1) ≠ none →
        db.get ("memory_curator_plans", r.1) ≠ none) →
      upgradeConversations uuid5 db₀ rest db = .ok (db', log) →
      log.map Prod.fst = rest.map Prod.fst ∧
      Effect uuid5 db₀ (fun k => ∃ r ∈ rest, PlanOf db₀ r.1 k) db db' (log.flatMap Prod.snd) ∧
      ∀ r ∈ rest, ∃ b published, (r.1, published) ∈ log ∧ readBounds db₀ r.1 r.2 = .ok b ∧
        Projected r.1 r.2 b published ∧
        PlanMoved uuid5 db₀ db' r.1 r.2 b published fun _ => True
  | [], db, db', log, _, _, _, h => by
    cases h
    exact ⟨rfl, Effect.refl _ _ _ _, fun r hr => nomatch hr⟩
  | (conversation_id, state) :: rest, db, db', log, hnodup, hinside, hpresent, h => by
    obtain ⟨⟨db₁, published⟩, hhead, h⟩ := bind_ok h
    obtain ⟨⟨db₂, log'⟩, htail, h⟩ := bind_ok h
    cases h
    obtain ⟨hnot, hnodup⟩ := List.nodup_cons.mp hnodup
    have hne : ∀ r ∈ rest, r.1 ≠ conversation_id := by
      intro r hr he
      have hmem : r.1 ∈ rest.map Prod.fst := List.mem_map_of_mem hr
      rw [he] at hmem
      exact hnot hmem
    obtain ⟨b, hb, hprojected, heffect, hmoved⟩ := upgradeConversation_spec
      (hinside _ List.mem_cons_self) (hpresent _ List.mem_cons_self) hhead
    have hpresent₁ : ∀ r ∈ rest, db₀.get ("memory_curator_plans", r.1) ≠ none →
        db₁.get ("memory_curator_plans", r.1) ≠ none := by
      intro r hr hplan
      obtain ⟨p, hp⟩ := Option.ne_none_iff_exists'.mp
        (hpresent r (List.mem_cons_of_mem _ hr) hplan)
      have hkept := heffect.kept _ p (fun hex => hne r hr (congrArg Prod.snd hex.1)) hp
      rw [hkept]
      exact Option.some_ne_none p
    obtain ⟨hids, heffect', hrest⟩ := upgradeConversations_spec hnodup
      (fun r hr => hinside r (List.mem_cons_of_mem _ hr)) hpresent₁ htail
    have hobs : ∀ id, ¬ ∃ r ∈ (conversation_id, state) :: rest,
        PlanOf db₀ r.1 ("memory_observations", id) := by
      rintro id ⟨r, -, hkey, -⟩
      exact absurd (congrArg Prod.fst hkey) (by simp)
    refine ⟨by simp [hids], ?_, fun r hr => ?_⟩
    · exact (heffect.mono fun k hk => ⟨_, List.mem_cons_self, hk⟩).trans
        (heffect'.mono fun k ⟨r, hr, hk⟩ => ⟨r, List.mem_cons_of_mem _ hr, hk⟩) hobs
    · rcases List.mem_cons.mp hr with rfl | hr
      · refine ⟨b, published, List.mem_cons_self, hb, hprojected, ?_⟩
        intro q plan hq hplan hsome
        obtain ⟨o, ho, hs, he, hplace, p, hp, hrecord⟩ := hmoved q plan hq hplan hsome
        refine ⟨o, ho, hs, he, trivial, p, heffect'.kept _ p ?_ hp, hrecord⟩
        rintro ⟨r, hr, hkey, hplanned⟩
        have hid : o.observation_id uuid5 = r.1 := congrArg Prod.snd hkey
        rw [hid] at hplace hplanned
        rcases hplace with hsame | hfree
        · exact hne r hr hsame
        · exact hpresent r (List.mem_cons_of_mem _ hr) hplanned hfree
      · obtain ⟨b', published', hlog, hrest'⟩ := hrest r hr
        exact ⟨b', published', List.mem_cons_of_mem _ hlog, hrest'⟩

/-! ## The migration -/

theorem nodup_upgradeTransforms (uuid5 : String → String) :
    ((upgradeTransforms uuid5).map Prod.fst).Nodup := by
  simp [upgradeTransforms, evidenceTransforms]

/-- Restored plans are parked ones without their `id` field, the other rows stay. -/
theorem restorePlans_ok : ∀ {held : List (String × Record)} {db db' : Records},
    restorePlans held db = .ok db' →
    (∀ k p, db.get k = some p → db'.get k = some p) ∧
    (∀ k, k.1 ≠ "memory_curator_plans" → db'.get k = db.get k) ∧
    ∀ id p, db'.get ("memory_curator_plans", id) = some p →
      db.get ("memory_curator_plans", id) = some p ∨
        ∃ record, (id, record) ∈ held ∧ p.record = record.erase "id"
  | [], db, db', h => by
    cases h
    exact ⟨fun _ _ hk => hk, fun _ _ => rfl, fun _ _ hp => Or.inl hp⟩
  | (id₀, record) :: rest, db, db', h => by
    obtain ⟨db₁, hput, h⟩ := bind_ok h
    obtain ⟨⟨q, hq, -, hrecord⟩, hkept, hother⟩ := putRecord_ok hput
    obtain ⟨hkept', hother', hplans⟩ := restorePlans_ok h
    refine ⟨fun k p hk => hkept' k p (hkept k p hk), fun k hk => ?_, fun id p hp => ?_⟩
    · have hne : k ≠ ("memory_curator_plans", id₀) := by
        rintro rfl
        exact hk rfl
      rw [hother' k hk, hother k hne]
    · rcases hplans id p hp with hmid | ⟨record', hmem, hrecord'⟩
      · by_cases hid : id = id₀
        · rw [hid, hq] at hmid
          cases hmid
          exact Or.inr ⟨record, by rw [hid]; exact List.mem_cons_self, hrecord⟩
        · rw [hother _ (by simpa using hid)] at hmid
          exact Or.inl hmid
      · exact Or.inr ⟨record', List.mem_cons_of_mem _ hmem, hrecord'⟩

/-- The observations and the plans after the loop are those of the result, but for the plans that
    come back. -/
theorem upgradeLogged_ok {db' : Records} {log : List (String × List Publication)}
    (h : upgradeLogged uuid5 db = .ok (db', log)) :
    ∃ db₁, upgradeConversations uuid5 db (loadRecords db "conversations") db = .ok (db₁, log) ∧
      (∀ id, db'.get ("memory_observations", id) = db₁.get ("memory_observations", id)) ∧
      (∀ id p, db₁.get ("memory_curator_plans", id) = some p →
        db'.get ("memory_curator_plans", id) = some p) ∧
      ∀ id p, db'.get ("memory_curator_plans", id) = some p →
        db₁.get ("memory_curator_plans", id) = some p ∨
          ∃ q, db.get ("memory_observation_plans", id) = some q ∧ p.record = q.record.erase "id" := by
  obtain ⟨⟨db₁, log₁⟩, hloop, h⟩ := bind_ok h
  obtain ⟨db₂, hrewrite, h⟩ := bind_ok h
  obtain ⟨db₃, hrestore, h⟩ := bind_ok h
  cases h
  obtain ⟨-, hget⟩ := rewriteAll_spec (nodup_upgradeTransforms uuid5)
  -- the rewriting leaves the collections of observations and plans alone
  have hsame : ∀ c id, c ∉ (upgradeTransforms uuid5).map Prod.fst → c ≠ "memory_curator_cursors" →
      db₂.get (c, id) = db₁.get (c, id) := by
    intro c id hc hcursor
    rw [hget _ hrewrite, Table.get_keep, if_pos (by simpa using hcursor)]
    cases db₁.get (c, id) with
    | none => rfl
    | some p =>
      show (rewritten (upgradeTransforms uuid5) c p).toOption = some p
      rw [rewritten_of_not_mem hc]
      rfl
  have hobs := fun id => hsame "memory_observations" id
    (by simp [upgradeTransforms, evidenceTransforms]) (by simp)
  have hplans := fun id => hsame "memory_curator_plans" id
    (by simp [upgradeTransforms, evidenceTransforms]) (by simp)
  obtain ⟨hkept, hother, hrestored⟩ := restorePlans_ok hrestore
  refine ⟨db₁, hloop, fun id => ?_, fun id p hp => ?_, fun id p hp => ?_⟩
  · rw [Table.get_keep, if_pos (by simp), hother _ (by simp), hobs]
  · rw [Table.get_keep, if_pos (by simp)]
    exact hkept _ p (by rw [hplans]; exact hp)
  · rw [Table.get_keep, if_pos (by simp)] at hp
    rcases hrestored id p hp with hmid | ⟨record, hmem, hrecord⟩
    · rw [hplans] at hmid
      exact Or.inl hmid
    · obtain ⟨q, hq, rfl⟩ := mem_loadRecords.mp hmem
      exact Or.inr ⟨q, hq, hrecord⟩

/-- The upgrade turns the unprocessed chat of `db` into the observations of `db'`. -/
structure Projects (uuid5 : String → String) (db db' : Records)
    (log : List (String × List Publication)) : Prop where
  conversations : log.map Prod.fst = (loadRecords db "conversations").map Prod.fst
  /-- Each conversation is projected, and its plan goes with its range. -/
  projected : ∀ id p, db.get ("conversations", id) = some p → ∃ b published,
    (id, published) ∈ log ∧ readBounds db id p.record = .ok b ∧ Projected id p.record b published ∧
      PlanMoved uuid5 db db' id p.record b published fun _ => True
  /-- Every publication is stored as a pending observation. -/
  stored : ∀ o ∈ log.flatMap Prod.snd, ∃ p,
    db'.get ("memory_observations", o.observation_id uuid5) = some p ∧
      p.record = (o.observation uuid5).erase "id"
  /-- There is no other new observation, and the old ones stay. -/
  created : ∀ id p, db.get ("memory_observations", id) = none →
    db'.get ("memory_observations", id) = some p →
      ∃ o ∈ log.flatMap Prod.snd, o.observation_id uuid5 = id
  kept : ∀ id p, db.get ("memory_observations", id) = some p →
    db'.get ("memory_observations", id) = some p
  /-- A plan was there, was moved to a publication, or was parked. -/
  plans : ∀ id p, db'.get ("memory_curator_plans", id) = some p →
    db.get ("memory_curator_plans", id) = some p ∨
      (∃ o ∈ log.flatMap Prod.snd, o.observation_id uuid5 = id ∧ MovedPlan uuid5 db o p) ∨
      ∃ q, db.get ("memory_observation_plans", id) = some q ∧ p.record = q.record.erase "id"

/-- **No unprocessed chat is lost**: where every stored plan starts at or before the first
    unprocessed visible message of its conversation and ends inside the visible range, the upgrade
    either changes nothing, or projects every conversation. -/
theorem upgrade_projects (uuid5 : String → String) (db : Records)
    (hinside : ∀ id p, db.get ("conversations", id) = some p → PlanInside db id p.record) :
    ((migrate (upgrade uuid5) db).2 ≠ none ∧ (migrate (upgrade uuid5) db).1 = db) ∨
    ∃ log, (migrate (upgrade uuid5) db).2 = none ∧
      upgradeLogged uuid5 db = .ok ((migrate (upgrade uuid5) db).1, log) ∧
      Projects uuid5 db (migrate (upgrade uuid5) db).1 log := by
  cases hup : upgradeLogged uuid5 db with
  | error e =>
    left
    have herror : upgrade uuid5 db = .error e := by rw [upgrade, hup]; rfl
    simp [migrate, herror]
  | ok r =>
    obtain ⟨db', log⟩ := r
    right
    have hok : upgrade uuid5 db = .ok db' := by rw [upgrade, hup]; rfl
    have hresult : (migrate (upgrade uuid5) db).1 = db' := by simp [migrate, hok]
    refine ⟨log, by simp [migrate, hok], by rw [hresult], ?_⟩
    rw [hresult]
    obtain ⟨db₁, hloop, hobs, hplans, hplans'⟩ := upgradeLogged_ok hup
    have hinside' : ∀ r ∈ loadRecords db "conversations", PlanInside db r.1 r.2 := by
      rintro ⟨id, record⟩ hr
      obtain ⟨p, hp, rfl⟩ := mem_loadRecords.mp hr
      exact hinside id p hp
    obtain ⟨hids, heffect, hprojected⟩ := upgradeConversations_spec (nodup_loadRecords _ _)
      hinside' (fun _ _ h => h) hloop
    have hexempt : ∀ id, ¬ ∃ r ∈ loadRecords db "conversations",
        PlanOf db r.1 ("memory_observations", id) := by
      rintro id ⟨r, -, hkey, -⟩
      exact absurd (congrArg Prod.fst hkey) (by simp)
    constructor
    · exact hids
    · intro id p hp
      obtain ⟨b, published, hlog, hb, hproj, hmoved⟩ :=
        hprojected (id, p.record) (mem_loadRecords.mpr ⟨p, hp, rfl⟩)
      refine ⟨b, published, hlog, hb, hproj, fun q plan hq hplan hsome => ?_⟩
      obtain ⟨o, ho, hs, he, hplace, p', hp', hrecord⟩ := hmoved q plan hq hplan hsome
      exact ⟨o, ho, hs, he, hplace, p', hplans _ _ hp', hrecord⟩
    · intro o ho
      rw [hobs]
      exact heffect.stored o ho
    · intro id p hnone hsome
      rw [hobs] at hsome
      exact heffect.created id p hnone hsome
    · intro id p hp
      rw [hobs]
      exact heffect.kept _ p (hexempt id) hp
    · intro id p hp
      rcases hplans' id p hp with hmid | hparked
      · rcases heffect.plans id p hmid with hold | hmoved
        · exact Or.inl hold
        · exact Or.inr (Or.inl hmoved)
      · exact Or.inr (Or.inr hparked)

/-- The identifiers of three ranges of one conversation. -/
def sampleUuid5 (name : String) : String :=
  if name = "default:1-3" then "46d2e619e9d15da991f0c859a4803fa5"
  else if name = "interaction:46d2e619e9d15da991f0c859a4803fa5" then
    "df57adec9e655cc49dce23df6f0600e3"
  else if name = "default:3-4" then "eac97a1692cf5571890df961c73fc1ae"
  else if name = "interaction:eac97a1692cf5571890df961c73fc1ae" then
    "0bd1bd659bb353829defd6cb4be09c27"
  else if name = "default:0-2" then "95d857ece6a65728b3c6b754f470bb43"
  else if name = "interaction:95d857ece6a65728b3c6b754f470bb43" then
    "a648ea7d3daf5da2af0d2a2430ba20e2"
  else ""

/-- A conversation with these messages of the user. -/
def sampleConversation (texts : List String) : Payload where
  record :=
    { rows := [("message_start_index", .int 0), ("next_message_index", .int texts.length),
        ("messages", .arr (texts.map fun text =>
          .obj [("role", .str "user"), ("content", .str text)]))]
      nodup := by simp }
  canonical := false
  canonical_finite := nofun

/-- Four messages, of which the curator has processed one and has planned for two. -/
def plannedDatabase : Records where
  rows := [(("conversations", "default"), sampleConversation ["one", "two", "three", "four"]),
    (("memory_curator_cursors", "default"),
      { record := Table.empty.set "processed_message_count" (.int 1)
        canonical := false
        canonical_finite := nofun }),
    (("memory_curator_plans", "default"),
      { record :=
          { rows := [("source_start", .int 1), ("source_end", .int 3), ("actions", .arr []),
              ("observed_at", .str "2026-01-01T00:00:00+00:00")]
            nodup := by simp }
        canonical := false
        canonical_finite := nofun })]
  nodup := by simp

theorem plannedDatabase_projects : ∃ log,
    upgradeLogged sampleUuid5 plannedDatabase =
      .ok ((migrate (upgrade sampleUuid5) plannedDatabase).1, log) ∧
    Projects sampleUuid5 plannedDatabase (migrate (upgrade sampleUuid5) plannedDatabase).1 log := by
  have hinside : ∀ id p, plannedDatabase.get ("conversations", id) = some p →
      PlanInside plannedDatabase id p.record := by
    intro id p hp
    have hrow := plannedDatabase.mem_rows_iff.mpr hp
    have hrow : id = "default" ∧ p = sampleConversation ["one", "two", "three", "four"] := by
      simpa [plannedDatabase] using hrow
    obtain ⟨rfl, rfl⟩ := hrow
    intro b q plan hb hq hplan
    cases hb
    cases hq
    cases hplan
    decide
  have hnone : (migrate (upgrade sampleUuid5) plannedDatabase).2 = none := by decide
  rcases upgrade_projects sampleUuid5 plannedDatabase hinside with ⟨hsome, -⟩ | ⟨log, -, hlog⟩
  · exact absurd hnone hsome
  · exact ⟨log, hlog⟩

end NuSelf.Migrations.V6V7
