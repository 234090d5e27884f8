/-
  Schema v5 and v6: persistent chat threads become conversations.

  One function serves both directions: it renames an id field in the records of some collections,
  the prefix of a link in the outbox, the tags and references of evidence in the memory records,
  and the collection itself.  `oldNew` gives the pair of words for a direction.

  Every rewriting is undone by the rewriting of the other direction, on records that do not use the
  new word yet (`renameKey_inverse`, `notificationRecord_inverse`, `walkRecord_inverse`); the
  records come back with the same fields in another order.  `transform_inverse` puts this together
  for the whole table.
-/
import NuSelf.Migrations.Evidence

namespace NuSelf.Migrations.V5V6

open NuSelf.Lib NuSelf.Storage NuSelf.Migrations

/-! ## The migration -/

/-- The words of a direction: the one that goes and the one that comes. -/
def oldNew (upgrade : Bool) (thread conversation : String) : String × String :=
  if upgrade = true then (thread, conversation) else (conversation, thread)

def renameKey (words : String × String) (value : Record) : Except MigrationError Record :=
  match value.get words.1 with
  | none => .ok value
  | some item =>
    if value.contains words.2 = true then .error (.bothFields words.1 words.2)
    else .ok ((value.erase words.1).set words.2 item)

/-- `_walk_memory` on a record. -/
def walkMemory (upgrade : Bool) (value : Record) : Record :=
  let kinds := oldNew upgrade "thread" "conversation"
  let prefixes := oldNew upgrade "thread:" "conversation:"
  walkRecord kinds.1 kinds.2 (some (swapPrefix prefixes.1 prefixes.2)) value

def conversationRecord (upgrade : Bool) : Record → Except MigrationError Record :=
  renameKey (oldNew upgrade "thread_id" "conversation_id")

def traceRecord (upgrade : Bool) : Record → Except MigrationError Record :=
  conversationRecord upgrade

def reflectionRecord (upgrade : Bool) : Record → Except MigrationError Record :=
  renameKey (oldNew upgrade "suggested_thread_id" "suggested_conversation_id")

def notificationRecord (upgrade : Bool) (value : Record) : Except MigrationError Record :=
  let links := oldNew upgrade "nuself://thread/" "nuself://conversation/"
  match value.get "deep_link" with
  | some (.str deep_link) =>
    .ok (value.set "deep_link" (.str (swapPrefix links.1 links.2 deep_link)))
  | _ => .ok value

def collections (upgrade : Bool) : String × String := oldNew upgrade "chat_threads" "conversations"

/-- The collections with their rewritings, in the order of the two loops. -/
def transforms (upgrade : Bool) : List (String × (Record → Except MigrationError Record)) :=
  [((collections upgrade).1, conversationRecord upgrade),
    ("memory_curator_cursors", conversationRecord upgrade),
    ("memory_curator_plans", conversationRecord upgrade),
    ("trace_nodes", traceRecord upgrade),
    ("reflection_entries", reflectionRecord upgrade),
    ("notification_outbox", notificationRecord upgrade),
    ("memory_entries", fun value => .ok (walkMemory upgrade value)),
    ("memory_candidates", fun value => .ok (walkMemory upgrade value)),
    ("profile_items", fun value => .ok (walkMemory upgrade value))]

def transformRecords (upgrade : Bool) (db : Records) : Except MigrationError Records :=
  if db.hasCollection (collections upgrade).2 = true then
    .error (.destinationExists (collections upgrade).2)
  else
    match rewriteAll (transforms upgrade) db with
    | .error e => .error e
    | .ok db =>
      match db.rekey (moveKey (collections upgrade)) with
      | none => .error .integrity
      | some db => .ok db

def upgrade (db : Records) : Except MigrationError Records := transformRecords true db

def downgrade (db : Records) : Except MigrationError Records := transformRecords false db

/-! ## Records without the new words -/

/-- The collections whose records carry the id of a conversation. -/
def idCollections (upgrade : Bool) : List String :=
  [(collections upgrade).1, "memory_curator_cursors", "memory_curator_plans", "trace_nodes"]

def memoryCollections : List String := ["memory_entries", "memory_candidates", "profile_items"]

/-- No record has a field name that the direction introduces. -/
def FreeOfNewFields (upgrade : Bool) (db : Records) : Prop :=
  ∀ k p, db.get k = some p →
    (k.1 ∈ idCollections upgrade →
      p.record.contains (oldNew upgrade "thread_id" "conversation_id").2 = false) ∧
    (k.1 = "reflection_entries" → p.record.contains
      (oldNew upgrade "suggested_thread_id" "suggested_conversation_id").2 = false)

/-- No memory record has evidence with the new tag, or references with the new prefix. -/
def FreeOfNewEvidence (upgrade : Bool) (db : Records) : Prop :=
  ∀ k p, db.get k = some p → k.1 ∈ memoryCollections →
    freeRecord (oldNew upgrade "thread" "conversation").2
      (oldNew upgrade "thread:" "conversation:").2 p.record = true

/-- No outbox record has a link with the new prefix. -/
def FreeOfNewLinks (upgrade : Bool) (db : Records) : Prop :=
  ∀ k p, db.get k = some p → k.1 = "notification_outbox" → ∀ deep_link,
    p.record.get "deep_link" = some (.str deep_link) →
    hasPrefix (oldNew upgrade "nuself://thread/" "nuself://conversation/").2 deep_link = false

/-! ## One record -/

theorem renameKey_inverse {old new : String} (hne : old ≠ new) {r r' : Record}
    (hfree : r.contains new = false) (h : renameKey (old, new) r = .ok r') :
    ∃ r'', renameKey (new, old) r' = .ok r'' ∧ Table.Same r'' r := by
  have hnew : r.get new = none := by simpa [Table.contains] using hfree
  unfold renameKey at h
  cases hold : r.get old with
  | none =>
    simp only [hold] at h
    cases h
    refine ⟨r, ?_, Table.Same.refl r⟩
    simp only [renameKey, hnew]
  | some item =>
    simp only [hold, hfree, Bool.false_eq_true, if_false] at h
    cases h
    have hgone : ((r.erase old).set new item).contains old = false := by
      simp [Table.contains, hne]
    refine ⟨(((r.erase old).set new item).erase new).set old item, ?_, fun k => ?_⟩
    · simp only [renameKey, Table.get_set_self, hgone, Bool.false_eq_true, if_false]
    · rw [Table.get_set, Table.get_erase, Table.get_set, Table.get_erase]
      by_cases hk : k = old
      · rw [if_pos hk, hk, hold]
      · by_cases hkn : k = new
        · rw [if_neg hk, if_pos hkn, hkn, hnew]
        · rw [if_neg hk, if_neg hkn, if_neg hkn, if_neg hk]

theorem renameKey_finite {words : String × String} {r r' : Record} (hr : r.finite = true)
    (h : renameKey words r = .ok r') : r'.finite = true := by
  unfold renameKey at h
  split at h
  · cases h
    exact hr
  · rename_i item hitem
    split at h
    · cases h
    · cases h
      rw [finite_iff] at hr ⊢
      intro k v hv
      rw [Table.get_set, Table.get_erase] at hv
      split at hv
      · cases hv
        exact hr _ _ hitem
      · split at hv
        · cases hv
        · exact hr k v hv

theorem notificationRecord_inverse {upgrade : Bool} {r r' : Record}
    (hfree : ∀ deep_link, r.get "deep_link" = some (.str deep_link) →
      hasPrefix (oldNew upgrade "nuself://thread/" "nuself://conversation/").2 deep_link = false)
    (h : notificationRecord upgrade r = .ok r') :
    ∃ r'', notificationRecord (!upgrade) r' = .ok r'' ∧ Table.Same r'' r := by
  unfold notificationRecord at h
  dsimp only at h
  split at h
  · rename_i deep_link hlink
    cases h
    refine ⟨_, by simp only [notificationRecord, Table.get_set_self]; rfl, fun k => ?_⟩
    rw [Table.get_set, Table.get_set]
    by_cases hk : k = "deep_link"
    · rw [if_pos hk, hk, hlink]
      have hback : ∀ old, swapPrefix _ old (swapPrefix old _ deep_link) = deep_link :=
        fun old => swapPrefix_swapPrefix (hfree deep_link hlink)
      cases upgrade <;> exact congrArg (fun s => some (Json.str s)) (hback _)
    · rw [if_neg hk, if_neg hk]
  · rename_i hother
    cases h
    refine ⟨r, ?_, Table.Same.refl r⟩
    unfold notificationRecord
    dsimp only
    split
    · rename_i deep_link hlink
      exact absurd hlink (hother deep_link)
    · rfl

theorem notificationRecord_finite {upgrade : Bool} {r r' : Record} (hr : r.finite = true)
    (h : notificationRecord upgrade r = .ok r') : r'.finite = true := by
  unfold notificationRecord at h
  dsimp only at h
  split at h
  · cases h
    rw [finite_iff] at hr ⊢
    intro k v hv
    rw [Table.get_set] at hv
    split at hv
    · cases hv
      rfl
    · exact hr k v hv
  · cases h
    exact hr

theorem walkMemory_inverse {upgrade : Bool} {r : Record}
    (h : freeRecord (oldNew upgrade "thread" "conversation").2
      (oldNew upgrade "thread:" "conversation:").2 r = true) :
    walkMemory (!upgrade) (walkMemory upgrade r) = r := by
  cases upgrade <;> exact walkRecord_inverse h

/-- A pair of rewritings: the second undoes the first on the records that satisfy `free`, and it
    keeps records writable. -/
structure Undoes (f g : Record → Except MigrationError Record) (free : Record → Prop) : Prop where
  inverse : ∀ r r', free r → f r = .ok r' → ∃ r'', g r' = .ok r'' ∧ Table.Same r'' r
  finite : ∀ r r', r.finite = true → g r = .ok r' → r'.finite = true

theorem undoes_renameKey (upgrade : Bool) {thread conversation : String}
    (hne : thread ≠ conversation) :
    Undoes (renameKey (oldNew upgrade thread conversation))
      (renameKey (oldNew (!upgrade) thread conversation))
      (fun r => r.contains (oldNew upgrade thread conversation).2 = false) where
  inverse := by
    intro r r' hfree h
    cases upgrade with
    | true => exact renameKey_inverse hne hfree h
    | false => exact renameKey_inverse (Ne.symm hne) hfree h
  finite := fun _ _ hr h => renameKey_finite hr h

theorem undoes_notification (upgrade : Bool) :
    Undoes (notificationRecord upgrade) (notificationRecord (!upgrade)) (fun r => ∀ deep_link,
      r.get "deep_link" = some (.str deep_link) →
      hasPrefix (oldNew upgrade "nuself://thread/" "nuself://conversation/").2 deep_link =
        false) where
  inverse := fun _ _ hfree h => notificationRecord_inverse hfree h
  finite := fun _ _ hr h => notificationRecord_finite hr h

theorem undoes_memory (upgrade : Bool) :
    Undoes (fun value => .ok (walkMemory upgrade value))
      (fun value => .ok (walkMemory (!upgrade) value))
      (fun r => freeRecord (oldNew upgrade "thread" "conversation").2
        (oldNew upgrade "thread:" "conversation:").2 r = true) where
  inverse := by
    intro r r' hfree h
    cases h
    exact ⟨_, rfl, by rw [walkMemory_inverse hfree]; exact Table.Same.refl r⟩
  finite := by
    intro r r' hr h
    cases h
    exact walkRecord_finite hr

/-! ## One row -/

/-- What the new words' absence means for a record of the collection. -/
def FreeAt (upgrade : Bool) (c : String) (r : Record) : Prop :=
  (c ∈ idCollections upgrade →
    r.contains (oldNew upgrade "thread_id" "conversation_id").2 = false) ∧
  (c = "reflection_entries" → r.contains
    (oldNew upgrade "suggested_thread_id" "suggested_conversation_id").2 = false) ∧
  (c = "notification_outbox" → ∀ deep_link, r.get "deep_link" = some (.str deep_link) →
    hasPrefix (oldNew upgrade "nuself://thread/" "nuself://conversation/").2 deep_link = false) ∧
  (c ∈ memoryCollections → freeRecord (oldNew upgrade "thread" "conversation").2
    (oldNew upgrade "thread:" "conversation:").2 r = true)

theorem Undoes.mono {f g : Record → Except MigrationError Record} {free free' : Record → Prop}
    (h : Undoes f g free) (hfree : ∀ r, free' r → free r) : Undoes f g free' where
  inverse := fun r r' hr hf => h.inverse r r' (hfree r hr) hf
  finite := h.finite

/-- The rewriting of a collection, and the one that meets its rows on the way back. -/
theorem lookup_transforms (upgrade : Bool) {c : String} (hc : c ≠ (collections upgrade).2) :
    ((transforms upgrade).lookup c = none ∧
      (transforms (!upgrade)).lookup (moveKey (collections upgrade) (c, "")).1 = none) ∨
    ∃ f g, (transforms upgrade).lookup c = some f ∧
      (transforms (!upgrade)).lookup (moveKey (collections upgrade) (c, "")).1 = some g ∧
      Undoes f g (FreeAt upgrade c) := by
  have hid : ∀ c, c ∈ idCollections upgrade → Undoes (conversationRecord upgrade)
      (conversationRecord (!upgrade)) (FreeAt upgrade c) := fun c hmem =>
    (undoes_renameKey upgrade (by decide)).mono fun r hr => hr.1 hmem
  have hmemory : ∀ c, c ∈ memoryCollections → Undoes (fun value => .ok (walkMemory upgrade value))
      (fun value => .ok (walkMemory (!upgrade) value)) (FreeAt upgrade c) := fun c hmem =>
    (undoes_memory upgrade).mono fun r hr => hr.2.2.2 hmem
  by_cases h : c = (collections upgrade).1
  · subst h
    refine Or.inr ⟨_, _, ?_, ?_, hid _ List.mem_cons_self⟩ <;> cases upgrade <;> rfl
  have hmove : (moveKey (collections upgrade) (c, "")).1 = c := by
    rw [moveKey, if_neg h]
  rw [hmove]
  by_cases hids : c = "memory_curator_cursors" ∨ c = "memory_curator_plans" ∨ c = "trace_nodes"
  · right
    rcases hids with rfl | rfl | rfl
    all_goals
      refine ⟨_, _, ?_, ?_, hid _ (by simp [idCollections])⟩ <;> cases upgrade <;> rfl
  by_cases hreflection : c = "reflection_entries"
  · subst hreflection
    refine Or.inr ⟨_, _, ?_, ?_, (undoes_renameKey upgrade (by decide)).mono fun r hr =>
      hr.2.1 rfl⟩ <;> cases upgrade <;> rfl
  by_cases hlink : c = "notification_outbox"
  · subst hlink
    refine Or.inr ⟨_, _, ?_, ?_, (undoes_notification upgrade).mono fun r hr => hr.2.2.1 rfl⟩ <;>
      cases upgrade <;> rfl
  by_cases hmem : c = "memory_entries" ∨ c = "memory_candidates" ∨ c = "profile_items"
  · right
    rcases hmem with rfl | rfl | rfl
    all_goals
      refine ⟨_, _, ?_, ?_, hmemory _ (by simp [memoryCollections])⟩ <;> cases upgrade <;> rfl
  · -- no rewriting in either direction: `c` is neither word for the conversations
    obtain ⟨hcursors, hplans, htraces⟩ : c ≠ "memory_curator_cursors" ∧
        c ≠ "memory_curator_plans" ∧ c ≠ "trace_nodes" := by simpa [not_or] using hids
    obtain ⟨hentries, hcandidates, hprofile⟩ : c ≠ "memory_entries" ∧
        c ≠ "memory_candidates" ∧ c ≠ "profile_items" := by simpa [not_or] using hmem
    left
    cases upgrade <;>
      simp only [transforms, lookup_row, List.lookup_nil, Bool.not_true, Bool.not_false] <;>
      simp_all [collections, oldNew]

theorem row_inverse (upgrade : Bool) {c : String} (hc : c ≠ (collections upgrade).2)
    {p p' : Payload} (hfree : FreeAt upgrade c p.record)
    (h : rewritten (transforms upgrade) c p = .ok p') :
    ∃ p'', rewritten (transforms (!upgrade)) (moveKey (collections upgrade) (c, "")).1 p' =
      .ok p'' ∧ Table.Same p''.record p.record := by
  rcases lookup_transforms upgrade hc with ⟨hthere, hback⟩ | ⟨f, g, hthere, hback, hundoes⟩
  · simp only [rewritten, hthere] at h
    cases h
    refine ⟨p, ?_, Table.Same.refl _⟩
    simp only [rewritten, hback]
  · simp only [rewritten, hthere] at h
    cases hf : f p.record with
    | error e =>
      rw [hf] at h
      cases h
    | ok r =>
      rw [hf] at h
      obtain ⟨hrecord, -, hfinite⟩ := dumps_ok h
      obtain ⟨r', hg, hsame⟩ := hundoes.inverse _ _ hfree hf
      obtain ⟨p'', hp'', hp''r⟩ := dumps_of_finite (hundoes.finite _ _ hfinite hg)
      refine ⟨p'', ?_, by rw [hp''r]; exact hsame⟩
      simp only [rewritten, hback, hrecord, hg]
      exact hp''

/-! ## The whole table -/

theorem moveKey_moveKey (upgrade : Bool) {k : String × String}
    (hk : k.1 ≠ (collections upgrade).2) :
    moveKey (collections (!upgrade)) (moveKey (collections upgrade) k) = k := by
  obtain ⟨c, i⟩ := k
  cases upgrade <;>
  · simp only [moveKey, collections, oldNew] at hk ⊢
    by_cases hc : c = "chat_threads" <;> by_cases hc' : c = "conversations" <;> simp_all

theorem nodup_transforms (upgrade : Bool) : ((transforms upgrade).map Prod.fst).Nodup := by
  cases upgrade <;> decide

/-- A migration succeeds when no row stands in the new collection and every row can be
    rewritten. -/
theorem transformRecords_isOk {upgrade : Bool} {db : Records}
    (hfree : db.hasCollection (collections upgrade).2 = false)
    (hrows : ∀ k p, db.get k = some p → ∃ p', rewritten (transforms upgrade) k.1 p = .ok p') :
    ∃ db', transformRecords upgrade db = .ok db' := by
  obtain ⟨hiff, hget⟩ := @rewriteAll_spec _ db (nodup_transforms upgrade)
  obtain ⟨u, hu⟩ := hiff.mpr hrows
  have hufree : u.hasCollection (collections upgrade).2 = false := by
    rw [hasCollection_eq_false] at hfree ⊢
    intro id
    rw [hget u hu, hfree id]
    rfl
  obtain ⟨db', hdb', -⟩ := Table.rekey_of_injOn (moveKey_injOn hufree)
  refine ⟨db', ?_⟩
  rw [transformRecords, if_neg (by simp [hfree]), hu]
  simp only [hdb']

/-- What a successful migration did: each row is rewritten and stands under its new key, and no
    other row is there. -/
theorem transformRecords_ok {upgrade : Bool} {db db' : Records}
    (h : transformRecords upgrade db = .ok db') :
    db.hasCollection (collections upgrade).2 = false ∧
      (∀ k p, db.get k = some p → ∃ p', rewritten (transforms upgrade) k.1 p = .ok p' ∧
        db'.get (moveKey (collections upgrade) k) = some p') ∧
      ∀ q p', db'.get q = some p' → ∃ k p, db.get k = some p ∧
        moveKey (collections upgrade) k = q := by
  unfold transformRecords at h
  split at h
  · cases h
  rename_i hfree
  split at h
  · cases h
  rename_i u hu
  split at h
  · cases h
  rename_i moved hmoved
  cases h
  obtain ⟨hiff, hget⟩ := @rewriteAll_spec _ db (nodup_transforms upgrade)
  have hrows := hiff.mp ⟨u, hu⟩
  refine ⟨by simpa using hfree, fun k p hp => ?_, fun q p' hq => ?_⟩
  · obtain ⟨p', hp'⟩ := hrows k p hp
    refine ⟨p', hp', (Table.rekey_get hmoved).mpr ⟨k, ?_, rfl⟩⟩
    rw [hget u hu, hp]
    simp [hp', Except.toOption]
  · obtain ⟨k, hk, hkq⟩ := (Table.rekey_get hmoved).mp hq
    rw [hget u hu] at hk
    obtain ⟨p, hp, -⟩ := Option.bind_eq_some_iff.mp hk
    exact ⟨k, p, hp, hkq⟩

/-- **There and back**: on a table without the new words, the other direction succeeds on the
    result and gives the same records. -/
theorem transform_inverse (upgrade : Bool) {db db' : Records}
    (hfields : FreeOfNewFields upgrade db) (hevidence : FreeOfNewEvidence upgrade db)
    (hlinks : FreeOfNewLinks upgrade db) (h : transformRecords upgrade db = .ok db') :
    ∃ db'', transformRecords (!upgrade) db' = .ok db'' ∧ db''.SameAs db := by
  obtain ⟨hfree, hthere, hfrom⟩ := transformRecords_ok h
  have hnew : ∀ k p, db.get k = some p → k.1 ≠ (collections upgrade).2 := by
    intro k p hp hk
    have hnone := hasCollection_eq_false.mp hfree k.2
    rw [← hk, hp] at hnone
    cases hnone
  -- what a row of the result comes from, and what the way back makes of it
  have hback : ∀ k p, db.get k = some p → ∃ p' p'', db'.get (moveKey (collections upgrade) k) =
      some p' ∧ rewritten (transforms (!upgrade)) (moveKey (collections upgrade) k).1 p' =
        .ok p'' ∧ Table.Same p''.record p.record := by
    intro k p hp
    obtain ⟨p', hp', hmoved⟩ := hthere k p hp
    have hat : FreeAt upgrade k.1 p.record :=
      ⟨(hfields k p hp).1, (hfields k p hp).2, hlinks k p hp, hevidence k p hp⟩
    obtain ⟨p'', hp'', hsame⟩ := row_inverse upgrade (hnew k p hp) hat hp'
    refine ⟨p', p'', hmoved, ?_, hsame⟩
    rw [← hp'']
    congr 1
    unfold moveKey
    split <;> rfl
  have hgone : db'.hasCollection (collections (!upgrade)).2 = false := by
    rw [hasCollection_eq_false]
    intro id
    by_contra hsome
    obtain ⟨p', hp'⟩ := Option.ne_none_iff_exists'.mp hsome
    obtain ⟨k, p, hp, hk⟩ := hfrom _ _ hp'
    have hkey := hnew k p hp
    rw [moveKey] at hk
    cases upgrade <;>
    · split at hk <;> rename_i hc <;> simp_all [collections, oldNew]
  have hrows : ∀ q p', db'.get q = some p' →
      ∃ p'', rewritten (transforms (!upgrade)) q.1 p' = .ok p'' := by
    intro q p' hq
    obtain ⟨k, p, hp, rfl⟩ := hfrom q p' hq
    obtain ⟨p₁, p'', hp₁, hp'', -⟩ := hback k p hp
    rw [hq] at hp₁
    cases hp₁
    exact ⟨p'', hp''⟩
  obtain ⟨db'', hdb''⟩ := transformRecords_isOk hgone hrows
  obtain ⟨-, hthere', hfrom'⟩ := transformRecords_ok hdb''
  refine ⟨db'', hdb'', fun k => ?_⟩
  cases hp : db.get k with
  | none =>
    refine Or.inl ⟨?_, rfl⟩
    by_contra hsome
    obtain ⟨p'', hp''⟩ := Option.ne_none_iff_exists'.mp hsome
    obtain ⟨q, p', hq, hqk⟩ := hfrom' k p'' hp''
    obtain ⟨k₀, p, hp₀, rfl⟩ := hfrom q p' hq
    rw [moveKey_moveKey upgrade (hnew k₀ p hp₀)] at hqk
    rw [hqk, hp] at hp₀
    cases hp₀
  | some p =>
    right
    obtain ⟨p', p'', hp', hp'', hsame⟩ := hback k p hp
    obtain ⟨p₂, hp₂, hmoved⟩ := hthere' _ _ hp'
    rw [hp''] at hp₂
    cases hp₂
    rw [moveKey_moveKey upgrade (hnew k p hp)] at hmoved
    exact ⟨p'', p, hmoved, rfl, hsame⟩

/-- **The two migrations are inverse**: on a table without conversation words an upgrade is undone
    by a downgrade, on one without thread words a downgrade is undone by an upgrade, and a
    migration that raises changes nothing. -/
theorem migrations_inverse :
    (∀ db db', FreeOfNewFields true db → FreeOfNewEvidence true db → FreeOfNewLinks true db →
      upgrade db = .ok db' → ∃ db'', downgrade db' = .ok db'' ∧ db''.SameAs db) ∧
    (∀ db db', FreeOfNewFields false db → FreeOfNewEvidence false db → FreeOfNewLinks false db →
      downgrade db = .ok db' → ∃ db'', upgrade db' = .ok db'' ∧ db''.SameAs db) ∧
    ∀ direction db e, (migrate (transformRecords direction) db).2 = some e →
      (migrate (transformRecords direction) db).1 = db :=
  ⟨fun _ _ hfields hevidence hlinks h => transform_inverse true hfields hevidence hlinks h,
    fun _ _ hfields hevidence hlinks h => transform_inverse false hfields hevidence hlinks h,
    fun _ _ _ h => migrate_error h⟩

/-- An outbox with one record, by its link. -/
def linkedOutbox (deep_link : String) : Records where
  rows := [(("notification_outbox", "item-1"),
    { record := Table.empty.set "deep_link" (.str deep_link)
      canonical := true
      canonical_finite := fun _ => rfl })]
  nodup := List.nodup_singleton _

/-- A link that already speaks of a conversation comes back as the link of a thread. -/
theorem link_is_not_restored : ¬ ∀ db db' : Records,
    (∀ k p, db.get k = some p → p.record.contains "conversation_id" = false ∧
      p.record.contains "suggested_conversation_id" = false) →
    FreeOfNewEvidence true db → upgrade db = .ok db' →
    ∃ db'', downgrade db' = .ok db'' ∧ db''.SameAs db := by
  intro h
  let db := linkedOutbox "nuself://conversation/work"
  have hrow : ∀ k p, db.get k = some p →
      k = ("notification_outbox", "item-1") ∧
        p.record = Table.empty.set "deep_link" (.str "nuself://conversation/work") := by
    intro k p hp
    have hp := List.mem_singleton.mp (db.mem_rows_iff.mpr hp)
    cases hp
    exact ⟨rfl, rfl⟩
  have hup : upgrade db = .ok db := rfl
  have hdown : downgrade db = .ok (linkedOutbox "nuself://thread/work") := rfl
  obtain ⟨db'', hdb'', hsame⟩ := h db db
    (fun k p hp => by rw [(hrow k p hp).2]; decide)
    (fun k p hp hmem => by rw [(hrow k p hp).1] at hmem; exact absurd hmem (by decide)) hup
  rw [hdown] at hdb''
  cases hdb''
  rcases hsame ("notification_outbox", "item-1") with ⟨hnone, -⟩ | ⟨p, p', hp, hp', hfields⟩
  · cases hnone
  · cases hp
    cases hp'
    have hlink := hfields "deep_link"
    exact absurd hlink (by decide)

end NuSelf.Migrations.V5V6
