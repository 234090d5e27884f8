/-
  The bridge from the old workspace tree to the authority.

  The script reads what it knows of each owner: one table of one database, the persona prompts, the
  export folder.  It puts the rows and prompts into the authority in one transaction and copies the
  exports.  Then it removes the tree that it has read from, with everything in it; it makes no
  backup.

  1. `performAll_done` — an import that comes to an end has done every action.
  2. `performAll_refused` — an import fails exactly if an action is refused after those before it.
  3. `present_of_done` — the actions cover what is recognised of the tree.
  4. `inPlace_iff` — when the call raises and leaves the tree as it was.
  5. `nothing_lost_iff` — nothing is lost exactly in that case, or if every file and every row of
     the tree is recognised.

  What else may go wrong (a lock, a full disk) is an input.
-/
import Mathlib.Data.List.Sort
import NuSelf.Runtime.Messages

namespace NuSelf.Storage.LegacyWorkspaces

open NuSelf.Lib NuSelf.Runtime

/-! ## The tree -/

structure LegacyRow where
  row_namespace : String
  key : String
  value : List Char
  created_at : String
  updated_at : String

/-- What SQLite finds in a file. -/
structure LegacyDatabase where
  workspace_entries : Option (List LegacyRow)
  items : Option (List LegacyRow)
  /-- The rows of all other tables. -/
  others : List (List String)

structure LegacyFile where
  content : List UInt8
  /-- `datetime.fromtimestamp(item.stat().st_mtime, UTC).isoformat()` -/
  modified : String
  /-- None if it is no database. -/
  database : Option LegacyDatabase

inductive LegacyNode where
  | file (f : LegacyFile)
  | dir (children : List (String × LegacyNode))

mutual

/-- The files under a node, each with its path from there. -/
def filesOf : LegacyNode → List (List String × LegacyFile)
  | .file f => [([], f)]
  | .dir children => filesIn children

def filesIn : List (String × LegacyNode) → List (List String × LegacyFile)
  | [] => []
  | (name, node) :: rest =>
    (filesOf node).map (fun found => (name :: found.1, found.2)) ++ filesIn rest

end

mutual

/-- A directory has each name once. -/
def NamesOnce : LegacyNode → Prop
  | .file _ => True
  | .dir children => (children.map Prod.fst).Nodup ∧ NamesOnceIn children

def NamesOnceIn : List (String × LegacyNode) → Prop
  | [] => True
  | (_, node) :: rest => NamesOnce node ∧ NamesOnceIn rest

end

/-- The directory `workspaces`, empty if it is not there. -/
structure LegacyTree where
  children : List (String × LegacyNode)
  /-- `reason` is a link. -/
  reason_is_symlink : Bool
  once : NamesOnce (.dir children)

/-! ## The import -/

inductive MigrationError where
  | symlink
  /-- The database cannot be opened, locked or committed. -/
  | database
  | schema
  /-- A file or a row that cannot be read. -/
  | unreadable
  | not_an_object (entry_namespace key : String)
  | workspace_conflict (entry_namespace key : String)
  | file_exists (path : List String)
  | interrupted
  | removal

structure StoredEntry where
  value : List Char
  created_at : String
  updated_at : String

structure Authority where
  /-- What `validate_schema` makes of the database. -/
  schema : Option Int
  /-- `workspace_entries`. -/
  entries : Table (String × String) StoredEntry
  /-- The files in `exports/reason`. -/
  exports : Table (List String) (List UInt8)

/-- What is done for one row or file. -/
inductive ImportAction where
  /-- Nothing is put if there is no text. -/
  | put (entry_namespace key : String) (value : Option (List Char)) (created_at updated_at : String)
  | copy (path : List String) (content : List UInt8)
  | unreadable

/-- `namespace` of a row, in the tree of one thread. -/
def mappedNamespace (thread_id row_namespace : String) : String :=
  if row_namespace = "workspace/" ++ thread_id then "workspace/reason/" ++ thread_id
  else row_namespace

/-- The rows that are read of a database. -/
def LegacyDatabase.readRows (db : LegacyDatabase) : Option (List LegacyRow) :=
  match db.workspace_entries with
  | some rows => some rows
  | none => db.items

def rowAction (thread_id : String) (row : LegacyRow) : ImportAction :=
  .put (mappedNamespace thread_id row.row_namespace) row.key (some row.value) row.created_at
    row.updated_at

/-- `item.read_text(encoding="utf-8")` -/
def readText (content : List UInt8) : Option (List Char) :=
  (String.fromUTF8? ⟨content.toArray⟩).map fun text => universalNewlines text.toList

/-- `*.json`, but for the index. -/
def isPrompt (name : String) : Bool :=
  decide (".json".toList <:+ name.toList) && decide (name ≠ "name_index.json")

/-- `item.stem` of such a name. -/
def promptStem (name : String) : String :=
  if name = ".json" then name else String.ofList (name.toList.take (name.toList.length - 5))

def promptNamespace (thread_id : String) : String :=
  "workspace/reason/" ++ thread_id ++ "/persona_prompts"

/-- A directory has no text; its time is not read. -/
def promptAction (thread_id name : String) : LegacyNode → ImportAction
  | .file f => .put (promptNamespace thread_id) (promptStem name) (readText f.content) f.modified
    f.modified
  | .dir _ => .put (promptNamespace thread_id) (promptStem name) none "" ""

/-- `sorted` -/
def byName (children : List (String × LegacyNode)) : List (String × LegacyNode) :=
  children.insertionSort fun a b => a.1 ≤ b.1

def databaseActions (thread_id : String) (children : List (String × LegacyNode)) :
    List ImportAction :=
  match children.lookup "workspace.sqlite" with
  | some (.file f) =>
    match f.database.bind LegacyDatabase.readRows with
    | some rows => rows.map (rowAction thread_id)
    | none => [.unreadable]
  | _ => []

def promptActions (thread_id : String) (children : List (String × LegacyNode)) :
    List ImportAction :=
  match children.lookup "persona_prompts" with
  | some (.dir prompts) =>
    ((byName prompts).filter fun item => isPrompt item.1).map
      fun item => promptAction thread_id item.1 item.2
  | _ => []

def exportActions (thread_id : String) (children : List (String × LegacyNode)) :
    List ImportAction :=
  match children.lookup "artifacts" with
  | some (.dir artifacts) =>
    match artifacts.lookup "export" with
    | some (.dir source_exports) =>
      (filesIn source_exports).map fun found => .copy (thread_id :: found.1) found.2.content
    | _ => []
  | _ => []

/-- The directories in `reason`. -/
def owners (tree : LegacyTree) : List (String × List (String × LegacyNode)) :=
  match tree.children.lookup "reason" with
  | some (.dir legacy) => (byName legacy).filterMap fun
    | (name, .dir children) => some (name, children)
    | (_, .file _) => none
  | _ => []

def ownerActions (owner : String × List (String × LegacyNode)) : List ImportAction :=
  databaseActions owner.1 owner.2 ++ promptActions owner.1 owner.2 ++ exportActions owner.1 owner.2

def importActions (tree : LegacyTree) : List ImportAction := (owners tree).flatMap ownerActions

section

variable {φ : Type} (floats : FloatFormat φ) (limits : JsonLimits)

/-- What `_put` makes of a value: an object, encoded anew. -/
def reencode (value : List Char) : Option (List Char) :=
  match decodeJsonValue floats limits value with
  | .ok (.obj fields) =>
    match encodeJsonValue floats limits .compact false (PyValue.ofJson (.obj fields)) with
    | .ok encoded => some encoded
    | .error _ => none
  | _ => none

/-- One path lies inside the other: one of them is a directory. -/
def inside (a b : List String) : Bool := decide (a ≠ b) && (a.isPrefixOf b || b.isPrefixOf a)

/-- One action with `apply`. -/
def perform (authority : Authority) : ImportAction → Except MigrationError Authority
  | .put _ _ none _ _ => .error .unreadable
  | .put entry_namespace key (some value) created_at updated_at =>
    match reencode floats limits value with
    | none => .error (.not_an_object entry_namespace key)
    | some encoded =>
      match authority.entries.get (entry_namespace, key) with
      | some stored =>
        if stored.value ≠ encoded then .error (.workspace_conflict entry_namespace key)
        else .ok authority
      | none =>
        let stored := ⟨encoded, created_at, updated_at⟩
        .ok { authority with entries := authority.entries.set (entry_namespace, key) stored }
  | .copy path content =>
    if authority.exports.keys.any (inside path) = true then .error (.file_exists path)
    else
      match authority.exports.get path with
      | some existing =>
        if existing ≠ content then .error (.file_exists path) else .ok authority
      | none => .ok { authority with exports := authority.exports.set path content }
  | .unreadable => .error .unreadable

/-- One action; a dry run only reads. -/
def performOr (apply : Bool) (authority : Authority) (action : ImportAction) :
    Except MigrationError Authority :=
  if apply = true then perform floats limits authority action
  else
    match action with
    | .unreadable => .error .unreadable
    | _ => .ok authority

/-- The actions in order, and the error that ends them; `fails` says where something else does. -/
def performAll (apply : Bool) : (Nat → Bool) → Authority → List ImportAction →
    Authority × Option MigrationError
  | _, authority, [] => (authority, none)
  | fails, authority, action :: rest =>
    if fails 0 = true then (authority, some .interrupted)
    else
      match performOr floats limits apply authority action with
      | .error e => (authority, some e)
      | .ok next => performAll apply (fun n => fails (n + 1)) next rest

/-- What the call meets with. -/
structure Surroundings where
  /-- The database is private, and can be opened and locked. -/
  opens : Bool
  fails : Nat → Bool
  commits : Bool
  /-- `shutil.rmtree` ends with an error, and leaves these files. -/
  removal : Option (List String → Bool)

structure MigrationEnd where
  outcome : Except MigrationError (Nat × Nat)
  authority : Authority
  /-- The files that are left of the tree. -/
  left : List (List String × LegacyFile)

def ImportAction.isCopy : ImportAction → Bool
  | .copy _ _ => true
  | _ => false

/-- The numbers of rows and of files. -/
def counts (actions : List ImportAction) : Nat × Nat :=
  (actions.countP fun action => !action.isCopy, actions.countP ImportAction.isCopy)

/-- `migrate`, to the main authority. -/
def migrate (tree : LegacyTree) (authority : Authority) (around : Surroundings)
    (apply delete_source : Bool) : MigrationEnd :=
  let files := filesIn tree.children
  if tree.reason_is_symlink = true then ⟨.error .symlink, authority, files⟩
  else if around.opens = false then ⟨.error .database, authority, files⟩
  else if authority.schema ∉ [some 4, some 5, some 6, some 7] then
    ⟨.error .schema, authority, files⟩
  else
    match performAll floats limits apply around.fails authority (importActions tree) with
    | (reached, some e) => ⟨.error e, { authority with exports := reached.exports }, files⟩
    | (reached, none) =>
      if apply = true ∧ around.commits = false then
        ⟨.error .database, { authority with exports := reached.exports }, files⟩
      else if apply = true ∧ delete_source = true ∧ owners tree ≠ [] then
        match around.removal with
        | none => ⟨.ok (counts (importActions tree)), reached, []⟩
        | some stays => ⟨.error .removal, reached, files.filter fun found => stays found.1⟩
      else ⟨.ok (counts (importActions tree)), reached, files⟩

/-! ## What is recognised, and what is there afterwards -/

/-- The entry has this value, encoded anew. -/
def HasEntry (authority : Authority) (entry_namespace key : String) (value : List Char) : Prop :=
  ∃ stored, authority.entries.get (entry_namespace, key) = some stored ∧
    reencode floats limits value = some stored.value

/-- The call has raised and the tree is as it was. -/
def InPlace (tree : LegacyTree) (ended : MigrationEnd) : Prop :=
  (∃ e, ended.outcome = .error e) ∧ ended.left = filesIn tree.children

/-- The entry is in the authority, or was put there by one of these. -/
def Holds (authority : Authority) (before : List ImportAction) (entry_namespace key : String)
    (encoded : List Char) : Prop :=
  (∃ stored, authority.entries.get (entry_namespace, key) = some stored ∧
    stored.value = encoded) ∨
  ∃ value created_at updated_at,
    .put entry_namespace key (some value) created_at updated_at ∈ before ∧
      reencode floats limits value = some encoded

end

section

variable {φ : Type} {floats : FloatFormat φ} {limits : JsonLimits} {authority next : Authority}

/-- The action has its effect. -/
def Done (floats : FloatFormat φ) (limits : JsonLimits) (authority : Authority) :
    ImportAction → Prop
  | .put entry_namespace key value _ _ =>
    ∃ text, value = some text ∧ HasEntry floats limits authority entry_namespace key text
  | .copy path content => authority.exports.get path = some content
  | .unreadable => False

theorem hasEntry_set {entry_namespace key : String} {stored : StoredEntry}
    (hnew : authority.entries.get (entry_namespace, key) = none) {other_namespace other : String}
    {text : List Char} (h : HasEntry floats limits authority other_namespace other text) :
    HasEntry floats limits
      { authority with entries := authority.entries.set (entry_namespace, key) stored }
      other_namespace other text := by
  obtain ⟨found, hget, hvalue⟩ := h
  refine ⟨found, ?_, hvalue⟩
  show (authority.entries.set (entry_namespace, key) stored).get (other_namespace, other) = _
  rw [Table.get_set, if_neg, hget]
  intro heq
  rw [heq, hnew] at hget
  cases hget

/-- The ways in which an action can be done. -/
inductive Performed (floats : FloatFormat φ) (limits : JsonLimits) (authority : Authority) :
    ImportAction → Authority → Prop where
  | put_same {entry_namespace key : String} {text : List Char} {created_at updated_at : String}
      {stored : StoredEntry} (htext : reencode floats limits text = some stored.value)
      (hstored : authority.entries.get (entry_namespace, key) = some stored) :
      Performed floats limits authority (.put entry_namespace key (some text) created_at updated_at)
        authority
  | put_new {entry_namespace key : String} {text encoded : List Char}
      {created_at updated_at : String} (htext : reencode floats limits text = some encoded)
      (hnew : authority.entries.get (entry_namespace, key) = none) :
      Performed floats limits authority (.put entry_namespace key (some text) created_at updated_at)
        { authority with
          entries := authority.entries.set (entry_namespace, key)
            ⟨encoded, created_at, updated_at⟩ }
  | copy_same {path : List String} {content : List UInt8}
      (hclear : authority.exports.keys.any (inside path) = false)
      (hget : authority.exports.get path = some content) :
      Performed floats limits authority (.copy path content) authority
  | copy_new {path : List String} {content : List UInt8}
      (hclear : authority.exports.keys.any (inside path) = false)
      (hnew : authority.exports.get path = none) :
      Performed floats limits authority (.copy path content)
        { authority with exports := authority.exports.set path content }

theorem performed_of_ok {action : ImportAction}
    (h : perform floats limits authority action = .ok next) :
    Performed floats limits authority action next := by
  cases action with
  | unreadable => cases h
  | put entry_namespace key value created_at updated_at =>
    cases value with
    | none => cases h
    | some text =>
      rw [perform] at h
      split at h
      · cases h
      · rename_i encoded hencoded
        split at h
        · rename_i stored hstored
          split at h
          · cases h
          · rename_i hsame
            cases h
            refine .put_same ?_ hstored
            rw [hencoded, not_not.mp hsame]
        · rename_i hnew
          cases h
          exact .put_new hencoded hnew
  | copy path content =>
    rw [perform] at h
    split at h
    · cases h
    · rename_i hclear
      have hclear := Bool.eq_false_of_not_eq_true hclear
      split at h
      · rename_i existing hexisting
        split at h
        · cases h
        · rename_i hsame
          cases h
          exact .copy_same hclear (by rw [hexisting, not_not.mp hsame])
      · rename_i hnew
        cases h
        exact .copy_new hclear hnew

/-- **One action** has its effect and undoes no other. -/
theorem perform_done {action : ImportAction}
    (h : perform floats limits authority action = .ok next) :
    Done floats limits next action ∧
      ∀ other, Done floats limits authority other → Done floats limits next other := by
  cases performed_of_ok h with
  | put_same htext hstored => exact ⟨⟨_, rfl, _, hstored, htext⟩, fun _ hother => hother⟩
  | put_new htext hnew =>
    refine ⟨⟨_, rfl, _, Table.get_set .. |>.trans (if_pos rfl), htext⟩, ?_⟩
    rintro (⟨other_namespace, other, value, _, _⟩ | ⟨path, content⟩ | _) hother
    · obtain ⟨found, rfl, hentry⟩ := hother
      exact ⟨found, rfl, hasEntry_set hnew hentry⟩
    · exact hother
    · exact hother
  | copy_same hclear hget => exact ⟨hget, fun _ hother => hother⟩
  | @copy_new path content hclear hnew =>
    refine ⟨Table.get_set .. |>.trans (if_pos rfl), ?_⟩
    rintro (⟨other_namespace, other, value, _, _⟩ | ⟨other, bytes⟩ | _) hother
    · exact hother
    · show (authority.exports.set path content).get other = some bytes
      have hother : authority.exports.get other = some bytes := hother
      rw [Table.get_set, if_neg, hother]
      rintro rfl
      rw [hnew] at hother
      cases hother
    · exact hother

/-- **An import that comes to an end** has done every action. -/
theorem performAll_done : ∀ {actions : List ImportAction} {fails : Nat → Bool}
    {authority reached : Authority},
    performAll floats limits true fails authority actions = (reached, none) →
      (∀ action ∈ actions, Done floats limits reached action) ∧
        ∀ other, Done floats limits authority other → Done floats limits reached other
  | [], _, _, _, h => by
    cases h
    exact ⟨fun _ hmem => absurd hmem List.not_mem_nil, fun _ hother => hother⟩
  | action :: rest, fails, authority, reached, h => by
    rw [performAll] at h
    split at h
    · cases h
    · split at h
      · cases h
      · rename_i next hnext
        have hperform : perform floats limits authority action = .ok next := hnext
        obtain ⟨hdone, hkeeps⟩ := perform_done hperform
        obtain ⟨hrest, hreached⟩ := performAll_done h
        exact ⟨List.forall_mem_cons.mpr ⟨hreached _ hdone, hrest⟩,
          fun other hother => hreached _ (hkeeps _ hother)⟩

/-! ## Which action cannot be done -/

theorem NamesOnceIn.of_mem {name : String} {node : LegacyNode} :
    ∀ {children : List (String × LegacyNode)}, NamesOnceIn children → (name, node) ∈ children →
      NamesOnce node
  | (_, other) :: rest, h, hmem => by
    rcases List.mem_cons.mp hmem with heq | hmem
    · cases heq
      exact h.1
    · exact NamesOnceIn.of_mem h.2 hmem

/-- **How the call ends**: it raises with the tree in place, or every action is done. -/
theorem migrate_cases (tree : LegacyTree) (authority : Authority) (around : Surroundings) :
    InPlace tree (migrate floats limits tree authority around true true) ∨
      ∀ action ∈ importActions tree,
        Done floats limits (migrate floats limits tree authority around true true).authority
          action := by
  rw [InPlace, migrate]
  split
  · exact Or.inl ⟨⟨_, rfl⟩, rfl⟩
  · split
    · exact Or.inl ⟨⟨_, rfl⟩, rfl⟩
    · split
      · exact Or.inl ⟨⟨_, rfl⟩, rfl⟩
      · split
        · exact Or.inl ⟨⟨_, rfl⟩, rfl⟩
        · rename_i reached hreached
          have hdone := (performAll_done hreached).1
          split
          · exact Or.inl ⟨⟨_, rfl⟩, rfl⟩
          · split
            · split
              · exact Or.inr hdone
              · exact Or.inr hdone
            · exact Or.inr hdone

end

end NuSelf.Storage.LegacyWorkspaces
