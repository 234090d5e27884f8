/-
  The structured decision of the memory curator.

  The model's answer is validated field by field (strictly: no conversion of types, no other
  fields) and then checked as an action.  The same two steps read an action of a stored plan.
  `casefold` is Unicode case folding.
-/
import NuSelf.Lib.Text
import NuSelf.Storage.Records

namespace NuSelf.Memory

open NuSelf.Lib NuSelf.Storage

inductive MemoryActionType where
  | create | update | ignore
  deriving DecidableEq, Repr

def MemoryActionType.text : MemoryActionType → String
  | .create => "create"
  | .update => "update"
  | .ignore => "ignore"

/-- `MemoryAction`; the confidence is the 64 bits of a float. -/
structure MemoryAction where
  action : MemoryActionType
  title : String
  body : String
  type : String
  tags : List String
  entry_id : Option String
  confidence : BitVec 64
  reason : String
  deriving DecidableEq

/-- `MemoryDecision`: a batch of actions, or another time. -/
inductive MemoryDecision where
  | ready (actions : List MemoryAction) (nonempty : actions ≠ [])
  | deferred
  deriving DecidableEq

/-! ## Validation of the model's fields -/

structure CuratorActionItem where
  action : MemoryActionType
  title : String
  body : String
  type : String
  tags : List String
  entry_id : Option String
  confidence : BitVec 64
  reason : String
  deriving DecidableEq

def readAction : Option Json → Option MemoryActionType
  | some (.str s) =>
    if s = "create" then some .create
    else if s = "update" then some .update
    else if s = "ignore" then some .ignore
    else none
  | _ => none

/-- A text field with a default. -/
def readString (fallback : String) : Option Json → Option String
  | none => some fallback
  | some (.str s) => some s
  | _ => none

/-- At most four texts. -/
def readTags : Option Json → Option (List String)
  | none => some []
  | some (.arr items) =>
    if items.length ≤ 4 then
      items.mapM fun
        | .str s => some s
        | _ => none
    else none
  | _ => none

def readEntryId : Option Json → Option (Option String)
  | none | some .null => some none
  | some (.str s) => some (some s)
  | _ => none

def defaultConfidence : BitVec 64 := 0x3fe3333333333333#64

/-- `0.0 <= value <= 1.0` on the bits of a float. -/
def unitInterval (bits : BitVec 64) : Bool :=
  bits.toNat ≤ 0x3ff0000000000000 || bits.toNat == 0x8000000000000000

/-- A float between nought and one; an integer is accepted for one. -/
def readConfidence : Option Json → Option (BitVec 64)
  | none => some defaultConfidence
  | some (.float bits) => if unitInterval bits = true then some bits else none
  | some (.int n) =>
    if n = 0 then some 0x0#64 else if n = 1 then some 0x3ff0000000000000#64 else none
  | _ => none

def actionFields : List String :=
  ["action", "title", "body", "type", "tags", "entry_id", "confidence", "reason"]

def modelValidate : Json → Option CuratorActionItem
  | .obj fields =>
    if fields.all fun row => actionFields.contains row.1 then do
      let action ← readAction (fields.lookup "action")
      let title ← readString "" (fields.lookup "title")
      let body ← readString "" (fields.lookup "body")
      let type ← readString "episode" (fields.lookup "type")
      let tags ← readTags (fields.lookup "tags")
      let entry_id ← readEntryId (fields.lookup "entry_id")
      let confidence ← readConfidence (fields.lookup "confidence")
      let reason ← readString "" (fields.lookup "reason")
      return { action, title, body, type, tags, entry_id, confidence, reason }
    else none
  | _ => none

/-! ## Checking an action -/

/-- How many suffixes of a text begin with the pattern: `text.count(pattern)` for a pattern that
    cannot overlap itself. -/
def occurrences (pattern : List Char) : List Char → Nat
  | [] => 0
  | c :: rest => (if pattern.isPrefixOf (c :: rest) then 1 else 0) + occurrences pattern rest

def looksLikeRawTranscript (casefold : String → String) (text : String) : Bool :=
  let normalized := (casefold text).toList
  2 ≤ occurrences "user:".toList normalized + occurrences "assistant:".toList normalized

/-- `_normalize_tags`: stripped, without the blank and the repeated ones. -/
def normalizeTags (tags : List String) : List String :=
  (tags.map strip).foldl
    (fun normalized clean =>
      if clean = "" ∨ clean ∈ normalized then normalized else normalized ++ [clean]) []

/-- The built-in memory types. -/
def memoryTypes : List String :=
  ["belief", "concept", "episode", "goal", "instruction", "open_question", "persona_instruction",
    "preference", "profile_fact", "source_note", "style_trait"]

def actionFromItem (casefold : String → String) (item : CuratorActionItem) :
    Option MemoryAction :=
  let title := strip item.title
  let body := strip item.body
  let tags := normalizeTags item.tags
  if item.action ≠ .ignore ∧ (title = "" ∨ body = "") then none
  else if item.action ≠ .ignore ∧ tags = [] then none
  else if item.action ≠ .ignore ∧ looksLikeRawTranscript casefold body = true then none
  else if item.action = .update ∧ item.entry_id.all blank = true then none
  else if item.type ∉ memoryTypes then none
  else
    some { action := item.action, title, body, type := item.type, tags, entry_id := item.entry_id,
           confidence := item.confidence, reason := item.reason }

/-! ## The wire form of an action -/

def MemoryAction.toWire (a : MemoryAction) : Json :=
  .obj [("action", .str a.action.text), ("title", .str a.title), ("body", .str a.body),
    ("type", .str a.type), ("tags", .arr (a.tags.map Json.str)),
    ("entry_id", match a.entry_id with | none => .null | some id => .str id),
    ("confidence", .float a.confidence), ("reason", .str a.reason)]

end NuSelf.Memory
