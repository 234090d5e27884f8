/-
  How `json.dumps` lays a text out: separators with white space around them, and lines that are
  indented.

  The compact text of `JsonText` is the layout without any space (`renderWith_compact`).
-/
import NuSelf.Lib.JsonScan

namespace NuSelf.Lib

/-- `indent` and `separators`: the white space around a comma and around a colon. -/
structure Layout where
  indent : Option Nat
  before_item : List Char
  after_item : List Char
  before_value : List Char
  after_value : List Char
  spaces : ∀ c ∈ before_item ++ after_item ++ before_value ++ after_value, isJsonSpace c = true

namespace Layout

/-- `separators=(",", ":")`. -/
def compact : Layout where
  indent := none
  before_item := []
  after_item := []
  before_value := []
  after_value := []
  spaces := nofun

/-- The separators of `json.dumps(indent=indent)`. -/
def plain (indent : Option Nat) : Layout where
  indent
  before_item := []
  after_item := if indent.isSome then [] else [' ']
  before_value := []
  after_value := [' ']
  spaces := by
    have hblank : isJsonSpace ' ' = true := rfl
    cases indent with
    | none => exact List.forall_mem_cons.mpr ⟨hblank, List.forall_mem_singleton.mpr hblank⟩
    | some indent => exact List.forall_mem_singleton.mpr hblank

variable (layout : Layout)

/-- A new line, if lines are indented. -/
def newline (level : Nat) : List Char :=
  layout.indent.elim [] fun indent => '\n' :: List.replicate (indent * level) ' '

def item : List Char := layout.before_item ++ ',' :: layout.after_item

def colon : List Char := layout.before_value ++ ':' :: layout.after_value

/-- The line in front of the first of some items or fields. -/
def firstLine {α : Type} (level : Nat) (items : List α) : List Char :=
  if items.isEmpty then [] else layout.newline (level + 1)

theorem newline_spaces (level : Nat) : ∀ c ∈ layout.newline level, isJsonSpace c = true := by
  rw [newline]
  cases layout.indent with
  | none => exact nofun
  | some indent =>
    refine List.forall_mem_cons.mpr ⟨by decide, fun c hc => ?_⟩
    rw [List.eq_of_mem_replicate hc]
    decide

theorem firstLine_spaces {α : Type} (level : Nat) (items : List α) :
    ∀ c ∈ layout.firstLine level items, isJsonSpace c = true := by
  rw [firstLine]
  split
  · exact nofun
  · exact layout.newline_spaces (level + 1)

theorem before_item_spaces : ∀ c ∈ layout.before_item, isJsonSpace c = true := fun c hc =>
  layout.spaces c (by simp only [List.mem_append, hc, true_or])

theorem after_item_spaces : ∀ c ∈ layout.after_item, isJsonSpace c = true := fun c hc =>
  layout.spaces c (by simp only [List.mem_append, hc, true_or, or_true])

theorem before_value_spaces : ∀ c ∈ layout.before_value, isJsonSpace c = true := fun c hc =>
  layout.spaces c (by simp only [List.mem_append, hc, true_or, or_true])

theorem after_value_spaces : ∀ c ∈ layout.after_value, isJsonSpace c = true := fun c hc =>
  layout.spaces c (by simp only [List.mem_append, hc, or_true])

end Layout

namespace JsonValue

variable {φ : Type} (floats : FloatFormat φ) (layout : Layout)

mutual

/-- The text of a value so many levels deep. -/
def renderWith (level : Nat) : JsonValue φ → List Char
  | .arr items => '[' :: (layout.firstLine level items ++ renderArrayWith level items)
  | .obj fields => '{' :: (layout.firstLine level fields ++ renderObjectWith level fields)
  | v => render floats v

def renderArrayWith (level : Nat) : List (JsonValue φ) → List Char
  | [] => [']']
  | v :: rest => renderWith (level + 1) v ++ renderItemsWith level rest

/-- The items behind the first one. -/
def renderItemsWith (level : Nat) : List (JsonValue φ) → List Char
  | [] => layout.newline level ++ [']']
  | v :: rest =>
    layout.item ++ (layout.newline (level + 1) ++
      (renderWith (level + 1) v ++ renderItemsWith level rest))

def renderObjectWith (level : Nat) : List (PyText × JsonValue φ) → List Char
  | [] => ['}']
  | (k, v) :: rest =>
    renderString k ++ (layout.colon ++ (renderWith (level + 1) v ++ renderFieldsWith level rest))

/-- The fields behind the first one. -/
def renderFieldsWith (level : Nat) : List (PyText × JsonValue φ) → List Char
  | [] => layout.newline level ++ ['}']
  | (k, v) :: rest =>
    layout.item ++ (layout.newline (level + 1) ++ (renderString k ++
      (layout.colon ++ (renderWith (level + 1) v ++ renderFieldsWith level rest))))

end

mutual

/-- **The compact layout** is the compact text. -/
theorem renderWith_compact (level : Nat) : ∀ v : JsonValue φ,
    renderWith floats .compact level v = render floats v
  | .null | .bool _ | .int _ | .float _ | .str _ | .foreign _ => rfl
  | .arr [] | .obj [] => rfl
  | .arr (v :: rest) => by
    rw [renderWith, render, renderArrayWith, renderArray, renderWith_compact (level + 1) v,
      renderItemsWith_compact level rest]
    rfl
  | .obj ((k, v) :: rest) => by
    rw [renderWith, render, renderObjectWith, renderObject, renderWith_compact (level + 1) v,
      renderFieldsWith_compact level rest]
    rfl

theorem renderItemsWith_compact (level : Nat) : ∀ items : List (JsonValue φ),
    renderItemsWith floats .compact level items = renderItems floats items
  | [] => rfl
  | v :: rest => by
    rw [renderItemsWith, renderItems, renderWith_compact (level + 1) v,
      renderItemsWith_compact level rest]
    rfl

theorem renderFieldsWith_compact (level : Nat) : ∀ fields : List (PyText × JsonValue φ),
    renderFieldsWith floats .compact level fields = renderFields floats fields
  | [] => rfl
  | (k, v) :: rest => by
    rw [renderFieldsWith, renderFields, renderWith_compact (level + 1) v,
      renderFieldsWith_compact level rest]
    rfl

end

/-- `json.dumps(v, indent=…, separators=…, allow_nan=False)`. -/
def dumpsWith (limit : Nat) (v : JsonValue φ) : Except DumpError (List Char) := do
  dumpsCheck floats limit v
  return renderWith floats layout 0 v

end JsonValue

end NuSelf.Lib
