/-
  The walk over memory records that two migrations make.

  It goes through objects and lists at any depth.  A `source_type` with the old tag gets the new
  one, and where the direction renames references, so are a `source_ref` and the texts of a
  `source_refs` list; everything else is walked.

  1. `walkEvidence_finite` — the walk changes texts only, so it keeps a value writable;
  2. `walkEvidence_inverse` — on a value without the new tag and without references of the new
     form, the walk back undoes the walk.
-/
import NuSelf.Migrations.Records

namespace NuSelf.Migrations

open NuSelf.Lib NuSelf.Storage

/-! ## The walk -/

/-- One entry of a `source_refs` list. -/
def renameRef (rename : String → String) : Json → Json
  | .str s => .str (rename s)
  | other => other

/-- What happens to one field of a memory record; `walked` is the value after the walk. -/
def evidenceField (old new : String) (ref : Option (String → String)) (key : String)
    (item walked : Json) : Json :=
  if key = "source_type" ∧ item = .str old then .str new
  else
    match ref, item with
    | some rename, .str s => if key = "source_ref" then .str (rename s) else walked
    | some rename, .arr items =>
      if key = "source_refs" then .arr (items.map (renameRef rename)) else walked
    | _, _ => walked

section

variable (old new : String) (ref : Option (String → String))

mutual

/-- The walk: `old` tags become `new`, references are renamed by `ref` if it is there. -/
def walkEvidence : Json → Json
  | .arr items => .arr (walkItems items)
  | .obj fields => .obj (walkFields fields)
  | v => v

def walkItems : List Json → List Json
  | [] => []
  | v :: rest => walkEvidence v :: walkItems rest

def walkFields : List (String × Json) → List (String × Json)
  | [] => []
  | (key, item) :: rest =>
    (key, evidenceField old new ref key item (walkEvidence item)) :: walkFields rest

end

/-- The walk over a whole record. -/
def walkRecord (r : Record) : Record :=
  r.mapRows fun key item => evidenceField old new ref key item (walkEvidence old new ref item)

end

variable {old new : String} {ref : Option (String → String)}

/-! ## Numbers -/

theorem finite_renameRef (rename : String → String) (v : Json) :
    (renameRef rename v).finite = v.finite := by
  cases v <;> rfl

theorem finite_arr_renameRef (rename : String → String) (items : List Json) :
    (Json.arr (items.map (renameRef rename))).finite = (Json.arr items).finite := by
  show Json.allItems _ _ (items.map (renameRef rename)) = Json.allItems _ _ items
  induction items with
  | nil => rfl
  | cons v rest ih =>
    have hv := finite_renameRef rename v
    rw [Json.finite, Json.finite] at hv
    rw [List.map_cons, Json.allItems, Json.allItems, hv, ih]

theorem evidenceField_finite {item walked : Json} (h : walked.finite = item.finite)
    (key : String) : (evidenceField old new ref key item walked).finite = item.finite := by
  unfold evidenceField
  split
  · rename_i htype
    rw [htype.2]
    rfl
  · split
    · split
      · rfl
      · exact h
    · split
      · exact finite_arr_renameRef _ _
      · exact h
    · exact h

mutual

theorem walkEvidence_finite : ∀ v : Json, (walkEvidence old new ref v).finite = v.finite
  | .arr items => walkItems_finite items
  | .obj fields => walkFields_finite fields
  | .null | .bool _ | .int _ | .float _ | .str _ => rfl

theorem walkItems_finite : ∀ items : List Json,
    Json.allItems Json.finiteLeaf (fun _ => true) (walkItems old new ref items) =
      Json.allItems Json.finiteLeaf (fun _ => true) items
  | [] => rfl
  | v :: rest => by
    have hv : (walkEvidence old new ref v).finite = v.finite := walkEvidence_finite v
    rw [Json.finite, Json.finite] at hv
    rw [walkItems, Json.allItems, Json.allItems, hv, walkItems_finite rest]

theorem walkFields_finite : ∀ fields : List (String × Json),
    Json.allFields Json.finiteLeaf (fun _ => true) (walkFields old new ref fields) =
      Json.allFields Json.finiteLeaf (fun _ => true) fields
  | [] => rfl
  | (key, item) :: rest => by
    have hitem : (evidenceField old new ref key item (walkEvidence old new ref item)).finite =
        item.finite := evidenceField_finite (walkEvidence_finite item) key
    rw [Json.finite, Json.finite] at hitem
    rw [walkFields, Json.allFields, Json.allFields, hitem, walkFields_finite rest]

end

theorem walkRecord_finite {r : Record} (h : r.finite = true) :
    (walkRecord old new ref r).finite = true := by
  rw [finite_iff] at h ⊢
  intro k v hv
  rw [walkRecord, Table.get_mapRows] at hv
  obtain ⟨item, hitem, rfl⟩ := Option.map_eq_some_iff.mp hv
  rw [evidenceField_finite (walkEvidence_finite item)]
  exact h k item hitem

/-! ## Walking back -/

/-- The field is no tag `kind` and no reference with the prefix. -/
def freeField (kind refPrefix key : String) (item : Json) : Bool :=
  !(decide (key = "source_type" ∧ item = .str kind)) &&
    match item with
    | .str s => !(decide (key = "source_ref") && hasPrefix refPrefix s)
    | .arr items =>
      !decide (key = "source_refs") || items.all fun
        | .str s => !hasPrefix refPrefix s
        | _ => true
    | _ => true

section

variable (kind refPrefix : String)

mutual

/-- The value holds no evidence with the tag and no reference with the prefix, at any depth. -/
def freeEvidence : Json → Bool
  | .arr items => freeItems items
  | .obj fields => freeFields fields
  | _ => true

def freeItems : List Json → Bool
  | [] => true
  | v :: rest => freeEvidence v && freeItems rest

def freeFields : List (String × Json) → Bool
  | [] => true
  | (key, item) :: rest =>
    freeField kind refPrefix key item && freeEvidence item && freeFields rest

end

def freeRecord (r : Record) : Bool := freeFields kind refPrefix r.rows

end

theorem freeFields_iff {kind refPrefix : String} :
    ∀ {fields : List (String × Json)}, freeFields kind refPrefix fields = true ↔
      ∀ k v, (k, v) ∈ fields →
        freeField kind refPrefix k v = true ∧ freeEvidence kind refPrefix v = true
  | [] => by simp [freeFields]
  | (k, v) :: rest => by
    simp only [freeFields, Bool.and_eq_true, @freeFields_iff kind refPrefix rest, List.mem_cons,
      Prod.mk.injEq]
    constructor
    · rintro ⟨hv, hrest⟩ k' v' (⟨rfl, rfl⟩ | hm)
      · exact hv
      · exact hrest k' v' hm
    · intro h
      exact ⟨h k v (Or.inl ⟨rfl, rfl⟩), fun k' v' hm => h k' v' (Or.inr hm)⟩

variable {oldPrefix newPrefix : String}

theorem renameRef_inverse {items : List Json}
    (h : (items.all fun
      | .str s => !hasPrefix newPrefix s
      | _ => true) = true) :
    (items.map (renameRef (swapPrefix oldPrefix newPrefix))).map
      (renameRef (swapPrefix newPrefix oldPrefix)) = items := by
  rw [List.map_map]
  conv_rhs => rw [← List.map_id items]
  refine List.map_congr_left fun v hv => ?_
  have hfree := List.all_eq_true.mp h v hv
  cases v with
  | str s =>
    have hs : hasPrefix newPrefix s = false := by simpa using hfree
    show Json.str (swapPrefix newPrefix oldPrefix (swapPrefix oldPrefix newPrefix s)) = .str s
    rw [swapPrefix_swapPrefix hs]
  | null | bool _ | int _ | float _ | arr _ | obj _ => rfl

theorem evidenceField_inverse {key : String} {item : Json}
    (hfree : freeField new newPrefix key item = true)
    (hwalk : walkEvidence new old (some (swapPrefix newPrefix oldPrefix))
      (walkEvidence old new (some (swapPrefix oldPrefix newPrefix)) item) = item) :
    let there := evidenceField old new (some (swapPrefix oldPrefix newPrefix)) key item
      (walkEvidence old new (some (swapPrefix oldPrefix newPrefix)) item)
    evidenceField new old (some (swapPrefix newPrefix oldPrefix)) key there
      (walkEvidence new old (some (swapPrefix newPrefix oldPrefix)) there) = item := by
  intro there
  by_cases htype : key = "source_type" ∧ item = .str old
  · have hthere : there = .str new := if_pos htype
    rw [hthere, evidenceField, if_pos ⟨htype.1, rfl⟩, htype.2]
  · obtain ⟨hkind, href⟩ := Bool.and_eq_true_iff.mp hfree
    have hkind : ¬ (key = "source_type" ∧ item = .str new) := by
      simpa only [Bool.not_eq_true', decide_eq_false_iff_not] using hkind
    have hthere : there = _ := if_neg htype
    cases item with
    | str s =>
      have hs : key = "source_ref" → hasPrefix newPrefix s = false := by
        intro hkey
        simpa [hkey] using href
      by_cases hkey : key = "source_ref"
      · rw [hthere]
        simp [evidenceField, hkey, swapPrefix_swapPrefix (hs hkey)]
      · rw [hthere]
        simp only [hkey, if_false, walkEvidence]
        rw [evidenceField, if_neg hkind]
        simp [hkey]
    | arr items =>
      by_cases hkey : key = "source_refs"
      · have hall : (items.all fun
            | .str s => !hasPrefix newPrefix s
            | _ => true) = true := by simpa [hkey] using href
        rw [hthere]
        simp only [hkey, if_true]
        rw [evidenceField, if_neg (by simp)]
        simp only [if_true]
        rw [renameRef_inverse hall]
      · rw [hthere]
        simp only [hkey, if_false, walkEvidence] at hwalk ⊢
        rw [evidenceField, if_neg (by simp)]
        simp only [hkey, if_false]
        exact hwalk
    | obj fields =>
      rw [hthere]
      simp only [walkEvidence] at hwalk ⊢
      simpa [evidenceField] using hwalk
    | null | bool _ | int _ | float _ =>
      rw [hthere]
      simp [evidenceField, walkEvidence]

mutual

/-- **The walk back undoes the walk** on a value without the new tag and prefix. -/
theorem walkEvidence_inverse : ∀ v : Json, freeEvidence new newPrefix v = true →
    walkEvidence new old (some (swapPrefix newPrefix oldPrefix))
      (walkEvidence old new (some (swapPrefix oldPrefix newPrefix)) v) = v
  | .arr items, h => by
    simp only [walkEvidence]
    rw [walkItems_inverse items h]
  | .obj fields, h => by
    simp only [walkEvidence]
    rw [walkFields_inverse fields h]
  | .null, _ | .bool _, _ | .int _, _ | .float _, _ | .str _, _ => rfl

theorem walkItems_inverse : ∀ items : List Json, freeItems new newPrefix items = true →
    walkItems new old (some (swapPrefix newPrefix oldPrefix))
      (walkItems old new (some (swapPrefix oldPrefix newPrefix)) items) = items
  | [], _ => rfl
  | v :: rest, h => by
    obtain ⟨hv, hrest⟩ := Bool.and_eq_true_iff.mp h
    simp only [walkItems]
    rw [walkEvidence_inverse v hv, walkItems_inverse rest hrest]

theorem walkFields_inverse : ∀ fields : List (String × Json),
    freeFields new newPrefix fields = true →
    walkFields new old (some (swapPrefix newPrefix oldPrefix))
      (walkFields old new (some (swapPrefix oldPrefix newPrefix)) fields) = fields
  | [], _ => rfl
  | (key, item) :: rest, h => by
    simp only [freeFields, Bool.and_eq_true] at h
    obtain ⟨⟨hfield, hitem⟩, hrest⟩ := h
    simp only [walkFields]
    rw [evidenceField_inverse hfield (walkEvidence_inverse item hitem),
      walkFields_inverse rest hrest]

end

theorem walkRecord_inverse {r : Record} (h : freeRecord new newPrefix r = true) :
    walkRecord new old (some (swapPrefix newPrefix oldPrefix))
      (walkRecord old new (some (swapPrefix oldPrefix newPrefix)) r) = r := by
  apply Table.ext
  show (r.rows.map _).map _ = r.rows
  rw [List.map_map]
  conv_rhs => rw [← List.map_id r.rows]
  refine List.map_congr_left fun row hrow => ?_
  obtain ⟨hfield, hitem⟩ := freeFields_iff.mp h row.1 row.2 hrow
  exact Prod.ext rfl (evidenceField_inverse hfield (walkEvidence_inverse row.2 hitem))

end NuSelf.Migrations
