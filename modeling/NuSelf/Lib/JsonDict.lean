/-
  Objects of JSON as Python dictionaries: of two fields with one key the last value counts, in the
  place of the first, and the order of the fields can be changed.

  1. `dictOf` — the dictionary of some pairs; pairs with distinct keys are left alone.
  2. `sortKeys` — `sort_keys=True`.  What counts for a text is the same in any order
     (`nesting_sortKeys`, `clean_sortKeys`, `joinAll_sortKeys_iff`, `uniqueKeys_sortKeys`), and
     sorting twice is sorting once (`sortKeys_sortKeys`).
  3. `dict_invariant` — what is read into dictionaries has unique keys, no pair of surrogates, and
     a text unless one of its floats is infinite.
-/
import Mathlib.Algebra.Group.Nat.Defs
import Mathlib.Data.List.Lex
import NuSelf.Lib.JsonReread
import NuSelf.Lib.Table

namespace NuSelf.Lib

open JsonValue

variable {φ : Type}

/-! ## Dictionaries -/

/-- `dict(pairs)`. -/
def dictOf (pairs : List (PyText × JsonValue φ)) : List (PyText × JsonValue φ) :=
  pairs.foldl (fun dict pair => upsert pair.1 pair.2 dict) []

theorem mem_upsert {κ ν : Type} [DecidableEq κ] {k : κ} {v : ν} : ∀ {rows : List (κ × ν)}
    {row : κ × ν}, row ∈ upsert k v rows → row = (k, v) ∨ row ∈ rows
  | [], _, h => Or.inl (List.mem_singleton.mp h)
  | (k', v') :: rest, row, h => by
    rw [upsert] at h
    split at h
    · rcases List.mem_cons.mp h with rfl | hmem
      · exact Or.inl rfl
      · exact Or.inr (List.mem_cons_of_mem _ hmem)
    · rcases List.mem_cons.mp h with rfl | hmem
      · exact Or.inr List.mem_cons_self
      · exact (mem_upsert hmem).imp_right (List.mem_cons_of_mem _)

/-- **Pairs with distinct keys** are a dictionary already. -/
theorem dictOf_eq_self {pairs : List (PyText × JsonValue φ)} (h : (pairs.map Prod.fst).Nodup) :
    dictOf pairs = pairs :=
  foldl_upsert pairs [] h

theorem dictOf_nodup (pairs : List (PyText × JsonValue φ)) :
    ((dictOf pairs).map Prod.fst).Nodup := by
  have hfold : ∀ rest dict : List (PyText × JsonValue φ), (dict.map Prod.fst).Nodup →
      ((rest.foldl (fun dict pair => upsert pair.1 pair.2 dict) dict).map Prod.fst).Nodup := by
    intro rest
    induction rest with
    | nil => exact fun _ h => h
    | cons pair rest ih => exact fun dict h => ih _ (nodup_upsert h)
  exact hfold pairs [] List.nodup_nil

theorem mem_dictOf {pairs : List (PyText × JsonValue φ)} {field : PyText × JsonValue φ}
    (h : field ∈ dictOf pairs) : field ∈ pairs := by
  have hfold : ∀ rest dict : List (PyText × JsonValue φ),
      field ∈ rest.foldl (fun dict pair => upsert pair.1 pair.2 dict) dict →
        field ∈ dict ∨ field ∈ rest := by
    intro rest
    induction rest with
    | nil => exact fun _ hmem => Or.inl hmem
    | cons pair rest ih =>
      intro dict hmem
      rcases ih _ hmem with hdict | hrest
      · rcases mem_upsert hdict with rfl | hold
        · exact Or.inr List.mem_cons_self
        · exact Or.inl hold
      · exact Or.inr (List.mem_cons_of_mem _ hrest)
  exact (hfold pairs [] h).resolve_left List.not_mem_nil

/-! ## Keys in order -/

/-- The place of a code point in the order of texts. -/
def CodePoint.place : CodePoint → Nat
  | .char c => c.toNat
  | .surrogate s => 0xd800 + s

/-- `a <= b` of two keys. -/
def keyLe (a b : PyText × JsonValue φ) : Bool :=
  decide (a.1.map CodePoint.place ≤ b.1.map CodePoint.place)

mutual

/-- The value with the fields of every object in the order of their keys. -/
def sortKeys : JsonValue φ → JsonValue φ
  | .arr items => .arr (sortItems items)
  | .obj fields => .obj ((sortFields fields).mergeSort keyLe)
  | v => v

def sortItems : List (JsonValue φ) → List (JsonValue φ)
  | [] => []
  | v :: rest => sortKeys v :: sortItems rest

/-- The values are sorted, the fields stay where they are. -/
def sortFields : List (PyText × JsonValue φ) → List (PyText × JsonValue φ)
  | [] => []
  | (k, v) :: rest => (k, sortKeys v) :: sortFields rest

end

theorem sortFields_keys (fields : List (PyText × JsonValue φ)) :
    (sortFields fields).map Prod.fst = fields.map Prod.fst := by
  induction fields with
  | nil => rfl
  | cons field rest ih => exact congrArg (field.1 :: ·) ih

/-! ## What the order does not change -/

theorem nestingFields_perm {fields fields' : List (PyText × JsonValue φ)}
    (h : fields.Perm fields') : nestingFields fields = nestingFields fields' := by
  induction h with
  | nil => rfl
  | cons field _ ih => rw [nestingFields, nestingFields, ih]
  | swap field field' rest =>
    rw [nestingFields, nestingFields, nestingFields, nestingFields, Nat.max_left_comm]
  | trans _ _ ih ih' => rw [ih, ih']

theorem cleanFields_perm {floats : FloatFormat φ} {fields fields' : List (PyText × JsonValue φ)}
    (h : fields.Perm fields') : cleanFields floats fields = cleanFields floats fields' := by
  induction h with
  | nil => rfl
  | cons field _ ih => rw [cleanFields, cleanFields, ih]
  | swap field field' rest =>
    rw [cleanFields, cleanFields, cleanFields, cleanFields, Bool.and_left_comm]
  | trans _ _ ih ih' => rw [ih, ih']

mutual

theorem nesting_sortKeys : ∀ v : JsonValue φ, nesting (sortKeys v) = nesting v
  | .null | .bool _ | .int _ | .float _ | .str _ | .foreign _ => rfl
  | .arr items => congrArg (· + 1) (nestingItems_sort items)
  | .obj fields => by
    rw [sortKeys, nesting, nesting, nestingFields_perm (List.mergeSort_perm _ _),
      nestingFields_sort fields]

theorem nestingItems_sort : ∀ items : List (JsonValue φ),
    nestingItems (sortItems items) = nestingItems items
  | [] => rfl
  | v :: rest => by
    rw [sortItems, nestingItems, nestingItems, nesting_sortKeys v, nestingItems_sort rest]

theorem nestingFields_sort : ∀ fields : List (PyText × JsonValue φ),
    nestingFields (sortFields fields) = nestingFields fields
  | [] => rfl
  | (k, v) :: rest => by
    rw [sortFields, nestingFields, nestingFields, nesting_sortKeys v, nestingFields_sort rest]

end

section

variable {floats : FloatFormat φ}

mutual

theorem clean_sortKeys : ∀ v : JsonValue φ, clean floats (sortKeys v) = clean floats v
  | .null | .bool _ | .int _ | .float _ | .str _ | .foreign _ => rfl
  | .arr items => cleanItems_sort items
  | .obj fields => by
    rw [sortKeys, clean, clean, cleanFields_perm (List.mergeSort_perm _ _), cleanFields_sort fields]

theorem cleanItems_sort : ∀ items : List (JsonValue φ),
    cleanItems floats (sortItems items) = cleanItems floats items
  | [] => rfl
  | v :: rest => by
    rw [sortItems, cleanItems, cleanItems, clean_sortKeys v, cleanItems_sort rest]

theorem cleanFields_sort : ∀ fields : List (PyText × JsonValue φ),
    cleanFields floats (sortFields fields) = cleanFields floats fields
  | [] => rfl
  | (k, v) :: rest => by
    rw [sortFields, cleanFields, cleanFields, clean_sortKeys v, cleanFields_sort rest]

end

end

theorem joinItems_eq_self_iff : ∀ {items : List (JsonValue φ)},
    joinItems items = items ↔ ∀ v ∈ items, joinAll v = v
  | [] => iff_of_true rfl fun _ hmem => absurd hmem List.not_mem_nil
  | v :: rest => by
    rw [joinItems, List.cons.injEq, joinItems_eq_self_iff, List.forall_mem_cons]

theorem joinFields_eq_self_iff : ∀ {fields : List (PyText × JsonValue φ)},
    joinFields fields = fields ↔ ∀ field ∈ fields, Joined field.1 ∧ joinAll field.2 = field.2
  | [] => iff_of_true rfl fun _ hmem => absurd hmem List.not_mem_nil
  | (k, v) :: rest => by
    rw [joinFields, List.cons.injEq, Prod.mk.injEq, joinFields_eq_self_iff, List.forall_mem_cons]
    rfl

mutual

theorem joinAll_sortKeys_iff : ∀ v : JsonValue φ,
    joinAll (sortKeys v) = sortKeys v ↔ joinAll v = v
  | .null | .bool _ | .int _ | .float _ | .str _ | .foreign _ => Iff.rfl
  | .arr items => by
    rw [sortKeys, joinAll, joinAll, JsonValue.arr.injEq, JsonValue.arr.injEq,
      joinItems_sort_iff items]
  | .obj fields => by
    have hsort := joinFields_sort_iff fields
    rw [joinFields_eq_self_iff] at hsort
    rw [sortKeys, joinAll, joinAll, JsonValue.obj.injEq, JsonValue.obj.injEq,
      joinFields_eq_self_iff, ← hsort]
    simp only [List.mem_mergeSort]

theorem joinItems_sort_iff : ∀ items : List (JsonValue φ),
    joinItems (sortItems items) = sortItems items ↔ joinItems items = items
  | [] => Iff.rfl
  | v :: rest => by
    rw [sortItems, joinItems, joinItems, List.cons.injEq, List.cons.injEq, joinAll_sortKeys_iff v,
      joinItems_sort_iff rest]

theorem joinFields_sort_iff : ∀ fields : List (PyText × JsonValue φ),
    joinFields (sortFields fields) = sortFields fields ↔ joinFields fields = fields
  | [] => Iff.rfl
  | (k, v) :: rest => by
    rw [sortFields, joinFields, joinFields, List.cons.injEq, List.cons.injEq, Prod.mk.injEq,
      Prod.mk.injEq, joinAll_sortKeys_iff v, joinFields_sort_iff rest]

end

/-! ## Sorting twice -/

theorem sortFields_eq_self : ∀ {fields : List (PyText × JsonValue φ)},
    (∀ field ∈ fields, sortKeys field.2 = field.2) → sortFields fields = fields
  | [], _ => rfl
  | (k, v) :: rest, h => by
    rw [sortFields, h (k, v) List.mem_cons_self,
      sortFields_eq_self fun field hfield => h field (List.mem_cons_of_mem _ hfield)]

theorem keyLe_trans (a b c : PyText × JsonValue φ) (hab : keyLe a b = true)
    (hbc : keyLe b c = true) : keyLe a c = true := by
  rw [keyLe, decide_eq_true_eq] at hab hbc ⊢
  exact le_trans hab hbc

theorem keyLe_total (a b : PyText × JsonValue φ) : (keyLe a b || keyLe b a) = true := by
  rw [Bool.or_eq_true, keyLe, keyLe, decide_eq_true_eq, decide_eq_true_eq]
  exact le_total _ _

mutual

/-- **Sorting twice** is sorting once. -/
theorem sortKeys_sortKeys : ∀ v : JsonValue φ, sortKeys (sortKeys v) = sortKeys v
  | .null | .bool _ | .int _ | .float _ | .str _ | .foreign _ => rfl
  | .arr items => congrArg JsonValue.arr (sortItems_sortItems items)
  | .obj fields => by
    have hsorted := List.pairwise_mergeSort keyLe_trans keyLe_total (sortFields fields)
    have hvalues : sortFields ((sortFields fields).mergeSort keyLe) =
        (sortFields fields).mergeSort keyLe := by
      refine sortFields_eq_self fun field hfield => ?_
      exact sortFields_sorted fields field (List.mem_mergeSort.mp hfield)
    rw [sortKeys, sortKeys, hvalues, List.mergeSort_of_pairwise hsorted]

theorem sortItems_sortItems : ∀ items : List (JsonValue φ),
    sortItems (sortItems items) = sortItems items
  | [] => rfl
  | v :: rest => by
    rw [sortItems, sortItems, sortKeys_sortKeys v, sortItems_sortItems rest]

theorem sortFields_sorted : ∀ (fields : List (PyText × JsonValue φ)),
    ∀ field ∈ sortFields fields, sortKeys field.2 = field.2
  | [], _, hmem => absurd hmem List.not_mem_nil
  | (k, v) :: rest, field, hmem => by
    rcases List.mem_cons.mp hmem with rfl | hrest
    · exact sortKeys_sortKeys v
    · exact sortFields_sorted rest field hrest

end

/-! ## What is read into dictionaries -/

mutual

/-- No object has two fields with one key. -/
def uniqueKeys : JsonValue φ → Prop
  | .arr items => uniqueItems items
  | .obj fields => (fields.map Prod.fst).Nodup ∧ uniqueFields fields
  | _ => True

def uniqueItems : List (JsonValue φ) → Prop
  | [] => True
  | v :: rest => uniqueKeys v ∧ uniqueItems rest

def uniqueFields : List (PyText × JsonValue φ) → Prop
  | [] => True
  | (_, v) :: rest => uniqueKeys v ∧ uniqueFields rest

end

theorem uniqueItems_iff : ∀ {items : List (JsonValue φ)},
    uniqueItems items ↔ ∀ v ∈ items, uniqueKeys v
  | [] => iff_of_true trivial fun _ hmem => absurd hmem List.not_mem_nil
  | v :: rest => by rw [uniqueItems, uniqueItems_iff, List.forall_mem_cons]

theorem uniqueFields_iff : ∀ {fields : List (PyText × JsonValue φ)},
    uniqueFields fields ↔ ∀ field ∈ fields, uniqueKeys field.2
  | [] => iff_of_true trivial fun _ hmem => absurd hmem List.not_mem_nil
  | (k, v) :: rest => by rw [uniqueFields, uniqueFields_iff, List.forall_mem_cons]

mutual

theorem uniqueKeys_sortKeys : ∀ v : JsonValue φ, uniqueKeys v → uniqueKeys (sortKeys v)
  | .null, _ | .bool _, _ | .int _, _ | .float _, _ | .str _, _ | .foreign _, _ => trivial
  | .arr items, h => uniqueItems_sort items h
  | .obj fields, h => by
    have hperm := List.mergeSort_perm (sortFields fields) keyLe
    have hvalues := uniqueFields_iff.mp (uniqueFields_sort fields h.2)
    rw [sortKeys, uniqueKeys, uniqueFields_iff, (hperm.map Prod.fst).nodup_iff, sortFields_keys]
    exact ⟨h.1, fun field hfield => hvalues field (List.mem_mergeSort.mp hfield)⟩

theorem uniqueItems_sort : ∀ items : List (JsonValue φ),
    uniqueItems items → uniqueItems (sortItems items)
  | [], _ => trivial
  | v :: rest, h => ⟨uniqueKeys_sortKeys v h.1, uniqueItems_sort rest h.2⟩

theorem uniqueFields_sort : ∀ fields : List (PyText × JsonValue φ),
    uniqueFields fields → uniqueFields (sortFields fields)
  | [], _ => trivial
  | (_, v) :: rest, h => ⟨uniqueKeys_sortKeys v h.1, uniqueFields_sort rest h.2⟩

end

mutual

/-- Every float is finite, and nothing is of another class. -/
def finite (floats : FloatFormat φ) : JsonValue φ → Bool
  | .float x => floats.isFinite x
  | .arr items => finiteItems floats items
  | .obj fields => finiteFields floats fields
  | .foreign _ => false
  | _ => true

def finiteItems (floats : FloatFormat φ) : List (JsonValue φ) → Bool
  | [] => true
  | v :: rest => finite floats v && finiteItems floats rest

def finiteFields (floats : FloatFormat φ) : List (PyText × JsonValue φ) → Bool
  | [] => true
  | (_, v) :: rest => finite floats v && finiteFields floats rest

end

theorem ofDigitChars_lt : ∀ {digits : List Char}, (∀ c ∈ digits, c.isDigit = true) →
    Nat.ofDigitChars 10 digits 0 < 10 ^ digits.length
  | [], _ => by
    rw [Nat.ofDigitChars_nil, List.length_nil, Nat.pow_zero]
    exact Nat.one_pos
  | c :: rest, h => by
    have hrest := ofDigitChars_lt fun d hd => h d (List.mem_cons_of_mem _ hd)
    have hc := h c List.mem_cons_self
    rw [Char.isDigit, Bool.and_eq_true, decide_eq_true_eq, decide_eq_true_eq] at hc
    have hlow : '0'.toNat ≤ c.toNat := hc.1
    have hhigh : c.toNat ≤ '9'.toNat := hc.2
    have hdigit : c.toNat - '0'.toNat ≤ 9 := by
      simp only [Char.reduceToNat] at hlow hhigh ⊢
      omega
    have hscale : 10 ^ rest.length * (c.toNat - '0'.toNat) ≤ 10 ^ rest.length * 9 :=
      Nat.mul_le_mul_left _ hdigit
    rw [Nat.ofDigitChars_cons, Nat.ofDigitChars_eq_ofDigitChars_zero, Nat.mul_zero, Nat.zero_add,
      List.length_cons, Nat.pow_succ]
    omega

/-- **An integer that was read** has no more digits than its text. -/
theorem ofInt_toInt_length {lit : NumberLiteral} (hdigits : ∀ c ∈ lit.whole, c.isDigit = true)
    (hshort : lit.whole.length ≤ maxIntDigits) :
    (NumberLiteral.ofInt lit.toInt).whole.length ≤ maxIntDigits := by
  have habs : lit.toInt.natAbs = Nat.ofDigitChars 10 lit.whole 0 := by
    rw [NumberLiteral.toInt]
    split <;> omega
  have hpos : 0 < maxIntDigits := by decide
  have hpow : 10 ^ lit.whole.length ≤ 10 ^ maxIntDigits := Nat.pow_le_pow_right (by decide) hshort
  rw [NumberLiteral.ofInt, Nat.length_toDigits_le_iff (by decide) hpos, habs]
  exact Nat.lt_of_lt_of_le (ofDigitChars_lt hdigits) hpow

/-- No constant but those of JSON, and dictionaries for objects. -/
def dictHooks {ε : Type} (reject : String → ε) : ScanHooks ε φ where
  constant name := .error (reject name)
  pairs fields := .ok (.obj (dictOf fields))

/-- What every value is that is read into dictionaries. -/
structure ReadValue (floats : FloatFormat φ) (v : JsonValue φ) : Prop where
  joined : joinAll v = v
  unique : uniqueKeys v
  clean_eq : clean floats v = finite floats v

theorem cleanItems_eq_finite {floats : FloatFormat φ} : ∀ {items : List (JsonValue φ)},
    (∀ v ∈ items, clean floats v = finite floats v) →
      cleanItems floats items = finiteItems floats items
  | [], _ => rfl
  | v :: rest, h => by
    rw [cleanItems, finiteItems, h v List.mem_cons_self,
      cleanItems_eq_finite fun w hw => h w (List.mem_cons_of_mem _ hw)]

theorem cleanFields_eq_finite {floats : FloatFormat φ} :
    ∀ {fields : List (PyText × JsonValue φ)},
      (∀ field ∈ fields, clean floats field.2 = finite floats field.2) →
        cleanFields floats fields = finiteFields floats fields
  | [], _ => rfl
  | (k, v) :: rest, h => by
    rw [cleanFields, finiteFields, h (k, v) List.mem_cons_self,
      cleanFields_eq_finite fun w hw => h w (List.mem_cons_of_mem _ hw)]

/-- **Whatever is read** into dictionaries. -/
theorem dict_invariant {ε : Type} (floats : FloatFormat φ) (reject : String → ε) :
    ScanInvariant floats (dictHooks reject) (dictHooks reject) (ReadValue floats) where
  null := ⟨rfl, trivial, rfl⟩
  bool _ := ⟨rfl, trivial, rfl⟩
  float _ := ⟨rfl, trivial, rfl⟩
  int lit hdigits hshort :=
    ⟨rfl, trivial, decide_eq_true (ofInt_toInt_length hdigits hshort)⟩
  str _ hs := ⟨congrArg JsonValue.str hs, trivial, rfl⟩
  arr items hitems :=
    ⟨congrArg JsonValue.arr (joinItems_eq_self fun v hv => (hitems v hv).joined),
      uniqueItems_iff.mpr fun v hv => (hitems v hv).unique,
      cleanItems_eq_finite fun v hv => (hitems v hv).clean_eq⟩
  constant _ _ hv := nomatch hv
  pairs fields v hfields hv := by
    cases hv
    have hdict : ∀ field ∈ dictOf fields, Joined field.1 ∧ ReadValue floats field.2 :=
      fun field hfield => hfields field (mem_dictOf hfield)
    refine ⟨rfl, congrArg JsonValue.obj (joinFields_eq_self fun field hfield => ?_),
      ⟨dictOf_nodup fields, uniqueFields_iff.mpr fun field hfield => (hdict field hfield).2.unique⟩,
      cleanFields_eq_finite fun field hfield => (hdict field hfield).2.clean_eq⟩
    exact ⟨(hdict field hfield).1, (hdict field hfield).2.joined⟩

/-! ## What is read back into dictionaries -/

section

variable {ε : Type} {hooks : ScanHooks ε φ}

mutual

theorem reread_nesting : ∀ {v w : JsonValue φ} {limit : Nat},
    reread hooks limit v = .ok w → nesting v ≤ limit
  | .null, _, _, _ | .bool _, _, _, _ | .int _, _, _, _ | .float _, _, _, _ | .str _, _, _, _
  | .foreign _, _, _, _ => Nat.zero_le _
  | .arr items, _, 0, h | .obj fields, _, 0, h => nomatch h
  | .arr items, w, limit + 1, h => by
    rw [reread] at h
    cases hitems : rereadItems hooks limit items with
    | error e => rw [hitems] at h; cases h
    | ok items' => exact Nat.succ_le_succ (rereadItems_nesting hitems)
  | .obj fields, w, limit + 1, h => by
    rw [reread] at h
    cases hfields : rereadFields hooks limit fields with
    | error e => rw [hfields] at h; cases h
    | ok fields' => exact Nat.succ_le_succ (rereadFields_nesting hfields)

theorem rereadItems_nesting : ∀ {items items' : List (JsonValue φ)} {limit : Nat},
    rereadItems hooks limit items = .ok items' → nestingItems items ≤ limit
  | [], _, _, _ => Nat.zero_le _
  | v :: rest, items', limit, h => by
    rw [rereadItems] at h
    cases hv : reread hooks limit v with
    | error e => rw [hv] at h; cases h
    | ok v' =>
      rw [hv] at h
      cases hrest : rereadItems hooks limit rest with
      | error e => simp only [hrest] at h; cases h
      | ok rest' => exact Nat.max_le.mpr ⟨reread_nesting hv, rereadItems_nesting hrest⟩

theorem rereadFields_nesting : ∀ {fields fields' : List (PyText × JsonValue φ)} {limit : Nat},
    rereadFields hooks limit fields = .ok fields' → nestingFields fields ≤ limit
  | [], _, _, _ => Nat.zero_le _
  | (k, v) :: rest, fields', limit, h => by
    rw [rereadFields] at h
    cases hv : reread hooks limit v with
    | error e => rw [hv] at h; cases h
    | ok v' =>
      rw [hv] at h
      cases hrest : rereadFields hooks limit rest with
      | error e => simp only [hrest] at h; cases h
      | ok rest' => exact Nat.max_le.mpr ⟨reread_nesting hv, rereadFields_nesting hrest⟩

end

variable {reject : String → ε}

mutual

/-- **A value is read back as it was**, if it has unique keys and no pair of surrogates. -/
theorem reread_dict : ∀ (v : JsonValue φ) (limit : Nat), uniqueKeys v → joinAll v = v →
    nesting v ≤ limit → reread (dictHooks reject) limit v = .ok v
  | .null, _, _, _, _ | .bool _, _, _, _, _ | .int _, _, _, _, _ | .float _, _, _, _, _
  | .foreign _, _, _, _, _ => by rw [reread.eq_def]
  | .str s, _, _, hjoined, _ => by
    rw [reread.eq_def]
    exact congrArg Except.ok hjoined
  | .arr items, 0, _, _, hdeep | .obj fields, 0, _, _, hdeep => absurd hdeep (Nat.not_succ_le_zero _)
  | .arr items, limit + 1, hunique, hjoined, hdeep => by
    rw [reread, rereadItems_dict items limit hunique (JsonValue.arr.inj hjoined)
      (Nat.le_of_succ_le_succ hdeep)]
    rfl
  | .obj fields, limit + 1, hunique, hjoined, hdeep => by
    rw [reread, rereadFields_dict fields limit hunique.2 (JsonValue.obj.inj hjoined)
      (Nat.le_of_succ_le_succ hdeep)]
    show Except.ok (JsonValue.obj (dictOf fields)) = _
    rw [dictOf_eq_self hunique.1]

theorem rereadItems_dict : ∀ (items : List (JsonValue φ)) (limit : Nat), uniqueItems items →
    joinItems items = items → nestingItems items ≤ limit →
      rereadItems (dictHooks reject) limit items = .ok items
  | [], _, _, _, _ => rfl
  | v :: rest, limit, hunique, hjoined, hdeep => by
    obtain ⟨hv, hrest⟩ := List.cons.inj hjoined
    obtain ⟨hdeep_v, hdeep_rest⟩ := Nat.max_le.mp hdeep
    rw [rereadItems, reread_dict v limit hunique.1 hv hdeep_v]
    simp only [rereadItems_dict rest limit hunique.2 hrest hdeep_rest]
    rfl

theorem rereadFields_dict : ∀ (fields : List (PyText × JsonValue φ)) (limit : Nat),
    uniqueFields fields → joinFields fields = fields → nestingFields fields ≤ limit →
      rereadFields (dictHooks reject) limit fields = .ok fields
  | [], _, _, _, _ => rfl
  | (k, v) :: rest, limit, hunique, hjoined, hdeep => by
    obtain ⟨hfield, hrest⟩ := List.cons.inj hjoined
    obtain ⟨hk, hv⟩ := Prod.mk.inj hfield
    obtain ⟨hdeep_v, hdeep_rest⟩ := Nat.max_le.mp hdeep
    rw [rereadFields, reread_dict v limit hunique.1 hv hdeep_v]
    simp only [rereadFields_dict rest limit hunique.2 hrest hdeep_rest, hk]
    rfl

end

end

end NuSelf.Lib
