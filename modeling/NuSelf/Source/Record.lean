/-
  Source documents, and the chunks that a document is stored in.

  The id of a chunk is made of the id of its document and its number, so it says both
  (`chunkIdFor_inj`).
-/
import NuSelf.Lib.Text

namespace NuSelf.Source

open NuSelf.Lib

inductive SourceKind where
  | markdown | text
  deriving DecidableEq

inductive PrivacyLevel where
  | private_ | shareable
  deriving DecidableEq

structure SourceDocument where
  id : String
  title : String
  path : String
  kind : SourceKind
  origin : String := "local"
  privacy : PrivacyLevel := .private_
  tags : List String := []
  source_date : Option String := none
  created_at : String
  updated_at : String
  deriving DecidableEq

structure SourceChunk where
  id : String
  source_id : String
  source_ref : String
  index : Nat
  text : String
  title : String
  path : String
  created_at : String
  deriving DecidableEq

/-- `chunk_id_for`: `f"{source_id}_chunk_{index:04d}"`. -/
def chunkIdFor (source_id : String) (index : Nat) : String :=
  source_id ++ "_chunk_" ++ zeroPadded 4 index

/-- **The id of a chunk says its document and its number**: digits have no underscore. -/
theorem chunkIdFor_inj {s s' : String} {i j : Nat} :
    chunkIdFor s i = chunkIdFor s' j ↔ s = s' ∧ i = j := by
  have hkey : ∀ (source_id : String) (index : Nat),
      chunkIdFor source_id index = joinKey '_' (source_id ++ "_chunk") (zeroPadded 4 index) := by
    intro source_id index
    apply String.toList_inj.mp
    rw [toList_joinKey, chunkIdFor]
    simp [String.toList_append]
  have hdigits : ∀ n, '_' ∉ (zeroPadded 4 n).toList := not_mem_zeroPadded (by decide) 4
  rw [hkey, hkey, joinKey_inj_right (hdigits i) (hdigits j), zeroPadded_inj, String.append_left_inj]

end NuSelf.Source
