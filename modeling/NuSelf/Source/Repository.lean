/-
  The source library: documents, and the chunks that searches read.

  A replacement writes the document, deletes the chunks that are stored for it and stores the new
  ones, each by a call of its own; a deletion deletes the document and then its chunks.  Nothing
  holds the calls together, so a call that fails leaves what has been done by then.

  1. `calls_run` — a row of calls writes as many as the storage lets through;
  2. `replaced_after`, `deleted_after` — the document and its chunks after so many calls;
  3. `others_kept` — other sources;
  4. `swap_iff` — removing some elements and then adding others, one at a time;
  5. `library_atomic_iff` — when every failure leaves the old state or the new one;
  6. `mixture_left` — a document with the chunks of its predecessor.
-/
import NuSelf.Lib.Interruptible
import NuSelf.Lib.Shelf
import NuSelf.Source.Chunks

namespace NuSelf.Source

open NuSelf.Lib

/-- The chunk has the id of its document and number. -/
def chunkNamed (c : SourceChunk) : Bool := c.id = chunkIdFor c.source_id c.index

/-- `source_documents` and `source_chunks`. -/
structure Library where
  documents : Shelf SourceDocument.id fun _ => true
  chunks : Shelf SourceChunk.id chunkNamed

/-- A document with its chunks. -/
structure SourceImport where
  document : SourceDocument
  chunks : List SourceChunk
  owned : ∀ c ∈ chunks, c.source_id = document.id ∧ chunkNamed c = true
  distinct : (chunks.map SourceChunk.id).Nodup

/-- What `load` makes of a body. -/
def SourceImport.ofBody (document : SourceDocument) (body : String) (now : Nat → String) :
    SourceImport where
  document := document
  chunks := Source.chunks document body now
  owned := by
    intro c hc
    obtain ⟨hid, hsource⟩ := mem_chunks document body now hc
    exact ⟨hsource, decide_eq_true (by rw [hid, hsource])⟩
  distinct := nodup_ids_chunks document body now

/-- The new chunks as the storage takes them. -/
def SourceImport.batch (source : SourceImport) : List {c : SourceChunk // chunkNamed c = true} :=
  source.chunks.attach.map fun c => ⟨c.1, (source.owned c.1 c.2).2⟩

inductive SourceError where
  | notFound (source_id : String)
  /-- A call of the storage fails. -/
  | storage

/-- One call of the storage that writes. -/
inductive SourceWrite where
  | putDocument (document : SourceDocument)
  | deleteDocument (source_id : String)
  | putChunk (c : {c : SourceChunk // chunkNamed c = true})
  | deleteChunk (chunk_id : String)

def Library.write (library : Library) : SourceWrite → Library
  | .putDocument document => { library with documents := library.documents.put document rfl }
  | .deleteDocument source_id => { library with documents := library.documents.remove source_id }
  | .putChunk c => { library with chunks := library.chunks.put c.1 c.2 }
  | .deleteChunk chunk_id => { library with chunks := library.chunks.remove chunk_id }

def Library.writeAll (library : Library) (writes : List SourceWrite) : Library :=
  writes.foldl Library.write library

/-- The library, and how many calls go through before one fails. -/
structure Storage where
  library : Library
  left : Nat

/-- A call that goes through, or raises. -/
def call (write : SourceWrite) : Interruptible Storage SourceError Unit := fun s =>
  match s.left with
  | 0 => (.raised .storage, s)
  | left + 1 => (.returned (), ⟨s.library.write write, left⟩)

def calls : List SourceWrite → Interruptible Storage SourceError Unit
  | [] => pure ()
  | write :: rest => do
    call write
    calls rest

/-- The stored chunks of a source. -/
def Library.chunksOf (library : Library) (source_id : String) : List SourceChunk :=
  library.chunks.records.filter fun c => c.source_id = source_id

def deleteChunks (source_id : String) : Interruptible Storage SourceError Unit := do
  let s ← Interruptible.get
  calls ((s.library.chunksOf source_id).map fun c => .deleteChunk c.id)

def replace (source : SourceImport) : Interruptible Storage SourceError Unit := do
  call (.putDocument source.document)
  deleteChunks source.document.id
  calls (source.batch.map .putChunk)

def getDocument (source_id : String) : Interruptible Storage SourceError SourceDocument := do
  let s ← Interruptible.get
  match s.library.documents.get source_id with
  | none => Interruptible.raise (.notFound source_id)
  | some document => pure document

def deleteDocument (source_id : String) : Interruptible Storage SourceError Unit := do
  let document ← getDocument source_id
  call (.deleteDocument document.id)
  deleteChunks source_id

/-! ## A row of calls -/

/-- **As many as the storage lets through.** -/
theorem calls_run : ∀ (writes : List SourceWrite) (library : Library) (left : Nat),
    calls writes ⟨library, left⟩ =
      (if writes.length ≤ left then .returned () else .raised .storage,
        ⟨library.writeAll (writes.take left), left - writes.length⟩)
  | [], library, left => by
    rw [calls, List.take_nil, List.length_nil, if_pos (Nat.zero_le left)]
    rfl
  | write :: rest, library, 0 => by
    have hfirst : call write ⟨library, 0⟩ = (.raised .storage, ⟨library, 0⟩) := rfl
    rw [calls, Interruptible.raised_bind hfirst, List.length_cons, if_neg (by omega),
      List.take_zero, Nat.zero_sub]
    rfl
  | write :: rest, library, left + 1 => by
    have hfirst : call write ⟨library, left + 1⟩ =
      (.returned (), ⟨library.write write, left⟩) := rfl
    rw [calls, Interruptible.returned_bind hfirst, calls_run rest, List.length_cons,
      Nat.add_sub_add_right, List.take_succ_cons]
    simp only [Nat.add_le_add_iff_right]
    rfl

/-- The calls of a replacement, and those of a deletion. -/
def replaceWrites (library : Library) (source : SourceImport) : List SourceWrite :=
  .putDocument source.document ::
    ((library.chunksOf source.document.id).map (fun c => .deleteChunk c.id) ++
      source.batch.map .putChunk)

def deleteWrites (library : Library) (source_id : String) : List SourceWrite :=
  .deleteDocument source_id ::
    (library.chunksOf source_id).map fun c => .deleteChunk c.id

theorem calls_append : ∀ (writes rest : List SourceWrite),
    calls (writes ++ rest) = do
      calls writes
      calls rest
  | [], _ => rfl
  | write :: writes, rest => by
    rw [List.cons_append, calls, calls_append writes rest]
    exact (bind_assoc (call write) (fun _ => calls writes) fun _ => calls rest).symm

/-- **A replacement is a row of calls**: storing the document changes no chunk. -/
theorem replace_eq (source : SourceImport) (library : Library) (left : Nat) :
    replace source ⟨library, left⟩ =
      calls (replaceWrites library source) ⟨library, left⟩ := by
  unfold replace replaceWrites
  rw [calls, calls_append]
  cases left with
  | zero => rfl
  | succ left => rfl

theorem deleteDocument_eq {library : Library} {source_id : String} {document : SourceDocument}
    (hget : library.documents.get source_id = some document) (left : Nat) :
    deleteDocument source_id ⟨library, left⟩ =
      calls (deleteWrites library source_id) ⟨library, left⟩ := by
  have hid : document.id = source_id := library.documents.key_of_get hget
  have hfound : getDocument source_id ⟨library, left⟩ =
      (.returned document, ⟨library, left⟩) := by
    unfold getDocument
    rw [Interruptible.returned_bind (Interruptible.get_run _)]
    dsimp only
    rw [hget]
    rfl
  unfold deleteDocument deleteWrites
  rw [Interruptible.returned_bind hfound, hid, calls]
  cases left with
  | zero => rfl
  | succ left => rfl

theorem deleteDocument_missing {library : Library} {source_id : String}
    (hget : library.documents.get source_id = none) (left : Nat) :
    deleteDocument source_id ⟨library, left⟩ =
      (.raised (.notFound source_id), ⟨library, left⟩) := by
  have hfound : getDocument source_id ⟨library, left⟩ =
      (.raised (.notFound source_id), ⟨library, left⟩) := by
    unfold getDocument
    rw [Interruptible.returned_bind (Interruptible.get_run _)]
    dsimp only
    rw [hget]
    rfl
  exact Interruptible.raised_bind hfound

/-! ## The chunks of a source -/

variable {library : Library} {source_id : String}

/-- The chunk is stored. -/
def Library.Stores (library : Library) (c : SourceChunk) : Prop := library.chunks.get c.id = some c

theorem mem_chunksOf {c : SourceChunk} :
    c ∈ library.chunksOf source_id ↔ library.Stores c ∧ c.source_id = source_id := by
  rw [Library.chunksOf, List.mem_filter, decide_eq_true_eq]
  exact and_congr_left' library.chunks.mem_records_iff

theorem nodup_chunksOf : (library.chunksOf source_id).Nodup :=
  (List.Nodup.of_map _ library.chunks.nodup_keys).filter _

theorem Library.Stores.ext {c d : SourceChunk} (hc : library.Stores c) (hd : library.Stores d)
    (hid : c.id = d.id) : c = d := by
  unfold Library.Stores at hc hd
  rw [hid, hd] at hc
  exact (Option.some.inj hc).symm

theorem writeAll_deleteChunks : ∀ (cs : List SourceChunk) (library : Library),
    let after := library.writeAll (cs.map fun c => .deleteChunk c.id)
    after.documents = library.documents ∧ ∀ k, after.chunks.get k =
      if k ∈ cs.map SourceChunk.id then none else library.chunks.get k
  | [], library => ⟨rfl, fun k => (if_neg List.not_mem_nil).symm⟩
  | c :: rest, library => by
    obtain ⟨hdocuments, hchunks⟩ := writeAll_deleteChunks rest (library.write (.deleteChunk c.id))
    refine ⟨hdocuments, fun k => (hchunks k).trans ?_⟩
    show (if _ then none else (library.chunks.remove c.id).get k) = _
    rw [Shelf.get_remove, List.map_cons]
    by_cases hrest : k ∈ rest.map SourceChunk.id
    · rw [if_pos hrest, if_pos (List.mem_cons_of_mem _ hrest)]
    · rw [if_neg hrest]
      by_cases hfirst : k = c.id
      · rw [if_pos hfirst, if_pos (hfirst ▸ List.mem_cons_self)]
      · rw [if_neg hfirst, if_neg (List.not_mem_cons_of_ne_of_not_mem hfirst hrest)]

def Library.putBatch (library : Library) (batch : List {c : SourceChunk // chunkNamed c = true}) :
    Library :=
  { library with chunks := library.chunks.putAll batch }

theorem writeAll_putChunks : ∀ (batch : List {c : SourceChunk // chunkNamed c = true})
    (library : Library), library.writeAll (batch.map .putChunk) = library.putBatch batch
  | [], _ => rfl
  | c :: rest, library => writeAll_putChunks rest (library.write (.putChunk c))

/-- The first `k` of the deletions. -/
def Library.deleteFirst (library : Library) (source_id : String) (k : Nat) : Library :=
  library.writeAll (((library.chunksOf source_id).take k).map fun c => .deleteChunk c.id)

theorem stores_deleteFirst (k : Nat) {c : SourceChunk} :
    (library.deleteFirst source_id k).Stores c ↔
      library.Stores c ∧ c ∉ (library.chunksOf source_id).take k := by
  have hget : (library.deleteFirst source_id k).chunks.get c.id = _ :=
    (writeAll_deleteChunks ((library.chunksOf source_id).take k) library).2 c.id
  rw [Library.Stores, hget]
  constructor
  · intro hstored
    split at hstored
    · cases hstored
    · rename_i hnot
      exact ⟨hstored, fun hmem => hnot (List.mem_map_of_mem hmem)⟩
  · rintro ⟨hstored, hnot⟩
    rw [if_neg]
    · exact hstored
    intro hmem
    obtain ⟨d, hd, hid⟩ := List.mem_map.mp hmem
    have hother := (mem_chunksOf.mp (List.mem_of_mem_take hd)).1
    exact hnot (Library.Stores.ext hother hstored hid ▸ hd)

theorem mem_chunksOf_deleteFirst (k : Nat) {c : SourceChunk} :
    c ∈ (library.deleteFirst source_id k).chunksOf source_id ↔
      c ∈ (library.chunksOf source_id).drop k := by
  have hnodup : ((library.chunksOf source_id).take k ++ (library.chunksOf source_id).drop k).Nodup
    := by rw [List.take_append_drop]; exact nodup_chunksOf
  have hmem : c ∈ library.chunksOf source_id ↔
      c ∈ (library.chunksOf source_id).take k ∨ c ∈ (library.chunksOf source_id).drop k := by
    rw [← List.mem_append, List.take_append_drop]
  rw [mem_chunksOf, stores_deleteFirst, and_right_comm, ← mem_chunksOf, hmem]
  constructor
  · rintro ⟨htake | hdrop, hnot⟩
    · exact absurd htake hnot
    · exact hdrop
  · intro hdrop
    exact ⟨.inr hdrop, fun htake => (List.nodup_append.mp hnodup).2.2 c htake c hdrop rfl⟩

theorem stores_putAll {batch : List {c : SourceChunk // chunkNamed c = true}}
    (hdistinct : (Shelf.batchKeys SourceChunk.id batch).Nodup) {c : SourceChunk} :
    (library.putBatch batch).Stores c ↔
      c ∈ batch.map Subtype.val ∨
        (library.Stores c ∧ c.id ∉ Shelf.batchKeys SourceChunk.id batch) := by
  unfold Library.Stores
  constructor
  · intro hstored
    by_cases hkey : c.id ∈ Shelf.batchKeys SourceChunk.id batch
    · obtain ⟨d, hd, hid⟩ := List.mem_map.mp hkey
      have hput := Shelf.putAll_get batch library.chunks hdistinct d hd
      rw [hid] at hput
      exact .inl (List.mem_map.mpr ⟨d, hd, Option.some.inj (hput.symm.trans hstored)⟩)
    · have hkept := Shelf.putAll_get_of_not_mem batch library.chunks hkey
      exact .inr ⟨hkept.symm.trans hstored, hkey⟩
  · rintro (hmem | ⟨hstored, hkey⟩)
    · obtain ⟨d, hd, rfl⟩ := List.mem_map.mp hmem
      exact Shelf.putAll_get batch library.chunks hdistinct d hd
    · exact (Shelf.putAll_get_of_not_mem batch library.chunks hkey).trans hstored

theorem map_val_batch (source : SourceImport) : source.batch.map Subtype.val = source.chunks := by
  rw [SourceImport.batch, List.map_map]
  exact List.attach_map_subtype_val source.chunks

theorem writeAll_replace (source : SourceImport) (k : Nat) :
    library.writeAll ((replaceWrites library source).take (k + 1)) =
      ((library.write (.putDocument source.document)).deleteFirst source.document.id k).putBatch
        (source.batch.take (k - (library.chunksOf source.document.id).length)) := by
  rw [replaceWrites, List.take_succ_cons, List.take_append, List.length_map, ← List.map_take,
    ← List.map_take, ← writeAll_putChunks]
  exact List.foldl_append

/-- **After so many calls of a replacement**: the new document, the old chunks that are still to be
    deleted, and the new ones stored so far. -/
theorem replaced_after (source : SourceImport) (k : Nat) :
    let after := library.writeAll ((replaceWrites library source).take (k + 1))
    after.documents.get source.document.id = some source.document ∧
      ∀ c, c ∈ after.chunksOf source.document.id ↔
        c ∈ (library.chunksOf source.document.id).drop k ++
          source.chunks.take (k - (library.chunksOf source.document.id).length) := by
  dsimp only
  rw [writeAll_replace]
  generalize hj : k - (library.chunksOf source.document.id).length = j
  have hdocuments : ((library.write (.putDocument source.document)).deleteFirst source.document.id
      k).documents = library.documents.put source.document rfl :=
    (writeAll_deleteChunks _ _).1
  have hbatch : (source.batch.take j).map Subtype.val = source.chunks.take j := by
    rw [List.map_take, map_val_batch]
  have hkeys : Shelf.batchKeys SourceChunk.id (source.batch.take j) =
      (source.chunks.take j).map SourceChunk.id := by
    rw [← hbatch, List.map_map]
    rfl
  have hdistinct : (Shelf.batchKeys SourceChunk.id (source.batch.take j)).Nodup := by
    rw [hkeys, List.map_take]
    exact source.distinct.sublist (List.take_sublist _ _)
  constructor
  · show Shelf.get (Library.documents _) _ = _
    rw [Library.putBatch, hdocuments, Shelf.get_put, if_pos rfl]
  intro c
  rw [mem_chunksOf, stores_putAll hdistinct, hbatch, List.mem_append]
  have hleft : c ∈ (library.chunksOf source.document.id).drop k ↔
      ((library.write (.putDocument source.document)).deleteFirst source.document.id k).Stores c ∧
        c.source_id = source.document.id := by
    rw [← mem_chunksOf, mem_chunksOf_deleteFirst]
    rfl
  rw [hleft]
  constructor
  · rintro ⟨hnew | ⟨hold, -⟩, hsource⟩
    · exact .inr hnew
    · exact .inl ⟨hold, hsource⟩
  · rintro (hold | hnew)
    · -- while an old chunk is left, no new one has been stored
      have hsome := List.length_pos_of_mem (hleft.mpr hold)
      rw [List.length_drop] at hsome
      obtain rfl : j = 0 := by omega
      exact ⟨.inr ⟨hold.1, List.not_mem_nil⟩, hold.2⟩
    · exact ⟨.inl hnew, (source.owned c (List.mem_of_mem_take hnew)).1⟩

/-- **After so many calls of a deletion**: no document, and the chunks that are still to go. -/
theorem deleted_after (k : Nat) :
    let after := library.writeAll ((deleteWrites library source_id).take (k + 1))
    after.documents.get source_id = none ∧
      ∀ c, c ∈ after.chunksOf source_id ↔ c ∈ (library.chunksOf source_id).drop k := by
  have hafter : library.writeAll ((deleteWrites library source_id).take (k + 1)) =
      (library.write (.deleteDocument source_id)).deleteFirst source_id k := by
    rw [deleteWrites, List.take_succ_cons, ← List.map_take]
    rfl
  dsimp only
  rw [hafter]
  constructor
  · have hdocuments := (writeAll_deleteChunks (((library.write
      (.deleteDocument source_id)).chunksOf source_id).take k) (library.write
      (.deleteDocument source_id))).1
    rw [Library.deleteFirst, hdocuments]
    exact (library.documents.get_remove source_id source_id).trans (if_pos rfl)
  · intro c
    rw [mem_chunksOf_deleteFirst]
    rfl

/-! ## Other sources -/

/-- The documents and chunks of other sources are the same. -/
def OthersKept (source_id : String) (library after : Library) : Prop :=
  (∀ other, other ≠ source_id → after.documents.get other = library.documents.get other) ∧
    ∀ c : SourceChunk, c.source_id ≠ source_id → (after.Stores c ↔ library.Stores c)

/-- The call is for the source. -/
def SourceWrite.For (source_id : String) : SourceWrite → Prop
  | .putDocument document => document.id = source_id
  | .deleteDocument id => id = source_id
  | .putChunk c => c.1.source_id = source_id
  | .deleteChunk chunk_id => ∃ index, chunk_id = chunkIdFor source_id index

theorem Library.Stores.named {c : SourceChunk} (h : library.Stores c) :
    c.id = chunkIdFor c.source_id c.index :=
  of_decide_eq_true (library.chunks.valid_of_get h)

/-- **One call** for a source leaves the others alone: their chunks have other ids. -/
theorem othersKept_write {write : SourceWrite} (h : write.For source_id) :
    OthersKept source_id library (library.write write) := by
  cases write with
  | putDocument document =>
    refine ⟨fun other hne => ?_, fun c _ => Iff.rfl⟩
    exact (library.documents.get_put document rfl other).trans
      (if_neg fun he => hne (he.trans h))
  | deleteDocument id =>
    refine ⟨fun other hne => ?_, fun c _ => Iff.rfl⟩
    exact (library.documents.get_remove id other).trans (if_neg fun he => hne (he.trans h))
  | putChunk new =>
    refine ⟨fun other _ => rfl, fun c hc => ?_⟩
    have hget := library.chunks.get_put new.1 new.2 c.id
    have hnew : new.1.id = chunkIdFor new.1.source_id new.1.index := of_decide_eq_true new.2
    constructor
    · intro hafter
      have hstored := hget.symm.trans hafter
      split at hstored
      · obtain rfl := Option.some.inj hstored
        exact absurd h hc
      · exact hstored
    · intro hbefore
      refine hget.trans ((if_neg fun hid => hc ?_).trans hbefore)
      rw [hbefore.named, hnew] at hid
      exact (chunkIdFor_inj.mp hid).1.trans h
  | deleteChunk chunk_id =>
    obtain ⟨index, rfl⟩ := h
    refine ⟨fun other _ => rfl, fun c hc => ?_⟩
    have hget := library.chunks.get_remove (chunkIdFor source_id index) c.id
    constructor
    · intro hafter
      have hstored := hget.symm.trans hafter
      split at hstored
      · cases hstored
      · exact hstored
    · intro hbefore
      refine hget.trans ((if_neg fun hid => hc ?_).trans hbefore)
      rw [hbefore.named] at hid
      exact (chunkIdFor_inj.mp hid).1

theorem othersKept_writeAll : ∀ (writes : List SourceWrite) (library : Library),
    (∀ write ∈ writes, write.For source_id) →
    OthersKept source_id library (library.writeAll writes)
  | [], _, _ => ⟨fun _ _ => rfl, fun _ _ => Iff.rfl⟩
  | write :: rest, library, h => by
    obtain ⟨hfirst, hrest⟩ := List.forall_mem_cons.mp h
    obtain ⟨hdocument, hchunk⟩ := @othersKept_write library source_id write hfirst
    obtain ⟨hdocuments, hchunks⟩ := othersKept_writeAll rest (library.write write) hrest
    exact ⟨fun other hne => (hdocuments other hne).trans (hdocument other hne),
      fun c hc => (hchunks c hc).trans (hchunk c hc)⟩

theorem for_deleteChunks {write : SourceWrite}
    (h : write ∈ (library.chunksOf source_id).map fun c => SourceWrite.deleteChunk c.id) :
    write.For source_id := by
  obtain ⟨c, hc, rfl⟩ := List.mem_map.mp h
  obtain ⟨hstored, rfl⟩ := mem_chunksOf.mp hc
  exact ⟨c.index, hstored.named⟩

theorem for_replaceWrites {source : SourceImport} :
    ∀ write ∈ replaceWrites library source, write.For source.document.id := by
  refine List.forall_mem_cons.mpr ⟨rfl, List.forall_mem_append.mpr ⟨?_, ?_⟩⟩
  · exact fun write hwrite => for_deleteChunks hwrite
  · intro write hwrite
    obtain ⟨c, hc, rfl⟩ := List.mem_map.mp hwrite
    obtain ⟨d, -, rfl⟩ := List.mem_map.mp hc
    exact (source.owned d.1 d.2).1

theorem for_deleteWrites : ∀ write ∈ deleteWrites library source_id, write.For source_id :=
  List.forall_mem_cons.mpr ⟨rfl, fun _ hwrite => for_deleteChunks hwrite⟩

/-! ## All or nothing -/

/-- The document and its chunks are as they were. -/
def Kept (source_id : String) (library after : Library) : Prop :=
  after.documents.get source_id = library.documents.get source_id ∧
    ∀ c, c ∈ after.chunksOf source_id ↔ c ∈ library.chunksOf source_id

/-- The new document is there, with exactly the new chunks. -/
def Replaced (source : SourceImport) (after : Library) : Prop :=
  after.documents.get source.document.id = some source.document ∧
    ∀ c, c ∈ after.chunksOf source.document.id ↔ c ∈ source.chunks

/-- The document and all its chunks are gone. -/
def Removed (source_id : String) (after : Library) : Prop :=
  after.documents.get source_id = none ∧ ∀ c, c ∉ after.chunksOf source_id

/-- The elements on the way from all of one list to all of another, after `k` steps: first the
    old ones go, then the new ones come. -/
def swapped {α : Type} (A B : List α) (k : Nat) : List α := A.drop k ++ B.take (k - A.length)

/-- A swap that is never caught halfway has one step at most. -/
theorem short_of_swap {α : Type} {A B : List α} (hA : A.Nodup) (hB : B.Nodup) {allowed : Prop}
    (h : ∀ k, (allowed ∧ ∀ c, c ∈ swapped A B k ↔ c ∈ A) ∨ ∀ c, c ∈ swapped A B k ↔ c ∈ B) :
    A.length + B.length = 0 ∨ (A.length + B.length = 1 ∧ allowed) := by
  cases A with
  | nil =>
    cases B with
    | nil => exact .inl rfl
    | cons b B =>
      refine .inr ?_
      have hstart : allowed := by
        rcases h 0 with hold | hnew
        · exact hold.1
        · exact absurd ((hnew b).mpr List.mem_cons_self) List.not_mem_nil
      cases B with
      | nil => exact ⟨rfl, hstart⟩
      | cons b' B =>
        -- after the first new element there is more than nothing, and less than all
        have hb : b ∈ swapped [] (b :: b' :: B) 1 := List.mem_cons_self
        rcases h 1 with hold | hnew
        · exact absurd ((hold.2 b).mp hb) List.not_mem_nil
        · have hone := (hnew b').mpr (List.mem_cons_of_mem _ List.mem_cons_self)
          obtain rfl : b' = b := List.mem_singleton.mp hone
          exact absurd List.mem_cons_self (List.nodup_cons.mp hB).1
  | cons a A =>
    -- when all the old elements are gone, nothing is there
    have hnone : swapped (a :: A) B (a :: A).length = [] := by
      rw [swapped, List.drop_length, Nat.sub_self]
      rfl
    have hend : B = [] := by
      rcases h (a :: A).length with hold | hnew
      · rw [hnone] at hold
        exact absurd ((hold.2 a).mpr List.mem_cons_self) List.not_mem_nil
      · rw [hnone] at hnew
        exact List.eq_nil_iff_forall_not_mem.mpr fun b hb =>
          absurd ((hnew b).mpr hb) List.not_mem_nil
    subst hend
    have ha : a ∈ swapped (a :: A) [] 0 := List.mem_append_left _ List.mem_cons_self
    have hstart : allowed := by
      rcases h 0 with hold | hnew
      · exact hold.1
      · exact absurd ((hnew a).mp ha) List.not_mem_nil
    cases A with
    | nil => exact .inr ⟨rfl, hstart⟩
    | cons a' A =>
      have hrest : swapped (a :: a' :: A) [] 1 = a' :: A := by
        rw [swapped, List.take_nil, List.append_nil]
        rfl
      have hfirst := h 1
      rw [hrest] at hfirst
      rcases hfirst with hold | hnew
      · have hmem := (hold.2 a).mpr List.mem_cons_self
        exact absurd hmem (List.nodup_cons.mp hA).1
      · exact absurd ((hnew a').mp List.mem_cons_self) List.not_mem_nil

theorem swap_of_short {α : Type} {A B : List α} {allowed : Prop}
    (h : A.length + B.length = 0 ∨ (A.length + B.length = 1 ∧ allowed)) (k : Nat) :
    (allowed ∧ ∀ c, c ∈ swapped A B k ↔ c ∈ A) ∨ ∀ c, c ∈ swapped A B k ↔ c ∈ B := by
  rcases h with hnothing | ⟨hone, hstart⟩
  · obtain rfl := List.eq_nil_of_length_eq_zero (by omega : A.length = 0)
    obtain rfl := List.eq_nil_of_length_eq_zero (by omega : B.length = 0)
    refine .inr fun c => ?_
    rw [swapped, List.drop_nil, List.take_nil]
    rfl
  · cases k with
    | zero =>
      refine .inl ⟨hstart, fun c => ?_⟩
      rw [swapped, Nat.zero_sub, List.take_zero, List.append_nil, List.drop_zero]
    | succ k =>
      refine .inr fun c => ?_
      have hgone : A.drop (k + 1) = [] := List.drop_eq_nil_of_le (by omega)
      by_cases hlength : A.length = 0
      · rw [swapped, hgone, List.nil_append, List.take_of_length_le (by omega)]
      · obtain rfl := List.eq_nil_of_length_eq_zero (by omega : B.length = 0)
        rw [swapped, hgone, List.take_nil]
        rfl

/-- **On the way** nothing but all of the old elements, where this is allowed, or all of the new
    ones is ever seen exactly when there is nothing to do, or one thing. -/
theorem swap_iff {α : Type} {A B : List α} (hA : A.Nodup) (hB : B.Nodup) (allowed : Prop) :
    (∀ k, (allowed ∧ ∀ c, c ∈ swapped A B k ↔ c ∈ A) ∨ ∀ c, c ∈ swapped A B k ↔ c ∈ B) ↔
      A.length + B.length = 0 ∨ (A.length + B.length = 1 ∧ allowed) :=
  ⟨short_of_swap hA hB, swap_of_short⟩

theorem replace_library (source : SourceImport) (library : Library) (left : Nat) :
    (replace source ⟨library, left⟩).2.library =
      library.writeAll ((replaceWrites library source).take left) := by
  rw [replace_eq, calls_run]

theorem replace_atomic_iff (source : SourceImport) :
    (∀ left, Kept source.document.id library (replace source ⟨library, left⟩).2.library ∨
        Replaced source (replace source ⟨library, left⟩).2.library) ↔
      (library.chunksOf source.document.id).length + source.chunks.length = 0 ∨
        ((library.chunksOf source.document.id).length + source.chunks.length = 1 ∧
          library.documents.get source.document.id = some source.document) := by
  have hnew : source.chunks.Nodup := List.Nodup.of_map _ source.distinct
  rw [← swap_iff nodup_chunksOf hnew]
  have hafter : ∀ k, (Kept source.document.id library
      (replace source ⟨library, k + 1⟩).2.library ↔
        library.documents.get source.document.id = some source.document ∧
          ∀ c, c ∈ swapped (library.chunksOf source.document.id) source.chunks k ↔
            c ∈ library.chunksOf source.document.id) ∧
      (Replaced source (replace source ⟨library, k + 1⟩).2.library ↔
        ∀ c, c ∈ swapped (library.chunksOf source.document.id) source.chunks k ↔
          c ∈ source.chunks) := by
    intro k
    obtain ⟨hdocument, hchunks⟩ := @replaced_after library source k
    rw [replace_library, Kept, Replaced, hdocument]
    refine ⟨and_congr eq_comm (forall_congr' fun c => iff_congr (hchunks c) Iff.rfl), ?_⟩
    rw [and_iff_right rfl]
    exact forall_congr' fun c => iff_congr (hchunks c) Iff.rfl
  constructor
  · intro h k
    exact (h (k + 1)).imp (hafter k).1.mp (hafter k).2.mp
  · intro h left
    cases left with
    | zero =>
      rw [replace_library]
      exact .inl ⟨rfl, fun c => Iff.rfl⟩
    | succ k => exact (h k).imp (hafter k).1.mpr (hafter k).2.mpr

theorem delete_atomic_iff :
    (∀ left, Kept source_id library (deleteDocument source_id ⟨library, left⟩).2.library ∨
        Removed source_id (deleteDocument source_id ⟨library, left⟩).2.library) ↔
      library.documents.get source_id = none ∨ library.chunksOf source_id = [] := by
  cases hget : library.documents.get source_id with
  | none =>
    refine iff_of_true (fun left => .inl ?_) (.inl rfl)
    rw [deleteDocument_missing hget]
    exact ⟨rfl, fun c => Iff.rfl⟩
  | some document =>
    have hafter : ∀ left, (deleteDocument source_id ⟨library, left⟩).2.library =
        library.writeAll ((deleteWrites library source_id).take left) := by
      intro left
      rw [deleteDocument_eq hget, calls_run]
    constructor
    · -- after the first call the document is gone, and the chunks are all there
      intro h
      obtain ⟨hdocument, hchunks⟩ := @deleted_after library source_id 0
      have hfirst := h 1
      rw [hafter] at hfirst
      rcases hfirst with hkept | hremoved
      · have hthere := hkept.1.trans hget
        rw [hdocument] at hthere
        cases hthere
      · exact .inr (List.eq_nil_iff_forall_not_mem.mpr fun c hc =>
          hremoved.2 c ((hchunks c).mpr hc))
    · rintro (hmissing | hnone) left
      · cases hmissing
      · rw [hafter]
        cases left with
        | zero => exact .inl ⟨rfl, fun c => Iff.rfl⟩
        | succ k =>
          obtain ⟨hdocument, hchunks⟩ := @deleted_after library source_id k
          refine .inr ⟨hdocument, fun c hc => ?_⟩
          have hmem := (hchunks c).mp hc
          rw [hnone, List.drop_nil] at hmem
          exact List.not_mem_nil hmem

theorem othersKept_replace (source : SourceImport) (left : Nat) :
    OthersKept source.document.id library (replace source ⟨library, left⟩).2.library := by
  rw [replace_library]
  exact othersKept_writeAll _ _ fun write hwrite =>
    for_replaceWrites write (List.mem_of_mem_take hwrite)

theorem othersKept_delete (left : Nat) :
    OthersKept source_id library (deleteDocument source_id ⟨library, left⟩).2.library := by
  cases hget : library.documents.get source_id with
  | none =>
    rw [deleteDocument_missing hget]
    exact ⟨fun _ _ => rfl, fun _ _ => Iff.rfl⟩
  | some document =>
    rw [deleteDocument_eq hget, calls_run]
    exact othersKept_writeAll _ _ fun write hwrite =>
      for_deleteWrites write (List.mem_of_mem_take hwrite)

/-- **When every failure leaves the old state or the new one**: a replacement must have at most one
    chunk to write, and then the document unchanged; a deletion must find no chunks, or no
    document.  Other sources are never touched. -/
theorem library_atomic_iff (library : Library) :
    (∀ source : SourceImport,
      ((∀ left, Kept source.document.id library (replace source ⟨library, left⟩).2.library ∨
          Replaced source (replace source ⟨library, left⟩).2.library) ↔
        (library.chunksOf source.document.id).length + source.chunks.length = 0 ∨
          ((library.chunksOf source.document.id).length + source.chunks.length = 1 ∧
            library.documents.get source.document.id = some source.document)) ∧
      ∀ left, OthersKept source.document.id library
        (replace source ⟨library, left⟩).2.library) ∧
    ∀ source_id : String,
      ((∀ left, Kept source_id library (deleteDocument source_id ⟨library, left⟩).2.library ∨
          Removed source_id (deleteDocument source_id ⟨library, left⟩).2.library) ↔
        library.documents.get source_id = none ∨ library.chunksOf source_id = []) ∧
      ∀ left, OthersKept source_id library
        (deleteDocument source_id ⟨library, left⟩).2.library := by
  exact ⟨fun source => ⟨replace_atomic_iff source, othersKept_replace source⟩,
    fun source_id => ⟨delete_atomic_iff, othersKept_delete⟩⟩

/-! ## A note that is imported again -/

def noteDocument (title updated_at : String) : SourceDocument where
  id := "src_1"
  title := title
  path := "/notes/1.md"
  kind := .markdown
  created_at := "09:00"
  updated_at := updated_at

def oldNote : SourceImport := .ofBody (noteDocument "Draft" "09:00") "Maybe." fun _ => "09:00"

def newNote : SourceImport := .ofBody (noteDocument "Final" "10:00") "Certainly." fun _ => "10:00"

/-- The library after the first import. -/
def noteLibrary : Library := (replace oldNote ⟨⟨Shelf.empty, Shelf.empty⟩, 2⟩).2.library

/-- **A mixture**: the second call of the second import fails, and the new document is there with
    the chunk of the old one. -/
theorem mixture_left :
    (replace newNote ⟨noteLibrary, 1⟩).2.library.documents.get "src_1" = some newNote.document ∧
    (replace newNote ⟨noteLibrary, 1⟩).2.library.chunksOf "src_1" = oldNote.chunks ∧
    ¬ Kept "src_1" noteLibrary (replace newNote ⟨noteLibrary, 1⟩).2.library ∧
    ¬ Replaced newNote (replace newNote ⟨noteLibrary, 1⟩).2.library := by
  have hdocument : (replace newNote ⟨noteLibrary, 1⟩).2.library.documents.get "src_1" =
      some newNote.document := by decide +kernel
  have hchunks : (replace newNote ⟨noteLibrary, 1⟩).2.library.chunksOf "src_1" = oldNote.chunks :=
    by decide +kernel
  refine ⟨hdocument, hchunks, fun hkept => ?_, fun hreplaced => ?_⟩
  · exact absurd (hdocument.symm.trans hkept.1) (by decide +kernel)
  · have hall : ∀ c, c ∈ oldNote.chunks ↔ c ∈ newNote.chunks := hchunks ▸ hreplaced.2
    have hfirst : ∀ c ∈ oldNote.chunks, c ∉ newNote.chunks := by decide +kernel
    have hsome : oldNote.chunks ≠ [] := by decide +kernel
    obtain ⟨c, hc⟩ := List.exists_mem_of_ne_nil _ hsome
    exact hfirst c hc ((hall c).mp hc)

end NuSelf.Source
