import VexDB.Storage.Overlay
import VexDB.VexFs.Publishing

/-!
# Staged content as an array of bytes

The staging area of a handle stands for an array of bytes: its dirty chunks over
the visible part of its base.  Writing, truncating and publishing do to that
array what they are meant to do, and reading returns its bytes.
-/

namespace VexDB.VexFs

open Storage List Table Nat Db Overlay
open Storage.Overlay (cellAt Covers fit overwrite slice cellAt_append cellAt_of_ge cellAt_take
  ext_cellAt cellAt_drop cellAt_overwrite length_overwrite length_fit)
open Program (exec run_exec_ok run_bind_ok run_rejectIf run_write)
open Chunking (lt_chunkTotal length_chunkAt)

variable {H : Type} {no within : Nat} {data : Bytes} {offset : Nat} {after : Db H} {patch : Bytes}

/-- The dirty chunks of a handle. -/
def Db.dirtyChunks (db : Db H) (id : Nat) : Nat -> Option Bytes :=
  fun no => db.stagingChunks.get (id, no)

/-- The bytes that a staging area has as its base. -/
structure Db.BaseOf [Digest H] (db : Db H) (staging : Staging) (inode : Nat) (base : Bytes) :
    Prop where
  size : base.length = staging.baseSize
  visible : staging.baseVisibleSize <= staging.baseSize
  bounded : staging.baseSize <= maxStagedBytes
  held : base ≠ [] -> ∃ manifest, staging.baseManifest = some manifest ∧ 0 < manifest ∧
    db.Holds manifest inode base

/-- The staging area of a handle stands for an array of bytes. -/
structure Db.Staged [Digest H] (db : Db H) (id inode : Nat) (staging : Staging)
    (base content : Bytes) : Prop where
  row : db.staging.get id = some staging
  size : staging.logicalSize = content.length
  bounded : content.length <= maxStagedBytes
  isBase : db.BaseOf staging inode base
  covers : Covers 0 contentChunkBytes (db.dirtyChunks id) (base.take staging.baseVisibleSize)
    content
  capacity : db.dirtyBytes id = staging.capacity

/-! ## Reading -/

theorem length_padChunk_of_le (narrow : bytes.length <= contentChunkBytes) :
    (padChunk bytes).length = contentChunkBytes := by
  unfold padChunk
  rw [length_append, length_replicate]
  omega

theorem cellAt_padChunk (bytes : Bytes) (index : Nat) :
    cellAt 0 (padChunk bytes) index = cellAt 0 bytes index := by
  unfold padChunk
  rw [cellAt_append, cellAt_replicate]
  split_ifs with inside
  · rfl
  · rw [cellAt_of_ge (by omega)]

variable [DecidableEq H] [Digest H]

section

variable {db : Db H} {id inode : Nat} {staging : Staging} {base content : Bytes}

section

variable (isBase : db.BaseOf staging inode base)
  (begins : no * contentChunkBytes < staging.baseVisibleSize)
include isBase begins

omit [DecidableEq H] in
/-- A chunk of the base that is visible at all is stored. -/
theorem Db.BaseOf.entry : ∃ manifest chunkId, staging.baseManifest = some manifest ∧ 0 < manifest ∧
    db.manifestChunks.get (manifest, no) = some chunkId ∧
      db.chunks.get chunkId = some (chunkRow inode (chunkOf base no)) := by
  have size := isBase.size
  have := isBase.visible
  obtain ⟨manifest, named, positive, holds⟩ := isBase.held (by
    rintro rfl
    rw [length_nil] at size
    omega)
  obtain ⟨chunkId, found⟩ := holds.entry no (by
    rw [chunkCount_eq, lt_chunkTotal contentChunkBytes_pos]
    omega)
  exact ⟨manifest, chunkId, named, positive, found⟩

/-- Its visible bytes are read. -/
theorem Db.BaseOf.baseChunk :
    db.baseChunk staging no = .ok (chunkOf (base.take staging.baseVisibleSize) no) := by
  obtain ⟨_, _, named, _, listed, stored⟩ := isBase.entry begins
  have := isBase.visible
  have length := length_chunkOf base no
  rw [isBase.size] at length
  unfold Db.baseChunk
  rw [named]
  dsimp only
  rw [if_neg (by omega), listed, Option.bind_some, stored]
  dsimp only [chunkRow]
  rw [if_pos ⟨length, length, rfl⟩]
  congr 1
  unfold chunkOf
  rw [take_take, drop_take, take_take]
  congr 1
  omega

end

section

variable (isBase : db.BaseOf staging inode base)
  (covers : Covers 0 contentChunkBytes (db.dirtyChunks id) (base.take staging.baseVisibleSize)
    content)
include isBase covers

/-- `ReadEffectiveChunk` finds the bytes of a chunk, followed by zeros. -/
theorem readEffectiveChunk_covers (no : Nat) :
    ∃ chunk, db.readEffectiveChunk id staging no = .ok (chunk, db.dirtyChunkSize id no) ∧
      chunk.length = contentChunkBytes ∧ ∀ index < contentChunkBytes,
        cellAt 0 chunk index = cellAt 0 content (no * contentChunkBytes + index) := by
  have positive := contentChunkBytes_pos
  unfold readEffectiveChunk dirtyChunkSize
  cases found : db.stagingChunks.get (id, no) with
  | some bytes =>
    obtain ⟨some_bytes, narrow, _⟩ := covers.within no bytes found
    refine ⟨padChunk bytes, ?_, length_padChunk_of_le narrow, fun index inside => ?_⟩
    · dsimp only
      rw [if_neg (by rintro (empty | _); exacts [some_bytes empty, by omega])]
      rfl
    · rw [cellAt_padChunk]
      exact covers.chunk positive found inside
  | none =>
    by_cases hidden : no * contentChunkBytes ≥ staging.baseVisibleSize
    · rw [if_pos hidden]
      refine ⟨padChunk [], rfl, length_padChunk_of_le (zero_le _), fun index inside => ?_⟩
      rw [cellAt_padChunk, <- covers.clean positive found inside, cellAt_take,
        if_neg (by omega), cellAt_nil]
    · rw [if_neg hidden, isBase.baseChunk (by omega)]
      have narrow :
          (chunkOf (base.take staging.baseVisibleSize) no).length <= contentChunkBytes := by
        rw [length_chunkOf]
        omega
      refine ⟨padChunk _, rfl, length_padChunk_of_le narrow, fun index inside => ?_⟩
      rw [cellAt_padChunk, chunkOf_eq, cellAt_chunkAt, if_pos inside]
      exact covers.clean positive found inside

end

/-- `ReadStagingRange` returns the bytes of the range. -/
theorem Db.Staged.reads (staged : db.Staged id inode staging base content) {length : Nat}
    (offsetBounded : offset <= maxStagedBytes) (lengthBounded : length <= maxStagedBytes) :
    db.readStagingRange id offset length = .ok ((content.drop offset).take length) := by
  have positive := contentChunkBytes_pos
  unfold readStagingRange
  rw [if_neg (by omega), staged.row]
  dsimp only
  rw [staged.size]
  split_ifs with nothing
  · rcases nothing with rfl | beyond
    · rw [take_zero]
    · rw [drop_eq_nil_of_le beyond, take_nil]
  · obtain ⟨stop, stopIs⟩ : ∃ stop, stop = offset + min length (content.length - offset) :=
      ⟨_, rfl⟩
    rw [<- stopIs]
    -- Every piece is the part of the array in its chunk.
    have pieces : (range' (offset / contentChunkBytes)
        (chunkCount stop - offset / contentChunkBytes)).mapM
          (db.readStagedPiece id staging offset stop) =
        .ok ((range' (offset / contentChunkBytes)
          (chunkCount stop - offset / contentChunkBytes)).map fun no =>
            slice content (max offset (no * contentChunkBytes))
              (min stop ((no + 1) * contentChunkBytes))) := by
      apply mapM_except_of_forall₂
      rw [forall₂_map_right_iff]
      refine forall₂_same.2 fun no member => ?_
      obtain ⟨_, read, chunkLength, cells⟩ :=
        readEffectiveChunk_covers staged.isBase staged.covers no
      unfold readStagedPiece
      rw [read]
      have : (no + 1) * contentChunkBytes = no * contentChunkBytes + contentChunkBytes := by
        rw [add_mul, one_mul]
      change Except.ok _ = Except.ok _
      congr 1
      apply ext_cellAt
      · rw [length_slice (by omega), length_take, length_drop, chunkLength]
        omega
      · intro _ inPiece
        rw [length_take, length_drop, chunkLength] at inPiece
        rw [cellAt_take, if_pos (by omega), cellAt_drop, cells _ (by omega),
          cellAt_slice, if_pos (by omega)]
        exact congrArg (cellAt 0 content) (by omega)
    rw [pieces]
    change Except.ok _ = Except.ok _
    rw [flatten_slices positive content (by omega)]
    unfold slice
    have reaches : stop <= (offset / contentChunkBytes +
        (chunkCount stop - offset / contentChunkBytes)) * contentChunkBytes := by
      have total := mt (lt_chunkTotal positive stop (chunkCount stop)).2
        (by exact lt_irrefl _)
      refine (Nat.le_of_not_lt total).trans (Nat.mul_le_mul_right _ ?_)
      omega
    rw [min_eq_left reaches]
    have count : max offset stop - offset = min length (content.length - offset) := by omega
    rw [count, <- length_drop, <- take_eq_take_min]

end

/-! ## Dirty bytes -/

section

omit [DecidableEq H] [Digest H]

theorem Db.dirtyBytes_eq (db : Db H) (id : Nat) :
    db.dirtyBytes id = (db.stagingChunks.filter fun key _ => key.1 = id).total
      fun _ chunk => chunk.length := rfl

/-- The dirty bytes of a handle depend on its own chunks only. -/
theorem Db.dirtyBytes_congr {db : Db H} {id : Nat}
    (same : ∀ no, after.stagingChunks.get (id, no) = db.stagingChunks.get (id, no)) :
    after.dirtyBytes id = db.dirtyBytes id := by
  rw [dirtyBytes_eq, dirtyBytes_eq]
  apply total_of_get
  rintro ⟨other, no⟩
  by_cases isThis : other = id
  · rw [get_filter, get_filter, isThis, same]
  · rw [get_filter_of_dropped _ fun _ => by simpa using isThis,
      get_filter_of_dropped _ fun _ => by simpa using isThis]

theorem Db.dirtyBytes_of_clean {db : Db H} {id : Nat}
    (clean : ∀ no, db.stagingChunks.get (id, no) = none) : db.dirtyBytes id = 0 := by
  have same : db.dirtyBytes id = (empty : Table (Nat × Nat) Bytes).total
      fun _ chunk => chunk.length := by
    rw [dirtyBytes_eq]
    apply total_of_get
    rintro ⟨other, no⟩
    by_cases isThis : other = id
    · rw [get_filter, isThis, clean]
      rfl
    · rw [get_filter_of_dropped _ fun _ => by simpa using isThis]
      rfl
  exact same

/-- The dirty bytes after a chunk is stored. -/
theorem Db.dirtyBytes_set (db : Db H) (id no : Nat) (chunk : Bytes) :
    ({ db with stagingChunks := db.stagingChunks.set (id, no) chunk } : Db H).dirtyBytes id +
      db.dirtyChunkSize id no = db.dirtyBytes id + chunk.length := by
  have weights := db.stagingChunks.total_set
    (fun key row => if decide (key.1 = id) then row.length else 0) (id, no) chunk
  rw [dirtyBytes_eq, dirtyBytes_eq, total_filter, total_filter]
  unfold dirtyChunkSize
  simpa only [weightAt, decide_true, if_true] using weights

end

/-! ## Writing -/

section

variable {db : Db H} {id inode : Nat} {staging : Staging} {base content : Bytes}

section

omit [DecidableEq H] [Digest H]

theorem run_findStaging (stored : db.staging.get id = some staging) :
    (exec (findStaging id) : Call H Staging).run db = (.ok staging, db) :=
  Program.run_require stored

theorem run_checked {α : Type} {look : Db H -> Except SqlError α} {value : α}
    (found : look db = .ok value) : (exec (checked look) : Call H α).run db = (.ok value, db) :=
  run_exec_ok (checked_ok.2 ⟨found, rfl⟩)

theorem run_storeDirtyChunk (db : Db H) (id no : Nat) (some_bytes : chunk ≠ [])
    (narrow : chunk.length <= contentChunkBytes) :
    (exec (storeDirtyChunk id no chunk) : Call H Unit).run db =
      (.ok (), { db with stagingChunks := db.stagingChunks.set (id, no) chunk }) := by
  apply run_exec_ok
  unfold storeDirtyChunk
  simp only [Tx.bind_ok, Tx.rejectIf_ok]
  refine ⟨⟨⟩, db, ⟨?_, rfl⟩, rfl⟩
  rintro (empty | _)
  · exact some_bytes empty
  · omega

end

/-- The chunk that a piece of a patch leaves holds the bytes of the overwritten array. -/
theorem patchedChunk_cells (length : chunk.length = contentChunkBytes)
    (fits : within + data.length <= contentChunkBytes)
    (inside : no * contentChunkBytes + within + data.length <= content.length)
    (cells : ∀ index < contentChunkBytes,
      cellAt 0 chunk index = cellAt 0 content (no * contentChunkBytes + index)) :
    (patchedChunk chunk within data
        (min contentChunkBytes (content.length - no * contentChunkBytes))).length =
      min contentChunkBytes (content.length - no * contentChunkBytes) ∧
    ∀ index < contentChunkBytes, cellAt 0 (patchedChunk chunk within data
        (min contentChunkBytes (content.length - no * contentChunkBytes))) index =
      cellAt 0 (overwrite 0 content (no * contentChunkBytes + within) data)
        (no * contentChunkBytes + index) := by
  unfold patchedChunk
  constructor
  · rw [length_take, length_append, length_append, length_take,
      length_drop, length]
    omega
  · intro index narrow
    rw [cellAt_take, cellAt_overwrite]
    by_cases beyond : index < min contentChunkBytes (content.length - no * contentChunkBytes)
    · rw [if_pos beyond, cellAt_append, cellAt_append, length_append,
        length_take, length, cellAt_drop]
      split_ifs with before early hit patch
      · omega
      · rw [cellAt_take, if_pos (by omega), cells index narrow]
      · exact congrArg (cellAt 0 data) (by omega)
      · omega
      · omega
      · rw [cells _ (by omega)]
        exact congrArg (cellAt 0 content) (by omega)
    · rw [if_neg beyond, if_neg (by omega), cellAt_of_ge (by omega)]

/-- `stageChunk` stores the bytes that the overwritten array has in the chunk. -/
theorem run_stageChunk (isBase : db.BaseOf staging inode base)
    (covers : Covers 0 contentChunkBytes (db.dirtyChunks id) (base.take staging.baseVisibleSize)
      content) (piece : patchPiece offset patch no = (within, data)) (some_data : data ≠ [])
    (fits : within + data.length <= contentChunkBytes)
    (inside : no * contentChunkBytes + within + data.length <= content.length) :
    ∃ chunk : Bytes, (stageChunk id staging content.length offset patch no : Call H Int).run db =
        (.ok ((chunk.length : Int) - db.dirtyChunkSize id no),
          { db with stagingChunks := db.stagingChunks.set (id, no) chunk }) ∧
      chunk ≠ [] ∧ chunk.length <= contentChunkBytes ∧
      no * contentChunkBytes + chunk.length <= content.length ∧
      ∀ index < contentChunkBytes, cellAt 0 chunk index =
        cellAt 0 (overwrite 0 content (no * contentChunkBytes + within) data)
          (no * contentChunkBytes + index) := by
  have := length_pos_iff.2 some_data
  unfold stageChunk
  rw [piece]
  dsimp only
  split_ifs with full
  · refine ⟨data, ?_, some_data, by omega, by omega, fun index narrow => ?_⟩
    · rw [run_bind_ok (Program.run_reading _ db),
        run_bind_ok (run_storeDirtyChunk db id no some_data (by omega))]
      rfl
    · rw [cellAt_overwrite, if_pos (by omega)]
      exact congrArg (cellAt 0 data) (by omega)
  · obtain ⟨chunk, read, length, cells⟩ := readEffectiveChunk_covers isBase covers no
    obtain ⟨_, patchedCells⟩ := patchedChunk_cells length fits inside cells
    have narrow : (patchedChunk chunk within data
        (min contentChunkBytes (content.length - no * contentChunkBytes))).length <=
          contentChunkBytes := by omega
    have some_bytes : patchedChunk chunk within data
        (min contentChunkBytes (content.length - no * contentChunkBytes)) ≠ [] := by
      apply length_pos_iff.1
      omega
    refine ⟨_, ?_, some_bytes, narrow, by omega, patchedCells⟩
    rw [run_bind_ok (run_checked read),
      run_bind_ok (run_storeDirtyChunk db id no some_bytes narrow)]
    rfl

/-- A change of one handle, its staging area and its dirty chunks only. -/
structure Db.EditsOnly (db after : Db H) (id : Nat) : Prop where
  rest : after = { db with
    handles := after.handles, staging := after.staging, stagingChunks := after.stagingChunks }
  handles : ∀ other, other ≠ id -> after.handles.get other = db.handles.get other
  staging : ∀ other, other ≠ id -> after.staging.get other = db.staging.get other
  chunks : ∀ other no, other ≠ id ->
    after.stagingChunks.get (other, no) = db.stagingChunks.get (other, no)

section

omit [DecidableEq H] [Digest H]

theorem Db.EditsOnly.refl (db : Db H) (id : Nat) : db.EditsOnly db id :=
  ⟨rfl, fun _ _ => rfl, fun _ _ => rfl, fun _ _ _ => rfl⟩

theorem Db.EditsOnly.trans (first : db.EditsOnly between id)
    (second : between.EditsOnly after id) : db.EditsOnly after id where
  rest := by
    rw [second.rest, first.rest]
  handles other different := (second.handles other different).trans (first.handles other different)
  staging other different := (second.staging other different).trans (first.staging other different)
  chunks other no different :=
    (second.chunks other no different).trans (first.chunks other no different)

theorem Db.editsOnly_setChunk (db : Db H) (id no : Nat) (chunk : Bytes) :
    db.EditsOnly { db with stagingChunks := db.stagingChunks.set (id, no) chunk } id where
  rest := rfl
  handles _ _ := rfl
  staging _ _ := rfl
  chunks _ _ different := get_set_of_ne _ _ fun same => different (Prod.mk.inj same).1

end

section

omit [DecidableEq H]

theorem Db.EditsOnly.holds (edits : db.EditsOnly after id)
    (holds : db.Holds manifest inode content) : after.Holds manifest inode content := by
  rw [edits.rest]
  exact ⟨holds.row, holds.entry, holds.ends⟩

theorem Db.BaseOf.keep (isBase : db.BaseOf staging inode base)
    (held : ∀ manifest, db.Holds manifest inode base -> after.Holds manifest inode base) :
    after.BaseOf staging inode base where
  __ := isBase
  held some_base := by
    obtain ⟨manifest, named, positive, holds⟩ := isBase.held some_base
    exact ⟨manifest, named, positive, held manifest holds⟩

theorem Db.EditsOnly.isBase (edits : db.EditsOnly after id)
    (isBase : db.BaseOf staging inode base) : after.BaseOf staging inode base :=
  isBase.keep fun _ => edits.holds

/-- A staging area stands for the same array as long as its own rows and the content of
its base stay. -/
theorem Db.Staged.keep (staged : db.Staged id inode staging base content)
    (row : after.staging.get id = db.staging.get id)
    (chunks : ∀ no, after.stagingChunks.get (id, no) = db.stagingChunks.get (id, no))
    (held : ∀ manifest, db.Holds manifest inode base -> after.Holds manifest inode base) :
    after.Staged id inode staging base content where
  row := row.trans staged.row
  __ := staged
  isBase := staged.isBase.keep held
  covers := by
    have same : after.dirtyChunks id = db.dirtyChunks id := funext chunks
    rw [same]
    exact staged.covers
  capacity := (dirtyBytes_congr chunks).trans staged.capacity

end

/-- The array with the part of a patch written that lies in the chunks before a number. -/
def written (content : Bytes) (offset : Nat) (patch : Bytes) (no : Nat) : Bytes :=
  overwrite 0 content offset (patch.take (no * contentChunkBytes - offset))

theorem length_written (no : Nat) (inside : offset + patch.length <= content.length) :
    (written content offset patch no).length = content.length := by
  unfold written
  by_cases empty : patch.take (no * contentChunkBytes - offset) = []
  · rw [empty, overwrite_nil]
  · rw [length_overwrite empty, length_take]
    omega

theorem cellAt_written (patch : Bytes) (no position : Nat) :
    cellAt 0 (written content offset patch no) position =
      if offset <= position ∧ position < min (offset + patch.length) (no * contentChunkBytes)
      then cellAt 0 patch (position - offset) else cellAt 0 content position := by
  unfold written
  rw [cellAt_overwrite, length_take, cellAt_take]
  split_ifs with first second third fourth fifth
  · rfl
  · omega
  · omega
  · omega
  · omega
  · rfl

/-- Writing the next piece of a patch. -/
theorem written_succ (piece : patchPiece offset patch no = (within, data))
    (some_patch : patch ≠ []) (begins : no * contentChunkBytes < offset + patch.length)
    (ends : offset < (no + 1) * contentChunkBytes)
    (inside : offset + patch.length <= content.length) :
    data ≠ [] ∧ within + data.length <= contentChunkBytes ∧
      no * contentChunkBytes + within + data.length <= content.length ∧
      overwrite 0 (written content offset patch no) (no * contentChunkBytes + within) data =
        written content offset patch (no + 1) := by
  have := contentChunkBytes_pos
  have := length_pos_iff.2 some_patch
  have next : (no + 1) * contentChunkBytes = no * contentChunkBytes + contentChunkBytes := by
    rw [add_mul, one_mul]
  cases piece
  obtain ⟨first, firstIs⟩ : ∃ first, first = max offset (no * contentChunkBytes) := ⟨_, rfl⟩
  obtain ⟨last, lastIs⟩ : ∃ last,
      last = min (offset + patch.length) ((no + 1) * contentChunkBytes) := ⟨_, rfl⟩
  rw [<- firstIs, <- lastIs]
  have dataLength : ((patch.drop (first - offset)).take (last - first)).length = last - first := by
    rw [length_take, length_drop]
    omega
  refine ⟨length_pos_iff.1 (by omega), by omega, by omega, ?_⟩
  have start : no * contentChunkBytes + (first - no * contentChunkBytes) = first := by omega
  rw [start]
  apply ext_cellAt
  · rw [length_overwrite (length_pos_iff.1 (by omega)), length_written _ inside,
      length_written _ inside, dataLength]
    omega
  · intro position _
    rw [cellAt_overwrite, cellAt_written, cellAt_written, dataLength, next]
    by_cases here : first <= position ∧ position < first + (last - first)
    · rw [if_pos here, if_pos (by omega), cellAt_take, if_pos (by omega),
        cellAt_drop]
      exact congrArg (cellAt 0 patch) (by omega)
    · rw [if_neg here]
      by_cases before : offset <= position ∧
          position < min (offset + patch.length) (no * contentChunkBytes)
      · rw [if_pos before, if_pos (by omega)]
      · rw [if_neg before, if_neg (by omega)]

/-- `stageChunks` writes the pieces of a patch. -/
theorem run_stageChunks (array : Bytes) (isBase : db.BaseOf staging inode base)
    (some_patch : patch ≠ []) (inside : offset + patch.length <= array.length) (count first : Nat)
    (begins : count = 0 ∨ offset < (first + 1) * contentChunkBytes)
    (ends : ∀ no, no < first + count -> no * contentChunkBytes < offset + patch.length)
    (covers : Covers 0 contentChunkBytes (db.dirtyChunks id) (base.take staging.baseVisibleSize)
      (written array offset patch first)) :
    ∃ delta after, (stageChunks id staging array.length offset patch
        (range' first count) : Call H Int).run db = (.ok delta, after) ∧
      db.EditsOnly after id ∧ after.handles = db.handles ∧ after.staging = db.staging ∧
      Covers 0 contentChunkBytes (after.dirtyChunks id) (base.take staging.baseVisibleSize)
        (written array offset patch (first + count)) ∧
      (after.dirtyBytes id : Int) = db.dirtyBytes id + delta := by
  induction count generalizing first db with
  | zero => exact ⟨0, db, rfl, .refl db id, rfl, rfl, covers, by omega⟩
  | succ count step =>
    obtain ⟨within, data, piece⟩ : ∃ within data, patchPiece offset patch first = (within, data) :=
      ⟨_, _, rfl⟩
    have : (first + 1 + 1) * contentChunkBytes =
        (first + 1) * contentChunkBytes + contentChunkBytes := by
      rw [add_mul (first + 1), one_mul]
    obtain ⟨some_data, fits, reaches, same⟩ := written_succ piece some_patch (ends first (by omega))
      (begins.resolve_left (by omega)) inside
    rw [<- length_written first inside] at reaches ⊢
    obtain ⟨chunk, ran, some_bytes, narrow, chunkInside, cells⟩ :=
      run_stageChunk isBase covers piece some_data fits reaches
    rw [same] at cells
    have edits := db.editsOnly_setChunk id first chunk
    have coversNext := covers.write contentChunkBytes_pos
      (by rw [length_written _ inside, length_written _ inside]) some_bytes narrow chunkInside
      (dirtyChunks { db with stagingChunks := db.stagingChunks.set (id, first) chunk } id)
      (fun number => by
        unfold dirtyChunks
        rw [get_set]
        simp only [Prod.mk.injEq, true_and])
      cells (fun position elsewhere => by
        rw [<- same, cellAt_overwrite, if_neg]
        rintro ⟨_, _⟩
        apply elsewhere
        apply Nat.div_eq_of_lt_le
        · omega
        · rw [add_mul, one_mul]
          omega)
    obtain ⟨others, after, rest, editsRest, handles, stagingSame, coversAfter, _⟩ :=
      step (edits.isBase isBase) (first + 1) (by omega) (fun no below => ends no (by omega))
        coversNext
    refine ⟨(chunk.length - db.dirtyChunkSize id first) + others, after, ?_, edits.trans editsRest,
      handles, stagingSame, ?_, ?_⟩
    · rw [range'_succ]
      unfold stageChunks
      rw [run_bind_ok ran, length_written _ inside, run_bind_ok rest]
      rfl
    · rw [show first + (count + 1) = first + 1 + count by omega]
      exact coversAfter
    · have := db.dirtyBytes_set id first chunk
      omega

section

omit [DecidableEq H] [Digest H]

theorem Db.editsOnly_updateStaging (db : Db H) (id : Nat) (change : Staging -> Staging) :
    db.EditsOnly (db.updateStaging id change) id where
  rest := rfl
  handles _ _ := rfl
  staging _ different := get_update_of_kept _ fun _ => if_neg different
  chunks _ _ _ := rfl

theorem Db.editsOnly_updateHandle (db : Db H) (id : Nat) (change : Handle -> Handle) :
    db.EditsOnly (db.updateHandle id change) id where
  rest := rfl
  handles _ different := get_update_of_kept _ fun _ => if_neg different
  staging _ _ := rfl
  chunks _ _ _ := rfl

theorem Db.get_updateHandle (db : Db H) (id : Nat) (change : Handle -> Handle) :
    (db.updateHandle id change).handles.get id = (db.handles.get id).map change := by
  change (db.handles.update _).get id = _
  rw [get_update]
  simp only [if_true]

theorem Db.get_updateStaging (db : Db H) (id : Nat) (change : Staging -> Staging) :
    (db.updateStaging id change).staging.get id = (db.staging.get id).map change := by
  change (db.staging.update _).get id = _
  rw [get_update]
  simp only [if_true]

end

theorem cellAt_written_all (reaches : offset + patch.length <= no * contentChunkBytes) :
    cellAt 0 (written content offset patch no) position =
      cellAt 0 (overwrite 0 content offset patch) position := by
  rw [cellAt_written, cellAt_overwrite, min_eq_left reaches]

/-- After a change of staged content the handle's array is the given one. -/
def Db.Restages (db after : Db H) (id inode generation : Nat) (base array : Bytes) : Prop :=
  ∃ staging, db.EditsOnly after id ∧ after.Staged id inode staging base array ∧
    after.handles.get id = (db.handles.get id).map fun row =>
      { row with dirtyGeneration := generation }

section

variable (staged : db.Staged id inode staging base content)
include staged

omit [DecidableEq H] in
/-- The last two statements of a change of staged content. -/
theorem Db.Staged.restage (edits : db.EditsOnly between id)
    (handles : between.handles = db.handles) (stagingSame : between.staging = db.staging)
    (change : Staging -> Staging) (array : Bytes)
    (covers : Covers 0 contentChunkBytes (between.dirtyChunks id)
      (base.take (change staging).baseVisibleSize) array)
    (manifest : (change staging).baseManifest = staging.baseManifest)
    (baseSize : (change staging).baseSize = staging.baseSize)
    (visible : (change staging).baseVisibleSize <= staging.baseSize)
    (size : (change staging).logicalSize = array.length) (bounded : array.length <= maxStagedBytes)
    (capacity : between.dirtyBytes id = (change staging).capacity) (generation : Nat) :
    db.Restages ((between.updateStaging id change).updateHandle id fun row =>
      { row with dirtyGeneration := generation }) id inode generation base array := by
  have all := (edits.trans (between.editsOnly_updateStaging id change)).trans
    ((between.updateStaging id change).editsOnly_updateHandle id fun row =>
      { row with dirtyGeneration := generation })
  refine ⟨change staging, all,
    ⟨?_, size, bounded, all.isBase ⟨?_, ?_, ?_, ?_⟩, covers, capacity⟩, ?_⟩
  · change (between.updateStaging id change).staging.get id = _
    rw [get_updateStaging, stagingSame, staged.row]
    rfl
  · rw [baseSize]
    exact staged.isBase.size
  · rw [baseSize]
    exact visible
  · rw [baseSize]
    exact staged.isBase.bounded
  · rw [manifest]
    exact staged.isBase.held
  · rw [get_updateHandle]
    change (between.handles.get id).map _ = _
    rw [handles]

/-- `StageWrite` overwrites the array. -/
theorem run_stageWrite (handle : Handle) (some_patch : patch ≠ [])
    (bounded : offset + patch.length <= maxStagedBytes) :
    ∃ after, (stageWrite id handle offset patch : Call H Nat).run db =
        (.ok (handle.dirtyGeneration + 1), after) ∧
      db.Restages after id inode (handle.dirtyGeneration + 1) base
        (overwrite 0 content offset patch) := by
  have positive := contentChunkBytes_pos
  have := length_pos_iff.2 some_patch
  -- The array is extended first, so that every piece of the patch lies inside it.
  obtain ⟨size, sizeIs⟩ : ∃ size, size = max content.length (offset + patch.length) := ⟨_, rfl⟩
  have length : (fit 0 content size).length = size := length_fit _ _
  have total : offset + patch.length <= chunkCount (offset + patch.length) * contentChunkBytes := by
    have last := mt (lt_chunkTotal positive (offset + patch.length)
      (chunkCount (offset + patch.length))).2 (by exact lt_irrefl _)
    exact Nat.le_of_not_lt last
  have starts : offset / contentChunkBytes * contentChunkBytes <= offset :=
    div_mul_le_self offset contentChunkBytes
  have first : written (fit 0 content size) offset patch (offset / contentChunkBytes) =
      fit 0 content size := by
    unfold written
    rw [Nat.sub_eq_zero_of_le starts, take_zero, overwrite_nil]
  have numbers : offset / contentChunkBytes < chunkCount (offset + patch.length) := by
    rw [chunkCount_eq, lt_chunkTotal positive]
    omega
  obtain ⟨delta, _, ran, edits, handles, stagingSame, covers, _⟩ :=
    run_stageChunks (fit 0 content size) staged.isBase some_patch (by omega)
      (chunkCount (offset + patch.length) - offset / contentChunkBytes)
      (offset / contentChunkBytes)
      (.inr (by rw [mul_comm]; exact lt_mul_div_succ offset positive))
      (fun no below => (lt_chunkTotal positive _ no).1 (by rw [<- chunkCount_eq]; omega))
      (first ▸ staged.covers.grow (by omega))
  rw [Nat.add_sub_cancel' (Nat.le_of_lt numbers)] at covers
  have array : written (fit 0 content size) offset patch (chunkCount (offset + patch.length)) =
      overwrite 0 content offset patch := by
    apply ext_cellAt
    · rw [length_written _ (by omega), length, length_overwrite some_patch, sizeIs]
    · intro _ _
      rw [cellAt_written_all total, cellAt_overwrite, cellAt_overwrite,
        fit_of_le (by omega)]
  rw [array] at covers
  rw [length] at ran
  refine ⟨_, ?_, staged.restage edits handles stagingSame
    (fun row => { row with
      generation := handle.dirtyGeneration + 1
      logicalSize := size
      capacity := ((row.capacity : Int) + delta).toNat }) (overwrite 0 content offset patch) covers
    rfl rfl staged.isBase.visible (by rw [length_overwrite some_patch, sizeIs])
    (by rw [length_overwrite some_patch]; have := staged.bounded; omega)
    (by have := staged.capacity; dsimp only; omega) _⟩
  unfold stageWrite patchChunks
  rw [if_neg some_patch, run_bind_ok (run_rejectIf (by omega)),
    run_bind_ok (run_findStaging staged.row)]
  rw [staged.size, <- sizeIs, run_bind_ok ran]
  rfl

end

/-! ## Truncating -/

section

omit [DecidableEq H] [Digest H]

theorem Db.editsOnly_dropDirtyChunks (db : Db H) (id first : Nat) :
    db.EditsOnly (db.dropDirtyChunks id first) id where
  rest := rfl
  handles _ _ := rfl
  staging _ _ := rfl
  chunks other no different := get_filter_of_kept _ fun _ => by simp [different]

theorem Db.dirtyChunks_dropDirtyChunks (db : Db H) (id first no : Nat) :
    (db.dropDirtyChunks id first).dirtyChunks id no =
      if first <= no then none else db.dirtyChunks id no := by
  unfold dirtyChunks dropDirtyChunks
  split_ifs with beyond
  · exact get_filter_of_dropped _ fun _ => by simp [beyond]
  · exact get_filter_of_kept _ fun _ => by simp [beyond]

end

/-- `shrinkStaging` cuts the array. -/
theorem run_shrinkStaging (staged : db.Staged id inode staging base content) (size : Nat) :
    ∃ after, (shrinkStaging id staging size : Call H Unit).run db = (.ok (), after) ∧
      db.EditsOnly after id ∧ after.handles = db.handles ∧ after.staging = db.staging ∧
      Covers 0 contentChunkBytes (after.dirtyChunks id)
        ((base.take staging.baseVisibleSize).take size) (fit 0 content size) := by
  have positive := contentChunkBytes_pos
  have split : size / contentChunkBytes * contentChunkBytes + size % contentChunkBytes = size := by
    rw [mul_comm]
    exact div_add_mod size contentChunkBytes
  have := mod_lt size positive
  have next : ∀ no, (no + 1) * contentChunkBytes = no * contentChunkBytes + contentChunkBytes :=
    fun no => by rw [add_mul, one_mul]
  have beyond : ∀ no, chunkCount size <= no ↔ size <= no * contentChunkBytes := by
    intro no
    rw [chunkCount_eq, <- not_lt, lt_chunkTotal positive, not_lt]
  unfold shrinkStaging
  by_cases ragged : size % contentChunkBytes ≠ 0
  · rw [if_pos ragged]
    obtain ⟨chunk, read, length, cells⟩ :=
      readEffectiveChunk_covers staged.isBase staged.covers (size / contentChunkBytes)
    have : (chunk.take (size % contentChunkBytes)).length = size % contentChunkBytes := by
      rw [length_take, length]
      omega
    have narrow : (chunk.take (size % contentChunkBytes)).length <= contentChunkBytes := by omega
    have some_bytes : chunk.take (size % contentChunkBytes) ≠ [] := by
      apply length_pos_iff.1
      omega
    refine ⟨_, ?_, (db.editsOnly_dropDirtyChunks id (chunkCount size)).trans
      (editsOnly_setChunk _ id (size / contentChunkBytes)
        (chunk.take (size % contentChunkBytes))), rfl, rfl, ?_⟩
    · rw [run_bind_ok (run_checked read), run_bind_ok (run_write _ _)]
      exact run_storeDirtyChunk _ id _ some_bytes narrow
    · have dirty : ∀ no, dirtyChunks { db.dropDirtyChunks id (chunkCount size) with
          stagingChunks := (db.dropDirtyChunks id (chunkCount size)).stagingChunks.set
            (id, size / contentChunkBytes) (chunk.take (size % contentChunkBytes)) } id no =
          if no = size / contentChunkBytes then some (chunk.take (size % contentChunkBytes))
          else if size <= no * contentChunkBytes then none else db.dirtyChunks id no := by
        intro no
        have dropped := db.dirtyChunks_dropDirtyChunks id (chunkCount size) no
        unfold dirtyChunks at dropped ⊢
        rw [get_set, dropped]
        simp only [Prod.mk.injEq, true_and, beyond]
      refine staged.covers.cut positive (fun no whole => ?_) (fun no begins ends => ?_)
        fun no past => ?_
      · have less := next no
        rw [dirty, if_neg, if_neg (by omega)]
        rintro rfl
        omega
      · obtain rfl : no = size / contentChunkBytes :=
          (Nat.div_eq_of_lt_le (Nat.le_of_lt begins) ends).symm
        refine ⟨_, (dirty _).trans (if_pos rfl), by omega, fun index inside => ?_⟩
        rw [cellAt_take, if_pos (by omega), cells index (by omega)]
      · rw [dirty, if_neg, if_pos past]
        rintro rfl
        omega
  · rw [if_neg ragged]
    refine ⟨_, run_write _ _, db.editsOnly_dropDirtyChunks id (chunkCount size), rfl, rfl, ?_⟩
    refine staged.covers.cut positive (fun no whole => ?_) (fun no begins ends => ?_)
      fun no past => ?_
    · have := next no
      rw [dirtyChunks_dropDirtyChunks, if_neg (by rw [beyond]; omega)]
    · have same : size / contentChunkBytes = no := Nat.div_eq_of_lt_le (Nat.le_of_lt begins) ends
      rw [same] at split
      omega
    · rw [dirtyChunks_dropDirtyChunks, if_pos ((beyond no).2 past)]

/-- `TruncateStaging` cuts or extends the array. -/
theorem run_truncateStaging (staged : db.Staged id inode staging base content) (handle : Handle)
    {size : Nat} (bounded : size <= maxStagedBytes) (differs : size ≠ content.length) :
    ∃ after, (truncateStaging id handle size : Call H Nat).run db =
        (.ok (handle.dirtyGeneration + 1), after) ∧
      db.Restages after id inode (handle.dirtyGeneration + 1) base (fit 0 content size) := by
  unfold truncateStaging
  rw [run_bind_ok (run_rejectIf (by omega)), run_bind_ok (run_findStaging staged.row)]
  rw [staged.size, if_neg differs]
  have finish : ∀ (between : Db H) (visible : Nat), db.EditsOnly between id ->
      between.handles = db.handles -> between.staging = db.staging -> visible <= staging.baseSize ->
      Covers 0 contentChunkBytes (between.dirtyChunks id) (base.take visible) (fit 0 content size) →
      db.Restages ((between.updateStaging id fun row =>
          { row with
            generation := handle.dirtyGeneration + 1
            logicalSize := size
            baseVisibleSize := visible
            capacity := between.dirtyBytes id }).updateHandle id fun row =>
        { row with dirtyGeneration := handle.dirtyGeneration + 1 }) id inode
          (handle.dirtyGeneration + 1) base (fit 0 content size) :=
    fun between visible edits handles stagingSame inBase covers =>
      staged.restage edits handles stagingSame _ _ covers rfl rfl inBase
        (length_fit _ _).symm (by rw [length_fit]; exact bounded) rfl _
  by_cases smaller : size < content.length
  · rw [if_pos smaller]
    obtain ⟨between, ran, edits, handles, stagingSame, covers⟩ := run_shrinkStaging staged size
    rw [run_bind_ok ran]
    rw [take_take] at covers
    have := staged.isBase.visible
    simp only [smaller, if_true]
    rw [min_comm] at covers
    exact ⟨_, rfl, finish between _ edits handles stagingSame (by omega) covers⟩
  · simp only [smaller]
    exact ⟨_, rfl, finish db _ (.refl db id) rfl rfl staged.isBase.visible
      (staged.covers.grow (by omega))⟩

end

end VexDB.VexFs
