import VexDB.VexFs.Directories

/-!
# Staged content of a handle

A handle's unpublished content is an overlay: a base manifest of which only the
first `baseVisibleSize` bytes show, chunks written since, and zeros elsewhere up
to the logical size.
-/

namespace VexDB.VexFs

open Storage Tx
open Program (exec)

variable {H : Type} [DecidableEq H] [Digest H]

/-- A chunk filled up with zeros. -/
def padChunk (bytes : Bytes) : Bytes :=
  bytes ++ List.replicate (contentChunkBytes - bytes.length) 0

namespace Db

/-- `DirtyChunkSize`. -/
def dirtyChunkSize (db : Db H) (handle no : Nat) : Nat :=
  ((db.stagingChunks.get (handle, no)).map List.length).getD 0

/-- The visible bytes of a base chunk. -/
def baseChunk (db : Db H) (staging : Staging) (no : Nat) : Except SqlError Bytes :=
  let offset := no * contentChunkBytes
  let corrupt : SqlError := ⟨"staging base reference is corrupt", .corrupt⟩
  match staging.baseManifest with
  | none => .error corrupt
  | some manifest =>
    if manifest = 0 ∨ staging.baseSize <= offset ∨ staging.baseVisibleSize > staging.baseSize then
      .error corrupt
    else
      match (db.manifestChunks.get (manifest, no)).bind db.chunks.get with
      | none => .error ⟨"staging base chunk is missing", .corrupt⟩
      | some chunk =>
        let expected := min contentChunkBytes (staging.baseSize - offset)
        if chunk.size = expected ∧ chunk.content.length = expected ∧
            Digest.sha256 chunk.content = chunk.checksum then
          .ok (chunk.content.take (min expected (staging.baseVisibleSize - offset)))
        else .error ⟨"staging base chunk is corrupt", .corrupt⟩

/-- `ReadEffectiveChunk`: a chunk of the staged content and the number of its
bytes that are dirty. -/
def readEffectiveChunk (db : Db H) (handle : Nat) (staging : Staging) (no : Nat) :
    Except SqlError (Bytes × Nat) :=
  match db.stagingChunks.get (handle, no) with
  | some content =>
    if content = [] ∨ content.length > contentChunkBytes then
      .error ⟨"staging chunk is corrupt", .corrupt⟩
    else .ok (padChunk content, content.length)
  | none =>
    if no * contentChunkBytes ≥ staging.baseVisibleSize then .ok (padChunk [], 0)
    else (db.baseChunk staging no).map fun bytes => (padChunk bytes, 0)

/-- The bytes of one chunk that a read range takes. -/
def readStagedPiece (db : Db H) (handle : Nat) (staging : Staging) (start stop no : Nat) :
    Except SqlError Bytes := do
  let (chunk, _) <- db.readEffectiveChunk handle staging no
  let first := max start (no * contentChunkBytes)
  let last := min stop ((no + 1) * contentChunkBytes)
  return (chunk.drop (first - no * contentChunkBytes)).take (last - first)

/-- `ReadStagingRange`. -/
def readStagingRange (db : Db H) (handle : Nat) (offset length : Nat) : Except SqlError Bytes :=
  if offset > maxStagedBytes ∨ length > maxStagedBytes then
    .error ⟨"read range must be within 0..128 MiB", .range⟩
  else
    match db.staging.get handle with
    | none => .error ⟨"staging area not found", .notFound⟩
    | some staging =>
      if length = 0 ∨ offset ≥ staging.logicalSize then .ok []
      else do
        let stop := offset + min length (staging.logicalSize - offset)
        let first := offset / contentChunkBytes
        let pieces <- (List.range' first (chunkCount stop - first)).mapM
          (db.readStagedPiece handle staging offset stop)
        return pieces.flatten

end Db

/-- `FindStaging`. -/
def findStaging (handle : Nat) : Sql H Staging :=
  require (fun db => db.staging.get handle) ⟨"staging area not found", .notFound⟩

/-- `StoreDirtyChunk`. -/
def storeDirtyChunk (handle no : Nat) (content : Bytes) : Sql H Unit := do
  rejectIf (content = [] ∨ content.length > contentChunkBytes)
    ⟨"staging chunk must be within 1..65536 bytes", .corrupt⟩
  Tx.write fun db => { db with stagingChunks := db.stagingChunks.set (handle, no) content }

/-- The part of a patch that falls into one chunk: the offset in the chunk and the bytes. -/
def patchPiece (offset : Nat) (patch : Bytes) (no : Nat) : Nat × Bytes :=
  let first := max offset (no * contentChunkBytes)
  let last := min (offset + patch.length) ((no + 1) * contentChunkBytes)
  (first - no * contentChunkBytes, (patch.drop (first - offset)).take (last - first))

/-- The chunk that a piece of a patch leaves. -/
def patchedChunk (chunk : Bytes) (within : Nat) (data : Bytes) (storedBytes : Nat) : Bytes :=
  (chunk.take within ++ data ++ chunk.drop (within + data.length)).take storedBytes

/-- Write one piece of a patch: how the number of dirty bytes changed. -/
def stageChunk (handle : Nat) (staging : Staging) (logicalSize offset : Nat) (patch : Bytes)
    (no : Nat) : Call H Int := do
  let (within, data) := patchPiece offset patch no
  if within = 0 ∧ data.length = contentChunkBytes then
    let previous <- exec (reading fun db => db.dirtyChunkSize handle no)
    exec (storeDirtyChunk handle no data)
    return (data.length : Int) - previous
  else
    let (chunk, previous) <- exec (checked fun db => db.readEffectiveChunk handle staging no)
    let stored := min contentChunkBytes (logicalSize - no * contentChunkBytes)
    let patched := patchedChunk chunk within data stored
    exec (storeDirtyChunk handle no patched)
    return (patched.length : Int) - previous

/-- Write the pieces of a patch in order: how the number of dirty bytes changed. -/
def stageChunks (handle : Nat) (staging : Staging) (logicalSize offset : Nat) (patch : Bytes) :
    List Nat -> Call H Int
  | [] => return 0
  | no :: rest => do
    let delta <- stageChunk handle staging logicalSize offset patch no
    let others <- stageChunks handle staging logicalSize offset patch rest
    return delta + others

/-- The numbers of the chunks a patch touches. -/
def patchChunks (offset : Nat) (patch : Bytes) : List Nat :=
  List.range' (offset / contentChunkBytes)
    (chunkCount (offset + patch.length) - offset / contentChunkBytes)

/-- Change a handle's row. -/
def Db.updateHandle (db : Db H) (id : Nat) (change : Handle -> Handle) : Db H :=
  { db with handles := db.handles.update fun other row => if other = id then change row else row }

/-- Change a handle's staging row. -/
def Db.updateStaging (db : Db H) (id : Nat) (change : Staging -> Staging) : Db H :=
  { db with staging := db.staging.update fun other row => if other = id then change row else row }

/-- `StageWrite`. -/
def stageWrite (id : Nat) (handle : Handle) (offset : Nat) (patch : Bytes) : Call H Nat :=
  if patch = [] then return handle.dirtyGeneration
  else do
    exec (rejectIf (offset > maxStagedBytes ∨ patch.length > maxStagedBytes - offset)
      ⟨"staged file is larger than 128 MiB", .tooBig⟩)
    let staging <- exec (findStaging id)
    let logicalSize := max staging.logicalSize (offset + patch.length)
    let delta <- stageChunks id staging logicalSize offset patch (patchChunks offset patch)
    let generation := handle.dirtyGeneration + 1
    exec (Tx.write fun db => db.updateStaging id fun row =>
      { row with
        generation := generation
        logicalSize := logicalSize
        capacity := ((row.capacity : Int) + delta).toNat })
    exec (Tx.write fun db => db.updateHandle id fun row =>
      { row with dirtyGeneration := generation })
    return generation

/-- The number of dirty bytes of a handle. -/
def Db.dirtyBytes (db : Db H) (handle : Nat) : Nat :=
  ((db.stagingChunks.entries.filter fun entry => entry.1.1 = handle).map
    fun entry => entry.2.length).sum

/-- Drop the dirty chunks of a handle from some number on. -/
def Db.dropDirtyChunks (db : Db H) (handle first : Nat) : Db H :=
  { db with stagingChunks := db.stagingChunks.filter fun key _ =>
      !(key.1 = handle && decide (key.2 ≥ first)) }

/-- The writes of `TruncateStaging` for a size below the logical size. -/
def shrinkStaging (id : Nat) (staging : Staging) (size : Nat) : Call H Unit := do
  let remainder := size % contentChunkBytes
  let no := size / contentChunkBytes
  if remainder ≠ 0 then
    let (chunk, _) <- exec (checked fun db => db.readEffectiveChunk id staging no)
    exec (Tx.write fun db => db.dropDirtyChunks id (chunkCount size))
    exec (storeDirtyChunk id no (chunk.take remainder))
  else exec (Tx.write fun db => db.dropDirtyChunks id (chunkCount size))

/-- `TruncateStaging`. -/
def truncateStaging (id : Nat) (handle : Handle) (size : Nat) : Call H Nat := do
  exec (rejectIf (size > maxStagedBytes) ⟨"file size is out of range", .range⟩)
  let staging <- exec (findStaging id)
  if size = staging.logicalSize then return handle.dirtyGeneration
  else
    if size < staging.logicalSize then shrinkStaging id staging size
    let visible := if size < staging.logicalSize then min staging.baseVisibleSize size
      else staging.baseVisibleSize
    let capacity <- exec (reading fun db => db.dirtyBytes id)
    let generation := handle.dirtyGeneration + 1
    exec (Tx.write fun db => db.updateStaging id fun row =>
      { row with
        generation := generation
        logicalSize := size
        baseVisibleSize := visible
        capacity := capacity })
    exec (Tx.write fun db => db.updateHandle id fun row =>
      { row with dirtyGeneration := generation })
    return generation

/-- `CreateStaging`, which every caller uses without content. -/
def createStaging (id generation : Nat) : Sql H Unit :=
  attempt fun db =>
    if (db.staging.get id).isSome then
      .error ⟨"UNIQUE constraint failed: _vexfs_staging", .constraint⟩
    else .ok { db with staging := db.staging.set id ⟨generation, none, 0, 0, 0, 0⟩ }

/-- `CreateStagingFromVersion`. -/
def createStagingFromVersion (id generation : Nat) (node : Node) : Sql H Unit :=
  if node.row.currentVersion = 0 ∨ node.row.size = 0 then createStaging id generation
  else do
    let storage <- checked fun db => db.resolveVersionStorage node.id node.row.currentVersion
    rejectIf (storage.size ≠ node.row.size)
      ⟨"current file size does not match manifest", .corrupt⟩
    attempt fun db =>
      if (db.staging.get id).isSome then
        .error ⟨"UNIQUE constraint failed: _vexfs_staging", .constraint⟩
      else .ok { db with
        staging := db.staging.set id
          ⟨generation, some storage.manifest, storage.size, storage.size, storage.size, 0⟩ }

/-! ## Publishing -/

namespace Db

/-- One chunk of the content to publish: a stored chunk to reuse, and the bytes. -/
def stagedPiece (db : Db H) (inode handle : Nat) (staging : Staging) (no : Nat) :
    Except SqlError (Nat × Option Nat × Bytes) :=
  let offset := no * contentChunkBytes
  let bytes := min contentChunkBytes (staging.logicalSize - offset)
  match db.stagingChunks.get (handle, no) with
  | some content =>
    if content = [] ∨ content.length > contentChunkBytes then
      .error ⟨"staging chunk is corrupt", .corrupt⟩
    else .ok (no, none, (padChunk content).take bytes)
  | none =>
    if offset ≥ staging.baseVisibleSize then .ok (no, none, (padChunk []).take bytes)
    else
      let corrupt : SqlError := ⟨"staging base chunk is corrupt", .corrupt⟩
      let expected := min contentChunkBytes (staging.baseSize - offset)
      match staging.baseManifest.bind fun manifest => db.manifestChunks.get (manifest, no) with
      | none => .error corrupt
      | some id =>
        match db.chunks.get id with
        | none => .error corrupt
        | some chunk =>
          if staging.baseManifest = some 0 ∨ expected = 0 ∨ chunk.size ≠ expected ∨
              chunk.content.length ≠ expected ∨ chunk.inode ≠ inode then .error corrupt
          else
            let visible := min expected (staging.baseVisibleSize - offset)
            let data := (padChunk (chunk.content.take visible)).take bytes
            if visible = expected ∧ expected = bytes then
              if Digest.sha256 data = chunk.checksum then .ok (no, some id, data)
              else .error ⟨"staging base chunk checksum mismatch", .corrupt⟩
            else if Digest.sha256 chunk.content = chunk.checksum then .ok (no, none, data)
            else .error ⟨"staging base chunk checksum mismatch", .corrupt⟩

/-- The chunks of the content to publish, after the checks on the staging row. -/
def stagedPieces (db : Db H) (inode handle : Nat) (staging : Staging) :
    Except SqlError (List (Nat × Option Nat × Bytes)) :=
  let dirty := db.stagingChunks.entries.filter fun entry => entry.1.1 = handle
  if staging.logicalSize > maxStagedBytes ∨ staging.baseSize > maxStagedBytes ∨
      staging.baseVisibleSize > staging.baseSize ∨ staging.capacity > maxStagedBytes then
    .error ⟨"staging size is corrupt", .corrupt⟩
  else if db.dirtyBytes handle ≠ staging.capacity ∨
      dirty.any fun entry => decide (entry.1.2 ≥ VexFs.chunkCount staging.logicalSize) then
    .error ⟨"staging chunk set is corrupt", .corrupt⟩
  else (List.range (VexFs.chunkCount staging.logicalSize)).mapM
    (db.stagedPiece inode handle staging)

end Db

/-- `StoreManifestFromStaging`. -/
def storeManifestFromStaging (inode handle : Nat) (staging : Staging) (previous : Option Nat) :
    Sql H (Nat × H) := do
  let pieces <- checked fun db => db.stagedPieces inode handle staging
  storePieces inode staging.logicalSize previous pieces

/-- Make a new version the base of a handle's staged content. -/
def Db.rebaseStaging (db : Db H) (handle manifest : Nat) : Db H :=
  { db.updateStaging handle fun row =>
      { row with
        baseManifest := some manifest
        baseSize := row.logicalSize
        baseVisibleSize := row.logicalSize
        capacity := 0 } with
    stagingChunks := db.stagingChunks.filter fun key _ => key.1 ≠ handle }

/-- `StoreVersionFromStaging`. -/
def storeVersionFromStaging (env : Env) (inode version handle generation : Nat) : Sql H Nat := do
  let staging <- findStaging handle
  rejectIf (staging.generation ≠ generation)
    ⟨"staged generation is stale or missing", .notFound⟩
  let previous <- previousManifest inode version
  checkQuotaForContentSize inode staging.logicalSize
  advanceVersion env inode staging.logicalSize version
    "version conflict: file changed before publish"
  let commit <- createCommit env
  let (manifest, checksum) <- storeManifestFromStaging inode handle staging previous
  let id <- reading Db.nextVersionId
  insertVersion inode (version + 1)
    ⟨id, commit, some manifest, staging.logicalSize, checksum, none, env.seconds⟩
  Tx.write fun db => db.rebaseStaging handle manifest
  return version + 1

end VexDB.VexFs
