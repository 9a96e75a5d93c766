import VexDB.PgFs.Access

/-!
# Stored content

A version has a manifest, or is an alias of a version that has one, and a
manifest lists chunks of 64 KiB.  A new manifest reuses chunks of an earlier one
and its own earlier chunks.  What a store function leaves behind has passed the
check of `compute_manifest_checksum`; a read checks every chunk again.
-/

namespace VexDB.PgFs

open Storage Tx
open VexFs (Bytes Name Kind Digest)

/-- The size of a chunk. -/
def chunkBytes : Nat := 65536

/-- The largest size of a file. -/
def maxFileBytes : Nat := 134217728

/-- The number of chunks of a content of some size. -/
def chunkCount (size : Nat) : Nat := (size + (chunkBytes - 1)) / chunkBytes

/-- The size of a chunk of a content of some size. -/
def chunkSize (size no : Nat) : Nat := min chunkBytes (size - no * chunkBytes)

variable {H : Type} [DecidableEq H] [Digest H]

/-- What `resolve_version_storage` returns. -/
structure VersionStorage (H : Type) where
  manifest : Nat
  size : Nat
  checksum : H
  canonicalVersion : Nat
  chunkCount : Nat

namespace Store

/-- The manifest of a version and the number of the version that has it. -/
def canonical (store : Store H) (inode number : Nat) (version : Version H) :
    Except PgError (Option Nat × Nat) :=
  match version.source with
  | none => .ok (version.manifest, number)
  | some source =>
    match (store.versions.get (inode, source)).filter fun row => row.source.isNone with
    | none => .error ⟨"VEXFS_CORRUPT: version alias metadata is invalid", "XX001"⟩
    | some row =>
      if row.size ≠ version.size ∨ row.checksum ≠ version.checksum then
        .error ⟨"VEXFS_CORRUPT: version alias metadata is invalid", "XX001"⟩
      else .ok (row.manifest, source)

/-- `resolve_version_storage`. -/
def resolveVersionStorage (store : Store H) (inode number : Nat) :
    Except PgError (VersionStorage H) :=
  match store.versions.get (inode, number) with
  | none => .error ⟨"VEXFS_VERSION_NOT_FOUND", "P0002"⟩
  | some version => do
    let (manifest, canonical) <- store.canonical inode number version
    match manifest with
    | none => .error ⟨"VEXFS_CORRUPT: version manifest is missing", "XX001"⟩
    | some id =>
      match (store.manifests.get id).filter fun row =>
          row.fileSize = version.size && row.chunkCount = PgFs.chunkCount version.size &&
            row.checksum = version.checksum with
      | none => .error ⟨"VEXFS_CORRUPT: version manifest metadata is invalid", "XX001"⟩
      | some row => .ok ⟨id, version.size, version.checksum, canonical, row.chunkCount⟩

/-- The chunk under a number of a manifest. -/
def chunkAt (store : Store H) (manifest no : Nat) : Option (Chunk H) :=
  (store.manifestChunks.get (manifest, no)).bind store.chunks.get

/-- The chunks of a manifest in the order of their numbers. -/
def manifestRows (store : Store H) (manifest : Nat) : List (Nat × Chunk H) :=
  (List.range ((store.manifestChunks.keys.map Prod.snd).foldr max 0 + 1)).filterMap fun no =>
    (store.chunkAt manifest no).map fun chunk => (no, chunk)

/-- `compute_manifest_checksum` of a manifest of some size and number of chunks. -/
def computeManifestChecksum (store : Store H) (manifest fileSize count : Nat) :
    Except PgError H :=
  let rows := store.manifestRows manifest
  if rows.length = count ∧ (rows.map fun row => row.2.size).sum = fileSize ∧
      ∀ row ∈ rows, row.1 < count ∧ row.2.size = chunkSize fileSize row.1 then
    .ok (Digest.manifestChecksum fileSize chunkBytes
      (rows.map fun row => (row.2.size, row.2.checksum)))
  else .error ⟨"VEXFS_CORRUPT: manifest chunk metadata is invalid", "XX001"⟩

/-- Read chunks in order, checking the number, the size and the digest of each:
the bytes, the number of chunks and their size. -/
def readChunks (size : Nat) : Nat -> Nat -> List (Nat × Chunk H) ->
    Except PgError (Bytes × Nat × Nat)
  | expected, offset, [] => .ok ([], expected, offset)
  | expected, offset, (no, chunk) :: rows =>
    let expectedSize := min chunkBytes (size - offset)
    if no = expected ∧ 0 < expectedSize ∧ chunk.size = expectedSize ∧
        chunk.content.length = expectedSize ∧ chunk.checksum = Digest.sha256 chunk.content then do
      let (content, count, total) <- readChunks size (expected + 1) (offset + chunk.size) rows
      return (chunk.content ++ content, count, total)
    else .error ⟨"VEXFS_CHECKSUM_MISMATCH: file manifest chunk is invalid", "XX001"⟩

/-- `read_version_content`. -/
def readVersionContent (store : Store H) (inode number : Nat) : Except PgError Bytes := do
  let storage <- store.resolveVersionStorage inode number
  if storage.size > maxFileBytes then
    .error ⟨"VEXFS_CORRUPT: file version exceeds 128 MiB", "XX001"⟩
  else
    let (content, count, total) <- readChunks storage.size 0 0 (store.manifestRows storage.manifest)
    let mismatch : PgError :=
      ⟨"VEXFS_CHECKSUM_MISMATCH: file content does not match manifest", "XX001"⟩
    if total ≠ storage.size ∨ count ≠ storage.chunkCount then .error mismatch
    else
      let checksum <- store.computeManifestChecksum storage.manifest storage.size storage.chunkCount
      if checksum ≠ storage.checksum then .error mismatch
      else return content

/-- The number of the next version of an inode. -/
def nextVersion (store : Store H) (inode : Nat) : Nat :=
  ((store.versions.keys.filter fun key => key.1 = inode).map Prod.snd).foldr max 0 + 1

/-- The chunk holds exactly some bytes. -/
def holds (store : Store H) (data : Bytes) (id : Nat) : Bool :=
  (store.chunks.get id).any fun chunk =>
    chunk.size = data.length && chunk.checksum = Digest.sha256 data && chunk.content = data

/-- The chunk a new manifest uses for some bytes: the one with the same number in
the previous manifest, or one the new manifest already has. -/
def reusableChunk (store : Store H) (previous : Option Nat) (manifest no : Nat) (data : Bytes) :
    Option Nat :=
  ((previous.bind fun other => store.manifestChunks.get (other, no)).filter (store.holds data)).or
    (((store.manifestChunks.entries.filter fun entry => entry.1.1 = manifest).map Prod.snd).find?
      (store.holds data))

end Store

/-- Change the stored content. -/
def onStore (change : Store H -> Store H) : Sql H Unit :=
  Tx.write fun db => { db with store := change db.store }

/-- Insert a chunk. -/
def insertChunk (data : Bytes) : Sql H Nat := do
  let id <- nextval Sequences.chunk fun sequences next => { sequences with chunk := next }
  attempt fun db =>
    if (db.store.chunks.get id).isSome then
      .error ⟨"duplicate key value violates unique constraint chunks_pkey", "23505"⟩
    else .ok { db with store.chunks :=
      db.store.chunks.set id ⟨data, data.length, Digest.sha256 data⟩ }
  return id

/-- The chunk a manifest gets for some bytes. -/
def findOrInsertChunk (previous : Option Nat) (manifest no : Nat) (data : Bytes) : Sql H Nat := do
  match <- reading fun db => db.store.reusableChunk previous manifest no data with
  | some id => return id
  | none => insertChunk data

/-- Give a manifest a chunk with some bytes. -/
def storeChunk (previous : Option Nat) (manifest no : Nat) (data : Bytes) : Sql H Unit := do
  let id <- findOrInsertChunk previous manifest no data
  onStore fun store =>
    { store with manifestChunks := store.manifestChunks.set (manifest, no) id }

/-- The id of a new manifest; only stored manifests have chunks. -/
def newManifest : Sql H Nat := do
  let id <- nextval Sequences.manifest fun sequences next => { sequences with manifest := next }
  let db <- reading (fun db : Db H => db)
  rejectIf ((db.store.manifests.get id).isSome ||
      db.store.manifestChunks.keys.any fun key => key.1 = id)
    ⟨"duplicate key value violates unique constraint manifests_pkey", "23505"⟩
  return id

/-- Give a manifest its row, with the digest of its chunks.  The source inserts the
row first and sets the digest here. -/
def finishManifest (manifest fileSize : Nat) : Sql H Nat := do
  let checksum <- checked fun db =>
    db.store.computeManifestChecksum manifest fileSize (chunkCount fileSize)
  onStore fun store =>
    { store with
      manifests := store.manifests.set manifest ⟨fileSize, chunkCount fileSize, checksum⟩ }
  return manifest

/-- The manifest of empty files, which all of them share. -/
def emptyManifest : Sql H Nat := do
  match <- reading fun db : Db H => db.store.manifests.entries.find? fun entry =>
      entry.2.fileSize = 0 && entry.2.chunkCount = 0 with
  | some found =>
    rejectIf (found.2.checksum ≠ Digest.manifestChecksum 0 chunkBytes [])
      ⟨"VEXFS_CHECKSUM_MISMATCH: canonical empty manifest is invalid", "XX001"⟩
    return found.1
  | none =>
    let manifest <- newManifest
    finishManifest manifest 0

/-- `store_manifest`. -/
def storeManifest (previous : Option Nat) (content : Bytes) : Sql H Nat := do
  rejectIf (content.length > maxFileBytes)
    ⟨"VEXFS_FILE_TOO_LARGE: maximum file size is 128 MiB", "54000"⟩
  if content = [] then emptyManifest
  else
    let manifest <- newManifest
    (List.range (chunkCount content.length)).forM fun no =>
      storeChunk previous manifest no ((content.drop (no * chunkBytes)).take chunkBytes)
    finishManifest manifest content.length

/-- Cut bytes to a size, or fill them up with zeros. -/
def fitBytes (size : Nat) (bytes : Bytes) : Bytes :=
  bytes.take size ++ List.replicate (size - bytes.length) 0

/-- `overlay_bytes`, inside the limits it checks. -/
def overlayBytes (base : Bytes) (offset : Nat) (value : Bytes) : Bytes :=
  fitBytes offset base ++ value ++ base.drop (offset + value.length)

/-- The part of a write that falls into a chunk of a content: where it starts in
the chunk, and its bytes. -/
def writePart (offset : Nat) (content : Bytes) (size no : Nat) : Nat × Bytes :=
  let start := max (no * chunkBytes) offset
  let stop := min (no * chunkBytes + chunkSize size no) (offset + content.length)
  (start - no * chunkBytes, (content.drop (start - offset)).take (stop - start))

/-- Link chunks of another manifest to a manifest. -/
def Store.linkChunks (store : Store H) (manifest other : Nat)
    (condition : Nat -> Chunk H -> Bool) : Store H :=
  { store with
    manifestChunks := store.manifestChunks.setAll
      ((store.manifestChunks.entries.filter fun entry =>
        entry.1.1 = other && (store.chunks.get entry.2).any (condition entry.1.2)).map
          fun entry => ((manifest, entry.1.2), entry.2)) }

/-- The chunk of a manifest under a write, when the write does not leave it as it is. -/
def rangeChunk (previous manifest offset : Nat) (content : Bytes) (size no : Nat) :
    Sql H Unit := do
  if <- reading fun db : Db H => (db.store.manifestChunks.get (manifest, no)).isSome then
    return ()
  else
    let old <- reading fun db : Db H => db.store.chunkAt previous no
    rejectIf (old.any fun chunk => chunk.checksum ≠ Digest.sha256 chunk.content)
      ⟨"VEXFS_CHECKSUM_MISMATCH: previous range chunk is invalid", "XX001"⟩
    let base := fitBytes (chunkSize size no) ((old.map Chunk.content).getD [])
    let part := writePart offset content size no
    let data := if part.2 = [] then base else overlayBytes base part.1 part.2
    rejectIf (data.length ≠ chunkSize size no)
      ⟨"VEXFS_CORRUPT: range chunk has invalid size", "XX001"⟩
    storeChunk (some previous) manifest no data

/-- `store_manifest_range`. -/
def storeManifestRange (previous previousSize offset : Nat) (content : Bytes) : Sql H Nat := do
  rejectIf (offset > maxFileBytes ∨ offset + content.length > maxFileBytes)
    ⟨"VEXFS_INVALID_RANGE: range manifest input is invalid", "22023"⟩
  let row <- require (fun db : Db H => (db.store.manifests.get previous).filter fun row =>
      row.fileSize = previousSize)
    ⟨"VEXFS_CORRUPT: previous range manifest is invalid", "XX001"⟩
  let rows <- reading fun db : Db H => db.store.manifestRows previous
  rejectIf (¬ (rows.length = row.chunkCount ∧
      (rows.map fun row => row.2.size).sum = previousSize ∧
      ∀ entry ∈ rows, entry.1 < row.chunkCount ∧ entry.2.size = chunkSize previousSize entry.1 ∧
        entry.2.content.length = entry.2.size))
    ⟨"VEXFS_CHECKSUM_MISMATCH: previous manifest chunk is invalid", "XX001"⟩
  let size := max previousSize (offset + content.length)
  if size = 0 then emptyManifest
  else
    let manifest <- newManifest
    onStore fun store => store.linkChunks manifest previous fun no chunk =>
      decide (no < chunkCount size) && chunk.size = chunkSize size no &&
        (decide (no * chunkBytes + chunk.size <= offset) ||
          decide (no * chunkBytes ≥ offset + content.length))
    (List.range (chunkCount size)).forM (rangeChunk previous manifest offset content size)
    finishManifest manifest size

/-- The manifest of the current version, if there is one. -/
def currentManifest (inode version : Nat) : Sql H (Option Nat) :=
  if version > 0 then do
    let storage <- checked fun db => db.store.resolveVersionStorage inode version
    return some storage.manifest
  else return none

/-- Insert a row of `file_versions`. -/
def insertVersion (inode number : Nat) (row : Version H) : Sql H Unit :=
  attempt fun db =>
    if (db.store.versions.get (inode, number)).isSome then
      .error ⟨"duplicate key value violates unique constraint file_versions_pkey", "23505"⟩
    else .ok { db with store.versions := db.store.versions.set (inode, number) row }

/-- Insert the version with a manifest. -/
def insertManifestVersion (env : Env) (inode number commit manifest size : Nat) : Sql H Unit := do
  let row <- require (fun db : Db H => db.store.manifests.get manifest)
    ⟨"query returned no rows", "P0002"⟩
  insertVersion inode number ⟨commit, some manifest, none, size, row.checksum, env.now⟩

end VexDB.PgFs
