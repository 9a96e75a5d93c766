import VexDB.VexFs.Names

/-!
# Stored content

A canonical version has a manifest, and the manifest lists the chunks of the
content in order.  A chunk of the previous version of the same inode, or an
earlier chunk of the same manifest, is reused when it holds the same bytes.
-/

namespace VexDB.VexFs

open Storage Tx Digest

/-- `kContentChunkBytes`. -/
def contentChunkBytes : Nat := 65536

/-- `kMaxStagedBytes`. -/
def maxStagedBytes : Nat := 134217728

/-- The number of chunks of a content of some size. -/
def chunkCount (size : Nat) : Nat := (size + contentChunkBytes - 1) / contentChunkBytes

/-- The bytes of one chunk of a content. -/
def chunkOf (content : Bytes) (no : Nat) : Bytes :=
  (content.drop (no * contentChunkBytes)).take contentChunkBytes

variable {H : Type} [DecidableEq H] [Digest H]

/-- Where the content of a version is stored. -/
structure VersionStorage (H : Type) where
  manifest : Nat
  size : Nat
  canonicalVersion : Nat
  chunkCount : Nat
  checksum : H

namespace Db

/-- The version row that holds the manifest of a version. -/
def canonicalRow (db : Db H) (inode : Nat) (version : Version H) : Option (Version H) :=
  match version.source with
  | none => some version
  | some source => db.versions.get (inode, source)

/-- `ResolveVersionStorage`. -/
def resolveVersionStorage (db : Db H) (inode number : Nat) :
    Except SqlError (VersionStorage H) :=
  match db.versions.get (inode, number) with
  | none => .error ⟨"file version not found: " ++ toString number, .notFound⟩
  | some version =>
    let corrupt : SqlError := ⟨"file version content reference is corrupt", .corrupt⟩
    match db.canonicalRow inode version with
    | none => .error corrupt
    | some canonical =>
      match canonical.manifest with
      | none => .error corrupt
      | some id =>
        match db.manifests.get id with
        | none => .error corrupt
        | some manifest =>
          if version.size <= maxStagedBytes ∧ version.size = manifest.fileSize ∧
              version.checksum = canonical.checksum ∧ version.checksum = manifest.checksum ∧
              manifest.chunkCount = VexFs.chunkCount version.size then
            .ok ⟨id, version.size, version.source.getD number, manifest.chunkCount,
              version.checksum⟩
          else .error corrupt

/-- The chunks of a manifest in the order of their numbers. -/
def manifestRows (db : Db H) (manifest : Nat) : List (Nat × Chunk H) :=
  (List.range ((db.manifestChunks.keys.map Prod.snd).foldr max 0 + 1)).filterMap fun no =>
    ((db.manifestChunks.get (manifest, no)).bind db.chunks.get).map fun chunk => (no, chunk)

/-- Read chunks in order, checking the number, the size and the digest of each. -/
def readChunks (size : Nat) : Nat -> Nat -> List (Nat × Chunk H) ->
    Except SqlError (Bytes × List (Nat × H) × Nat × Nat)
  | expected, offset, [] => .ok ([], [], expected, offset)
  | expected, offset, (no, chunk) :: rows =>
    let expectedSize := min contentChunkBytes (size - offset)
    if no = expected ∧ 0 < expectedSize ∧ chunk.size = expectedSize ∧
        chunk.content.length = expectedSize ∧ sha256 chunk.content = chunk.checksum then do
      let (content, sums, count, total) <-
        readChunks size (expected + 1) (offset + expectedSize) rows
      return (chunk.content ++ content, (expectedSize, chunk.checksum) :: sums, count, total)
    else .error ⟨"file manifest chunk is corrupt", .corrupt⟩

/-- `ReadVersionContent`. -/
def readVersionContent (db : Db H) (inode number : Nat) : Except SqlError Bytes := do
  let storage <- db.resolveVersionStorage inode number
  let (content, sums, count, total) ← readChunks storage.size 0 0 (db.manifestRows storage.manifest)
  if total = storage.size ∧ count = storage.chunkCount ∧
      manifestChecksum storage.size contentChunkBytes sums = storage.checksum then
    return content
  else .error ⟨"file version checksum does not match content", .corrupt⟩

/-- A chunk of an earlier manifest that holds exactly some bytes. -/
def previousChunk (db : Db H) (previous : Option Nat) (no inode : Nat) (data : Bytes) :
    Option Nat :=
  previous.bind fun manifest =>
    (db.manifestChunks.get (manifest, no)).bind fun id =>
      (db.chunks.get id).bind fun chunk =>
        if chunk.inode = inode ∧ chunk.size = data.length ∧
            chunk.checksum = sha256 data ∧ chunk.content = data then some id else none

/-- The chunks stored for a manifest so far, by size and digest. -/
abbrev NewChunks (H : Type) := List ((Nat × H) × Nat)

/-- Store one chunk of a manifest: `reuse` is a chunk known to hold the bytes. -/
def storeChunk (inode manifest : Nat) (previous : Option Nat) :
    Db H × NewChunks H -> Nat × Option Nat × Bytes -> Db H × NewChunks H
  | (db, stored), (no, reuse, data) =>
    let known := (reuse.or (db.previousChunk previous no inode data)).or
      (stored.lookup (data.length, sha256 data))
    match known with
    | some id => ({ db with manifestChunks := db.manifestChunks.set (manifest, no) id }, stored)
    | none =>
      let id := db.chunks.fresh db.elsewhere.chunk
      ({ db with
          chunks := db.chunks.set id ⟨inode, data, data.length, sha256 data⟩
          manifestChunks := db.manifestChunks.set (manifest, no) id },
        stored ++ [((data.length, sha256 data), id)])

/-- The digest of a manifest with the given chunks. -/
def chunkSums (pieces : List (Nat × Option Nat × Bytes)) : List (Nat × H) :=
  pieces.map fun piece => (piece.2.2.length, sha256 piece.2.2)

/-- Insert a manifest and store its chunks. -/
def insertManifest (db : Db H) (inode manifest size : Nat) (previous : Option Nat)
    (pieces : List (Nat × Option Nat × Bytes)) : Db H :=
  (pieces.foldl (storeChunk inode manifest previous)
    ({ db with
        manifests := db.manifests.set manifest
          ⟨size, VexFs.chunkCount size,
            manifestChecksum size contentChunkBytes (chunkSums pieces)⟩ }, [])).1

/-- The id of the next version row. -/
def nextVersionId (db : Db H) : Nat :=
  (db.versions.entries.map fun entry => entry.2.id).foldr max db.elsewhere.version + 1

end Db

/-- Store the pieces of a content under a new manifest. -/
def storePieces (inode size : Nat) (previous : Option Nat)
    (pieces : List (Nat × Option Nat × Bytes)) : Sql H (Nat × H) := do
  let manifest <- reading fun db => db.manifests.fresh db.elsewhere.manifest
  Tx.write fun db => db.insertManifest inode manifest size previous pieces
  return (manifest, manifestChecksum size contentChunkBytes (Db.chunkSums pieces))

/-- The chunks of a content, none of them known to be stored. -/
def contentPieces (content : Bytes) : List (Nat × Option Nat × Bytes) :=
  (List.range (chunkCount content.length)).map fun no => (no, none, chunkOf content no)

/-- `StoreManifest`. -/
def storeManifest (inode : Nat) (previous : Option Nat) (content : Bytes) : Sql H (Nat × H) :=
  storePieces inode content.length previous (contentPieces content)

/-- A read that fails like a statement. -/
def checked {α : Type} (look : Db H -> Except SqlError α) : Sql H α := fun db =>
  (look db).map fun value => (value, db)

/-- The manifest of the current version, if there is one. -/
def previousManifest (inode version : Nat) : Sql H (Option Nat) :=
  if version > 0 then do
    let storage <- checked fun db => db.resolveVersionStorage inode version
    return some storage.manifest
  else return none

/-- The compare-and-set that makes a version current. -/
def advanceVersion (env : Env) (inode size version : Nat) (conflict : String) : Sql H Unit :=
  attempt fun db =>
    if (db.inodes.get inode).any fun row => row.currentVersion = version then
      .ok (db.updateInode inode fun row =>
        { row with
          size := size
          currentVersion := version + 1
          updatedAt := env.now
          changedAt := env.now })
    else .error ⟨conflict, .constraint⟩

/-- Insert a version row unless its number is taken. -/
def insertVersion (inode number : Nat) (row : Version H) : Sql H Unit :=
  attempt fun db =>
    if (db.versions.get (inode, number)).isSome then
      .error ⟨"UNIQUE constraint failed: _vexfs_file_versions", .constraint⟩
    else .ok { db with versions := db.versions.set (inode, number) row }

/-- `StoreVersion`, without the rows of the search index. -/
def storeVersion (env : Env) (inode version : Nat) (content : Bytes) : Sql H Nat := do
  let previous <- previousManifest inode version
  checkQuotaForContentSize inode content.length
  advanceVersion env inode content.length version "version conflict: file changed before publish"
  let commit <- createCommit env
  let (manifest, checksum) <- storeManifest inode previous content
  let id <- reading Db.nextVersionId
  insertVersion inode (version + 1)
    ⟨id, commit, some manifest, content.length, checksum, none, env.seconds⟩
  return version + 1

/-- `StoreVersionFromVersion`. -/
def storeVersionFromVersion (env : Env) (inode version sourceVersion : Nat) : Sql H Nat := do
  let source <- checked fun db => db.resolveVersionStorage inode sourceVersion
  checkQuotaForContentSize inode source.size
  advanceVersion env inode source.size version "version conflict: file changed before restore"
  let commit <- createCommit env
  let id <- reading Db.nextVersionId
  insertVersion inode (version + 1)
    ⟨id, commit, none, source.size, source.checksum, some source.canonicalVersion, env.seconds⟩
  return version + 1

/-- `ReadNode`. -/
def Db.readNode (db : Db H) (node : Node) : Except SqlError Bytes :=
  if node.row.kind ≠ .file then .error ⟨"path is not a file", .mismatch⟩
  else if node.row.currentVersion = 0 then .ok []
  else db.readVersionContent node.id node.row.currentVersion

end VexDB.VexFs
