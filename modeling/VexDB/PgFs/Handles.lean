import VexDB.PgFs.Metadata

/-!
# Handles, sessions and requests

Mounted clients write through handles.  A handle's unpublished content is its
base manifest, of which the first `baseVisibleSize` bytes show, under the chunks
written since.  Publishing makes a version of it.  A call with a request id
returns what the first call with that id returned.
-/

namespace VexDB.PgFs

open Storage Tx
open VexFs (Bytes Name Kind DentryKey Digest HandleState OpenFlags Durability textBytes)

variable {H : Type} [DecidableEq H] [Digest H]

/-- Change the tables of mounted clients. -/
def onMounts (change : Mounts -> Mounts) : Sql H Unit :=
  Tx.write fun db => { db with mounts := change db.mounts }

/-! ## Requests -/

/-- How long a request is remembered: seven days. -/
def replayDays : Nat := 7 * 86400000

/-- `replay_get`. -/
def replayGet (env : Env) (request operation : String) (arguments : List Argument) :
    Sql H (Option ReplayResult) :=
  if request = "" then return none
  else do
    match <- reading fun db : Db H => db.mounts.replays.get (env.user.oid, request) with
    | none => return none
    | some row =>
      rejectIf (row.operation ≠ operation ∨ row.arguments ≠ arguments)
        ⟨"VEXFS_REQUEST_CONFLICT: request id was reused with different arguments", "40001"⟩
      return some row.result

/-- Forget the requests that are too old. -/
def Mounts.expireReplays (mounts : Mounts) (now : Nat) : Mounts :=
  { mounts with
    replays := mounts.replays.filter fun _ row => decide (row.createdAt + replayDays ≥ now) }

/-- `replay_put`. -/
def replayPut (env : Env) (request operation : String) (arguments : List Argument)
    (result : ReplayResult) : Sql H Unit :=
  if request = "" then return ()
  else do
    rejectIf (request.utf8ByteSize > 255)
      ⟨"VEXFS_INVALID_REQUEST: request id is too long", "22023"⟩
    onMounts fun mounts =>
      { mounts with
        replays := if (mounts.replays.get (env.user.oid, request)).isSome then mounts.replays
          else mounts.replays.set (env.user.oid, request) ⟨operation, arguments, result, env.now⟩ }
    onMounts fun mounts => mounts.expireReplays env.now

/-- Carry out a call unless its request has a recorded result. -/
def onceOnly (env : Env) (request operation : String) (arguments : List Argument)
    (body : Sql H ReplayResult) : Sql H ReplayResult := do
  match <- replayGet env request operation arguments with
  | some result => return result
  | none =>
    let result <- body
    replayPut env request operation arguments result
    return result

/-! ## Handles -/

/-- How long a handle or a session is leased: thirty seconds. -/
def leaseTime : Nat := 30000

/-- How long a retained handle is kept: a day. -/
def retainTime : Nat := 86400000

namespace Mounts

/-- Change the row of a handle. -/
def updateHandle (mounts : Mounts) (id : Nat) (change : Handle -> Handle) : Mounts :=
  { mounts with handles := mounts.handles.update fun other row =>
      if other = id then change row else row }

/-- Change the staging row of a handle. -/
def updateStaging (mounts : Mounts) (id : Nat) (change : Staging -> Staging) : Mounts :=
  { mounts with staging := mounts.staging.update fun other row =>
      if other = id then change row else row }

/-- The session is active for a user. -/
def active (mounts : Mounts) (session : String) (oid now : Nat) : Bool :=
  (mounts.sessions.get session).any fun row => row.ownerOid = oid && decide (row.leaseUntil > now)

end Mounts

/-- The handle has content that is not published. -/
def Handle.dirty (handle : Handle) : Bool :=
  decide (handle.dirtyGeneration > handle.publishedGeneration)

/-- The permission check of `require_handle`. -/
def requireHandleInode (env : Env) (permission : Permission) : Option Nat -> Sql H Unit
  | none => return ()
  | some inode => requireInodePermission env inode permission

/-- `require_handle`. -/
def requireHandle (env : Env) (id : Nat) (permission : Permission) : Sql H Handle := do
  let handle <- require (fun db : Db H => (db.mounts.handles.get id).filter fun row =>
    row.ownerOid = env.user.oid && row.state ≠ .closed) ⟨"VEXFS_HANDLE_NOT_FOUND", "P0002"⟩
  requireHandleInode env permission handle.inode
  onMounts fun mounts => mounts.updateHandle id fun row =>
    { row with leaseUntil := env.now + leaseTime, state := .opened }
  return { handle with leaseUntil := env.now + leaseTime, state := .opened }

/-- `require_handle` for a call that changes the staged content. -/
def writableHandle (env : Env) (id : Nat) : Sql H Handle := do
  let handle <- requireHandle env id .write
  rejectIf (!handle.flags.write) ⟨"VEXFS_READ_ONLY_HANDLE", "25006"⟩
  return handle

/-- Raise an error if a session is given that is not active. -/
def requireSession (env : Env) : Option String -> Sql H Unit
  | none => return ()
  | some session => do
    let active <- reading fun db : Db H => db.mounts.active session env.user.oid env.now
    rejectIf (!active) ⟨"VEXFS_SESSION_STALE: mount session is not active", "55006"⟩

/-- Insert a handle and, if it is writable, its staging row. -/
def insertHandle (env : Env) (handle : Handle) (staging : Staging) : Sql H Nat := do
  attempt fun db =>
    if (db.mounts.handles.get env.handleToken).isSome then
      .error ⟨"duplicate key value violates unique constraint handles_pkey", "23505"⟩
    else .ok { db with mounts.handles := db.mounts.handles.set env.handleToken handle }
  onlyIf handle.flags.write
    (onMounts fun mounts =>
      { mounts with staging := mounts.staging.set env.handleToken staging })
  return env.handleToken

/-- The file `vexfs_handle_open` opens: its id, row and manifest. -/
def Db.openTarget (db : Db H) (user : User) (path : Bytes) (write : Bool) :
    Except PgError (Nat × Inode × Option Nat) := do
  let inode <- db.resolvePath user path
  match db.tree.liveInode inode with
  | none => .error ⟨"query returned no rows", "P0002"⟩
  | some row =>
    if row.kind ≠ .file then .error ⟨"VEXFS_NOT_REGULAR_FILE", "42809"⟩
    else if !db.hasAclPermission user inode (if write then .write else .read) then
      .error ⟨"VEXFS_PERMISSION_DENIED: permission denied for inode", "42501"⟩
    else if row.currentVersion > 0 then do
      let storage <- db.store.resolveVersionStorage inode row.currentVersion
      return (inode, row, some storage.manifest)
    else return (inode, row, none)

/-- The arguments of a session that go into a digest. -/
def sessionArgument (session : Option String) : Argument :=
  match session with
  | none => .null
  | some session => .bytes (textBytes session)

/-- The handle and staging row for a file that is yet to be created. -/
def openMissing (env : Env) (path : Bytes) (flags : OpenFlags) (session : Option String) :
    Sql H Nat := do
  let _ <- writableParent env path
  insertHandle env
    ⟨none, path, flags, some 420, env.user.oid, session, 0, 1, 0, .opened, env.now + leaseTime⟩
    ⟨1, none, 0, 0, 0⟩

/-- The handle and staging row for a file. -/
def openFile (env : Env) (path : Bytes) (flags : OpenFlags) (session : Option String)
    (inode : Nat) (row : Inode) (manifest : Option Nat) : Sql H Nat :=
  let generation := if flags.truncate then 1 else 0
  let visible := if flags.truncate then 0 else row.size
  insertHandle env
    ⟨some inode, path, flags, none, env.user.oid, session, row.currentVersion, generation, 0,
      .opened, env.now + leaseTime⟩
    ⟨generation, manifest, row.size, visible, visible⟩

/-- `vexfs_handle_open`. -/
def handleOpen (env : Env) (path : Bytes) (flags : OpenFlags) (request : String)
    (session : Option String) : Sql H ReplayResult := do
  rejectIf (!flags.read && !flags.write)
    ⟨"VEXFS_INVALID_FLAGS: flags must use r,w,c,t and contain r or w", "22023"⟩
  rejectIf ((flags.create || flags.truncate) && !flags.write)
    ⟨"VEXFS_INVALID_FLAGS: create and truncate require write access", "22023"⟩
  requireWorkspace env (if flags.write then .write else .read)
  requireSession env session
  onceOnly env request "handle_open" [.bytes path, .bytes flags.text, sessionArgument session] do
    let db <- reading (fun db : Db H => db)
    match db.openTarget env.user path flags.write with
    | .ok (inode, row, manifest) =>
      let id <- openFile env path flags session inode row manifest
      return .handle id
    | .error error =>
      -- The block that opens the file catches what was not found.
      if error.sqlstate = "P0002" ∧ flags.create then
        let id <- openMissing env path flags session
        return .handle id
      else fail error

/-- The flags of a handle that creates a file. -/
def createFlags : OpenFlags := ⟨true, true, true, true⟩

/-- `vexfs_handle_create` with five arguments: the file is created when the handle
is published. -/
def handleCreate (env : Env) (path : Bytes) (mode : Nat) (request : String)
    (session : Option String) : Sql H ReplayResult := do
  rejectIf (mode > 4095) ⟨"VEXFS_INVALID_MODE", "22023"⟩
  requireWorkspace env .write
  requireSession env session
  onceOnly env request "handle_create" [.bytes path, .integer mode, sessionArgument session] do
    let key <- writableParent env path
    requireFree key
    enforceQuota none 0
    let id <- insertHandle env
      ⟨none, path, createFlags, some mode, env.user.oid, session, 0, 1, 0, .opened,
        env.now + leaseTime⟩
      ⟨1, none, 0, 0, 0⟩
    return .handle id

/-- `vexfs_handle_create` with an owner: the file is there at once, at version 0, and
no commit is recorded. -/
def handleCreateOwned (env : Env) (path : Bytes) (mode uid gid : Nat) (request session : String) :
    Sql H ReplayResult := do
  rejectIf (mode > 4095) ⟨"VEXFS_INVALID_MODE", "22023"⟩
  rejectIf (uid > 4294967295 ∨ gid > 4294967295)
    ⟨"VEXFS_INVALID_OWNER: uid and gid must be within 0..4294967295", "22023"⟩
  rejectIf (session = "") ⟨"VEXFS_INVALID_SESSION: session id is required", "22023"⟩
  requireWorkspace env .write
  requireSession env (some session)
  onceOnly env request "handle_create"
    [.bytes path, .integer mode, .integer uid, .integer gid, sessionArgument (some session)] do
    let key <- writableParent env path
    requireFree key
    enforceQuota none 0
    let inode <- insertNode key { newInode env .file mode 0 0 with uid := uid, gid := gid }
    onTree fun tree => tree.touch env.now key.1
    let id <- insertHandle env
      ⟨some inode, path, createFlags, some mode, env.user.oid, some session, 0, 1, 0, .opened,
        env.now + leaseTime⟩
      ⟨1, none, 0, 0, 0⟩
    return .handle id

/-! ## Staged content -/

namespace Db

/-- The visible bytes of a chunk of the base manifest. -/
def baseChunk (db : Db H) (staging : Staging) (no : Nat) : Except PgError Bytes :=
  match staging.baseManifest with
  | none => .ok []
  | some manifest =>
    if no * chunkBytes ≥ staging.baseVisibleSize then .ok []
    else
      match (db.store.chunkAt manifest no).filter fun chunk =>
          chunk.size = chunk.content.length && chunk.checksum = Digest.sha256 chunk.content with
      | none => .error ⟨"VEXFS_CHECKSUM_MISMATCH: staging base chunk is invalid", "XX001"⟩
      | some chunk =>
        .ok (chunk.content.take (min chunk.size (staging.baseVisibleSize - no * chunkBytes)))

/-- `read_staging_chunk`. -/
def readStagingChunk (db : Db H) (id no size : Nat) : Except PgError Bytes :=
  if size = 0 then .ok []
  else
    match db.mounts.staging.get id with
    | none => .error ⟨"VEXFS_STAGING_NOT_FOUND", "P0002"⟩
    | some staging =>
      match db.mounts.stagingChunks.get (id, no) with
      | some content => .ok (fitBytes size content)
      | none => (db.baseChunk staging no).map (fitBytes size)

/-- The bytes of one chunk that a read takes. -/
def readStagingPart (db : Db H) (id logicalSize offset stop no : Nat) : Except PgError Bytes := do
  let start := no * chunkBytes
  let size := chunkSize logicalSize no
  let chunk <- db.readStagingChunk id no size
  return (chunk.drop (max offset start - start)).take (min stop (start + size) - max offset start)

/-- `read_staging_range`. -/
def readStagingRange (db : Db H) (id offset length : Nat) : Except PgError Bytes :=
  if offset > maxFileBytes ∨ length > maxFileBytes then
    .error ⟨"VEXFS_INVALID_RANGE: offset and length must be within 0..128 MiB", "22023"⟩
  else
    match db.mounts.staging.get id with
    | none => .error ⟨"VEXFS_STAGING_NOT_FOUND", "P0002"⟩
    | some staging =>
      if length = 0 ∨ offset ≥ staging.logicalSize then .ok []
      else do
        let stop := min staging.logicalSize (offset + length)
        let first := offset / chunkBytes
        let pieces <- (List.range' first ((stop - 1) / chunkBytes + 1 - first)).mapM
          (db.readStagingPart id staging.logicalSize offset stop)
        return pieces.flatten

end Db

namespace Store

/-- Read the part of each chunk between two offsets, checking the number, the size and
the digest of the chunk: the bytes and the number of the next chunk. -/
def readRangeChunks (size offset stop : Nat) : Nat -> List (Nat × Chunk H) ->
    Except PgError (Bytes × Nat)
  | expected, [] => .ok ([], expected)
  | expected, (no, chunk) :: rows =>
    let start := no * chunkBytes
    let expectedSize := chunkSize size no
    if no = expected ∧ 0 < expectedSize ∧ chunk.size = expectedSize ∧
        chunk.content.length = expectedSize ∧ chunk.checksum = Digest.sha256 chunk.content then do
      let (content, next) <- readRangeChunks size offset stop (expected + 1) rows
      return ((chunk.content.drop (max offset start - start)).take
        (min stop (start + expectedSize) - max offset start) ++ content, next)
    else .error ⟨"VEXFS_CHECKSUM_MISMATCH: file manifest range chunk is invalid", "XX001"⟩

/-- `read_version_range`. -/
def readVersionRange (store : Store H) (inode number offset length : Nat) :
    Except PgError Bytes :=
  if offset > maxFileBytes ∨ length > maxFileBytes then
    .error ⟨"VEXFS_INVALID_RANGE: offset and length must be within 0..128 MiB", "22023"⟩
  else do
    let storage <- store.resolveVersionStorage inode number
    if storage.size > maxFileBytes then
      .error ⟨"VEXFS_CORRUPT: file version exceeds 128 MiB", "XX001"⟩
    else if length = 0 ∨ offset ≥ storage.size then return []
    else
      let stop := min storage.size (offset + length)
      let first := offset / chunkBytes
      let last := (stop - 1) / chunkBytes
      let rows := (store.manifestRows storage.manifest).filter fun row =>
        decide (first <= row.1) && decide (row.1 <= last)
      let (content, next) <- readRangeChunks storage.size offset stop first rows
      if next ≠ last + 1 ∨ content.length ≠ stop - offset then
        .error ⟨"VEXFS_CHECKSUM_MISMATCH: file manifest range is incomplete", "XX001"⟩
      else return content

end Store

/-- `vexfs_handle_read`. -/
def handleRead (env : Env) (id offset length : Nat) : Sql H Bytes := do
  rejectIf (offset > maxFileBytes ∨ length > maxFileBytes)
    ⟨"VEXFS_INVALID_RANGE: offset and length must be within 128 MiB", "22023"⟩
  let handle <- requireHandle env id .read
  rejectIf (!handle.flags.read) ⟨"VEXFS_WRITE_ONLY_HANDLE", "42501"⟩
  match handle.flags.write, handle.inode with
  | false, some inode =>
    let row <- inodeRow inode
    if row.currentVersion = 0 then return []
    else checked fun db => db.store.readVersionRange inode row.currentVersion offset length
  | _, _ => checked fun db => db.readStagingRange id offset length

/-- The staging row of a handle. -/
def findStaging (id : Nat) : Sql H Staging :=
  require (fun db : Db H => db.mounts.staging.get id) ⟨"VEXFS_STAGING_NOT_FOUND", "P0002"⟩

/-- Store a dirty chunk. -/
def putStagingChunk (id no : Nat) (content : Bytes) : Sql H Unit :=
  onMounts fun mounts => { mounts with stagingChunks := mounts.stagingChunks.set (id, no) content }

/-- One round of the loop of `vexfs_handle_stage_write`. -/
def stageChunk (id logicalSize offset : Nat) (content : Bytes) (no : Nat) : Sql H Unit := do
  let (within, part) := writePart offset content logicalSize no
  if within = 0 ∧ part.length = chunkSize logicalSize no then putStagingChunk id no part
  else
    let chunk <- checked fun db : Db H => db.readStagingChunk id no (chunkSize logicalSize no)
    putStagingChunk id no (overlayBytes chunk within part)

/-- Record a new generation of a handle's staged content. -/
def advanceStaging (env : Env) (id generation : Nat) (change : Staging -> Staging) :
    Sql H Unit := do
  onMounts fun mounts => mounts.updateStaging id fun row =>
    change { row with generation := generation }
  onMounts fun mounts => mounts.updateHandle id fun row =>
    { row with dirtyGeneration := generation, leaseUntil := env.now + leaseTime }

/-- The digest of a content in the arguments of a request. -/
def contentArguments (content : Bytes) : List Argument :=
  [.integer content.length, .bytes content]

/-- `vexfs_handle_stage_write`. -/
def handleStageWrite (env : Env) (id offset : Nat) (content : Bytes) (request : String) :
    Sql H ReplayResult := do
  rejectIf (offset > maxFileBytes ∨ offset + content.length > maxFileBytes)
    ⟨"VEXFS_INVALID_RANGE: staged write is outside 0..128 MiB", "22023"⟩
  let handle <- writableHandle env id
  onceOnly env request "handle_stage_write"
    (.integer id :: .integer offset :: contentArguments content) do
    let staging <- findStaging id
    if content = [] then return .integer handle.dirtyGeneration
    else
      let logicalSize := max staging.logicalSize (offset + content.length)
      enforceQuota handle.inode logicalSize
      let first := offset / chunkBytes
      (List.range' first ((offset + content.length - 1) / chunkBytes + 1 - first)).forM
        (stageChunk id logicalSize offset content)
      advanceStaging env id (handle.dirtyGeneration + 1) fun row =>
        { row with logicalSize := logicalSize }
      return .integer (handle.dirtyGeneration + 1)

/-- Cut the staged chunk at the end of a smaller size. -/
def cutStagingChunk (id : Nat) (staging : Staging) (size : Nat) : Sql H Unit := do
  let no := size / chunkBytes
  let chunk <- checked fun db : Db H =>
    db.readStagingChunk id no (chunkSize staging.logicalSize no)
  putStagingChunk id no (chunk.take (size % chunkBytes))

/-- Cut the staged chunks of a handle to a smaller size. -/
def shrinkStaging (id : Nat) (staging : Staging) (size : Nat) : Sql H Unit := do
  onlyIf (size % chunkBytes > 0) (cutStagingChunk id staging size)
  onMounts fun mounts =>
    { mounts with stagingChunks := mounts.stagingChunks.filter fun key _ =>
        !(key.1 = id && decide (key.2 ≥ chunkCount size)) }

/-- `vexfs_handle_truncate`. -/
def handleTruncate (env : Env) (id size : Nat) (request : String) : Sql H ReplayResult := do
  rejectIf (size > maxFileBytes)
    ⟨"VEXFS_INVALID_SIZE: staged file must be 0..128 MiB", "22023"⟩
  let handle <- writableHandle env id
  onceOnly env request "handle_truncate" [.integer id, .integer size] do
    let staging <- findStaging id
    if size = staging.logicalSize then return .integer handle.dirtyGeneration
    else
      enforceQuota handle.inode size
      onlyIf (size < staging.logicalSize) (shrinkStaging id staging size)
      advanceStaging env id (handle.dirtyGeneration + 1) fun row =>
        { row with baseVisibleSize := min row.baseVisibleSize size, logicalSize := size }
      return .integer (handle.dirtyGeneration + 1)

/-! ## Publishing -/

/-- The chunk of a manifest that a staged content gets, when no base chunk was linked. -/
def stagingManifestChunk (id : Nat) (staging : Staging) (manifest no : Nat) : Sql H Unit := do
  if <- reading fun db : Db H => (db.store.manifestChunks.get (manifest, no)).isSome then
    return ()
  else
    let data <- checked fun db : Db H =>
      db.readStagingChunk id no (chunkSize staging.logicalSize no)
    rejectIf (data.length ≠ chunkSize staging.logicalSize no)
      ⟨"VEXFS_CORRUPT: staging chunk has invalid size", "XX001"⟩
    storeChunk staging.baseManifest manifest no data

/-- The checks of `store_staging_manifest` on the base of a staged content. -/
def requireBase (staging : Staging) : Sql H Unit :=
  match staging.baseManifest with
  | none => rejectIf (staging.baseSize ≠ 0 ∨ staging.baseVisibleSize ≠ 0)
      ⟨"VEXFS_CORRUPT: staging base metadata is invalid", "XX001"⟩
  | some manifest => do
    let _ <- require (fun db : Db H => (db.store.manifests.get manifest).filter fun row =>
        row.fileSize = staging.baseSize && decide (staging.baseVisibleSize <= row.fileSize))
      ⟨"VEXFS_CORRUPT: staging base manifest is invalid", "XX001"⟩

/-- Link the chunks of the base of a staged content that are visible as a whole and
have no chunk written over them. -/
def linkBase (id : Nat) (staging : Staging) (manifest : Nat) : Sql H Unit :=
  match staging.baseManifest with
  | none => return ()
  | some base => Tx.write fun db =>
    { db with store := db.store.linkChunks manifest base fun no chunk =>
        decide (no < chunkCount staging.logicalSize) &&
          (db.mounts.stagingChunks.get (id, no)).isNone &&
          chunk.size = chunkSize staging.logicalSize no &&
          decide (no * chunkBytes + chunk.size <= staging.baseVisibleSize) }

/-- `store_staging_manifest`. -/
def storeStagingManifest (id inode : Nat) : Sql H Nat := do
  let handle <- require (fun db : Db H => db.mounts.handles.get id)
    ⟨"VEXFS_STAGING_NOT_FOUND", "P0002"⟩
  let staging <- findStaging id
  rejectIf (handle.inode.any fun other => other ≠ inode)
    ⟨"VEXFS_CORRUPT: handle inode changed during publish", "XX001"⟩
  rejectIf (staging.logicalSize > maxFileBytes)
    ⟨"VEXFS_FILE_TOO_LARGE: maximum file size is 128 MiB", "54000"⟩
  requireBase staging
  if staging.logicalSize = 0 then storeManifest staging.baseManifest []
  else
    let manifest <- newManifest
    linkBase id staging manifest
    (List.range (chunkCount staging.logicalSize)).forM (stagingManifestChunk id staging manifest)
    finishManifest manifest staging.logicalSize

/-- A publish of a handle whose file does not exist yet: the inode, its new version,
the manifest and the path. -/
def publishMissing (env : Env) (id : Nat) (handle : Handle) (staging : Staging) :
    Sql H (Nat × Nat × Nat × Option Bytes) := do
  let key <- writableParent env handle.path
  let taken <- reading fun db : Db H => (db.tree.dentries.get key).isSome
  rejectIf taken ⟨"VEXFS_VERSION_CONFLICT: create destination now exists", "40001"⟩
  enforceQuota none staging.logicalSize
  let inode <- insertNode key
    (newInode env .file (handle.createMode.getD 420) 1 staging.logicalSize)
  onTree fun tree => tree.touch env.now key.1
  let manifest <- storeStagingManifest id inode
  return (inode, 1, manifest, some handle.path)

/-- Set the times of the directory of a path. -/
def touchPathParent (env : Env) : Option Bytes -> Sql H Unit
  | none => return ()
  | some path => do
    let key <- checked fun db : Db H => db.resolveParent env.user path
    onTree fun tree => tree.touch env.now key.1

/-- A publish of a handle on an inode: the inode, its new version, the manifest and
the path the inode has now. -/
def publishExisting (env : Env) (id : Nat) (handle : Handle) (staging : Staging) (inode : Nat) :
    Sql H (Nat × Nat × Nat × Option Bytes) := do
  let manifest <- storeStagingManifest id inode
  let _ <- require (fun db : Db H => (db.tree.liveInode inode).filter fun row =>
      row.kind = .file && row.currentVersion = handle.expectedVersion)
    ⟨"VEXFS_VERSION_CONFLICT: file changed after handle open", "40001"⟩
  requireInodePermission env inode .write
  enforceQuota (some inode) staging.logicalSize
  let version <- reading fun db : Db H => db.store.nextVersion inode
  let path <- reading fun db : Db H => db.pathForInode inode
  advanceInode inode version staging.logicalSize fun row =>
    { row with modifiedAt := env.now, changedAt := env.now }
  touchPathParent env path
  return (inode, version, manifest, path)

/-- Make the published content the base of a handle's staged content. -/
def rebaseStaging (env : Env) (id : Nat) (inode version generation : Nat) (path : Option Bytes)
    (manifest size : Nat) : Sql H Unit := do
  onMounts fun mounts => mounts.updateHandle id fun row =>
    { row with
      inode := some inode
      path := path.getD row.path
      expectedVersion := version
      publishedGeneration := generation
      leaseUntil := env.now + leaseTime }
  onMounts fun mounts => mounts.updateStaging id fun _ =>
    ⟨generation, some manifest, size, size, size⟩
  onMounts fun mounts =>
    { mounts with stagingChunks := mounts.stagingChunks.filter fun key _ => key.1 ≠ id }

/-- The inode that a publish writes, its new version, the manifest and the path. -/
def publishTarget (env : Env) (id : Nat) (handle : Handle) (staging : Staging) :
    Sql H (Nat × Nat × Nat × Option Bytes) :=
  match handle.inode with
  | none => publishMissing env id handle staging
  | some inode => publishExisting env id handle staging inode

/-- A publish of a generation that is not published yet. -/
def publishDirty (env : Env) (id : Nat) (handle : Handle) (generation : Nat) : Sql H Nat := do
  rejectIf (generation ≠ handle.dirtyGeneration) ⟨"VEXFS_STALE_GENERATION", "40001"⟩
  let staging <- require (fun db : Db H => (db.mounts.staging.get id).filter fun row =>
      row.generation = generation)
    ⟨"VEXFS_STALE_GENERATION: staging generation does not match", "40001"⟩
  let (inode, version, manifest, path) <- publishTarget env id handle staging
  let commit <- recordCommit (path.getD handle.path)
  insertManifestVersion env inode version commit manifest staging.logicalSize
  rebaseStaging env id inode version generation path manifest staging.logicalSize
  return version

/-- `vexfs_handle_publish`. -/
def handlePublish (env : Env) (id generation : Nat) (durability : Durability) (request : String) :
    Sql H ReplayResult := do
  let handle <- writableHandle env id
  onceOnly env request "handle_publish"
    [.integer id, .integer generation, .bytes (textBytes durability.text)] do
    if generation <= handle.publishedGeneration then return .integer handle.expectedVersion
    else
      let version <- publishDirty env id handle generation
      return .integer version

/-- Base the staged content of a clean handle on the current version of its inode:
the size of that version. -/
def rebaseOnCurrent (id : Nat) (handle : Handle) (inode : Nat) : Sql H Nat := do
  rejectIf (handle.dirtyGeneration ≠ handle.publishedGeneration)
    ⟨"VEXFS_DIRTY_HANDLE: append requires a clean handle", "55006"⟩
  let row <- require (fun db : Db H => (db.tree.liveInode inode).filter fun row =>
      row.kind = .file) ⟨"VEXFS_VERSION_CONFLICT: open inode is unavailable", "40001"⟩
  let manifest <- currentManifest inode row.currentVersion
  onMounts fun mounts => mounts.updateHandle id fun handle =>
    { handle with expectedVersion := row.currentVersion }
  onMounts fun mounts =>
    { mounts with stagingChunks := mounts.stagingChunks.filter fun key _ => key.1 ≠ id }
  onMounts fun mounts => mounts.updateStaging id fun _ =>
    ⟨handle.publishedGeneration, manifest, row.size, row.size, row.size⟩
  return row.size

/-- Where `vexfs_handle_append` appends. -/
def appendOffset (id : Nat) (handle : Handle) (staging : Staging) : Sql H Nat :=
  match handle.inode with
  | none => return staging.logicalSize
  | some inode => rebaseOnCurrent id handle inode

/-- The number in a recorded result. -/
def ReplayResult.number : ReplayResult -> Nat
  | .integer value => value
  | .handle id => id
  | .state _ => 0

/-- `vexfs_handle_append`. -/
def handleAppend (env : Env) (id : Nat) (content : Bytes) (request : String) :
    Sql H ReplayResult := do
  let handle <- writableHandle env id
  onceOnly env request "handle_append" (.integer id :: contentArguments content) do
    let staging <- findStaging id
    let size <- appendOffset id handle staging
    let token := if request = "" then env.requestToken else request
    let generation <- handleStageWrite env id size content ("append-stage:" ++ token)
    handlePublish env id generation.number .data ("append-publish:" ++ token)

/-- `reap_orphan_inodes`. -/
def Db.reapOrphanInodes (db : Db H) (now : Nat) : Db H :=
  { db with tree := db.tree.bury now fun inode row =>
      row.live && row.kind ≠ .directory && !db.tree.linked inode && !db.mounts.held inode }

/-- The text of a handle id. -/
def handleText (id : Nat) : String := "handle-" ++ toString id

/-- Close a handle and delete its staging row. -/
def Mounts.closeHandle (mounts : Mounts) (now id : Nat) : Mounts :=
  { mounts.updateHandle id fun row => { row with state := .closed, leaseUntil := now } with
    staging := mounts.staging.filter fun other _ => other ≠ id }

/-- `vexfs_handle_publish_close`. -/
def handlePublishClose (env : Env) (id generation : Nat) (durability : Durability) :
    Sql H Nat := do
  let handle <- require (fun db : Db H => (db.mounts.handles.get id).filter fun row =>
    row.ownerOid = env.user.oid) ⟨"VEXFS_HANDLE_NOT_FOUND", "P0002"⟩
  if handle.state = .closed then
    rejectIf (generation > handle.publishedGeneration) ⟨"VEXFS_HANDLE_CLOSED", "P0002"⟩
    return handle.expectedVersion
  else
    let version <- handlePublish env id generation durability
      ("publish-close:" ++ handleText id ++ ":" ++ toString generation ++ ":" ++ durability.text)
    onMounts fun mounts => mounts.closeHandle env.now id
    Tx.write fun db => db.reapOrphanInodes env.now
    return version.number

/-- The dirty handles of a user with some session, in the order of their ids. -/
def Mounts.pending (mounts : Mounts) (condition : Handle -> Bool) : List (Nat × Nat) :=
  ((mounts.handles.entries.filter fun entry => condition entry.2 && entry.2.dirty).map
    fun entry => (entry.1, entry.2.dirtyGeneration)).insertionSort fun left right =>
      left.1 <= right.1

/-- `vexfs_mount_publish_close_all`; a limit of 0 is none. -/
def mountPublishCloseAll (env : Env) (session : String) (durability : Durability) (limit : Nat) :
    Sql H Nat := do
  rejectIf (session = "") ⟨"VEXFS_INVALID_SESSION: session id is required", "22023"⟩
  requireWorkspace env .write
  requireSession env (some session)
  let found <- reading fun db : Db H => db.mounts.pending fun row =>
    row.ownerOid = env.user.oid && row.session = some session && row.state = .opened
  let pending := if limit = 0 then found else found.take limit
  if pending = [] then return 0
  else
    beginCommitBatch
    pending.forM fun handle =>
      Tx.discard (handlePublishClose env handle.1 handle.2 durability)
    endCommitBatch
    return pending.length

/-- The checks of `vexfs_mount_publish_close_claimed` on one claim: the version of a
handle that was published and closed before. -/
def checkClaim (env : Env) (session : String) (claim : Nat × Nat) : Sql H (Option Nat) := do
  let handle <- require (fun db : Db H => (db.mounts.handles.get claim.1).filter fun row =>
      row.ownerOid = env.user.oid && row.session = some session)
    ⟨"VEXFS_HANDLE_NOT_FOUND: claimed handle is unavailable", "P0002"⟩
  if handle.state = .closed ∧ claim.2 <= handle.publishedGeneration then
    return some handle.expectedVersion
  else
    rejectIf (handle.state ≠ .opened ∨ handle.dirtyGeneration ≠ claim.2 ∨ !handle.dirty)
      ⟨"VEXFS_STALE_GENERATION: claimed handle changed before publish", "40001"⟩
    return none

/-- The first loop of `vexfs_mount_publish_close_claimed`, after some handles. -/
def checkClaims (env : Env) (session : String) :
    List Nat -> List (Nat × Nat) -> Sql H (List (Option Nat))
  | _, [] => return []
  | seen, claim :: claims => do
    rejectIf (claim.1 ∈ seen)
      ⟨"VEXFS_INVALID_BATCH: claim is empty or duplicated", "22023"⟩
    let published <- checkClaim env session claim
    let others <- checkClaims env session (claim.1 :: seen) claims
    return published :: others

/-- Publish a claim unless it was published before: its version. -/
def publishClaim (env : Env) (durability : Durability) (claim : (Nat × Nat) × Option Nat) :
    Sql H Nat :=
  match claim.2 with
  | some version => return version
  | none => handlePublishClose env claim.1.1 claim.1.2 durability

/-- `vexfs_mount_publish_close_claimed`: the versions of the claims. -/
def mountPublishCloseClaimed (env : Env) (session : String) (durability : Durability)
    (claims : List (Nat × Nat)) : Sql H (List Nat) := do
  rejectIf (session = "") ⟨"VEXFS_INVALID_SESSION: session id is required", "22023"⟩
  rejectIf (claims.length < 1 ∨ claims.length > 64)
    ⟨"VEXFS_INVALID_BATCH: claims must contain 1..64 handles", "22023"⟩
  requireWorkspace env .write
  requireSession env (some session)
  let published <- checkClaims env session [] claims
  let dirty := published.any Option.isNone
  onlyIf dirty beginCommitBatch
  let versions <- (claims.zip published).mapM (publishClaim env durability)
  onlyIf dirty endCommitBatch
  return versions

/-- `vexfs_write_range`. -/
def writeRange (env : Env) (path : Bytes) (offset : Nat) (content : Bytes) (request : String)
    (session : Option String) (durability : Durability) : Sql H ReplayResult := do
  rejectIf (offset > maxFileBytes ∨ offset + content.length > maxFileBytes)
    ⟨"VEXFS_INVALID_RANGE: write exceeds 128 MiB", "22023"⟩
  requireWorkspace env .write
  requireSession env session
  onceOnly env request "write_range"
    (.bytes path :: .integer offset :: contentArguments content ++
      [sessionArgument session, .bytes (textBytes durability.text)]) do
    let inode <- checked fun db : Db H => db.resolvePath env.user path
    let row <- require (fun db : Db H => db.tree.liveInode inode)
      ⟨"query returned no rows", "P0002"⟩
    rejectIf (row.kind ≠ .file) ⟨"VEXFS_NOT_REGULAR_FILE", "42809"⟩
    requireInodePermission env inode .write
    let key <- writableParent env path
    if content = [] then return .integer row.currentVersion
    else
      let storage ← checked fun db : Db H => db.store.resolveVersionStorage inode row.currentVersion
      let size := max storage.size (offset + content.length)
      enforceQuota (some inode) size
      let version <- reading fun db : Db H => db.store.nextVersion inode
      let manifest <- storeManifestRange storage.manifest storage.size offset content
      let commit <- recordCommit path
      insertManifestVersion env inode version commit manifest size
      advanceInode inode version size fun row =>
        { row with modifiedAt := env.now, changedAt := env.now }
      onTree fun tree => tree.touch env.now key.1
      return .integer version

/-! ## Closing -/

/-- `vexfs_handle_close`. -/
def handleClose (env : Env) (id : Nat) (retain : Bool) (request : String) :
    Sql H ReplayResult := do
  let handle <- require (fun db : Db H => (db.mounts.handles.get id).filter fun row =>
    row.ownerOid = env.user.oid) ⟨"VEXFS_HANDLE_NOT_FOUND", "P0002"⟩
  onceOnly env request "handle_close" [.integer id, .flag retain] do
    if retain && handle.dirty then
      onMounts fun mounts => mounts.updateHandle id fun row =>
        { row with state := .retained, leaseUntil := env.now + retainTime }
      Tx.write fun db => db.reapOrphanInodes env.now
      return .state .retained
    else
      onMounts fun mounts => mounts.closeHandle env.now id
      Tx.write fun db => db.reapOrphanInodes env.now
      return .state .closed

/-- `vexfs_mount_synchronize`. -/
def mountSynchronize (env : Env) (request : String) (session : Option String) :
    Sql H ReplayResult := do
  requireWorkspace env .write
  onceOnly env request "mount_synchronize" [sessionArgument session] do
    let pending <- reading fun db : Db H => db.mounts.pending fun row =>
      row.ownerOid = env.user.oid && row.state ≠ .closed && row.session = session
    pending.forM fun handle => Tx.discard (handlePublish env handle.1 handle.2 .full
      ("synchronize:" ++ (if request = "" then "anonymous" else request) ++ ":" ++
        handleText handle.1 ++ ":" ++ toString handle.2))
    return .integer pending.length

/-! ## Sessions -/

/-- What closing the client of a handle does to it. -/
def Handle.abandon (handle : Handle) (now : Nat) : Handle :=
  if handle.dirty then { handle with state := .retained, leaseUntil := now + retainTime }
  else { handle with state := .closed, leaseUntil := now }

/-- Change the rows of the handles that satisfy a condition. -/
def Mounts.updateHandles (mounts : Mounts) (condition : Handle -> Bool) (change : Handle → Handle) :
    Mounts :=
  { mounts with handles := mounts.handles.update fun _ row =>
      if condition row then change row else row }

/-- Some other session of a user is active for a handle. -/
def Mounts.heldElsewhere (mounts : Mounts) (session : String) (oid now : Nat) (handle : Handle) :
    Bool :=
  handle.session.any fun other => other ≠ session && mounts.active other oid now

/-- `vexfs_mount_session_start`. -/
def mountSessionStart (env : Env) (session : String) : Sql H Unit := do
  rejectIf (session = "" ∨ session.utf8ByteSize > 255)
    ⟨"VEXFS_INVALID_SESSION: session id must be 1..255 bytes", "22023"⟩
  requireWorkspace env .write
  onMounts fun mounts => mounts.updateHandles
    (fun row => row.state = .opened && decide (row.leaseUntil <= env.now) &&
      !row.session.any fun other => mounts.active other row.ownerOid env.now)
    fun row => row.abandon env.now
  Tx.write fun db => db.reapOrphanInodes env.now
  let other <- reading fun db : Db H => (db.mounts.sessions.get session).any fun row =>
    row.ownerOid ≠ env.user.oid
  rejectIf other ⟨"VEXFS_SESSION_CONFLICT: session id belongs to another role", "55006"⟩
  onMounts fun mounts =>
    { mounts with sessions := mounts.sessions.set session ⟨env.user.oid, env.now + leaseTime⟩ }
  onMounts fun mounts => mounts.updateHandles
    (fun row => row.ownerOid = env.user.oid && row.state = .retained && row.dirty &&
      !mounts.heldElsewhere session env.user.oid env.now row)
    fun row =>
      { row with state := .opened, session := some session, leaseUntil := env.now + leaseTime }

/-- `vexfs_mount_session_heartbeat`. -/
def mountSessionHeartbeat (env : Env) (session : String) : Sql H Unit := do
  requireWorkspace env .write
  requireSession env (some session)
  onMounts fun mounts =>
    { mounts with sessions := mounts.sessions.set session ⟨env.user.oid, env.now + leaseTime⟩ }
  onMounts fun mounts => mounts.updateHandles
    (fun row => row.session = some session && row.ownerOid = env.user.oid && row.state = .opened)
    fun row => { row with leaseUntil := env.now + leaseTime }
  onMounts fun mounts =>
    { mounts with staging := mounts.staging.filter fun id _ =>
        !(mounts.handles.get id).any fun row =>
          row.session = some session && row.ownerOid = env.user.oid && row.state = .closed }

/-- `vexfs_mount_session_end`. -/
def mountSessionEnd (env : Env) (session : String) : Sql H Unit := do
  requireWorkspace env .write
  onMounts fun mounts => mounts.updateHandles
    (fun row => row.session = some session && row.ownerOid = env.user.oid && row.state = .opened)
    fun row => row.abandon env.now
  Tx.write fun db => db.reapOrphanInodes env.now
  onMounts fun mounts =>
    { mounts with sessions := mounts.sessions.filter fun id row =>
        !(id = session && row.ownerOid = env.user.oid) }

/-- The handles that `vexfs_item_reclaim` deletes. -/
def Handle.reclaimable (handle : Handle) (now : Nat) : Bool :=
  handle.state = .closed || (handle.state = .retained && decide (handle.leaseUntil <= now))

/-- Delete the reclaimable handles, and with them what is staged for them. -/
def Mounts.reclaim (mounts : Mounts) (now : Nat) : Mounts :=
  let gone := fun id => (mounts.handles.get id).any fun row => row.reclaimable now
  { mounts with
    sessions := mounts.sessions.filter fun _ row => decide (row.leaseUntil > now)
    handles := mounts.handles.filter fun _ row => !row.reclaimable now
    staging := mounts.staging.filter fun id _ => !gone id
    stagingChunks := mounts.stagingChunks.filter fun key _ => !gone key.1 }

/-- `vexfs_item_reclaim`. -/
def itemReclaim (env : Env) (request : String) : Sql H ReplayResult := do
  requireWorkspace env .write
  onceOnly env request "item_reclaim" [] do
    let count <- reading fun db : Db H =>
      (db.mounts.handles.entries.filter fun entry => entry.2.reclaimable env.now).length
    onMounts fun mounts => mounts.reclaim env.now
    Tx.write fun db => db.reapOrphanInodes env.now
    onMounts fun mounts => mounts.expireReplays env.now
    return .integer count

end VexDB.PgFs
