import VexDB.VexFs.Staging

/-!
# Requests and handles

The calls on file handles.  A call that is given a request id first looks for a
recorded result, and records its own result at the end.  Only some of the calls
do so in the savepoint that makes their change.
-/

namespace VexDB.VexFs

open Storage Tx
open Program (exec savepoint)

/-! ## Requests -/

/-- `kRequestRetentionRows`. -/
def requestRetentionRows : Nat := 65536

/-- `kRequestPruneInterval`. -/
def requestPruneInterval : Nat := 4096

/-- The bytes of a 64-bit number, most significant first. -/
def wordBytes (value : Nat) : Bytes :=
  (List.range 8).map fun index => UInt8.ofNat (value / 256 ^ (7 - index))

/-- An argument of a call as the fingerprint takes it in. -/
def argumentBytes (bytes : Bytes) : Bytes := wordBytes bytes.length ++ bytes

/-- The bytes of a text. -/
def textBytes (text : String) : Bytes := text.toUTF8.data.toList

/-- The bytes of a signed 64-bit number. -/
def integerBytes (value : Int) : Bytes := wordBytes (value % 2 ^ 64).toNat

/-- One byte taken into one of the four states of a fingerprint. -/
def mixByte (state : UInt64) (index : Nat) (byte : UInt8) : UInt64 :=
  (state ^^^ UInt64.ofNat (byte.toNat + index * 37)) *
    (1099511628211 + UInt64.ofNat (index * 2))

/-- `RequestFingerprint`: the digest of an operation and its arguments. -/
def requestFingerprint (operation : String) (arguments : List Bytes) : List UInt64 :=
  let bytes := (textBytes operation :: arguments).flatMap argumentBytes
  ([1469598103934665603, 1099511628211, 7809847782465536322, 9650029242287828579] :
    List UInt64).mapIdx fun index start =>
      bytes.foldl (fun state byte => mixByte state index byte) start

variable {H : Type} [DecidableEq H] [Digest H]

/-- `FindRequest`: the recorded result, if the request was recorded. -/
def Db.findRequest (db : Db H) (request operation : String) (fingerprint : List UInt64) :
    Except SqlError (Option RequestResult) :=
  if request = "" then .ok none
  else
    match db.requests.get request with
    | none => .ok none
    | some row =>
      if row.operation ≠ operation then
        .error ⟨"request_id was already used by another operation", .constraint⟩
      else if row.fingerprint ≠ fingerprint then
        .error ⟨"request_id was reused with different arguments", .constraint⟩
      else .ok (some row.result)

/-- The id of the next request row. -/
def Db.nextRequestRow (db : Db H) : Nat :=
  (db.requests.entries.map fun entry => entry.2.rowid).foldr max 0 + 1

/-- Insert the row of a request: the id of the row. -/
def insertRequest (request operation : String) (fingerprint : List UInt64)
    (result : RequestResult) : Sql H Nat := do
  let taken <- reading fun db => (db.requests.get request).isSome
  rejectIf taken ⟨"UNIQUE constraint failed: _vexfs_requests", .constraint⟩
  let rowid <- reading Db.nextRequestRow
  Tx.write fun db =>
    { db with requests := db.requests.set request ⟨rowid, operation, fingerprint, result⟩ }
  return rowid

/-- `MaybePruneRequests`. -/
def Db.pruneRequests (db : Db H) (newest : Nat) : Db H :=
  if newest <= requestRetentionRows ∨ newest % requestPruneInterval ≠ 0 then db
  else
    { db with
      requests := db.requests.filter fun _ row => row.rowid > newest - requestRetentionRows }

/-- `StoreRequestInteger` and `StoreRequestText`. -/
def storeRequest (request operation : String) (fingerprint : List UInt64)
    (result : RequestResult) : Call H Unit :=
  if request = "" then return ()
  else do
    let rowid <- exec (insertRequest request operation fingerprint result)
    exec (Tx.write fun db => db.pruneRequests rowid)

/-- Look for the recorded result of a request; without one, carry out the call. -/
def onceOnly (request operation : String) (arguments : List Bytes)
    (body : List UInt64 -> Call H RequestResult) : Call H RequestResult := do
  let fingerprint := requestFingerprint operation arguments
  match <- exec (checked fun db => db.findRequest request operation fingerprint) with
  | some result => return result
  | none => body fingerprint

/-! ## Opening -/

/-- The text of a handle id: 32 hexadecimal digits. -/
def handleText (id : Nat) : Bytes :=
  (List.range 32).map fun index =>
    let digit := id / 16 ^ (31 - index) % 16
    UInt8.ofNat (if digit < 10 then 48 + digit else 87 + digit)

/-- `FindHandle`. -/
def findHandle (id : Nat) : Sql H Handle :=
  require (fun db => db.handles.get id) ⟨"handle not found", .notFound⟩

/-- Insert a handle row unless its id is taken. -/
def insertHandle (id : Nat) (row : Handle) : Sql H Unit :=
  attempt fun db =>
    if (db.handles.get id).isSome then
      .error ⟨"UNIQUE constraint failed: _vexfs_handles", .constraint⟩
    else .ok { db with handles := db.handles.set id row }

/-- The components of a path, or its error. -/
def parsed (path : Bytes) : Sql H (List Name) := checked fun _ => pathParts path

/-- The savepoint of `vexfs_handle_create`. -/
def createHandle (env : Env) (id : Nat) (parts : List Name) (mode : Nat)
    (owner : Option (Int × Int)) (session : Option String) : Sql H Unit := do
  let (parent, name) <- freeName parts
  let inode <- createInode env .file mode
  match owner with
  | none => pure ()
  | some (uid, gid) =>
    Tx.write fun db => db.updateInode inode fun row => { row with uid := uid, gid := gid }
  addDentry env parent.id name inode
  insertHandle id ⟨inode, true, 0, 1, 0, .opened, session⟩
  createStaging id 1

/-- The arguments a call on a path fingerprints. -/
def ownerArguments (owner : Option (Int × Int)) : List Bytes :=
  [integerBytes ((owner.map Prod.fst).getD 0), integerBytes ((owner.map Prod.snd).getD 0)]

/-- `vexfs_handle_create`; `id` is the random id of the new handle. -/
def handleCreate (env : Env) (id : Nat) (workspace : String) (path : Bytes) (mode : Nat)
    (owner : Option (Int × Int)) (request : String) (session : Option String) :
    Call H RequestResult := do
  exec (rejectIf (mode > 0o777)
    ⟨"mode must contain only rwx permission bits (0..0777)", .range⟩)
  onceOnly request "handle_create"
    ([textBytes workspace, path, integerBytes mode] ++ ownerArguments owner ++
      [textBytes (session.getD "")]) fun fingerprint => do
    let parts <- exec (parsed path)
    exec (rejectIf (parts = []) ⟨"workspace root already exists", .constraint⟩)
    exec (savepoint do
      exec (createHandle env id parts mode owner session)
      storeRequest request "handle_create" fingerprint (.handle id))
    return .handle id

/-- The flags of `vexfs_handle_open`. -/
structure OpenFlags where
  read : Bool
  write : Bool
  create : Bool
  truncate : Bool
  deriving DecidableEq, Repr

/-- The text of the flags. -/
def OpenFlags.text (flags : OpenFlags) : Bytes :=
  (if flags.read then [114] else []) ++ (if flags.write then [119] else []) ++
    (if flags.create then [99] else []) ++ (if flags.truncate then [116] else [])

/-- The node that `vexfs_handle_open` opens, created if the flags say so. -/
def openTarget (env : Env) (parts : List Name) (flags : OpenFlags) : Call H Node := do
  match <- tryResolveSteps parts with
  | some node => return node
  | none =>
    exec (rejectIf (!flags.create) ⟨"path not found", .notFound⟩)
    let _ <- exec (writePath env parts [])
    resolveSteps parts

/-- `vexfs_handle_open`; `id` is the random id of the new handle. -/
def handleOpen (env : Env) (id : Nat) (workspace : String) (path : Bytes) (flags : OpenFlags)
    (request : String) (session : Option String) : Call H RequestResult :=
  onceOnly request "handle_open"
    [textBytes workspace, path, flags.text, textBytes (session.getD "")] fun fingerprint => do
    exec (rejectIf (!flags.read && !flags.write) ⟨"flags must contain r or w", .mismatch⟩)
    exec (rejectIf ((flags.create || flags.truncate) && !flags.write)
      ⟨"create/truncate requires write access", .mismatch⟩)
    let parts <- exec (parsed path)
    let node <- openTarget env parts flags
    exec (rejectIf (node.row.kind ≠ .file) ⟨"path is not a file", .mismatch⟩)
    let generation := if flags.truncate then 1 else 0
    exec (insertHandle id
      ⟨node.id, flags.write, node.row.currentVersion, generation, 0, .opened, session⟩)
    if flags.truncate then exec (createStaging id generation)
    else exec (createStagingFromVersion id generation node)
    storeRequest request "handle_open" fingerprint (.handle id)
    return .handle id

/-! ## Staging -/

/-- The checks before a handle's staged content changes. -/
def writableHandle (id : Nat) : Call H Handle := do
  let handle <- exec (findHandle id)
  exec (rejectIf (handle.state ≠ .opened) ⟨"handle is not open", .notFound⟩)
  exec (rejectIf (!handle.writable) ⟨"handle is read-only", .readOnly⟩)
  return handle

/-- `vexfs_handle_stage_write`. -/
def handleStageWrite (id : Nat) (offset : Int) (patch : Bytes) (request : String) :
    Call H RequestResult :=
  onceOnly request "handle_stage_write" [handleText id, integerBytes offset, patch]
    fun fingerprint => do
    let handle <- writableHandle id
    exec (rejectIf (offset < 0 ∨ offset > maxStagedBytes)
      ⟨"write offset is out of range", .range⟩)
    exec (rejectIf (patch.length > maxStagedBytes - offset.toNat)
      ⟨"staged file is larger than 128 MiB", .tooBig⟩)
    let staging <- exec (findStaging id)
    exec (checkQuotaForContentSize handle.inode
      (max staging.logicalSize (offset.toNat + patch.length)))
    let generation <- stageWrite id handle offset.toNat patch
    storeRequest request "handle_stage_write" fingerprint (.integer generation)
    return .integer generation

/-- `vexfs_handle_truncate`. -/
def handleTruncate (id : Nat) (size : Int) (request : String) : Call H RequestResult :=
  onceOnly request "handle_truncate" [handleText id, integerBytes size] fun fingerprint => do
    let handle <- writableHandle id
    exec (rejectIf (size < 0 ∨ size > maxStagedBytes)
      ⟨"truncate size is out of range", .range⟩)
    exec (checkQuotaForContentSize handle.inode size.toNat)
    let generation <- truncateStaging id handle size.toNat
    storeRequest request "handle_truncate" fingerprint (.integer generation)
    return .integer generation

/-! ## Publishing -/

/-- `PublishHandleInTransaction`: `handle` is the handle as the caller has it. -/
def publishHandleInTransaction (env : Env) (id : Nat) (handle : Handle) (generation : Nat) :
    Sql H Nat := do
  rejectIf (handle.state = .closed) ⟨"handle is closed", .notFound⟩
  if generation <= handle.publishedGeneration then
    let node <- nodeById handle.inode
    return node.row.currentVersion
  else
    rejectIf (generation ≠ handle.dirtyGeneration)
      ⟨"generation is stale or has not been staged", .constraint⟩
    let node <- nodeById handle.inode
    rejectIf (node.row.currentVersion ≠ handle.expectedVersion)
      ⟨"write conflict: file changed after handle_open", .constraint⟩
    let version <- storeVersionFromStaging env handle.inode node.row.currentVersion id generation
    Tx.write fun db => db.updateHandle id fun row =>
      { row with expectedVersion := version, publishedGeneration := generation }
    return version

/-- Publish a handle as it is stored. -/
def publishStored (env : Env) (id generation : Nat) : Sql H Nat := do
  let handle <- findHandle id
  publishHandleInTransaction env id handle generation

/-- How far a publish has to be durable. -/
inductive Durability
  | none | data | full
  deriving DecidableEq, Repr

/-- The text of a durability. -/
def Durability.text : Durability -> String
  | .none => "none"
  | .data => "data"
  | .full => "full"

/-- `vexfs_handle_publish`. -/
def handlePublish (env : Env) (id generation : Nat) (durability : Durability) (request : String) :
    Call H RequestResult :=
  onceOnly request "handle_publish"
    [handleText id, integerBytes generation, textBytes durability.text] fun fingerprint => do
    let handle <- exec (findHandle id)
    let version <- exec (publishHandleInTransaction env id handle generation)
    storeRequest request "handle_publish" fingerprint (.integer version)
    return .integer version

/-- Remove the staged content of the handles that satisfy a condition. -/
def Db.dropStaging (db : Db H) (condition : Nat -> Bool) : Db H :=
  { db with
    stagingChunks := db.stagingChunks.filter fun key _ => !condition key.1
    staging := db.staging.filter fun id _ => !condition id }

/-- Close a handle and remove its staged content. -/
def Db.closeHandle (db : Db H) (id : Nat) : Db H :=
  (db.updateHandle id fun row => { row with state := .closed }).dropStaging fun other => other = id

/-- `vexfs_handle_publish_close`. -/
def handlePublishClose (env : Env) (id generation : Nat) : Sql H Nat := do
  let version <- publishStored env id generation
  Tx.write fun db => db.closeHandle id
  return version

/-- The savepoint of `vexfs_handle_append`. -/
def appendHandle (env : Env) (id : Nat) (handle : Handle) (suffix : Bytes) : Call H Nat := do
  let node <- exec (nodeById handle.inode)
  exec (rejectIf (node.row.kind ≠ .file) ⟨"inode is not a file", .mismatch⟩)
  exec (rejectIf (node.row.size > maxStagedBytes ∨
      suffix.length > maxStagedBytes - node.row.size)
    ⟨"file is larger than the Phase 0 limit (128 MiB)", .tooBig⟩)
  exec (checkQuotaForContentSize node.id (node.row.size + suffix.length))
  exec (Tx.write fun db => db.dropStaging fun other => other = id)
  exec (createStagingFromVersion id handle.dirtyGeneration node)
  let generation <- stageWrite id handle node.row.size suffix
  exec (publishHandleInTransaction env id
    { handle with expectedVersion := node.row.currentVersion, dirtyGeneration := generation }
    generation)

/-- `vexfs_handle_append`. -/
def handleAppend (env : Env) (id : Nat) (suffix : Bytes) (request : String) :
    Call H RequestResult :=
  onceOnly request "handle_append" [handleText id, suffix] fun fingerprint => do
    let handle <- writableHandle id
    exec (rejectIf (handle.dirtyGeneration ≠ handle.publishedGeneration)
      ⟨"append requires a clean handle", .constraint⟩)
    exec (savepoint do
      let version <- appendHandle env id handle suffix
      storeRequest request "handle_append" fingerprint (.integer version)
      return .integer version)

/-! ## Closing -/

/-- The text of the state a close leaves. -/
def closedText (retain : Bool) : String := if retain then "retained" else "closed"

/-- `vexfs_handle_close`. -/
def handleClose (id : Nat) (retainRequested : Bool) (request : String) : Call H RequestResult :=
  onceOnly request "handle_close" [handleText id, integerBytes (if retainRequested then 1 else 0)]
    fun fingerprint => do
    let handle <- exec (findHandle id)
    let retain := retainRequested && decide (handle.dirtyGeneration > handle.publishedGeneration)
    exec (Tx.write fun db => db.updateHandle id fun row =>
      { row with state := if retain then .retained else .closed })
    if !retain then
      exec (Tx.write fun db => { db with
        stagingChunks := db.stagingChunks.filter fun key _ => key.1 ≠ id })
      exec (Tx.write fun db => { db with staging := db.staging.filter fun other _ => other ≠ id })
    storeRequest request "handle_close" fingerprint (.text (closedText retain))
    return .text (closedText retain)

end VexDB.VexFs
