import VexDB.PgFs.Content

/-!
# Files and directories

The functions that create, link, move and remove names, and those that write
content by path.  Each of them makes its own selection of checks: some look at
the kind of the directory they put a name into, others do not.
-/

namespace VexDB.PgFs

open Storage Tx
open VexFs (Bytes Name Kind DentryKey Digest slash)

variable {H : Type} [DecidableEq H] [Digest H]

/-! ## Creating -/

/-- The row of a new inode. -/
def newInode (env : Env) (kind : Kind) (mode : Nat) (version size : Nat) : Inode where
  kind := kind
  mode := mode
  ownerOid := env.user.oid
  ownerRole := env.user.name
  ownerPrincipal := env.user.name
  uid := 0
  gid := 0
  aclSet := none
  currentVersion := version
  size := size
  live := true
  createdAt := env.now
  accessedAt := env.now
  modifiedAt := env.now
  changedAt := env.now

/-- Insert an inode under the next value of its sequence. -/
def insertInode (row : Inode) : Sql H Nat := do
  let inode <- nextval Sequences.inode fun sequences next => { sequences with inode := next }
  attempt fun db =>
    if (db.tree.inodes.get inode).isSome then
      .error ⟨"duplicate key value violates unique constraint inodes_pkey", "23505"⟩
    else .ok { db with tree := db.tree.insertInode inode row }
  return inode

/-- Insert a directory entry. -/
def insertDentry (key : DentryKey) (inode : Nat) : Sql H Unit :=
  attempt fun db =>
    if (db.tree.dentries.get key).isSome then
      .error ⟨"duplicate key value violates unique constraint dentries_pkey", "23505"⟩
    else .ok { db with tree := db.tree.insertDentry key inode }

/-- Insert an inode and its first entry, with the access control set it inherits. -/
def insertNode (key : DentryKey) (row : Inode) : Sql H Nat := do
  let inode <- insertInode row
  insertDentry key inode
  inheritAcl key.1 inode
  return inode

/-- The rows of an inode that must exist. -/
def inodeRow (inode : Nat) : Sql H Inode :=
  require (fun db => db.tree.inodes.get inode) ⟨"query returned no rows", "P0002"⟩

/-- Raise an error if an inode is not a directory. -/
def requireDirectory (inode : Nat) : Sql H Unit := do
  let row <- reading fun db => db.tree.inodes.get inode
  rejectIf (row.any fun row => row.kind ≠ .directory) ⟨"VEXFS_NOT_DIRECTORY", "42809"⟩

/-- Raise an error if a name is taken. -/
def requireFree (key : DentryKey) : Sql H Unit := do
  let taken <- reading fun db => (db.tree.dentries.get key).isSome
  rejectIf taken ⟨"VEXFS_ALREADY_EXISTS", "23505"⟩

/-- The parent of a path, which the caller must be allowed to write. -/
def writableParent (env : Env) (path : Bytes) : Sql H DentryKey := do
  let key <- checked fun db => db.resolveParent env.user path
  requireInodePermission env key.1 .write
  return key

/-- The loop of `vexfs_mkdir` from a directory: the last directory, and whether one
was created. -/
def mkdirFrom (env : Env) (recursive : Bool) : Nat -> List Name -> Bool -> Sql H (Nat × Bool)
  | parent, [], created => return (parent, created)
  | parent, part :: parts, created => do
    requireInodePermission env parent .execute
    match <- reading fun db => db.tree.dentries.get (parent, part) with
    | some next =>
      requireDirectory next
      mkdirFrom env recursive next parts created
    | none =>
      requireInodePermission env parent .write
      rejectIf (!recursive && parts ≠ [])
        ⟨"VEXFS_PATH_NOT_FOUND: parent directory is missing", "P0002"⟩
      let next <- insertNode (parent, part) (newInode env .directory 493 0 0)
      onTree fun tree => tree.touch env.now parent
      mkdirFrom env recursive next parts true

/-- `vexfs_mkdir`. -/
def mkdir (env : Env) (path : Bytes) (recursive : Bool) : Sql H Nat := do
  requireWorkspace env .write
  let parts <- checked fun _ => pathParts path
  let root <- reading fun db => db.workspace.rootInode
  if parts = [] then return root
  else
    let (inode, created) <- mkdirFrom env recursive root parts false
    Tx.onlyIf created (Tx.discard (recordCommit path))
    return inode

/-- `vexfs_create`. -/
def create (env : Env) (path : Bytes) (directory : Bool) (mode : Nat) : Sql H Nat := do
  rejectIf (mode > 4095) ⟨"VEXFS_INVALID_MODE", "22023"⟩
  requireWorkspace env .write
  let key <- writableParent env path
  requireDirectory key.1
  requireFree key
  if directory then
    let inode <- insertNode key (newInode env .directory mode 0 0)
    let _ <- recordCommit path
    onTree fun tree => tree.touch env.now key.1
    return inode
  else
    enforceQuota none 0
    let inode <- insertNode key (newInode env .file mode 1 0)
    let commit <- recordCommit path
    onTree fun tree => tree.touch env.now key.1
    let manifest <- storeManifest none []
    insertManifestVersion env inode 1 commit manifest 0
    return inode

/-- An entry of `vexfs_create_batch`. -/
structure BatchEntry where
  name : Name
  directory : Bool
  mode : Nat
  deriving DecidableEq, Repr

/-- The names `vexfs_create_batch` lets through. -/
def BatchEntry.named (entry : BatchEntry) : Bool :=
  (checkPart entry.name).toBool && !entry.name.contains slash

/-- Create one entry of a batch: its inode. -/
def createEntry (env : Env) (parent : Nat) (aclSet : Option Nat) (entry : BatchEntry) :
    Sql H Nat := do
  let kind : Kind := if entry.directory then .directory else .file
  let inode <- insertInode { newInode env kind entry.mode (if entry.directory then 0 else 1) 0 with
    aclSet := aclSet }
  insertDentry (parent, entry.name) inode
  return inode

/-- Give a file of a batch its first version. -/
def createEntryVersion (env : Env) (commit manifest : Nat) (created : BatchEntry × Nat) :
    Sql H Unit :=
  if created.1.directory then return ()
  else insertManifestVersion env created.2 1 commit manifest 0

/-- The manifest of the files of a batch. -/
def batchManifest (files : Nat) : Sql H Nat := if files > 0 then storeManifest none [] else return 0

/-- `vexfs_create_batch`. -/
def createBatch (env : Env) (parentPath : Bytes) (entries : List BatchEntry) : Sql H Unit := do
  rejectIf (entries.length < 1 ∨ entries.length > 1000)
    ⟨"VEXFS_INVALID_BATCH: entries must contain 1..1000 items", "22023"⟩
  rejectIf (!entries.all BatchEntry.named) ⟨"VEXFS_INVALID_NAME", "22023"⟩
  rejectIf (entries.any fun entry => decide (entry.mode > 4095)) ⟨"VEXFS_INVALID_MODE", "22023"⟩
  rejectIf (¬ (entries.map BatchEntry.name).Nodup)
    ⟨"VEXFS_INVALID_BATCH: entry names must be unique", "22023"⟩
  requireWorkspace env .write
  let parent <- checked fun db => db.resolvePath env.user parentPath
  requireInodePermission env parent .write
  requireDirectory parent
  let path <- require (fun db => db.pathForInode parent)
    ⟨"VEXFS_CORRUPT: batch parent is not reachable", "XX001"⟩
  rejectIf (entries.any fun entry => decide ((Db.extendPath path entry.name).length > 4096))
    ⟨"VEXFS_PATH_TOO_LONG: batch child path exceeds 4096 bytes", "22023"⟩
  entries.forM fun entry => requireFree (parent, entry.name)
  let files := (entries.filter fun entry => !entry.directory).length
  let db <- reading (fun db : Db H => db)
  rejectIf (db.workspace.quotaMaxFiles.any fun limit =>
      decide (db.tree.liveFiles + files > limit))
    ⟨"VEXFS_QUOTA_FILES: workspace file quota exceeded", "53100"⟩
  let aclSet <- inheritedAclSet parent
  let inodes <- entries.mapM (createEntry env parent aclSet)
  let manifest <- batchManifest files
  let commit <- recordCommit path
  (entries.zip inodes).forM (createEntryVersion env commit manifest)
  onTree fun tree => tree.touch env.now parent

/-- `vexfs_symlink`. -/
def symlink (env : Env) (path target : Bytes) : Sql H Nat := do
  rejectIf (target = [] ∨ target.length > 4096 ∨ 0 ∈ target)
    ⟨"VEXFS_INVALID_SYMLINK: target must be 1..4096 bytes without NUL", "22023"⟩
  requireWorkspace env .write
  let key <- writableParent env path
  requireFree key
  enforceQuota none target.length
  let inode <- insertNode key (newInode env .symlink 511 1 target.length)
  let manifest <- storeManifest none target
  let commit <- recordCommit path
  insertManifestVersion env inode 1 commit manifest target.length
  onTree fun tree => tree.touch env.now key.1
  return inode

/-- `vexfs_link`. -/
def link (env : Env) (source target : Bytes) : Sql H Nat := do
  requireWorkspace env .write
  let inode <- checked fun db => db.resolvePath env.user source
  requireInodePermission env inode .read
  let row <- inodeRow inode
  rejectIf (row.kind ≠ .file)
    ⟨"VEXFS_INVALID_HARDLINK: source must be a regular file", "22023"⟩
  let key <- writableParent env target
  requireFree key
  insertDentry key inode
  onTree fun tree => tree.touch env.now key.1
  let _ <- recordCommit target
  return inode

/-! ## Content by path -/

/-- Give an inode a new current version with a size. -/
def advanceInode (inode version size : Nat) (stamp : Inode -> Inode) : Sql H Unit :=
  onTree fun tree => tree.updateInode inode fun row =>
    stamp { row with currentVersion := version, size := size }

/-- The inode `vexfs_write` writes: its id, the manifest it had, and its new version. -/
def writeTarget (env : Env) (key : DentryKey) (size : Nat) : Sql H (Nat × Option Nat × Nat) := do
  match <- reading fun db => db.tree.dentries.get key with
  | some inode =>
    let row <- inodeRow inode
    rejectIf (row.kind ≠ .file) ⟨"VEXFS_NOT_REGULAR_FILE", "42809"⟩
    requireInodePermission env inode .write
    enforceQuota (some inode) size
    let version <- reading fun db : Db H => db.store.nextVersion inode
    let previous <- currentManifest inode row.currentVersion
    advanceInode inode version size fun row => { row with modifiedAt := env.now }
    return (inode, previous, version)
  | none =>
    enforceQuota none size
    let inode <- insertNode key (newInode env .file 420 1 size)
    return (inode, none, 1)

/-- `vexfs_write`. -/
def write (env : Env) (path content : Bytes) : Sql H Nat := do
  requireWorkspace env .write
  let parts <- checked fun _ => pathParts path
  rejectIf (parts = []) ⟨"VEXFS_IS_DIRECTORY: cannot write workspace root", "42809"⟩
  let key <- writableParent env path
  requireDirectory key.1
  let (inode, previous, version) <- writeTarget env key content.length
  let manifest <- storeManifest previous content
  let commit <- recordCommit path
  insertManifestVersion env inode version commit manifest content.length
  onTree fun tree => tree.updateInode inode fun row => { row with changedAt := env.now }
  onTree fun tree => tree.touch env.now key.1
  return version

/-- `vexfs_read`. -/
def read (env : Env) (path : Bytes) : Sql H Bytes := do
  requireWorkspace env .read
  let inode <- checked fun db => db.resolvePath env.user path
  requireInodePermission env inode .read
  let row <- inodeRow inode
  rejectIf (row.kind ≠ .file) ⟨"VEXFS_NOT_REGULAR_FILE", "42809"⟩
  if row.currentVersion = 0 then return []
  else checked fun db => db.store.readVersionContent inode row.currentVersion

/-- `vexfs_append`. -/
def append (env : Env) (inode : Nat) (content : Bytes) : Sql H Nat := do
  requireWorkspace env .write
  requireInodePermission env inode .write
  requireWorkspace env .read
  requireInodePermission env inode .read
  let path <- require (fun db => db.pathForInode inode) ⟨"VEXFS_INODE_NOT_FOUND", "P0002"⟩
  let current <- read env path
  write env path (current ++ content)

/-- `vexfs_restore_version`. -/
def restoreVersion (env : Env) (path : Bytes) (number expected : Nat) : Sql H Nat := do
  requireWorkspace env .write
  let inode <- checked fun db => db.resolvePath env.user path
  requireInodePermission env inode .write
  let row <- inodeRow inode
  rejectIf (row.kind = .directory) ⟨"VEXFS_IS_DIRECTORY", "42809"⟩
  rejectIf (row.currentVersion ≠ expected) ⟨"VEXFS_VERSION_CONFLICT", "40001"⟩
  let storage <- checked fun db => db.store.resolveVersionStorage inode number
  let version <- reading fun db : Db H => db.store.nextVersion inode
  let commit <- recordCommit path
  insertVersion inode version
    ⟨commit, none, some storage.canonicalVersion, storage.size, storage.checksum, env.now⟩
  advanceInode inode version storage.size fun row =>
    { row with modifiedAt := env.now, changedAt := env.now }
  return version

/-! ## Moving and removing -/

/-- The entry under a key and the row of its inode. -/
def entryAt (key : DentryKey) : Sql H (Nat × Inode) :=
  require (fun db => (db.tree.dentries.get key).bind fun inode =>
    (db.tree.inodes.get inode).map fun row => (inode, row)) ⟨"VEXFS_PATH_NOT_FOUND", "P0002"⟩

/-- Raise an error if an inode is a directory with another inode below it.  The
query does not end when the entries below the directory form a cycle. -/
def requireNoCycle (inode : Nat) (row : Inode) (target : Nat) (error : String) : Sql H Unit :=
  if row.kind = .directory then do
    let (rows, last) <- reading fun db : Db H =>
      db.tree.descendants (db.tree.dentries.entries.length + 1) [inode]
    rejectIf (last ≠ []) ⟨"the recursive query does not terminate", "57014"⟩
    rejectIf (target ∈ rows) ⟨error, "22023"⟩
  else return ()

/-- Set the times of the parents of a moved entry. -/
def touchParents (env : Env) (source target : Nat) : Sql H Unit :=
  onTree fun tree => tree.updateInodes fun inode row =>
    if inode = source ∨ inode = target then
      some { row with modifiedAt := env.now, changedAt := env.now }
    else none

/-- `vexfs_move`. -/
def move (env : Env) (source target : Bytes) : Sql H Unit := do
  requireWorkspace env .write
  let sourceKey <- checked fun db => db.resolveParent env.user source
  let targetKey <- checked fun db => db.resolveParent env.user target
  requireInodePermission env sourceKey.1 .write
  requireInodePermission env targetKey.1 .write
  let (inode, row) <- entryAt sourceKey
  requireInodePermission env inode .write
  if sourceKey = targetKey then return ()
  else
    requireDirectory targetKey.1
    requireFree targetKey
    requireNoCycle inode row targetKey.1
      "VEXFS_INVALID_MOVE: cannot move a directory into itself"
    onTree fun tree => tree.moveDentry sourceKey targetKey
    touchParents env sourceKey.1 targetKey.1
    let _ <- recordCommit target

namespace Mounts

/-- An open or retained handle is on an inode. -/
def held (mounts : Mounts) (inode : Nat) : Bool :=
  mounts.handles.entries.any fun entry => entry.2.inode = some inode && entry.2.state ≠ .closed

end Mounts

/-- What becomes of an inode that has lost an entry: a directory is no longer live,
and neither is another inode without entries and handles.  The statements differ in
which rows of the inode they update. -/
def releaseInode (env : Env) (inode : Nat) (row : Inode) (updates : Inode -> Bool) : Sql H Unit :=
  Tx.write fun db =>
    if row.kind = .directory ∨ (!db.tree.linked inode ∧ !db.mounts.held inode) then
      { db with tree := db.tree.bury env.now fun other row => other = inode && updates row }
    else db

/-- The checks of `vexfs_rename` on the entry it replaces. -/
def replaceable (replace : Bool) (row : Inode) (target : Nat) (targetRow : Inode) :
    Sql H Unit := do
  rejectIf (!replace) ⟨"VEXFS_ALREADY_EXISTS", "23505"⟩
  rejectIf ((row.kind = .directory) ≠ (targetRow.kind = .directory))
    ⟨"VEXFS_RENAME_TYPE_MISMATCH", "42809"⟩
  let nonempty <- reading fun db : Db H =>
    db.tree.dentries.entries.any fun entry => entry.1.1 = target
  rejectIf (targetRow.kind = .directory ∧ nonempty) ⟨"VEXFS_NOT_EMPTY", "2BP01"⟩

/-- The entry that a rename replaces, if there is one. -/
def replacedEntry (key : DentryKey) : Sql H (Option (Nat × Inode)) :=
  reading fun db => (db.tree.dentries.get key).bind fun inode =>
    (db.tree.inodes.get inode).map fun row => (inode, row)

/-- Delete the entry that a rename replaces. -/
def dropReplaced (env : Env) (key : DentryKey) (target : Nat) (row : Inode) : Sql H Unit := do
  onTree fun tree => tree.deleteDentry key
  releaseInode env target row fun _ => true

/-- The statements of a rename after its checks. -/
def renameEntry (env : Env) (path : Bytes) (source target : DentryKey) : Sql H Unit := do
  onTree fun tree => tree.moveDentry source target
  touchParents env source.1 target.1
  let _ <- recordCommit path

/-- `vexfs_rename`. -/
def rename (env : Env) (source target : Bytes) (replace : Bool) : Sql H Unit := do
  requireWorkspace env .write
  let sourceKey <- checked fun db => db.resolveParent env.user source
  let targetKey <- checked fun db => db.resolveParent env.user target
  requireInodePermission env sourceKey.1 .write
  requireInodePermission env targetKey.1 .write
  let (inode, row) <- entryAt sourceKey
  if sourceKey = targetKey then return ()
  else
    let cycle := "VEXFS_INVALID_RENAME: cannot move a directory into itself"
    match <- replacedEntry targetKey with
    | none =>
      requireNoCycle inode row targetKey.1 cycle
      renameEntry env target sourceKey targetKey
    | some (other, otherRow) =>
      replaceable replace row other otherRow
      if other = inode then
        onTree fun tree => tree.deleteDentry sourceKey
        onTree fun tree => tree.touch env.now sourceKey.1
        let _ <- recordCommit target
      else
        requireNoCycle inode row targetKey.1 cycle
        dropReplaced env targetKey other otherRow
        renameEntry env target sourceKey targetKey

/-- The entries that the recursive form of `vexfs_remove` deletes. -/
def Tree.removedWith (tree : Tree) (key : DentryKey) (inode : Nat) (other : DentryKey) : Bool :=
  other = key || (tree.subtree inode).contains other.1

/-- The statement of the recursive form of `vexfs_remove`.  Its parts read the
tables as of its start, so an inode that an entry leads to counts as linked even
when the statement deletes that entry. -/
def Db.removeTree (db : Db H) (now : Nat) (key : DentryKey) (inode : Nat) : Db H :=
  { db with
    tree := (db.tree.deleteDentries (db.tree.removedWith key inode)).bury now fun other row =>
      row.live &&
        ((row.kind = .directory && (db.tree.subtree inode).contains other) ||
          (row.kind ≠ .directory &&
            (db.tree.dentries.entries.any fun entry =>
              entry.2 = other && db.tree.removedWith key inode entry.1) &&
            !db.tree.linked other && !db.mounts.held other)) }

/-- Delete one entry and release its inode. -/
def removeEntry (env : Env) (key : DentryKey) (inode : Nat) (row : Inode) : Sql H Unit := do
  onTree fun tree => tree.deleteDentry key
  releaseInode env inode row Inode.live

/-- The statements of a removal after its checks. -/
def removeChecked (env : Env) (key : DentryKey) (inode : Nat) (row : Inode) (recursive : Bool) :
    Sql H Unit :=
  if row.kind = .directory ∧ recursive then
    Tx.write fun db => db.removeTree env.now key inode
  else removeEntry env key inode row

/-- `vexfs_remove`. -/
def remove (env : Env) (path : Bytes) (recursive : Bool) : Sql H Unit := do
  requireWorkspace env .write
  let key <- writableParent env path
  let (inode, row) <- entryAt key
  requireInodePermission env inode .write
  let nonempty <- reading fun db : Db H =>
    db.tree.dentries.entries.any fun entry => entry.1.1 = inode
  rejectIf (row.kind = .directory ∧ !recursive ∧ nonempty) ⟨"VEXFS_NOT_EMPTY", "2BP01"⟩
  removeChecked env key inode row recursive
  onTree fun tree => tree.touch env.now key.1
  let _ <- recordCommit path

end VexDB.PgFs
