import VexDB.PgFs.Handles
import VexDB.Storage.Checkpoints

/-!
# Recorded trees and snapshots

A snapshot is the number of a commit.  Creating one records the rows of the dirty
keys at the head commit, over those recorded there before, and the views show for
a snapshot the latest recorded row of each key that is not after its commit.
Restoring a snapshot makes the live rows those of the views under a new commit.
-/

namespace VexDB.PgFs

open Storage Tx Inode
open VexFs (Bytes Name Kind DentryKey XattrKey DentryState Digest SnapshotType slash)

variable {H : Type} [DecidableEq H] [Digest H]

/-! ## Captures -/

namespace Tree

/-- The rows `capture_metadata_checkpoint` puts into `inode_states`. -/
def capturedInodes (tree : Tree) (commit : Nat) : List ((Nat × Nat) × Inode) :=
  tree.dirtyInodes.filterMap fun inode =>
    (tree.inodes.get inode).map fun row => ((inode, commit), row)

/-- The rows `capture_metadata_checkpoint` puts into `dentry_states`. -/
def capturedDentries (tree : Tree) (commit : Nat) : List ((DentryKey × Nat) × DentryState) :=
  tree.dirtyDentries.entries.map fun dirty => ((dirty.1, commit),
    match tree.dentries.get dirty.1 with
    | some inode => ⟨inode, false⟩
    | none => ⟨dirty.2, true⟩)

/-- The rows `capture_metadata_checkpoint` puts into `xattr_states`. -/
def capturedXattrs (tree : Tree) (commit : Nat) : List ((XattrKey × Nat) × XattrState) :=
  tree.dirtyXattrs.entries.map fun dirty => ((dirty.1, commit),
    match tree.xattrs.get dirty.1 with
    | some xattr => ⟨xattr, false⟩
    | none => ⟨dirty.2, true⟩)

/-- Forget which keys are dirty. -/
def clean (tree : Tree) : Tree :=
  { tree with dirtyInodes := [], dirtyDentries := Table.empty, dirtyXattrs := Table.empty }

end Tree

/-- Record the rows of the dirty keys of a tree at a commit. -/
def History.record (history : History) (tree : Tree) (commit : Nat) : History :=
  { history with
    checkpoints := history.checkpoints.insert commit
    inodeStates := history.inodeStates.setAll (tree.capturedInodes commit)
    dentryStates := history.dentryStates.setAll (tree.capturedDentries commit)
    xattrStates := history.xattrStates.setAll (tree.capturedXattrs commit) }

/-- `capture_metadata_checkpoint`. -/
def Db.captureMetadataCheckpoint (db : Db H) (commit : Nat) : Db H :=
  { db with
    history := db.history.record db.tree commit
    tree := db.tree.clean
    workspace.historyFloor :=
      if db.history.checkpoints = [] then commit else db.workspace.historyFloor }

/-! ## Views -/

/-- What a recorded inode shows: the views leave out those that were not live. -/
def Inode.shown (row : Inode) : Option Inode := if row.live then some row else none

/-- What a recorded entry shows. -/
def shownDentry (row : DentryState) : Option Nat := if row.deleted then none else some row.inode

/-- What a recorded extended attribute shows. -/
def XattrState.shown (row : XattrState) : Option Xattr :=
  if row.deleted then none else some row.xattr

namespace History

/-- The rows of `snapshot_inodes` for a snapshot of a commit. -/
def snapshotInodes (history : History) (commit : Nat) : Table Nat Inode :=
  history.inodeStates.view shown commit

/-- The rows of `snapshot_dentries` for a snapshot of a commit. -/
def snapshotDentries (history : History) (commit : Nat) : Table DentryKey Nat :=
  history.dentryStates.view shownDentry commit

/-- The rows of `snapshot_xattrs` for a snapshot of a commit. -/
def snapshotXattrs (history : History) (commit : Nat) : Table XattrKey Xattr :=
  history.xattrStates.view XattrState.shown commit

/-- The tables `compact_metadata_history` leaves. -/
def compact (history : History) (floor : Nat) : History :=
  { history with
    checkpoints := history.checkpoints.filter fun commit => decide (floor <= commit)
    inodeStates := history.inodeStates.flatten shown floor
    dentryStates := history.dentryStates.flatten shownDentry floor
    xattrStates := history.xattrStates.flatten XattrState.shown floor }

end History

/-- `compact_metadata_history`. -/
def compactMetadataHistory (floor : Nat) : Sql H Unit := do
  let present <- reading fun db : Db H => db.history.checkpoints.contains floor
  rejectIf (!present) ⟨"VEXFS_METADATA_CHECKPOINT_NOT_FOUND", "XX001"⟩
  Tx.write fun db =>
    { db with
      history := db.history.compact floor
      workspace.historyFloor := max db.workspace.historyFloor floor }

/-! ## Snapshots -/

/-- Change the rows of the snapshots. -/
def onSnapshots (change : Table String Snapshot -> Table String Snapshot) : Sql H Unit :=
  Tx.write fun db => { db with history.snapshots := change db.history.snapshots }

/-- A name that does not begin or end with a blank. -/
def trimmedName (name : String) : Bool :=
  name ≠ "" && name.toList.head? ≠ some ' ' && name.toList.getLast? ≠ some ' '

/-- Some open or retained handle has content that is not published. -/
def Mounts.unpublished (mounts : Mounts) : Bool :=
  mounts.handles.entries.any fun entry => entry.2.state ≠ .closed && entry.2.dirty

/-- Insert the row of a snapshot of the head commit. -/
def insertSnapshot (env : Env) (name : String) (type : SnapshotType) (head : Nat) :
    Sql H Unit := do
  let id <- nextval Sequences.snapshot fun sequences next => { sequences with snapshot := next }
  attempt fun db =>
    if (db.history.snapshots.get name).isSome then
      .error ⟨"duplicate key value violates unique constraint snapshots_workspace_id_name_key",
        "23505"⟩
    else .ok { db with
      history.snapshots := db.history.snapshots.set name ⟨id, type, head, env.now⟩ }

/-- `vexfs_snapshot_create`; `consistent` is the mode. -/
def snapshotCreate (env : Env) (name : String) (expectedHead : Option Nat) (consistent : Bool)
    (type : SnapshotType) : Sql H Nat := do
  rejectIf (!trimmedName name) ⟨"VEXFS_INVALID_SNAPSHOT: invalid snapshot name", "22023"⟩
  requireWorkspace env .write
  let head <- reading fun db : Db H => db.workspace.headCommit
  rejectIf (expectedHead.any fun expected => expected ≠ head) ⟨"VEXFS_HEAD_CONFLICT", "40001"⟩
  let unpublished <- reading fun db : Db H => db.mounts.unpublished
  rejectIf (consistent && unpublished)
    ⟨"VEXFS_UNPUBLISHED_HANDLES: synchronize the owning mount or use committed-only", "55006"⟩
  Tx.write fun db => db.captureMetadataCheckpoint head
  insertSnapshot env name type head
  return head

/-- `vexfs_snapshot_drop`. -/
def snapshotDrop (env : Env) (name : String) : Sql H Unit := do
  requireWorkspace env .admin
  let _ <- require (fun db : Db H => db.history.snapshots.get name)
    ⟨"VEXFS_SNAPSHOT_NOT_FOUND", "P0002"⟩
  onSnapshots fun snapshots => snapshots.erase name

/-- Change the row of the workspace. -/
def onWorkspace (change : Workspace -> Workspace) : Sql H Unit :=
  Tx.write fun db => { db with workspace := change db.workspace }

/-- `vexfs_snapshot_policy_set`. -/
def snapshotPolicySet (env : Env) (agentKeep safetyKeep keepDays : Nat) : Sql H Unit := do
  rejectIf (agentKeep > 1000000 ∨ safetyKeep > 1000000)
    ⟨"VEXFS_INVALID_SNAPSHOT_POLICY: keep counts must be between 0 and 1000000", "22023"⟩
  rejectIf (keepDays > 36500)
    ⟨"VEXFS_INVALID_SNAPSHOT_POLICY: keep days must be between 0 and 36500", "22023"⟩
  requireWorkspace env .admin
  onWorkspace fun workspace =>
    { workspace with
      snapshotAgentKeep := agentKeep
      snapshotSafetyKeep := safetyKeep
      snapshotKeepDays := keepDays }

/-- A day in milliseconds. -/
def dayTime : Nat := 86400000

namespace Db

/-- The number of snapshots of the same type that are not older. -/
def snapshotRank (db : Db H) (snapshot : Snapshot) : Nat :=
  (db.history.snapshots.entries.filter fun entry => entry.2.type = snapshot.type &&
    (decide (entry.2.createdAt > snapshot.createdAt) ||
      (entry.2.createdAt = snapshot.createdAt && decide (entry.2.id ≥ snapshot.id)))).length

/-- The snapshots that `vexfs_snapshot_prune` deletes. -/
def prunable (db : Db H) (now : Nat) (snapshot : Snapshot) : Bool :=
  ((snapshot.type = .agent && decide (db.snapshotRank snapshot > db.workspace.snapshotAgentKeep)) ||
    (snapshot.type = .safety &&
      decide (db.snapshotRank snapshot > db.workspace.snapshotSafetyKeep))) &&
    (db.workspace.snapshotKeepDays = 0 ||
      decide (snapshot.createdAt + db.workspace.snapshotKeepDays * dayTime < now))

end Db

/-- `vexfs_snapshot_prune`: the number of snapshots it deletes. -/
def snapshotPrune (env : Env) (dryRun : Bool) : Sql H Nat := do
  requireWorkspace env .admin
  let db <- reading (fun db : Db H => db)
  if dryRun then return 0
  else
    onSnapshots fun snapshots => snapshots.filter fun _ snapshot => !db.prunable env.now snapshot
    return (db.history.snapshots.entries.filter fun entry =>
      db.prunable env.now entry.2).length

/-! ## Restoring -/

/-- What `vexfs_snapshot_restore` reads of a snapshot. -/
structure TargetTree where
  inodes : Table Nat Inode
  dentries : Table DentryKey Nat
  xattrs : Table XattrKey Xattr

/-- The rows the views give for a snapshot of a commit. -/
def History.target (history : History) (commit : Nat) : TargetTree :=
  ⟨history.snapshotInodes commit, history.snapshotDentries commit, history.snapshotXattrs commit⟩

/-- Two queries give the same rows. -/
def sameRows {α : Type} [DecidableEq α] (left right : List α) : Bool :=
  left.all (right.contains ·) && right.all (left.contains ·)

namespace Db

/-- The access control rows of some inodes. -/
def aclRows (db : Db H) (inodes : Table Nat Inode) : List (Nat × AclEntry) :=
  inodes.entries.flatMap fun entry =>
    ((entry.2.aclSet.bind db.aclSets.get).getD []).map fun acl => (entry.1, acl)

/-- The size and the digest of a version. -/
def versionContent (db : Db H) (inode number : Nat) : Option (Nat × H) :=
  (db.store.versions.get (inode, number)).map fun version => (version.size, version.checksum)

/-- The live row of an inode agrees with its row in a snapshot, as far as
`vexfs_snapshot_restore` compares them. -/
def matchesTarget (db : Db H) (inode : Nat) (target : Inode) : Bool :=
  (db.tree.inodes.get inode).any fun row =>
    row.kind = target.kind && row.mode = target.mode && row.ownerOid = target.ownerOid &&
      row.ownerPrincipal = target.ownerPrincipal && row.uid = target.uid &&
      row.gid = target.gid && row.size = target.size && row.createdAt = target.createdAt &&
      row.accessedAt = target.accessedAt && row.modifiedAt = target.modifiedAt &&
      row.changedAt = target.changedAt &&
      (target.kind = .directory ||
        db.versionContent inode row.currentVersion = db.versionContent inode target.currentVersion)

/-- The comparison of `vexfs_snapshot_restore` of the live rows with a snapshot. -/
def sameState (db : Db H) (target : TargetTree) : Bool :=
  sameRows db.tree.dentries.entries target.dentries.entries &&
    (target.inodes.entries.all fun entry => db.matchesTarget entry.1 entry.2) &&
    sameRows (db.tree.xattrs.entries.map fun entry => (entry.1, entry.2.value))
      (target.xattrs.entries.map fun entry => (entry.1, entry.2.value)) &&
    sameRows (db.aclRows db.tree.inodes) (db.aclRows target.inodes)

/-- A non-directory inode of a snapshot has no row for its version. -/
def missesVersion (db : Db H) (target : TargetTree) : Bool :=
  target.inodes.entries.any fun entry => entry.2.kind ≠ .directory &&
    (db.store.versions.get (entry.1, entry.2.currentVersion)).isNone

end Db

/-- The largest size of some files. -/
def largestFile (rows : List Inode) : Nat := (rows.map size).foldr max 0

/-- `enforce_snapshot_quota`. -/
def enforceSnapshotQuota (target : TargetTree) : Sql H Unit := do
  let db <- reading (fun db : Db H => db)
  let files := (target.inodes.entries.map Prod.snd).filter fun row => row.kind ≠ .directory
  let bytes := (files.map size).sum
  let live := (db.tree.inodes.entries.map Prod.snd).filter counted
  rejectIf (db.workspace.quotaMaxFileBytes.any fun limit =>
      decide (largestFile files > limit) && decide (largestFile files ≥ largestFile live))
    ⟨"VEXFS_QUOTA_FILE_SIZE: maximum file size quota exceeded", "53100"⟩
  rejectIf (db.workspace.quotaMaxBytes.any fun limit =>
      decide (bytes > limit) && decide ((bytes : Int) ≥ db.tree.liveBytes))
    ⟨"VEXFS_QUOTA_BYTES: workspace byte quota exceeded", "53100"⟩
  rejectIf (db.workspace.quotaMaxFiles.any fun limit =>
      decide (files.length > limit) && decide ((files.length : Int) ≥ db.tree.liveFiles))
    ⟨"VEXFS_QUOTA_FILES: workspace file quota exceeded", "53100"⟩

namespace Tree

/-- Insert directory entries. -/
def insertDentries (tree : Tree) (rows : Table DentryKey Nat) : Tree :=
  { tree with
    dentries := tree.dentries.setAll rows.entries
    dirtyDentries := tree.dirtyDentries.setAll rows.entries }

/-- Insert extended attributes. -/
def insertXattrs (tree : Tree) (rows : Table XattrKey Xattr) : Tree :=
  { tree with
    xattrs := tree.xattrs.setAll rows.entries
    dirtyXattrs := tree.dirtyXattrs.setAll rows.entries }

end Tree

/-- A row of an inode that gets the attributes it has in a snapshot; the current
version stays. -/
def Inode.revive (row target : Inode) : Inode :=
  { target with currentVersion := row.currentVersion, live := true }

namespace Db

/-- The version that `vexfs_snapshot_restore` adds for an inode of a snapshot: none
when there is no row for the current version, or when it has the same content. -/
def restoredVersion (db : Db H) (env : Env) (commit inode : Nat) (target : Inode) :
    Option ((Nat × Nat) × Version H) :=
  if target.kind = .directory then none
  else do
    let row <- db.tree.inodes.get inode
    let source <- db.store.versions.get (inode, target.currentVersion)
    let current <- db.store.versions.get (inode, row.currentVersion)
    if current.size = source.size ∧ current.checksum = source.checksum then none
    else some ((inode, db.store.nextVersion inode),
      ⟨commit, none, some (source.source.getD target.currentVersion), source.size,
        source.checksum, env.now⟩)

/-- The versions that `vexfs_snapshot_restore` adds. -/
def restoredVersions (db : Db H) (env : Env) (commit : Nat) (target : TargetTree) :
    List ((Nat × Nat) × Version H) :=
  target.inodes.entries.filterMap fun entry => db.restoredVersion env commit entry.1 entry.2

/-- The statement that adds versions and makes them current. -/
def addRestored (db : Db H) (env : Env) (commit : Nat) (target : TargetTree) : Db H :=
  let added := db.restoredVersions env commit target
  { db with
    store.versions := db.store.versions.setAll added
    tree := db.tree.updateInodes fun inode row =>
      (added.find? fun entry => entry.1.1 = inode).map fun entry =>
        { row with currentVersion := entry.1.2 } }

end Db

/-- The statements of `vexfs_snapshot_restore` that replace the live rows. -/
def replaceTree (env : Env) (commit : Nat) (target : TargetTree) : Sql H Unit := do
  onTree fun tree => tree.deleteDentries fun _ => true
  onTree fun tree => tree.insertDentries target.dentries
  onTree fun tree => tree.updateInodes fun _ row =>
    if row.live then some { row with live := false } else none
  onTree fun tree => tree.updateInodes fun inode row =>
    (target.inodes.get inode).map row.revive
  Tx.write fun db => db.addRestored env commit target
  onTree fun tree => tree.deleteXattrs fun _ => true
  onTree fun tree => tree.insertXattrs target.xattrs

/-- The names `vexfs_snapshot_restore` lets through for a safety snapshot. -/
def safetyName (name : String) : Bool :=
  trimmedName name && decide (name.utf8ByteSize <= 128) && name ≠ "HEAD"

/-- The checks of `vexfs_snapshot_restore` on mounted clients. -/
def requireUnmounted (env : Env) (caller : Option String) : Sql H Unit := do
  let db <- reading (fun db : Db H => db)
  rejectIf (caller.any fun session => !db.mounts.active session env.user.oid env.now)
    ⟨"VEXFS_SESSION_STALE: restore caller session is not active", "55006"⟩
  rejectIf (db.mounts.sessions.entries.any fun entry =>
      decide (entry.2.leaseUntil > env.now) && caller ≠ some entry.1)
    ⟨"VEXFS_MOUNT_BUSY: workspace has other active mount session(s); unmount all machines before snapshot restore",
      "55006"⟩
  rejectIf (db.mounts.handles.entries.any fun entry => entry.2.state ≠ .closed)
    ⟨"VEXFS_OPEN_HANDLES: close or recover all file handles before snapshot restore", "55006"⟩

/-- The checks of `vexfs_snapshot_restore` on the snapshot: the rows to restore. -/
def restoreTarget (name : String) (head : Nat) : Sql H TargetTree := do
  let snapshot <- require (fun db : Db H => db.history.snapshots.get name)
    ⟨"VEXFS_SNAPSHOT_NOT_FOUND", "P0002"⟩
  rejectIf (snapshot.commit = head)
    ⟨"VEXFS_ALREADY_MATCHES: snapshot already matches workspace head", "22000"⟩
  let db <- reading (fun db : Db H => db)
  let target := db.history.target snapshot.commit
  rejectIf (db.missesVersion target)
    ⟨"VEXFS_CORRUPT: snapshot references a missing file version", "XX001"⟩
  rejectIf (db.sameState target)
    ⟨"VEXFS_ALREADY_MATCHES: snapshot already matches workspace state", "22000"⟩
  return target

/-- The snapshot that `vexfs_snapshot_restore` takes first, if a name is given for it. -/
def safetySnapshot (env : Env) (head : Nat) : Option String -> Sql H Unit
  | none => return ()
  | some name => Tx.discard (snapshotCreate env name (some head) true .safety)

/-- `vexfs_snapshot_restore`. -/
def snapshotRestore (env : Env) (name : String) (expectedHead : Nat) (safety : Option String)
    (caller : Option String) : Sql H Nat := do
  rejectIf (safety.any fun name => !safetyName name)
    ⟨"VEXFS_INVALID_SNAPSHOT: invalid safety snapshot name", "22023"⟩
  requireWorkspace env .write
  let head <- reading fun db : Db H => db.workspace.headCommit
  rejectIf (head ≠ expectedHead) ⟨"VEXFS_HEAD_CONFLICT", "40001"⟩
  requireUnmounted env caller
  let target <- restoreTarget name head
  enforceSnapshotQuota target
  safetySnapshot env head safety
  let commit <- recordCommit [slash]
  replaceTree env commit target
  Tx.write fun db => db.captureMetadataCheckpoint commit
  return commit

end VexDB.PgFs
