import Mathlib.Algebra.BigOperators.Group.Finset.Basic
import Mathlib.Order.Lattice.Nat
import VexDB.VexFs.Trees
import VexDB.VexFs.Mounts

/-!
# Snapshots

A snapshot names a commit.  Restoring one rebuilds the live tables from the rows
recorded for its commit, gives every file whose version numbers have moved on a
new version that is an alias of the recorded one, and commits the result.
-/

namespace VexDB.VexFs

open Storage Tx

variable {H : Type}

/-! ## Usage of a tree -/

/-- `QuotaStats`. -/
structure QuotaStats where
  liveFiles : Nat
  liveBytes : Nat
  largestFileBytes : Nat
  deriving DecidableEq, Repr

/-- `SnapshotQuotaStats`: every inode that is not a directory counts once. -/
def snapshotQuotaStats (tree : SnapshotTree) : QuotaStats :=
  let counted := (tree.filter fun node => node.2.row.kind ≠ .directory).image
    fun node => (node.2.inode, node.2.row.size)
  ⟨counted.card, ∑ file ∈ counted, file.2, counted.sup Prod.snd⟩

/-- A quantity may not grow, or stay, above its limit. -/
def exceeds (limit : Option Nat) (before after : Nat) : Bool :=
  limit.any fun bound => decide (after > bound) && decide (after ≥ before)

/-- `CheckQuotaForSnapshotRestore`. -/
def checkQuotaForSnapshotRestore (workspace : Workspace) (before after : QuotaStats) :
    Except SqlError Unit :=
  if exceeds workspace.quotaMaxFiles before.liveFiles after.liveFiles then
    .error ⟨"snapshot exceeds workspace file quota", .full⟩
  else if exceeds workspace.quotaMaxBytes before.liveBytes after.liveBytes then
    .error ⟨"snapshot exceeds workspace byte quota", .full⟩
  else if exceeds workspace.quotaMaxFileBytes before.largestFileBytes after.largestFileBytes then
    .error ⟨"snapshot exceeds maximum file size quota", .full⟩
  else .ok ()

namespace Db

/-- The sizes of the inodes that the usage counters count. -/
def countedSizes (db : Db H) : List Nat :=
  (db.inodes.entries.filter fun entry => entry.2.counted).map fun entry => entry.2.size

/-- `CurrentQuotaStats`. -/
def currentQuotaStats (db : Db H) : Except SqlError QuotaStats :=
  let stats : QuotaStats :=
    ⟨db.countedSizes.length, db.countedSizes.sum, db.countedSizes.foldr max 0⟩
  if db.workspace.liveFiles = stats.liveFiles ∧ db.workspace.liveBytes = stats.liveBytes then
    .ok stats
  else .error ⟨"workspace live quota counters are corrupt", .corrupt⟩

end Db

/-! ## Creating and dropping -/

/-- `ValidateSnapshotDefinition`. -/
def validateSnapshotDefinition (name : String) : Sql H Unit :=
  rejectIf (name = "" ∨ name.utf8ByteSize > 128 ∨ name = "HEAD")
    ⟨"snapshot name must be 1..128 bytes and not HEAD", .mismatch⟩

/-- The id of the next snapshot row. -/
def Db.nextSnapshotId (db : Db H) : Nat :=
  (db.snapshots.entries.map fun entry => entry.2.id).foldr max db.elsewhere.snapshot + 1

/-- Insert the row of a snapshot unless its name is taken. -/
def insertSnapshotRow (env : Env) (name : String) (type : SnapshotType) (commit : Nat) :
    Sql H Unit :=
  attempt fun db =>
    if (db.snapshots.get name).isSome then
      .error ⟨"UNIQUE constraint failed: _vexfs_snapshots", .constraint⟩
    else .ok { db with
      snapshots := db.snapshots.set name ⟨db.nextSnapshotId, type, commit, env.seconds⟩ }

/-- `InsertSnapshot`. -/
def insertSnapshot (env : Env) (name : String) (type : SnapshotType) (commit : Nat) :
    Sql H Unit := do
  validateSnapshotDefinition name
  checked fun db => db.validateHistoryCommit commit
  insertSnapshotRow env name type commit

/-- `vexfs_snapshot_create`. -/
def snapshotCreate (env : Env) (name : String) (expected : Option Nat) (consistent : Bool)
    (type : SnapshotType) : Sql H Nat := do
  validateSnapshotDefinition name
  let db <- reading id
  rejectIf (expected.any fun head => head ≠ db.workspace.headCommit)
    ⟨"workspace head conflict", .constraint⟩
  rejectIf (consistent && db.handles.entries.any fun entry =>
      entry.2.state ≠ .closed && entry.2.dirty)
    ⟨"workspace has unpublished file handles; synchronize the owning mount or use committed-only",
      .busy⟩
  insertSnapshot env name type db.workspace.headCommit
  return db.workspace.headCommit

section

variable [DecidableEq H] [Digest H]

namespace Db

/-- `HashManifest`. -/
def hashManifest (db : Db H) (manifest size count : Nat) : Except SqlError H := do
  let (_, sums, number, total) <- readChunks size 0 0 (db.manifestRows manifest)
  if total = size ∧ number = count ∧ number = VexFs.chunkCount size then
    return Digest.manifestChecksum size contentChunkBytes sums
  else .error ⟨"file manifest chunk count or size is corrupt", .corrupt⟩

/-- The version row and the canonical row of a node of a tree. -/
def nodeVersions (db : Db H) (node : TreeNode) : Option (Version H × Version H) :=
  (db.versions.get (node.inode, node.row.currentVersion)).bind fun version =>
    (db.versions.get (node.inode, node.canonicalVersion)).map fun canonical =>
      (version, canonical)

/-- The stored rows of a node agree with each other. -/
def contentReference (db : Db H) (node : TreeNode) (version canonical : Version H) :
    Option (Nat × Manifest H) :=
  canonical.manifest.bind fun id =>
    (db.manifests.get id).bind fun manifest =>
      if node.row.size = version.size ∧ version.size = manifest.fileSize ∧
          version.checksum = canonical.checksum ∧ version.checksum = manifest.checksum ∧
          version.size <= maxStagedBytes ∧
          manifest.chunkCount = VexFs.chunkCount version.size then some (id, manifest)
      else none

/-- The content of a node hashes to its digest. -/
def contentHashes (db : Db H) (node : TreeNode) : Bool :=
  (db.nodeVersions node).any fun rows =>
    (db.contentReference node rows.1 rows.2).any fun reference =>
      match db.hashManifest reference.1 rows.1.size reference.2.chunkCount with
      | .ok checksum => checksum = rows.1.checksum
      | .error _ => false

/-- `ValidateHistoricalSnapshotTarget`. -/
def validateHistoricalSnapshotTarget (db : Db H) (commit : Nat) : Except SqlError Unit := do
  let target <- db.treeAtCommit commit
  let before <- db.currentQuotaStats
  checkQuotaForSnapshotRestore db.workspace before (snapshotQuotaStats target)
  let files := target.filter fun node => node.2.row.kind ≠ .directory
  if ∃ node ∈ files, ((db.nodeVersions node.2).any fun rows =>
      (db.contentReference node.2 rows.1 rows.2).isNone) then
    .error ⟨"historical snapshot file content reference is corrupt", .corrupt⟩
  else if ∃ node ∈ files, (db.nodeVersions node.2).isNone then
    .error ⟨"historical snapshot references a missing file version", .corrupt⟩
  else if ∃ node ∈ files, !db.contentHashes node.2 then
    .error ⟨"historical snapshot file content checksum does not match", .corrupt⟩
  else .ok ()

/-- `ResolveCommitAtTime`: the latest commit not after a time. -/
def resolveCommitAtTime (db : Db H) (time : Nat) : Option Nat :=
  let floor := db.workspace.historyFloor.getD 0
  let candidates := db.commits.entries.filter fun entry =>
    decide (entry.2.createdAt <= time) && decide (0 < floor) && decide (floor <= entry.1)
  candidates.foldl (fun best entry =>
    match best with
    | none => some entry
    | some chosen =>
      if chosen.2.createdAt < entry.2.createdAt ∨
          chosen.2.createdAt = entry.2.createdAt ∧ chosen.1 < entry.1 then some entry
      else best) none |>.map Prod.fst

end Db

/-- `vexfs_snapshot_create_at_commit`. -/
def snapshotCreateAtCommit (env : Env) (name : String) (commit : Nat) (type : SnapshotType) :
    Sql H Nat := do
  validateSnapshotDefinition name
  rejectIf (commit = 0) ⟨"commit must be a positive integer", .range⟩
  checked fun db => db.validateHistoricalSnapshotTarget commit
  insertSnapshot env name type commit
  return commit

/-- `vexfs_snapshot_create_at_time`. -/
def snapshotCreateAtTime (env : Env) (name : String) (time : Nat) (type : SnapshotType) :
    Sql H Nat := do
  validateSnapshotDefinition name
  let commit <- require (fun db => db.resolveCommitAtTime time)
    ⟨"no restorable workspace commit exists at or before the requested time", .notFound⟩
  checked fun db => db.validateHistoricalSnapshotTarget commit
  insertSnapshot env name type commit
  return commit

end

/-- `vexfs_snapshot_drop`. -/
def snapshotDrop (name : String) : Sql H Unit := do
  let _ <- require (fun db => db.snapshots.get name) ⟨"snapshot not found: " ++ name, .notFound⟩
  Tx.write fun db => { db with snapshots := db.snapshots.erase name }

/-- `vexfs_snapshot_policy_set`. -/
def snapshotPolicySet (agentKeep safetyKeep keepDays : Nat) : Sql H Unit := do
  rejectIf (agentKeep > 1000000 ∨ safetyKeep > 1000000)
    ⟨"snapshot keep counts must be at most 1000000", .range⟩
  rejectIf (keepDays > 36500) ⟨"snapshot keep_days must be at most 36500", .range⟩
  Tx.write fun db => { db with
    workspace.snapshotAgentKeep := agentKeep
    workspace.snapshotSafetyKeep := safetyKeep
    workspace.snapshotKeepDays := keepDays }

namespace Db

/-- The number of snapshots of the same type that come before one, newest first. -/
def snapshotRank (db : Db H) (snapshot : Snapshot) : Nat :=
  db.snapshots.entries.countP fun entry =>
    entry.2.type = snapshot.type &&
      (decide (entry.2.createdAt > snapshot.createdAt) ||
        (entry.2.createdAt = snapshot.createdAt && decide (entry.2.id > snapshot.id)))

/-- The snapshots that `vexfs_snapshot_prune` deletes. -/
def prunes (db : Db H) (env : Env) (snapshot : Snapshot) : Bool :=
  (match snapshot.type with
    | .manual => false
    | .agent => decide (db.snapshotRank snapshot ≥ db.workspace.snapshotAgentKeep)
    | .safety => decide (db.snapshotRank snapshot ≥ db.workspace.snapshotSafetyKeep)) &&
    (db.workspace.snapshotKeepDays = 0 ||
      decide (snapshot.createdAt + db.workspace.snapshotKeepDays * 86400000 < env.now))

end Db

/-- `vexfs_snapshot_prune` without a dry run. -/
def snapshotPrune (env : Env) : Sql H Unit :=
  Tx.write fun db => { db with
    snapshots := db.snapshots.filter fun _ snapshot => !db.prunes env snapshot }

/-- `vexfs_quota_set`. -/
def quotaSet (maxBytes maxFiles maxFileBytes : Option Nat) : Sql H Unit :=
  Tx.write fun db => { db with
    workspace.quotaMaxBytes := maxBytes
    workspace.quotaMaxFiles := maxFiles
    workspace.quotaMaxFileBytes := maxFileBytes }

/-! ## Restoring -/

namespace Db

/-- The latest row recorded for an inode at a commit, if it is live. -/
def recorded (db : Db H) (commit inode : Nat) : Option Inode := (db.imageAt commit).inodes.get inode

/-- Delete all names and attributes and tombstone every inode. -/
def clearTree (db : Db H) (env : Env) : Db H :=
  (((db.deleteAcl fun _ => true).deleteXattrs fun _ => true).clearDentries).updateInodes
    fun _ row => some { row with deletedAt := some env.seconds }

/-- Revive the inodes that are live in an image. -/
def restoreInodes (db : Db H) (image : Image) : Db H :=
  db.updateInodes fun inode _ => image.inodes.get inode

/-- Insert the entries of an image between live inodes. -/
def restoreDentries (db : Db H) (image : Image) : Db H :=
  (image.dentries.entries.filter fun entry =>
    (image.inodes.get entry.2).isSome && (image.inodes.get entry.1.1).isSome).foldl
      (fun db entry => db.insertDentry entry.1 entry.2) db

/-- Insert the extended attributes of the live inodes of an image. -/
def restoreXattrs (db : Db H) (image : Image) : Db H :=
  (image.xattrs.entries.filter fun entry => (image.inodes.get entry.1.1).isSome).foldl
    (fun db entry => db.setXattr entry.1 entry.2) db

/-- Insert the access control entries of the live inodes of an image. -/
def restoreAcl (db : Db H) (image : Image) : Db H :=
  (image.aclEntries.entries.filter fun entry => (image.inodes.get entry.1.inode).isSome).foldl
    (fun db entry => db.setAcl entry.1 entry.2) db

/-- `RestoreWorkspaceTree`. -/
def restoreWorkspaceTree (db : Db H) (env : Env) (commit : Nat) : Db H :=
  let image := db.imageAt commit
  ((((db.clearTree env).restoreInodes image).restoreDentries image).restoreXattrs image).restoreAcl
    image

/-- The largest version number of an inode. -/
def maxVersion (db : Db H) (inode : Nat) : Option Nat :=
  ((db.versions.keys.filter fun key => key.1 = inode).map Prod.snd).max?

/-- `PrepareRestoredVersionAliases`. -/
def prepareRestoredVersionAliases (db : Db H) (commit : Nat) : Db H :=
  db.updateInodes fun inode row =>
    if row.counted then
      match db.recorded commit inode, db.maxVersion inode with
      | some target, some largest =>
        if largest > target.currentVersion then some { row with currentVersion := largest + 1 }
        else none
      | _, _ => none
    else none

/-- The version rows that `StoreRestoredVersionAliases` inserts, without their ids. -/
def restoredAliases (db : Db H) (env : Env) (target restore : Nat) :
    List ((Nat × Nat) × Version H) :=
  db.inodes.entries.filterMap fun entry =>
    if entry.2.counted then
      (db.recorded target entry.1).bind fun row =>
        (db.versions.get (entry.1, row.currentVersion)).bind fun source =>
          if entry.2.currentVersion ≠ row.currentVersion then
            some ((entry.1, entry.2.currentVersion),
              ⟨0, restore, none, row.size, source.checksum,
                some (source.source.getD row.currentVersion), env.seconds⟩)
          else none
    else none

end Db

/-- `StoreRestoredVersionAliases`. -/
def storeRestoredVersionAliases (env : Env) (target restore : Nat) : Sql H Unit := do
  let aliases <- reading fun db => db.restoredAliases env target restore
  aliases.forM fun row => do
    let id <- reading Db.nextVersionId
    insertVersion row.1.1 row.1.2 { row.2 with id := id }

/-- Two trees do not differ for `SnapshotDiffJson`, which compares everything but
the version number. -/
def sameTree (left right : SnapshotTree) : Prop :=
  let unnumbered := fun node : Path × TreeNode =>
    (node.1, { node.2 with row := { node.2.row with currentVersion := 0 } })
  left.image unnumbered = right.image unnumbered

instance (left right : SnapshotTree) : Decidable (sameTree left right) :=
  inferInstanceAs (Decidable (_ = _))

/-- `FindSnapshot`. -/
def findSnapshot (name : String) : Sql H Snapshot := do
  let snapshot <- require (fun db => db.snapshots.get name)
    ⟨"snapshot not found: " ++ name, .notFound⟩
  checked fun db => db.validateHistoryCommit snapshot.commit
  return snapshot

/-- The checks of `vexfs_snapshot_restore`: the commit to restore. -/
def restoreTarget (env : Env) (name : String) (expected : Nat) : Sql H Nat := do
  let db <- reading id
  rejectIf (db.workspace.headCommit ≠ expected)
    ⟨"workspace head conflict: expected " ++ toString expected ++ ", current " ++
      toString db.workspace.headCommit, .constraint⟩
  rejectIf (db.activeSession env).isSome
    ⟨"workspace has an active mount session; unmount before snapshot restore", .busy⟩
  let snapshot <- findSnapshot name
  rejectIf (db.handles.entries.any fun entry => entry.2.state ≠ .closed)
    ⟨"workspace has open or retained file handles", .busy⟩
  let current <- checked Db.currentTree
  let target <- checked fun db => db.treeAtCommit snapshot.commit
  rejectIf (sameTree current target) ⟨"snapshot already matches current workspace", .mismatch⟩
  checked fun db => checkQuotaForSnapshotRestore db.workspace (snapshotQuotaStats current)
    (snapshotQuotaStats target)
  return snapshot.commit

/-- The snapshot of the state before a restore. -/
def safetySnapshot (env : Env) : Option String -> Sql H Unit
  | none => return ()
  | some name => do
    let head <- reading fun db => db.workspace.headCommit
    insertSnapshotRow env name .safety head

/-- `vexfs_snapshot_restore`. -/
def snapshotRestore (env : Env) (name : String) (expected : Nat) (safety : Option String) :
    Sql H Nat := do
  rejectIf (expected = 0) ⟨"expected head must be a positive integer", .range⟩
  rejectIf (safety.any fun name => name = "" || decide (name.utf8ByteSize > 128) || name = "HEAD")
    ⟨"safety snapshot name must be 1..128 bytes and not HEAD", .mismatch⟩
  let target <- restoreTarget env name expected
  safetySnapshot env safety
  Tx.write fun db => db.restoreWorkspaceTree env target
  Tx.write fun db => db.prepareRestoredVersionAliases target
  let commit <- createCommit env
  storeRestoredVersionAliases env target commit
  return commit

end VexDB.VexFs
