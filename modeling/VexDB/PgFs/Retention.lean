import Mathlib.Data.Prod.Lex
import VexDB.PgFs.Snapshots

/-!
# Retention and garbage collection

A version is kept if it is the current version of a live inode, recent enough by
the policy, shown by a snapshot, or the source of an alias that is kept for one of
these reasons.  A collection deletes a batch of the others, aliases first, with the
manifests and chunks nothing refers to any more; a manifest that the staged content
of a handle is based on cannot be deleted, and then the whole call fails.
-/

namespace VexDB.PgFs

open Storage Tx
open VexFs (Bytes Name Kind DentryKey XattrKey Digest)

variable {H : Type} [DecidableEq H] [Digest H]

namespace Db

/-- The row number of a version among the versions of its inode, the latest first. -/
def versionRank (db : Db H) (inode number : Nat) : Nat :=
  (db.store.versions.keys.filter fun key => key.1 = inode && decide (number <= key.2)).length

/-- A live inode that is not a directory is at a version. -/
def currentAt (db : Db H) (inode number : Nat) : Bool :=
  decide (0 < number) && (db.tree.inodes.get inode).any fun row =>
    row.counted && row.currentVersion = number

/-- Some snapshot shows an inode that is not a directory at a version. -/
def snapshotAt (db : Db H) (inode number : Nat) : Bool :=
  decide (0 < number) && db.history.snapshots.entries.any fun snapshot =>
    ((db.history.snapshotInodes snapshot.2.commit).get inode).any fun row =>
      row.kind ≠ .directory && row.currentVersion = number

/-- `direct_keep` of `retention_keep_versions`. -/
def directKeep (db : Db H) (now inode number : Nat) : Bool :=
  db.currentAt inode number ||
    ((db.store.versions.get (inode, number)).isSome &&
      decide (0 < db.workspace.retentionKeepVersions) &&
      decide (db.versionRank inode number <= db.workspace.retentionKeepVersions)) ||
    ((db.store.versions.get (inode, number)).any fun version =>
      decide (0 < db.workspace.retentionKeepDays) &&
        decide (now <= version.createdAt + db.workspace.retentionKeepDays * dayTime)) ||
    db.snapshotAt inode number

/-- `retention_keep_versions`. -/
def retentionKeepVersions (db : Db H) (now : Nat) (key : Nat × Nat) : Bool :=
  db.directKeep now key.1 key.2 ||
    db.store.versions.entries.any fun entry =>
      entry.1.1 = key.1 && entry.2.source = some key.2 && db.directKeep now key.1 entry.1.2

/-- The number of versions that `retention_status` reports as reclaimable. -/
def reclaimableVersions (db : Db H) (now : Nat) : Nat :=
  (db.store.versions.keys.filter fun key => !db.retentionKeepVersions now key).length

end Db

/-- `vexfs_quota_set`. -/
def quotaSet (env : Env) (maxBytes maxFiles maxFileBytes : Option Nat) : Sql H Unit := do
  requireWorkspace env .admin
  onWorkspace fun workspace =>
    { workspace with
      quotaMaxBytes := maxBytes
      quotaMaxFiles := maxFiles
      quotaMaxFileBytes := maxFileBytes }

/-- `vexfs_retention_set`. -/
def retentionSet (env : Env) (keepVersions keepDays : Nat) : Sql H Unit := do
  rejectIf (keepVersions > 1000000)
    ⟨"VEXFS_INVALID_RETENTION: keep_versions must be between 0 and 1000000", "22023"⟩
  rejectIf (keepDays > 36500)
    ⟨"VEXFS_INVALID_RETENTION: keep_days must be between 0 and 36500", "22023"⟩
  requireWorkspace env .admin
  onWorkspace fun workspace =>
    { workspace with retentionKeepVersions := keepVersions, retentionKeepDays := keepDays }

/-- `vexfs_gc_pause`. -/
def gcPause (env : Env) (paused : Bool) : Sql H Unit := do
  requireWorkspace env .admin
  onWorkspace fun workspace => { workspace with gcPaused := paused }

/-! ## Collection -/

/-- The order in which `vexfs_gc` takes versions: aliases first, then by age. -/
def collectedBefore (left right : (Nat × Nat) × Version H) : Prop :=
  toLex (left.2.source.isNone, toLex (left.2.createdAt, toLex left.1)) <=
    toLex (right.2.source.isNone, toLex (right.2.createdAt, toLex right.1))

instance (left right : (Nat × Nat) × Version H) : Decidable (collectedBefore left right) :=
  inferInstanceAs (Decidable (_ <= _))

namespace Store

/-- Some version is an alias of a version. -/
def aliased (store : Store H) (key : Nat × Nat) : Bool :=
  store.versions.entries.any fun entry => entry.1.1 = key.1 && entry.2.source = some key.2

/-- Some version has a manifest. -/
def manifestUsed (store : Store H) (manifest : Nat) : Bool :=
  store.versions.entries.any fun entry => entry.2.manifest = some manifest

/-- Some manifest has a chunk. -/
def chunkUsed (store : Store H) (chunk : Nat) : Bool :=
  store.manifestChunks.entries.any fun entry => entry.2 = chunk

/-- Delete versions. -/
def deleteVersions (store : Store H) (keys : List (Nat × Nat)) : Store H :=
  { store with versions := store.versions.filter fun key _ => !keys.contains key }

/-- Delete manifests, and with them their lists of chunks. -/
def deleteManifests (store : Store H) (condition : Nat -> Bool) : Store H :=
  { store with
    manifests := store.manifests.filter fun manifest _ => !condition manifest
    manifestChunks := store.manifestChunks.filter fun key _ =>
      !(condition key.1 && (store.manifests.get key.1).isSome) }

/-- Delete the chunks of no manifest. -/
def deleteChunks (store : Store H) : Store H :=
  { store with chunks := store.chunks.filter fun chunk _ => store.chunkUsed chunk }

end Store

/-- The versions `vexfs_gc` deletes. -/
def Db.collectable (db : Db H) (now batch : Nat) : List ((Nat × Nat) × Version H) :=
  ((db.store.versions.entries.filter fun entry =>
    !db.retentionKeepVersions now entry.1 &&
      (entry.2.source.isSome || !db.store.aliased entry.1)).insertionSort
        collectedBefore).take batch

/-- Delete versions with the manifests and chunks they leave unused: the size of the
chunks. -/
def collectVersions (candidates : List ((Nat × Nat) × Version H)) : Sql H Nat :=
  if candidates = [] then return 0
  else do
    onStore fun store => store.deleteVersions (candidates.map Prod.fst)
    let manifests := candidates.filterMap fun entry => entry.2.manifest
    let unused <- reading fun db : Db H => fun manifest =>
      manifests.contains manifest && !db.store.manifestUsed manifest
    let db <- reading (fun db : Db H => db)
    rejectIf (db.mounts.staging.entries.any fun entry =>
        entry.2.baseManifest.any fun manifest =>
          unused manifest && (db.store.manifests.get manifest).isSome)
      ⟨"update or delete on table manifests violates foreign key constraint handle_staging_base_manifest_id_fkey",
        "23503"⟩
    onStore fun store => store.deleteManifests unused
    let reclaimed <- reading fun db : Db H =>
      (db.store.chunks.entries.filter fun entry => !db.store.chunkUsed entry.1).map fun entry =>
        entry.2.size
    onStore Store.deleteChunks
    return reclaimed.sum

/-- The commit below which nothing can be restored. -/
def Db.metadataFloor (db : Db H) : Nat :=
  ((db.history.snapshots.entries.map fun entry => entry.2.commit).min?).getD db.workspace.headCommit

/-- What `vexfs_gc` reports. -/
structure GcReport where
  deletedVersions : Nat
  reclaimedBytes : Nat
  metadataFloorCommit : Nat
  metadataCompacted : Bool
  remainingVersions : Nat
  remainingReclaimableVersions : Nat
  hasMore : Bool
  deriving DecidableEq, Repr

/-- `vexfs_gc`. -/
def gc (env : Env) (batch : Nat) : Sql H GcReport := do
  rejectIf (batch < 1 ∨ batch > 10000)
    ⟨"VEXFS_INVALID_GC_BATCH: batch must be between 1 and 10000", "22023"⟩
  requireWorkspace env .admin
  let paused <- reading fun db : Db H => db.workspace.gcPaused
  rejectIf paused ⟨"VEXFS_GC_PAUSED: workspace GC is paused", "55006"⟩
  let candidates <- reading fun db : Db H => db.collectable env.now batch
  let reclaimed <- collectVersions candidates
  Tx.write fun db => db.captureMetadataCheckpoint db.workspace.headCommit
  let floor <- reading fun db : Db H => db.metadataFloor
  let compacts <- reading fun db : Db H => decide (floor > db.workspace.historyFloor)
  onlyIf compacts (compactMetadataHistory floor)
  let db <- reading (fun db : Db H => db)
  let reclaimable := db.reclaimableVersions env.now
  return {
    deletedVersions := candidates.length
    reclaimedBytes := reclaimed
    metadataFloorCommit := if compacts then floor else db.workspace.historyFloor
    metadataCompacted := compacts
    remainingVersions := db.store.versions.keys.length
    remainingReclaimableVersions := reclaimable
    hasMore := decide (0 < reclaimable) }

end VexDB.PgFs
