import VexDB.VexFs.Snapshots

/-!
# Retention and garbage collection

`vexfs_gc` deletes a batch of file versions that nothing keeps.  With a version
it deletes the inode history rows that carry its number, its manifest, and the
chunks that no manifest uses any more.
-/

namespace VexDB.VexFs

open Storage Tx

variable {H : Type}

/-- `vexfs_retention_set`. -/
def retentionSet (keepVersions keepDays : Nat) : Sql H Unit := do
  rejectIf (keepVersions > 1000000) ⟨"keep_versions must be at most 1000000", .range⟩
  rejectIf (keepDays > 36500) ⟨"keep_days must be at most 36500", .range⟩
  Tx.write fun db => { db with
    workspace.retentionKeepVersions := keepVersions
    workspace.retentionKeepDays := keepDays }

/-- `vexfs_gc_pause`. -/
def gcPause (paused : Bool) : Sql H Unit :=
  Tx.write fun db => { db with workspace.gcPaused := paused }

namespace Db

/-! ## The keep set -/

/-- The current versions. -/
def keptCurrent (db : Db H) : List (Nat × Nat) :=
  db.inodes.entries.filterMap fun entry =>
    if entry.2.counted ∧ entry.2.currentVersion > 0 then some (entry.1, entry.2.currentVersion)
    else none

/-- The versions that handles are based on. -/
def keptByHandles (db : Db H) : List (Nat × Nat) :=
  db.handles.entries.filterMap fun entry =>
    if entry.2.state ≠ .closed ∧ entry.2.expectedVersion > 0 then
      some (entry.2.inode, entry.2.expectedVersion)
    else none

/-- The number of versions of an inode that are newer than one. -/
def newerVersions (db : Db H) (key : Nat × Nat) : Nat :=
  db.versions.keys.countP fun other => other.1 = key.1 && decide (other.2 > key.2)

/-- The last versions of every inode. -/
def keptRecent (db : Db H) : List (Nat × Nat) :=
  db.versions.keys.filter fun key =>
    decide (db.newerVersions key < db.workspace.retentionKeepVersions)

/-- The versions that are not old enough. -/
def keptByAge (db : Db H) (env : Env) : List (Nat × Nat) :=
  (db.versions.entries.filter fun entry =>
    decide (db.workspace.retentionKeepDays > 0) &&
      decide (entry.2.createdAt + db.workspace.retentionKeepDays * 86400000 ≥ env.now)).map Prod.fst

/-- The history rows that the query for snapshots ranks. -/
def rankedStates (db : Db H) : Table (Nat × Nat) Inode :=
  db.inodeStates.filter fun _ row => row.published

/-- The versions that snapshots show. -/
def keptBySnapshots (db : Db H) : List (Nat × Nat) :=
  db.snapshots.entries.flatMap fun snapshot =>
    (db.rankedStates.latest snapshot.2.commit).entries.filterMap fun entry =>
      if entry.2.live then some (entry.1, entry.2.currentVersion) else none

/-- Add the sources of the aliases in a list of versions. -/
def withSources (db : Db H) (kept : List (Nat × Nat)) : List (Nat × Nat) :=
  kept ++ kept.filterMap fun key =>
    (db.versions.get key).bind fun version => version.source.map fun source => (key.1, source)

/-- Add sources a number of times. -/
def closeSources (db : Db H) : Nat -> List (Nat × Nat) -> List (Nat × Nat)
  | 0, kept => kept
  | rounds + 1, kept => db.closeSources rounds (db.withSources kept)

/-- `PrepareRetentionKeepSet`.  Every round of the closure adds the source of a
version, so there are no more rounds than versions. -/
def keepSet (db : Db H) (env : Env) : List (Nat × Nat) :=
  db.closeSources db.versions.entries.length
    (db.keptCurrent ++ db.keptByHandles ++ db.keptRecent ++ db.keptByAge env ++ db.keptBySnapshots)

/-! ## Deleting -/

/-- Some alias has a version as its source. -/
def hasAlias (db : Db H) (key : Nat × Nat) : Bool :=
  db.versions.entries.any fun entry => entry.1.1 = key.1 && entry.2.source = some key.2

/-- The versions that may be deleted. -/
def candidates (db : Db H) (env : Env) : List ((Nat × Nat) × Version H) :=
  let kept := db.keepSet env
  db.versions.entries.filter fun entry =>
    !kept.contains entry.1 && (entry.2.source.isSome || !db.hasAlias entry.1)

/-- The order in which versions are deleted: aliases first, then by age. -/
def deletionOrder (left right : (Nat × Nat) × Version H) : Prop :=
  let rank := fun entry : (Nat × Nat) × Version H => if entry.2.source.isSome then 0 else 1
  rank left < rank right ∨ rank left = rank right ∧
    (left.2.createdAt < right.2.createdAt ∨
      left.2.createdAt = right.2.createdAt ∧ left.2.id <= right.2.id)

instance : DecidableRel (deletionOrder (H := H)) := fun _ _ =>
  inferInstanceAs (Decidable (_ ∨ _))

/-- The versions that one run deletes. -/
def deletedVersions (db : Db H) (env : Env) (batch : Nat) : List ((Nat × Nat) × Version H) :=
  ((db.candidates env).insertionSort deletionOrder).take batch

/-- Delete some versions with everything that belongs to them. -/
def deleteVersions (db : Db H) (deleted : List ((Nat × Nat) × Version H)) : Db H :=
  let gone := deleted.map Prod.fst
  let manifests := deleted.filterMap fun entry => entry.2.manifest
  let entries := db.manifestChunks.filter fun key _ => !manifests.contains key.1
  { db with
    inodeStates := db.inodeStates.filter fun key row => !gone.contains (key.1, row.currentVersion)
    versions := db.versions.filter fun key _ => !gone.contains key
    manifestChunks := entries
    manifests := db.manifests.filter fun id _ => !manifests.contains id
    chunks := db.chunks.filter fun id _ => entries.entries.any fun entry => entry.2 = id }

end Db

/-- `vexfs_gc`. -/
def gc (env : Env) (batch : Nat) : Sql H Unit := do
  rejectIf (batch = 0) ⟨"batch must be a positive integer", .range⟩
  rejectIf (batch > 10000) ⟨"batch must be at most 10000", .range⟩
  let db <- reading id
  rejectIf (db.mountSession.any fun session => decide (session.leaseUntil > env.now))
    ⟨"workspace has an active mount session; unmount before GC", .busy⟩
  rejectIf db.workspace.gcPaused ⟨"workspace GC is paused", .busy⟩
  let deleted := db.deletedVersions env batch
  if deleted = [] then return ()
  else Tx.write fun db => db.deleteVersions deleted

end VexDB.VexFs
